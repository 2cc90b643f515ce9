import Mathlib.Data.List.Basic

/-!
# Reading and writing a whole frame

The model of `read_exact` and `write_all` (`ticket-agent/uds.c`). How a byte stream is cut into
system calls is an argument: a list of what each `read` or `write` does, interrupted, failed, or
moving some bytes. Past the end of the list every call moves all it can, so the lists are exactly
the finite ways to fragment a stream, and both functions are total.
-/

namespace TicketConnect

/-- One `read` or `write` call: `EINTR`, another error, or at most a number of bytes. -/
inductive IoEv where
  | eintr
  | fail
  | bytes (n : Nat)
deriving DecidableEq

/-! ## `read_exact` -/

/-- The result of `read_exact`: its return value, the bytes it stored, and what is left of the
stream and of the calls. -/
structure ReadOut where
  ret : Int
  buf : List UInt8
  stream : List UInt8
  calls : List IoEv
deriving DecidableEq

/-- `read_exact` of `n` bytes from a peer that sends `stream` and closes. A call that delivers
`bytes k` returns at least one byte, at most `k + 1`, and 0 at the end of the stream. -/
def readExact : List IoEv → Nat → List UInt8 → ReadOut
  | calls, 0, s => ⟨1, [], s, calls⟩
  | [], n + 1, s =>
    if n + 1 ≤ s.length then ⟨1, s.take (n + 1), s.drop (n + 1), []⟩ else ⟨0, s, [], []⟩
  | .eintr :: calls, n + 1, s => readExact calls (n + 1) s
  | .fail :: calls, _ + 1, s => ⟨-1, [], s, calls⟩
  | .bytes k :: calls, n + 1, s =>
    if s.length = 0 then ⟨0, [], s, calls⟩
    else
      let r := min (k + 1) (min (n + 1) s.length)
      let out := readExact calls (n + 1 - r) (s.drop r)
      { out with buf := s.take r ++ out.buf }

/-- A `read_exact` that returns 1 has delivered the first `n` bytes, whatever the calls did. -/
theorem readExact_ret_one : ∀ {calls : List IoEv} {n : Nat} {s : List UInt8},
    (readExact calls n s).ret = 1 →
    n ≤ s.length ∧ (readExact calls n s).buf = s.take n ∧ (readExact calls n s).stream = s.drop n
  | calls, 0, s, _ => by simp [readExact]
  | [], n + 1, s, h => by
    unfold readExact at h ⊢
    split
    · next hn => exact ⟨hn, rfl, rfl⟩
    · next hn => simp [hn] at h
  | .eintr :: calls, n + 1, s, h => by
    unfold readExact at h ⊢
    exact readExact_ret_one h
  | .fail :: calls, n + 1, s, h => by simp [readExact] at h
  | .bytes k :: calls, n + 1, s, h => by
    unfold readExact at h ⊢
    by_cases hs : s.length = 0
    · simp [hs] at h
    · simp only [if_neg hs] at h ⊢
      -- the bytes of this call and those of the calls after it are the first `n + 1`
      generalize hr : min (k + 1) (min (n + 1) s.length) = r at h ⊢
      obtain ⟨h₁, h₂, h₃⟩ := readExact_ret_one h
      rw [List.length_drop] at h₁
      refine ⟨by omega, ?_, ?_⟩
      · rw [h₂, ← List.take_add, show r + (n + 1 - r) = n + 1 by omega]
      · rw [h₃, List.drop_drop, show r + (n + 1 - r) = n + 1 by omega]

/-- Where the stream is long enough and no call fails, `read_exact` returns 1, and the calls after
it do not fail either. -/
theorem readExact_ok : ∀ {calls : List IoEv} {n : Nat} {s : List UInt8}, .fail ∉ calls →
    n ≤ s.length → (readExact calls n s).ret = 1 ∧ .fail ∉ (readExact calls n s).calls
  | calls, 0, s, hf, _ => ⟨by simp [readExact], by simpa [readExact] using hf⟩
  | [], n + 1, s, _, hn => by simp [readExact, hn]
  | .eintr :: calls, n + 1, s, hf, hn => by
    unfold readExact
    exact readExact_ok (fun h => hf (.tail _ h)) hn
  | .fail :: calls, n + 1, s, hf, _ => absurd (.head _) hf
  | .bytes k :: calls, n + 1, s, hf, hn => by
    unfold readExact
    rw [if_neg (by omega)]
    exact readExact_ok (fun h => hf (.tail _ h)) (by rw [List.length_drop]; omega)

/-- A `read_exact` that returns 1, as a whole. -/
theorem readExact_eq {calls : List IoEv} {n : Nat} {s : List UInt8}
    (h : (readExact calls n s).ret = 1) :
    readExact calls n s = ⟨1, s.take n, s.drop n, (readExact calls n s).calls⟩ := by
  obtain ⟨-, hbuf, hstream⟩ := readExact_ret_one h
  generalize readExact calls n s = out at h hbuf hstream ⊢
  cases out
  simp_all

/-- `read_exact` either returns 1 with the first `n` bytes, or it does not return 1. -/
theorem readExact_cases (calls : List IoEv) (n : Nat) (s : List UInt8) :
    (readExact calls n s).ret ≠ 1 ∨
      ∃ calls', n ≤ s.length ∧ readExact calls n s = ⟨1, s.take n, s.drop n, calls'⟩ := by
  by_cases h : (readExact calls n s).ret = 1
  · exact .inr ⟨_, (readExact_ret_one h).1, readExact_eq h⟩
  · exact .inl h

/-- `read_exact` of a stream that is long enough, where no call fails. -/
theorem readExact_take {calls : List IoEv} (hf : .fail ∉ calls) {n : Nat} {s : List UInt8}
    (hn : n ≤ s.length) :
    ∃ calls', .fail ∉ calls' ∧ readExact calls n s = ⟨1, s.take n, s.drop n, calls'⟩ := by
  obtain ⟨hret, hf'⟩ := readExact_ok hf hn
  exact ⟨_, hf', readExact_eq hret⟩

/-- `read_exact` of a stream that ends too early. -/
theorem readExact_short {calls : List IoEv} {n : Nat} {s : List UInt8} (hn : s.length < n) :
    (readExact calls n s).ret ≠ 1 := by
  intro h
  have := (readExact_ret_one h).1
  omega

/-- `read_exact` of the front of a stream, where no call fails. -/
theorem readExact_append {calls : List IoEv} (hf : .fail ∉ calls) {n : Nat} {a : List UInt8}
    (hn : a.length = n) (b : List UInt8) :
    ∃ calls', .fail ∉ calls' ∧ readExact calls n (a ++ b) = ⟨1, a, b, calls'⟩ := by
  subst hn
  obtain ⟨calls', hf', h⟩ := readExact_take hf (show a.length ≤ (a ++ b).length by simp)
  rw [List.take_left, List.drop_left] at h
  exact ⟨calls', hf', h⟩

/-! ## `write_all` -/

/-- The result of `write_all`: its return value, the bytes that went out, and the calls left. -/
structure WriteOut where
  ret : Int
  wire : List UInt8
  calls : List IoEv
deriving DecidableEq

/-- `write_all`. -/
def writeAll : List IoEv → List UInt8 → WriteOut
  | calls, [] => ⟨1, [], calls⟩
  | [], buf => ⟨1, buf, []⟩
  | .eintr :: calls, b :: buf => writeAll calls (b :: buf)
  | .fail :: calls, _ :: _ => ⟨-1, [], calls⟩
  | .bytes k :: calls, b :: buf =>
    let out := writeAll calls ((b :: buf).drop k)
    { out with wire := (b :: buf).take k ++ out.wire }

/-- Where no call fails, `write_all` puts the whole buffer on the wire. -/
theorem writeAll_ok : ∀ {calls : List IoEv} (buf : List UInt8), .fail ∉ calls →
    (writeAll calls buf).ret = 1 ∧ (writeAll calls buf).wire = buf ∧
      .fail ∉ (writeAll calls buf).calls
  | calls, [], hf => by simp [writeAll, hf]
  | [], _ :: _, _ => by simp [writeAll]
  | .eintr :: calls, b :: buf, hf => by
    unfold writeAll
    exact writeAll_ok _ fun h => hf (.tail _ h)
  | .fail :: calls, _ :: _, hf => absurd (.head _) hf
  | .bytes k :: calls, b :: buf, hf => by
    unfold writeAll
    obtain ⟨h₁, h₂, h₃⟩ := writeAll_ok ((b :: buf).drop k) fun h => hf (.tail _ h)
    exact ⟨h₁, by dsimp only; rw [h₂, List.take_append_drop], h₃⟩

end TicketConnect
