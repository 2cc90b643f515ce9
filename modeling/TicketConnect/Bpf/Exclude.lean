import TicketConnect.Bpf.Pidns
import TicketConnect.Lib.CString

/-!
# The threads the probe leaves alone

`excluded` (`bpf/ssl_connect.bpf.c`) compares the name of the calling thread with the name that
`main` (`injector/main.c`) took from `--exclude-comm`. Three cuts meet here: `snprintf` keeps 15
bytes of the option, the kernel keeps 15 bytes of the thread's name, and the loop goes over 16
bytes. `excluded_iff` says that they agree, and `Pidns.onSslConnectRun_reports_iff` what follows for
the probe: it neither reports nor stops exactly the calls of threads of that name. `Pidns.probe` is
this program on the node, and `Node.run_program` connects its runs with the steps of the node's
threads.
-/

namespace TicketConnect

open Lib

/-! ## Names in sixteen bytes -/

/-- `TASK_COMM_LEN`, the size of `exclude_comm` and `comm`. -/
abbrev commLen : Nat := 16

/-- A string in a zeroed array of `commLen` bytes, cut to leave room for the terminator. -/
def commArray (s : CString) : Vector UInt8 commLen :=
  ⟨((s.snprintf commLen).bytes.rightpad commLen 0).toArray, by
    simp only [commLen, List.size_toArray, List.length_rightpad, CString.snprintf_bytes,
      List.length_take]
    omega⟩

/-- `exclude_comm` as `main` sets it: the option copied by `snprintf` into the zeroed array. -/
def excludeComm (opt : CString) : Vector UInt8 commLen := commArray opt

/-- `bpf_get_current_comm`: the name of the calling thread as the kernel keeps it. -/
def currentComm (name : CString) : Vector UInt8 commLen := commArray name

/-- The loop of `excluded` over both arrays. -/
def excludedLoop : (excludeComm comm : List UInt8) → Bool
  | e :: es, c :: cs =>
    if e = 0 then decide (c = 0)
    else if c ≠ e then false
    else excludedLoop es cs
  | _, _ => true

/-- `excluded`. -/
def excluded (excludeComm comm : Vector UInt8 commLen) : Bool :=
  if excludeComm[0] = 0 then false else excludedLoop excludeComm.toList comm.toList

/-! ## What the loop compares -/

/-- Over two strings with zeros behind them, as many bytes in all, the loop compares the strings. -/
theorem excludedLoop_pad {s t : List UInt8} (hs : 0 ∉ s) (ht : 0 ∉ t) {m n : Nat}
    (hlen : s.length + m = t.length + n) (hm : 0 < m) (hn : 0 < n) :
    excludedLoop (s ++ List.replicate m 0) (t ++ List.replicate n 0) = true ↔ s = t := by
  obtain ⟨m, rfl⟩ : ∃ k, m = k + 1 := ⟨m - 1, by omega⟩
  obtain ⟨n, rfl⟩ : ∃ k, n = k + 1 := ⟨n - 1, by omega⟩
  induction s generalizing t with
  | nil =>
    cases t with
    | nil => simp [List.replicate_succ, excludedLoop]
    | cons c t =>
      have hc : c ≠ 0 := fun h => ht (h ▸ List.mem_cons_self)
      simp [List.replicate_succ, excludedLoop, hc]
  | cons e s ih =>
    have he : e ≠ 0 := fun h => hs (h ▸ List.mem_cons_self)
    cases t with
    | nil => simp [List.replicate_succ, excludedLoop, he, he.symm]
    | cons c t =>
      have ih := ih (t := t) (fun h => hs (List.mem_cons_of_mem _ h))
        (fun h => ht (List.mem_cons_of_mem _ h)) (by simpa [Nat.succ_add] using hlen)
      simp only [List.cons_append, excludedLoop, he, if_false, List.cons.injEq]
      by_cases hce : c = e
      · simp [hce, ih]
      · simp [hce, Ne.symm hce]

/-- The array holds the first 15 bytes of the string and at least one zero behind them. -/
theorem commArray_eq (s : CString) :
    ∃ n, 0 < n ∧ (s.bytes.take 15).length + n = commLen ∧
      (commArray s).toList = s.bytes.take 15 ++ List.replicate n 0 := by
  refine ⟨commLen - (s.bytes.take 15).length, ?_, ?_, rfl⟩ <;>
    simp only [commLen, List.length_take] <;> omega

/-- The first byte of the array is zero for the empty string only. -/
theorem commArray_head (s : CString) : (commArray s)[0] = 0 ↔ s = CString.empty := by
  obtain ⟨n, hn, -, harr⟩ := commArray_eq s
  have hhead : (commArray s)[0] = (s.bytes.take 15 ++ List.replicate n 0).headD 0 := by
    rw [← harr, List.headD_eq_head?_getD, List.head?_eq_getElem?]
    simp
  rw [hhead]
  obtain ⟨bytes, noNul⟩ := s
  cases bytes with
  | nil => cases n <;> simp [CString.empty, List.replicate_succ]
  | cons b bs =>
    have hb : b ≠ 0 := fun h => noNul (h ▸ List.mem_cons_self)
    simp [CString.empty, hb]

/-- `excluded` compares the first 15 bytes of two strings, and fails for an empty first one. -/
theorem excluded_commArray (s t : CString) :
    excluded (commArray s) (commArray t) = true ↔
      s ≠ CString.empty ∧ s.bytes.take 15 = t.bytes.take 15 := by
  obtain ⟨m, hm, hlm, hs⟩ := commArray_eq s
  obtain ⟨n, hn, hln, ht⟩ := commArray_eq t
  have hloop := excludedLoop_pad (fun h => s.noNul (List.mem_of_mem_take h))
    (fun h => t.noNul (List.mem_of_mem_take h)) (hlm.trans hln.symm) hm hn
  rw [← hs, ← ht] at hloop
  rw [← hloop, Ne, ← commArray_head s]
  unfold excluded
  split_ifs with h0 <;> simp [h0]

/-- **The probe excludes exactly by name.** `excluded` holds for a thread if and only if the option
is not empty and the first 15 bytes of the option are those of the thread's name. -/
theorem excluded_iff (opt name : CString) :
    excluded (excludeComm opt) (currentComm name) = true ↔
      opt ≠ CString.empty ∧ opt.bytes.take 15 = name.bytes.take 15 :=
  excluded_commArray opt name

/-- The option excludes the name: it is not empty, and the first 15 bytes agree. -/
def Excludes (opt name : CString) : Prop :=
  opt ≠ CString.empty ∧ opt.bytes.take 15 = name.bytes.take 15

/-! ## The whole probe -/

/-- What one run of the probe does: the event it submits, and whether it stops its caller. -/
structure ProbeRun where
  event : Option SslEvent
  sigstop : Bool
deriving DecidableEq

namespace Pidns
variable {N T : Type} (w : Pidns N T)

/-- `on_ssl_connect`, where `reserved` says whether the ring buffer had room for an event. -/
def onSslConnectRun (exclude comm : Vector UInt8 commLen) (targetDev targetIno : Nat)
    (freeze reserved : Bool) (cur : T) (ssl : Nat) : ProbeRun :=
  if excluded exclude comm then ⟨none, false⟩
  else if !reserved then ⟨none, false⟩
  else ⟨some (w.onSslConnect targetDev targetIno cur ssl), freeze⟩

/-- The probe reports every call for which it has room but those of the excluded name, and in freeze
mode it stops the same callers. -/
theorem onSslConnectRun_reports_iff (opt name : CString) (targetDev targetIno : Nat)
    (freeze reserved : Bool) (cur : T) (ssl : Nat) :
    let run := w.onSslConnectRun (excludeComm opt) (currentComm name) targetDev targetIno freeze
      reserved cur ssl
    (run.event.isSome = true ↔ reserved = true ∧ ¬Excludes opt name) ∧
      run.sigstop = (freeze && run.event.isSome) := by
  intro run
  rw [Excludes, ← excluded_commArray]
  simp only [run, onSslConnectRun, excludeComm, currentComm]
  cases reserved <;> split_ifs with hex <;> simp [hex]

/-! ## The probe on the node -/

/-- The probe of an injector in a namespace, as `main` sets it up. `task` says which task a thread
of the node is (no other thread makes a call), and `name` which name the thread has in each call. -/
def probe (injector : N) (opt : CString) (task : Thread → Option T)
    (name : Thread → Nat → CString) : Probe := fun t call ssl =>
  (task t).bind fun cur => (w.onSslConnectRun (excludeComm opt) (currentComm (name t call))
    (w.dev injector) (w.ino injector) true true cur ssl).event

section Probe
variable {w} {injector : N} {opt : CString} {task : Thread → Option T}
  {name : Thread → Nat → CString}

/-- A call that is reported has another name than the excluded one. -/
theorem probe_eq_some {t : Thread} {call ssl : Nat} {e : SslEvent}
    (h : w.probe injector opt task name t call ssl = some e) :
    ¬Excludes opt (name t call) ∧
      ∃ cur, task t = some cur ∧ e = w.onSslConnect (w.dev injector) (w.ino injector) cur ssl := by
  obtain ⟨cur, hcur, hevent⟩ := Option.bind_eq_some_iff.1 h
  have hreports := (w.onSslConnectRun_reports_iff opt (name t call) (w.dev injector)
    (w.ino injector) true true cur ssl).1
  refine ⟨(hreports.1 (by rw [hevent]; rfl)).2, cur, hcur, ?_⟩
  unfold onSslConnectRun at hevent
  split_ifs at hevent
  exact (Option.some.inj hevent).symm

/-- A call of the excluded name is not reported. -/
theorem probe_eq_none {t : Thread} {call : Nat} (h : Excludes opt (name t call)) (ssl : Nat) :
    w.probe injector opt task name t call ssl = none := by
  cases he : w.probe injector opt task name t call ssl with
  | none => rfl
  | some e => exact absurd h (probe_eq_some he).1

/-- Where the injector sees every task by its ids, each event has the ids of its thread. -/
theorem probe_names (h : ∀ t cur, task t = some cur → w.Sees injector t cur) :
    (w.probe injector opt task name).Names := by
  intro t call ssl e he
  obtain ⟨-, cur, hcur, rfl⟩ := probe_eq_some he
  exact (h t cur hcur).onSslConnect ssl

/-- What a thread of the node reports is what the program submits for its task. -/
theorem report_probe {s : Node} {t : Thread} {cur : T} (hcur : task t = some cur) (ok : Bool) :
    s.report (w.probe injector opt task name) t ok =
      (w.onSslConnectRun (excludeComm opt) (currentComm (name t (s.threads t).call))
        (w.dev injector) (w.ino injector) true ok cur (s.threads t).ssl).event := by
  cases ok with
  | true => simp only [Node.report, probe, hcur, if_true, Option.bind_some]
  | false =>
    simp only [Node.report, onSslConnectRun, Bool.false_eq_true, if_false, Bool.not_false, if_true]
    split <;> rfl

end Probe

end Pidns

/-- The steps of a thread of the node that a run of the program is. -/
def ProbeRun.acts (r : ProbeRun) (t : Thread) (reserved : Bool) : List NodeAct :=
  .reserve t reserved ::
    ((if r.event.isSome then [.submit t] else []) ++ if r.sigstop then [.sigstop t] else [])

section Run
variable {N T : Type} (w : Pidns N T) (injector : N) (opt : CString) {task : Thread → Option T}
  (name : Thread → Nat → CString) {s : Node} {t : Thread} {cur : T}

/-- **A run of the program is a run of the node's thread.** A thread in the program can take the
steps that the run stands for, to the entry of `SSL_connect`; it stops its process exactly where the
run does. -/
theorem Node.run_program (hcur : task t = some cur) (hphase : (s.threads t).phase = .probe)
    (ok : Bool) :
    let r := w.onSslConnectRun (excludeComm opt) (currentComm (name t (s.threads t).call))
      (w.dev injector) (w.ino injector) true ok cur (s.threads t).ssl
    ∃ s', run (Node.step (w.probe injector opt task name)) s (r.acts t ok) = some s' ∧
      (s'.threads t).phase = .entry ∧
      (s'.stopped t.pid = true ↔ s.stopped t.pid = true ∨ r.sigstop = true) := by
  intro r
  have hreport : s.report (w.probe injector opt task name) t ok = r.event :=
    Pidns.report_probe hcur ok
  have hstop : r.sigstop = r.event.isSome :=
    (w.onSslConnectRun_reports_iff opt _ _ _ true ok cur _).2.trans (Bool.true_and _)
  unfold ProbeRun.acts
  rw [hstop]
  cases hevent : r.event with
  | none =>
    rw [hevent] at hreport
    refine ⟨s.setPhase t .entry, ?_, by simp, by simp [Node.setPhase, Node.setThread]⟩
    simp [run, Node.step, hphase, hreport]
  | some e =>
    rw [hevent] at hreport
    refine ⟨_, by simp [run, Node.step, hphase, hreport]; rfl, by simp, by simp⟩

end Run

end TicketConnect
