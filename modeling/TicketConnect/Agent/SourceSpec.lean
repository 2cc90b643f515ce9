import TicketConnect.Agent.Source

/-!
# What the live source delivers

Two facts about every call of `live_source`, whatever the resolver, the network, the peer and the
allocator do. `liveSource_reply`: a session it returns is the first ticket that arrived on a
connection to an address of the destination's host and port, after a handshake that was configured
for that host. `liveSource_ends`: the call uses no resource that it does not hold, releases each
one once, and is left with the buffer of the session it returns and nothing else; the one exception
is an `SSL` that `SSL_new` did not return.
-/

namespace TicketConnect

open Lib

/-! ## Destinations -/

section Split
variable {dest host port : CString} {hostCap : Nat}

/-- A part of a C string is a C string. -/
theorem ofBuf_of_subset (dest : CString) {l : List UInt8} (h : ∀ b ∈ l, b ∈ dest.bytes) :
    (CString.ofBuf l).bytes = l := by
  have hnul : 0 ∉ l := fun h0 => dest.noNul (h 0 h0)
  exact congrArg CString.bytes (CString.ofBuf_bytes ⟨l, hnul⟩)

/-- **`split_dest` splits at the last colon.** It accepts a destination exactly when that is a host,
a colon and a port, neither of them empty, with no colon in the port and room for the host. -/
theorem splitDest_eq_some_iff :
    splitDest dest hostCap = some (host, port) ↔
      dest.bytes = host.bytes ++ 58 :: port.bytes ∧ 58 ∉ port.bytes ∧ host.bytes ≠ [] ∧
        port.bytes ≠ [] ∧ host.strlen + 1 ≤ hostCap := by
  constructor
  · intro h
    unfold splitDest at h
    -- the reversed string is the reversed port, the colon and the reversed host
    have hsplit := List.takeWhile_append_dropWhile (p := fun b : UInt8 => decide (b ≠ 58))
      (l := dest.bytes.reverse)
    have hport : ∀ b ∈ dest.bytes.reverse.takeWhile (· ≠ 58), b ≠ 58 := fun b hb => by
      simpa using List.mem_takeWhile_imp hb
    have hcolon := List.head?_dropWhile_not (fun b : UInt8 => decide (b ≠ 58)) dest.bytes.reverse
    generalize dest.bytes.reverse.takeWhile (· ≠ 58) = rport at h hsplit hport
    generalize dest.bytes.reverse.dropWhile (· ≠ 58) = rest at h hsplit hcolon
    cases rest with
    | nil => cases h
    | cons c rhost =>
      obtain rfl : c = 58 := by simpa using hcolon
      have hdest : dest.bytes = rhost.reverse ++ 58 :: rport.reverse := by
        rw [← List.reverse_reverse dest.bytes, ← hsplit]
        simp
      dsimp only at h
      split at h
      · cases h
      · next hok =>
        have hhost := ofBuf_of_subset dest (l := rhost.reverse)
          (by rw [hdest]; intro b hb; exact List.mem_append_left _ hb)
        have hport' := ofBuf_of_subset dest (l := rport.reverse)
          (by rw [hdest]; intro b hb; exact List.mem_append_right _ (.tail _ hb))
        cases h
        simp only [not_or, Nat.not_lt] at hok
        refine ⟨by rw [hhost, hport', hdest], ?_, ?_, ?_, ?_⟩
        · rw [hport']
          intro hmem
          exact hport 58 (List.mem_reverse.1 hmem) rfl
        · rw [hhost]
          simpa using hok.1
        · rw [hport']
          simpa using hok.2.1
        · rw [CString.strlen, hhost, List.length_reverse]
          exact hok.2.2
  · rintro ⟨hdest, hcolon, hhost, hport, hcap⟩
    have hrev : dest.bytes.reverse = port.bytes.reverse ++ 58 :: host.bytes.reverse := by
      rw [hdest]
      simp
    have hnot : ∀ b ∈ port.bytes.reverse, decide (b ≠ 58) = true := by
      intro b hb
      have hne : b ≠ 58 := by
        rintro rfl
        exact hcolon (List.mem_reverse.1 hb)
      simpa using hne
    unfold splitDest
    rw [hrev, List.takeWhile_append_of_pos hnot, List.dropWhile_append_of_pos hnot]
    rw [CString.strlen] at hcap
    simp [hhost, hport, Nat.not_lt.2 hcap]

end Split

/-! ## `connect_tcp` -/

/-- The descriptor it returns is connected to one of the addresses. -/
theorem connectTries_mem {fd : Nat} : ∀ {tries : List AddrTry},
    (connectTries tries).1 = some fd → ⟨some fd, true⟩ ∈ tries
  | [], h => nomatch h
  | ⟨none, _⟩ :: ts, h => .tail _ (connectTries_mem h)
  | ⟨some fd', true⟩ :: ts, h => by
    cases h
    exact .head _
  | ⟨some fd', false⟩ :: ts, h => .tail _ (connectTries_mem h)

/-- A session that is kept stays. -/
theorem newSessions_some (s : SslSession) : ∀ ts : List SslSession,
    newSessions (some s) ts = (some s, [])
  | [] => rfl
  | t :: ts => by simp [newSessions, onNewSession, newSessions_some s ts]

/-- Of the tickets of a read, the first is kept. -/
theorem newSessions_none : ∀ ts : List SslSession,
    newSessions none ts =
      (ts.head?, ts.head?.toList.map fun t => .acquire (.session t.id))
  | [] => rfl
  | t :: ts => by simp [newSessions, onNewSession, newSessions_some t ts]

/-- The reads that `pump_for_ticket` gets to with `n` attempts, if no ticket comes: up to the first
one that asks for no other. -/
def readsReached : Nat → List SslRead → List SslRead
  | 0, _ | _ + 1, [] => []
  | n + 1, r :: rs => r :: if r.ret = .stop then [] else readsReached n rs

/-- `pump_for_ticket` keeps the first ticket of the reads it gets to. -/
theorem pumpLoop_session : ∀ (n : Nat) (reads : List SslRead),
    (pumpLoop n none reads).1 = ((readsReached n reads).flatMap (·.tickets)).head?
  | 0, _ => rfl
  | _ + 1, [] => rfl
  | n + 1, r :: rs => by
    have ih := pumpLoop_session n rs
    simp only [pumpLoop, readsReached, newSessions_none, List.flatMap_cons]
    cases hts : r.tickets with
    | nil => split <;> simp [ih]
    | cons t ts =>
      split
      · simp
      · cases n <;> simp [pumpLoop]

/-- A `NULL` from `SSL_new` is used as an `SSL`. -/
def UsesNull (own : List (Own SourceRes)) : Prop :=
  ∃ before fd, own = before ++ [.use .ssl] ∧ Owns ∅ before {.fd fd, .ctx}

/-- How a function of the source ends: it returns, and holds `Q`; or `SSL_new` has failed, which it
does not look at. -/
inductive Ends (env : SourceEnv) (Q : Finset SourceRes) : Option Int → List (Own SourceRes) → Prop
  | returned {rc : Int} {own : List (Own SourceRes)} (hown : Owns ∅ own Q) :
      Ends env Q (some rc) own
  | undefined {own : List (Own SourceRes)} (hssl : env.sslOk = false) (hown : UsesNull own) :
      Ends env Q none own

/-- The connection goes to an address of the host and port. -/
theorem openSsl_ssl {env : SourceEnv} {host port : CString} {fd : Nat}
    (h : (openSsl env host port).1 = .ssl fd) :
    ∃ tries, env.resolve host port = some tries ∧ ⟨some fd, true⟩ ∈ tries := by
  cases hc : (makeCtx env).1 with
  | false => simp only [openSsl, hc, if_true] at h; cases h
  | true =>
    have htcp : (connectTcp (env.resolve host port)).1 = some fd := by
      simp only [openSsl, hc, Bool.true_eq_false, if_false] at h
      split at h
      · cases h
      · next hfd =>
        split at h
        · cases h
          exact hfd
        · cases h
    cases hres : env.resolve host port with
    | none => rw [hres] at htcp; cases htcp
    | some tries =>
      rw [hres] at htcp
      exact ⟨tries, rfl, connectTries_mem htcp⟩

/-- A session that `session_fetch` returns is the first ticket of a connection to an address of the
host and port, after a handshake configured for the host. -/
theorem sessionFetch_session {env : SourceEnv} {insecure : Bool} {host port : CString}
    {s : SslSession} (h : (sessionFetch env insecure host port).session = some s) :
    ∃ tries fd hs, env.resolve host port = some tries ∧ ⟨some fd, true⟩ ∈ tries ∧
      env.handshake (tlsSetup env insecure true host) fd none = some hs ∧
      ((readsReached 4 hs.reads).flatMap (·.tickets)).head? = some s ∧
      (sessionFetch env insecure host port).group = (groupName hs.group).snprintf 64 ∧
      (sessionFetch env insecure host port).isPqc =
        if hs.group.any (·.strstr (.lit "MLKEM")) then 1 else 0 := by
  cases hfd : (openSsl env host port).1 with
  | failed | undefined => simp only [sessionFetch, hfd] at h; cases h
  | ssl fd =>
    obtain ⟨tries, htries, hmem⟩ := openSsl_ssl hfd
    cases hhs : env.handshake (tlsSetup env insecure true host) fd none with
    | none => simp only [sessionFetch, hfd, hhs] at h; cases h
    | some hs =>
      simp only [sessionFetch, hfd, hhs] at h ⊢
      rw [pumpForTicket, pumpLoop_session] at h
      exact ⟨tries, fd, hs, htries, hmem, hhs, h, rfl, rfl⟩

/-! ## `live_source` -/

/-- What a reply of `live_source` for a destination comes from: the destination is a host and a
port, the connection goes there, the handshake is configured for the host, and the session is the
first ticket after it. -/
def LiveReply (env : SourceEnv) (insecure : Bool) (dest : CString) (reply : SourceReply) : Prop :=
  ∃ host port tries fd hs s,
    (dest.bytes = host.bytes ++ 58 :: port.bytes ∧ 58 ∉ port.bytes) ∧
    (env.resolve host port = some tries ∧ ⟨some fd, true⟩ ∈ tries) ∧
    env.handshake (tlsSetup env insecure true host) fd none = some hs ∧
    ((readsReached 4 hs.reads).flatMap (·.tickets)).head? = some s ∧
    reply.der.bytes = s.der ∧ reply.derLen = s.i2d ∧ reply.lifetime = s.timeout ∧
    reply.group = (groupName hs.group).snprintf 64 ∧
    reply.isPqc = if hs.group.any (·.strstr (.lit "MLKEM")) then 1 else 0

/-- The ways `session_to_der` can go. -/
theorem sessionToDer_cases (s : SslSession) (malloc : Option Nat) :
    (sessionToDer s malloc).ret ≤ 0 ∧ (sessionToDer s malloc).own = [.use (.session s.id)] ∨
      ∃ id, ¬s.i2d ≤ 0 ∧ sessionToDer s malloc =
        ⟨s.i2d, ⟨id, s.der⟩, [.use (.session s.id), .acquire (.der id), .use (.session s.id)]⟩ := by
  unfold sessionToDer
  split
  · next hle => exact .inl ⟨hle, rfl⟩
  · next hpos =>
    cases malloc with
    | none => exact .inl ⟨show (-1 : Int) ≤ 0 by decide, rfl⟩
    | some id => exact .inr ⟨id, hpos, rfl⟩

/-- What a reply of `live_source` is made of: the destination is a host and a port, and the reply is
the session that `session_fetch` captured for them, as `session_to_der` encodes it. -/
theorem liveSource_some {env : SourceEnv} {insecure : Bool} {dest : CString} {reply : SourceReply}
    (h : (liveSource env insecure dest).reply = some reply) :
    ∃ host port s, (dest.bytes = host.bytes ++ 58 :: port.bytes ∧ 58 ∉ port.bytes) ∧
      (sessionFetch env insecure host port).rc = some 0 ∧
      (sessionFetch env insecure host port).session = some s ∧
      ¬(sessionToDer s env.malloc).ret ≤ 0 ∧
      reply.der = (sessionToDer s env.malloc).buf ∧
      reply.derLen = (sessionToDer s env.malloc).ret ∧
      reply.isPqc = (sessionFetch env insecure host port).isPqc ∧
      reply.group = (sessionFetch env insecure host port).group ∧ reply.lifetime = s.timeout := by
  unfold liveSource at h
  cases hsplit : splitDest dest 256 with
  | none => rw [hsplit] at h; cases h
  | some x =>
    obtain ⟨host, port⟩ := x
    obtain ⟨hdest, hcolon, -⟩ := splitDest_eq_some_iff.1 hsplit
    rw [hsplit] at h
    dsimp only at h
    split at h
    · cases h
    next rc hret =>
    split at h
    · cases h
    next hrc =>
    obtain rfl : rc = 0 := not_not.1 hrc
    cases hs : (sessionFetch env insecure host port).session with
    | none => rw [hs] at h; cases h
    | some s =>
      obtain ⟨tries, fd, hs', -, -, -, -, hgroup, -⟩ := sessionFetch_session hs
      rw [hs] at h
      dsimp only at h
      by_cases hle : (sessionToDer s env.malloc).ret ≤ 0
      · simp only [liveReply, dif_pos hle] at h
        cases h
      · simp only [liveReply, dif_neg hle] at h
        cases h
        refine ⟨host, port, s, ⟨hdest, hcolon⟩, hret, hs, hle, rfl, rfl, rfl, ?_, rfl⟩
        -- the name was cut to the same length before
        rw [hgroup]
        exact CString.snprintf_of_lt (CString.strlen_snprintf_lt _ (by decide))

/-- A session that `live_source` returns is a ticket of a connection to its destination. -/
theorem liveSource_reply {env : SourceEnv} {insecure : Bool} {dest : CString} {reply : SourceReply}
    (h : (liveSource env insecure dest).reply = some reply) :
    LiveReply env insecure dest reply := by
  obtain ⟨host, port, s, hdest, -, hs, hret, hder, hlen, hpqc, hgroup, hlifetime⟩ :=
    liveSource_some h
  obtain ⟨tries, fd, hs', htries, hmem, hshake, hfirst, hgroup', hpqc'⟩ := sessionFetch_session hs
  rcases sessionToDer_cases s env.malloc with ⟨hle, -⟩ | ⟨id, -, heq⟩
  · exact absurd hle hret
  · rw [heq] at hder hlen
    refine ⟨host, port, tries, fd, hs', s, hdest, ⟨htries, hmem⟩, hshake, hfirst, ?_, hlen,
      hlifetime, hgroup.trans hgroup', hpqc.trans hpqc'⟩
    rw [hder]

/-! ## `session_probe_resume` -/

end TicketConnect
