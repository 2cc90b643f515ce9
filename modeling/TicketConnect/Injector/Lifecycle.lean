import TicketConnect.Injector.Daemon

/-!
# The life of the injector

What holds over every run of the injector's process (`injectorMain`). `injector_detaches_all`: a
process that gets as far as its loop, and is not killed in it, detaches every probe, once, when it
exits. `new_library_probed`: with `--scan`, a libssl file that shows up on the node is probed before
25 more polls have been made.
-/

namespace TicketConnect

open Lib

/-! ## Readings of the effects -/

/-- The events of the process's own resources. -/
def daemonOwn (effs : List DaemonEff) : List (Own DaemonRes) :=
  effs.filterMap fun
    | .own e => some e
    | _ => none

/-- The effects of `on_event`. -/
def eventEffs (effs : List DaemonEff) : List EventEff :=
  effs.filterMap fun
    | .event e => some e
    | _ => none

section Readings
variable (effs effs' : List DaemonEff) (evs : List EventEff)

@[simp] theorem daemonOwn_cons_stderr (line : CString) :
    daemonOwn (.stderr line :: effs) = daemonOwn effs := rfl

@[simp] theorem daemonOwn_nil : daemonOwn [] = [] := rfl

end Readings

/-! ## Probes -/

/-- The resources of the probes of a table, in order. -/
def Table.probeList (t : Table) : List DaemonRes :=
  (t.att.filter (·.link.isSome)).map fun a => .probe a.key

/-- The probes of a table. -/
def Table.probes (t : Table) : Finset DaemonRes := t.probeList.toFinset

section Probes
variable {t t' : Table} {key : CString}

theorem Table.mem_probes {r : DaemonRes} :
    r ∈ t.probes ↔ ∃ a ∈ t.att, a.link.isSome ∧ DaemonRes.probe a.key = r := by
  simp [Table.probes, Table.probeList, and_assoc]

end Probes

section Scan
variable {self : Int} {dry : Bool} {P : Finset DaemonRes} (hskel : .skel ∈ P)
  (hP : ∀ key, .probe key ∉ P)

include hskel hP

end Scan

/-- `scan` extends the table. -/
theorem scanRun_extends (self : Int) (dry : Bool) (procs : Option (List ProcEntry)) (t : Table) :
    t.Extends (scanRun self dry procs t).table :=
  ScanCall.after_extends ⟨dry, procs⟩ self t

/-! ## The loop -/

section Loop
variable (self : Int) (sock dest : CString) (doScan : Bool)

/-- The end of a round extends the table. -/
theorem rescan_extends (p : Poll) (st : LoopState) :
    st.table.Extends (rescan self doScan p st).1.table := by
  unfold rescan
  split
  · split
    · exact scanRun_extends self false p.procs st.table
    · exact .refl _
  · exact .refl _

/-- The loop extends the table. -/
theorem pollLoop_extends (ps : List Poll) (st : LoopState) :
    st.table.Extends (pollLoop self sock dest doScan ps st).state.table := by
  induction ps generalizing st with
  | nil => exact .refl _
  | cons p ps ih =>
    rw [pollLoop]
    dsimp only
    split
    · exact .refl _
    split
    · exact .refl _
    · exact (rescan_extends self doScan p st).trans (ih _)

variable {P : Finset DaemonRes} (hskel : .skel ∈ P) (hP : ∀ key, .probe key ∉ P)

include hskel hP

end Loop

/-! ## The way from start to exit -/

/-- What the process holds beside the ring buffer and the probes of the table. -/
def InjectorArgs.base (o : InjectorArgs) : Finset DaemonRes :=
  if 0 < o.target then {.targetProbe, .skel} else {.skel}

section Exit
variable (env : InjectorEnv) (o : InjectorArgs)

end Exit

/-! ## The ends of the process -/

section Main
variable (env : InjectorEnv) (o : InjectorArgs) (sock dest : CString) {t : Table}
  {ready : List DaemonEff}

end Main

/-- The node of the samples: one process with a libssl file of its own. -/
def sampleProcs : Option (List ProcEntry) :=
  some [{ nodeEntry 7 with comm := some [110, 103, 105, 110, 120, 10] }]

/-- A system in which everything can be opened and attached to. -/
def sampleInjector (procs : Option (List ProcEntry)) (polls : List Poll) : InjectorEnv where
  self := 1
  procs
  openOk := true
  pidns := none
  loadOk := true
  maps := none
  attachOk _ := true
  ringOk := true
  polls

/-- `injector --agent agent --dest h:1 --scan`. -/
def sampleArgv : List CString :=
  [.lit "injector", .lit "--agent", .lit "agent", .lit "--dest", .lit "h:1", .lit "--scan"]

/-! ## New files -/

/-- Some process shows a libssl file with this key, and it can be probed. -/
def Shows (self : Int) (key : CString) (procs : Option (List ProcEntry)) : Prop :=
  ∃ es, procs = some es ∧ ∃ e ∈ es, ∃ use, e.libssl self = some use ∧
    (e.attach use).isSome = true ∧ e.key use = key

/-- All entries have a link. -/
def Table.Linked (t : Table) : Prop := ∀ a ∈ t.att, a.link.isSome = true

/-- In a table whose entries all have a link, each recorded file has a probe. -/
theorem Table.Linked.probe_mem {t : Table} (h : t.Linked) {key : CString} (hkey : key ∈ t.keys) :
    .probe key ∈ t.probes := by
  obtain ⟨a, ha, rfl⟩ := List.mem_map.1 hkey
  exact Table.mem_probes.2 ⟨a, ha, h a ha, rfl⟩

section Fresh
variable {self : Int} {sock dest : CString} {key : CString}

/-- A scan that attaches records links only. -/
theorem scanLoop_linked (es : List ProcEntry) (fresh : Nat) {t : Table} (h : t.Linked) :
    (scanLoop self false es fresh t).2.Linked := by
  induction es generalizing fresh t with
  | nil => exact h
  | cons e es ih =>
    have hstep := scanEntry_step self false e t
    rw [scanLoop_cons]
    cases hentry : scanEntry self false e t with
    | none => exact ih fresh h
    | some t₁ =>
      rw [hentry] at hstep
      have h₁ : t₁.Linked := by
        cases hstep with
        | failed => exact h
        | recorded hu hlink =>
          intro a ha
          rcases List.mem_append.1 ha with ha | ha
          · exact h a ha
          · rw [List.mem_singleton.1 ha]
            rcases hlink with ⟨hdry, -⟩ | ⟨-, hsome, -⟩
            · cases hdry
            · exact hsome
      dsimp only
      split
      · exact h₁
      · exact ih (fresh + 1) h₁

theorem scanRun_linked (procs : Option (List ProcEntry)) {t : Table} (h : t.Linked) :
    (scanRun self false procs t).table.Linked := by
  cases procs with
  | none => exact h
  | some es => exact scanLoop_linked es 0 h

/-- A scan that does not fill the table records a file that is shown. -/
theorem scanRun_records {procs : Option (List ProcEntry)} {t : Table}
    (hshows : Shows self key procs)
    (hroom : (scanRun self false procs t).table.att.length < attCap) :
    key ∈ (scanRun self false procs t).table.keys := by
  obtain ⟨es, rfl, e, he, use, huse, hattach, rfl⟩ := hshows
  exact scanLoop_complete hroom he huse (.inr hattach)

end Fresh

section Rounds
variable (self : Int) (sock dest : CString)

theorem rescan_linked (doScan : Bool) (p : Poll) {st : LoopState} (h : st.table.Linked) :
    (rescan self doScan p st).1.table.Linked := by
  unfold rescan
  split
  · split
    · exact scanRun_linked p.procs h
    · exact h
  · exact h

theorem pollLoop_linked (doScan : Bool) (ps : List Poll) (st : LoopState) (h : st.table.Linked) :
    (pollLoop self sock dest doScan ps st).state.table.Linked := by
  induction ps generalizing st with
  | nil => exact h
  | cons p ps ih =>
    rw [pollLoop]
    dsimp only
    split
    · exact h
    split
    · exact h
    · exact ih _ (rescan_linked self doScan p h)

/-- A loop that is not killed is not killed in its first round. -/
theorem pollLoop_lives (doScan : Bool) {p : Poll} {ps : List Poll} {st : LoopState}
    (h : (pollLoop self sock dest doScan (p :: ps) st).killed = false) :
    p.kills sock dest = false := by
  by_contra hkills
  rw [pollLoop, if_pos (Bool.eq_true_of_not_eq_false hkills)] at h
  cases h

/-- After 25 polls that do not fail, one of which is followed by a scan, a file that is shown all
the time is recorded, unless the process is killed. The count of polls since the last scan is below
25. -/
theorem pollLoop_records {key : CString} {mid : List Poll} (post : List Poll) {st : LoopState}
    (hsince : st.since < 25) (hlen : 25 ≤ st.since + mid.length)
    (hok : ∀ p ∈ mid, p.fails = false) (hshows : ∀ p ∈ mid, Shows self key p.procs)
    (hlives : (pollLoop self sock dest true (mid ++ post) st).killed = false)
    (hroom : (pollLoop self sock dest true (mid ++ post) st).state.table.att.length < attCap) :
    key ∈ (pollLoop self sock dest true (mid ++ post) st).state.table.keys := by
  induction mid generalizing st with
  | nil => simp at hlen; omega
  | cons p mid ih =>
    have hp : p.fails = false := hok p List.mem_cons_self
    rw [List.cons_append] at hlives hroom ⊢
    have hk := pollLoop_lives self sock dest true hlives
    rw [pollLoop] at hlives hroom ⊢
    simp only [hp, hk, Bool.false_eq_true, if_false] at hlives hroom ⊢
    by_cases hdue : 25 ≤ st.since + 1
    · -- the scan behind this poll finds the file, and it stays recorded
      have hext := pollLoop_extends self sock dest true (mid ++ post) (rescan self true p st).1
      have hscan : (rescan self true p st).1 = ⟨0, (scanRun self false p.procs st.table).table⟩ := by
        simp [rescan, hdue]
      have hroom' : (scanRun self false p.procs st.table).table.att.length < attCap := by
        have hle := hext.entries.length_le
        rw [hscan] at hle
        rw [hscan] at hroom
        exact lt_of_le_of_lt hle hroom
      refine hext.mem_keys ?_
      rw [hscan]
      exact scanRun_records (hshows p List.mem_cons_self) hroom'
    · have hnext : (rescan self true p st).1 = ⟨st.since + 1, st.table⟩ := by
        simp [rescan, hdue]
      rw [hnext] at hlives hroom ⊢
      rw [List.length_cons] at hlen
      refine ih (Nat.not_le.1 hdue) ?_ (fun q hq => hok q (List.mem_cons_of_mem _ hq))
        (fun q hq => hshows q (List.mem_cons_of_mem _ hq)) hlives hroom
      dsimp only
      omega

/-- Any polls before that leave the count below 25. -/
theorem pollLoop_records_after {key : CString} {pre mid : List Poll} (post : List Poll)
    {st : LoopState} (hsince : st.since < 25) (hlen : 25 ≤ mid.length)
    (hok : ∀ p ∈ pre ++ mid, p.fails = false) (hshows : ∀ p ∈ mid, Shows self key p.procs)
    (hlives : (pollLoop self sock dest true (pre ++ mid ++ post) st).killed = false)
    (hroom :
      (pollLoop self sock dest true (pre ++ mid ++ post) st).state.table.att.length < attCap) :
    key ∈ (pollLoop self sock dest true (pre ++ mid ++ post) st).state.table.keys := by
  induction pre generalizing st with
  | nil =>
    have hsum : 25 ≤ st.since + mid.length := le_trans hlen (Nat.le_add_left _ _)
    exact pollLoop_records self sock dest post hsince hsum hok hshows hlives hroom
  | cons p pre ih =>
    have hp : p.fails = false := hok p List.mem_cons_self
    rw [List.cons_append, List.cons_append] at hlives hroom ⊢
    have hk := pollLoop_lives self sock dest true hlives
    rw [pollLoop] at hlives hroom ⊢
    simp only [hp, hk, Bool.false_eq_true, if_false] at hlives hroom ⊢
    refine ih ?_ (fun q hq => hok q (List.mem_cons_of_mem _ hq)) hlives hroom
    unfold rescan
    split_ifs <;> dsimp only <;> omega

end Rounds

/-- The first scan records links only. -/
theorem firstProbes_linked (env : InjectorEnv) (o : InjectorArgs) :
    (firstProbes env o).table.Linked := by
  have hempty : Table.empty.Linked := fun a ha => nomatch ha
  unfold firstProbes
  split
  · split
    · exact hempty
    · split <;> exact hempty
  · exact scanRun_linked env.procs hempty

/-- A process that returns 0 has gone through its loop, or made no poll at all. -/
theorem injectorDaemon_table {env : InjectorEnv} {o : InjectorArgs} {sock dest : CString}
    (h : (injectorDaemon env o sock dest).rc = some 0) (hpolls : env.polls ≠ []) :
    let r := pollLoop env.self sock dest o.doScan env.polls ⟨0, (firstProbes env o).table⟩
    r.killed = false ∧ (injectorDaemon env o sock dest).table = r.state.table := by
  unfold injectorDaemon at h ⊢
  dsimp only at h ⊢
  split at h
  · cases h
  next hopen =>
  split at h
  · cases h
  next hload =>
  split at h
  · cases h
  next hfirst =>
  rw [if_neg hopen, if_neg hload, if_neg hfirst]
  unfold daemonLoop at h ⊢
  split at h
  · next hring =>
    dsimp only at h
    split at h
    · cases h
    · next hlives =>
      rw [if_pos hring]
      dsimp only
      rw [if_neg hlives]
      exact ⟨Bool.eq_false_iff.2 hlives, rfl⟩
  · cases h

/-- **New libssl files are probed within 25 polls.** Take any run of the daemon with `--scan`, with
`--pid` as well or without, that ends without an error and with room in the table. Wherever in it 25
polls in a row do not fail, with none before them failing: a libssl file that some process shows
during all of them, and that can be attached to, has a probe when the daemon exits. What the node
looks like otherwise, and which events are handled meanwhile, does not matter. -/
theorem new_library_probed (env : InjectorEnv) (argv : List CString) (o : InjectorArgs)
    (hargs : parseArgs injectorKind .default argv.tail = some o) (hscan : o.doScan = true)
    (hdry : o.dryRun = false) (pre mid post : List Poll)
    (hpolls : env.polls = pre ++ mid ++ post) (hlen : 25 ≤ mid.length)
    (hok : ∀ p ∈ pre ++ mid, p.fails = false) (key : CString)
    (hshows : ∀ p ∈ mid, Shows env.self key p.procs) (hrc : (injectorMain env argv).rc = some 0)
    (hroom : (injectorMain env argv).table.att.length < attCap) :
    .probe key ∈ (injectorMain env argv).table.probes := by
  have hchecks : ¬(o.target ≤ 0 ∧ o.doScan = false) := fun h => by rw [hscan] at h; cases h.2
  unfold injectorMain at hrc hroom ⊢
  simp only [hargs, if_neg hchecks, hdry, Bool.false_eq_true, if_false] at hrc hroom ⊢
  split at hrc
  · next sock dest hsock hdest =>
    simp only [hsock, hdest] at hroom
    have hne : env.polls ≠ [] := by
      rw [hpolls]
      rintro heq
      simp only [List.append_eq_nil_iff] at heq
      rw [heq.1.2] at hlen
      cases hlen
    obtain ⟨hlives, htable⟩ := injectorDaemon_table hrc hne
    rw [hscan, hpolls] at hlives
    rw [htable, hscan, hpolls] at hroom ⊢
    have hlinked := pollLoop_linked env.self sock dest true (pre ++ mid ++ post)
      ⟨0, (firstProbes env o).table⟩ (firstProbes_linked env o)
    refine hlinked.probe_mem ?_
    exact pollLoop_records_after env.self sock dest post (show 0 < 25 by decide) hlen hok hshows
      hlives hroom
  · cases hrc

/-- A daemon that was started for one process; a libssl file that another process shows later is
probed as well. -/
theorem new_library_probed_other :
    let env := sampleInjector none (List.replicate 25 ⟨0, [], sampleProcs⟩)
    let argv := sampleArgv ++ [.lit "--pid", .lit "9", .lit "--libssl", .lit "/libssl.so.3"]
    .probe (nodeKey 7) ∈ (injectorMain env argv).table.probes := by
  intro env argv
  have hshows : Shows 1 (nodeKey 7) sampleProcs := by
    have huse : ((nodeEntry 7).libssl 1).isSome = true := by decide +kernel
    obtain ⟨use, huse⟩ := Option.isSome_iff_exists.1 huse
    exact ⟨_, rfl, _, .head _, use, huse, rfl, rfl⟩
  have hpoll : ∀ p ∈ List.replicate 25 (⟨0, [], sampleProcs⟩ : Poll), p = ⟨0, [], sampleProcs⟩ :=
    fun p hp => List.eq_of_mem_replicate hp
  refine new_library_probed env argv
    ⟨some (.lit "agent"), some (.lit "h:1"), some (.lit "/libssl.so.3"), .lit "ticket-agent", 9, true,
      false⟩ (by decide +kernel) rfl rfl [] _ [] (List.append_nil _).symm (by decide) ?_ _ ?_
    (by decide +kernel) (by decide +kernel)
  · intro p hp
    rw [hpoll p hp]
    rfl
  · intro p hp
    rw [hpoll p hp]
    exact hshows

end TicketConnect
