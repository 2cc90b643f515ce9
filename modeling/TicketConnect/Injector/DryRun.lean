import TicketConnect.Injector.Lifecycle

/-!
# What a dry run lists

`--dry-run` goes over the node like the first scan of the daemon, with its own branch in `scan`: it
prints a file instead of attaching to it, and records it without a link. `scanLoopRun_modes` runs
the two modes side by side, over tables that differ in their links only, and `dry_run_lists_scan`
says what follows for `main`: what a dry run prints is what the daemon attaches to.
-/

namespace TicketConnect

open Lib

/-- A new libssl file of a scan: the path it is reached by, its key, and the process that shows it.
-/
structure FoundFile where
  use : CString
  key : CString
  pid : Int
  comm : CString

/-- What a dry run does for a new file. -/
def FoundFile.listed (f : FoundFile) : DaemonEff := .stdout (wouldAttachLine f.use f.pid f.comm)

/-- What the daemon does for a new file. -/
def FoundFile.probed (f : FoundFile) : List DaemonEff :=
  [.own (.use .skel), .own (.acquire (.probe f.key)), .stderr (attachedLine f.use)]

section Modes
variable (self : Int)

/-- A file that is new to a table is new to every table with the same keys. -/
theorem ProcEntry.Unseen.congr {self : Int} {e : ProcEntry} {t t' : Table} {use : CString}
    (h : e.Unseen self t use) (hkeys : t.keys = t'.keys) : e.Unseen self t' use := by
  refine ⟨h.1, Bool.eq_false_iff.2 fun hseen => ?_⟩
  have hmem := Table.seen_iff.1 hseen
  rw [← hkeys] at hmem
  exact Bool.false_ne_true (h.2.symm.trans (Table.seen_iff.2 hmem))

theorem Table.keys_push (t : Table) (a : Attached) : (t.push a).keys = t.keys ++ [a.key] := by
  simp [Table.keys, Table.push]

theorem Table.length_keys (t : Table) : t.keys.length = t.att.length := List.length_map _

/-- A round in both modes: the process shows no new file, or both take the same one. -/
theorem scanEntryRun_modes {e : ProcEntry} (hattach : ∀ use, (e.attach use).isSome = true)
    {t t' : Table} (hkeys : t.keys = t'.keys) :
    (scanEntryRun self true e t).table = none ∧ (scanEntryRun self false e t').table = none ∧
        scanEffs (scanEntryRun self true e t).effs = [] ∧
        scanEffs (scanEntryRun self false e t').effs = [] ∨
      ∃ (f : FoundFile) (t₁ t₁' : Table), (scanEntryRun self true e t).table = some t₁ ∧
        (scanEntryRun self false e t').table = some t₁' ∧ t₁.keys = t.keys ++ [f.key] ∧
        t₁'.keys = t'.keys ++ [f.key] ∧ scanEffs (scanEntryRun self true e t).effs = [f.listed] ∧
        scanEffs (scanEntryRun self false e t').effs = f.probed := by
  have hdry := scanEntryRun_effs self true e t
  have hreal := scanEntryRun_effs self false e t'
  generalize scanEntryRun self true e t = r at hdry
  generalize scanEntryRun self false e t' = r' at hreal
  cases hreal with
  | skipped hno =>
    cases hdry with
    | skipped => exact .inl ⟨rfl, rfl, scanEffs_map_file _, scanEffs_map_file _⟩
    | reported hu => exact absurd (hu.congr hkeys) (hno _)
  | @failed use files hu hfail =>
    have hsome := hattach use
    rw [hfail] at hsome
    cases hsome
  | @probed use link files hu =>
    cases hdry with
    | skipped hno => exact absurd (hu.congr hkeys.symm) (hno _)
    | @reported use' files' hu' =>
      cases hu.1.symm.trans hu'.1
      refine .inr ⟨⟨use, e.key use, e.pid.getD 0, (readComm e.comm 64).1⟩, _, _, rfl, rfl,
        Table.keys_push _ _, Table.keys_push _ _, ?_, ?_⟩
      · rw [scanEffs_append, scanEffs_map_file]
        rfl
      · rw [scanEffs_append, scanEffs_map_file]
        rfl

/-- The loop of `scan` in both modes, over tables with the same keys: the files that one lists are
those that the other probes, in the same order, and both count and record them all. -/
theorem scanLoopRun_modes (es : List ProcEntry)
    (hattach : ∀ e ∈ es, ∀ use, (e.attach use).isSome = true) (fresh : Nat) (t t' : Table)
    (hkeys : t.keys = t'.keys) :
    ∃ found : List FoundFile,
      scanEffs (scanLoopRun self true es fresh t).effs = found.map FoundFile.listed ∧
      scanEffs (scanLoopRun self false es fresh t').effs = found.flatMap FoundFile.probed ∧
      (scanLoopRun self true es fresh t).fresh = fresh + found.length ∧
      (scanLoopRun self false es fresh t').fresh = fresh + found.length ∧
      (scanLoopRun self false es fresh t').table.keys = t'.keys ++ found.map FoundFile.key := by
  induction es generalizing fresh t t' with
  | nil => exact ⟨[], rfl, rfl, rfl, rfl, (List.append_nil _).symm⟩
  | cons e es ih =>
    have hrest := fun q hq => hattach q (List.mem_cons_of_mem e hq)
    rw [scanLoopRun, scanLoopRun]
    rcases scanEntryRun_modes self (hattach e List.mem_cons_self) hkeys with
      ⟨hd, hr, hde, hre⟩ | ⟨f, t₁, t₁', hd, hr, hk, hk', hde, hre⟩
    · simp only [hd, hr, LoopRun.cons, List.cons_append, scanEffs_cons_file, scanEffs_append, hde,
        hre, List.nil_append]
      exact ih hrest fresh t t' hkeys
    · have hkeys₁ : t₁.keys = t₁'.keys := by rw [hk, hk', hkeys]
      have hlen : t₁.att.length = t₁'.att.length := by
        rw [← Table.length_keys, ← Table.length_keys, hkeys₁]
      simp only [hd, hr, hlen]
      split
      · refine ⟨[f], ?_, ?_, rfl, rfl, hk'⟩
        · simp [LoopRun.cons, hde]
        · simp [LoopRun.cons, hre]
      · obtain ⟨found, h₁, h₂, h₃, h₄, h₅⟩ := ih hrest (fresh + 1) t₁ t₁' hkeys₁
        refine ⟨f :: found, by simp [LoopRun.cons, hde, h₁],
          by simp [LoopRun.cons, hre, h₂], ?_, ?_,
          ?_⟩
        · simp only [LoopRun.cons, h₃, List.length_cons]
          omega
        · simp only [LoopRun.cons, h₄, List.length_cons]
          omega
        · simp only [LoopRun.cons, h₅, hk', List.append_assoc]
          rfl

end Modes

/-- A dry run is a scan: the one option sets both. -/
theorem doScan_of_dryRun {args : List CString} {o : InjectorArgs}
    (h : parseArgs injectorKind .default args = some o) (hdry : o.dryRun = true) :
    o.doScan = true := by
  refine parseArgs_inv (I := fun o => o.dryRun = true → o.doScan = true) ?_ ?_ (fun h => h) h hdry
  · intro w set s hk hs
    unfold injectorKind at hk
    split_ifs at hk <;> cases hk <;> simp
  · intro w set s v hk hs
    unfold injectorKind at hk
    split_ifs at hk <;> cases hk <;> exact hs

/-- **A dry run lists what the daemon probes.** Over every node whose libssl files can all be
attached to: there is a list of files such that a dry run prints one line for each of them and their
number, and does nothing else; and the first scan of a daemon with `--scan` on the same node
attaches to exactly these, each once and in that order, and reports the same number. -/
theorem dry_run_lists_scan (env : InjectorEnv) (argv : List CString) (o o' : InjectorArgs)
    (hargs : parseArgs injectorKind .default argv.tail = some o) (hdry : o.dryRun = true)
    (htarget : o'.target ≤ 0)
    (hattach : ∀ es ∈ env.procs, ∀ e ∈ es, ∀ use, (e.attach use).isSome = true)
    (hproc : env.procs.isSome = true) :
    ∃ found : List FoundFile,
      (injectorMain env argv).effs =
        .stdout (.concat [.lit "injector --dry-run: discovering libssl processes (excluding comm '",
          o.excludeComm, .lit "')\n"]) :: found.map FoundFile.listed ++
          [.stdout (.concat [.dec found.length, .lit " distinct libssl file(s) would be probed\n"])] ∧
      (firstProbes env o').effs = found.flatMap FoundFile.probed ++
        [.stderr (.concat [.lit "injector: node-wide, ", .dec found.length,
          .lit " libssl file(s) probed (excluding '", o'.excludeComm, .lit "')\n"])] ∧
      (firstProbes env o').table.keys = found.map FoundFile.key ∧
      (found.map FoundFile.key).Nodup := by
  obtain ⟨es, hes⟩ := Option.isSome_iff_exists.1 hproc
  obtain ⟨found, hlisted, hprobed, hdryRet, hret, hkeys⟩ :=
    scanLoopRun_modes env.self es (hattach es hes) 0 .empty .empty rfl
  have hscan := doScan_of_dryRun hargs hdry
  have hchecks : ¬(o.target ≤ 0 ∧ o.doScan = false) := fun h => by rw [hscan] at h; cases h.2
  have hnodup := (scanRun_extends env.self false (some es) .empty).nodup List.nodup_nil
  refine ⟨found, ?_, ?_, ?_, ?_⟩
  · unfold injectorMain
    simp [hargs, hchecks, hdry, hes, scanRun, hlisted, hdryRet]
  · unfold firstProbes
    simp [Int.not_lt.2 htarget, hes, scanRun, hprobed, hret]
  · unfold firstProbes
    simp only [Int.not_lt.2 htarget, hes, if_false]
    exact hkeys
  · rw [show found.map FoundFile.key = (scanRun env.self false (some es) .empty).table.keys from
      hkeys.symm]
    exact hnodup

/-- Three processes, two of which have the same file. -/
theorem dry_run_lists_scan_two :
    let procs := some [nodeEntry 7, { nodeEntry 8 with comm := some [99, 10] }, nodeEntry 7]
    let env := sampleInjector procs []
    let argv := [.lit "injector", .lit "--dry-run"]
    let o' : InjectorArgs := { InjectorArgs.default with doScan := true }
    ∃ found : List FoundFile, found.map FoundFile.key = [nodeKey 7, nodeKey 8] ∧
      eventEffs (injectorMain env argv).effs = [] ∧
      (injectorMain env argv).effs.length = found.length + 2 ∧
      (firstProbes env o').effs.length = 3 * found.length + 1 := by
  intro procs env argv o'
  have hattach : ∀ es ∈ env.procs, ∀ e ∈ es, ∀ use, (e.attach use).isSome = true := by
    intro es hes e he use
    cases hes
    simp only [List.mem_cons, List.not_mem_nil, or_false] at he
    rcases he with rfl | rfl | rfl <;> rfl
  obtain ⟨found, heffs, hfirst, hkeys, -⟩ := dry_run_lists_scan env argv
    { InjectorArgs.default with dryRun := true, doScan := true } o' (by decide +kernel) rfl
    (by decide) hattach rfl
  have htwo : (firstProbes env o').table.keys = [nodeKey 7, nodeKey 8] := by decide +kernel
  refine ⟨found, hkeys.symm.trans htwo, ?_, ?_, ?_⟩
  · rw [heffs]
    simp [eventEffs, FoundFile.listed, List.filterMap_map]
  · rw [heffs]
    simp
  · rw [hfirst]
    simp [FoundFile.probed, List.length_flatMap, mul_comm]

end TicketConnect
