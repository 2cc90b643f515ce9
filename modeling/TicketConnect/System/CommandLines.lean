import TicketConnect.Agent.Serve
import TicketConnect.Injector.Lifecycle

/-!
# The command lines of both programs

Which command lines `cmd_serve` (`ticket-agent/main.c`) and the injector's `main` accept, and what
they mean. Both go over their arguments with `parseArgs`; `ServeItem` and `InjectorOption` list what
one step of the loop takes, with what it sets. The settings are then given by the items as a whole:
the last value of an option counts, a flag counts once it is there, and the first 64 destinations
are served.
-/

namespace TicketConnect

open Lib

/-! ## `ticket-agent serve` -/

/-- What one step of `cmd_serve`'s loop takes, and what it sets. -/
inductive ServeItem : ArgItem CString → (ServeArgs → ServeArgs) → Prop where
  | insecure : ServeItem (.alone (.lit "-k")) fun o => { o with insecure := true }
  | depth (n : CString) :
      ServeItem (.valued (.lit "--depth") n) fun o => { o with depth := atoi n }
  | dest {d : CString} (hd : d.bytes.head? ≠ some 45) : ServeItem (.alone d) fun o =>
      if o.dests.length < 64 then { o with dests := o.dests ++ [d] } else o

/-- The destination of an item. -/
def destItem? : ArgItem CString → Option CString
  | .alone w => if w = .lit "-k" then none else some w
  | .valued .. => none

/-- The settings that a list of items stands for. -/
def ServeArgs.of (items : List (ArgItem CString)) : ServeArgs where
  insecure := items.any (· = .alone (.lit "-k"))
  depth := (lastValue (.lit "--depth") items).elim 4 atoi
  dests := (items.filterMap destItem?).take 64

/-- The options are told apart by their first bytes. -/
theorem serveOptions_dash : (CString.lit "-k").bytes.head? = some 45 ∧
    (CString.lit "--depth").bytes.head? = some 45 ∧ CString.lit "--depth" ≠ .lit "-k" := by
  decide +kernel

theorem ServeItem.of_effect {item : ArgItem CString} {set : ServeArgs → ServeArgs}
    (h : item.effect? serveKind = some set) : ServeItem item set := by
  cases item with
  | alone w =>
    simp only [ArgItem.effect?, serveKind] at h
    split_ifs at h with hk hdepth hdash
    · cases h
      rw [hk]
      exact .insecure
    · cases h
      exact .dest hdash
  | valued w v =>
    simp only [ArgItem.effect?, serveKind] at h
    split_ifs at h with hk hdepth hdash
    cases h
    rw [hdepth]
    exact .depth v

theorem ServeItem.effect {item : ArgItem CString} {set : ServeArgs → ServeArgs}
    (h : ServeItem item set) : item.effect? serveKind = some set := by
  obtain ⟨hk, hdepth, hne⟩ := serveOptions_dash
  cases h with
  | insecure => simp [ArgItem.effect?, serveKind]
  | depth n => simp [ArgItem.effect?, serveKind, hne]
  | @dest d hd =>
    have hd₁ : d ≠ .lit "-k" := by rintro rfl; exact hd hk
    have hd₂ : d ≠ .lit "--depth" := by rintro rfl; exact hd hdepth
    simp [ArgItem.effect?, serveKind, hd, hd₁, hd₂]

theorem ServeItem.iff_effect {item : ArgItem CString} :
    (∃ set, ServeItem item set) ↔ (item.effect? serveKind).isSome = true := by
  rw [Option.isSome_iff_exists]
  exact exists_congr fun set => ⟨ServeItem.effect, ServeItem.of_effect⟩

/-- The destinations are taken in order, until there are 64. -/
theorem setAll_dests {items : List (ArgItem CString)} {o o' : ServeArgs}
    (hlen : o.dests.length ≤ 64) (h : setAll serveKind o items = some o') :
    o'.dests = (o.dests ++ items.filterMap destItem?).take 64 := by
  induction items generalizing o with
  | nil =>
    cases h
    simp [List.take_of_length_le hlen]
  | cons item items ih =>
    rw [setAll_cons] at h
    obtain ⟨set, hset, hrest⟩ := Option.bind_eq_some_iff.1 h
    cases ServeItem.of_effect hset with
    | insecure =>
      have hflag : destItem? (.alone (.lit "-k")) = none := by simp [destItem?]
      rw [List.filterMap_cons_none hflag]
      exact ih (o := { o with insecure := true }) hlen hrest
    | depth n =>
      rw [List.filterMap_cons_none rfl]
      exact ih (o := { o with depth := atoi n }) hlen hrest
    | @dest d hd =>
      have hne : d ≠ .lit "-k" := by rintro rfl; exact hd serveOptions_dash.1
      have hdest : destItem? (.alone d) = some d := if_neg hne
      dsimp only at hrest
      by_cases hfull : o.dests.length < 64
      · rw [if_pos hfull] at hrest
        have hlen' : (o.dests ++ [d]).length ≤ 64 := by
          rw [List.length_append]
          exact hfull
        rw [ih hlen' hrest, List.filterMap_cons_some hdest, List.append_assoc]
        rfl
      · -- the table is full, and the destination changes nothing
        rw [if_neg hfull] at hrest
        obtain hlen := hlen.eq_or_lt.resolve_right hfull
        rw [ih hlen.le hrest, ← hlen, List.take_left, List.take_left]

/-- The settings after a list of items. -/
theorem setAll_serve {items : List (ArgItem CString)} {o : ServeArgs}
    (h : setAll serveKind .default items = some o) : o = .of items := by
  have hdests := setAll_dests (Nat.zero_le _) h
  have hdepth := setAll_last ServeArgs.depth (ArgItem.value? (.lit "--depth")) atoi
    (fun s hset => ?_) h
  have hinsecure := setAll_any ServeArgs.insecure (· = .alone (.lit "-k")) (fun s hset => ?_) h
  · obtain ⟨insecure, depth, dests⟩ := o
    cases hdests
    cases hdepth
    cases hinsecure
    rfl
  · cases ServeItem.of_effect hset with
    | insecure => simp
    | depth n => simp
    | @dest d hd =>
      have hne : d ≠ .lit "-k" := by rintro rfl; exact hd serveOptions_dash.1
      dsimp only
      split <;> simp [hne]
  · cases ServeItem.of_effect hset with
    | insecure => rfl
    | depth n => simp [ArgItem.value?]
    | dest =>
      dsimp only
      split <;> rfl

/-- The arguments behind the socket. -/
theorem parseArgs_serve {args : List CString} {o : ServeArgs} :
    parseArgs serveKind .default args = some o ↔
      ∃ items, args = items.flatMap ArgItem.words ∧
        (∀ item ∈ items, ∃ set, ServeItem item set) ∧ o = .of items := by
  simp only [parseArgs_eq_some_iff setAll_serve, ServeItem.iff_effect]

/-- **The command lines of `serve`.** `cmd_serve` goes past its checks exactly for a socket followed
by flags `-k`, pairs `--depth N` and destinations without a leading dash, in any order and with at
least one destination. It then serves the first 64 destinations in the order given, with the last
depth given, if any, and without verification exactly if `-k` is there. -/
theorem serve_command_line (argv : List CString) (sock : CString) (o : ServeArgs) :
    serveArgs argv = some (sock, o) ↔
      ∃ prog cmd items, argv = prog :: cmd :: sock :: items.flatMap ArgItem.words ∧
        (∀ item ∈ items, ∃ set, ServeItem item set) ∧ o = .of items ∧ o.dests ≠ [] := by
  constructor
  · intro h
    match argv, h with
    | prog :: cmd :: sock' :: arg :: args, h =>
      simp only [serveArgs] at h
      split at h
      · cases h
      next o' hparse =>
      split at h
      · cases h
      next hdests =>
      cases h
      obtain ⟨items, hwords, hitems, ho⟩ := parseArgs_serve.1 hparse
      exact ⟨prog, cmd, items, by rw [hwords], hitems, ho, hdests⟩
  · rintro ⟨prog, cmd, items, rfl, hitems, rfl, hdests⟩
    have hparse := parseArgs_serve.2 ⟨items, rfl, hitems, rfl⟩
    cases hwords : items.flatMap ArgItem.words with
    | nil =>
      -- without an argument there is no destination
      rw [hwords] at hparse
      rw [← Option.some.inj hparse] at hdests
      exact absurd rfl hdests
    | cons arg args =>
      rw [hwords] at hparse
      simp only [serveArgs, hparse, if_neg hdests]

/-! ## The injector -/

/-- What one step of the loop over the injector's arguments takes, and what it sets. -/
inductive InjectorOption : ArgItem CString → (InjectorArgs → InjectorArgs) → Prop where
  | agent (v : CString) :
      InjectorOption (.valued (.lit "--agent") v) fun o => { o with agentSock := some v }
  | dest (v : CString) :
      InjectorOption (.valued (.lit "--dest") v) fun o => { o with dest := some v }
  | pid (v : CString) :
      InjectorOption (.valued (.lit "--pid") v) fun o => { o with target := atoi v }
  | libssl (v : CString) :
      InjectorOption (.valued (.lit "--libssl") v) fun o => { o with libssl := some v }
  | excludeComm (v : CString) :
      InjectorOption (.valued (.lit "--exclude-comm") v) fun o => { o with excludeComm := v }
  | scan : InjectorOption (.alone (.lit "--scan")) fun o => { o with doScan := true }
  | dryRun :
      InjectorOption (.alone (.lit "--dry-run")) fun o => { o with dryRun := true, doScan := true }

/-- The settings that a list of items stands for. -/
def InjectorArgs.of (items : List (ArgItem CString)) : InjectorArgs where
  agentSock := lastValue (.lit "--agent") items
  dest := lastValue (.lit "--dest") items
  libssl := lastValue (.lit "--libssl") items
  excludeComm := (lastValue (.lit "--exclude-comm") items).getD (.lit "ticket-agent")
  target := (lastValue (.lit "--pid") items).elim 0 atoi
  doScan := items.any fun item => item = .alone (.lit "--scan") ∨ item = .alone (.lit "--dry-run")
  dryRun := items.any (· = .alone (.lit "--dry-run"))

/-- The names of the options are distinct; both ways round, to rewrite with. -/
theorem injectorOptions_ne : ([.lit "--agent", .lit "--dest", .lit "--pid", .lit "--libssl",
    .lit "--exclude-comm", .lit "--scan", .lit "--dry-run"] : List CString).Pairwise
      fun a b => a ≠ b ∧ b ≠ a := by
  decide +kernel

theorem InjectorOption.of_effect {item : ArgItem CString} {set : InjectorArgs → InjectorArgs}
    (h : item.effect? injectorKind = some set) : InjectorOption item set := by
  cases item with
  | alone w =>
    simp only [ArgItem.effect?, injectorKind] at h
    split_ifs at h with _ _ _ _ _ hscan hdry
    · cases h
      rw [hscan]
      exact .scan
    · cases h
      rw [hdry]
      exact .dryRun
  | valued w v =>
    simp only [ArgItem.effect?, injectorKind] at h
    split_ifs at h with hw hw hw hw hw
    all_goals
      cases h
      rw [hw]
    exacts [.agent v, .dest v, .pid v, .libssl v, .excludeComm v]

theorem InjectorOption.effect {item : ArgItem CString} {set : InjectorArgs → InjectorArgs}
    (h : InjectorOption item set) : item.effect? injectorKind = some set := by
  have hne := injectorOptions_ne
  simp only [List.pairwise_cons, List.forall_mem_cons] at hne
  cases h <;> simp [ArgItem.effect?, injectorKind, hne]

theorem InjectorOption.iff_effect {item : ArgItem CString} :
    (∃ set, InjectorOption item set) ↔ (item.effect? injectorKind).isSome = true := by
  rw [Option.isSome_iff_exists]
  exact exists_congr fun set => ⟨InjectorOption.effect, InjectorOption.of_effect⟩

/-- The settings after a list of items. -/
theorem setAll_injector {items : List (ArgItem CString)} {o : InjectorArgs}
    (h : setAll injectorKind .default items = some o) : o = .of items := by
  have hne := injectorOptions_ne
  simp only [List.pairwise_cons, List.forall_mem_cons] at hne
  have hagent := setAll_last InjectorArgs.agentSock (ArgItem.value? (.lit "--agent")) some
    (fun s hset => ?_) h
  have hdest := setAll_last InjectorArgs.dest (ArgItem.value? (.lit "--dest")) some
    (fun s hset => ?_) h
  have hlibssl := setAll_last InjectorArgs.libssl (ArgItem.value? (.lit "--libssl")) some
    (fun s hset => ?_) h
  have hcomm := setAll_last InjectorArgs.excludeComm (ArgItem.value? (.lit "--exclude-comm")) id
    (fun s hset => ?_) h
  have htarget := setAll_last InjectorArgs.target (ArgItem.value? (.lit "--pid")) atoi
    (fun s hset => ?_) h
  have hscan := setAll_any InjectorArgs.doScan
    (fun item => item = .alone (.lit "--scan") ∨ item = .alone (.lit "--dry-run"))
    (fun s hset => ?_) h
  have hdry := setAll_any InjectorArgs.dryRun (· = .alone (.lit "--dry-run"))
    (fun s hset => ?_) h
  · obtain ⟨agentSock, dest, libssl, excludeComm, target, doScan, dryRun⟩ := o
    cases hagent.trans (Option.elim_none_some id _)
    cases hdest.trans (Option.elim_none_some id _)
    cases hlibssl.trans (Option.elim_none_some id _)
    cases hcomm.trans (Option.elim_none_some (Option.getD · (CString.lit "ticket-agent")) _)
    cases htarget
    cases hscan
    cases hdry
    rfl
  all_goals
    cases InjectorOption.of_effect hset <;> simp [ArgItem.value?, hne]

/-- The arguments of the injector. -/
theorem parseArgs_injector {args : List CString} {o : InjectorArgs} :
    parseArgs injectorKind .default args = some o ↔
      ∃ items, args = items.flatMap ArgItem.words ∧
        (∀ item ∈ items, ∃ set, InjectorOption item set) ∧ o = .of items := by
  simp only [parseArgs_eq_some_iff setAll_injector, InjectorOption.iff_effect]

/-- The checks of `main` on the settings. -/
def InjectorArgs.Complete (o : InjectorArgs) : Prop :=
  (0 < o.target ∨ o.doScan = true) ∧
    (o.dryRun = true ∨ o.agentSock.isSome = true ∧ o.dest.isSome = true)

/-- With incomplete settings `main` ends with a message. -/
theorem injectorMain_incomplete {env : InjectorEnv} {argv : List CString} {o : InjectorArgs}
    (hparse : parseArgs injectorKind .default argv.tail = some o) (h : ¬o.Complete) :
    (injectorMain env argv).rc = some 2 := by
  simp only [injectorMain, hparse]
  split_ifs with htarget hdry
  · rfl
  · have hsome : 0 < o.target ∨ o.doScan = true := by grind
    exact absurd ⟨hsome, .inl hdry⟩ h
  · have hsome : 0 < o.target ∨ o.doScan = true := by grind
    split
    next sock dest hsock hdest =>
      exact absurd ⟨hsome, .inr (by rw [hsock, hdest]; exact ⟨rfl, rfl⟩)⟩ h
    · rfl

/-- With complete settings it does the dry run or runs the daemon. -/
theorem injectorMain_complete (env : InjectorEnv) {argv : List CString} {o : InjectorArgs}
    (hparse : parseArgs injectorKind .default argv.tail = some o) (h : o.Complete) :
    o.dryRun = true ∧ (injectorMain env argv).rc = some 0 ∨
      o.dryRun = false ∧ ∃ sock dest, o.agentSock = some sock ∧ o.dest = some dest ∧
        injectorMain env argv = injectorDaemon env o sock dest := by
  obtain ⟨hsome, hsession⟩ := h
  have htarget : ¬(o.target ≤ 0 ∧ o.doScan = false) := by grind
  simp only [injectorMain, hparse, if_neg htarget]
  cases hdry : o.dryRun with
  | true => exact .inl ⟨rfl, by simp⟩
  | false =>
    obtain ⟨hsock, hdest⟩ := hsession.resolve_left (by simp [hdry])
    obtain ⟨sock, hsock⟩ := Option.isSome_iff_exists.1 hsock
    obtain ⟨dest, hdest⟩ := Option.isSome_iff_exists.1 hdest
    exact .inr ⟨rfl, sock, dest, hsock, hdest, by simp [hsock, hdest]⟩

/-- Behind its checks `main` does not end with 2. -/
theorem injectorDaemon_rc (env : InjectorEnv) (o : InjectorArgs) (sock dest : CString) :
    (injectorDaemon env o sock dest).rc ≠ some 2 := by
  intro hrc
  unfold injectorDaemon daemonLoop at hrc
  dsimp only at hrc
  split_ifs at hrc <;> cases hrc

/-- **The command lines of the injector.** `main` goes past its checks exactly if its arguments are
the five options with a value and the two flags, in any order and any number of times, where the
last pid is positive or `--scan` or `--dry-run` is there, and both `--agent` and `--dest` are unless
`--dry-run` is. Without `--dry-run` it then runs the daemon with the last value given to each
option. -/
theorem injector_command_line (env : InjectorEnv) (argv : List CString) :
    ((injectorMain env argv).rc ≠ some 2 ↔
      ∃ items, argv.tail = items.flatMap ArgItem.words ∧
        (∀ item ∈ items, ∃ set, InjectorOption item set) ∧ (InjectorArgs.of items).Complete) ∧
    ∀ items, argv.tail = items.flatMap ArgItem.words →
      (∀ item ∈ items, ∃ set, InjectorOption item set) → (InjectorArgs.of items).Complete →
      .alone (.lit "--dry-run") ∉ items →
        ∃ sock dest, lastValue (.lit "--agent") items = some sock ∧
          lastValue (.lit "--dest") items = some dest ∧
          injectorMain env argv = injectorDaemon env (.of items) sock dest := by
  refine ⟨⟨fun hrc => ?_, ?_⟩, ?_⟩
  · cases hparse : parseArgs injectorKind .default argv.tail with
    | none => exact absurd (by rw [injectorMain, hparse]) hrc
    | some o =>
      obtain ⟨items, hargs, hitems, rfl⟩ := parseArgs_injector.1 hparse
      exact ⟨items, hargs, hitems, by_contra fun h => hrc (injectorMain_incomplete hparse h)⟩
  · rintro ⟨items, hargs, hitems, hcomplete⟩
    have hparse := parseArgs_injector.2 ⟨items, hargs, hitems, rfl⟩
    rcases injectorMain_complete env hparse hcomplete with
      ⟨-, hrc⟩ | ⟨-, sock, dest, -, -, hmain⟩
    · rw [hrc]
      decide
    · rw [hmain]
      exact injectorDaemon_rc env (.of items) sock dest
  · intro items hargs hitems hcomplete hdry
    have hparse := parseArgs_injector.2 ⟨items, hargs, hitems, rfl⟩
    rcases injectorMain_complete env hparse hcomplete with
      ⟨hdry', -⟩ | ⟨-, sock, dest, hsock, hdest, hmain⟩
    · have hmem : .alone (.lit "--dry-run") ∈ items := by simpa [InjectorArgs.of] using hdry'
      exact absurd hmem hdry
    · exact ⟨sock, dest, hsock, hdest, hmain⟩

end TicketConnect
