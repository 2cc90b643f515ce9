import TicketConnect.Freeze.Model

/-!
# Which process an event names

`on_ssl_connect` (`bpf/ssl_connect.bpf.c`) reports the caller of `SSL_connect` by a pid, and the
injector uses that pid in its own pid namespace, for `/proc`, `ptrace` and `kill`. `Pidns` is a tree
of pid namespaces with the tasks in it: a task has an id in its own namespace and in every namespace
above it, and in no other. `event_names_caller_iff` says when the pid of an event is that of the
caller where the injector looks it up. The helper that translates it succeeds only for callers in
the injector's own namespace; for all others the event has the id in the root namespace.
-/

namespace TicketConnect

/-! ## Pid namespaces -/

/-- A tree of pid namespaces, named by the device and inode of their files, and the tasks in it. -/
structure Pidns (N T : Type) where
  root : N
  parent : N → N
  /-- A namespace and those above it, up to the root. -/
  chain : N → List N
  chain_root : chain root = [root]
  chain_of_ne : ∀ n, n ≠ root → chain n = n :: chain (parent n)
  dev : N → Nat
  ino : N → Nat
  ino_ne : ∀ n, ino n ≠ 0
  ident_inj : ∀ n m, dev n = dev m → ino n = ino m → n = m
  /-- The namespace a task is in. -/
  active : T → N
  /-- The first task of the process that a task belongs to. -/
  leader : T → T
  leader_leader : ∀ t, leader (leader t) = leader t
  leader_active : ∀ t, active (leader t) = active t
  /-- The id of a task in a namespace. -/
  id : N → T → Option Nat
  id_isSome : ∀ n t, (id n t).isSome ↔ n ∈ chain (active t)
  id_inj : ∀ n t u, (id n t).isSome → id n t = id n u → t = u

namespace Pidns
variable {N T : Type} (w : Pidns N T)

/-- The id of a task's process in a namespace. -/
def tgid (n : N) (t : T) : Option Nat := w.id n (w.leader t)

/-- `bpf_get_current_pid_tgid`: process and task id in the root namespace. -/
def getCurrentPidTgid (cur : T) : Nat × Nat :=
  ((w.tgid w.root cur).getD 0, (w.id w.root cur).getD 0)

/-- `bpf_get_ns_current_pid_tgid`: process and task id in a namespace, if it is the task's own. -/
def getNsCurrentPidTgid (dev ino : Nat) (cur : T) : Option (Nat × Nat) :=
  if w.dev (w.active cur) = dev ∧ w.ino (w.active cur) = ino then
    some ((w.tgid (w.active cur) cur).getD 0, (w.id (w.active cur) cur).getD 0)
  else none

/-- The event `on_ssl_connect` submits for a call of the task `cur`, with `target_pidns_dev` and
`target_pidns_ino` as the injector has set them. -/
def onSslConnect (targetDev targetIno : Nat) (cur : T) (ssl : Nat) : SslEvent :=
  let e : SslEvent := ⟨(w.getCurrentPidTgid cur).1, (w.getCurrentPidTgid cur).2, ssl⟩
  if targetIno ≠ 0 then
    match w.getNsCurrentPidTgid targetDev targetIno cur with
    | some ns => { e with pid := ns.1, tid := ns.2 }
    | none => e
  else e

/-! ## Ids -/

/-- The root is above every namespace. -/
theorem root_mem_chain (n : N) : w.root ∈ w.chain n := by
  -- by induction on the length of the chain, which ends at the root only
  generalize hlen : (w.chain n).length = k
  induction k generalizing n with
  | zero =>
    by_cases hn : n = w.root
    · rw [hn, w.chain_root] at hlen
      cases hlen
    · rw [w.chain_of_ne n hn] at hlen
      cases hlen
  | succ k ih =>
    by_cases hn : n = w.root
    · rw [hn, w.chain_root]
      exact .head _
    · rw [w.chain_of_ne n hn] at hlen ⊢
      exact .tail _ (ih _ (Nat.succ.inj hlen))

/-- A namespace is on its own chain. -/
theorem self_mem_chain (n : N) : n ∈ w.chain n := by
  by_cases hn : n = w.root
  · rw [hn, w.chain_root]
    exact .head _
  · rw [w.chain_of_ne n hn]
    exact .head _

/-- A process has an id in its own namespace. -/
theorem tgid_active_isSome (t : T) : (w.tgid (w.active t) t).isSome := by
  rw [tgid, w.id_isSome, w.leader_active]
  exact w.self_mem_chain _

/-- A process has an id in the root namespace. -/
theorem tgid_root_isSome (t : T) : (w.tgid w.root t).isSome := by
  rw [tgid, w.id_isSome]
  exact w.root_mem_chain _

/-- The task with the id of a process is the first task of that process. -/
theorem eq_leader_of_id {n : N} {t cur : T} (hsome : (w.tgid n cur).isSome)
    (h : w.id n t = w.tgid n cur) : w.leader t = w.leader cur := by
  obtain rfl : w.leader cur = t := w.id_inj n _ t hsome h.symm
  exact w.leader_leader cur

/-! ## The event -/

/-- The event of a caller in the namespace that the injector has set. -/
theorem onSslConnect_of_active (cur : T) (ssl : Nat) :
    w.onSslConnect (w.dev (w.active cur)) (w.ino (w.active cur)) cur ssl =
      ⟨(w.tgid (w.active cur) cur).getD 0, (w.id (w.active cur) cur).getD 0, ssl⟩ := by
  simp only [onSslConnect, getNsCurrentPidTgid, if_pos (w.ino_ne _), and_self, if_true]

/-- The event of a caller in another namespace. -/
theorem onSslConnect_of_ne {n : N} {cur : T} (h : w.active cur ≠ n) (ssl : Nat) :
    w.onSslConnect (w.dev n) (w.ino n) cur ssl =
      ⟨(w.tgid w.root cur).getD 0, (w.id w.root cur).getD 0, ssl⟩ := by
  have hne : ¬(w.dev (w.active cur) = w.dev n ∧ w.ino (w.active cur) = w.ino n) := fun hid =>
    h (w.ident_inj _ _ hid.1 hid.2)
  simp only [onSslConnect, getNsCurrentPidTgid, getCurrentPidTgid, if_pos (w.ino_ne _), if_neg hne]

/-- The pid of an event, for a caller in the namespace that the injector has set. -/
theorem onSslConnect_pid_of_active (cur : T) (ssl : Nat) :
    some (w.onSslConnect (w.dev (w.active cur)) (w.ino (w.active cur)) cur ssl).pid =
      w.tgid (w.active cur) cur := by
  obtain ⟨i, hi⟩ := Option.isSome_iff_exists.1 (w.tgid_active_isSome cur)
  rw [onSslConnect_of_active, hi, Option.getD_some]

/-- The pid of an event, for a caller in another namespace. -/
theorem onSslConnect_pid_of_ne {n : N} {cur : T} (h : w.active cur ≠ n) (ssl : Nat) :
    some (w.onSslConnect (w.dev n) (w.ino n) cur ssl).pid = w.tgid w.root cur := by
  obtain ⟨i, hi⟩ := Option.isSome_iff_exists.1 (w.tgid_root_isSome cur)
  rw [w.onSslConnect_of_ne h, hi, Option.getD_some]

/-- The task `cur` is the thread `t` where the injector looks, and its events have these ids: it is
in the injector's namespace, or the injector is in the root namespace. -/
structure Sees (injector : N) (t : Thread) (cur : T) : Prop where
  pid : w.tgid injector cur = some t.pid
  tid : w.id injector cur = some t.tid
  near : w.active cur = injector ∨ injector = w.root

/-- The event of such a task has its ids. -/
theorem Sees.onSslConnect {w : Pidns N T} {injector : N} {t : Thread} {cur : T}
    (h : w.Sees injector t cur) (ssl : Nat) :
    w.onSslConnect (w.dev injector) (w.ino injector) cur ssl = ⟨t.pid, t.tid, ssl⟩ := by
  obtain ⟨hpid, htid, hnear⟩ := h
  by_cases hactive : w.active cur = injector
  · subst hactive
    rw [w.onSslConnect_of_active, hpid, htid]
    rfl
  · obtain rfl : injector = w.root := hnear.resolve_left hactive
    rw [w.onSslConnect_of_ne hactive, hpid, htid]
    rfl

/-- **An event names its caller, unless its root id is another process's id where the injector
looks.** For every tree of pid namespaces, every placement of the injector and of the caller, and
every assignment of ids: the process that the pid of the event denotes in the injector's namespace,
if any, is the one that called `SSL_connect`. This holds exactly when the caller is in the
injector's namespace, or the injector in the root namespace, or no other process has in the
injector's namespace the id that the caller has in the root namespace. -/
theorem event_names_caller_iff (injector : N) (cur : T) (ssl : Nat) :
    (∀ t, w.id injector t =
        some (w.onSslConnect (w.dev injector) (w.ino injector) cur ssl).pid →
      w.leader t = w.leader cur) ↔
      w.active cur = injector ∨ injector = w.root ∨
        ∀ t, w.id injector t = w.tgid w.root cur → w.leader t = w.leader cur := by
  by_cases h : w.active cur = injector
  · subst h
    rw [w.onSslConnect_pid_of_active]
    exact ⟨fun _ => .inl rfl, fun _ t ht => w.eq_leader_of_id (w.tgid_active_isSome cur) ht⟩
  · rw [w.onSslConnect_pid_of_ne h]
    constructor
    · exact fun hnames => .inr (.inr hnames)
    · rintro (hactive | rfl | hnames)
      · exact absurd hactive h
      · exact fun t ht => w.eq_leader_of_id (w.tgid_root_isSome cur) ht
      · exact hnames

end Pidns

/-- A nested node: namespace 0 is the root, 1 the node, 2 a container in the node. Task 0 is a
client in the container, task 1 another process of the node, whose id there is the client's id in
the root namespace. -/
def nestedNode : Pidns (Fin 3) (Fin 2) where
  root := 0
  parent n := if n = 2 then 1 else 0
  chain n := if n = 0 then [0] else if n = 1 then [1, 0] else [2, 1, 0]
  chain_root := rfl
  chain_of_ne := by decide
  dev _ := 4
  ino n := 4026531836 + n
  ino_ne := by decide
  ident_inj := by decide
  active t := if t = 0 then 2 else 1
  leader t := t
  leader_leader := by decide
  leader_active := by decide
  id n t :=
    if t = 0 then some (if n = 0 then 4021 else if n = 1 then 812 else 7)
    else if n = 0 then some 9310 else if n = 1 then some 4021 else none
  id_isSome := by decide
  id_inj := by decide

/-- On a nested node, the event of a client in a container names another process of the node. -/
theorem nested_event_names_other :
    let e := nestedNode.onSslConnect (nestedNode.dev 1) (nestedNode.ino 1) 0 0x7f00
    e.pid = 4021 ∧ nestedNode.id 1 1 = some e.pid ∧ nestedNode.leader 1 ≠ nestedNode.leader 0 ∧
      nestedNode.id 1 0 = some 812 := by
  decide

end TicketConnect
