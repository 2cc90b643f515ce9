import Mathlib.Algebra.Ring.Int.Defs
import Mathlib.Algebra.Ring.Nat
import TicketConnect.Lib.CString
import TicketConnect.Lib.Compact

/-!
# The session pool

The model of `ticket-agent/pool.c`: a linked list of destinations, each with a fixed array of
`target_depth` slots of which the first `count` are live. A function that reads the clock or calls
the source takes the readings and the replies as arguments, so that a theorem over all arguments
covers every clock and every source. `free` is observable: every function returns the buffers it
frees, in order.

The pool never writes through a DER pointer, so a pointer is the allocation's identity together with
the bytes it points to (`Buf`), `none` being `NULL`.
-/

namespace TicketConnect

open Lib

/-- `DEST_MAX`. -/
def destMax : Nat := 255

/-- `GROUP_MAX`. -/
def groupMax : Nat := 64

/-- A `malloc`'d DER buffer: which allocation it is, and its bytes. -/
structure Buf where
  id : Nat
  bytes : List UInt8
deriving DecidableEq

/-- `struct Pool_entry`. -/
structure PoolEntry where
  der : Option Buf
  derLen : Int
  isPqc : Int
  group : CString
  expiresAt : Int
deriving DecidableEq

/-- A slot after `calloc` or `memset(e, 0, sizeof(*e))`. -/
def PoolEntry.zero : PoolEntry := ⟨none, 0, 0, .empty, 0⟩

/-- `struct Pool_dest`, without its `next` pointer: `Pool.dests` is the linked list. -/
structure PoolDest where
  dest : CString
  entries : List PoolEntry
  count : Nat
deriving DecidableEq

/-- `struct Pool`, without the source: its replies are arguments of `poolMaintain`. -/
structure Pool where
  targetDepth : Nat
  dests : List PoolDest
deriving DecidableEq

/-- What one successful call of the source stores through its out parameters. The last two fields
are the contract of `Pool_source_fn` (`pool.h`): `*der_len` is the length of the buffer, an
`int`. -/
structure SourceReply where
  der : Buf
  derLen : Int
  isPqc : Int
  group : CString
  lifetime : Int
  derLen_eq : derLen = der.bytes.length
  derLen_lt : derLen < 2 ^ 31
deriving DecidableEq

/-- A successful call of the source, and the clock reading `pool_maintain` takes after it. -/
structure Fetch where
  reply : SourceReply
  now : Int
deriving DecidableEq

/-- What the outside decides during one `pool_maintain`: the clock at the eviction, whether
`dest_intern`'s `calloc`s succeed, and the sessions the source delivers until its first failure. -/
structure MaintainEnv where
  now : Int
  allocOk : Bool
  fetches : List Fetch
deriving DecidableEq

/-- The result of a pool function: its value, the pool after it, and the buffers it freed. -/
structure PoolOut (α : Type) where
  ret : α
  pool : Pool
  freed : List Buf

/-- A `time_t` sum, at 64 bits. C leaves the overflow undefined; the model wraps. -/
def timeT (t : Int) : Int := t.bmod (2 ^ 64)

/-- `pool_new`. -/
def poolNew (targetDepth : Int) : Pool :=
  ⟨(if targetDepth < 1 then 1 else targetDepth).toNat, []⟩

/-! ## Destinations -/

/-- The live slots `[0, count)`. -/
def PoolDest.live (d : PoolDest) : List PoolEntry := d.entries.take d.count

/-- `dest_find`. -/
def destFind (p : Pool) (dest : CString) : Option PoolDest := p.dests.find? (·.dest = dest)

/-- A write through the pointer `dest_find` returned: the first node with the key changes. -/
def putDest (d : PoolDest) : List PoolDest → List PoolDest
  | [] => []
  | x :: xs => if x.dest = d.dest then d :: xs else x :: putDest d xs

/-- `p` with the node of `d`'s key overwritten by `d`. -/
def Pool.put (p : Pool) (d : PoolDest) : Pool := { p with dests := putDest d p.dests }

/-- `dest_intern`: the node of `dest`, made when there is none, and the pool with it; `none` for the
`NULL` of a destination that is too long or of a failed `calloc`. -/
def destIntern (allocOk : Bool) (p : Pool) (dest : CString) : Option (PoolDest × Pool) :=
  if destMax < dest.strlen then none
  else
    match destFind p dest with
    | some d => some (d, p)
    | none =>
      if allocOk then
        let d : PoolDest :=
          { dest := dest.snprintf (destMax + 1)
            entries := List.replicate p.targetDepth .zero
            count := 0 }
        some (d, { p with dests := d :: p.dests })
      else none

/-- `expires_at > now`. -/
def PoolEntry.fresh (now : Int) (e : PoolEntry) : Bool := decide (now < e.expiresAt)

/-- `evict_expired`: the compaction loop of `Lib.compact`, whose dropped slots `entry_clear` frees
and zeroes. -/
def evictExpired (now : Int) (d : PoolDest) : PoolDest × List Buf :=
  let s := compact (PoolEntry.fresh now) .zero d.count d.entries
  ({ d with entries := s.array, count := s.w }, s.out.filterMap (·.der))

/-! ## The operations -/

/-- The slot `pool_maintain` fills from one successful source call. -/
def Fetch.entry (f : Fetch) : PoolEntry where
  der := some f.reply.der
  derLen := f.reply.derLen
  isPqc := f.reply.isPqc
  group := f.reply.group.snprintf groupMax
  expiresAt := timeT (f.now + if 0 < f.reply.lifetime then f.reply.lifetime else 0)

/-- The write of one slot at `count`, and `++d->count`. -/
def PoolDest.push (d : PoolDest) (e : PoolEntry) : PoolDest :=
  { d with entries := d.entries.set d.count e, count := d.count + 1 }

/-- How the `while` loop of `pool_maintain` ends: the node, the successful source calls it made, and
whether it made a last call that failed. -/
structure Filled where
  dest : PoolDest
  used : List Fetch
  failed : Bool

/-- The `while` loop of `pool_maintain`, against a source that delivers `fetches` and then fails. -/
def poolFill (targetDepth : Nat) : PoolDest → List Fetch → Filled
  | d, [] => ⟨d, [], decide (d.count < targetDepth)⟩
  | d, f :: fs =>
    if d.count < targetDepth then
      let r := poolFill targetDepth (d.push f.entry) fs
      ⟨r.dest, f :: r.used, r.failed⟩
    else ⟨d, [], false⟩

/-- What `pool_maintain` returns, with the source calls it made. -/
structure Maintained where
  depth : Nat
  used : List Fetch
  failed : Bool
deriving DecidableEq

/-- `pool_maintain`. -/
def poolMaintain (p : Pool) (dest : CString) (env : MaintainEnv) : PoolOut Maintained :=
  match destIntern env.allocOk p dest with
  | none => ⟨⟨0, [], false⟩, p, []⟩
  | some (d, p) =>
    let (d, freed) := evictExpired env.now d
    let r := poolFill p.targetDepth d env.fetches
    ⟨⟨r.dest.count, r.used, r.failed⟩, p.put r.dest, freed⟩

/-- `pool_depth`. -/
def poolDepth (p : Pool) (dest : CString) (now : Int) : PoolOut Nat :=
  match destFind p dest with
  | none => ⟨0, p, []⟩
  | some d =>
    let (d, freed) := evictExpired now d
    ⟨d.count, p.put d, freed⟩

/-- What `pool_get` stores through its out parameters on a hit. `group` is `none` when the caller
passed no group buffer. -/
structure Got where
  der : Option Buf
  derLen : Int
  isPqc : Int
  group : Option CString
deriving DecidableEq

/-- The copy of a slot into the out parameters, for a group buffer of `groupCap` bytes (0: none). -/
def PoolEntry.got (e : PoolEntry) (groupCap : Nat) : Got :=
  ⟨e.der, e.derLen, e.isPqc, if 0 < groupCap then some (e.group.snprintf groupCap) else none⟩

/-- `pool_get`: `none` is a miss. -/
def poolGet (p : Pool) (dest : CString) (groupCap : Nat) (now : Int) : PoolOut (Option Got) :=
  match destFind p dest with
  | none => ⟨none, p, []⟩
  | some d =>
    let (d, freed) := evictExpired now d
    if d.count = 0 then ⟨none, p.put d, freed⟩
    else
      let i := d.count - 1
      let e := d.entries.getD i .zero
      ⟨some (e.got groupCap), p.put { d with entries := d.entries.set i .zero, count := i }, freed⟩

/-- `pool_free`: the buffers it frees. -/
def poolFree (p : Pool) : List Buf :=
  p.dests.flatMap fun d => d.live.filterMap (·.der)

end TicketConnect
