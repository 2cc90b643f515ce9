import TicketConnect.Injector.Install

/-!
# The scratch buffer holds the payload

`inject_session` maps `page` bytes in the target, writes the DER at their start and a pointer to it
behind. `Payload` says what the target's memory then holds and where, and `payload_iff` for which
lengths two writes that report success leave it so: for all but the length `2 ^ 64 - 1`, which is an
`int` of -1 at the caller, where the failure of `process_vm_writev` equals the length asked for.
-/

namespace TicketConnect

open Lib

/-! ## The layout -/

/-- The result of a `mmap` of `page` bytes that succeeds: a page-aligned range that does not wrap
around. A `mmap` of no bytes fails. -/
structure Mapped (page scratch : BitVec 64) : Prop where
  pos : 0 < page.toNat
  aligned : scratch.toNat % 4096 = 0
  fits : scratch.toNat + page.toNat ≤ 2 ^ 64

/-- What the scratch buffer is for: it starts with the DER, and behind the DER, in the buffer and
8-aligned, stands the address of the DER. -/
structure Payload (der : Nat → BitVec 8) (derLen scratch : BitVec 64) (mem : ByteMem) : Prop where
  bytes : ∀ i < derLen.toNat, mem (scratch + BitVec.ofNat 64 i) = der i
  pointer : mem.peek (ptrLoc scratch derLen) = scratch
  aligned : (ptrLoc scratch derLen).toNat % 8 = 0
  disjoint : scratch.toNat + derLen.toNat ≤ (ptrLoc scratch derLen).toNat
  inside : (ptrLoc scratch derLen).toNat + 8 ≤ scratch.toNat + (scratchLen derLen).toNat
  fits : scratch.toNat + (scratchLen derLen).toNat ≤ 2 ^ 64

section Layout
variable {derLen scratch : BitVec 64}

/-- The length of the buffer, for a length that is not negative as a `ssize_t`. -/
theorem scratchLen_toNat (h : derLen.toNat < 2 ^ 63) :
    (scratchLen derLen).toNat = (derLen.toNat + 4111) / 4096 * 4096 := by
  have hsum : (derLen + 16).toNat = derLen.toNat + 16 := by bv_omega
  have hround : (scratchLen derLen).toNat = _ :=
    toNat_round_up (v := derLen + 16) (j := 12) (by decide) (by omega)
  rw [hround, hsum]
  omega

/-- Where the pointer goes: behind the DER, 8-aligned and in the buffer. -/
theorem ptrLoc_spec (h : derLen.toNat < 2 ^ 63) (hmap : Mapped (scratchLen derLen) scratch) :
    (ptrLoc scratch derLen).toNat % 8 = 0 ∧
      scratch.toNat + derLen.toNat ≤ (ptrLoc scratch derLen).toNat ∧
      (ptrLoc scratch derLen).toNat + 8 ≤ scratch.toNat + (scratchLen derLen).toNat := by
  have hround : (roundUp derLen 8).toNat = (derLen.toNat + 7) / 8 * 8 :=
    toNat_round_up (j := 3) (by decide) (by omega)
  have hpage := scratchLen_toNat h
  have hfits := hmap.fits
  have haligned := hmap.aligned
  have hloc : (ptrLoc scratch derLen).toNat = scratch.toNat + (derLen.toNat + 7) / 8 * 8 := by
    rw [ptrLoc, BitVec.toNat_add, hround, Nat.mod_eq_of_lt (by omega)]
  omega

end Layout

/-! ## The writes -/

/-- What a `write_mem` that returns 0 has done: it wrote all of a length that is not negative as a
`ssize_t`, or the length is -1. -/
theorem Kernel.writeMem_zero {k : Kernel} {addr : BitVec 64} {buf : Nat → BitVec 8} {n : BitVec 64}
    {s : Ptrace} (h : (k.writeMem addr buf n s).1 = 0) :
    n = -1 ∨ n.toNat < 2 ^ 63 ∧
      (k.writeMem addr buf n s).2.target.mem = s.target.mem.writeBytes addr buf n.toNat := by
  have hfail : (-1 : Int) = n.toInt → n = -1 := fun h => BitVec.eq_of_toInt_eq (by rw [← h]; rfl)
  unfold Kernel.writeMem Kernel.processVmWritev Kernel.ask at h ⊢
  cases hg : k.grant s.reqs.length with
  | false =>
    simp only [hg] at h
    split at h
    · next hw => exact .inl (hfail hw)
    · cases h
  | true =>
    simp only [hg] at h ⊢
    by_cases hbig : 2 ^ 63 ≤ n.toNat
    · rw [if_pos hbig] at h
      dsimp only at h
      split at h
      · next hw => exact .inl (hfail hw)
      · cases h
    · rw [if_neg hbig] at h ⊢
      dsimp only at h ⊢
      split at h
      swap
      · cases h
      next hw =>
      rw [BitVec.toInt_eq_toNat_of_lt (by omega)] at hw
      refine .inr ⟨by omega, ?_⟩
      rw [Int.ofNat.inj hw]
      rfl

/-- Two writes that return 0, of a length other than -1, leave the payload. -/
theorem payload_of_writes {k : Kernel} {der : Nat → BitVec 8} {derLen scratch : BitVec 64}
    {s : Ptrace} (hne : derLen ≠ -1) (hmap : Mapped (scratchLen derLen) scratch)
    (h₁ : (k.writeMem scratch der derLen s).1 = 0)
    (h₂ : (k.writeMem (ptrLoc scratch derLen) (wordBytes scratch) 8
      (k.writeMem scratch der derLen s).2).1 = 0) :
    Payload der derLen scratch (k.writeMem (ptrLoc scratch derLen) (wordBytes scratch) 8
      (k.writeMem scratch der derLen s).2).2.target.mem := by
  obtain ⟨hlt, hmem₁⟩ := (Kernel.writeMem_zero h₁).resolve_left hne
  obtain ⟨-, hmem₂⟩ := (Kernel.writeMem_zero h₂).resolve_left (by decide)
  obtain ⟨haligned, hdisjoint, hinside⟩ := ptrLoc_spec hlt hmap
  have hfits := hmap.fits
  refine ⟨fun i hi => ?_, ?_, haligned, hdisjoint, hinside, hfits⟩
  · -- the second write starts behind the byte
    have hout : 8 ≤ (scratch + BitVec.ofNat 64 i - ptrLoc scratch derLen).toNat := by
      generalize ptrLoc scratch derLen = loc at *
      bv_omega
    rw [hmem₂, hmem₁, show (8 : BitVec 64).toNat = 8 from rfl, ByteMem.writeBytes_of_le hout,
      ByteMem.writeBytes_add _ _ _ hi (by omega)]
  · rw [hmem₂]
    exact ByteMem.peek_writeBytes _ _ _

/-! ## The result -/

/-- A length of -1 leaves no room for the payload. -/
theorem not_payload_minus_one (der : Nat → BitVec 8) {scratch : BitVec 64} {mem : ByteMem}
    (hpos : 0 < scratch.toNat) : ¬Payload der (-1) scratch mem := by
  intro h
  have hdisjoint := h.disjoint
  have hlen : (-1 : BitVec 64).toNat = 2 ^ 64 - 1 := by decide
  have := (ptrLoc scratch (-1)).isLt
  omega

/-- **The scratch buffer holds exactly the payload, unless the length is -1.** For every kernel,
every buffer that the target's `mmap` may return and every outcome of the two writes: if both
`write_mem` calls of `inject_session` return 0, the buffer starts with the DER bytes, the pointer
behind them is 8-aligned and holds the buffer's address, and both are disjoint and inside the
buffer. This holds exactly for the lengths other than `2 ^ 64 - 1`. -/
theorem payload_iff (derLen : BitVec 64) :
    (∀ (k : Kernel) (der : Nat → BitVec 8) (scratch : BitVec 64) (s : Ptrace),
      Mapped (scratchLen derLen) scratch →
      let first := (ptraceRemote k).writeMem scratch der derLen s
      let second := (ptraceRemote k).writeMem (ptrLoc scratch derLen) (wordBytes scratch) 8 first.2
      first.1 = 0 → second.1 = 0 → Payload der derLen scratch second.2.target.mem) ↔
      derLen ≠ -1 := by
  constructor
  · rintro h rfl
    -- the refused write of the DER returns -1, which is the length asked for
    have hpayload := h (.granting (fun _ x => x) fun _ => .stopped sigtrap .int3) (fun _ => 48) 4096
      sampleStopped ⟨by decide, by decide, by decide⟩ (by decide) (by decide)
    exact not_payload_minus_one _ (by decide) hpayload
  · intro hne k der scratch s hmap first second h₁ h₂
    exact payload_of_writes hne hmap h₁ h₂

/-- With a length of -1 both writes return 0, and no byte of the DER is in the target. -/
theorem minus_one_writes_nothing :
    let k := Kernel.granting (fun _ x => x) fun _ => .stopped sigtrap .int3
    let derLen : BitVec 64 := .ofInt 64 (-1)
    let first := (ptraceRemote k).writeMem 0x7000 (fun _ => 48) derLen sampleStopped
    let second := (ptraceRemote k).writeMem (ptrLoc 0x7000 derLen) (wordBytes 0x7000) 8 first.2
    Mapped (scratchLen derLen) 0x7000 ∧ first.1 = 0 ∧ second.1 = 0 ∧
      ptrLoc 0x7000 derLen = 0x7000 ∧ second.2.target.mem 0x7008 ≠ 48 ∧
      ¬Payload (fun _ => 48) derLen 0x7000 second.2.target.mem :=
  ⟨⟨by decide, by decide, by decide⟩, by decide, by decide, by decide, by decide,
    not_payload_minus_one _ (by decide)⟩

end TicketConnect
