import TicketConnect.Uds.Exchange

/-!
# What the client makes of a reply

`uds_get` against a peer that may send any bytes and close at any moment. `OkReply` says what a
complete OK response is, and `Replied` lists the ways a call ends. `udsGet_decodes_iff` then says
for which streams the outputs are those of the response: the length travels as a `uint32_t` and is
stored in an `int`, so a complete response of `2 ^ 31` bytes or more is returned with a negative
length.
-/

namespace TicketConnect

open Lib

/-! ## Responses -/

/-- The declared length of the group name. -/
def replyGroupLen (stream : List UInt8) : Nat := (stream.getD 4 0).toNat

/-- The declared length of the DER bytes. -/
def replyDerLen (stream : List UInt8) : Nat :=
  getBE32 (stream.getD 5 0) (stream.getD 6 0) (stream.getD 7 0) (stream.getD 8 0)

/-- The length of the response that a stream starts with. -/
def replyLen (stream : List UInt8) : Nat :=
  udsRespHdr + replyGroupLen stream + replyDerLen stream

/-- A stream that starts with an OK response, whose group name and DER bytes are fully present. -/
structure OkReply (stream : List UInt8) : Prop where
  magic : stream.getD 0 0 = udsMagic
  version : stream.getD 1 0 = udsVersion
  status : stream.getD 2 0 = udsStatusOk
  complete : replyLen stream ≤ stream.length

/-- The DER bytes of the response. -/
def replyDer (stream : List UInt8) : List UInt8 :=
  (stream.drop (udsRespHdr + replyGroupLen stream)).take (replyDerLen stream)

/-- The session `uds_get` stores for a response. -/
def replySession (groupCap : Nat) (stream : List UInt8) : ClientSession where
  der := replyDer stream
  derLen := toInt32 (replyDerLen stream)
  isPqc := (stream.getD 3 0).toNat
  group :=
    if 0 < groupCap then
      some ((CString.ofBuf ((stream.drop udsRespHdr).take (replyGroupLen stream) ++ [0])).snprintf
        groupCap)
    else none

/-- The length that `uds_get` stores is the declared one, cast to `int`. -/
theorem replySession_derLen (groupCap : Nat) (stream : List UInt8) :
    (replySession groupCap stream).derLen = toInt32 (replyDerLen stream) := by
  rw [replySession]

/-- The DER bytes of a complete response are as many as declared. -/
theorem OkReply.replyDer_length {stream : List UInt8} (h : OkReply stream) :
    (replyDer stream).length = replyDerLen stream := by
  have := h.complete
  simp only [replyLen] at this
  simp only [replyDer, List.length_take, List.length_drop]
  omega

/-- Reading an entry of the front of a list. -/
theorem getD_take {l : List UInt8} {i n : Nat} (h : i < n) :
    (l.take n).getD i 0 = l.getD i 0 := by
  simp [List.getD_eq_getElem?_getD, List.getElem?_take_of_lt h]

/-! ## The ways `uds_get` ends -/

/-- How `uds_get` ends on a stream: a transport error, an explicit status, or a complete OK
response. -/
inductive Replied (groupCap : Nat) (stream : List UInt8) : ClientOut → Prop
  | failed : Replied groupCap stream ⟨-1, none⟩
  | status {b : UInt8} : b ≠ udsStatusOk → Replied groupCap stream ⟨b.toNat, none⟩
  | ok : OkReply stream →
      Replied groupCap stream ⟨udsStatusOk.toNat, some (replySession groupCap stream)⟩

section Reply
variable {groupCap : Nat} {stream : List UInt8}

/-- `uds_get` reads a reply in one of these ways, however the stream is cut. -/
theorem udsReadReply_replied (reads : List IoEv) (mallocOk : Bool) :
    Replied groupCap stream (udsReadReply reads mallocOk groupCap stream) := by
  unfold udsReadReply readReplyCall
  obtain hret | ⟨calls, hlen, hhdr⟩ := readExact_cases reads udsRespHdr stream
  · rw [if_pos hret]
    exact .failed
  -- the header bytes are the first bytes of the stream
  simp (disch := decide) only [hhdr, getD_take, ne_eq, not_true_eq_false, if_false]
  split
  · exact .failed
  next hmv =>
  split
  · next hs => exact .status hs
  next hs =>
  obtain hret | ⟨calls', hlen', hgroup⟩ :=
    readExact_cases calls (replyGroupLen stream) (stream.drop udsRespHdr)
  · rw [replyGroupLen] at hret
    rw [if_pos hret]
    exact .failed
  rw [replyGroupLen] at hgroup
  simp only [hgroup, not_true_eq_false, if_false]
  cases mallocOk with
  | false => exact .failed
  | true =>
  simp only [if_true]
  obtain hret | ⟨_, hlen'', hbody⟩ :=
    readExact_cases calls' (replyDerLen stream)
      ((stream.drop udsRespHdr).drop (replyGroupLen stream))
  · rw [replyGroupLen, replyDerLen] at hret
    rw [if_pos hret]
    exact .failed
  rw [replyGroupLen, replyDerLen] at hbody
  simp only [hbody, not_true_eq_false, if_false]
  rw [not_or] at hmv
  rw [List.drop_drop, List.length_drop] at hlen''
  rw [List.length_drop] at hlen'
  rw [List.drop_drop]
  exact .ok ⟨not_not.1 hmv.1, not_not.1 hmv.2, not_not.1 hs, by unfold replyLen; omega⟩

/-- Where no read fails and the allocation succeeds, a complete OK response is stored. -/
theorem udsReadReply_of_okReply (h : OkReply stream) {reads : List IoEv} (hr : .fail ∉ reads) :
    udsReadReply reads true groupCap stream =
      ⟨udsStatusOk.toNat, some (replySession groupCap stream)⟩ := by
  have hlen := h.complete
  simp only [replyLen] at hlen
  obtain ⟨calls, hf, hhdr⟩ := readExact_take hr (show udsRespHdr ≤ stream.length by omega)
  obtain ⟨calls', hf', hgroup⟩ := readExact_take hf (n := replyGroupLen stream)
    (s := stream.drop udsRespHdr) (by rw [List.length_drop]; omega)
  obtain ⟨_, -, hbody⟩ := readExact_take hf' (n := replyDerLen stream)
    (s := stream.drop (udsRespHdr + replyGroupLen stream)) (by rw [List.length_drop]; omega)
  rw [replyGroupLen] at hgroup hbody
  rw [replyDerLen] at hbody
  unfold udsReadReply readReplyCall
  simp (disch := decide) only [hhdr, getD_take, h.magic, h.version, h.status, hgroup, hbody,
    List.drop_drop]
  rfl

/-- `uds_get` ends in one of these ways, whatever the destination. -/
theorem udsGet_replied (writes reads : List IoEv) (mallocOk : Bool) (dest : CString) :
    Replied groupCap stream (udsGet writes reads mallocOk dest groupCap fun _ => stream) := by
  rw [udsGet_eq]
  split
  · exact .failed
  · exact udsReadReply_replied reads mallocOk

/-- Where every call moves all it can, a complete OK response is returned to a caller whose
destination fits a frame. -/
theorem udsGet_of_okReply (h : OkReply stream) :
    udsGet [] [] true sampleDest groupCap (fun _ => stream) =
      ⟨udsStatusOk.toNat, some (replySession groupCap stream)⟩ := by
  have hfit : ¬(sampleDest.strlen = 0 ∨ udsDestMax < sampleDest.strlen) := by decide
  have hw := (@writeAll_ok [] (udsRequest sampleDest) (by simp)).1
  rw [udsGet_eq, if_neg (not_or.2 ⟨hfit, not_not.2 hw⟩)]
  exact udsReadReply_of_okReply h List.not_mem_nil

end Reply

/-! ## Safe decoding -/

/-- What a caller of `uds_get` relies on: the OK status comes with the length and the bytes of a
complete response, and everything else is negative or another status and stores nothing. -/
inductive DecodesSafely (stream : List UInt8) : ClientOut → Prop
  | ok {session : ClientSession} : OkReply stream → 0 ≤ session.derLen →
      session.derLen = replyDerLen stream → session.derLen = session.der.length →
      session.der = replyDer stream → DecodesSafely stream ⟨udsStatusOk.toNat, some session⟩
  | failed {ret : Int} : ret < 0 → DecodesSafely stream ⟨ret, none⟩
  | status {b : UInt8} : b ≠ udsStatusOk → DecodesSafely stream ⟨b.toNat, none⟩

/-- A session that is stored has a length that is not negative. -/
theorem DecodesSafely.derLen_nonneg {stream : List UInt8} {out : ClientOut}
    (h : DecodesSafely stream out) {session : ClientSession} (hs : out.session = some session) :
    0 ≤ session.derLen := by
  cases h with
  | ok _ hnonneg => cases hs; exact hnonneg
  | failed | status => cases hs

/-- The cast to `int` keeps a declared length below `2 ^ 31`, and makes every other one negative. -/
theorem toInt32_nonneg_iff {n : Nat} (h : n < 2 ^ 32) : 0 ≤ toInt32 n ↔ n < 2 ^ 31 := by
  unfold toInt32
  rw [Int.bmod_def]
  omega

theorem toInt32_of_lt {n : Nat} (h : n < 2 ^ 31) : toInt32 n = n :=
  Int.bmod_eq_of_le (by omega) (by omega)

/-- The declared length is a `uint32_t`. -/
theorem replyDerLen_lt (stream : List UInt8) : replyDerLen stream < 2 ^ 32 := by
  have h₀ := (stream.getD 5 0).toNat_lt
  have h₁ := (stream.getD 6 0).toNat_lt
  have h₂ := (stream.getD 7 0).toNat_lt
  have h₃ := (stream.getD 8 0).toNat_lt
  rw [replyDerLen, getBE32_eq]
  omega

/-- A call that ends in one of the ways above decodes safely, as long as the declared length of a
complete response fits an `int`. -/
theorem Replied.decodesSafely {groupCap : Nat} {stream : List UInt8} {out : ClientOut}
    (h : Replied groupCap stream out) (hlt : OkReply stream → replyDerLen stream < 2 ^ 31) :
    DecodesSafely stream out := by
  cases h with
  | failed => exact .failed (by decide)
  | status hb => exact .status hb
  | ok hok =>
    have hint : (replySession groupCap stream).derLen = replyDerLen stream := by
      rw [replySession_derLen, toInt32_of_lt (hlt hok)]
    refine .ok hok ?_ hint ?_ rfl
    · rw [hint]; omega
    · rw [hint]; exact congrArg _ hok.replyDer_length.symm

/-- **The client decodes a reply safely, unless it is a complete response of `2 ^ 31` bytes or
more.** For every byte stream a peer may send, every fragmentation and every failure of a call: the
OK status is returned only for a complete OK response, and then with its length and its DER bytes;
in every other case the return value is negative or a status other than OK and nothing is stored.
This holds exactly for the streams that do not start with a complete OK response whose declared DER
length is `2 ^ 31` or more. -/
theorem udsGet_decodes_iff (stream : List UInt8) :
    (∀ (writes reads : List IoEv) (mallocOk : Bool) (dest : CString) (groupCap : Nat),
      DecodesSafely stream (udsGet writes reads mallocOk dest groupCap fun _ => stream)) ↔
      ¬(OkReply stream ∧ 2 ^ 31 ≤ replyDerLen stream) := by
  constructor
  · rintro h ⟨hok, hbig⟩
    have hget := h [] [] true sampleDest 0
    rw [udsGet_of_okReply hok] at hget
    have hnonneg := hget.derLen_nonneg rfl
    rw [replySession_derLen, toInt32_nonneg_iff (replyDerLen_lt stream)] at hnonneg
    omega
  · intro h writes reads mallocOk dest groupCap
    refine (udsGet_replied writes reads mallocOk dest).decodesSafely fun hok => ?_
    by_contra hbig
    exact h ⟨hok, by omega⟩

/-- A response that declares `2 ^ 31` DER bytes and delivers them is returned with the OK status and
the length `-2 ^ 31`. -/
theorem udsGet_negative_derLen :
    let stream := [0x54, 1, 0, 1, 0, 0x80, 0, 0, 0] ++ List.replicate (2 ^ 31) 48
    ∃ session, udsGet [] [] true sampleDest 64 (fun _ => stream) =
        ⟨udsStatusOk.toNat, some session⟩ ∧
      session.derLen = -2 ^ 31 ∧ session.der.length = 2 ^ 31 ∧
      ¬DecodesSafely stream (udsGet [] [] true sampleDest 64 fun _ => stream) := by
  intro stream
  have hder : replyDerLen stream = 2 ^ 31 := show getBE32 0x80 0 0 0 = 2 ^ 31 by decide
  have hok : OkReply stream :=
    ⟨rfl, rfl, rfl, by
      rw [replyLen, hder, show replyGroupLen stream = 0 from rfl, List.length_append,
        List.length_replicate]
      decide⟩
  have hget : udsGet [] [] true sampleDest 64 (fun _ => stream) =
      ⟨udsStatusOk.toNat, some (replySession 64 stream)⟩ := udsGet_of_okReply hok
  have hlen : (replySession 64 stream).derLen = -2 ^ 31 := by
    rw [replySession_derLen, hder]
    decide
  refine ⟨_, hget, hlen, hok.replyDer_length.trans hder, ?_⟩
  rw [hget]
  intro h
  have hnonneg := h.derLen_nonneg rfl
  omega

end TicketConnect
