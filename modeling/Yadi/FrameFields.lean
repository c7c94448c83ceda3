import Yadi.Negotiation
import Yadi.ReplyMatching

/-!
# What the fields of a parsed frame mean

Two questions about a frame `hdlcFrameParse` accepts: are its fields those of
the buffer, and is its payload the information field?

The client address, the numbers of an information frame and the addresses of
a server with four address bytes are right. The branch for two address bytes
tests for the offset 5, but behind two address bytes the offset is 6. So they
go through the branch for four, which takes them for a physical address
alone: right exactly for the logical address 0 (`hdlcFrameParse_fields_iff`).

The test of the LLC header reads three bytes whatever the information field
has. An information frame with one or two bytes is accepted if its check
sequence happens to go on with the header, so the payload is the information
field exactly if that is long enough (`hdlcFrameParse_payload_iff`).
-/

namespace Dlms.Hdlc

open Run

/-! ## Addresses -/

section
variable {w : ℕ}

/-- A mask shifted up is a mask below, shifted up. -/
theorem and_shiftLeft_eq (x m : BitVec w) (k : ℕ) :
    x &&& (m <<< k) = ((x >>> k) &&& m) <<< k := by
  refine BitVec.eq_of_getLsbD_eq (fun i hi => ?_)
  rw [BitVec.getLsbD_and, BitVec.getLsbD_shiftLeft, BitVec.getLsbD_shiftLeft,
    BitVec.getLsbD_and, BitVec.getLsbD_ushiftRight]
  by_cases h : i < k
  · simp [h]
  · simp [h, hi, Nat.add_sub_cancel' (Nat.not_lt.mp h)]

end

/-- The lowest seven bits. -/
theorem toNat_and_low (x : BitVec 32) : (x &&& 0x7F#32).toNat = x.toNat % 128 := by
  rw [BitVec.toNat_and]
  exact Nat.and_two_pow_sub_one_eq_mod x.toNat 7

/-- **One part of a four-byte address**: the upper seven bits of the last two
bytes of the address word. -/
theorem toNat_addressPart (x : BitVec 32) :
    ((((x >>> 2) &&& 0x3F80#32) ||| ((x >>> 1) &&& 0x7F#32)).setWidth 16).toNat
      = x.toNat / 512 % 128 * 128 + x.toNat / 2 % 128 := by
  have hlow : ((x >>> 1) &&& 0x7F#32).toNat = x.toNat / 2 % 128 := by
    rw [toNat_and_low, BitVec.toNat_ushiftRight, Nat.shiftRight_eq_div_pow]
  have hhigh : ((x >>> 2) &&& 0x3F80#32).toNat
      = (x.toNat / 512 % 128) <<< 7 := by
    rw [show (0x3F80#32) = 0x7F#32 <<< 7 by rfl, and_shiftLeft_eq,
      BitVec.toNat_shiftLeft, toNat_and_low, BitVec.toNat_ushiftRight,
      BitVec.toNat_ushiftRight, Nat.shiftRight_eq_div_pow,
      Nat.shiftRight_eq_div_pow, Nat.div_div_eq_div_mul, Nat.shiftLeft_eq]
    omega
  rw [BitVec.toNat_setWidth, BitVec.toNat_or, hhigh, hlow,
    ← Nat.shiftLeft_add_eq_or_of_lt (Nat.mod_lt _ (by decide)),
    Nat.shiftLeft_eq]
  omega

/-- The address word of two bytes, as a number. -/
theorem toNat_addressWord_two (b : List Byte) :
    (addressWord b 2).toNat
      = (byteAt b 4).toNat * 256 + (byteAt b 5).toNat := by
  have h4 := (byteAt b 4).isLt
  simp only [addressWord, toNat_shiftLeft_or, Nat.reduceAdd,
    BitVec.ofNat_eq_ofNat, BitVec.toNat_ofNat, Nat.zero_mod]
  omega

/-- The address word of four bytes, as a number. -/
theorem toNat_addressWord_four (b : List Byte) :
    (addressWord b 4).toNat
      = (byteAt b 4).toNat * 2 ^ 24 + (byteAt b 5).toNat * 2 ^ 16
        + (byteAt b 6).toNat * 256 + (byteAt b 7).toNat := by
  have h4 := (byteAt b 4).isLt
  have h5 := (byteAt b 5).isLt
  have h6 := (byteAt b 6).isLt
  simp only [addressWord, toNat_shiftLeft_or, Nat.reduceAdd,
    BitVec.ofNat_eq_ofNat, BitVec.toNat_ofNat, Nat.zero_mod]
  omega

/-- What the branch for four address bytes takes out of the address word. -/
theorem toNat_serverAddresses (x : BitVec 32) {c : ℕ} (h : c ≠ 5) :
    (serverAddresses x c).1.toNat
        = x.toNat / 2 ^ 25 % 128 * 128 + x.toNat / 2 ^ 17 % 128
      ∧ (serverAddresses x c).2.toNat
        = x.toNat / 512 % 128 * 128 + x.toNat / 2 % 128 := by
  rw [serverAddresses, if_neg h]
  refine ⟨?_, toNat_addressPart x⟩
  -- the logical address is the part two bytes further up
  rw [BitVec.shiftRight_add x 16 2, BitVec.shiftRight_add x 16 1,
    toNat_addressPart, BitVec.toNat_ushiftRight, Nat.shiftRight_eq_div_pow]
  omega

theorem toNat_addressHalf (hi lo : Byte) :
    (addressHalf hi lo).toNat = hi.toNat / 2 * 128 + lo.toNat / 2 := by
  have hhi := hi.isLt
  have hlo := lo.isLt
  rw [addressHalf, BitVec.toNat_ofNat, Nat.mod_eq_of_lt (by omega)]

/-- Each shift leaves the upper seven bits of one byte at the bottom. -/
theorem addressWord_four_shifts (b : List Byte) :
    (addressWord b 4).toNat / 2 ^ 25 % 128 = (byteAt b 4).toNat / 2
      ∧ (addressWord b 4).toNat / 2 ^ 17 % 128 = (byteAt b 5).toNat / 2
      ∧ (addressWord b 4).toNat / 512 % 128 = (byteAt b 6).toNat / 2
      ∧ (addressWord b 4).toNat / 2 % 128 = (byteAt b 7).toNat / 2 := by
  have hword := toNat_addressWord_four b
  have h4 := (byteAt b 4).isLt
  have h5 := (byteAt b 5).isLt
  have h6 := (byteAt b 6).isLt
  have h7 := (byteAt b 7).isLt
  have hshift5 : (addressWord b 4).toNat / 2 ^ 17
      = (byteAt b 4).toNat * 128 + (byteAt b 5).toNat / 2 := by omega
  have hshift6 : (addressWord b 4).toNat / 512
      = ((byteAt b 4).toNat * 2 ^ 8 + (byteAt b 5).toNat) * 128
        + (byteAt b 6).toNat / 2 := by omega
  have hshift7 : (addressWord b 4).toNat / 2
      = ((byteAt b 4).toNat * 2 ^ 16 + (byteAt b 5).toNat * 2 ^ 8
        + (byteAt b 6).toNat) * 128 + (byteAt b 7).toNat / 2 := by omega
  refine ⟨by omega, ?_, ?_, ?_⟩
  · rw [hshift5, Nat.mul_add_mod_of_lt (by omega)]
  · rw [hshift6, Nat.mul_add_mod_of_lt (by omega)]
  · rw [hshift7, Nat.mul_add_mod_of_lt (by omega)]

/-- **Four address bytes are taken apart as they should be.** -/
theorem serverAddresses_four (b : List Byte) :
    serverAddresses (addressWord b 4) 8
      = (addressHalf (byteAt b 4) (byteAt b 5),
        addressHalf (byteAt b 6) (byteAt b 7)) := by
  obtain ⟨hlogical, hphysical⟩ :=
    toNat_serverAddresses (addressWord b 4) (c := 8) (by decide)
  obtain ⟨h4, h5, h6, h7⟩ := addressWord_four_shifts b
  rw [Prod.ext_iff, ← BitVec.toNat_inj, ← BitVec.toNat_inj, hlogical,
    hphysical, toNat_addressHalf, toNat_addressHalf, h4, h5, h6, h7]
  exact ⟨rfl, rfl⟩

/-- **Two address bytes are taken for the physical address of a server
without a logical one.** -/
theorem serverAddresses_two (b : List Byte) :
    serverAddresses (addressWord b 2) 6
      = (0, addressHalf (byteAt b 4) (byteAt b 5)) := by
  obtain ⟨hlogical, hphysical⟩ :=
    toNat_serverAddresses (addressWord b 2) (c := 6) (by decide)
  have hword := toNat_addressWord_two b
  have h4 := (byteAt b 4).isLt
  have h5 := (byteAt b 5).isLt
  rw [Prod.ext_iff, ← BitVec.toNat_inj, ← BitVec.toNat_inj, hlogical,
    hphysical, toNat_addressHalf, hword]
  exact ⟨show _ = 0 by omega, by omega⟩

/-- **The addresses of a parsed frame are those of its address bytes exactly
if there are four of them, or the logical address is 0.** -/
theorem serverAddresses_eq_iff {b : List Byte} {c : ℕ}
    (h : ServerAddress b c) :
    serverAddresses (addressWord b (c - 4)) c = sourceAddress b c
      ↔ c = 8 ∨ byteAt b 4 = 0 := by
  rcases h.width with rfl | rfl
  · have hclear := h.more 4 le_rfl (by decide)
    rw [getLsbD_zero_eq, decide_eq_false_iff_not] at hclear
    rw [serverAddresses_two, sourceAddress, if_pos rfl, Prod.mk.injEq,
      eq_comm, setWidth_ushiftRight_eq_iff, addressHalf_eq_iff,
      BitVec.toNat_setWidth_of_le (by decide), BitVec.toNat_ushiftRight,
      Nat.shiftRight_eq_div_pow, ← BitVec.toNat_inj]
    simp only [BitVec.ofNat_eq_ofNat, BitVec.toNat_ofNat, Nat.zero_mod]
    have h5 := (byteAt b 5).isLt
    omega
  · rw [serverAddresses_four, sourceAddress, if_neg (by decide)]
    exact iff_of_true rfl (.inl rfl)

/-! ## The fields of a frame -/

/-- The numbers of an information frame, out of its control byte. -/
theorem controlFields_information (x : Byte) (h : x.getLsbD 0 = false) :
    (controlFields (x &&& 0xEF#8)).1 = HdlcCommand.responseI
      ∧ (controlFields (x &&& 0xEF#8)).2.1.toNat = receiveNumber x
      ∧ (controlFields (x &&& 0xEF#8)).2.2.toNat = sendNumber x := by
  revert x
  unfold receiveNumber sendNumber
  decide +kernel

/-- **The fields of a frame are those of the buffer**, whose control byte is
at `c`. -/
structure FieldsDecoded (b : List Byte) (c : ℕ) (frame : HdlcFrame) :
    Prop where
  client : frame.clientAddress.toNat = (byteAt b 3).toNat / 2
  server : (frame.logicalAddress, frame.physicalAddress) = sourceAddress b c
  information : IsInformation b c → frame.cmd = HdlcCommand.responseI
    ∧ frame.sss.toNat = sendNumber (byteAt b c)
    ∧ frame.rrr.toNat = receiveNumber (byteAt b c)

/-- **All fields are right exactly if the server address has four bytes or
the logical address is 0.** -/
theorem hdlcFrameParse_fields_iff {b : List Byte} {frame : HdlcFrame} {c : ℕ}
    (hparse : hdlcFrameParse b = ok frame) (hc : ServerAddress b c) :
    FieldsDecoded b c frame ↔ c = 8 ∨ byteAt b 4 = 0 := by
  obtain ⟨-, -, rfl⟩ := parsed_of_serverAddress hparse hc
  rw [← serverAddresses_eq_iff hc]
  constructor
  · exact fun h => h.server
  · intro h
    refine ⟨?_, h, fun hinfo => ?_⟩
    · change (byteAt b 3 >>> 1).toNat = _
      rw [BitVec.toNat_ushiftRight, Nat.shiftRight_eq_div_pow, Nat.pow_one]
    · obtain ⟨hcmd, hrrr, hsss⟩ := controlFields_information _ hinfo
      exact ⟨hcmd, hsss, hrrr⟩

/-- The reply of a server with four address bytes has all its fields. -/
theorem hdlcFrameParse_fields_replyFrame :
    FieldsDecoded replyFrame 8 (parsed replyFrame 8) :=
  (hdlcFrameParse_fields_iff
    (show hdlcFrameParse replyFrame = ok (parsed replyFrame 8)
      by decide +kernel)
    (show ServerAddress replyFrame 8 by decide)).mpr (.inl rfl)

/-- A UA frame from logical address 1 and physical address 1, a byte each. -/
def shortAddressFrame : List Byte :=
  [0x7E, 0xA0, 0x08, 0x03, 0x02, 0x03, 0x73, 0x6C, 0xD6, 0x7E]

/-- It is taken for one from logical address 0 and physical address 129. -/
theorem shortAddressFrame_misread :
    ServerAddress shortAddressFrame 6
      ∧ sourceAddress shortAddressFrame 6 = (1, 1)
      ∧ ∃ frame, hdlcFrameParse shortAddressFrame = ok frame
        ∧ (frame.logicalAddress, frame.physicalAddress) = (0, 129)
        ∧ ¬ FieldsDecoded shortAddressFrame 6 frame := by
  have hparse : hdlcFrameParse shortAddressFrame
      = ok (parsed shortAddressFrame 6) := by
    decide +kernel
  have haddresses : ((parsed shortAddressFrame 6).logicalAddress,
      (parsed shortAddressFrame 6).physicalAddress) = ((0, 129) : Word × Word) := by
    decide +kernel
  refine ⟨by decide, by decide, _, hparse, haddresses, fun h => ?_⟩
  have hserver := h.server
  rw [haddresses] at hserver
  exact absurd hserver (by decide)

/-! ## The payload -/

/-- **The payload is the information field** of the frame, in an information
frame what is left of it behind the LLC header; and an information frame has
an information field. -/
def PayloadDecoded (b : List Byte) (c : ℕ) (frame : HdlcFrame) : Prop :=
  if b.length = c + 4 then
    frame.payload = [] ∧ ¬ IsInformation b c
  else if IsInformation b c then
    informationField b c = [0xE6, 0xE7, 0x00] ++ frame.payload
  else
    informationField b c = frame.payload

/-- Where the three bytes of the LLC header belong to the information field,
the field starts with them. -/
theorem LlcHeader.informationField_eq {b : List Byte} {c : ℕ}
    (h : LlcHeader b (c + 3)) (hlen : c + 9 ≤ b.length) :
    informationField b c
      = [0xE6, 0xE7, 0x00] ++ slice b (c + 6) (b.length - 3) := by
  obtain ⟨h0, h1, h2⟩ := h
  rw [informationField, slice_succ (by omega) (by omega),
    slice_succ (by omega) (by omega), slice_succ (by omega) (by omega), h0,
    h1, h2]
  rfl

/-- **The payload is the information field exactly if that of an information
frame has room for the LLC header.** -/
theorem hdlcFrameParse_payload_iff {b : List Byte} {frame : HdlcFrame} {c : ℕ}
    (hparse : hdlcFrameParse b = ok frame) (hc : ServerAddress b c) :
    PayloadDecoded b c frame ↔ (IsInformation b c → c + 9 ≤ b.length) := by
  obtain ⟨hacc, hllc, rfl⟩ := parsed_of_serverAddress hparse hc
  unfold PayloadDecoded
  by_cases hinfo : IsInformation b c
  · -- the LLC header is there, so there is an information field
    have hbody := hacc.toEnvelope.information_of_llc (hllc hinfo).1
    rw [if_neg (by omega), if_pos hinfo, parsed, if_pos hinfo]
    constructor
    · intro h _
      have hlength := congrArg List.length h
      rw [informationField, length_slice, List.length_append] at hlength
      simp only [List.length_cons, List.length_nil] at hlength
      omega
    · exact fun h => (hllc hinfo).informationField_eq (h hinfo)
  · refine iff_of_true ?_ (fun h => absurd h hinfo)
    rw [parsed, if_neg hinfo, if_neg hinfo, informationField]
    split_ifs with hlen
    · exact ⟨by rw [slice, hlen, show c + 4 - 3 - (c + 3) = 0 by omega,
        List.take_zero], hinfo⟩
    · rfl

/-- The payload of a reply is what stands behind its LLC header. -/
theorem hdlcFrameParse_payload_replyFrame :
    PayloadDecoded replyFrame 8 (parsed replyFrame 8) :=
  (hdlcFrameParse_payload_iff
    (show hdlcFrameParse replyFrame = ok (parsed replyFrame 8)
      by decide +kernel)
    (show ServerAddress replyFrame 8 by decide)).mpr (fun _ => by decide)

/-- An information frame with two bytes of information, `E6 E7`, and a check
sequence that starts with `00`. -/
def shortInformationFrame : List Byte :=
  [0x7E, 0xA0, 0x0E, 0x03, 0x00, 0x02, 0xFE, 0xFF, 0x30, 0xB6, 0x00, 0xE6,
    0xE7, 0x00, 0xEF, 0x7E]

/-- It is accepted with an empty payload, and the third byte of its LLC
header is a byte of the check sequence. -/
theorem shortInformationFrame_misread :
    ServerAddress shortInformationFrame 8
      ∧ informationField shortInformationFrame 8 = [0xE6, 0xE7]
      ∧ ∃ frame, hdlcFrameParse shortInformationFrame = ok frame
        ∧ frame.payload = []
        ∧ ¬ PayloadDecoded shortInformationFrame 8 frame := by
  have hparse : hdlcFrameParse shortInformationFrame
      = ok (parsed shortInformationFrame 8) := by
    decide +kernel
  refine ⟨by decide, by decide, _, hparse, by decide +kernel, fun h => ?_⟩
  rw [PayloadDecoded, if_neg (by decide), if_pos (by decide)] at h
  exact absurd (congrArg List.length h) (by decide +kernel)

end Dlms.Hdlc
