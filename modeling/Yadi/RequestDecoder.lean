import Yadi.FrameSerialize

/-!
# The other side of the frame writer

A server takes a request apart that `hdlcFrameSerialize` put together. The
library has no server, so `decodeRequest` is the decoder of the protocol: a
server address of four bytes, two 7-bit halves for each of its two parts, a
client address of one byte, the control byte with its two sequence numbers,
and the LLC header `E6 E6 00` in front of the information of an information
frame.

A frame whose fields fit (`Sendable`) and that fits the length field is
written well formed, and is decoded to what was put into it
(`hdlcFrameSerialize_lossless`). So no two requests share their bytes.
-/

namespace Dlms.Hdlc

open Run

/-! ## Addresses -/

/-- One part of a four-byte server address: two bytes of seven bits each,
above the bit that says whether another byte follows. -/
def addressHalf (hi lo : Byte) : Word :=
  BitVec.ofNat 16 (hi.toNat / 2 * 128 + lo.toNat / 2)

theorem toNat_and_even (x : Byte) : (x &&& 0xFE#8).toNat = x.toNat / 2 * 2 := by
  revert x
  decide +kernel

theorem toNat_or_one (x : Byte) :
    (x &&& 0xFE#8 ||| 0x01#8).toNat = x.toNat / 2 * 2 + 1 := by
  revert x
  decide +kernel

/-- The upper byte of an address part, as the writer spreads it. -/
theorem toNat_addressHigh (x : Word) :
    (((x >>> 6) &&& 0xFE#16).setWidth 8).toNat = x.toNat / 128 % 128 * 2 := by
  rw [BitVec.setWidth_and, show (0xFE#16).setWidth 8 = 0xFE#8 by rfl,
    toNat_and_even, BitVec.toNat_setWidth, BitVec.toNat_ushiftRight,
    Nat.shiftRight_eq_div_pow]
  omega

/-- The lower byte of an address part. -/
theorem toNat_addressLow (x : Word) :
    (((x <<< 1) &&& 0xFE#16).setWidth 8).toNat = x.toNat % 128 * 2 := by
  rw [BitVec.setWidth_and, show (0xFE#16).setWidth 8 = 0xFE#8 by rfl,
    toNat_and_even, BitVec.toNat_setWidth, BitVec.toNat_shiftLeft,
    Nat.shiftLeft_eq]
  omega

/-- The lower byte of an address part at the end of the address. -/
theorem toNat_addressLast (x : Word) :
    (((x <<< 1) &&& 0xFE#16).setWidth 8 ||| 0x01#8).toNat
      = x.toNat % 128 * 2 + 1 := by
  rw [BitVec.setWidth_and, show (0xFE#16).setWidth 8 = 0xFE#8 by rfl,
    toNat_or_one, BitVec.toNat_setWidth, BitVec.toNat_shiftLeft,
    Nat.shiftLeft_eq]
  omega

/-- **An address part is recovered exactly from its two bytes.** -/
theorem addressHalf_eq_iff {hi lo : Byte} {x : Word} :
    addressHalf hi lo = x
      ↔ hi.toNat / 2 = x.toNat / 128 ∧ lo.toNat / 2 = x.toNat % 128 := by
  rw [addressHalf, ← BitVec.toNat_inj, BitVec.toNat_ofNat]
  omega

/-- The client address byte. -/
theorem toNat_clientAddress (x : Byte) :
    (x <<< 1 ||| 0x01#8).toNat = x.toNat % 128 * 2 + 1 := by
  revert x
  decide +kernel

/-! ## The control byte -/

/-- `N(S)`, the number of the frame itself. -/
def sendNumber (control : Byte) : ℕ := control.toNat / 2 % 8

/-- `N(R)`, the number of the frame expected next. -/
def receiveNumber (control : Byte) : ℕ := control.toNat / 32

/-- The two numbers of an information frame, and the bits around them. -/
theorem controlBits (s r : Byte) :
    (0x10#8 ||| (s &&& 0x07#8) <<< 5 ||| (r &&& 0x07#8) <<< 1).toNat
      = s.toNat % 8 * 32 + 16 + r.toNat % 8 * 2 := by
  have hmask : ∀ x : Byte, x &&& 0x07#8 = BitVec.ofNat 8 (x.toNat % 8) := by
    decide +kernel
  have hbits : ∀ i j : Fin 8,
      (0x10#8 ||| BitVec.ofNat 8 i <<< 5 ||| BitVec.ofNat 8 j <<< 1).toNat
        = i * 32 + 16 + j * 2 := by
    decide +kernel
  rw [hmask, hmask]
  exact hbits ⟨s.toNat % 8, Nat.mod_lt _ (by decide)⟩
    ⟨r.toNat % 8, Nat.mod_lt _ (by decide)⟩

/-- The control byte of an information frame. -/
theorem toNat_controlByte {frame : HdlcFrame}
    (h : frame.cmd = HdlcCommand.commandI) :
    (controlByte frame).toNat
      = (frame.sss.toNat + 1) % 8 * 32 + 16 + frame.rrr.toNat % 8 * 2 := by
  have hcontrol : controlByte frame = 0x10#8
      ||| ((frame.sss + 1) &&& 0x07#8) <<< 5
      ||| (frame.rrr &&& 0x07#8) <<< 1 := by
    rw [controlByte, h]
    rfl
  rw [hcontrol, controlBits, BitVec.toNat_add]
  have : (1 : Byte).toNat = 1 := rfl
  omega

/-- **The numbers of an information frame**: `rrr` for its own, and the one
after `sss` for the frame expected next. -/
theorem numbers_controlByte {frame : HdlcFrame}
    (h : frame.cmd = HdlcCommand.commandI) :
    sendNumber (controlByte frame) = frame.rrr.toNat % 8
      ∧ receiveNumber (controlByte frame) = (frame.sss.toNat + 1) % 8 := by
  rw [sendNumber, receiveNumber, toNat_controlByte h]
  omega

theorem controlByte_even {frame : HdlcFrame}
    (h : frame.cmd = HdlcCommand.commandI) :
    (controlByte frame).getLsbD 0 = false := by
  rw [getLsbD_zero_eq, toNat_controlByte h, decide_eq_false_iff_not]
  omega

/-- The control byte of any other frame is its command with the final bit. -/
theorem controlByte_of_ne {frame : HdlcFrame}
    (hcmd : frame.cmd ∈ HdlcCommand.enumerators)
    (h : frame.cmd ≠ HdlcCommand.commandI) :
    (controlByte frame).getLsbD 0 = true
      ∧ controlByte frame &&& 0xEF#8 = frame.cmd := by
  have hall : ∀ cmd ∈ HdlcCommand.enumerators, cmd ≠ HdlcCommand.commandI →
      cmd &&& 0x01#8 ≠ 0x00#8 ∧ (cmd ||| 0x10#8).getLsbD 0 = true
        ∧ (cmd ||| 0x10#8) &&& 0xEF#8 = cmd := by
    decide
  obtain ⟨hodd, hlow, hrest⟩ := hall _ hcmd h
  rw [controlByte, if_pos hodd]
  exact ⟨hlow, hrest⟩

/-! ## The decoder -/

/-- **A request**, as the server takes it. -/
structure Request where
  cmd : HdlcCommand
  clientAddress : Byte
  logicalAddress : Word
  physicalAddress : Word
  /-- `N(S)` and `N(R)`, in an information frame. -/
  numbers : Option (ℕ × ℕ)
  payload : List Byte
  deriving DecidableEq, Repr

/-- The address field is that of a request: four bytes for the server and one
for the client, of which the fourth and the fifth end an address. -/
def RequestAddresses (b : List Byte) : Prop :=
  (byteAt b 3).getLsbD 0 = false ∧ (byteAt b 4).getLsbD 0 = false
    ∧ (byteAt b 5).getLsbD 0 = false ∧ (byteAt b 6).getLsbD 0 = true
    ∧ (byteAt b 7).getLsbD 0 = true

instance (b : List Byte) : Decidable (RequestAddresses b) :=
  inferInstanceAs (Decidable (_ ∧ _ ∧ _ ∧ _ ∧ _))

/-- **The decoder of a server**, on a frame whose checks it has made. -/
def decodeRequest (b : List Byte) : Option Request :=
  let control := byteAt b 8
  let information := slice b 11 (b.length - 3)
  let request (cmd : HdlcCommand) (numbers : Option (ℕ × ℕ))
      (payload : List Byte) : Request :=
    { cmd, numbers, payload
      clientAddress := byteAt b 7 >>> 1
      logicalAddress := addressHalf (byteAt b 3) (byteAt b 4)
      physicalAddress := addressHalf (byteAt b 5) (byteAt b 6) }
  if RequestAddresses b then
    if control.getLsbD 0 then
      some (request (control &&& 0xEF#8) none information)
    else if information.take 3 = [0xE6, 0xE6, 0x00] then
      some (request HdlcCommand.commandI
        (some (sendNumber control, receiveNumber control))
        (information.drop 3))
    else
      none
  else
    none

/-! ## What the writer writes is what the server reads -/

/-- **A frame whose fields fit** into their places. -/
structure Sendable (frame : HdlcFrame) : Prop where
  cmd : frame.cmd ∈ HdlcCommand.enumerators
  client : frame.clientAddress.toNat < 128
  logical : frame.logicalAddress.toNat < 2 ^ 14
  physical : frame.physicalAddress.toNat < 2 ^ 14
  rrr : frame.rrr.toNat < 8
  sss : frame.sss.toNat < 8
  payload : frame.cmd = HdlcCommand.commandI → frame.payload ≠ []

/-- **A well-formed request frame.** -/
structure WellFormed (b : List Byte) : Prop where
  opening : byteAt b 0 = 0x7E
  closing : byteAt b (b.length - 1) = 0x7E
  length_eq : lengthField b = b.length - 2
  header : leWord b 9 = fcs (slice b 1 9)
  ending : EndsChecked b

/-- What a frame asks of the server: its fields, of the two numbers what an
information frame carries. -/
def HdlcFrame.request (frame : HdlcFrame) : Request where
  cmd := frame.cmd
  clientAddress := frame.clientAddress
  logicalAddress := frame.logicalAddress
  physicalAddress := frame.physicalAddress
  numbers :=
    if frame.cmd = HdlcCommand.commandI then
      some (frame.rrr.toNat, (frame.sss.toNat + 1) % 8)
    else
      none
  payload := frame.payload

theorem byteAt_frameBytes (frame : HdlcFrame) {i : ℕ} (h : i < 9) :
    byteAt (frameBytes frame) i = byteAt (frameHeader frame) i := by
  obtain ⟨rest, hrest⟩ := header_prefix_frameBytes frame
  rw [← hrest, withChecksequence, List.append_assoc]
  exact byteAt_append_left _ h

/-- **A frame whose fields fit is written well formed**, if it fits the
length field. -/
theorem wellFormed_frameBytes {frame : HdlcFrame} (h : Sendable frame)
    (hlen : (frameBytes frame).length ≤ 4097) :
    WellFormed (frameBytes frame) := by
  have hlast : byteAt (frameBytes frame) ((frameBytes frame).length - 1)
      = 0x7E := by
    rw [frameBytes, List.length_append, List.length_singleton,
      Nat.add_sub_cancel, byteAt_append_right _ le_rfl, Nat.sub_self]
    rfl
  exact ⟨byteAt_frameBytes frame (by decide), hlast,
    (lengthField_frameBytes_iff frame).mpr ⟨h.payload, hlen⟩,
    leWord_header frame, endsChecked_frameBytes h.payload (by omega)⟩

/-- The writer marks the last byte of each address, and no other. -/
theorem requestAddresses_frameBytes (frame : HdlcFrame) :
    RequestAddresses (frameBytes frame) := by
  have hclear : ∀ {x : Byte} {n : ℕ}, x.toNat = n * 2 →
      x.getLsbD 0 = false := by
    intro x n h
    rw [getLsbD_zero_eq, decide_eq_false_iff_not]
    omega
  have hset : ∀ {x : Byte} {n : ℕ}, x.toNat = n * 2 + 1 →
      x.getLsbD 0 = true := by
    intro x n h
    rw [getLsbD_zero_eq, decide_eq_true_iff]
    omega
  rw [RequestAddresses, byteAt_frameBytes frame (by decide),
    byteAt_frameBytes frame (by decide), byteAt_frameBytes frame (by decide),
    byteAt_frameBytes frame (by decide), byteAt_frameBytes frame (by decide)]
  exact ⟨hclear (toNat_addressHigh _), hclear (toNat_addressLow _),
    hclear (toNat_addressHigh _), hset (toNat_addressLast _),
    hset (toNat_clientAddress _)⟩

/-- An address part is read back exactly if it fits. -/
theorem addressHalf_written_iff {hi lo : Byte} {x : Word}
    (hhi : hi.toNat = x.toNat / 128 % 128 * 2)
    (hlo : lo.toNat / 2 = x.toNat % 128) :
    addressHalf hi lo = x ↔ x.toNat < 2 ^ 14 := by
  rw [addressHalf_eq_iff]
  omega

/-- **The logical address is read back exactly if it fits.** -/
theorem logicalAddress_frameBytes_iff (frame : HdlcFrame) :
    addressHalf (byteAt (frameBytes frame) 3) (byteAt (frameBytes frame) 4)
        = frame.logicalAddress ↔ frame.logicalAddress.toNat < 2 ^ 14 := by
  rw [byteAt_frameBytes frame (by decide), byteAt_frameBytes frame (by decide)]
  refine addressHalf_written_iff (toNat_addressHigh _)
    ((congrArg (· / 2) (toNat_addressLow _)).trans ?_)
  omega

/-- **The physical address is read back exactly if it fits.** -/
theorem physicalAddress_frameBytes_iff (frame : HdlcFrame) :
    addressHalf (byteAt (frameBytes frame) 5) (byteAt (frameBytes frame) 6)
        = frame.physicalAddress ↔ frame.physicalAddress.toNat < 2 ^ 14 := by
  rw [byteAt_frameBytes frame (by decide), byteAt_frameBytes frame (by decide)]
  refine addressHalf_written_iff (toNat_addressHigh _)
    ((congrArg (· / 2) (toNat_addressLast _)).trans ?_)
  omega

/-- **The client address is read back exactly if it fits.** -/
theorem clientAddress_frameBytes_iff (frame : HdlcFrame) :
    byteAt (frameBytes frame) 7 >>> 1 = frame.clientAddress
      ↔ frame.clientAddress.toNat < 2 ^ 7 := by
  have hbyte : (byteAt (frameHeader frame) 7).toNat
      = frame.clientAddress.toNat % 128 * 2 + 1 := toNat_clientAddress _
  rw [byteAt_frameBytes frame (by decide), ← BitVec.toNat_inj,
    BitVec.toNat_ushiftRight, hbyte, Nat.shiftRight_eq_div_pow]
  omega

/-- **The server decodes what was put into a frame.** -/
theorem decodeRequest_frameBytes {frame : HdlcFrame} (h : Sendable frame) :
    decodeRequest (frameBytes frame) = some frame.request := by
  have hcontrol : byteAt (frameBytes frame) 8 = controlByte frame :=
    byteAt_frameBytes frame (by decide)
  have hclient := (clientAddress_frameBytes_iff frame).mpr h.client
  have hlogical := (logicalAddress_frameBytes_iff frame).mpr h.logical
  have hphysical := (physicalAddress_frameBytes_iff frame).mpr h.physical
  rw [decodeRequest, if_pos (requestAddresses_frameBytes frame), hcontrol,
    hlogical, hphysical, hclient,
    slice_information h.payload]
  by_cases hcmd : frame.cmd = HdlcCommand.commandI
  · obtain ⟨hsend, hreceive⟩ := numbers_controlByte hcmd
    rw [Nat.mod_eq_of_lt h.rrr] at hsend
    rw [llcHeader, if_pos hcmd, controlByte_even hcmd, hsend, hreceive,
      HdlcFrame.request, if_pos hcmd, hcmd]
    rfl
  · obtain ⟨hlow, hcommand⟩ := controlByte_of_ne h.cmd hcmd
    rw [llcHeader, if_neg hcmd, hlow, hcommand, HdlcFrame.request,
      if_neg hcmd]
    rfl

/-- **Encoding is well formed and loses nothing.** A frame whose fields fit
is written, and if what is written fits the length field, it is a well-formed
request frame that the server decodes to what was put into it, and no other
such frame with anything else in it is written the same. -/
theorem hdlcFrameSerialize_lossless {frame : HdlcFrame} (h : Sendable frame) :
    ∃ b, hdlcFrameSerialize frame = ok b ∧ (b.length ≤ 4097 →
      WellFormed b ∧ decodeRequest b = some frame.request
        ∧ ∀ frame', Sendable frame' → hdlcFrameSerialize frame' = ok b →
          frame'.request = frame.request) := by
  refine ⟨frameBytes frame, hdlcFrameSerialize_eq frame, fun hlen =>
    ⟨wellFormed_frameBytes h hlen, decodeRequest_frameBytes h,
      fun frame' h' hsame => ?_⟩⟩
  rw [hdlcFrameSerialize_eq, Run.ok.injEq] at hsame
  have hdecode := decodeRequest_frameBytes h'
  rw [hsame, decodeRequest_frameBytes h] at hdecode
  exact (Option.some.inj hdecode).symm

/-- A request whose two sequence numbers are at their limits. -/
def getRequestFrame : HdlcFrame where
  cmd := HdlcCommand.commandI
  clientAddress := 0x7F
  rrr := 7
  sss := 7
  physicalAddress := 0x3FFF
  logicalAddress := 1
  payload := [0xC0, 0x01, 0xC1, 0x00]

/-- It is written within the limit, and read back. -/
theorem hdlcFrameSerialize_lossless_getRequest :
    ∃ b, hdlcFrameSerialize getRequestFrame = ok b ∧ WellFormed b
      ∧ decodeRequest b = some getRequestFrame.request := by
  obtain ⟨b, hb, hlossless⟩ := hdlcFrameSerialize_lossless
    (show Sendable getRequestFrame from ⟨by decide, by decide, by decide,
      by decide, by decide, by decide, fun _ => by decide⟩)
  have hlen : b.length ≤ 4097 := by
    rw [hdlcFrameSerialize_eq, Run.ok.injEq] at hb
    rw [← hb]
    decide +kernel
  exact ⟨b, hb, (hlossless hlen).1, (hlossless hlen).2.1⟩

end Dlms.Hdlc
