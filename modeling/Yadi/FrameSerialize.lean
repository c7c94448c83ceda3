import Yadi.FrameParse

/-!
# What the frame writer writes

`hdlcFrameSerialize` returns `frameBytes` of its frame
(`hdlcFrameSerialize_eq`): the header with its check sequence, the LLC header
of an information frame, the payload with its check sequence, and the closing
flag. It adds up the length beforehand, counting the LLC header with the
payload but writing it with the command, so the length field is right exactly
when an information frame has a payload and the frame fits the field
(`lengthField_frameBytes_iff`).

The second half reads such a frame from the other side. `decodeRequest` is a
decoder for requests, of the kind a server needs and this library does not
have, and it recovers from the bytes everything that was put into them
(`hdlcFrameSerialize_lossless`).
-/

namespace Dlms.Hdlc

open Run

/-! ## The bytes of a frame -/

/-- A word as two bytes, low byte first. -/
def wordBytes (w : Word) : List Byte := [w.setWidth 8, (w >>> 8).setWidth 8]

/-- A buffer with the check sequence `hdlc_frame_serialize` appends to it:
that of its bytes from 1 on, as many of them as a 16-bit size counts. -/
def withChecksequence (buffer : List Byte) : List Byte :=
  buffer ++ wordBytes
    (fcs (slice buffer 1 (1 + (buffer.length - 1) % 2 ^ 16)))

/-- The bytes up to the control byte. -/
def frameHeader (frame : HdlcFrame) : List Byte :=
  [0x7E,
    0xA0 ||| ((frameSize frame >>> 8) &&& 0x0F#16).setWidth 8,
    (frameSize frame).setWidth 8,
    ((frame.logicalAddress >>> 6) &&& 0xFE#16).setWidth 8,
    ((frame.logicalAddress <<< 1) &&& 0xFE#16).setWidth 8,
    ((frame.physicalAddress >>> 6) &&& 0xFE#16).setWidth 8,
    ((frame.physicalAddress <<< 1) &&& 0xFE#16).setWidth 8 ||| 0x01,
    (frame.clientAddress <<< 1) ||| 0x01,
    controlByte frame]

/-- The LLC header of a request, in an information frame. -/
def llcHeader (frame : HdlcFrame) : List Byte :=
  if frame.cmd = HdlcCommand.commandI then [0xE6, 0xE6, 0x00] else []

/-- The bytes up to the payload, and the payload. -/
def frameBody (frame : HdlcFrame) : List Byte :=
  withChecksequence (frameHeader frame) ++ llcHeader frame ++ frame.payload

/-- **The bytes of a frame.** -/
def frameBytes (frame : HdlcFrame) : List Byte :=
  (if frame.payload.length > 0 then withChecksequence (frameBody frame)
    else frameBody frame) ++ [0x7E]

theorem length_frameHeader (frame : HdlcFrame) :
    (frameHeader frame).length = 9 := rfl

theorem pushChecksequence_eq {buffer : List Byte} (h : 0 < buffer.length) :
    pushChecksequence buffer = ok (withChecksequence buffer) := by
  have hmod := Nat.mod_le (buffer.length - 1) (2 ^ 16)
  rw [pushChecksequence, checksequenceCalc_eq (by omega)]
  rfl

/-- **The writer returns the bytes of the frame.** -/
theorem hdlcFrameSerialize_eq (frame : HdlcFrame) :
    hdlcFrameSerialize frame = ok (frameBytes frame) := by
  have hbody : 0 < (frameBody frame).length := by
    simp [frameBody, withChecksequence, frameHeader]
  have hllc : (if frame.cmd = HdlcCommand.commandI then
        withChecksequence (frameHeader frame) ++ [0xE6, 0xE6, 0x00]
      else withChecksequence (frameHeader frame)) ++ frame.payload
      = frameBody frame := by
    rw [frameBody, llcHeader]
    split_ifs
    · rfl
    · rw [List.append_nil]
  rw [hdlcFrameSerialize, frameBytes]
  change (pushChecksequence (frameHeader frame) >>= _) = _
  rw [pushChecksequence_eq (length_frameHeader frame ▸ Nat.succ_pos 8),
    ok_bind]
  simp only [hllc]
  split_ifs
  · rw [pushChecksequence_eq hbody, ok_bind]
    rfl
  · rw [pure_eq, ok_bind]
    rfl

/-! ## The length field -/

@[simp] theorem length_wordBytes (w : Word) : (wordBytes w).length = 2 := rfl

@[simp] theorem length_withChecksequence (buffer : List Byte) :
    (withChecksequence buffer).length = buffer.length + 2 := by
  rw [withChecksequence, List.length_append, length_wordBytes]

theorem length_llcHeader (frame : HdlcFrame) :
    (llcHeader frame).length
      = if frame.cmd = HdlcCommand.commandI then 3 else 0 := by
  unfold llcHeader
  split_ifs <;> rfl

theorem length_frameBody (frame : HdlcFrame) :
    (frameBody frame).length
      = 11 + (llcHeader frame).length + frame.payload.length := by
  rw [frameBody, List.length_append, List.length_append,
    length_withChecksequence]
  rfl

theorem length_frameBytes (frame : HdlcFrame) :
    (frameBytes frame).length = (frameBody frame).length
      + (if frame.payload.length > 0 then 3 else 1) := by
  rw [frameBytes, List.length_append, List.length_singleton]
  split_ifs
  · rw [length_withChecksequence]
  · rfl

/-- A frame without LLC header and payload. -/
theorem length_frameBytes_of_nil {frame : HdlcFrame}
    (h : frame.cmd = HdlcCommand.commandI → frame.payload ≠ [])
    (hpayload : frame.payload = []) : (frameBytes frame).length = 12 := by
  have hcmd : frame.cmd ≠ HdlcCommand.commandI := fun hcmd => h hcmd hpayload
  rw [length_frameBytes, length_frameBody, length_llcHeader, hpayload,
    if_neg hcmd]
  rfl

/-- What the writer counts. -/
theorem toNat_frameSize (frame : HdlcFrame) :
    (frameSize frame).toNat
      = (if frame.payload.length > 0 then
          12 + frame.payload.length + (llcHeader frame).length
        else 10) % 2 ^ 16 := by
  rw [frameSize, length_llcHeader]
  split_ifs <;> simp [BitVec.toNat_add] <;> omega

/-- The format field holds the upper four bits of the length. -/
theorem toNat_format (size : Word) :
    (0xA0#8 ||| ((size >>> 8) &&& 0x0F#16).setWidth 8).toNat
      = 0xA0 + size.toNat / 256 % 16 := by
  have hlow : ∀ x : Byte, (0xA0#8 ||| (x &&& 0x0F#8)).toNat
      = 0xA0 + x.toNat % 16 := by
    decide +kernel
  rw [BitVec.setWidth_and, show (0x0F#16).setWidth 8 = 0x0F#8 by rfl, hlow,
    BitVec.toNat_setWidth, BitVec.toNat_ushiftRight, Nat.shiftRight_eq_div_pow]
  omega

/-- The length field holds what the writer counts, in 12 bits. -/
theorem lengthField_frameBytes (frame : HdlcFrame) :
    lengthField (frameBytes frame) = (frameSize frame).toNat % 4096 := by
  have hformat := toNat_format (frameSize frame)
  have hlow : ((frameSize frame).setWidth 8).toNat
      = (frameSize frame).toNat % 256 := BitVec.toNat_setWidth _ _
  have hbytes : byteAt (frameBytes frame) 1
        = 0xA0#8 ||| ((frameSize frame >>> 8) &&& 0x0F#16).setWidth 8
      ∧ byteAt (frameBytes frame) 2 = (frameSize frame).setWidth 8 := by
    unfold frameBytes
    split_ifs <;> exact ⟨rfl, rfl⟩
  rw [lengthField, hbytes.1, hbytes.2, hformat, hlow]
  omega

/-- **The length field is right exactly when an information frame has a
payload and the frame is no longer than the field can say.** -/
theorem lengthField_frameBytes_iff (frame : HdlcFrame) :
    lengthField (frameBytes frame) = (frameBytes frame).length - 2
      ↔ (frame.cmd = HdlcCommand.commandI → frame.payload ≠ [])
        ∧ (frameBytes frame).length ≤ 4097 := by
  rw [lengthField_frameBytes, toNat_frameSize, length_frameBytes,
    length_frameBody, length_llcHeader, ← List.length_pos_iff]
  split_ifs with hpos hcmd hcmd
  · simp only [hpos, implies_true, true_and]
    omega
  · simp only [hpos, implies_true, true_and]
    omega
  · simp only [hcmd, hpos, true_imp_iff, false_and, iff_false]
    omega
  · simp only [hcmd, false_imp_iff, true_and]
    omega

/-! ## The check sequences -/

/-- **The check sequence behind a buffer checks it**, if the buffer is short
enough for its size. -/
theorem leWord_withChecksequence {buffer : List Byte} (rest : List Byte)
    (hpos : 0 < buffer.length) (hlen : buffer.length ≤ 2 ^ 16) :
    leWord (withChecksequence buffer ++ rest) buffer.length
      = fcs (slice (withChecksequence buffer ++ rest) 1 buffer.length) := by
  -- the size is not narrowed
  have hsize : 1 + (buffer.length - 1) % 2 ^ 16 = buffer.length := by
    rw [Nat.mod_eq_of_lt (by omega)]
    omega
  have hword : ∀ w, leWord (buffer ++ (wordBytes w ++ rest)) buffer.length
      = w := by
    intro w
    rw [leWord, byteAt_append_right _ (Nat.le_add_right _ 1),
      byteAt_append_right _ le_rfl, Nat.sub_self, Nat.add_sub_cancel_left]
    exact append_setWidth w
  rw [withChecksequence, hsize, List.append_assoc, hword,
    slice_append_left _ _ le_rfl]

/-- A frame starts with its header and the check sequence of the header. -/
theorem header_prefix_frameBytes (frame : HdlcFrame) :
    withChecksequence (frameHeader frame) <+: frameBytes frame := by
  have hbody : withChecksequence (frameHeader frame) <+: frameBody frame :=
    (List.prefix_append _ _).trans (List.prefix_append _ _)
  unfold frameBytes
  split_ifs
  · exact (hbody.trans (List.prefix_append _ _)).trans (List.prefix_append _ _)
  · exact hbody.trans (List.prefix_append _ _)

/-- The header check sequence. -/
theorem leWord_header (frame : HdlcFrame) :
    leWord (frameBytes frame) 9 = fcs (slice (frameBytes frame) 1 9) := by
  obtain ⟨rest, hrest⟩ := header_prefix_frameBytes frame
  rw [← hrest]
  exact leWord_withChecksequence rest (Nat.succ_pos 8)
    (Nat.le_of_lt (by decide : 9 < 2 ^ 16))

/-- **The last two bytes before the closing flag check the others.** -/
def EndsChecked (b : List Byte) : Prop :=
  leWord b (b.length - 3) = fcs (slice b 1 (b.length - 3))

/-- A frame with a payload ends with the check sequence of all the rest, if
it is short enough for its size. -/
theorem endsChecked_of_payload {frame : HdlcFrame} (h : frame.payload ≠ [])
    (hlen : (frameBytes frame).length ≤ 2 ^ 16) :
    EndsChecked (frameBytes frame) := by
  have hpos := List.length_pos_iff.mpr h
  rw [length_frameBytes, if_pos hpos] at hlen
  have hbody := length_frameBody frame
  rw [EndsChecked, length_frameBytes, if_pos hpos, Nat.add_sub_cancel,
    frameBytes, if_pos hpos]
  exact leWord_withChecksequence _ (by omega) (by omega)

/-- **A frame ends with the check sequence of all the rest**, unless it is an
information frame without a payload: a frame without a payload ends with its
header. -/
theorem endsChecked_frameBytes {frame : HdlcFrame}
    (h : frame.cmd = HdlcCommand.commandI → frame.payload ≠ [])
    (hlen : (frameBytes frame).length ≤ 2 ^ 16) :
    EndsChecked (frameBytes frame) := by
  by_cases hpayload : frame.payload = []
  · rw [EndsChecked, length_frameBytes_of_nil h hpayload]
    exact leWord_header frame
  · exact endsChecked_of_payload hpayload hlen

/-- Between the two check sequences stand the LLC header and the payload. -/
theorem slice_information {frame : HdlcFrame}
    (h : frame.cmd = HdlcCommand.commandI → frame.payload ≠ []) :
    slice (frameBytes frame) 11 ((frameBytes frame).length - 3)
      = llcHeader frame ++ frame.payload := by
  by_cases hpayload : frame.payload = []
  · have hcmd : frame.cmd ≠ HdlcCommand.commandI :=
      fun hcmd => h hcmd hpayload
    rw [length_frameBytes, length_frameBody, llcHeader, if_neg hcmd, hpayload]
    exact List.take_zero
  · have hpos := List.length_pos_iff.mpr hpayload
    obtain ⟨tail, htail⟩ : ∃ tail, frameBytes frame = frameBody frame ++ tail :=
      ⟨_, by rw [frameBytes, if_pos hpos, withChecksequence,
        List.append_assoc]⟩
    have hmiddle := slice_append_middle
      (withChecksequence (frameHeader frame)) (llcHeader frame ++ frame.payload)
      tail
    rw [length_withChecksequence, length_frameHeader, List.length_append,
      ← Nat.add_assoc, ← List.append_assoc] at hmiddle
    rw [length_frameBytes, if_pos hpos, Nat.add_sub_cancel, length_frameBody,
      htail]
    exact hmiddle

end Dlms.Hdlc
