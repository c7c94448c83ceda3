import Yadi.FrameGrammar

/-!
# What the frame parser returns

`hdlcFrameParse` indexes the buffer with no check of its own. Everything it
reads is inside the buffer because of what `validFrame` established: the
server address ends within four bytes, the frame has twelve bytes when the
address has four, and an information field brings at least three more bytes
with it.

`parsed b c` is the frame a buffer accepted with its control byte at `c`
holds, and `hdlcFrameParse_eq` says the parser returns it, unless the frame
is an information frame without the LLC header of a response, which it
refuses. `hdlcFrameParse_cases` adds that it refuses everything else: on any
buffer it returns or throws `invalid_hdlc_frame`.
-/

namespace Dlms.Hdlc

open Run

/-- The first `n` bytes of the server address, shifted together. -/
def addressWord (b : List Byte) : ℕ → BitVec 32
  | 0 => 0
  | n + 1 => (addressWord b n <<< 8) ||| (byteAt b (4 + n)).setWidth 32

/-- The LLC header of a response stands at `i`. -/
def LlcHeader (b : List Byte) (i : ℕ) : Prop :=
  byteAt b i = 0xE6 ∧ byteAt b (i + 1) = 0xE7 ∧ byteAt b (i + 2) = 0x00

instance (b : List Byte) (i : ℕ) : Decidable (LlcHeader b i) :=
  inferInstanceAs (Decidable (_ ∧ _ ∧ _))

/-- The control byte at `c` is that of an information frame. -/
def IsInformation (b : List Byte) (c : ℕ) : Prop :=
  (byteAt b c).getLsbD 0 = false

instance (b : List Byte) (c : ℕ) : Decidable (IsInformation b c) :=
  inferInstanceAs (Decidable (_ = _))

/-- **The frame a buffer holds**, with its control byte at `c`. -/
def parsed (b : List Byte) (c : ℕ) : HdlcFrame :=
  let addresses := serverAddresses (addressWord b (c - 4)) c
  let fields := controlFields (byteAt b c &&& 0xEF#8)
  { cmd := fields.1
    clientAddress := byteAt b 3 >>> 1
    rrr := fields.2.1
    sss := fields.2.2
    physicalAddress := addresses.2
    logicalAddress := addresses.1
    payload :=
      slice b (if IsInformation b c then c + 6 else c + 3) (b.length - 3) }

/-! ## The server address -/

/-- The low bit of the address word is the low bit of its last byte. -/
theorem getLsbD_addressWord (b : List Byte) (n : ℕ) :
    (addressWord b (n + 1)).getLsbD 0 = (byteAt b (4 + n)).getLsbD 0 := by
  rw [addressWord, BitVec.getLsbD_or, BitVec.getLsbD_shiftLeft,
    BitVec.getLsbD_setWidth]
  simp

theorem and_one_eq_iff32 (x : BitVec 32) :
    x &&& 0x01 = 0x01 ↔ x.getLsbD 0 = true := by
  constructor
  · intro h
    have := congrArg (fun y => y.getLsbD 0) h
    simpa using this
  · intro h
    refine BitVec.eq_of_getLsbD_eq (fun i hi => ?_)
    rw [BitVec.getLsbD_and]
    cases i with
    | zero => simp [h]
    | succ i => simp [BitVec.getLsbD_one]

/-- Before the control byte the loop goes on, at the control byte it stops:
the low bit of the address tells which. -/
theorem addressWord_more_iff {b : List Byte} {c : ℕ} (h : ServerAddress b c)
    {offset : ℕ} (hlo : 4 ≤ offset) (hhi : offset ≤ c) :
    addressWord b (offset - 4) &&& 0x01 ≠ 0x01 ↔ offset < c := by
  have hw := h.width
  rw [ne_eq, and_one_eq_iff32, Bool.not_eq_true]
  rcases Nat.eq_or_lt_of_le hlo with rfl | hlt
  · simp only [Nat.sub_self, addressWord]
    exact ⟨fun _ => by omega, fun _ => rfl⟩
  · rw [show offset - 4 = offset - 5 + 1 by omega, getLsbD_addressWord,
      show 4 + (offset - 5) = offset - 1 by omega]
    constructor
    · intro hclear
      by_contra hge
      rw [show offset = c by omega, h.last] at hclear
      exact Bool.noConfusion hclear
    · exact fun hlt' => h.more _ (by omega) (by omega)

/-- **The loop of `hdlc_frame_parse` gathers the server address and stops at
the control byte.** -/
theorem address_loop {b : List Byte} {c : ℕ} (h : ServerAddress b c)
    (hlen : c ≤ b.length) (hshort : b.length < 4098) :
    loop (addressRound b) b.length (0, 4) = ok (addressWord b (c - 4), c) := by
  have hw := h.width
  -- at every offset, the address is the word of the bytes before it
  have hround : ∀ s : BitVec 32 × ℕ,
      (4 ≤ s.2 ∧ s.2 ≤ c ∧ s.1 = addressWord b (s.2 - 4)) →
      ∃ t, addressRound b s = ok t ∧ RoundKeeps
        (fun s => 4 ≤ s.2 ∧ s.2 ≤ c ∧ s.1 = addressWord b (s.2 - 4))
        (fun s => s = (addressWord b (c - 4), c)) (fun s => c - s.2) s t := by
    rintro ⟨address, offset⟩ ⟨hlo, hhi, haddr⟩
    obtain rfl : address = addressWord b (offset - 4) := haddr
    have hmore := addressWord_more_iff h hlo hhi
    rw [addressRound]
    by_cases hc : offset < c
    · simp only at hlo hhi
      rw [if_pos (hmore.mpr hc), readAt_byte (by omega), ok_bind, toU16,
        toUnsigned_of_lt (by omega)]
      refine ⟨_, rfl, ⟨Nat.le_succ_of_le hlo, hc, ?_⟩,
        Nat.sub_lt_sub_left hc (Nat.lt_succ_self offset)⟩
      simp only
      rw [show offset + 1 - 4 = offset - 4 + 1 by omega, addressWord,
        show 4 + (offset - 4) = offset by omega]
    · rw [if_neg (fun hne => hc (hmore.mp hne))]
      obtain rfl : offset = c := le_antisymm hhi (not_lt.mp hc)
      exact ⟨_, rfl, rfl⟩
  obtain ⟨s, hs, heq⟩ := loop_returns _ _ _ hround b.length (0, 4)
    ⟨le_refl _, by omega, rfl⟩ (by simp only; omega)
  rw [hs, heq]

/-! ## The whole parser -/

/-- Where the byte is inside the buffer, the test of one byte of the LLC
header passes to the next offset or throws. -/
theorem expectByte_eq {b : List Byte} {expected : Byte} {offset : ℕ}
    (h : offset < b.length) (hshort : b.length < 4098) :
    expectByte b expected offset
      = if byteAt b offset = expected then ok (offset + 1)
        else throws .invalidHdlcFrame := by
  rw [expectByte, readAt_byte h, ok_bind, toU16, toUnsigned_of_lt (by omega),
    ok_bind, ite_not]
  rfl

theorem Envelope.length_lt {b : List Byte} {c : ℕ} (h : Envelope b c) :
    b.length < 4098 := by
  have := lengthField_lt b
  have := h.length_eq
  omega

/-- The parser takes a control byte for that of an information frame when
its low bit is clear. -/
theorem cmd_controlFields_eq_zero_iff (x : Byte) :
    (controlFields (x &&& 0xEF#8)).1 = HdlcCommand.responseI
      ↔ x.getLsbD 0 = false := by
  revert x
  decide +kernel

/-- In a frame without an information field the closing flag, which is not
`E6`, stands where the LLC header would. -/
theorem Envelope.information_of_llc {b : List Byte} {c : ℕ}
    (h : Envelope b c) (h6 : byteAt b (c + 3) = 0xE6) : c + 7 ≤ b.length := by
  refine h.body.resolve_left (fun hbody => ?_)
  have hflag := h.closing
  rw [hbody, show c + 4 - 1 = c + 3 by omega, h6] at hflag
  exact absurd hflag (by decide)

/-- **The test of the LLC header reads inside the buffer**: behind its first
byte there is an information field. -/
theorem skipLlcHeader_eq {b : List Byte} {c : ℕ} (h : Accepted b c) :
    skipLlcHeader b (controlFields (byteAt b c &&& 0xEF#8)).1 (c + 3)
      = if IsInformation b c then
          if LlcHeader b (c + 3) then ok (c + 6)
          else throws .invalidHdlcFrame
        else ok (c + 3) := by
  have hlen := h.length_le
  have hshort := h.toEnvelope.length_lt
  unfold skipLlcHeader
  refine if_congr (cmd_controlFields_eq_zero_iff _) ?_ rfl
  rw [expectByte_eq (by omega) hshort]
  -- the first byte may be the closing flag; the others are read only if it
  -- is not
  by_cases h6 : byteAt b (c + 3) = 0xE6
  · have hinfo := h.information_of_llc h6
    rw [if_pos h6, ok_bind, expectByte_eq (by omega) hshort]
    by_cases h7 : byteAt b (c + 4) = 0xE7
    · rw [if_pos h7, ok_bind, expectByte_eq (by omega) hshort]
      exact if_congr (by simp [LlcHeader, h6, h7]) rfl rfl
    · rw [if_neg h7, throws_bind, if_neg (fun hllc => h7 hllc.2.1)]
  · rw [if_neg h6, throws_bind, if_neg (fun hllc => h6 hllc.1)]

/-- **The copied range lies inside the buffer.** -/
theorem copyPayload_eq {b : List Byte} {offset : ℕ} (h : offset ≤ b.length)
    (h3 : 3 ≤ b.length) :
    copyPayload b offset = ok (slice b offset (b.length - 3)) := by
  rw [copyPayload, position_of_le h, ok_bind, minus_of_le h3, ok_bind,
    position_of_le (Nat.sub_le _ _), ok_bind]
  by_cases hlt : offset < b.length - 3
  · rw [if_pos hlt, copyRange_of_le hlt.le (Nat.sub_le _ _), slice]
  · rw [if_neg hlt, slice, Nat.sub_eq_zero_of_le (not_lt.mp hlt),
      List.take_zero]
    rfl

/-- **The parser returns the frame an accepted buffer holds**, unless it is
an information frame without its LLC header. -/
theorem hdlcFrameParse_eq {b : List Byte} {c : ℕ} (h : Accepted b c) :
    hdlcFrameParse b
      = if IsInformation b c → LlcHeader b (c + 3) then ok (parsed b c)
        else throws .invalidHdlcFrame := by
  have hw := h.server.width
  have hlen := h.length_le
  have hshort := h.toEnvelope.length_lt
  rw [hdlcFrameParse, (validFrame_eq_true_iff b).mpr ⟨c, h⟩, ok_bind]
  simp only [Bool.not_true, Bool.false_eq_true, if_false]
  rw [readAt_byte (by omega), ok_bind, toU16, toUnsigned_of_lt (by omega),
    ok_bind, address_loop h.server (by omega) hshort, ok_bind]
  simp only
  rw [readAt_byte (by omega), ok_bind, toU16, toUnsigned_of_lt (by omega),
    ok_bind, toU16, toUnsigned_of_lt (by omega), ok_bind,
    skipLlcHeader_eq h]
  by_cases hinfo : IsInformation b c
  · by_cases hllc : LlcHeader b (c + 3)
    · have := h.information_of_llc hllc.1
      rw [if_pos hinfo, if_pos hllc, if_pos (fun _ => hllc), ok_bind,
        copyPayload_eq (by omega) (by omega), ok_bind, parsed, if_pos hinfo]
      rfl
    · rw [if_pos hinfo, if_neg hllc, if_neg (fun himp => hllc (himp hinfo)),
        throws_bind]
  · rw [if_neg hinfo, if_pos (fun hi => absurd hi hinfo), ok_bind,
      copyPayload_eq (by omega) (by omega), ok_bind, parsed, if_neg hinfo]
    rfl

/-- A buffer `validFrame` does not accept is refused. -/
theorem hdlcFrameParse_of_not_accepted {b : List Byte}
    (h : ¬ ∃ c, Accepted b c) :
    hdlcFrameParse b = throws .invalidHdlcFrame := by
  obtain ⟨r, hr, hiff⟩ := validFrame_decides b
  have hfalse : r = false := by
    rw [← Bool.not_eq_true]
    exact fun htrue => h (hiff.mp htrue)
  rw [hdlcFrameParse, hr, hfalse, ok_bind]
  rfl

/-- **What the parser accepts, and as what.** -/
theorem hdlcFrameParse_eq_ok_iff {b : List Byte} {frame : HdlcFrame} :
    hdlcFrameParse b = ok frame
      ↔ ∃ c, Accepted b c ∧ (IsInformation b c → LlcHeader b (c + 3))
          ∧ frame = parsed b c := by
  constructor
  · intro h
    by_cases hacc : ∃ c, Accepted b c
    · obtain ⟨c, hc⟩ := hacc
      rw [hdlcFrameParse_eq hc] at h
      split_ifs at h with hllc
      exact ⟨c, hc, hllc, (Run.ok.inj h).symm⟩
    · rw [hdlcFrameParse_of_not_accepted hacc] at h
      exact absurd h nofun
  · rintro ⟨c, hc, hllc, rfl⟩
    rw [hdlcFrameParse_eq hc, if_pos hllc]

/-- The same for a frame whose control byte is known to be at `c`. -/
theorem parsed_of_serverAddress {b : List Byte} {frame : HdlcFrame} {c : ℕ}
    (h : hdlcFrameParse b = ok frame) (hc : ServerAddress b c) :
    Accepted b c ∧ (IsInformation b c → LlcHeader b (c + 3))
      ∧ frame = parsed b c := by
  obtain ⟨c', hacc, hllc, hframe⟩ := hdlcFrameParse_eq_ok_iff.mp h
  obtain rfl := hc.unique hacc.server
  exact ⟨hacc, hllc, hframe⟩

/-- **On any buffer the parser returns or throws `invalid_hdlc_frame`.** -/
theorem hdlcFrameParse_cases (b : List Byte) :
    (∃ frame, hdlcFrameParse b = ok frame)
      ∨ hdlcFrameParse b = throws .invalidHdlcFrame := by
  by_cases hacc : ∃ c, Accepted b c
  · obtain ⟨c, hc⟩ := hacc
    rw [hdlcFrameParse_eq hc]
    split_ifs
    · exact .inl ⟨_, rfl⟩
    · exact .inr rfl
  · exact .inr (hdlcFrameParse_of_not_accepted hacc)

/-- A UA frame without an information field. -/
def uaFrame : List Byte :=
  [0x7E, 0xA0, 0x0A, 0x03, 0x00, 0x02, 0xFE, 0xFF, 0x73, 0xCE, 0x00, 0x7E]

example : hdlcFrameParse uaFrame = ok
    { cmd := HdlcCommand.responseUa, clientAddress := 1, rrr := 0, sss := 0,
      physicalAddress := 0x3FFF, logicalAddress := 1, payload := [] } := by
  decide +kernel

/-- An information frame with one byte of payload: its own number is 0, and
it expects number 1. -/
def replyFrame : List Byte :=
  [0x7E, 0xA0, 0x10, 0x03, 0x00, 0x02, 0xFE, 0xFF, 0x30, 0xCF, 0x2C, 0xE6,
    0xE7, 0x00, 0xC4, 0x13, 0x0D, 0x7E]

end Dlms.Hdlc
