import Yadi.ErrorDetection
import Yadi.FrameFields

/-!
# Replies that keep to the grammar

The library reads replies and writes none, so what a reply looks like is
stated by the grammar of response frames: `IsReply b cmd payload` says that
the buffer `b` is a response frame with its header check sequence in place,
and that its command and its payload are these, an LLC header taken off an
information frame.

The parser reads such a reply as it is meant, or refuses it: it reads it
exactly if the control byte differs from the second byte of the header check
sequence, the byte it is mistaken for (`hdlcFrameParse_isReply_iff`). One
header in 256 is refused like that, whatever comes behind it. And a reply
that was disturbed on the line is always refused, also if it would have been
refused undisturbed (`hdlcFrameParse_disturbed`).
-/

namespace Dlms.Hdlc

open Run CrcRegister

/-! ## Replies -/

/-- The command in a control byte: information frames have none. -/
def controlCommand (x : Byte) : HdlcCommand :=
  if x.getLsbD 0 then x &&& 0xEF#8 else HdlcCommand.responseI

/-- The LLC header in front of the payload, in an information frame. -/
def responseLlcHeader (b : List Byte) (c : ℕ) : List Byte :=
  if IsInformation b c then [0xE6, 0xE7, 0x00] else []

/-- **A reply with a command and a payload**, its control byte at `c`. -/
structure ReplyAt (b : List Byte) (cmd : HdlcCommand) (payload : List Byte)
    (c : ℕ) : Prop where
  envelope : Envelope b c
  header : b.length = c + 4 ∨ HeaderCheck b c
  cmd_eq : controlCommand (byteAt b c) = cmd
  payload_eq : informationField b c = responseLlcHeader b c ++ payload

instance (b : List Byte) (c : ℕ) : Decidable (HeaderCheck b c) :=
  inferInstanceAs (Decidable (_ = _))

instance (b : List Byte) (c : ℕ) : Decidable (Envelope b c) :=
  decidable_of_iff (byteAt b 0 = 0x7E ∧ byteAt b (b.length - 1) = 0x7E
      ∧ byteAt b 1 >>> 4 = 0xA ∧ lengthField b = b.length - 2
      ∧ leWord b (b.length - 3) = fcs (slice b 1 (b.length - 3))
      ∧ (byteAt b 3).getLsbD 0 = true ∧ ServerAddress b c
      ∧ (byteAt b c).getLsbD 4 = true
      ∧ (b.length = c + 4 ∨ c + 7 ≤ b.length))
    ⟨fun ⟨h₀, h₁, h₂, h₃, h₄, h₅, h₆, h₇, h₈⟩ =>
        ⟨h₀, h₁, h₂, h₃, h₄, h₅, h₆, h₇, h₈⟩,
      fun h => ⟨h.opening, h.closing, h.format, h.length_eq, h.check,
        h.client, h.server, h.final, h.body⟩⟩

instance (b : List Byte) (cmd : HdlcCommand) (payload : List Byte) (c : ℕ) :
    Decidable (ReplyAt b cmd payload c) :=
  decidable_of_iff (Envelope b c ∧ (b.length = c + 4 ∨ HeaderCheck b c)
      ∧ controlCommand (byteAt b c) = cmd
      ∧ informationField b c = responseLlcHeader b c ++ payload)
    ⟨fun ⟨h₀, h₁, h₂, h₃⟩ => ⟨h₀, h₁, h₂, h₃⟩,
      fun h => ⟨h.envelope, h.header, h.cmd_eq, h.payload_eq⟩⟩

/-- **A reply with a command and a payload.** -/
def IsReply (b : List Byte) (cmd : HdlcCommand) (payload : List Byte) :
    Prop :=
  ∃ c, ReplyAt b cmd payload c

/-- **A reply that is read**: it has no information field, or its control
byte is not the second byte of its header check sequence. -/
def ReadsThrough (b : List Byte) : Prop :=
  ∀ c, ServerAddress b c →
    b.length = c + 4 ∨ byteAt b c ≠ byteAt b (c + 2)

theorem cmd_controlFields (x : Byte) :
    (controlFields (x &&& 0xEF#8)).1 = controlCommand x := by
  revert x
  decide +kernel

/-- Where the header check sequence is in place, the word read instead is the
check sequence of the header just if the control byte is its second byte. -/
theorem headerWordRead_eq_iff {b : List Byte} {c : ℕ} (h : HeaderCheck b c) :
    headerWordRead b c = fcs (slice b 1 (c + 1))
      ↔ byteAt b c = byteAt b (c + 2) := by
  unfold HeaderCheck leWord at h
  rw [← h, headerWordRead, BitVec.append_left_inj]

namespace ReplyAt

variable {b : List Byte} {cmd : HdlcCommand} {payload : List Byte} {c : ℕ}

/-- **The parser accepts a reply exactly if it reads through.** -/
theorem accepted_iff (h : ReplyAt b cmd payload c) :
    Accepted b c ↔ ReadsThrough b := by
  constructor
  · intro hacc c' hc'
    obtain rfl := h.envelope.server.unique hc'
    rcases hacc.header with hlen | hne
    · exact .inl hlen
    · exact h.header.imp_right fun hcheck heq =>
        hne ((headerWordRead_eq_iff hcheck).mpr heq)
  · intro hread
    refine ⟨h.envelope, ?_⟩
    rcases h.header with hlen | hcheck
    · exact .inl hlen
    · refine (hread c h.envelope.server).imp_right fun hne heq => ?_
      exact hne ((headerWordRead_eq_iff hcheck).mp heq)

/-- An information reply has room for its LLC header. -/
theorem length_of_information (h : ReplyAt b cmd payload c)
    (hinfo : IsInformation b c) : c + 9 ≤ b.length := by
  have hlength := congrArg List.length h.payload_eq
  rw [responseLlcHeader, if_pos hinfo, informationField, length_slice,
    List.length_append] at hlength
  simp only [List.length_cons, List.length_nil] at hlength
  omega

theorem llcHeader (h : ReplyAt b cmd payload c) (hinfo : IsInformation b c) :
    LlcHeader b (c + 3) := by
  have hlen := h.length_of_information hinfo
  have hfield := h.payload_eq
  rw [responseLlcHeader, if_pos hinfo, informationField,
    slice_succ (by omega) (by omega), slice_succ (by omega) (by omega),
    slice_succ (by omega) (by omega)] at hfield
  simp only [List.cons_append, List.cons.injEq] at hfield
  exact ⟨hfield.1, hfield.2.1, hfield.2.2.1⟩

/-- **An accepted reply is taken apart as it is meant.** -/
theorem parsed_eq (h : ReplyAt b cmd payload c) :
    (parsed b c).cmd = cmd ∧ (parsed b c).payload = payload := by
  refine ⟨(cmd_controlFields _).trans h.cmd_eq, ?_⟩
  have hfield := h.payload_eq
  by_cases hinfo : IsInformation b c
  · rw [responseLlcHeader, if_pos hinfo,
      (h.llcHeader hinfo).informationField_eq (h.length_of_information hinfo)]
      at hfield
    rw [parsed, if_pos hinfo]
    exact List.append_cancel_left hfield
  · rw [responseLlcHeader, if_neg hinfo, List.nil_append] at hfield
    rw [parsed, if_neg hinfo]
    exact hfield

end ReplyAt

/-- A reply that reads through is returned with its command and payload. -/
theorem hdlcFrameParse_of_readsThrough {b : List Byte} {cmd : HdlcCommand}
    {payload : List Byte} (h : IsReply b cmd payload) (hread : ReadsThrough b) :
    ∃ frame, hdlcFrameParse b = ok frame ∧ frame.cmd = cmd
      ∧ frame.payload = payload := by
  obtain ⟨c, hc⟩ := h
  refine ⟨parsed b c, ?_, hc.parsed_eq⟩
  rw [hdlcFrameParse_eq (hc.accepted_iff.mpr hread), if_pos hc.llcHeader]

/-- A reply that does not is refused. -/
theorem hdlcFrameParse_of_not_readsThrough {b : List Byte}
    {cmd : HdlcCommand} {payload : List Byte} (h : IsReply b cmd payload)
    (hread : ¬ ReadsThrough b) :
    hdlcFrameParse b = throws .invalidHdlcFrame := by
  obtain ⟨c, hc⟩ := h
  refine hdlcFrameParse_of_not_accepted fun ⟨c', hacc⟩ => ?_
  obtain rfl := hc.envelope.server.unique hacc.server
  exact hread (hc.accepted_iff.mp hacc)

/-- **A reply that keeps to the grammar is read exactly if it reads
through.** If it does, the parser returns the command and the payload it has;
if not, it is refused. -/
theorem hdlcFrameParse_isReply_iff {b : List Byte} {cmd : HdlcCommand}
    {payload : List Byte} (h : IsReply b cmd payload) :
    (ReadsThrough b ↔ ∃ frame, hdlcFrameParse b = ok frame
        ∧ frame.cmd = cmd ∧ frame.payload = payload)
      ∧ (¬ ReadsThrough b ↔
        hdlcFrameParse b = throws .invalidHdlcFrame) := by
  by_cases hread : ReadsThrough b
  · have hok := hdlcFrameParse_of_readsThrough h hread
    refine ⟨iff_of_true hread hok, iff_of_false (not_not.mpr hread) ?_⟩
    obtain ⟨frame, hparse, -⟩ := hok
    rw [hparse]
    exact nofun
  · have hthrows := hdlcFrameParse_of_not_readsThrough h hread
    refine ⟨iff_of_false hread ?_, iff_of_true hread hthrows⟩
    rintro ⟨frame, hparse, -⟩
    rw [hthrows] at hparse
    cases hparse

/-- One place of the control byte is enough to tell. -/
theorem readsThrough_of_serverAddress {b : List Byte} {c : ℕ}
    (hc : ServerAddress b c)
    (h : b.length = c + 4 ∨ byteAt b c ≠ byteAt b (c + 2)) :
    ReadsThrough b := by
  intro c' hc'
  obtain rfl := hc'.unique hc
  exact h

/-- A get response with one null value: the frame after seven others that
were received and two that were sent. -/
def nullReply : List Byte :=
  [0x7E, 0xA0, 0x14, 0x03, 0x00, 0x02, 0xFE, 0xFF, 0xF4, 0x91, 0xC3, 0xE6,
    0xE7, 0x00, 0xC4, 0x01, 0xC1, 0x00, 0x00, 0x30, 0xA9, 0x7E]

theorem readsThrough_nullReply : ReadsThrough nullReply :=
  readsThrough_of_serverAddress (show ServerAddress nullReply 8 by decide)
    (by decide)

/-- It is read. -/
theorem hdlcFrameParse_isReply_nullReply :
    ∃ frame, hdlcFrameParse nullReply = ok frame
      ∧ frame.cmd = HdlcCommand.responseI
      ∧ frame.payload = [0xC4, 0x01, 0xC1, 0x00, 0x00] :=
  (hdlcFrameParse_isReply_iff ⟨8, by decide +kernel⟩).1.mp
    readsThrough_nullReply

/-- A get response with three null values, in a frame with the same control
byte. -/
def nullsReply : List Byte :=
  [0x7E, 0xA0, 0x16, 0x03, 0x00, 0x02, 0xFE, 0xFF, 0xF4, 0x2A, 0xF4, 0xE6,
    0xE7, 0x00, 0xC4, 0x01, 0xC1, 0x00, 0x00, 0x00, 0x00, 0x2E, 0x81, 0x7E]

/-- That byte is the second one of its header check sequence. -/
example : ReplyAt nullsReply HdlcCommand.responseI
      [0xC4, 0x01, 0xC1, 0x00, 0x00, 0x00, 0x00] 8
    ∧ hdlcFrameParse nullsReply = throws .invalidHdlcFrame := by
  decide +kernel

/-! ## Replies disturbed on the line -/

/-- **Two frames of one length are no line error apart**, whether the parser
accepts them or not. -/
theorem Envelope.not_lineError {b b' : List Byte} {c c' : ℕ}
    (h : Envelope b c) (h' : Envelope b' c') (hlen : b'.length = b.length) :
    ¬ LineError (errorBits b b') := by
  intro herr
  have hshort := h.length_lt
  rw [errorBits_eq h h' hlen] at herr
  -- both registers hold the residue, yet the bits they took in differ
  refine feed_ne_of_detectable (by decide) fcsCode rfl 0xFFFF ?_
    (herr.detectable (N := 32767) fun i hi => ?_)
    (h.feed_eq_residue.trans (hlen ▸ h'.feed_eq_residue).symm)
  · simp only [length_stringBits, length_slice, hlen]
  · have := (mem_differ.mp hi).1
    rw [length_stringBits, length_slice] at this
    omega

/-- **A disturbed reply is refused.** -/
theorem hdlcFrameParse_disturbed {b b' : List Byte} {cmd : HdlcCommand}
    {payload : List Byte} (h : IsReply b cmd payload)
    (hlen : b'.length = b.length) (herr : LineError (errorBits b b')) :
    hdlcFrameParse b' = throws .invalidHdlcFrame := by
  obtain ⟨c, hc⟩ := h
  exact hdlcFrameParse_of_not_accepted fun ⟨c', hacc⟩ =>
    hc.envelope.not_lineError hacc.toEnvelope hlen herr

end Dlms.Hdlc
