import Yadi.FrameSerialize
import Yadi.Hdlc

/-!
# The requests of the HDLC layer

`serializeSnrm`, `serializeDisc` and `serialize` fill in a frame and have it
written. None of them looks at the size of what it is given, so whether the
frame declares its true length is left to `hdlcFrameSerialize`, which counts
the LLC header only with a payload and keeps 12 bits of the length.

The frames that set up and end a connection are short and carry no LLC
header, so they always declare their length. An information frame does so
for payloads of 1 to 4080 bytes, and for no others
(`serialize_declaresLength_iff`).
-/

namespace Dlms.Hdlc

open Run

/-- **A frame declares its true length**, and ends with the check sequence of
all the rest. -/
structure DeclaresLength (b : List Byte) : Prop where
  length_eq : lengthField b = b.length - 2
  ending : EndsChecked b

instance (b : List Byte) : Decidable (DeclaresLength b) :=
  decidable_of_iff (lengthField b = b.length - 2
      ∧ leWord b (b.length - 3) = fcs (slice b 1 (b.length - 3)))
    ⟨fun h => ⟨h.1, h.2⟩, fun h => ⟨h.length_eq, h.ending⟩⟩

/-- **Which frames declare their true length**: those that are short enough,
except an information frame without a payload. -/
theorem declaresLength_frameBytes_iff (frame : HdlcFrame) :
    DeclaresLength (frameBytes frame)
      ↔ (frame.cmd = HdlcCommand.commandI → frame.payload ≠ [])
        ∧ (frameBytes frame).length ≤ 4097 := by
  rw [← lengthField_frameBytes_iff]
  refine ⟨DeclaresLength.length_eq, fun h => ⟨h, ?_⟩⟩
  obtain ⟨hcmd, hlen⟩ := (lengthField_frameBytes_iff frame).mp h
  exact endsChecked_frameBytes hcmd (by omega)

/-- What `get_frame` returns. -/
theorem getFrame_eq (cmd : HdlcCommand) (params : HdlcParameters)
    (data : List Byte) :
    getFrame cmd params data = ok (frameBytes (requestFrame cmd params data)) :=
  hdlcFrameSerialize_eq _

/-- **`serialize` returns the frame** and does not touch the context. -/
theorem serialize_eq (params : HdlcParameters) (data : List Byte)
    (ctx : HdlcContext) :
    serialize params data ctx
      = (ok (frameBytes (requestFrame HdlcCommand.commandI params data)),
        ctx) := by
  rw [serialize, StateRun.lift_apply, getFrame_eq]

theorem length_requestFrame (cmd : HdlcCommand) (params : HdlcParameters)
    (data : List Byte) :
    (frameBytes (requestFrame cmd params data)).length
      = 11 + (if cmd = HdlcCommand.commandI then 3 else 0) + data.length
        + (if data.length > 0 then 3 else 1) := by
  rw [length_frameBytes, length_frameBody, length_llcHeader]
  rfl

/-- **A frame with no LLC header and at most eight bytes of payload declares
its true length.** -/
theorem declaresLength_getFrame {cmd : HdlcCommand} {params : HdlcParameters}
    {data b : List Byte} (hcmd : cmd ≠ HdlcCommand.commandI)
    (hdata : data.length ≤ 8) (hb : getFrame cmd params data = ok b) :
    DeclaresLength b := by
  rw [getFrame_eq, Run.ok.injEq] at hb
  rw [← hb, declaresLength_frameBytes_iff]
  refine ⟨fun h => absurd h hcmd, ?_⟩
  rw [length_requestFrame, if_neg hcmd]
  split_ifs <;> omega

theorem length_limitParameter_le (id : Byte) (limit : Word) :
    (limitParameter id limit).length ≤ 4 := by
  unfold limitParameter
  split_ifs <;> simp

/-- **An information frame declares its true length exactly for payloads of 1
to 4080 bytes.** -/
theorem declaresLength_information_iff (params : HdlcParameters)
    (data : List Byte) :
    DeclaresLength (frameBytes (requestFrame HdlcCommand.commandI params data))
      ↔ 1 ≤ data.length ∧ data.length ≤ 4080 := by
  rw [declaresLength_frameBytes_iff, length_requestFrame, if_pos rfl,
    ← List.length_pos_iff]
  change (_ → 0 < data.length) ∧ _ ↔ _
  by_cases h : data.length > 0
  · rw [if_pos h]
    simp only [h, implies_true, true_and]
    omega
  · exact ⟨fun hpos => absurd (hpos.1 rfl) h, fun hpos => absurd hpos.1 h⟩

/-- **Every emitted frame declares its true length exactly where the payload
has 1 to 4080 bytes.** -/
theorem serialize_declaresLength_iff (params : HdlcParameters)
    (ctx : HdlcContext) (data : List Byte) :
    ((∀ b, (serialize params data ctx).1 = ok b → DeclaresLength b)
        ∧ (∀ b, serializeSnrm params = ok b → DeclaresLength b)
        ∧ ∀ b, serializeDisc params = ok b → DeclaresLength b)
      ↔ 1 ≤ data.length ∧ data.length ≤ 4080 := by
  rw [← declaresLength_information_iff params data]
  constructor
  · intro h
    exact h.1 _ (congrArg Prod.fst (serialize_eq params data ctx))
  · intro h
    refine ⟨fun b hb => ?_, fun b hb => ?_, fun b hb => ?_⟩
    · rw [serialize_eq, Run.ok.injEq] at hb
      exact hb ▸ h
    · have htx := length_limitParameter_le 0x05
        params.maxInformationFieldLengthTx
      have hrx := length_limitParameter_le 0x06
        params.maxInformationFieldLengthRx
      refine declaresLength_getFrame (by decide) ?_ hb
      rw [List.length_append]
      omega
    · exact declaresLength_getFrame (by decide) (Nat.zero_le _) hb

/-- An information frame without a payload declares 10 bytes where it has
13 between the flags. -/
theorem serialize_empty_undeclared :
    ∃ b, (serialize {} [] {}).1 = ok b ∧ lengthField b = 10 ∧ b.length = 15
      ∧ ¬ DeclaresLength b := by
  refine ⟨_, getFrame_eq _ _ _, ?_⟩
  decide +kernel

end Dlms.Hdlc
