import Yadi.HdlcRequests

/-!
# The two ends of the negotiation

`serializeSnrm` offers the limits of the parameters, one entry each, and
leaves out those that are the default. `parseSnrmResponse` reads limits from
a UA frame only behind a format and a group byte, which `serializeSnrm` does
not write, and takes an empty field for a failure.

So the two do not speak one language: a server that agrees by returning the
field of the SNRM frame, whatever the limits in it, is never understood
(`parseSnrmResponse_of_echo`).
-/

namespace Dlms.Hdlc

open Run

/-- **The information field of a frame** with its control byte at `c`, which
is empty in a frame that ends with its header. -/
def informationField (b : List Byte) (c : ℕ) : List Byte :=
  slice b (c + 3) (b.length - 3)

/-- The information field of the SNRM frame. -/
def snrmInformation (params : HdlcParameters) : List Byte :=
  limitParameter 0x05 params.maxInformationFieldLengthTx
    ++ limitParameter 0x06 params.maxInformationFieldLengthRx

theorem informationField_serializeSnrm {params : HdlcParameters}
    {request : List Byte} (h : serializeSnrm params = ok request) :
    informationField request 8 = snrmInformation params := by
  have hcmd : HdlcCommand.commandSnrm ≠ HdlcCommand.commandI := by decide
  rw [serializeSnrm, getFrame_eq, Run.ok.injEq] at h
  rw [← h, informationField, slice_information (fun h => absurd h hcmd)]
  rfl

/-- It starts with the identifier of a limit, if it is not empty. -/
theorem snrmInformation_format (params : HdlcParameters) :
    byteAt (snrmInformation params) 0 ≠ 0x80 := by
  rw [snrmInformation, limitParameter, limitParameter]
  split_ifs <;> simp [byteAt]

/-- **The payload of a frame that is no information frame is its information
field.** -/
theorem payload_eq_informationField {b : List Byte} {frame : HdlcFrame}
    {c : ℕ} (hparse : hdlcFrameParse b = ok frame) (hc : ServerAddress b c)
    (hcmd : frame.cmd ≠ HdlcCommand.responseI) :
    frame.payload = informationField b c := by
  obtain ⟨-, -, rfl⟩ := parsed_of_serverAddress hparse hc
  have hinfo : ¬ IsInformation b c :=
    fun h => hcmd ((cmd_controlFields_eq_zero_iff _).mpr h)
  rw [parsed, if_neg hinfo, informationField]

/-- **A successful negotiation** of all that was offered. -/
def Negotiated (params : HdlcParameters) (r : Result Bool × HdlcContext) :
    Prop :=
  r.1 = ok true
    ∧ r.2.maxInformationFieldLengthTx = params.maxInformationFieldLengthTx
    ∧ r.2.maxInformationFieldLengthRx = params.maxInformationFieldLengthRx

/-- **The limits of the SNRM frame are not understood in a UA frame.** For
all limits and from every context, a UA frame with the information field of
the SNRM frame makes `parse_snrm_response` return `false` and leave the
context alone. -/
theorem parseSnrmResponse_of_echo {params : HdlcParameters}
    {ctx : HdlcContext} {b request : List Byte} {frame : HdlcFrame} {c : ℕ}
    (hsnrm : serializeSnrm params = ok request)
    (hparse : hdlcFrameParse b = ok frame)
    (hua : frame.cmd = HdlcCommand.responseUa) (hc : ServerAddress b c)
    (hecho : informationField b c = informationField request 8) :
    parseSnrmResponse params b ctx = (ok false, ctx)
      ∧ ¬ Negotiated params (parseSnrmResponse params b ctx) := by
  have hpayload := payload_eq_informationField hparse hc
    (by rw [hua]; decide)
  rw [hecho, informationField_serializeSnrm hsnrm] at hpayload
  have hfalse : parseSnrmResponse params b ctx = (ok false, ctx) :=
    parseSnrmResponse_of_not hparse (fun h =>
      snrmInformation_format params (hpayload ▸ h.format))
  refine ⟨hfalse, fun h => ?_⟩
  rw [hfalse] at h
  exact absurd h.1 nofun

/-- The parameters of a client that offers 512 for both limits. -/
def offeringParameters : HdlcParameters where
  maxInformationFieldLengthTx := 512
  maxInformationFieldLengthRx := 512

/-- A UA frame that agrees to that. -/
def agreeingReply : List Byte :=
  [0x7E, 0xA0, 0x14, 0x03, 0x00, 0x02, 0xFE, 0xFF, 0x73, 0x26, 0x33, 0x05,
    0x02, 0x02, 0x00, 0x06, 0x02, 0x02, 0x00, 0x66, 0x06, 0x7E]

/-- It is not understood. -/
theorem parseSnrmResponse_of_echo_agreeingReply :
    parseSnrmResponse offeringParameters agreeingReply {}
      = (ok false, {}) :=
  (parseSnrmResponse_of_echo (getFrame_eq _ _ _)
    (show hdlcFrameParse agreeingReply = ok (parsed agreeingReply 8)
      by decide +kernel)
    (by decide +kernel) (show ServerAddress agreeingReply 8 by decide)
    (by decide +kernel)).1

/-- With all limits at their defaults, the empty answer does not negotiate. -/
theorem not_negotiated_uaFrame :
    ∃ request frame, serializeSnrm {} = ok request
      ∧ hdlcFrameParse uaFrame = ok frame
      ∧ frame.cmd = HdlcCommand.responseUa
      ∧ informationField uaFrame 8 = informationField request 8
      ∧ ¬ Negotiated {} (parseSnrmResponse {} uaFrame {}) := by
  refine ⟨_, parsed uaFrame 8, getFrame_eq _ _ _, by decide +kernel,
    by decide +kernel, by decide +kernel, ?_⟩
  rintro ⟨h, -⟩
  exact absurd h (by decide +kernel)

end Dlms.Hdlc
