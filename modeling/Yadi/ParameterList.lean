import Yadi.Ber
import Yadi.Limits
import Yadi.Session

/-!
# The parameters of a UA frame

A server answers the negotiation with a list of parameters: two bytes of
format and group, a byte with the length of the group, and then for each
parameter an identifier, a length and as many bytes of value, the highest
first. The identifiers 5 and 6 are those of the two limits.

The loop of `parseSnrmResponse` starts with the format byte and not with the
first parameter. It takes the format for an identifier and the group for a
length, which is above 3, and a value with such a length is not skipped but
read as the next parameter. So the second turn takes the length of the group
for an identifier, and the third one begins behind the identifier of the
first parameter: the loop is out of step with the list before it has reached
it, and a list is decoded only if there is nothing in it
(`parseSnrmResponse_decodes_iff`). What the limits are then depends on the
bytes it is out of step with, and they may be right by accident
(`parseSnrmResponse_decodes_replies`).
-/

namespace Dlms.Hdlc

open Run

/-! ## Lists of parameters -/

/-- **A parameter** of the UA frame, with a length that is a byte. -/
structure Parameter where
  id : Byte
  value : List Byte
  length_le : value.length ≤ 255

/-- The identifier, the length and the value. -/
def Parameter.bytes (q : Parameter) : List Byte :=
  q.id :: BitVec.ofNat 8 q.value.length :: q.value

/-- The bytes of some parameters, one behind the other. -/
def parameterBytes (qs : List Parameter) : List Byte :=
  qs.flatMap Parameter.bytes

/-- **The information field of a UA frame with parameters**: format, group
and the length of the group in front of them. -/
def uaInformation (groupLength : Byte) (qs : List Parameter) : List Byte :=
  0x80 :: 0x81 :: groupLength :: parameterBytes qs

/-- The position behind some parameters. -/
def parameterEnd (qs : List Parameter) : ℕ := 3 + (parameterBytes qs).length

/-- **The limit that parameters agree on**: that of the last one with the
identifier, or the own limit if it is smaller or there is none. -/
def agreedLimit (limit : Word) (id : Byte) (qs : List Parameter) : ℕ :=
  match (qs.filter (fun q => q.id = id)).getLast? with
  | some q => min limit.toNat (Ber.ofOctets q.value)
  | none => limit.toNat

/-- **The loop of `parse_snrm_response`, run to its end**: turn by turn it
comes from its start to the state `last`, where it is done, and the function
returns `true` and leaves the context of this state. -/
structure NegotiatesTo (params : HdlcParameters) (ctx : HdlcContext)
    (b payload : List Byte) (last : ℕ × HdlcContext) : Prop where
  turns : Relation.ReflTransGen (Turn (parameterRound params b payload))
    (parameterStart params ctx) last
  done : parameterRound params b payload last = ok (.done last)
  returns : parseSnrmResponse params b ctx = (ok true, last.2)

/-- **A parameter is read in its place**: on its way to the state `last`, the
loop comes to the parameter `q` at its identifier, leaves it behind its value,
and assigns the limit of this value if it is one. -/
def ReadInPlace (params : HdlcParameters) (ctx : HdlcContext)
    (b payload : List Byte) (last : ℕ × HdlcContext) (qs : List Parameter)
    (q : Parameter) : Prop :=
  ∃ before after, Relation.ReflTransGen (Turn (parameterRound params b payload))
      (parameterStart params ctx) (parameterEnd qs, before)
    ∧ Turn (parameterRound params b payload) (parameterEnd qs, before)
        (parameterEnd (qs ++ [q]), after)
    ∧ Relation.ReflTransGen (Turn (parameterRound params b payload))
        (parameterEnd (qs ++ [q]), after) last
    ∧ (q.id = 5 → after.maxInformationFieldLengthTx.toNat
        = min params.maxInformationFieldLengthTx.toNat (Ber.ofOctets q.value))
    ∧ (q.id = 6 → after.maxInformationFieldLengthRx.toNat
        = min params.maxInformationFieldLengthRx.toNat (Ber.ofOctets q.value))

/-- **The negotiation decodes a list of parameters**: it returns `true` with
the limits they agree on, and reads each of them in its place. -/
def DecodesParameters (params : HdlcParameters) (ctx : HdlcContext)
    (b payload : List Byte) (qs : List Parameter) : Prop :=
  ∃ last, NegotiatesTo params ctx b payload last
    ∧ last.2.maxInformationFieldLengthTx.toNat
      = agreedLimit params.maxInformationFieldLengthTx 5 qs
    ∧ last.2.maxInformationFieldLengthRx.toNat
      = agreedLimit params.maxInformationFieldLengthRx 6 qs
    ∧ ∀ before q rest, qs = before ++ q :: rest →
      ReadInPlace params ctx b payload last before q

/-! ## Where the loop reads -/

/-- **A value of four bytes or more is not skipped**: the next turn begins
with its first byte. -/
theorem parameterRound_of_long {params : HdlcParameters}
    {buffer payload : List Byte} {offset : ℕ} (ctx : HdlcContext)
    (hc : offset + 1 < payload.length)
    (hlong : ¬ byteAt payload (offset + 1) < 4) :
    parameterRound params buffer payload (offset, ctx) = ok (.yield
      (offset + 2, setLimit params (byteAt payload offset) 0 ctx)) := by
  rw [parameterRound, if_pos hc, readAt_byte (by omega), ok_bind,
    readAt_byte hc, ok_bind, loop, valueRound,
    if_neg (fun h => hlong h.1)]
  rfl

/-- The positions at which a turn can begin: not that of the first
parameter. -/
def BesideList (s : ℕ × HdlcContext) : Prop := s.1 = 0 ∨ s.1 = 2 ∨ 4 ≤ s.1

/-- **No turn leads to the first parameter.** -/
theorem turn_besideList {params : HdlcParameters} {b : List Byte}
    {groupLength : Byte} {qs : List Parameter}
    (h : (uaInformation groupLength qs).length ≤ b.length)
    (s t : ℕ × HdlcContext) (hs : BesideList s)
    (hturn : Turn (parameterRound params b (uaInformation groupLength qs))
      s t) : BesideList t := by
  obtain ⟨offset, ctx⟩ := s
  by_cases hc : offset + 1 < (uaInformation groupLength qs).length
  · rcases hs with rfl | hs
    · -- the group byte is no length below 4
      rw [Turn, parameterRound_of_long ctx hc (show ¬ (0x81 : Byte) < 4
        by decide), Run.ok.injEq, ForInStep.yield.injEq] at hturn
      exact hturn ▸ .inr (.inl rfl)
    · obtain ⟨offset', value, hround, hlo, -⟩ :=
        @parameterRound_yields params b _ h offset ctx hc
      rw [Turn, hround, Run.ok.injEq, ForInStep.yield.injEq] at hturn
      refine hturn ▸ .inr (.inr ?_)
      change offset = 2 ∨ 4 ≤ offset at hs
      change 4 ≤ offset'
      omega
  · rw [Turn, parameterRound, if_neg hc] at hturn
    cases hturn

/-- A round that is done leaves the state as it is. -/
theorem eq_of_parameterRound_done {params : HdlcParameters}
    {buffer payload : List Byte} (hle : payload.length ≤ buffer.length)
    {s s' : ℕ × HdlcContext}
    (h : parameterRound params buffer payload s = ok (.done s')) : s' = s := by
  obtain ⟨offset, ctx⟩ := s
  by_cases hc : offset + 1 < payload.length
  · obtain ⟨offset', value, hround, -⟩ :=
      @parameterRound_yields params _ _ hle _ ctx hc
    rw [hround] at h
    cases h
  · rw [parameterRound, if_neg hc, Run.pure_eq, Run.ok.injEq,
      ForInStep.done.injEq] at h
    exact h.symm

/-- **Where the negotiation succeeds, its loop has come to an end.** -/
theorem exists_negotiatesTo {params : HdlcParameters} {ctx : HdlcContext}
    {b : List Byte} {frame : HdlcFrame}
    (hparse : hdlcFrameParse b = ok frame) (hneg : Negotiates frame) :
    ∃ last, NegotiatesTo params ctx b frame.payload last := by
  have hle := length_payload_le hparse
  obtain ⟨offset, ctx', hloop, -⟩ := @parameter_loop params b frame.payload hle
    (fun _ => True) (fun _ _ _ h => h) ctx trivial
  obtain ⟨last, hturns, hdone⟩ := turns_of_loop hloop
  obtain rfl := eq_of_parameterRound_done hle hdone
  exact ⟨_, hturns, hdone, parseSnrmResponse_eq_of_loop hparse hneg hloop⟩

/-- **The first parameter is never read in its place.** -/
theorem not_readInPlace {params : HdlcParameters} {ctx : HdlcContext}
    {b : List Byte} {groupLength : Byte} {qs : List Parameter}
    {last : ℕ × HdlcContext} (q : Parameter)
    (h : (uaInformation groupLength qs).length ≤ b.length) :
    ¬ ReadInPlace params ctx b (uaInformation groupLength qs) last [] q := by
  rintro ⟨before, after, hturns, -⟩
  have hbeside : BesideList (parameterEnd [], before) :=
    turns_keep (turn_besideList h) hturns (.inl rfl)
  exact absurd hbeside (by simp [BesideList, parameterEnd, parameterBytes])

/-- **Without parameters the limits stay the own ones**: the only turn assigns
none. -/
theorem limits_of_nil {params : HdlcParameters} {ctx : HdlcContext}
    {b : List Byte} {groupLength : Byte} {last : ℕ × HdlcContext}
    (h : NegotiatesTo params ctx b (uaInformation groupLength []) last) :
    last.2 = resetLimits params ctx := by
  have hfirst : parameterRound params b (uaInformation groupLength [])
      (parameterStart params ctx)
        = ok (.yield (2, resetLimits params ctx)) :=
    parameterRound_of_long _ (by decide : 0 + 1 < 3)
      (show ¬ (0x81 : Byte) < 4 by decide)
  have hturn : ∀ s t, s = parameterStart params ctx
        ∨ s = (2, resetLimits params ctx) →
      Turn (parameterRound params b (uaInformation groupLength [])) s t →
      t = parameterStart params ctx ∨ t = (2, resetLimits params ctx) := by
    rintro s t (rfl | rfl) hturn
    · rw [Turn, hfirst, Run.ok.injEq, ForInStep.yield.injEq] at hturn
      exact .inr hturn.symm
    · cases hturn
  rcases turns_keep hturn h.turns (.inl rfl) with hlast | hlast
  · rw [hlast]
    rfl
  · rw [hlast]

/-- **A list of parameters is decoded exactly if it is empty.** -/
theorem parseSnrmResponse_decodes_iff {params : HdlcParameters}
    {ctx : HdlcContext} {b : List Byte} {frame : HdlcFrame}
    {groupLength : Byte} {qs : List Parameter}
    (hparse : hdlcFrameParse b = ok frame)
    (hua : frame.cmd = HdlcCommand.responseUa)
    (hpayload : frame.payload = uaInformation groupLength qs) :
    DecodesParameters params ctx b frame.payload qs ↔ qs = [] := by
  have hle := length_payload_le hparse
  rw [hpayload] at hle
  constructor
  · rintro ⟨last, -, -, -, hinPlace⟩
    cases qs with
    | nil => rfl
    | cons q rest =>
      have hq := hinPlace [] q rest rfl
      rw [hpayload] at hq
      exact absurd hq (not_readInPlace q hle)
  · rintro rfl
    have hneg : Negotiates frame := by
      refine ⟨?_, ?_, ?_, hua⟩ <;> rw [hpayload]
      · exact le_refl 3
      · rfl
      · rfl
    obtain ⟨last, hlast⟩ := @exists_negotiatesTo params ctx b frame hparse hneg
    have hlimits := limits_of_nil (hpayload ▸ hlast)
    refine ⟨last, hlast, ?_, ?_, fun before q rest h => absurd h.symm (by simp)⟩
    · rw [hlimits]
      rfl
    · rw [hlimits]
      rfl

/-- The limits 256 and 256, as a server sends them. -/
def limitParameters : List Parameter :=
  [⟨5, [0x01, 0x00], by decide⟩, ⟨6, [0x01, 0x00], by decide⟩]

/-- A UA frame with these parameters. -/
def parametersReply : List Byte :=
  [0x7E, 0xA0, 0x17, 0x03, 0x00, 0x02, 0xFE, 0xFF, 0x73, 0x48, 0x9B, 0x80,
    0x81, 0x08, 0x05, 0x02, 0x01, 0x00, 0x06, 0x02, 0x01, 0x00, 0xE0, 0xEF,
    0x7E]

/-- A reply without parameters is decoded. One with the limits 256 is not,
though a client that can do 128 keeps the limits agreed on by accident. -/
theorem parseSnrmResponse_decodes_replies :
    DecodesParameters {} {} uaReply (parsed uaReply 8).payload []
      ∧ ¬ DecodesParameters {} {} parametersReply
        (parsed parametersReply 8).payload limitParameters
      ∧ parseSnrmResponse {} parametersReply {} = (ok true, {})
      ∧ agreedLimit 128 5 limitParameters = 128
      ∧ agreedLimit 128 6 limitParameters = 128 := by
  refine ⟨?_, fun h => ?_, by decide +kernel, by decide +kernel,
    by decide +kernel⟩
  · exact (parseSnrmResponse_decodes_iff
      (show hdlcFrameParse uaReply = ok (parsed uaReply 8) by decide +kernel)
      (by decide +kernel)
      (show (parsed uaReply 8).payload = uaInformation 0 []
        by decide +kernel)).mpr rfl
  · have hnil := (parseSnrmResponse_decodes_iff
      (show hdlcFrameParse parametersReply = ok (parsed parametersReply 8)
        by decide +kernel)
      (by decide +kernel)
      (show (parsed parametersReply 8).payload
          = uaInformation 8 limitParameters by decide +kernel)).mp h
    cases hnil

/-- The parameters of a client that can do 512. -/
def wideParameters : HdlcParameters where
  maxInformationFieldLengthTx := 512
  maxInformationFieldLengthRx := 512

/-- The client keeps to 512, though the server cannot. -/
theorem parametersReply_misread :
    ∃ frame ctx', hdlcFrameParse parametersReply = ok frame
      ∧ frame.cmd = HdlcCommand.responseUa
      ∧ frame.payload = uaInformation 8 limitParameters
      ∧ parseSnrmResponse wideParameters parametersReply {} = (ok true, ctx')
      ∧ ctx'.maxInformationFieldLengthTx = 512
      ∧ agreedLimit 512 5 limitParameters = 256
      ∧ ¬ DecodesParameters wideParameters {} parametersReply frame.payload
        limitParameters := by
  have hresult : parseSnrmResponse wideParameters parametersReply {}
      = (ok true, resetLimits wideParameters {}) := by
    decide +kernel
  have hagreed : agreedLimit 512 5 limitParameters = 256 := by
    decide +kernel
  refine ⟨parsed parametersReply 8, _, by decide +kernel, by decide +kernel,
    by decide +kernel, hresult, rfl, hagreed, ?_⟩
  rintro ⟨last, hlast, htx, -⟩
  have heq := hlast.returns
  rw [hresult, Prod.mk.injEq] at heq
  rw [← heq.2, wideParameters, hagreed] at htx
  exact absurd htx (by decide)

end Dlms.Hdlc
