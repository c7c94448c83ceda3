import Yadi.Replies
import Yadi.Transcript

/-!
# A client and a meter

What a client is for: to read the attributes of a meter. The meter need not let
it. It may decline a connection, or agree to one and name no limits; it may
reject the association; and it may answer to a get request with an error, or
with something that is no get response. `Meter.Session` says what the operations
of a client come to with such a meter, in the phase the meter is in, and says
nothing of frames. It says what they do come to, and that is not always what
they should: to connect returns `true` whether the association is accepted or
rejected, it returns `false` over a connection without limits that is there all
the same, and an error is returned as a response with the result 1 and the
reason for its data.

Below it a meter takes requests out of frames, as a server does, and gives
replies that keep to the grammar (`Meter.Replies`).

On a clear line, where every reply reads through, the HDLC client and the
meter are such a session (`Meter.clear_session`). On a noisy line, where
requests and replies are lost and replies are disturbed, an operation may
fail with an exception, and what it did before that is done. But that is all:
whatever an operation returns, it returns in a session as well
(`Meter.noisy_session`).
-/

namespace Dlms

open Run Hdlc

/-! ## What a meter has -/

/-- **What a meter has to say about an attribute**: its data, an error with a
reason, or nothing that is a get response. -/
inductive Attribute
  | data (bytes : List Byte)
  | error (reason : DataAccessResult)
  | other
  deriving DecidableEq, Repr

namespace Attribute

/-- **What the client reads of it**, be it right or not: an error is a response
with the choice 1 for its result and the reason for its data. -/
def read : Attribute → Result Response
  | data bytes => ok ⟨0, bytes⟩
  | error reason => ok ⟨1, [reason]⟩
  | other => throws .invalidCosemFrame

/-- What a get request comes to then. -/
def result (a : Attribute) : Result Answer :=
  a.read >>= fun r => ok (.response r)

/-- **An APDU that says it.** -/
def IsSaidBy : Attribute → List Byte → Prop
  | data bytes, apdu =>
    ∃ invokeId, apdu = 0xC4 :: 0x01 :: invokeId :: 0x00 :: bytes
  | error reason, apdu =>
    ∃ invokeId, apdu = [0xC4, 0x01, invokeId, 0x01, reason]
  | other, apdu => ¬ HasGetResponseHeader apdu

/-- The client reads it from every such APDU. -/
theorem IsSaidBy.parseGetResponse_eq {a : Attribute} {apdu : List Byte}
    (h : a.IsSaidBy apdu) : parseGetResponse apdu = a.read := by
  rw [Dlms.parseGetResponse_eq]
  cases a with
  | data bytes =>
    obtain ⟨invokeId, rfl⟩ := h
    rw [if_pos ⟨Nat.le_add_left 4 _, rfl, rfl⟩]
    rfl
  | error reason =>
    obtain ⟨invokeId, rfl⟩ := h
    rw [if_pos ⟨Nat.le_add_left 4 _, rfl, rfl⟩]
    rfl
  | other =>
    rw [if_neg h]
    rfl

end Attribute

/-- **A meter**, as far as a client is to see it. What it answers to a request
to connect is the information field of a UA frame, or `none` for a DM frame,
and to an association request the result in an AARE; it may have a choice, and
no choice for its attributes. No information field of it is a get response. -/
structure Meter where
  connection : Option (List Byte) → Prop
  association : Byte → Prop
  attributeOf : Dlms.Request → Attribute
  not_header : ∀ field, connection (some field) → ¬ HasGetResponseHeader field

/-- **Limits are named** in an answer to a request to connect, so that the
client reads some. -/
def NamesLimits (answer : Option (List Byte)) : Prop :=
  ∃ group limits, answer = some (0x80 :: 0x81 :: group :: limits)

/-- How far a connection has come. -/
inductive Phase
  | disconnected | connected | associated
  deriving DecidableEq, Repr

/-- Where an answer to a request to connect leaves a meter. -/
def Phase.afterConnection : Option (List Byte) → Phase
  | some _ => connected
  | none => disconnected

theorem NamesLimits.afterConnection {answer : Option (List Byte)}
    (h : NamesLimits answer) : Phase.afterConnection answer = .connected := by
  obtain ⟨group, limits, rfl⟩ := h
  rfl

/-- Where the result of an association leaves it. -/
def Phase.afterAssociation (result : Byte) : Phase :=
  if result = 0 then associated else connected

namespace Meter

variable (meter : Meter)

/-- What a meter has to say in a phase: nothing about its attributes, if it is
not associated. -/
def offers (phase : Phase) (req : Dlms.Request) : Attribute :=
  if phase = .associated then meter.attributeOf req else .other

/-! ## What a session is -/

/-- **A session with a meter**: what operations come to in which phase. -/
inductive Session : Peer Phase Operation (Result Answer)
  /-- The meter names limits, and accepts the association or not. -/
  | connect {phase : Phase} {answer : Option (List Byte)} {result : Byte}
      (hanswer : meter.connection answer) (hlimits : NamesLimits answer)
      (hresult : meter.association result) :
      Session phase .connect (ok (.bool true)) (.afterAssociation result)
  /-- It declines the connection, or agrees to it without limits. -/
  | noLimits {phase : Phase} {answer : Option (List Byte)}
      (hanswer : meter.connection answer) (hlimits : ¬ NamesLimits answer) :
      Session phase .connect (ok (.bool false)) (.afterConnection answer)
  | getRequest {phase : Phase} {req : Dlms.Request} :
      Session phase (.getRequest req) (meter.offers phase req).result phase
  | disconnect {phase : Phase} :
      Session phase .disconnect (ok (.bool (phase ≠ .disconnected)))
        .disconnected

/-- Where an operation that fails may leave a meter. -/
def MayReach : Operation → Phase → Phase → Prop
  | .connect, phase, phase' => phase' = phase
    ∨ (∃ answer, meter.connection answer ∧ phase' = .afterConnection answer)
    ∨ ∃ result, meter.association result ∧ phase' = .afterAssociation result
  | .getRequest _, phase, phase' => phase' = phase
  | .disconnect, phase, phase' => phase' = phase ∨ phase' = .disconnected

/-- **A session with interruptions**: an operation comes to what it comes to
in a session, or fails on the way. -/
inductive InterruptedSession : Peer Phase Operation (Result Answer)
  | asMeant {phase phase' : Phase} {op : Operation} {r : Result Answer}
      (h : meter.Session phase op r phase') :
      InterruptedSession phase op r phase'
  | interrupted {phase phase' : Phase} {op : Operation}
      (h : meter.MayReach op phase phase') :
      InterruptedSession phase op (throws .invalidHdlcFrame) phase'

/-! ## How a meter replies -/

/-- The command of an answer to a request to connect. -/
def answerCommand : Option (List Byte) → HdlcCommand
  | some _ => HdlcCommand.responseUa
  | none => HdlcCommand.responseDm

/-- **What a meter replies to a request**, and the phase it is in then. -/
inductive Replies : Phase → Hdlc.Request → List Byte → Phase → Prop
  /-- It agrees to a connection, with or without limits, or declines it. -/
  | connect {phase : Phase} {r : Hdlc.Request} {b : List Byte}
      {answer : Option (List Byte)} (hr : r.cmd = HdlcCommand.commandSnrm)
      (hanswer : meter.connection answer)
      (hb : IsReply b (answerCommand answer) (answer.getD [])) :
      Replies phase r b (.afterConnection answer)
  /-- It accepts or rejects a well-formed proposal. -/
  | associate {phase : Phase} {r : Hdlc.Request} {b apdu : List Byte}
      {result : Byte} (hphase : phase ≠ .disconnected)
      (hr : r.cmd = HdlcCommand.commandI) (haarq : ∃ a, IsAarq a r.payload)
      (hresult : meter.association result)
      (hb : IsReply b HdlcCommand.responseI apdu) (haare : IsAare result apdu) :
      Replies phase r b (.afterAssociation result)
  /-- It says what it has to say about an attribute. -/
  | get {phase : Phase} {r : Hdlc.Request} {req : Dlms.Request}
      {b apdu : List Byte} (hphase : phase ≠ .disconnected)
      (hr : r.cmd = HdlcCommand.commandI)
      (hreq : decodeRequestApdu r.payload = some (.get, req))
      (hb : IsReply b HdlcCommand.responseI apdu)
      (hapdu : (meter.offers phase req).IsSaidBy apdu) :
      Replies phase r b phase
  /-- Disconnected, it answers that it is. -/
  | absent {r : Hdlc.Request} {b : List Byte}
      (hr : r.cmd = HdlcCommand.commandI ∨ r.cmd = HdlcCommand.commandDisc)
      (hb : IsReply b HdlcCommand.responseDm []) :
      Replies .disconnected r b .disconnected
  /-- It agrees to the end of a connection. -/
  | disconnect {phase : Phase} {r : Hdlc.Request} {b : List Byte}
      (hphase : phase ≠ .disconnected)
      (hr : r.cmd = HdlcCommand.commandDisc)
      (hb : IsReply b HdlcCommand.responseUa []) :
      Replies phase r b .disconnected

/-- A request a meter understands. -/
def Understands (r : Hdlc.Request) : Prop :=
  r.cmd = HdlcCommand.commandSnrm ∨ r.cmd = HdlcCommand.commandDisc
    ∨ r.cmd = HdlcCommand.commandI ∧ ((∃ a, IsAarq a r.payload)
      ∨ ∃ req, decodeRequestApdu r.payload = some (.get, req))

/-- **A request that is taken out of a frame**: the frame is well formed, and
the meter understands what is in it. -/
def Takes (q : List Byte) (r : Hdlc.Request) : Prop :=
  WellFormed q ∧ decodeRequest q = some r ∧ Understands r

/-- **A meter on a clear line**: it answers what it can take out of a frame,
by replies that read through, and nothing else. -/
inductive ClearLine : Peer Phase (List Byte) (List Byte)
  | answered {phase phase' : Phase} {q b : List Byte} {r : Hdlc.Request}
      (hq : Takes q r) (hb : meter.Replies phase r b phase')
      (hread : ReadsThrough b) : ClearLine phase q b phase'
  | ignored {phase : Phase} {q : List Byte} (hq : ¬ ∃ r, Takes q r) :
      ClearLine phase q [] phase

/-- **A meter on a noisy line**: requests and replies may be lost, and
replies may be disturbed. -/
inductive NoisyLine : Peer Phase (List Byte) (List Byte)
  | answered {phase phase' : Phase} {q b : List Byte} {r : Hdlc.Request}
      (hq : Takes q r) (hb : meter.Replies phase r b phase') :
      NoisyLine phase q b phase'
  | disturbed {phase phase' : Phase} {q b b' : List Byte} {r : Hdlc.Request}
      (hq : Takes q r) (hb : meter.Replies phase r b phase')
      (hlen : b'.length = b.length) (herr : LineError (errorBits b b')) :
      NoisyLine phase q b' phase'
  | replyLost {phase phase' : Phase} {q b : List Byte} {r : Hdlc.Request}
      (hq : Takes q r) (hb : meter.Replies phase r b phase') :
      NoisyLine phase q [] phase'
  | requestLost {phase : Phase} {q : List Byte} :
      NoisyLine phase q [] phase

variable {meter} in
/-- A noisy line may be clear. -/
theorem ClearLine.noisyLine {phase phase' : Phase} {q b : List Byte}
    (h : meter.ClearLine phase q b phase') :
    meter.NoisyLine phase q b phase' := by
  cases h with
  | answered hq hb hread => exact .answered hq hb
  | ignored hq => exact .requestLost

/-! ## What the meter makes of a message -/

/-- An association request starts with its tag. -/
theorem IsAarq.tag {a : Aarq} {x : Byte} {b : List Byte}
    (h : IsAarq a (x :: b)) : x = 0x60 := by
  obtain ⟨content, ts, hspans, -⟩ := h
  obtain ⟨-, n, body, -, -, ht, -⟩ := Ber.readTlv_eq_some_iff.mp hspans
  exact (congrArg Ber.Tlv.tag ht).symm

/-- A get request does not. -/
theorem not_isAarq_get {a : Aarq} {cosem : Cosem} {req : Dlms.Request} :
    ¬ IsAarq a (serializeGetRequest cosem req) := by
  obtain ⟨n₀, n₁, n₂, n₃, n₄, n₅, -, heq⟩ := serializeRequest_eq cosem .get req
  intro h
  rw [show serializeGetRequest cosem req = serializeRequest cosem .get req
    from rfl, heq] at h
  exact absurd (IsAarq.tag h) (by decide)

/-- An association request of a client is no request for a service. -/
theorem decodeRequestApdu_aarqWith (params : CosemParameters)
    (value : List Byte) :
    decodeRequestApdu (aarqWith params value) = none := by
  obtain ⟨rest, hrest⟩ : ∃ rest, aarqWith params value = 0x60 :: rest :=
    ⟨_, rfl⟩
  rw [hrest]
  unfold decodeRequestApdu
  split
  · next heq =>
    obtain ⟨rfl, -⟩ := List.cons.inj heq
    rfl
  · rfl

variable {meter} {client : CosemHdlcClient} {phase phase' : Phase}
  {b : List Byte}

/-- Whatever it replies is a reply. -/
theorem Replies.isReply {r : Hdlc.Request}
    (h : meter.Replies phase r b phase') :
    ∃ cmd payload, IsReply b cmd payload := by
  cases h <;> exact ⟨_, _, ‹_›⟩

/-- To a request to connect. -/
theorem Replies.of_snrm
    (h : meter.Replies phase (client.request .snrm) b phase') :
    ∃ answer, meter.connection answer ∧ phase' = .afterConnection answer
      ∧ IsReply b (answerCommand answer) (answer.getD []) := by
  have hcmd : (client.request .snrm).cmd = HdlcCommand.commandSnrm := rfl
  cases h with
  | connect hr hanswer hb => exact ⟨_, hanswer, rfl, hb⟩
  | associate hphase hr haarq hresult hb haare =>
    exact absurd (hcmd.symm.trans hr) (by decide)
  | get hphase hr hreq hb hapdu =>
    exact absurd (hcmd.symm.trans hr) (by decide)
  | absent hr hb =>
    rcases hr with hr | hr <;> exact absurd (hcmd.symm.trans hr) (by decide)
  | disconnect hphase hr hb => exact absurd (hcmd.symm.trans hr) (by decide)

/-- To an association request, over a connection. -/
theorem Replies.of_aarq {value : List Byte}
    (h : meter.Replies phase (client.request (.aarq value)) b phase')
    (hphase : phase ≠ .disconnected) :
    ∃ result apdu, meter.association result
      ∧ phase' = .afterAssociation result
      ∧ IsReply b HdlcCommand.responseI apdu := by
  have hcmd : (client.request (.aarq value)).cmd = HdlcCommand.commandI := rfl
  have hnone : decodeRequestApdu (client.request (.aarq value)).payload
      = none := decodeRequestApdu_aarqWith _ _
  cases h with
  | connect hr hanswer hb => exact absurd (hcmd.symm.trans hr) (by decide)
  | associate hphase hr haarq hresult hb haare =>
    exact ⟨_, _, hresult, rfl, hb⟩
  | get hphase hr hreq hb hapdu =>
    rw [hnone] at hreq
    cases hreq
  | absent hr hb => exact absurd rfl hphase
  | disconnect hphase hr hb => exact absurd (hcmd.symm.trans hr) (by decide)

/-- To a get request. -/
theorem Replies.of_get {req : Dlms.Request}
    (h : meter.Replies phase (client.request (.get req)) b phase') :
    phase' = phase ∧ ∃ cmd apdu, IsReply b cmd apdu
      ∧ parseGetResponse apdu = (meter.offers phase req).read := by
  have hcmd : (client.request (.get req)).cmd = HdlcCommand.commandI := rfl
  have hreq' : decodeRequestApdu (client.request (.get req)).payload
      = some (.get, req) := decodeRequestApdu_serializeRequest client.cosem .get req
  cases h with
  | connect hr hanswer hb => exact absurd (hcmd.symm.trans hr) (by decide)
  | associate hphase hr haarq hresult hb haare =>
    obtain ⟨a, haarq⟩ := haarq
    exact absurd haarq (@not_isAarq_get a client.cosem req)
  | @get _ _ req' _ _ hphase hr hreq hb hapdu =>
    obtain rfl : req = req' := by
      rw [hreq', Option.some.injEq, Prod.mk.injEq] at hreq
      exact hreq.2
    exact ⟨rfl, _, _, hb, hapdu.parseGetResponse_eq⟩
  | absent hr hb =>
    exact ⟨rfl, _, _, hb, by rw [offers, if_neg (by decide)]; decide⟩
  | disconnect hphase hr hb => exact absurd (hcmd.symm.trans hr) (by decide)

/-- To a request to disconnect. -/
theorem Replies.of_disc
    (h : meter.Replies phase (client.request .disc) b phase') :
    phase' = .disconnected ∧ ∃ cmd, IsReply b cmd []
      ∧ (cmd = HdlcCommand.responseUa ↔ phase ≠ .disconnected) := by
  have hcmd : (client.request .disc).cmd = HdlcCommand.commandDisc := rfl
  cases h with
  | connect hr hanswer hb => exact absurd (hcmd.symm.trans hr) (by decide)
  | associate hphase hr haarq hresult hb haare =>
    exact absurd (hcmd.symm.trans hr) (by decide)
  | get hphase hr hreq hb hapdu =>
    exact absurd (hcmd.symm.trans hr) (by decide)
  | absent hr hb => exact ⟨rfl, _, hb, by decide⟩
  | disconnect hphase hr hb => exact ⟨rfl, _, hb, iff_of_true rfl hphase⟩

/-! ## What comes back on a line -/

variable (meter) (client) in
/-- **A message is heard**: there comes back a reply to it that reads through
or, where there are interruptions, nothing that is read. -/
def Heard (interruptions : Prop) (peer : Peer Phase (List Byte) (List Byte))
    (m : Message) : Prop :=
  ∀ phase b phase', peer phase (client.frame m) b phase' →
    (meter.Replies phase (client.request m) b phase' ∧ ReadsThrough b)
      ∨ (interruptions ∧ hdlcFrameParse b = throws .invalidHdlcFrame
        ∧ (phase' = phase
          ∨ ∃ b', meter.Replies phase (client.request m) b' phase'))

/-- On a noisy line. -/
theorem NoisyLine.heard (hparams : client.hdlcParams.Encodable)
    (m : Message) : meter.Heard client True meter.NoisyLine m := by
  intro phase b phase' h
  have hrequest : ∀ {r : Hdlc.Request}, Takes (client.frame m) r →
      r = client.request m := by
    intro r hr
    have hdecode := hr.2.1
    rw [CosemHdlcClient.decodeRequest_frame hparams] at hdecode
    exact (Option.some.inj hdecode).symm
  cases h with
  | answered hq hb =>
    obtain rfl := hrequest hq
    by_cases hread : ReadsThrough b
    · exact .inl ⟨hb, hread⟩
    · obtain ⟨cmd, payload, hreply⟩ := hb.isReply
      exact .inr ⟨trivial, hdlcFrameParse_of_not_readsThrough hreply hread,
        .inr ⟨b, hb⟩⟩
  | disturbed hq hb hlen herr =>
    obtain rfl := hrequest hq
    obtain ⟨cmd, payload, hreply⟩ := hb.isReply
    exact .inr ⟨trivial, hdlcFrameParse_disturbed hreply hlen herr,
      .inr ⟨_, hb⟩⟩
  | replyLost hq hb =>
    obtain rfl := hrequest hq
    exact .inr ⟨trivial, by decide, .inr ⟨_, hb⟩⟩
  | requestLost => exact .inr ⟨trivial, by decide, .inl rfl⟩

/-- On a clear line, if the meter takes it. -/
theorem ClearLine.heard {m : Message}
    (hm : Takes (client.frame m) (client.request m)) :
    meter.Heard client False meter.ClearLine m := by
  intro phase b phase' h
  cases h with
  | answered hq hb hread =>
    have hdecode := hq.2.1
    rw [hm.2.1, Option.some.injEq] at hdecode
    subst hdecode
    exact .inl ⟨hb, hread⟩
  | ignored hq => exact absurd ⟨_, hm⟩ hq

/-- **A meter takes what it understands**, if it is not too long. -/
theorem takes_frame (hparams : client.hdlcParams.Encodable) {m : Message}
    (hlen : (client.payload m).length ≤ 4080)
    (hm : Understands (client.request m)) :
    Takes (client.frame m) (client.request m) :=
  ⟨client.wellFormed_frame hparams hlen,
    client.decodeRequest_frame hparams m, hm⟩

theorem takes_snrm (hparams : client.hdlcParams.Encodable) :
    Takes (client.frame .snrm) (client.request .snrm) := by
  have htx := length_limitParameter_le 0x05
    client.hdlcParams.maxInformationFieldLengthTx
  have hrx := length_limitParameter_le 0x06
    client.hdlcParams.maxInformationFieldLengthRx
  refine takes_frame hparams ?_ (.inl rfl)
  rw [CosemHdlcClient.payload, List.length_append]
  omega

/-- An association request that fits is one. -/
theorem exists_isAarq_aarqWith {params : CosemParameters}
    (hfits : AarqFits params) (rng : Rng) :
    ∃ a, IsAarq a (aarqWith params (authenticationValue params rng)) :=
  ⟨_, isAarq_of_lt
    ((length_shorts_aarqComponents_lt_iff params rng).mpr hfits)⟩

theorem takes_aarq (hparams : client.hdlcParams.Encodable)
    (hfits : AarqFits client.cosem.parameters) (rng : Rng) :
    Takes
      (client.frame (.aarq (authenticationValue client.cosem.parameters rng)))
      (client.request
        (.aarq (authenticationValue client.cosem.parameters rng))) := by
  have hlt := (length_shorts_aarqComponents_lt_iff client.cosem.parameters
    rng).mpr hfits
  refine takes_frame hparams ?_
    (.inr (.inr ⟨rfl, .inl (exists_isAarq_aarqWith hfits rng)⟩))
  show (aarqTlv client.cosem.parameters rng).short.length ≤ 4080
  rw [Ber.Tlv.length_short]
  show (Ber.shorts (aarqComponents client.cosem.parameters rng)).length + 2
    ≤ 4080
  omega

theorem takes_get (hparams : client.hdlcParams.Encodable)
    {req : Dlms.Request} (hdata : req.data.length ≤ 4067) :
    Takes (client.frame (.get req)) (client.request (.get req)) := by
  refine takes_frame hparams ?_ (.inr (.inr ⟨rfl, .inr ⟨req,
    decodeRequestApdu_serializeRequest client.cosem .get req⟩⟩))
  rw [CosemHdlcClient.payload, length_serializeGetRequest]
  omega

theorem takes_disc (hparams : client.hdlcParams.Encodable) :
    Takes (client.frame .disc) (client.request .disc) :=
  takes_frame hparams (Nat.zero_le _) (.inr (.inl rfl))

/-! ## What an operation comes to -/

/-- What an operation has to say. -/
def messages (client : CosemHdlcClient) (rng : Rng) :
    Operation → List Message
  | .connect =>
    [.snrm, .aarq (authenticationValue client.cosem.parameters rng)]
  | .getRequest req => [.get req]
  | .disconnect => [.disc]

/-- The client reads limits exactly where there are some. -/
theorem negotiates_iff_namesLimits {answer : Option (List Byte)}
    {frame : HdlcFrame} (hcmd : frame.cmd = answerCommand answer)
    (hpayload : frame.payload = answer.getD []) :
    Negotiates frame ↔ NamesLimits answer := by
  constructor
  · rintro ⟨hlength, hformat, hgroup, hua⟩
    cases answer with
    | none =>
      rw [hcmd] at hua
      exact absurd hua (by decide)
    | some field =>
      obtain rfl : frame.payload = field := hpayload
      match hfield : frame.payload, hlength with
      | x :: y :: group :: limits, _ =>
        rw [hfield] at hformat hgroup
        obtain rfl : x = 0x80 := hformat
        obtain rfl : y = 0x81 := hgroup
        exact ⟨group, limits, rfl⟩
  · rintro ⟨group, limits, rfl⟩
    refine ⟨?_, ?_, ?_, hcmd⟩ <;> rw [hpayload]
    · exact Nat.le_add_left 3 _
    · rfl
    · rfl

/-- **What the client makes of an answer to a request to connect.** -/
theorem parseSnrmResponse_of_answer {answer : Option (List Byte)}
    (params : HdlcParameters) (ctx : HdlcContext)
    (hb : IsReply b (answerCommand answer) (answer.getD []))
    (hread : ReadsThrough b) :
    (NamesLimits answer →
        ∃ ctx', parseSnrmResponse params b ctx = (ok true, ctx'))
      ∧ (¬ NamesLimits answer →
        parseSnrmResponse params b ctx = (ok false, ctx)) := by
  obtain ⟨frame, hparse, hcmd, hpayload⟩ :=
    hdlcFrameParse_of_readsThrough hb hread
  have hiff := negotiates_iff_namesLimits hcmd hpayload
  constructor
  · intro hlimits
    obtain ⟨ctx', hok, -⟩ := @parseSnrmResponse_of_negotiates params ctx b frame
      hparse (hiff.mpr hlimits) (fun _ => True) (fun _ _ _ _ => trivial) trivial
    exact ⟨ctx', hok⟩
  · exact fun hlimits =>
      parseSnrmResponse_of_not hparse fun h => hlimits (hiff.mp h)

variable {interruptions : Prop} {peer : Peer Phase (List Byte) (List Byte)}

variable (meter interruptions) in
/-- **An operation comes to what it comes to in a session**, or fails where
there are interruptions. -/
def ComesTo (phase : Phase) (op : Operation) (r : Result Answer)
    (phase' : Phase) : Prop :=
  meter.Session phase op r phase'
    ∨ (interruptions ∧ r = throws .invalidHdlcFrame
      ∧ meter.MayReach op phase phase')

/-- **To connect, once limits are named.** -/
theorem ensures_connect_of_namesLimits {answer : Option (List Byte)} {rng : Rng}
    {kept : CosemHdlcClient × Rng} (hanswer : meter.connection answer)
    (hlimits : NamesLimits answer)
    (h : meter.Heard client interruptions peer
      (.aarq (authenticationValue client.cosem.parameters rng))) :
    Dialogue.Ensures peer
      (.ask (client.frame
          (.aarq (authenticationValue client.cosem.parameters rng)))
        fun reply => .done
          (hdlcFrameParse reply >>= fun _ => ok (.bool true), kept))
      (.afterConnection answer) fun r phase' =>
        meter.ComesTo interruptions phase .connect r.1 phase' := by
  have hconnected : Phase.afterConnection answer ≠ .disconnected := by
    rw [hlimits.afterConnection]
    decide
  intro b phase' hpeer
  rw [Dialogue.ensures_done]
  rcases h _ b phase' hpeer with
    ⟨hreplies, hread⟩ | ⟨hinterrupted, hparse, hphase⟩
  · obtain ⟨result, apdu, hresult, rfl, hb⟩ := hreplies.of_aarq hconnected
    obtain ⟨frame, hparse, -⟩ := hdlcFrameParse_of_readsThrough hb hread
    rw [hparse]
    exact .inl (.connect hanswer hlimits hresult)
  · rw [hparse]
    refine .inr ⟨hinterrupted, rfl, ?_⟩
    rcases hphase with rfl | ⟨b', hreplies⟩
    · exact .inr (.inl ⟨answer, hanswer, rfl⟩)
    · obtain ⟨result, apdu, hresult, hphase', -⟩ :=
        hreplies.of_aarq hconnected
      exact .inr (.inr ⟨result, hresult, hphase'⟩)

/-- **To connect.** -/
theorem ensures_connect (rng : Rng)
    (h : ∀ m ∈ messages client rng .connect,
      meter.Heard client interruptions peer m) :
    (CosemHdlcClient.talk .connect (client, rng)).Ensures peer phase
      fun r phase' =>
        meter.ComesTo interruptions phase .connect r.1 phase' := by
  have hsnrm := h .snrm List.mem_cons_self
  have haarq := h (.aarq (authenticationValue client.cosem.parameters rng))
    (List.mem_cons_of_mem _ List.mem_cons_self)
  rw [CosemHdlcClient.talk, Dialogue.ensures_ask]
  intro b phase' hpeer
  rcases hsnrm phase b phase' hpeer with
    ⟨hreplies, hread⟩ | ⟨hinterrupted, hparse, hphase⟩
  · obtain ⟨answer, hanswer, rfl, hb⟩ := hreplies.of_snrm
    obtain ⟨hyes, hno⟩ := parseSnrmResponse_of_answer client.hdlcParams
      client.hdlcCtx hb hread
    by_cases hlimits : NamesLimits answer
    · obtain ⟨ctx', hok⟩ := hyes hlimits
      rw [hok]
      exact ensures_connect_of_namesLimits hanswer hlimits haarq
    · rw [hno hlimits]
      exact .inl (.noLimits hanswer hlimits)
  · rw [parseSnrmResponse_of_throws hparse]
    refine .inr ⟨hinterrupted, rfl, ?_⟩
    rcases hphase with rfl | ⟨b', hreplies⟩
    · exact .inl rfl
    · obtain ⟨answer, hanswer, hphase', -⟩ := hreplies.of_snrm
      exact .inr (.inl ⟨answer, hanswer, hphase'⟩)

/-- **To get an attribute.** -/
theorem ensures_getRequest {req : Dlms.Request} (rng : Rng)
    (h : meter.Heard client interruptions peer (.get req)) :
    (CosemHdlcClient.talk (.getRequest req) (client, rng)).Ensures peer phase
      fun r phase' =>
        meter.ComesTo interruptions phase (.getRequest req) r.1 phase' := by
  rw [CosemHdlcClient.talk, Dialogue.ensures_ask]
  intro b phase' hpeer
  rcases h phase b phase' hpeer with
    ⟨hreplies, hread⟩ | ⟨hinterrupted, hparse, hphase⟩
  · obtain ⟨rfl, cmd, apdu, hb, hresponse⟩ := hreplies.of_get
    obtain ⟨frame, hparse, -, rfl⟩ := hdlcFrameParse_of_readsThrough hb hread
    rw [hparse, ok_bind, hresponse]
    exact .inl .getRequest
  · rw [hparse]
    refine .inr ⟨hinterrupted, rfl, ?_⟩
    rcases hphase with rfl | ⟨b', hreplies⟩
    · exact rfl
    · exact hreplies.of_get.1

/-- **To disconnect.** -/
theorem ensures_disconnect (rng : Rng)
    (h : meter.Heard client interruptions peer .disc) :
    (CosemHdlcClient.talk .disconnect (client, rng)).Ensures peer phase
      fun r phase' =>
        meter.ComesTo interruptions phase .disconnect r.1 phase' := by
  rw [CosemHdlcClient.talk, Dialogue.ensures_ask]
  intro b phase' hpeer
  rcases h phase b phase' hpeer with
    ⟨hreplies, hread⟩ | ⟨hinterrupted, hparse, hphase⟩
  · obtain ⟨rfl, cmd, hb, hcmd⟩ := hreplies.of_disc
    obtain ⟨frame, hparse, rfl, -⟩ := hdlcFrameParse_of_readsThrough hb hread
    rw [parseDiscResponse, hparse]
    simp only [ok_bind, Run.pure_eq, hcmd]
    exact .inl .disconnect
  · rw [parseDiscResponse, hparse]
    refine .inr ⟨hinterrupted, rfl, ?_⟩
    rcases hphase with rfl | ⟨b', hreplies⟩
    · exact .inl rfl
    · exact .inr hreplies.of_disc.1

/-- **Any operation.** -/
theorem ensures_talk (op : Operation) (rng : Rng)
    (h : ∀ m ∈ messages client rng op,
      meter.Heard client interruptions peer m) :
    (CosemHdlcClient.talk op (client, rng)).Ensures peer phase
      fun r phase' => meter.ComesTo interruptions phase op r.1 phase' :=
  match op with
  | .connect => ensures_connect rng h
  | .getRequest _ => ensures_getRequest rng (h _ List.mem_cons_self)
  | .disconnect => ensures_disconnect rng (h _ List.mem_cons_self)

/-! ## Sessions -/

/-- **The rule for programs that use a client.** What a program ensures where
its operations come to what they do in a session, its dialogue ensures where
they are heard. -/
theorem ensures_through_of_heard {α : Type} {I : Operation → Prop}
    {d : Program α} {k : CosemHdlcClient × Rng} {P : α → Phase → Prop}
    (hasks : d.Asks I)
    (hheard : ∀ op, I op → ∀ client : CosemHdlcClient,
      client.hdlcParams = k.1.hdlcParams → client.cosem = k.1.cosem →
      ∀ rng, ∀ m ∈ messages client rng op,
        meter.Heard client interruptions peer m)
    (hd : d.Ensures (meter.ComesTo interruptions) phase P) :
    (d.through CosemHdlcClient.talk k).Ensures peer phase
      fun r phase' => P r.1 phase' := by
  have hthrough := @Dialogue.ensures_through (List Byte) (List Byte)
    (Result Answer) α Phase peer Operation (CosemHdlcClient × Rng) Phase
    CosemHdlcClient.talk (meter.ComesTo interruptions)
    (fun k' phase phase' => phase = phase'
      ∧ k'.1.hdlcParams = k.1.hdlcParams ∧ k'.1.cosem = k.1.cosem)
    I
    (by
      rintro op hop ⟨client, rng⟩ phase _ ⟨rfl, hparams, hcosem⟩
      have hmessages := hheard op hop client hparams hcosem rng
      have hkeeps := CosemHdlcClient.ensures_talk_keeps peer op client rng phase
      refine ((ensures_talk op rng hmessages).and hkeeps).mono
        fun r phase' hr => ?_
      obtain ⟨hr, hparams', hcosem'⟩ := hr
      exact ⟨phase', hr, rfl, hparams'.trans hparams, hcosem'.trans hcosem⟩)
    d hasks k phase phase ⟨rfl, rfl, rfl⟩ P hd
  refine hthrough.mono fun r phase' hr => ?_
  obtain ⟨_, hP, rfl, -⟩ := hr
  exact hP

/-- An operation that can be put into frames. -/
def Writable : Operation → Prop
  | .connect | .disconnect => True
  | .getRequest req => req.data.length ≤ 4067

/-- **On a clear line everything is heard** that such an operation has to
say. -/
theorem ClearLine.heard_messages (hparams : client.hdlcParams.Encodable)
    (hfits : AarqFits client.cosem.parameters) {op : Operation}
    (hop : Writable op) (rng : Rng) :
    ∀ m ∈ messages client rng op,
      meter.Heard client False meter.ClearLine m := by
  intro m hm
  cases op with
  | connect =>
    rcases List.mem_cons.mp hm with rfl | hm
    · exact ClearLine.heard (takes_snrm hparams)
    · obtain rfl := List.mem_singleton.mp hm
      exact ClearLine.heard (takes_aarq hparams hfits rng)
  | getRequest req =>
    obtain rfl := List.mem_singleton.mp hm
    exact ClearLine.heard (takes_get hparams hop)
  | disconnect =>
    obtain rfl := List.mem_singleton.mp hm
    exact ClearLine.heard (takes_disc hparams)

/-- Without interruptions, every operation is as it is meant to be. -/
theorem session_of_comesTo {op : Operation} {r : Result Answer}
    (h : meter.ComesTo False phase op r phase') :
    meter.Session phase op r phase' :=
  h.elim id fun h => absurd h.1 id

/-- With interruptions, it may fail. -/
theorem interruptedSession_of_comesTo {op : Operation} {r : Result Answer}
    (h : meter.ComesTo True phase op r phase') :
    meter.InterruptedSession phase op r phase' := by
  rcases h with h | ⟨-, rfl, hphase⟩
  · exact .asMeant h
  · exact .interrupted hphase

/-- The dialogue of a program on a noisy line. -/
theorem ensures_through_noisy {α : Type} {d : Program α}
    {k : CosemHdlcClient × Rng} {P : α → Phase → Prop}
    (hparams : k.1.hdlcParams.Encodable)
    (hd : d.Ensures meter.InterruptedSession phase P) :
    (d.through CosemHdlcClient.talk k).Ensures meter.NoisyLine phase
      fun r phase' => P r.1 phase' :=
  ensures_through_of_heard d.asks_any
    (fun _ _ _ hparams' _ _ m _ => NoisyLine.heard (hparams' ▸ hparams) m)
    (hd.of_peer fun _ _ _ _ hr => interruptedSession_of_comesTo hr)

/-- Where something comes back, it may be lost. -/
theorem NoisyLine.silence {q : List Byte}
    (h : meter.NoisyLine phase q b phase') :
    meter.NoisyLine phase q [] phase' := by
  cases h with
  | answered hq hb => exact .replyLost hq hb
  | disturbed hq hb hlen herr => exact .replyLost hq hb
  | replyLost hq hb => exact .replyLost hq hb
  | requestLost => exact .requestLost

/-- **A program that gives up when an operation fails** comes to what it would
come to if nothing were late. -/
theorem performs_late {α : Type} {d : Program α}
    {s : Station CosemHdlcClient} {P : α → Phase → Prop}
    (hparams : s.client.hdlcParams.Encodable)
    (hends : d.EndsAfter (throws .invalidHdlcFrame) fun _ => True)
    (hd : d.Ensures meter.InterruptedSession phase P)
    {line : Phase × List (List Byte)}
    (h : (Peer.Late [] meter.NoisyLine).History (phase, [])
      (s.exchangesTo (performs CosemHdlcClient.perform d s).2) line) :
    P (performs CosemHdlcClient.perform d s).1 line.1 :=
  CosemHdlcClient.transport.performs_late CosemHdlcClient.talk_fails
    (fun _ _ _ _ h => h.silence) hends (ensures_through_noisy hparams hd) h

/-- A meter that grants everything, with these attributes. -/
def granting (attributeOf : Dlms.Request → Attribute) : Meter where
  connection := NamesLimits
  association result := result = 0
  attributeOf := attributeOf
  not_header field hfield h := by
    obtain ⟨group, limits, hlimits⟩ := hfield
    obtain ⟨invokeId, choice, rest, rfl⟩ := h.exists_eq
    cases hlimits

/-- A meter where every attribute is a null value. -/
def nullMeter : Meter := granting fun _ => .data [0x00]

/-- An information frame with an AARE that accepts the association. -/
def aareReply : List Byte :=
  [0x7E, 0xA0, 0x16, 0x03, 0x00, 0x02, 0xFE, 0xFF, 0x30, 0x02, 0x74, 0xE6,
    0xE7, 0x00, 0x61, 0x05, 0xA2, 0x03, 0x02, 0x01, 0x00, 0x6D, 0xB1, 0x7E]

/-- The shortest AARE with a result. -/
theorem isAare_short (result : Byte) :
    IsAare result [0x61, 0x05, 0xA2, 0x03, 0x02, 0x01, result] := by
  have hspans : (Ber.Tlv.mk 0x02 [result]).Spans [0x02, 0x01, result] := rfl
  have hcomponent : Ber.component [⟨0xA2, [0x02, 0x01, result]⟩] 2
      = some ⟨0xA2, [0x02, 0x01, result]⟩ :=
    List.find?_cons_of_pos (decide_eq_true
      (show (0xA2 &&& 0x1F : Byte).toNat = 2 by decide))
  refine ⟨[0xA2, 0x03, 0x02, 0x01, result], [⟨0xA2, [0x02, 0x01, result]⟩],
    rfl, ⟨[], rfl, rfl⟩, ⟨?_, ?_, ?_⟩, Ber.explicitValue_eq hcomponent hspans⟩
  · intro t ht
    rw [List.mem_singleton.mp ht]
    exact (by decide : (0xA2 : Byte) >>> 6 = 2)
  · exact List.pairwise_singleton _ _
  · intro t ht _
    rw [List.mem_singleton.mp ht]
    exact ⟨_, hspans⟩

/-- Connect, get the clock, disconnect. -/
def readClock : List Operation :=
  [.connect, .getRequest clockRequest, .disconnect]

theorem namesLimits_uaReply : NamesLimits (some [0x80, 0x81, 0x00]) :=
  ⟨0x00, [], rfl⟩

/-- An agreement with limits is one of any meter that may give it. -/
theorem replies_uaReply {meter : Meter}
    (h : meter.connection (some [0x80, 0x81, 0x00])) (client : CosemHdlcClient) :
    meter.Replies .disconnected (client.request .snrm) uaReply .connected := by
  have hua : ReplyAt uaReply HdlcCommand.responseUa [0x80, 0x81, 0x00] 8 := by
    decide +kernel
  exact @Replies.connect meter .disconnected _ uaReply _ rfl h ⟨8, hua⟩

/-- So is an agreement to disconnect. -/
theorem replies_uaFrame (meter : Meter) (client : CosemHdlcClient)
    {phase : Phase} (hphase : phase ≠ .disconnected) :
    meter.Replies phase (client.request .disc) uaFrame .disconnected := by
  have hend : ReplyAt uaFrame HdlcCommand.responseUa [] 8 := by decide +kernel
  exact .disconnect hphase rfl ⟨8, hend⟩

/-- Around the requests, the replies are those of any meter that grants them,
to any client. -/
theorem replies_connection (attributeOf : Dlms.Request → Attribute)
    (client : CosemHdlcClient) (hfits : AarqFits client.cosem.parameters)
    (rng : Rng) :
    (granting attributeOf).Replies .disconnected (client.request .snrm) uaReply
        .connected
      ∧ (granting attributeOf).Replies .connected (client.request
          (.aarq (authenticationValue client.cosem.parameters rng))) aareReply
        .associated
      ∧ (granting attributeOf).Replies .associated (client.request .disc)
        uaFrame .disconnected := by
  have haare : ReplyAt aareReply HdlcCommand.responseI
      [0x61, 0x05, 0xA2, 0x03, 0x02, 0x01, 0x00] 8 := by decide +kernel
  exact ⟨replies_uaReply namesLimits_uaReply client,
    .associate (by decide) rfl (exists_isAarq_aarqWith hfits rng) rfl
      ⟨8, haare⟩ (isAare_short 0),
    replies_uaFrame _ client (by decide)⟩

/-- A reply to a get request that says what there is to say. -/
theorem replies_get {attributeOf : Dlms.Request → Attribute}
    {req : Dlms.Request} {b apdu : List Byte} (client : CosemHdlcClient)
    (hb : ReplyAt b HdlcCommand.responseI apdu 8)
    (hapdu : (attributeOf req).IsSaidBy apdu) :
    (granting attributeOf).Replies .associated (client.request (.get req)) b
      .associated := by
  refine .get (by decide) rfl
    (decodeRequestApdu_serializeRequest client.cosem .get req) ⟨8, hb⟩ ?_
  rw [offers, if_pos rfl]
  exact hapdu

/-- The reply to the request is that of a meter with null values. -/
theorem replies_nullReply (client : CosemHdlcClient) (req : Dlms.Request) :
    nullMeter.Replies .associated (client.request (.get req)) nullReply
      .associated := by
  have hnull : ReplyAt nullReply HdlcCommand.responseI
      [0xC4, 0x01, 0xC1, 0x00, 0x00] 8 := by decide +kernel
  exact replies_get client hnull ⟨0xC1, rfl⟩

/-- The replies around the request read through. -/
theorem readsThrough_connection :
    ReadsThrough uaReply ∧ ReadsThrough aareReply ∧ ReadsThrough uaFrame :=
  ⟨readsThrough_of_serverAddress (show ServerAddress uaReply 8 by decide)
      (by decide),
    readsThrough_of_serverAddress (show ServerAddress aareReply 8 by decide)
      (by decide),
    readsThrough_of_serverAddress (show ServerAddress uaFrame 8 by decide)
      (by decide)⟩

/-- A meter that agrees to connections, and rejects every association. -/
def rejectingMeter : Meter :=
  { granting fun _ => .data [0x00] with association := fun result => result = 1 }

/-- An information frame with an AARE that rejects the association. -/
def rejectingReply : List Byte :=
  [0x7E, 0xA0, 0x16, 0x03, 0x00, 0x02, 0xFE, 0xFF, 0x30, 0x02, 0x74, 0xE6,
    0xE7, 0x00, 0x61, 0x05, 0xA2, 0x03, 0x02, 0x01, 0x01, 0xE4, 0xA0, 0x7E]

theorem readsThrough_rejectingReply : ReadsThrough rejectingReply :=
  readsThrough_of_serverAddress (show ServerAddress rejectingReply 8 by decide)
    (by decide)

theorem replies_rejectingReply (client : CosemHdlcClient)
    (hfits : AarqFits client.cosem.parameters) (rng : Rng) :
    rejectingMeter.Replies .connected (client.request
        (.aarq (authenticationValue client.cosem.parameters rng)))
      rejectingReply .connected := by
  have haare : ReplyAt rejectingReply HdlcCommand.responseI
      [0x61, 0x05, 0xA2, 0x03, 0x02, 0x01, 0x01] 8 := by decide +kernel
  exact @Replies.associate rejectingMeter .connected _ _ _ 1 (by decide) rfl
    (exists_isAarq_aarqWith hfits rng) rfl ⟨8, haare⟩ (isAare_short 1)

end Meter

end Dlms
