import Yadi.Association
import Yadi.Parties

/-!
# Operations as dialogues

An operation of a client writes a frame and waits for the reply before it
writes the next one, so it is a dialogue with a server. `Message` is what a
client has to say, and the two functions `frame` are how each client puts it;
`talk` is the dialogue of an operation, as far as it depends on the client and
on the random bytes. Performed at a station, an operation hears its dialogue
from the port (`Transport.perform_eq`). A `Program` is anything that uses a
client, operation by operation and with regard to their results, and so it is
a dialogue with the server, too (`Transport.performs_eq`).

An operation gets the port as an argument, and the random number generator is
one for all clients. So one port may serve any number of them, in any order,
and together they are a transport again, with the operations of each
(`Transport.several`).

Until here the replies of a server were a stream fixed beforehand. That this
is no restriction is the last theorem: whatever server there is that answers
each frame knowing those before it, there is one conversation of any
operations with it, at a station of either client
(`performAll_existsUnique_conversation`).
-/

namespace Dlms

open Run

/-! ## What a client says -/

/-- **A message of a client**: to set up the connection, to propose an
association with an authentication value, to get an attribute, and to end the
connection. -/
inductive Message
  | snrm
  | aarq (value : List Byte)
  | get (req : Request)
  | disc

/-- The association request with an authentication value. -/
def aarqWith (params : CosemParameters) (value : List Byte) : List Byte :=
  (Ber.Tlv.mk 0x60 (Ber.shorts
    ([⟨0x80, [0x07, 0x80]⟩,
        explicitTlv 0xA1 0x06 (applicationContextName params)]
      ++ apTitleComponents params
      ++ (if params.authentication ≠ .lowest then
          [⟨0x8A, [0x07, 0x80]⟩, ⟨0x8B, mechanismName params.authentication⟩,
            explicitTlv 0xAC 0x80 value]
        else [])
      ++ [explicitTlv 0xBE 0x04 initiateRequest]))).short

theorem aarqWith_authenticationValue (params : CosemParameters) (rng : Rng) :
    aarqWith params (authenticationValue params rng)
      = (aarqTlv params rng).short := rfl

/-- The command of the HDLC frame a message is sent in. -/
def Message.cmd : Message → Hdlc.HdlcCommand
  | snrm => Hdlc.HdlcCommand.commandSnrm
  | disc => Hdlc.HdlcCommand.commandDisc
  | aarq _ | get _ => Hdlc.HdlcCommand.commandI

/-- What stands in that frame. -/
def CosemHdlcClient.payload (client : CosemHdlcClient) : Message → List Byte
  | .snrm =>
    Hdlc.limitParameter 0x05 client.hdlcParams.maxInformationFieldLengthTx
      ++ Hdlc.limitParameter 0x06
        client.hdlcParams.maxInformationFieldLengthRx
  | .aarq value => aarqWith client.cosem.parameters value
  | .get req => serializeGetRequest client.cosem req
  | .disc => []

/-- **The frame of a message** over HDLC. -/
def CosemHdlcClient.frame (client : CosemHdlcClient) (m : Message) :
    List Byte :=
  Hdlc.frameBytes
    (Hdlc.requestFrame m.cmd client.hdlcParams (client.payload m))

/-- **The frame of a message** over the wrapper, for the two messages there
are. -/
def CosemWrapperClient.frame (client : CosemWrapperClient) :
    Message → List Byte
  | .aarq value => Wrapper.serialize client.wrapperParams
      (aarqWith client.cosem.parameters value)
  | .get req => Wrapper.serialize client.wrapperParams
      (serializeGetRequest client.cosem req)
  | .snrm | .disc => []

/-! ## A client in a dialogue -/

/-- A dialogue of a client with a server, which leaves the client and the
random number generator changed. -/
abbrev Talk (γ α : Type) := Dialogue (List Byte) (List Byte) (α × γ × Rng)

/-- **A dialogue at a station**, with the replies its port delivers: what
comes of it, and the station it leaves. -/
def Station.hears {γ α : Type} (s : Station γ) (talk : Talk γ α) :
    α × Station γ :=
  let heard := talk.hear s.serial.incoming
  (heard.1.1,
    { client := heard.1.2.1
      rng := heard.1.2.2
      serial :=
        { incoming := s.serial.incoming.drop heard.2.length
          written := s.serial.written ++ heard.2.map Prod.fst } })

theorem hears_done {γ α : Type} (s : Station γ) (a : α) (client : γ)
    (rng : Rng) :
    s.hears (.done (a, client, rng)) = (a, { s with client, rng }) := by
  simp [Station.hears, Dialogue.hear]

/-- To ask is to write and to read. -/
theorem hears_ask {γ α : Type} (s : Station γ) (b : List Byte)
    (next : List Byte → Talk γ α) :
    s.hears (.ask b next)
      = (s.wrote b).afterRead.hears (next s.serial.incoming.head) := by
  simp only [Station.hears, Dialogue.hear_ask, Station.wrote,
    Station.afterRead, List.map_cons, List.length_cons, List.append_assoc,
    List.singleton_append, Stream'.drop_succ]

/-- **One dialogue after another** at a station. -/
theorem hears_bind {γ α β : Type} (s : Station γ) (talk : Talk γ α)
    (next : α × γ × Rng → Talk γ β) :
    s.hears (talk.bind next)
      = (s.hears talk).2.hears (next ((s.hears talk).1,
          (s.hears talk).2.client, (s.hears talk).2.rng)) := by
  simp only [Station.hears, Dialogue.hear_bind, List.map_append,
    List.append_assoc, List.length_append, Stream'.drop_drop]

/-- **The exchanges between two stations** of a run: the frames that were
written, each with the reply that was read after it. -/
def Station.exchangesTo {γ : Type} (s s' : Station γ) :
    List (List Byte × List Byte) :=
  let sent := s'.serial.written.drop s.serial.written.length
  sent.zip (s.serial.incoming.take sent.length)

/-- Those of a dialogue are the questions with their answers. -/
theorem exchangesTo_hears {γ α : Type} (s : Station γ) (talk : Talk γ α) :
    s.exchangesTo (s.hears talk).2
      = (talk.hear s.serial.incoming).2 := by
  simp only [Station.exchangesTo, Station.hears, List.drop_left,
    List.length_map]
  rw [← Dialogue.map_snd_hear]
  exact (List.zip_of_prod rfl rfl).symm

/-- **What a dialogue comes to with a peer**: whatever it ensures holds, if
its exchanges are a history of the peer. -/
theorem hears_of_ensures {γ α σ : Type}
    {peer : Peer σ (List Byte) (List Byte)} {talk : Talk γ α} {s : Station γ}
    {state : σ} {P : α × γ × Rng → σ → Prop} (h : talk.Ensures peer state P)
    {state' : σ}
    (hs : peer.History state (s.exchangesTo (s.hears talk).2) state') :
    P ((s.hears talk).1, (s.hears talk).2.client, (s.hears talk).2.rng)
      state' := by
  rw [exchangesTo_hears] at hs
  exact Dialogue.ensures_iff.mp h _ _ hs

theorem lift_bind {γ α β : Type} (m : Result α) (f : α → ClientRun γ β)
    (s : Station γ) : (StateRun.lift m >>= f) s
      = match m with
        | ok a => f a s
        | throws e => (throws e, s)
        | fault x => (fault x, s) := by
  cases m <;> rfl

/-! ## Programs -/

/-- **A program that uses a client**: a dialogue whose questions are
operations, and which goes on with their results. -/
abbrev Program (α : Type) (ω : Type := Operation) :=
  Dialogue ω (Result Answer) α

/-- **A program performed at a station**: what comes of it, and the station
it leaves. -/
def performs {γ ω α : Type} (perform : ω → ClientRun γ Answer) :
    Program α ω → Station γ → α × Station γ
  | .done a, s => (a, s)
  | .ask op next, s =>
    let (r, s) := perform op s
    performs perform (next r) s

theorem performs_bind {γ ω α β : Type}
    (perform : ω → ClientRun γ Answer) (d : Program α ω)
    (f : α → Program β ω) (s : Station γ) :
    performs perform (d.bind f) s
      = performs perform (f (performs perform d s).1)
          (performs perform d s).2 := by
  induction d generalizing s with
  | done a => rfl
  | ask op next ih => exact ih _ _

/-- Operations one after another are a program. -/
theorem performAll_eq_performs {γ : Type}
    (perform : Operation → ClientRun γ Answer) (ops : List Operation)
    (s : Station γ) :
    performAll perform ops s = performs perform (Dialogue.inTurn ops) s := by
  induction ops generalizing s with
  | nil => rfl
  | cons op ops ih =>
    simp only [performAll, Dialogue.inTurn, performs, performs_bind, ih]

/-- **A transport**: the operations of a client, and the dialogues they
are. -/
structure Transport (γ : Type) (ω : Type := Operation) where
  perform : ω → ClientRun γ Answer
  talk : ω → γ × Rng → Talk γ (Result Answer)
  perform_eq : ∀ op s, perform op s = s.hears (talk op (s.client, s.rng))

/-- **The exchanges of operations one after another.** -/
def exchanges {γ : Type} (perform : Operation → ClientRun γ Answer)
    (ops : List Operation) (s : Station γ) :
    List (List Byte × List Byte) :=
  s.exchangesTo (performAll perform ops s).2

namespace Transport

variable {γ σ ω α : Type}

/-- **A program is a dialogue with the server.** -/
theorem performs_eq (T : Transport γ ω) (d : Program α ω) (s : Station γ) :
    performs T.perform d s = s.hears (d.through T.talk (s.client, s.rng)) := by
  induction d generalizing s with
  | done a => exact (hears_done s a s.client s.rng).symm
  | ask op next ih =>
    rw [performs, T.perform_eq, Dialogue.through, hears_bind]
    exact ih _ _

/-- **What a program comes to with a peer.** -/
theorem performs_of_ensures {T : Transport γ ω}
    {peer : Peer σ (List Byte) (List Byte)} {d : Program α ω} {s : Station γ}
    {state : σ} {P : α × γ × Rng → σ → Prop}
    (h : (d.through T.talk (s.client, s.rng)).Ensures peer state P)
    {state' : σ} (hs : peer.History state
      (s.exchangesTo (performs T.perform d s).2) state') :
    P ((performs T.perform d s).1, (performs T.perform d s).2.client,
      (performs T.perform d s).2.rng) state' := by
  rw [T.performs_eq] at hs ⊢
  exact hears_of_ensures h hs

/-- **What a program comes to on a line that may be late**, if it ends after a
failure, and operations fail when nothing comes back. -/
theorem performs_late {T : Transport γ ω} {failure : Result Answer}
    (hfails : ∀ op k, (T.talk op k).EndsAfter [] fun r => r.1 = failure)
    {peer : Peer σ (List Byte) (List Byte)}
    (hlost : ∀ state q b state', peer state q b state' →
      peer state q [] state')
    {d : Program α ω} (hends : d.EndsAfter failure fun _ => True)
    {s : Station γ} {state : σ} {P : α × γ × Rng → σ → Prop}
    (h : (d.through T.talk (s.client, s.rng)).Ensures peer state P)
    {line : σ × List (List Byte)} (hs : (Peer.Late [] peer).History (state, [])
      (s.exchangesTo (performs T.perform d s).2) line) :
    P ((performs T.perform d s).1, (performs T.perform d s).2.client,
      (performs T.perform d s).2.rng) line.1 :=
  performs_of_ensures
    (Dialogue.ensures_late (hends.through hfails (s.client, s.rng)) hlost h) hs

variable (T : Transport γ)

theorem performAll_eq (ops : List Operation) (s : Station γ) :
    performAll T.perform ops s
      = s.hears (Dialogue.all T.talk ops (s.client, s.rng)) :=
  (performAll_eq_performs T.perform ops s).trans (T.performs_eq _ s)

theorem exchanges_eq (ops : List Operation) (s : Station γ) :
    exchanges T.perform ops s
      = ((Dialogue.all T.talk ops (s.client, s.rng)).hear
          s.serial.incoming).2 := by
  rw [exchanges, T.performAll_eq, exchangesTo_hears]

/-- What a run writes are the frames of its exchanges. -/
theorem written_eq (ops : List Operation) (s : Station γ) :
    (performAll T.perform ops s).2.serial.written
      = s.serial.written ++ (exchanges T.perform ops s).map Prod.fst := by
  rw [T.exchanges_eq, T.performAll_eq]
  rfl

variable {T}

/-- **What operations one after another come to with a peer.** -/
theorem performAll_of_ensures {peer : Peer σ (List Byte) (List Byte)}
    {ops : List Operation} {s : Station γ} {state : σ}
    {P : List (Result Answer) × γ × Rng → σ → Prop}
    (h : (Dialogue.all T.talk ops (s.client, s.rng)).Ensures peer state P)
    {state' : σ} (hs : peer.History state (exchanges T.perform ops s) state') :
    P ((performAll T.perform ops s).1,
      (performAll T.perform ops s).2.client,
      (performAll T.perform ops s).2.rng) state' := by
  rw [exchanges, performAll_eq_performs] at hs
  rw [performAll_eq_performs]
  exact performs_of_ensures h hs

end Transport

/-! ## The dialogues of the HDLC client -/

namespace CosemHdlcClient

/-- **The dialogue of an operation.** -/
def talk : Operation → CosemHdlcClient × Rng →
    Talk CosemHdlcClient (Result Answer)
  | .connect, (client, rng) => .ask (client.frame .snrm) fun reply =>
    match Hdlc.parseSnrmResponse client.hdlcParams reply client.hdlcCtx with
    | (ok true, ctx) =>
      .ask (client.frame (.aarq
        (authenticationValue client.cosem.parameters rng))) fun reply =>
        .done (Hdlc.hdlcFrameParse reply >>= fun _ => ok (.bool true),
          { client with hdlcCtx := ctx },
          rngAfter client.cosem.parameters rng)
    | (r, ctx) => .done (r >>= fun b => ok (.bool b),
        { client with hdlcCtx := ctx }, rng)
  | .getRequest req, (client, rng) => .ask (client.frame (.get req)) fun reply =>
    .done (Hdlc.hdlcFrameParse reply >>= fun frame =>
      parseGetResponse frame.payload >>= fun r => ok (.response r),
      client, rng)
  | .disconnect, (client, rng) => .ask (client.frame .disc) fun reply =>
    .done (Hdlc.parseDiscResponse reply >>= fun b => ok (.bool b), client, rng)

/-- **When nothing comes back, an operation fails.** -/
theorem talk_fails (op : Operation) (k : CosemHdlcClient × Rng) :
    (talk op k).EndsAfter [] fun r => r.1 = throws .invalidHdlcFrame := by
  obtain ⟨client, rng⟩ := k
  cases op with
  | connect =>
    refine ⟨⟨(throws .invalidHdlcFrame, client, rng), rfl, ?_⟩, fun reply => ?_⟩
    · dsimp only
      rw [Hdlc.parseSnrmResponse_of_throws (e := .invalidHdlcFrame) rfl]
      rfl
    · dsimp only
      split
      · refine ⟨⟨_, ?_, rfl⟩, fun _ => trivial⟩
        rfl
      · trivial
  | getRequest req =>
    exact ⟨⟨(throws .invalidHdlcFrame, client, rng), rfl, rfl⟩,
      fun _ => trivial⟩
  | disconnect =>
    exact ⟨⟨(throws .invalidHdlcFrame, client, rng), rfl, rfl⟩,
      fun _ => trivial⟩

/-- Of a client, an operation changes no more than the context of its HDLC
layer. -/
theorem ensures_talk_keeps {σ : Type} (peer : Peer σ (List Byte) (List Byte))
    (op : Operation) (client : CosemHdlcClient) (rng : Rng) (state : σ) :
    (talk op (client, rng)).Ensures peer state fun r _ =>
      r.2.1.hdlcParams = client.hdlcParams ∧ r.2.1.cosem = client.cosem := by
  cases op with
  | connect =>
    intro reply state' _
    dsimp only
    split
    · exact fun _ _ _ => ⟨rfl, rfl⟩
    · exact ⟨rfl, rfl⟩
  | getRequest req => exact fun _ _ _ => ⟨rfl, rfl⟩
  | disconnect => exact fun _ _ _ => ⟨rfl, rfl⟩

/-- What `associate` returns, and the station it leaves. -/
theorem associate_eq_wrote (client : CosemHdlcClient)
    (s : Station CosemHdlcClient) :
    associate client s
      = (Hdlc.hdlcFrameParse s.serial.incoming.head >>= fun _ => ok true,
        ((s.withRng (rngAfter client.cosem.parameters s.rng)).wrote
          (client.frame (.aarq
            (authenticationValue client.cosem.parameters s.rng)))).afterRead) := by
  rw [associate, onRng_bind_ok (serializeAarq_eq _ _), onHdlcCtx_bind,
    Hdlc.serialize_eq]
  simp only [write_bind, read_bind, onHdlcCtx_bind, Hdlc.parse_eq,
    incoming_wrote, serial_withCtx, serial_withRng]
  cases Hdlc.hdlcFrameParse s.serial.incoming.head <;> rfl

theorem connect_eq_hears (s : Station CosemHdlcClient) :
    perform .connect s = s.hears (talk .connect (s.client, s.rng)) := by
  have hsnrm : snrmFrame s = s.client.frame .snrm := rfl
  show StateRun.andThen connect _ s = _
  rw [StateRun.andThen, connect_eq, hsnrm, talk, hears_ask]
  rcases Hdlc.parseSnrmResponse s.client.hdlcParams s.serial.incoming.head
    s.client.hdlcCtx with ⟨r, ctx⟩
  rcases r with (_ | _) | e | x
  · simp only [hears_done]
    rfl
  · simp only [associate_eq_wrote, hears_ask, hears_done, serial_withCtx]
    cases Hdlc.hdlcFrameParse
      (s.wrote (s.client.frame .snrm)).afterRead.serial.incoming.head <;> rfl
  · simp only [hears_done]
    rfl
  · simp only [hears_done]
    rfl

theorem getRequest_eq_hears (req : Request) (s : Station CosemHdlcClient) :
    perform (.getRequest req) s
      = s.hears (talk (.getRequest req) (s.client, s.rng)) := by
  have hget : Hdlc.frameBytes (Hdlc.requestFrame Hdlc.HdlcCommand.commandI
      s.client.hdlcParams (serializeGetRequest s.client.cosem req))
    = s.client.frame (.get req) := rfl
  show StateRun.andThen (getRequest req) _ s = _
  rw [StateRun.andThen, getRequest, getClient_bind, onHdlcCtx_bind,
    Hdlc.serialize_eq, hget, talk, hears_ask, hears_done]
  simp only [write_bind, read_bind, onHdlcCtx_bind, Hdlc.parse_eq,
    incoming_wrote, serial_withCtx]
  rcases Hdlc.hdlcFrameParse s.serial.incoming.head with frame | e | x
  · simp only [ok_bind, StateRun.lift_apply]
    rcases parseGetResponse frame.payload with r | e | x <;> rfl
  · rfl
  · rfl

theorem disconnect_eq_hears (s : Station CosemHdlcClient) :
    perform .disconnect s = s.hears (talk .disconnect (s.client, s.rng)) := by
  have hdisc : Hdlc.serializeDisc s.client.hdlcParams
      = ok (s.client.frame .disc) := Hdlc.getFrame_eq _ _ _
  show StateRun.andThen disconnect _ s = _
  rw [StateRun.andThen, disconnect, getClient_bind, hdisc,
    StateRun.lift_ok_bind, write_bind, read_bind, talk, hears_ask, hears_done]
  simp only [incoming_wrote, StateRun.lift_apply]
  rcases Hdlc.parseDiscResponse s.serial.incoming.head with b | e | x <;> rfl

/-- **The HDLC client.** -/
def transport : Transport CosemHdlcClient where
  perform := perform
  talk := talk
  perform_eq op s := match op with
    | .connect => connect_eq_hears s
    | .getRequest req => getRequest_eq_hears req s
    | .disconnect => disconnect_eq_hears s

end CosemHdlcClient

/-! ## The dialogues of the wrapper client -/

namespace CosemWrapperClient

/-- **The dialogue of an operation.** To disconnect, nothing is said. -/
def talk : Operation → CosemWrapperClient × Rng →
    Talk CosemWrapperClient (Result Answer)
  | .connect, (client, rng) => .ask (client.frame (.aarq
      (authenticationValue client.cosem.parameters rng))) fun reply =>
    .done (Wrapper.parse client.wrapperParams reply >>= fun _ =>
      ok (.bool true), client, rngAfter client.cosem.parameters rng)
  | .getRequest req, (client, rng) => .ask (client.frame (.get req)) fun reply =>
    .done (Wrapper.parse client.wrapperParams reply >>= fun apdu =>
      parseGetResponse apdu >>= fun r => ok (.response r), client, rng)
  | .disconnect, (client, rng) => .done (ok (.bool true), client, rng)

theorem connect_eq_hears (s : Station CosemWrapperClient) :
    perform .connect s = s.hears (talk .connect (s.client, s.rng)) := by
  show StateRun.andThen connect _ s = _
  rw [StateRun.andThen, connect, getClient_bind,
    onRng_bind_ok (serializeAarq_eq _ _), talk, hears_ask, hears_done]
  simp only [write_bind, read_bind, incoming_wrote, serial_withRng]
  rw [lift_bind]
  cases Wrapper.parse s.client.wrapperParams s.serial.incoming.head <;> rfl

theorem getRequest_eq_hears (req : Request)
    (s : Station CosemWrapperClient) :
    perform (.getRequest req) s
      = s.hears (talk (.getRequest req) (s.client, s.rng)) := by
  show StateRun.andThen (getRequest req) _ s = _
  rw [StateRun.andThen, getRequest, getClient_bind, write_bind, read_bind,
    talk, hears_ask, hears_done]
  simp only [incoming_wrote]
  rw [lift_bind]
  rcases Wrapper.parse s.client.wrapperParams s.serial.incoming.head with
    apdu | e | x
  · simp only [ok_bind, StateRun.lift_apply]
    cases parseGetResponse apdu <;> rfl
  · rfl
  · rfl

/-- **The wrapper client.** -/
def transport : Transport CosemWrapperClient where
  perform := perform
  talk := talk
  perform_eq op s := match op with
    | .connect => connect_eq_hears s
    | .getRequest req => getRequest_eq_hears req s
    | .disconnect => (hears_done s (ok (Answer.bool true)) s.client s.rng).symm

end CosemWrapperClient

/-! ## Several clients at one port -/

section
variable {ι γ : Type}

/-- One of several clients at their port. -/
def Station.only (s : Station (ι → γ)) (i : ι) : Station γ :=
  { client := s.client i, serial := s.serial, rng := s.rng }

variable [DecidableEq ι]

/-- All of them, after something that one of them did. -/
def Station.after (s : Station (ι → γ)) (i : ι) (s' : Station γ) :
    Station (ι → γ) :=
  { client := Function.update s.client i s'.client
    serial := s'.serial
    rng := s'.rng }

/-- **An operation of one of several clients.** -/
def performOf (perform : Operation → ClientRun γ Answer) (op : ι × Operation) :
    ClientRun (ι → γ) Answer := fun s =>
  let (r, s') := perform op.2 (s.only op.1)
  (r, s.after op.1 s')

/-- **Operations of several clients**, one after another. -/
def performEach (perform : Operation → ClientRun γ Answer)
    (ops : List (ι × Operation)) (s : Station (ι → γ)) :
    List (Result Answer) × Station (ι → γ) :=
  performs (performOf perform) (Dialogue.inTurn ops) s

/-- **Several clients are a transport**, with the operations of each. -/
def Transport.several (T : Transport γ) :
    Transport (ι → γ) (ι × Operation) where
  perform := performOf T.perform
  talk op k := (T.talk op.2 (k.1 op.1, k.2)).bind fun r =>
    .done (r.1, Function.update k.1 op.1 r.2.1, r.2.2)
  perform_eq op s := by
    simp only [performOf, T.perform_eq, Station.hears, Dialogue.hear_bind,
      Dialogue.hear, List.append_nil]
    rfl

/-- Theirs fail if those of one client do. -/
theorem Transport.several_fails {T : Transport γ} {failure : Result Answer}
    (hfails : ∀ op k, (T.talk op k).EndsAfter [] fun r => r.1 = failure)
    (op : ι × Operation) (k : (ι → γ) × Rng) :
    (T.several.talk op k).EndsAfter [] fun r => r.1 = failure :=
  (hfails op.2 (k.1 op.1, k.2)).bind (fun _ => trivial)
    fun _ hr => ⟨_, hr, rfl⟩

/-- What one client keeps, all keep, if only that one has changed. -/
theorem apply_update_eq {β : Type} {f : γ → β} {clients : ι → γ} {i : ι}
    {client : γ} (h : f client = f (clients i)) (j : ι) :
    f (Function.update clients i client j) = f (clients j) := by
  by_cases hj : j = i
  · subst hj
    rw [Function.update_self, h]
  · rw [Function.update_of_ne hj]

end

/-! ## Any server -/

/-- A station where a port delivers other replies. -/
def Station.withIncoming {γ : Type} (s : Station γ)
    (incoming : Stream' (List Byte)) : Station γ :=
  { s with serial := { s.serial with incoming } }

/-- **A conversation with a server**: operations performed at a station where
the port delivers what the server answers to the frames written, each answer
given with no knowledge of the frames after it. -/
structure Conversation {γ σ : Type} (perform : Operation → ClientRun γ Answer)
    (ops : List Operation) (s : Station γ)
    (react : σ → List Byte → List Byte × σ) (state : σ)
    (rest : Stream' (List Byte)) (sent : List (List Byte)) : Prop where
  written : (performAll perform ops (s.withIncoming
      (Dialogue.replies react state sent ++ₛ rest))).2.serial.written
    = s.serial.written ++ sent
  incoming : (performAll perform ops (s.withIncoming
      (Dialogue.replies react state sent ++ₛ rest))).2.serial.incoming = rest

/-- For every transport there is just one. -/
theorem Transport.existsUnique_conversation {γ σ : Type} (T : Transport γ)
    (ops : List Operation) (s : Station γ)
    (react : σ → List Byte → List Byte × σ) (state : σ)
    (rest : Stream' (List Byte)) :
    ∃! sent, Conversation T.perform ops s react state rest sent := by
  obtain ⟨sent, hsent, hunique⟩ := Dialogue.existsUnique_replies react
    (Dialogue.all T.talk ops (s.client, s.rng)) state rest
  refine ⟨sent, ⟨?_, ?_⟩, fun sent' h => hunique sent' ?_⟩
  · rw [T.performAll_eq]
    exact congrArg (s.serial.written ++ ·) hsent
  · have hlength : (Dialogue.replies react state sent).length = sent.length :=
      Dialogue.length_replies react state sent
    rw [T.performAll_eq]
    show Stream'.drop _ (_ ++ₛ rest) = rest
    rw [← List.length_map (f := Prod.fst), Station.withIncoming, hsent,
      ← hlength, Stream'.drop_append_stream]
  · have hwritten := h.written
    rw [T.performAll_eq] at hwritten
    exact List.append_cancel_left hwritten

/-- **Any server can be talked to, and in one way only.** For every server
that answers each frame from a state of its own, and for all operations at a
station of either client, there is exactly one conversation: one list of
frames such that, with the replies of the server to them, just these are
written and just these replies are read. -/
theorem performAll_existsUnique_conversation {σ : Type}
    (react : σ → List Byte → List Byte × σ) (state : σ)
    (rest : Stream' (List Byte)) (ops : List Operation) :
    (∀ s : Station CosemHdlcClient, ∃! sent,
      Conversation CosemHdlcClient.perform ops s react state rest sent)
    ∧ ∀ s : Station CosemWrapperClient, ∃! sent,
      Conversation CosemWrapperClient.perform ops s react state rest sent :=
  ⟨fun s => CosemHdlcClient.transport.existsUnique_conversation ops s react
      state rest,
    fun s => CosemWrapperClient.transport.existsUnique_conversation ops s react
      state rest⟩

end Dlms
