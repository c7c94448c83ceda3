import Yadi.Client
import Yadi.Session

/-!
# Keys never reach the wire

A client is given keys: `ak` and `guek` in its parameters, `dek` in its
context, and a secret. Of these only the secret is ever read, and only for
low-level security, where it is the password that is sent.

The proof compares two clients of one transport that differ in nothing else
(`SameButKeys`), at ports that deliver the same, with the same random bytes.
Each operation is followed through both clients at once with the rules for
related runs. So they write the same bytes and return the same, operation by
operation, however many there are (`keys_never_written`).
-/

namespace Dlms

open Run

/-! ## Two sets of keys -/

/-- **Two clients' COSEM states that differ in keys only**: the keys, and the
secret where it is not the password of low-level security. -/
structure SameButKeys (c c' : Cosem) : Prop where
  authentication : c.parameters.authentication = c'.parameters.authentication
  security : c.parameters.security = c'.parameters.security
  systemTitle : c.parameters.systemTitle = c'.parameters.systemTitle
  challengerSize : c.parameters.challengerSize = c'.parameters.challengerSize
  secret : c.parameters.authentication = .lls →
    c.parameters.secret = c'.parameters.secret
  maxPduSize : c.context.maxPduSize = c'.context.maxPduSize
  invocationCounter : c.context.invocationCounter = c'.context.invocationCounter
  clientSystemTitle : c.context.clientSystemTitle = c'.context.clientSystemTitle

/-- What a client authenticates itself with does not depend on the keys. -/
theorem SameButKeys.authenticationValue_eq {c c' : Cosem}
    (h : SameButKeys c c') (rng : Rng) :
    authenticationValue c.parameters rng
      = authenticationValue c'.parameters rng := by
  unfold authenticationValue
  rw [← h.authentication, ← h.challengerSize]
  split_ifs with hlls
  · rw [h.secret hlls]
  · rfl

/-- Nor does the calling AP title. -/
theorem SameButKeys.apTitleComponents_eq {c c' : Cosem}
    (h : SameButKeys c c') :
    apTitleComponents c.parameters = apTitleComponents c'.parameters := by
  have hsends : sendsApTitle c.parameters ↔ sendsApTitle c'.parameters := by
    unfold sendsApTitle
    rw [h.security, h.authentication]
  exact if_congr hsends (by rw [h.systemTitle]) rfl

/-- **The association request does not depend on the keys.** -/
theorem SameButKeys.serializeAarq_eq {c c' : Cosem} (h : SameButKeys c c') :
    serializeAarq c = serializeAarq c' := by
  funext rng
  have hcomponents : aarqComponents c.parameters rng
      = aarqComponents c'.parameters rng := by
    unfold aarqComponents authenticationComponents applicationContextName
    rw [h.apTitleComponents_eq, h.authenticationValue_eq, h.authentication,
      h.security]
  rw [Dlms.serializeAarq_eq, Dlms.serializeAarq_eq, aarqTlv, aarqTlv,
    hcomponents, rngAfter, rngAfter, h.authentication, h.challengerSize]

/-! ## Two stations -/

section
variable {γ α : Type} {R : γ → γ → Prop}

/-- **Two stations whose clients are related**, with the same port and the
same random number generator. -/
structure SameStation (R : γ → γ → Prop) (s s' : Station γ) : Prop where
  client : R s.client s'.client
  serial : s.serial = s'.serial
  rng : s.rng = s'.rng

theorem getClient_related :
    StateRun.Related (SameStation R) R (getClient : ClientRun γ γ) getClient :=
  fun _ _ h => ⟨h.client, h⟩

theorem write_related (b : List Byte) :
    StateRun.Related (SameStation R) Eq (write b) (write b) := by
  intro s s' h
  refine ⟨rfl, h.client, ?_, h.rng⟩
  change Serial.mk _ _ = Serial.mk _ _
  rw [h.serial]

theorem read_related :
    StateRun.Related (SameStation R) Eq (read : ClientRun γ (List Byte)) read := by
  intro s s' h
  refine ⟨?_, h.client, ?_, h.rng⟩
  · exact congrArg (fun p : Serial => p.incoming.head) h.serial
  · change Serial.mk _ _ = Serial.mk _ _
    rw [h.serial]

theorem onRng_related (m : RandomRun α) :
    StateRun.Related (SameStation R) Eq (onRng m) (onRng m) := by
  intro s s' h
  unfold onRng
  rw [h.rng]
  exact ⟨Run.Related.same _, h.client, h.serial, rfl⟩

end

/-! ## Over HDLC -/

/-- Two HDLC clients that differ in keys only. -/
structure CosemHdlcClient.SameButKeys (c c' : CosemHdlcClient) : Prop where
  cosem : Dlms.SameButKeys c.cosem c'.cosem
  hdlcCtx : c.hdlcCtx = c'.hdlcCtx
  hdlcParams : c.hdlcParams = c'.hdlcParams

theorem onHdlcCtx_related {α : Type} (m : Hdlc.ContextRun α) :
    StateRun.Related (SameStation CosemHdlcClient.SameButKeys) Eq
      (onHdlcCtx m) (onHdlcCtx m) := by
  intro s s' h
  unfold onHdlcCtx
  rw [h.client.hdlcCtx]
  exact ⟨Run.Related.same _,
    ⟨h.client.cosem, rfl, h.client.hdlcParams⟩, h.serial, h.rng⟩

namespace CosemHdlcClient

theorem associate_related {c c' : CosemHdlcClient} (h : c.SameButKeys c') :
    StateRun.Related (SameStation SameButKeys) Eq (associate c)
      (associate c') := by
  unfold associate
  rw [h.cosem.serializeAarq_eq, h.hdlcParams]
  refine (onRng_related _).bindEq (fun aarq => ?_)
  refine (onHdlcCtx_related _).bindEq (fun frame => ?_)
  refine (write_related frame).bindEq (fun _ => ?_)
  refine read_related.bindEq (fun reply => ?_)
  refine (onHdlcCtx_related _).bindEq (fun apdu => ?_)
  exact .pure rfl

theorem connect_related :
    StateRun.Related (SameStation SameButKeys) Eq connect connect := by
  unfold connect
  refine getClient_related.bind (fun c c' h => ?_)
  rw [h.hdlcParams]
  refine (StateRun.Related.lift (Related.same _)).bindEq (fun snrm => ?_)
  refine (write_related snrm).bindEq (fun _ => ?_)
  refine read_related.bindEq (fun reply => ?_)
  refine (onHdlcCtx_related _).bindEq (fun accepted => ?_)
  by_cases hrefused : (!accepted) = true
  · rw [if_pos hrefused, if_pos hrefused]
    exact .pure rfl
  · rw [if_neg hrefused, if_neg hrefused]
    exact associate_related h

theorem disconnect_related :
    StateRun.Related (SameStation SameButKeys) Eq disconnect disconnect := by
  unfold disconnect
  refine getClient_related.bind (fun c c' h => ?_)
  rw [h.hdlcParams]
  refine (StateRun.Related.lift (Related.same _)).bindEq (fun disc => ?_)
  refine (write_related disc).bindEq (fun _ => ?_)
  refine read_related.bindEq (fun reply => ?_)
  exact .lift (Related.same _)

theorem getRequest_related (req : Request) :
    StateRun.Related (SameStation SameButKeys) Eq (getRequest req)
      (getRequest req) := by
  unfold getRequest
  refine getClient_related.bind (fun c c' h => ?_)
  rw [h.hdlcParams]
  refine (onHdlcCtx_related _).bindEq (fun frame => ?_)
  refine (write_related frame).bindEq (fun _ => ?_)
  refine read_related.bindEq (fun reply => ?_)
  refine (onHdlcCtx_related _).bindEq (fun apdu => ?_)
  exact .lift (Related.same _)

/-- **Every operation of two clients that differ in keys only ends alike.** -/
theorem perform_related (op : Operation) :
    StateRun.Related (SameStation SameButKeys) Eq (perform op)
      (perform op) := by
  cases op with
  | connect => exact connect_related.bind (fun _ _ h => .pure (congrArg _ h))
  | getRequest req =>
    exact (getRequest_related req).bind (fun _ _ h => .pure (congrArg _ h))
  | disconnect =>
    exact disconnect_related.bind (fun _ _ h => .pure (congrArg _ h))

end CosemHdlcClient

/-! ## Over the wrapper -/

/-- Two wrapper clients that differ in keys only. -/
structure CosemWrapperClient.SameButKeys (c c' : CosemWrapperClient) :
    Prop where
  cosem : Dlms.SameButKeys c.cosem c'.cosem
  wrapperParams : c.wrapperParams = c'.wrapperParams

namespace CosemWrapperClient

theorem connect_related :
    StateRun.Related (SameStation SameButKeys) Eq connect connect := by
  unfold connect
  refine getClient_related.bind (fun c c' h => ?_)
  rw [h.cosem.serializeAarq_eq, h.wrapperParams]
  refine (onRng_related _).bindEq (fun aarq => ?_)
  refine (write_related _).bindEq (fun _ => ?_)
  refine read_related.bindEq (fun reply => ?_)
  refine (StateRun.Related.lift (Related.same _)).bindEq (fun apdu => ?_)
  exact .pure rfl

theorem getRequest_related (req : Request) :
    StateRun.Related (SameStation SameButKeys) Eq (getRequest req)
      (getRequest req) := by
  unfold getRequest
  refine getClient_related.bind (fun c c' h => ?_)
  rw [h.wrapperParams]
  refine (write_related _).bindEq (fun _ => ?_)
  refine read_related.bindEq (fun reply => ?_)
  refine (StateRun.Related.lift (Related.same _)).bindEq (fun apdu => ?_)
  exact .lift (Related.same _)

/-- **Every operation of two clients that differ in keys only ends alike.** -/
theorem perform_related (op : Operation) :
    StateRun.Related (SameStation SameButKeys) Eq (perform op)
      (perform op) := by
  cases op with
  | connect => exact connect_related.bind (fun _ _ h => .pure (congrArg _ h))
  | getRequest req =>
    exact (getRequest_related req).bind (fun _ _ h => .pure (congrArg _ h))
  | disconnect => exact .pure rfl

end CosemWrapperClient

/-! ## Any use of a client -/

/-- **What ends alike operation by operation ends alike.** -/
theorem performAll_related {γ : Type} {R : γ → γ → Prop}
    {perform : Operation → ClientRun γ Answer}
    (hop : ∀ op, StateRun.Related (SameStation R) Eq (perform op) (perform op))
    (ops : List Operation) {s s' : Station γ} (h : SameStation R s s') :
    (performAll perform ops s).1 = (performAll perform ops s').1
      ∧ SameStation R (performAll perform ops s).2
        (performAll perform ops s').2 := by
  induction ops generalizing s s' with
  | nil => exact ⟨rfl, h⟩
  | cons op ops ih =>
    obtain ⟨hanswer, hstation⟩ := hop op s s' h
    obtain ⟨hanswers, hend⟩ := ih hstation
    refine ⟨?_, hend⟩
    change _ :: _ = _ :: _
    rw [related_eq_iff.mp hanswer, hanswers]

/-- **Keys never reach the wire.** Two clients of one transport that differ
in keys only, at ports that deliver the same and with the same random bytes,
return and throw the same, operation by operation, and write the same. -/
theorem keys_never_written (ops : List Operation)
    {s s' : Station CosemHdlcClient} {w w' : Station CosemWrapperClient}
    (hs : SameStation CosemHdlcClient.SameButKeys s s')
    (hw : SameStation CosemWrapperClient.SameButKeys w w') :
    ((performAll CosemHdlcClient.perform ops s).1
        = (performAll CosemHdlcClient.perform ops s').1
      ∧ (performAll CosemHdlcClient.perform ops s).2.serial.written
        = (performAll CosemHdlcClient.perform ops s').2.serial.written)
    ∧ ((performAll CosemWrapperClient.perform ops w).1
        = (performAll CosemWrapperClient.perform ops w').1
      ∧ (performAll CosemWrapperClient.perform ops w).2.serial.written
        = (performAll CosemWrapperClient.perform ops w').2.serial.written) := by
  obtain ⟨hs₁, hs₂⟩ :=
    performAll_related CosemHdlcClient.perform_related ops hs
  obtain ⟨hw₁, hw₂⟩ :=
    performAll_related CosemWrapperClient.perform_related ops hw
  exact ⟨⟨hs₁, congrArg Serial.written hs₂.serial⟩, hw₁,
    congrArg Serial.written hw₂.serial⟩

/-- A client's COSEM state with one byte for all keys and for the secret of a
high-level security. -/
def keyedCosem (key : Byte) : Cosem where
  context := { dek := Vector.replicate 16 (Vector.replicate 16 key) }
  parameters :=
    { authentication := .hls
      secret := Vector.replicate 8 key
      ak := Vector.replicate 16 key
      guek := Vector.replicate 16 key }

/-- An HDLC client with such keys, and a server that always answers with the
same UA frame. -/
def hdlcStation (key : Byte) : Station CosemHdlcClient where
  client := { cosem := keyedCosem key }
  serial := { incoming := Stream'.const Hdlc.uaReply, written := [] }
  rng := Stream'.const 0

/-- A wrapper client with such keys, and a server that never answers well. -/
def wrapperStation (key : Byte) : Station CosemWrapperClient where
  client := { cosem := keyedCosem key }
  serial := { incoming := Stream'.const [], written := [] }
  rng := Stream'.const 0

/-- To connect, ask for the time and disconnect. -/
def readClock : List Operation :=
  [.connect, .getRequest ⟨8, ⟨#v[0, 0, 1, 0, 0, 255]⟩, 2, []⟩, .disconnect]

/-- With the keys 0 and 1 the same is written to read the clock. -/
theorem keys_never_written_readClock :
    (performAll CosemHdlcClient.perform readClock
        (hdlcStation 0)).2.serial.written
      = (performAll CosemHdlcClient.perform readClock
          (hdlcStation 1)).2.serial.written
    ∧ (performAll CosemWrapperClient.perform readClock
        (wrapperStation 0)).2.serial.written
      = (performAll CosemWrapperClient.perform readClock
          (wrapperStation 1)).2.serial.written := by
  have hkeys : SameButKeys (keyedCosem 0) (keyedCosem 1) :=
    ⟨rfl, rfl, rfl, rfl, nofun, rfl, rfl, rfl⟩
  obtain ⟨hdlc, wrapper⟩ := keys_never_written readClock
    (show SameStation CosemHdlcClient.SameButKeys (hdlcStation 0)
      (hdlcStation 1) from ⟨⟨hkeys, rfl, rfl⟩, rfl, rfl⟩)
    (show SameStation CosemWrapperClient.SameButKeys (wrapperStation 0)
      (wrapperStation 1) from ⟨⟨hkeys, rfl⟩, rfl, rfl⟩)
  exact ⟨hdlc.2, wrapper.2⟩

end Dlms
