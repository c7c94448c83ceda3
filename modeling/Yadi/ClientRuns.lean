import Yadi.Conversation
import Yadi.Limits

/-!
# What operations come to

Three results about any operations of a client, one after another, whatever
its port delivers. Every operation returns what it is for or throws one of
few exceptions, and none meets a fault on the way
(`performAll_answers`). What they return and throw is a matter of the
replies alone: neither the client, nor its parameters, nor what is asked for
has any influence on it (`performAll_depends_on_replies`). And of an HDLC
client only the negotiated limits change, which are at any time those of a
single reply, as if it were the first (`performAll_context`).
-/

namespace Dlms

open Run

/-! ## The first reply -/

instance (frame : Hdlc.HdlcFrame) : Decidable (Hdlc.Negotiates frame) :=
  decidable_of_iff (3 ≤ frame.payload.length ∧ byteAt frame.payload 0 = 0x80
      ∧ byteAt frame.payload 1 = 0x81
      ∧ frame.cmd = Hdlc.HdlcCommand.responseUa)
    ⟨fun h => ⟨h.1, h.2.1, h.2.2.1, h.2.2.2⟩,
      fun h => ⟨h.length, h.format, h.group, h.cmd⟩⟩

/-- What `parse_snrm_response` answers to a reply. -/
def snrmAnswer (reply : List Byte) : Result Bool :=
  Hdlc.hdlcFrameParse reply >>= fun frame => ok (Hdlc.Negotiates frame)

/-- **The answer depends on the reply only.** -/
theorem parseSnrmResponse_fst (params : Hdlc.HdlcParameters)
    (ctx : Hdlc.HdlcContext) (reply : List Byte) :
    (Hdlc.parseSnrmResponse params reply ctx).1 = snrmAnswer reply := by
  unfold snrmAnswer
  rcases Hdlc.hdlcFrameParse_cases reply with ⟨frame, hparse⟩ | hparse
  · rw [hparse, ok_bind]
    by_cases h : Hdlc.Negotiates frame
    · obtain ⟨ctx', heq, -⟩ := @Hdlc.parseSnrmResponse_of_negotiates params ctx
        reply frame hparse h (fun _ => True) (fun _ _ _ _ => trivial) trivial
      rw [heq, decide_eq_true h]
    · rw [Hdlc.parseSnrmResponse_of_not hparse h, decide_eq_false h]
  · rw [Hdlc.parseSnrmResponse_of_throws hparse, hparse, throws_bind]

/-- It is yes or no, unless the reply is no frame. -/
theorem snrmAnswer_cases (reply : List Byte) :
    (∃ b, snrmAnswer reply = ok b)
      ∨ snrmAnswer reply = throws .invalidHdlcFrame := by
  unfold snrmAnswer
  rcases Hdlc.hdlcFrameParse_cases reply with ⟨frame, hparse⟩ | hparse
  · exact .inl ⟨_, by rw [hparse, ok_bind]⟩
  · exact .inr (by rw [hparse, throws_bind])

/-! ## What an operation of the HDLC client does -/

namespace CosemHdlcClient

/-- `connect` ends with the first reply, unless that negotiates. -/
theorem perform_connect_of_ne {s : Station CosemHdlcClient}
    (h : snrmAnswer s.serial.incoming.head ≠ ok true) :
    perform .connect s
      = (snrmAnswer s.serial.incoming.head >>= fun b => ok (.bool b),
        (s.wrote (s.client.frame .snrm)).afterRead) := by
  obtain ⟨-, -, -, hkeeps⟩ := Hdlc.parseSnrmResponse_keeps s.client.hdlcParams
    s.client.hdlcCtx s.serial.incoming.head
  rw [connect_eq_hears, talk, hears_ask]
  rw [parseSnrmResponse_fst] at hkeeps
  have hparse : Hdlc.parseSnrmResponse s.client.hdlcParams
      s.serial.incoming.head s.client.hdlcCtx
      = (snrmAnswer s.serial.incoming.head, s.client.hdlcCtx) :=
    Prod.ext (parseSnrmResponse_fst _ _ _) (hkeeps h)
  rw [hparse]
  rcases hanswer : snrmAnswer s.serial.incoming.head with (_ | _) | e | x
  · rw [hears_done]
    rfl
  · exact absurd hanswer h
  · rw [hears_done]
    rfl
  · rw [hears_done]
    rfl

/-- `connect` goes on to associate after a reply that negotiates. -/
theorem perform_connect_of_eq {s : Station CosemHdlcClient}
    {ctx : Hdlc.HdlcContext}
    (h : Hdlc.parseSnrmResponse s.client.hdlcParams s.serial.incoming.head
      s.client.hdlcCtx = (ok true, ctx)) :
    perform .connect s
      = (Hdlc.hdlcFrameParse s.serial.incoming.tail.head >>= fun _ =>
          ok (.bool true),
        ((((s.wrote (s.client.frame .snrm)).afterRead.withCtx ctx).withRng
            (rngAfter s.client.cosem.parameters s.rng)).wrote
          (s.client.frame (.aarq (authenticationValue
            s.client.cosem.parameters s.rng)))).afterRead) := by
  rw [connect_eq_hears, talk, hears_ask, h]
  simp only [hears_ask, hears_done]
  rfl

theorem perform_getRequest (req : Request) (s : Station CosemHdlcClient) :
    perform (.getRequest req) s
      = (Hdlc.hdlcFrameParse s.serial.incoming.head >>= fun frame =>
          parseGetResponse frame.payload >>= fun r => ok (.response r),
        (s.wrote (s.client.frame (.get req))).afterRead) := by
  rw [getRequest_eq_hears, talk, hears_ask, hears_done]
  rfl

theorem perform_disconnect (s : Station CosemHdlcClient) :
    perform .disconnect s
      = (Hdlc.parseDiscResponse s.serial.incoming.head >>= fun b =>
          ok (.bool b),
        (s.wrote (s.client.frame .disc)).afterRead) := by
  rw [disconnect_eq_hears, talk, hears_ask, hears_done]
  rfl

end CosemHdlcClient

/-! ## What an operation of the wrapper client does -/

namespace CosemWrapperClient

theorem perform_connect (s : Station CosemWrapperClient) :
    perform .connect s
      = (Wrapper.parse s.client.wrapperParams s.serial.incoming.head >>=
          fun _ => ok (.bool true),
        ((s.withRng (rngAfter s.client.cosem.parameters s.rng)).wrote
          (s.client.frame (.aarq (authenticationValue
            s.client.cosem.parameters s.rng)))).afterRead) := by
  rw [connect_eq_hears, talk, hears_ask, hears_done]
  rfl

theorem perform_getRequest (req : Request)
    (s : Station CosemWrapperClient) :
    perform (.getRequest req) s
      = (Wrapper.parse s.client.wrapperParams s.serial.incoming.head >>=
          fun apdu => parseGetResponse apdu >>= fun r => ok (.response r),
        (s.wrote (s.client.frame (.get req))).afterRead) := by
  rw [getRequest_eq_hears, talk, hears_ask, hears_done]
  rfl

end CosemWrapperClient

/-! ## Answers -/

/-- What `parse_get_response` does: it returns a response or throws. -/
theorem parseGetResponse_cases (data : List Byte) :
    (∃ r, parseGetResponse data = ok r)
      ∨ parseGetResponse data = throws .invalidCosemFrame := by
  rw [parseGetResponse_eq]
  split_ifs
  · exact .inl ⟨_, rfl⟩
  · exact .inr rfl

/-- The exception of a buffer the wrapper refuses. -/
def invalidWrapperData : Exn :=
  .runtimeError "wrapper: received invalid data"

/-- What `wrapper::parse` does: it returns what it was given or throws. -/
theorem Wrapper.parse_cases (params : Wrapper.WrapperParameters)
    (b : List Byte) :
    Wrapper.parse params b = ok b
      ∨ Wrapper.parse params b = throws invalidWrapperData := by
  by_cases h : b.length < 9
  · rw [Wrapper.parse, Wrapper.wrapperFrameComplete, if_pos h]
    exact .inr rfl
  · rw [Wrapper.parse, Wrapper.wrapperFrameComplete_eq (Nat.not_lt.mp h),
      ok_bind]
    split_ifs
    · exact .inr rfl
    · exact .inl rfl

/-- **What an operation of the HDLC client may come to.** -/
def CosemHdlcClient.MayAnswer : Operation → Result Answer → Prop
  | .connect, r | .disconnect, r =>
    (∃ b, r = ok (.bool b)) ∨ r = throws .invalidHdlcFrame
  | .getRequest _, r => (∃ response, r = ok (.response response))
      ∨ r = throws .invalidHdlcFrame ∨ r = throws .invalidCosemFrame

/-- **What an operation of the wrapper client may come to.** It never says
that it is not connected. -/
def CosemWrapperClient.MayAnswer : Operation → Result Answer → Prop
  | .connect, r => r = ok (.bool true) ∨ r = throws invalidWrapperData
  | .disconnect, r => r = ok (.bool true)
  | .getRequest _, r => (∃ response, r = ok (.response response))
      ∨ r = throws invalidWrapperData ∨ r = throws .invalidCosemFrame

theorem CosemHdlcClient.mayAnswer_perform (op : Operation)
    (s : Station CosemHdlcClient) :
    CosemHdlcClient.MayAnswer op (CosemHdlcClient.perform op s).1 := by
  cases op with
  | connect =>
    rcases hsnrm : Hdlc.parseSnrmResponse s.client.hdlcParams
      s.serial.incoming.head s.client.hdlcCtx with ⟨r, ctx⟩
    have hanswer := parseSnrmResponse_fst s.client.hdlcParams
      s.client.hdlcCtx s.serial.incoming.head
    rw [hsnrm] at hanswer
    by_cases h : r = ok true
    · rw [h] at hsnrm
      rw [perform_connect_of_eq hsnrm]
      rcases Hdlc.hdlcFrameParse_cases s.serial.incoming.tail.head with
        ⟨frame, hparse⟩ | hparse
      · exact .inl ⟨true, by rw [hparse]; rfl⟩
      · exact .inr (by rw [hparse]; rfl)
    · obtain rfl : r = snrmAnswer s.serial.incoming.head := hanswer
      rw [perform_connect_of_ne h]
      rcases snrmAnswer_cases s.serial.incoming.head with ⟨b, hb⟩ | hb
      · exact .inl ⟨b, by rw [hb]; rfl⟩
      · exact .inr (by rw [hb]; rfl)
  | getRequest req =>
    rw [perform_getRequest]
    rcases Hdlc.hdlcFrameParse_cases s.serial.incoming.head with
      ⟨frame, hparse⟩ | hparse
    · rw [hparse]
      rcases parseGetResponse_cases frame.payload with ⟨r, hr⟩ | hr
      · exact .inl ⟨r, by rw [ok_bind, hr]; rfl⟩
      · exact .inr (.inr (by rw [ok_bind, hr]; rfl))
    · exact .inr (.inl (by rw [hparse]; rfl))
  | disconnect =>
    rw [perform_disconnect, Hdlc.parseDiscResponse]
    rcases Hdlc.hdlcFrameParse_cases s.serial.incoming.head with
      ⟨frame, hparse⟩ | hparse
    · exact .inl ⟨_, by rw [hparse]; rfl⟩
    · exact .inr (by rw [hparse]; rfl)

theorem CosemWrapperClient.mayAnswer_perform (op : Operation)
    (s : Station CosemWrapperClient) :
    CosemWrapperClient.MayAnswer op (CosemWrapperClient.perform op s).1 := by
  cases op with
  | connect =>
    rw [perform_connect]
    rcases Wrapper.parse_cases s.client.wrapperParams
      s.serial.incoming.head with hparse | hparse
    · exact .inl (by rw [hparse]; rfl)
    · exact .inr (by rw [hparse]; rfl)
  | getRequest req =>
    rw [perform_getRequest]
    rcases Wrapper.parse_cases s.client.wrapperParams
      s.serial.incoming.head with hparse | hparse
    · rw [hparse, ok_bind]
      rcases parseGetResponse_cases s.serial.incoming.head with ⟨r, hr⟩ | hr
      · exact .inl ⟨r, by rw [hr]; rfl⟩
      · exact .inr (.inr (by rw [hr]; rfl))
    · exact .inr (.inl (by rw [hparse]; rfl))
  | disconnect => exact Eq.refl _

/-- What every operation comes to is what each of them does. -/
theorem performAll_forall₂ {γ : Type}
    {perform : Operation → ClientRun γ Answer}
    {P : Operation → Result Answer → Prop}
    (hop : ∀ op s, P op (perform op s).1) (ops : List Operation)
    (s : Station γ) : List.Forall₂ P ops (performAll perform ops s).1 := by
  induction ops generalizing s with
  | nil => exact .nil
  | cons op ops ih => exact .cons (hop op s) (ih _)

/-- **Every operation returns what it is for or throws one of few
exceptions**, in every run of either client and whatever its port delivers.
So none meets a fault, from the first operation to the last: no read leaves a
buffer, and no loop runs on. -/
theorem performAll_answers (ops : List Operation) :
    (∀ s : Station CosemHdlcClient, List.Forall₂ CosemHdlcClient.MayAnswer ops
      (performAll CosemHdlcClient.perform ops s).1)
    ∧ ∀ s : Station CosemWrapperClient,
      List.Forall₂ CosemWrapperClient.MayAnswer ops
        (performAll CosemWrapperClient.perform ops s).1 :=
  ⟨performAll_forall₂ CosemHdlcClient.mayAnswer_perform ops,
    performAll_forall₂ CosemWrapperClient.mayAnswer_perform ops⟩

/-! ## Answers come from the replies -/

/-- Two operations of one kind, whatever is asked for. -/
inductive Operation.Alike : Operation → Operation → Prop
  | connect : Operation.Alike .connect .connect
  | getRequest (req req' : Request) :
      Operation.Alike (.getRequest req) (.getRequest req')
  | disconnect : Operation.Alike .disconnect .disconnect

/-- **Two performances that look at the replies only**: on stations where the
same is delivered, they come to the same and leave the same to be read. -/
def SameReading {γ γ' : Type} (m : ClientRun γ Answer)
    (m' : ClientRun γ' Answer) : Prop :=
  ∀ s s', s.serial.incoming = s'.serial.incoming →
    (m s).1 = (m' s').1
      ∧ (m s).2.serial.incoming = (m' s').2.serial.incoming

theorem CosemHdlcClient.perform_sameReading {op op' : Operation}
    (h : op.Alike op') :
    SameReading (CosemHdlcClient.perform op)
      (CosemHdlcClient.perform op') := by
  intro s s' hincoming
  cases h with
  | connect =>
    by_cases hanswer : snrmAnswer s.serial.incoming.head = ok true
    · -- both negotiate, and each with limits of its own
      obtain ⟨ctx, hctx⟩ : ∃ ctx, Hdlc.parseSnrmResponse s.client.hdlcParams
          s.serial.incoming.head s.client.hdlcCtx = (ok true, ctx) :=
        ⟨_, Prod.ext ((parseSnrmResponse_fst _ _ _).trans hanswer) rfl⟩
      obtain ⟨ctx', hctx'⟩ : ∃ ctx, Hdlc.parseSnrmResponse
          s'.client.hdlcParams s'.serial.incoming.head s'.client.hdlcCtx
            = (ok true, ctx) :=
        ⟨_, Prod.ext ((parseSnrmResponse_fst _ _ _).trans
          (hincoming ▸ hanswer)) rfl⟩
      rw [perform_connect_of_eq hctx, perform_connect_of_eq hctx', hincoming]
      exact ⟨rfl, congrArg (fun i => i.tail.tail) hincoming⟩
    · rw [perform_connect_of_ne hanswer,
        perform_connect_of_ne (hincoming ▸ hanswer), hincoming]
      exact ⟨rfl, congrArg Stream'.tail hincoming⟩
  | getRequest req req' =>
    rw [perform_getRequest, perform_getRequest, hincoming]
    exact ⟨rfl, congrArg Stream'.tail hincoming⟩
  | disconnect =>
    rw [perform_disconnect, perform_disconnect, hincoming]
    exact ⟨rfl, congrArg Stream'.tail hincoming⟩

/-- The wrapper layer does not look at its parameters. -/
theorem Wrapper.parse_params (params params' : Wrapper.WrapperParameters)
    (b : List Byte) : Wrapper.parse params b = Wrapper.parse params' b := rfl

theorem CosemWrapperClient.perform_sameReading {op op' : Operation}
    (h : op.Alike op') :
    SameReading (CosemWrapperClient.perform op)
      (CosemWrapperClient.perform op') := by
  intro s s' hincoming
  cases h with
  | connect =>
    rw [perform_connect, perform_connect, hincoming,
      Wrapper.parse_params _ s'.client.wrapperParams]
    exact ⟨rfl, congrArg Stream'.tail hincoming⟩
  | getRequest req req' =>
    rw [perform_getRequest, perform_getRequest, hincoming,
      Wrapper.parse_params _ s'.client.wrapperParams]
    exact ⟨rfl, congrArg Stream'.tail hincoming⟩
  | disconnect => exact ⟨rfl, hincoming⟩

/-- What looks at the replies only operation by operation does so in a
run. -/
theorem performAll_sameReading {γ γ' : Type}
    {perform : Operation → ClientRun γ Answer}
    {perform' : Operation → ClientRun γ' Answer}
    (hop : ∀ op op', op.Alike op' → SameReading (perform op) (perform' op'))
    {ops ops' : List Operation} (h : List.Forall₂ Operation.Alike ops ops')
    {s : Station γ} {s' : Station γ'}
    (hs : s.serial.incoming = s'.serial.incoming) :
    (performAll perform ops s).1 = (performAll perform' ops' s').1 := by
  induction h generalizing s s' with
  | nil => rfl
  | cons halike _ ih =>
    obtain ⟨hanswer, hincoming⟩ := hop _ _ halike s s' hs
    exact congrArg₂ List.cons hanswer (ih hincoming)

/-- **What the operations come to depends on the replies alone.** At any two
stations of one transport where the same is delivered, whatever clients with
whatever parameters are at them and whatever is asked for, operations of the
same kinds return and throw the same. So a reply is taken for the answer to
the request that happens to be waiting. -/
theorem performAll_depends_on_replies {ops ops' : List Operation}
    (h : List.Forall₂ Operation.Alike ops ops') :
    (∀ s s' : Station CosemHdlcClient,
      s.serial.incoming = s'.serial.incoming →
        (performAll CosemHdlcClient.perform ops s).1
          = (performAll CosemHdlcClient.perform ops' s').1)
    ∧ ∀ s s' : Station CosemWrapperClient,
      s.serial.incoming = s'.serial.incoming →
        (performAll CosemWrapperClient.perform ops s).1
          = (performAll CosemWrapperClient.perform ops' s').1 :=
  ⟨fun _ _ => performAll_sameReading
      (fun _ _ => CosemHdlcClient.perform_sameReading) h,
    fun _ _ => performAll_sameReading
      (fun _ _ => CosemWrapperClient.perform_sameReading) h⟩

/-- To read the clock and to read a register are alike. -/
def clockRequest : Request := ⟨8, .ofBytes 0 0 1 0 0 255, 2, []⟩

/-- The active energy. -/
def energyRequest : Request := ⟨3, .ofBytes 1 0 1 8 0 255, 2, []⟩

/-- The station of a deceived client, with another client at it. -/
def otherStation : Station CosemHdlcClient :=
  { CosemHdlcClient.deceivedStation with
    client := { hdlcParams := { clientAddress := 2 } } }

/-- Two clients that connect, and of which one asks for the clock and the
other for the energy, come to the same. -/
theorem performAll_depends_on_replies_otherStation :
    (performAll CosemHdlcClient.perform [.connect, .getRequest clockRequest]
        CosemHdlcClient.deceivedStation).1
      = (performAll CosemHdlcClient.perform
          [.connect, .getRequest energyRequest] otherStation).1 :=
  (performAll_depends_on_replies
    (.cons .connect (.cons (.getRequest _ _) .nil))).1 _ _ rfl

/-! ## The context of the HDLC client -/

/-- A negotiation from another context with the same counters comes to the
same. -/
theorem parseSnrmResponse_of_counters {params : Hdlc.HdlcParameters}
    {reply : List Byte} {ctx ctx' other : Hdlc.HdlcContext}
    (h : Hdlc.parseSnrmResponse params reply ctx = (ok true, ctx'))
    (hrx : other.rxSss = ctx.rxSss) (htx : other.txSss = ctx.txSss) :
    Hdlc.parseSnrmResponse params reply other = (ok true, ctx') := by
  obtain ⟨other', hother, hsame⟩ := Hdlc.parseSnrmResponse_sameLimits h other
  obtain ⟨hrx', htx', -, -⟩ := Hdlc.parseSnrmResponse_keeps params ctx reply
  obtain ⟨hrx'', htx'', -, -⟩ :=
    Hdlc.parseSnrmResponse_keeps params other reply
  rw [h] at hrx' htx'
  rw [hother] at hrx'' htx''
  rw [hother, hsame.eq (by rw [hrx', hrx'', hrx]) (by rw [htx', htx'', htx])]

/-- **How a station is after some reads**: the client has the context it had
before, or one that a reply read since then negotiates from it, and is
otherwise as it was. -/
structure ReadSince (s s' : Station CosemHdlcClient) (reads : ℕ) : Prop where
  cosem : s'.client.cosem = s.client.cosem
  params : s'.client.hdlcParams = s.client.hdlcParams
  incoming : s'.serial.incoming = s.serial.incoming.drop reads
  context : s'.client.hdlcCtx = s.client.hdlcCtx
    ∨ ∃ n < reads, Hdlc.parseSnrmResponse s.client.hdlcParams
        (s.serial.incoming.get n) s.client.hdlcCtx
      = (ok true, s'.client.hdlcCtx)

/-- The counters are those from before. -/
theorem ReadSince.counters {s s' : Station CosemHdlcClient} {reads : ℕ}
    (h : ReadSince s s' reads) :
    s.client.hdlcCtx.rxSss = s'.client.hdlcCtx.rxSss
      ∧ s.client.hdlcCtx.txSss = s'.client.hdlcCtx.txSss := by
  rcases h.context with hctx | ⟨n, -, hparse⟩
  · rw [hctx]
    exact ⟨rfl, rfl⟩
  · obtain ⟨hrx, htx, -, -⟩ := Hdlc.parseSnrmResponse_keeps
      s.client.hdlcParams s.client.hdlcCtx (s.serial.incoming.get n)
    rw [hparse] at hrx htx
    exact ⟨hrx.symm, htx.symm⟩

theorem ReadSince.trans {s s' s'' : Station CosemHdlcClient} {m n : ℕ}
    (h : ReadSince s s' m) (h' : ReadSince s' s'' n) :
    ReadSince s s'' (m + n) := by
  refine ⟨h'.cosem.trans h.cosem, h'.params.trans h.params, ?_, ?_⟩
  · rw [h'.incoming, h.incoming, Stream'.drop_drop]
  · rcases h'.context with hctx | ⟨k, hk, hparse⟩
    · rw [hctx]
      exact h.context.imp id fun ⟨k, hk, hparse⟩ => ⟨k, by omega, hparse⟩
    · -- the later reply negotiates the same from the first context
      rw [h.params, h.incoming, Stream'.get_drop] at hparse
      exact .inr ⟨m + k, by omega, parseSnrmResponse_of_counters hparse
        h.counters.1 h.counters.2⟩

theorem CosemHdlcClient.perform_readSince (op : Operation)
    (s : Station CosemHdlcClient) :
    ∃ reads, ReadSince s (CosemHdlcClient.perform op s).2 reads := by
  cases op with
  | connect =>
    by_cases hanswer : snrmAnswer s.serial.incoming.head = ok true
    · obtain ⟨ctx, hctx⟩ : ∃ ctx, Hdlc.parseSnrmResponse s.client.hdlcParams
          s.serial.incoming.head s.client.hdlcCtx = (ok true, ctx) :=
        ⟨_, Prod.ext ((parseSnrmResponse_fst _ _ _).trans hanswer) rfl⟩
      rw [perform_connect_of_eq hctx]
      exact ⟨2, rfl, rfl, rfl, .inr ⟨0, by decide, hctx⟩⟩
    · rw [perform_connect_of_ne hanswer]
      exact ⟨1, rfl, rfl, rfl, .inl rfl⟩
  | getRequest req =>
    rw [perform_getRequest]
    exact ⟨1, rfl, rfl, rfl, .inl rfl⟩
  | disconnect =>
    rw [perform_disconnect]
    exact ⟨1, rfl, rfl, rfl, .inl rfl⟩

/-- What operations of an HDLC client read, they read one after another. -/
theorem performAll_readSince (ops : List Operation)
    (s : Station CosemHdlcClient) :
    ∃ reads,
      ReadSince s (performAll CosemHdlcClient.perform ops s).2 reads := by
  induction ops generalizing s with
  | nil => exact ⟨0, rfl, rfl, rfl, .inl rfl⟩
  | cons op ops ih =>
    obtain ⟨m, hop⟩ := CosemHdlcClient.perform_readSince op s
    obtain ⟨n, hops⟩ := ih (CosemHdlcClient.perform op s).2
    exact ⟨m + n, hop.trans hops⟩

/-- **Of an HDLC client only the negotiated limits change.** After any
operations, whatever the port delivered, its parameters and counters are as
before, and so is its context, or it is the one that a single reply among
those read negotiates from the context before: nothing is left of the
negotiations in between. -/
theorem performAll_context (ops : List Operation)
    (s : Station CosemHdlcClient) :
    let s' := (performAll CosemHdlcClient.perform ops s).2
    (∃ reads, ReadSince s s' reads)
      ∧ s'.client.hdlcCtx.rxSss = s.client.hdlcCtx.rxSss
      ∧ s'.client.hdlcCtx.txSss = s.client.hdlcCtx.txSss := by
  obtain ⟨reads, hreads⟩ := performAll_readSince ops s
  exact ⟨⟨reads, hreads⟩, hreads.counters.1.symm, hreads.counters.2.symm⟩

end Dlms
