import Yadi.Addressing
import Yadi.Apdu
import Yadi.ClientRuns
import Yadi.Framing

/-!
# What is said in a run

The frames written in a run are the messages of its operations, in order
(`MaySay`), and the random number generator is used for nothing but the
authentication values among them. `Speech.SaidSince` keeps account of both at
once: each challenge is the block of random bytes behind those of the
challenges before it, and just these blocks are used up. The account of
several clients is that of each, put together in the order of their
operations. So no random byte is in two challenges, however many clients there
are and whatever the operations and the replies are (`challenges_are_fresh`).

A server sees no list of frames but the stream of their bytes. As long as
nothing sent is too long for its length field, it can cut the stream at the
lengths the frames declare, and gets back each message, over HDLC
(`hdlc_stream_decodes`) as over the wrapper (`wrapper_stream_decodes`).
-/

namespace Dlms

open Run

/-! ## Messages and random bytes -/

/-- The authentication value in a message. -/
def Message.value? : Message → Option (List Byte)
  | .aarq value => some value
  | .snrm | .get _ | .disc => none

/-- How many random bytes an association request draws. -/
def challengeLength (params : CosemParameters) : ℕ :=
  if params.authentication = .lowest ∨ params.authentication = .lls then 0
  else params.challengerSize.toNat

theorem rngAfter_eq (params : CosemParameters) (rng : Rng) :
    rngAfter params rng = rng.drop (challengeLength params) := by
  rw [rngAfter, challengeLength]
  split_ifs <;> rfl

/-- **The authentication values of association requests** with these
parameters: each from the random bytes behind those for the ones before it. -/
def freshValues : List CosemParameters → Rng → List (List Byte)
  | [], _ => []
  | params :: ps, rng =>
    authenticationValue params rng
      :: freshValues ps (rng.drop (challengeLength params))

/-- How many random bytes they draw. -/
def drawnLength (ps : List CosemParameters) : ℕ :=
  (ps.map challengeLength).sum

theorem drawnLength_append (ps qs : List CosemParameters) :
    drawnLength (ps ++ qs) = drawnLength ps + drawnLength qs := by
  rw [drawnLength, List.map_append, List.sum_append]
  rfl

theorem freshValues_append (ps qs : List CosemParameters) (rng : Rng) :
    freshValues (ps ++ qs) rng
      = freshValues ps rng ++ freshValues qs (rng.drop (drawnLength ps)) := by
  induction ps generalizing rng with
  | nil => rfl
  | cons params ps ih =>
    rw [List.cons_append, freshValues, ih, Stream'.drop_drop]
    rfl

/-- Each is a value of one of them. -/
theorem exists_of_mem_freshValues {ps : List CosemParameters} {rng : Rng}
    {value : List Byte} (h : value ∈ freshValues ps rng) :
    ∃ params ∈ ps, ∃ rng', value = authenticationValue params rng' := by
  induction ps generalizing rng with
  | nil => exact absurd h List.not_mem_nil
  | cons params ps ih =>
    rcases List.mem_cons.mp h with rfl | h
    · exact ⟨params, List.mem_cons_self, rng, rfl⟩
    · obtain ⟨params', hmem, rng', hvalue⟩ := ih h
      exact ⟨params', List.mem_cons_of_mem _ hmem, rng', hvalue⟩

/-- **How a party says messages**, be it one client or several: what is said
in which frame, and with the parameters of which client. -/
structure Speech (γ μ : Type) where
  message : μ → Message
  params : γ → μ → CosemParameters
  frame : γ → μ → List Byte

namespace Speech

variable {ι γ μ : Type}

/-- A client, which says messages. -/
def ofClient (cosem : γ → Cosem) (frame : γ → Message → List Byte) :
    Speech γ Message where
  message := id
  params client _ := (cosem client).parameters
  frame := frame

/-- Several clients, each of which says messages of its own. -/
def several (speech : Speech γ μ) : Speech (ι → γ) (ι × μ) where
  message m := speech.message m.2
  params clients m := speech.params (clients m.1) m.2
  frame clients m := speech.frame (clients m.1) m.2

/-- The authentication values in messages, each with the parameters it is to
be made with. -/
def drawn (speech : Speech γ μ) (client : γ) (ms : List μ) :
    List (CosemParameters × List Byte) :=
  ms.filterMap fun m =>
    (speech.message m).value?.map (speech.params client m, ·)

/-- **What was said since a station was as it was**: messages, each in its
frame, with fresh authentication values, for which the random bytes are used
up. -/
structure SaidSince (speech : Speech γ μ) (s s' : Station γ)
    (ms : List μ) : Prop where
  params_eq : speech.params s'.client = speech.params s.client
  frame_eq : speech.frame s'.client = speech.frame s.client
  written : s'.serial.written
    = s.serial.written ++ ms.map (speech.frame s.client)
  values : (speech.drawn s.client ms).map Prod.snd
    = freshValues ((speech.drawn s.client ms).map Prod.fst) s.rng
  rng : s'.rng
    = s.rng.drop (drawnLength ((speech.drawn s.client ms).map Prod.fst))

variable {speech : Speech γ μ}

/-- Nothing is said at first. -/
theorem SaidSince.refl (s : Station γ) : speech.SaidSince s s [] :=
  ⟨rfl, rfl, (List.append_nil _).symm, rfl, rfl⟩

/-- A message without an authentication value draws nothing. -/
theorem SaidSince.of_silent {s s' : Station γ} {m : μ}
    (hvalue : (speech.message m).value? = none)
    (hclient : s'.client = s.client)
    (hwritten : s'.serial.written
      = s.serial.written ++ [speech.frame s.client m])
    (hrng : s'.rng = s.rng) : speech.SaidSince s s' [m] := by
  have hdrawn : speech.drawn s.client [m] = [] := by
    simp [drawn, hvalue]
  refine ⟨by rw [hclient], by rw [hclient], hwritten, ?_, ?_⟩
  · rw [hdrawn]
    rfl
  · rw [hdrawn, hrng]
    rfl

/-- **What is said first and what is said then.** -/
theorem SaidSince.trans {s s' s'' : Station γ} {ms ms' : List μ}
    (h : speech.SaidSince s s' ms) (h' : speech.SaidSince s' s'' ms') :
    speech.SaidSince s s'' (ms ++ ms') := by
  have hdrawn : speech.drawn s'.client ms' = speech.drawn s.client ms' := by
    rw [drawn, h.params_eq]
    rfl
  have happend : speech.drawn s.client (ms ++ ms')
      = speech.drawn s.client ms ++ speech.drawn s.client ms' :=
    List.filterMap_append
  refine ⟨h'.params_eq.trans h.params_eq, h'.frame_eq.trans h.frame_eq, ?_,
    ?_, ?_⟩
  · rw [h'.written, h.written, h.frame_eq, List.map_append,
      List.append_assoc]
  · have hvalues := h'.values
    rw [h.rng, hdrawn] at hvalues
    rw [happend, List.map_append, List.map_append, freshValues_append,
      ← h.values, ← hvalues]
  · rw [h'.rng, h.rng, hdrawn, Stream'.drop_drop, happend, List.map_append,
      drawnLength_append]

/-- **What one client says, it says among the others.** -/
theorem SaidSince.among [DecidableEq ι] {s : Station (ι → γ)} {i : ι}
    {s' : Station γ} {ms : List μ} (h : speech.SaidSince (s.only i) s' ms) :
    speech.several.SaidSince s (s.after i s') (ms.map (i, ·)) := by
  have hdrawn : speech.several.drawn s.client (ms.map (i, ·))
      = speech.drawn (s.client i) ms := List.filterMap_map ..
  have hparams : speech.params s'.client = speech.params (s.client i) :=
    h.params_eq
  have hframe : speech.frame s'.client = speech.frame (s.client i) :=
    h.frame_eq
  refine ⟨?_, ?_, ?_, ?_, ?_⟩
  · exact funext fun m => congrFun (apply_update_eq hparams m.1) m.2
  · exact funext fun m => congrFun (apply_update_eq hframe m.1) m.2
  · rw [List.map_map]
    exact h.written
  · rw [hdrawn]
    exact h.values
  · rw [hdrawn]
    exact h.rng

/-- The authentication value in a message is one that is made with parameters
of the party. -/
theorem SaidSince.value_eq {s s' : Station γ} {ms : List μ}
    (h : speech.SaidSince s s' ms) {m : μ} (hm : m ∈ ms) {value : List Byte}
    (hvalue : (speech.message m).value? = some value) :
    ∃ m' ∈ ms, ∃ rng,
      value = authenticationValue (speech.params s.client m') rng := by
  have hmem : value ∈ (speech.drawn s.client ms).map Prod.snd :=
    List.mem_map.mpr ⟨_, List.mem_filterMap.mpr ⟨m, hm, by
      rw [hvalue, Option.map_some]⟩, rfl⟩
  rw [h.values] at hmem
  obtain ⟨params, hparams, rng, rfl⟩ := exists_of_mem_freshValues hmem
  obtain ⟨⟨_, _⟩, hdrawn, rfl⟩ := List.mem_map.mp hparams
  obtain ⟨m', hm', hsome⟩ := List.mem_filterMap.mp hdrawn
  obtain ⟨_, -, hpair⟩ := Option.map_eq_some_iff.mp hsome
  exact ⟨m', hm', rng, congrArg (authenticationValue · rng)
    (congrArg Prod.fst hpair).symm⟩

/-- What is sent in a run are the frames of what is said. -/
theorem SaidSince.sent_eq {T : Transport γ} {speech : Speech γ Message}
    {ops : List Operation} {s : Station γ} {ms : List Message}
    (h : speech.SaidSince s (performAll T.perform ops s).2 ms) :
    (exchanges T.perform ops s).map Prod.fst
      = ms.map (speech.frame s.client) :=
  List.append_cancel_left ((T.written_eq ops s).symm.trans h.written)

end Speech

/-- The HDLC client says messages. -/
def CosemHdlcClient.speech : Speech CosemHdlcClient Message :=
  .ofClient CosemHdlcClient.cosem CosemHdlcClient.frame

/-- The wrapper client says messages. -/
def CosemWrapperClient.speech : Speech CosemWrapperClient Message :=
  .ofClient CosemWrapperClient.cosem CosemWrapperClient.frame

/-- **What an operation of the HDLC client may say.** -/
def CosemHdlcClient.MaySay : Operation → List Message → Prop
  | .connect, ms => ms = [.snrm] ∨ ∃ value, ms = [.snrm, .aarq value]
  | .getRequest req, ms => ms = [.get req]
  | .disconnect, ms => ms = [.disc]

/-- **What an operation of the wrapper client says.** -/
def CosemWrapperClient.MaySay : Operation → List Message → Prop
  | .connect, ms => ∃ value, ms = [.aarq value]
  | .getRequest req, ms => ms = [.get req]
  | .disconnect, ms => ms = []

theorem CosemHdlcClient.perform_said (op : Operation)
    (s : Station CosemHdlcClient) :
    ∃ ms, CosemHdlcClient.MaySay op ms
      ∧ CosemHdlcClient.speech.SaidSince s (CosemHdlcClient.perform op s).2
        ms := by
  cases op with
  | connect =>
    by_cases hanswer : snrmAnswer s.serial.incoming.head = ok true
    · obtain ⟨ctx, hctx⟩ : ∃ ctx, Hdlc.parseSnrmResponse s.client.hdlcParams
          s.serial.incoming.head s.client.hdlcCtx = (ok true, ctx) :=
        ⟨_, Prod.ext ((parseSnrmResponse_fst _ _ _).trans hanswer) rfl⟩
      rw [perform_connect_of_eq hctx]
      exact ⟨_, .inr ⟨_, rfl⟩, rfl, rfl, List.append_assoc _ _ _, rfl,
        rngAfter_eq _ _⟩
    · rw [perform_connect_of_ne hanswer]
      exact ⟨_, .inl rfl, .of_silent rfl rfl rfl rfl⟩
  | getRequest req =>
    rw [perform_getRequest]
    exact ⟨_, rfl, .of_silent rfl rfl rfl rfl⟩
  | disconnect =>
    rw [perform_disconnect]
    exact ⟨_, rfl, .of_silent rfl rfl rfl rfl⟩

theorem CosemWrapperClient.perform_said (op : Operation)
    (s : Station CosemWrapperClient) :
    ∃ ms, CosemWrapperClient.MaySay op ms
      ∧ CosemWrapperClient.speech.SaidSince s
        (CosemWrapperClient.perform op s).2 ms := by
  cases op with
  | connect =>
    rw [perform_connect]
    exact ⟨_, ⟨_, rfl⟩, rfl, rfl, rfl, rfl, rngAfter_eq _ _⟩
  | getRequest req =>
    rw [perform_getRequest]
    exact ⟨_, rfl, .of_silent rfl rfl rfl rfl⟩
  | disconnect => exact ⟨_, rfl, .refl s⟩

/-- What is said operation by operation is said in a run. -/
theorem performs_said {γ ω μ : Type} {speech : Speech γ μ}
    {perform : ω → ClientRun γ Answer} {maySay : ω → List μ → Prop}
    (hop : ∀ op s, ∃ ms, maySay op ms
      ∧ speech.SaidSince s (perform op s).2 ms)
    (ops : List ω) (s : Station γ) :
    ∃ mss, List.Forall₂ maySay ops mss
      ∧ speech.SaidSince s
        (performs perform (Dialogue.inTurn ops) s).2 mss.flatten := by
  induction ops generalizing s with
  | nil => exact ⟨[], .nil, .refl s⟩
  | cons op ops ih =>
    obtain ⟨ms, hmay, hsaid⟩ := hop op s
    obtain ⟨mss, hmays, hsaids⟩ := ih (perform op s).2
    refine ⟨ms :: mss, .cons hmay hmays, ?_⟩
    simp only [Dialogue.inTurn, performs, performs_bind]
    exact hsaid.trans hsaids

/-- In a run of one client. -/
theorem performAll_said {γ : Type} {speech : Speech γ Message}
    {perform : Operation → ClientRun γ Answer}
    {maySay : Operation → List Message → Prop}
    (hop : ∀ op s, ∃ ms, maySay op ms
      ∧ speech.SaidSince s (perform op s).2 ms)
    (ops : List Operation) (s : Station γ) :
    ∃ mss, List.Forall₂ maySay ops mss
      ∧ speech.SaidSince s (performAll perform ops s).2 mss.flatten := by
  rw [performAll_eq_performs]
  exact performs_said hop ops s

/-- **What one of several clients may say.** -/
def SaysAmong {ι : Type} (maySay : Operation → List Message → Prop)
    (op : ι × Operation) (ms : List (ι × Message)) : Prop :=
  ∃ ms', maySay op.2 ms' ∧ ms = ms'.map (op.1, ·)

/-- In a run of several clients. -/
theorem performEach_said {ι γ : Type} [DecidableEq ι]
    {speech : Speech γ Message} {perform : Operation → ClientRun γ Answer}
    {maySay : Operation → List Message → Prop}
    (hop : ∀ op s, ∃ ms, maySay op ms
      ∧ speech.SaidSince s (perform op s).2 ms)
    (ops : List (ι × Operation)) (s : Station (ι → γ)) :
    ∃ mss, List.Forall₂ (SaysAmong maySay) ops mss
      ∧ speech.several.SaidSince s (performEach perform ops s).2
        mss.flatten := by
  refine performs_said (fun op s => ?_) ops s
  obtain ⟨ms, hmay, hsaid⟩ := hop op.2 (s.only op.1)
  exact ⟨_, ⟨ms, hmay, rfl⟩, hsaid.among⟩

/-- **Challenges are fresh.** However many clients of either kind share the
random number generator, and in whatever order their operations come: the
frames written are those of the messages of the operations in order, the
authentication values among them come one after another from the random bytes
there were at the beginning, and just these are used up. So no random byte is
sent in two challenges. -/
theorem challenges_are_fresh {ι : Type} [DecidableEq ι]
    (ops : List (ι × Operation)) :
    (∀ s : Station (ι → CosemHdlcClient), ∃ mss,
      List.Forall₂ (SaysAmong CosemHdlcClient.MaySay) ops mss
        ∧ CosemHdlcClient.speech.several.SaidSince s
          (performEach CosemHdlcClient.perform ops s).2 mss.flatten)
    ∧ ∀ s : Station (ι → CosemWrapperClient), ∃ mss,
      List.Forall₂ (SaysAmong CosemWrapperClient.MaySay) ops mss
        ∧ CosemWrapperClient.speech.several.SaidSince s
          (performEach CosemWrapperClient.perform ops s).2 mss.flatten :=
  ⟨performEach_said CosemHdlcClient.perform_said ops,
    performEach_said CosemWrapperClient.perform_said ops⟩

/-! ## Which messages are said -/

/-- What is said belongs to an operation. -/
theorem exists_of_mem_flatten {α β : Type} {R : α → List β → Prop}
    {as : List α} {bss : List (List β)} (h : List.Forall₂ R as bss) {b : β}
    (hb : b ∈ bss.flatten) : ∃ a ∈ as, ∃ bs, R a bs ∧ b ∈ bs := by
  induction h with
  | nil => exact absurd hb List.not_mem_nil
  | cons hR _ ih =>
    rw [List.flatten_cons, List.mem_append] at hb
    rcases hb with hb | hb
    · exact ⟨_, List.mem_cons_self, _, hR, hb⟩
    · obtain ⟨a, ha, hbs⟩ := ih hb
      exact ⟨a, List.mem_cons_of_mem _ ha, hbs⟩

/-- A get request is said for an operation that makes it. -/
theorem CosemHdlcClient.MaySay.of_get {op : Operation} {ms : List Message}
    {req : Request} (h : CosemHdlcClient.MaySay op ms)
    (hmem : .get req ∈ ms) : op = .getRequest req := by
  cases op with
  | connect =>
    rcases h with rfl | ⟨value, rfl⟩ <;> simp at hmem
  | getRequest req' =>
    obtain rfl : ms = [.get req'] := h
    rw [List.mem_singleton, Message.get.injEq] at hmem
    rw [hmem]
  | disconnect =>
    obtain rfl : ms = [.disc] := h
    simp at hmem

/-- The length of an association request. -/
def aarqLength (params : CosemParameters) : ℕ :=
  34 + (if sendsApTitle params then 12 else 0)
    + if params.authentication = .lowest then 0
      else 17 + if params.authentication = .lls then 8
        else params.challengerSize.toNat

theorem length_aarqWith (params : CosemParameters) (rng : Rng) :
    (aarqWith params (authenticationValue params rng)).length
      = aarqLength params := by
  rw [aarqWith_authenticationValue, Ber.Tlv.length_short]
  show (Ber.shorts (aarqComponents params rng)).length + 2 = _
  rw [length_shorts_aarqComponents, aarqLength, authenticationValue]
  by_cases hlowest : params.authentication = .lowest
  · rw [if_neg (not_not.mpr hlowest), if_pos hlowest]
    omega
  · rw [if_pos hlowest, if_neg hlowest]
    by_cases hlls : params.authentication = .lls
    · rw [if_pos hlls, if_pos hlls, Vector.length_toList]
      omega
    · rw [if_neg hlls, if_neg hlls, Stream'.length_take]
      omega

theorem length_serializeGetRequest (cosem : Cosem) (req : Request) :
    (serializeGetRequest cosem req).length = 13 + req.data.length := by
  obtain ⟨n₀, n₁, n₂, n₃, n₄, n₅, -, heq⟩ := serializeRequest_eq cosem .get req
  rw [show serializeGetRequest cosem req = serializeRequest cosem .get req
    from rfl, heq]
  simp only [List.length_cons]
  omega

/-! ## The stream over HDLC -/

/-- The length of the first frame of a stream. -/
def Hdlc.frameLength (b : List Byte) : ℕ := Hdlc.lengthField b + 2

/-- A frame that declares its length can be cut off a stream. -/
theorem Hdlc.DeclaresLength.selfDelimiting {b : List Byte}
    (h : Hdlc.DeclaresLength b) (hlen : 3 ≤ b.length) :
    Framing.SelfDelimiting Hdlc.frameLength b := by
  refine ⟨List.length_pos_iff.mp (by omega), fun rest => ?_⟩
  have hfield : Hdlc.lengthField (b ++ rest) = Hdlc.lengthField b := by
    rw [Hdlc.lengthField, Hdlc.lengthField, byteAt_append_left _ (by omega),
      byteAt_append_left _ (by omega)]
  rw [Hdlc.frameLength, hfield, h.length_eq]
  omega

/-- **What a server reads in the frame of a message.** -/
def CosemHdlcClient.request (client : CosemHdlcClient) (m : Message) :
    Hdlc.Request :=
  (Hdlc.requestFrame m.cmd client.hdlcParams (client.payload m)).request

/-- What is in an information frame, and is not too long for it. -/
theorem CosemHdlcClient.payload_ne_nil (client : CosemHdlcClient)
    {m : Message} (h : m.cmd = Hdlc.HdlcCommand.commandI) :
    client.payload m ≠ [] := by
  cases m with
  | snrm => exact absurd h (by decide)
  | aarq value => exact List.cons_ne_nil _ _
  | get req =>
    refine List.length_pos_iff.mp ?_
    show 0 < (serializeGetRequest client.cosem req).length
    rw [length_serializeGetRequest]
    omega
  | disc => exact absurd h (by decide)

/-- A message that is short enough is sent in a frame that declares its
length. -/
theorem CosemHdlcClient.declaresLength_frame (client : CosemHdlcClient)
    {m : Message} (h : (client.payload m).length ≤ 4080) :
    Hdlc.DeclaresLength (client.frame m) := by
  rw [frame, Hdlc.declaresLength_frameBytes_iff, Hdlc.length_requestFrame]
  refine ⟨fun hcmd => client.payload_ne_nil hcmd, ?_⟩
  split_ifs <;> omega

theorem Message.cmd_mem (m : Message) :
    m.cmd ∈ Hdlc.HdlcCommand.enumerators := by
  cases m with
  | snrm =>
    show Hdlc.HdlcCommand.commandSnrm ∈ Hdlc.HdlcCommand.enumerators
    decide
  | aarq _ | get _ =>
    show Hdlc.HdlcCommand.commandI ∈ Hdlc.HdlcCommand.enumerators
    decide
  | disc =>
    show Hdlc.HdlcCommand.commandDisc ∈ Hdlc.HdlcCommand.enumerators
    decide

/-- The fields of a frame fit, from parameters the client can be addressed
by. -/
theorem CosemHdlcClient.sendable {client : CosemHdlcClient}
    (h : client.hdlcParams.Encodable) (m : Message) :
    Hdlc.Sendable
      (Hdlc.requestFrame m.cmd client.hdlcParams (client.payload m)) :=
  ⟨m.cmd_mem, h.client, h.logical, h.physical,
    show (0 : Byte).toNat < 8 by decide, show (1 : Byte).toNat < 8 by decide,
    fun hcmd => client.payload_ne_nil hcmd⟩

/-- **The server reads what was to be said.** -/
theorem CosemHdlcClient.decodeRequest_frame {client : CosemHdlcClient}
    (h : client.hdlcParams.Encodable) (m : Message) :
    Hdlc.decodeRequest (client.frame m) = some (client.request m) :=
  Hdlc.decodeRequest_frameBytes (client.sendable h m)

/-- A message that is short enough is sent in a well-formed frame. -/
theorem CosemHdlcClient.wellFormed_frame {client : CosemHdlcClient}
    (h : client.hdlcParams.Encodable) {m : Message}
    (hlen : (client.payload m).length ≤ 4080) :
    Hdlc.WellFormed (client.frame m) := by
  refine Hdlc.wellFormed_frameBytes (client.sendable h m) ?_
  rw [Hdlc.length_requestFrame]
  split_ifs <;> omega

/-- What is said in a run fits frames, if the requests of the operations
do. -/
theorem CosemHdlcClient.length_payload_le {ops : List Operation}
    {mss : List (List Message)} {s s' : Station CosemHdlcClient}
    (hmay : List.Forall₂ CosemHdlcClient.MaySay ops mss)
    (hsaid : CosemHdlcClient.speech.SaidSince s s' mss.flatten)
    (haarq : aarqLength s.client.cosem.parameters ≤ 4080)
    (hdata : ∀ req, .getRequest req ∈ ops → req.data.length ≤ 4067)
    {m : Message} (hm : m ∈ mss.flatten) :
    (s.client.payload m).length ≤ 4080 := by
  cases m with
  | snrm =>
    have htx := Hdlc.length_limitParameter_le 0x05
      s.client.hdlcParams.maxInformationFieldLengthTx
    have hrx := Hdlc.length_limitParameter_le 0x06
      s.client.hdlcParams.maxInformationFieldLengthRx
    rw [CosemHdlcClient.payload, List.length_append]
    omega
  | aarq value =>
    obtain ⟨-, -, rng, rfl⟩ := hsaid.value_eq hm rfl
    exact (length_aarqWith _ rng).trans_le haarq
  | get req =>
    obtain ⟨op, hop, ms, hsay, hmem⟩ := exists_of_mem_flatten hmay hm
    have hreq := hdata req (CosemHdlcClient.MaySay.of_get hsay hmem ▸ hop)
    rw [CosemHdlcClient.payload, length_serializeGetRequest]
    omega
  | disc => exact Nat.zero_le _

/-- **A server can follow an HDLC client.** If the addresses of the client fit
and no request is too long for a frame, the bytes written in a run, put one
behind the other, are cut by the lengths they declare into the frames that
were written, and a server reads in these the messages of the operations, with
the authentication values that were drawn for them. -/
theorem hdlc_stream_decodes (ops : List Operation)
    (s : Station CosemHdlcClient) (hparams : s.client.hdlcParams.Encodable)
    (haarq : aarqLength s.client.cosem.parameters ≤ 4080)
    (hdata : ∀ req, .getRequest req ∈ ops → req.data.length ≤ 4067) :
    ∃ mss, List.Forall₂ CosemHdlcClient.MaySay ops mss
      ∧ CosemHdlcClient.speech.SaidSince s
        (performAll CosemHdlcClient.perform ops s).2 mss.flatten ∧
      let sent := (exchanges CosemHdlcClient.perform ops s).map Prod.fst
      Framing.split Hdlc.frameLength sent.flatten.length sent.flatten = sent
        ∧ sent.map Hdlc.decodeRequest
          = mss.flatten.map (fun m => some (s.client.request m)) := by
  obtain ⟨mss, hmay, hsaid⟩ :=
    performAll_said CosemHdlcClient.perform_said ops s
  have hsent : (exchanges CosemHdlcClient.perform ops s).map Prod.fst
      = mss.flatten.map s.client.frame :=
    Speech.SaidSince.sent_eq (T := CosemHdlcClient.transport) hsaid
  refine ⟨mss, hmay, hsaid, Framing.split_length_flatten fun b hb => ?_, ?_⟩
  · rw [hsent] at hb
    obtain ⟨m, hm, rfl⟩ := List.mem_map.mp hb
    have hshort := CosemHdlcClient.length_payload_le hmay hsaid haarq hdata hm
    refine (s.client.declaresLength_frame hshort).selfDelimiting ?_
    rw [CosemHdlcClient.frame, Hdlc.length_requestFrame]
    omega
  · rw [hsent, List.map_map]
    exact List.map_congr_left fun m _ =>
      CosemHdlcClient.decodeRequest_frame hparams m

/-- To connect over HDLC with a challenge of four bytes, to a server that
agrees to the connection. -/
def challengingStation : Station CosemHdlcClient where
  client :=
    { cosem :=
        { parameters := { authentication := .hlsMd5, challengerSize := 4 } } }
  serial :=
    { incoming := Stream'.cons Hdlc.uaReply (Stream'.const Hdlc.replyFrame)
      written := [] }
  rng := Stream'.nats.map (BitVec.ofNat 8)

/-- The server reads the request to connect, and the association request with
the first four random bytes. -/
theorem hdlc_stream_decodes_challengingStation :
    ((exchanges CosemHdlcClient.perform [.connect] challengingStation).map
        Prod.fst).map Hdlc.decodeRequest
      = [.snrm, .aarq [0, 1, 2, 3]].map fun m =>
          some (challengingStation.client.request m) := by
  obtain ⟨mss, hmay, hsaid, -, hdecode⟩ :=
    hdlc_stream_decodes [.connect] challengingStation
      ⟨by decide, by decide, by decide⟩ (by decide) (by
        intro req hreq
        cases List.mem_singleton.mp hreq)
  obtain ⟨ms, _, hms, hnil, rfl⟩ := List.forall₂_cons_left_iff.mp hmay
  obtain rfl := List.forall₂_nil_left_iff.mp hnil
  have hvalues := hsaid.values
  have hwritten := hsaid.written
  rcases hms with rfl | ⟨value, rfl⟩
  · -- two frames are written
    have htwo : (performAll CosemHdlcClient.perform [.connect]
        challengingStation).2.serial.written.length = 2 := by decide +kernel
    rw [hwritten] at htwo
    cases htwo
  · obtain rfl : value = [0, 1, 2, 3] := (List.cons.inj hvalues).1
    exact hdecode

/-! ## The stream over the wrapper -/

/-- The length of the first frame of a stream. -/
def Wrapper.frameLength (b : List Byte) : ℕ := Wrapper.lengthField b + 8

/-- An APDU that fits the length field is sent in a frame that can be cut off
a stream. -/
theorem Wrapper.selfDelimiting_serialize (params : Wrapper.WrapperParameters)
    {data : List Byte} (h : data.length < 2 ^ 16) :
    Framing.SelfDelimiting Wrapper.frameLength
      (Wrapper.serialize params data) := by
  have hlength := Wrapper.length_serialize params data
  refine ⟨List.cons_ne_nil _ _, fun rest => ?_⟩
  have hfield : Wrapper.lengthField (Wrapper.serialize params data ++ rest)
      = Wrapper.lengthField (Wrapper.serialize params data) := by
    rw [Wrapper.lengthField, Wrapper.lengthField,
      byteAt_append_left _ (by omega), byteAt_append_left _ (by omega)]
  rw [Wrapper.frameLength, hfield, Wrapper.lengthField_serialize, hlength,
    Nat.mod_eq_of_lt h]

/-- **What a server reads in the frame of a message**, the APDU. -/
def CosemWrapperClient.apdu (client : CosemWrapperClient) :
    Message → List Byte
  | .aarq value => aarqWith client.cosem.parameters value
  | .get req => serializeGetRequest client.cosem req
  | .snrm | .disc => []

/-- Over the wrapper there are only two kinds of messages. -/
theorem CosemWrapperClient.MaySay.cases {op : Operation} {ms : List Message}
    {m : Message} (h : CosemWrapperClient.MaySay op ms) (hm : m ∈ ms) :
    (∃ value, m = .aarq value) ∨ ∃ req, m = .get req ∧ op = .getRequest req := by
  cases op with
  | connect =>
    obtain ⟨value, rfl⟩ := h
    exact .inl ⟨value, List.mem_singleton.mp hm⟩
  | getRequest req =>
    obtain rfl : ms = [.get req] := h
    exact .inr ⟨req, List.mem_singleton.mp hm, rfl⟩
  | disconnect =>
    obtain rfl : ms = [] := h
    exact absurd hm List.not_mem_nil

/-- What is said in a run is in frames, and fits them, if the requests of the
operations do. -/
theorem CosemWrapperClient.frame_eq_serialize {ops : List Operation}
    {mss : List (List Message)} {s s' : Station CosemWrapperClient}
    (hmay : List.Forall₂ CosemWrapperClient.MaySay ops mss)
    (hsaid : CosemWrapperClient.speech.SaidSince s s' mss.flatten)
    (haarq : aarqLength s.client.cosem.parameters < 2 ^ 16)
    (hdata : ∀ req, .getRequest req ∈ ops → 13 + req.data.length < 2 ^ 16)
    {m : Message} (hm : m ∈ mss.flatten) :
    s.client.frame m
        = Wrapper.serialize s.client.wrapperParams (s.client.apdu m)
      ∧ (s.client.apdu m).length < 2 ^ 16 := by
  obtain ⟨op, hop, ms, hsay, hmem⟩ := exists_of_mem_flatten hmay hm
  rcases hsay.cases hmem with ⟨value, rfl⟩ | ⟨req, rfl, rfl⟩
  · obtain ⟨-, -, rng, rfl⟩ := hsaid.value_eq hm rfl
    exact ⟨rfl, (length_aarqWith _ rng).trans_lt haarq⟩
  · exact ⟨rfl, (length_serializeGetRequest s.client.cosem req).trans_lt
      (hdata req hop)⟩

/-- **A server can follow a wrapper client.** If no request is too long for
the length field, the bytes written in a run, put one behind the other, are
cut by the lengths they declare into the frames that were written, and behind
the header of each a server finds the APDU of a message of the operations,
with the authentication value that was drawn for it. -/
theorem wrapper_stream_decodes (ops : List Operation)
    (s : Station CosemWrapperClient)
    (haarq : aarqLength s.client.cosem.parameters < 2 ^ 16)
    (hdata : ∀ req, .getRequest req ∈ ops → 13 + req.data.length < 2 ^ 16) :
    ∃ mss, List.Forall₂ CosemWrapperClient.MaySay ops mss
      ∧ CosemWrapperClient.speech.SaidSince s
        (performAll CosemWrapperClient.perform ops s).2 mss.flatten ∧
      let sent := (exchanges CosemWrapperClient.perform ops s).map Prod.fst
      Framing.split Wrapper.frameLength sent.flatten.length sent.flatten = sent
        ∧ sent.map (List.drop 8) = mss.flatten.map s.client.apdu := by
  obtain ⟨mss, hmay, hsaid⟩ :=
    performAll_said CosemWrapperClient.perform_said ops s
  have hsent : (exchanges CosemWrapperClient.perform ops s).map Prod.fst
      = mss.flatten.map s.client.frame :=
    Speech.SaidSince.sent_eq (T := CosemWrapperClient.transport) hsaid
  refine ⟨mss, hmay, hsaid, Framing.split_length_flatten fun b hb => ?_, ?_⟩
  · rw [hsent] at hb
    obtain ⟨m, hm, rfl⟩ := List.mem_map.mp hb
    obtain ⟨hframe, hlen⟩ :=
      CosemWrapperClient.frame_eq_serialize hmay hsaid haarq hdata hm
    rw [hframe]
    exact Wrapper.selfDelimiting_serialize _ hlen
  · rw [hsent, List.map_map]
    refine List.map_congr_left fun m hm => ?_
    rw [Function.comp_apply, (CosemWrapperClient.frame_eq_serialize hmay hsaid
      haarq hdata hm).1]
    rfl

/-- To read the clock over the wrapper, where nobody answers. -/
def silentWrapperStation : Station CosemWrapperClient where
  client :=
    { cosem :=
        { parameters := { authentication := .hlsMd5, challengerSize := 4 } } }
  serial := { incoming := Stream'.const [], written := [] }
  rng := Stream'.nats.map (BitVec.ofNat 8)

/-- The server finds the association request with the first four random
bytes, and the request to get the clock. -/
theorem wrapper_stream_decodes_silentStation :
    ((exchanges CosemWrapperClient.perform
        [.connect, .getRequest clockRequest] silentWrapperStation).map
          Prod.fst).map (List.drop 8)
      = [.aarq [0, 1, 2, 3], .get clockRequest].map
          silentWrapperStation.client.apdu := by
  obtain ⟨mss, hmay, hsaid, -, hdecode⟩ :=
    wrapper_stream_decodes [.connect, .getRequest clockRequest]
      silentWrapperStation (by decide) (by
        intro req hreq
        simp only [List.mem_cons, reduceCtorEq, List.not_mem_nil, or_false,
          false_or, Operation.getRequest.injEq] at hreq
        rw [hreq]
        decide)
  obtain ⟨_, _, ⟨value, rfl⟩, hrest, rfl⟩ :=
    List.forall₂_cons_left_iff.mp hmay
  obtain ⟨_, _, rfl, hnil, rfl⟩ := List.forall₂_cons_left_iff.mp hrest
  obtain rfl := List.forall₂_nil_left_iff.mp hnil
  obtain rfl : value = [0, 1, 2, 3] := (List.cons.inj hsaid.values).1
  exact hdecode

end Dlms
