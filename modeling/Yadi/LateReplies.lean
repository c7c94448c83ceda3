import Yadi.Clients

/-!
# Replies that come late

On a noisy line nothing gets to the wrong request: what is lost is lost, and a
reply that is read is the one to the frame before it. A line that is late is
another matter, since the clients compare neither the addresses and numbers of
a frame nor the invoke-id of a response with what they have sent.

What remains is the order. Whatever comes late and whatever is lost, the
responses are answers to some of the get requests, in the order of these, and
no request is answered twice (`late_responses`). Which of them they answer
nobody can tell. A single reply that comes after its time is up is never made
up for: every request from then on is answered with the attribute the one before
it asked for, be it that of another meter, and no operation notices
(`late_answers`).

The way out is to give up. What clients that stop when an operation fails have
done until then is a session of each with its meter, just as if nothing had
come late (`late_sessions`).
-/

namespace Dlms

open Run Hdlc

/-! ## Responses -/

/-- What the client makes of a reply to a get request. -/
def getAnswer (reply : List Byte) : Result Answer :=
  hdlcFrameParse reply >>= fun frame =>
    parseGetResponse frame.payload >>= fun r => ok (.response r)

/-- The response that is returned, if one is. -/
def responseOf : Result Answer → Option Response
  | ok (.response r) => some r
  | _ => none

/-- An operation that returns whether it was successful returns none. -/
theorem responseOf_bind_bool {α : Type} (m : Result α) (f : α → Bool) :
    responseOf (m >>= fun a => ok (.bool (f a))) = none := by
  cases m <;> rfl

/-- A reply that reads through comes to what its payload does. -/
theorem getAnswer_of_readsThrough {b : List Byte} {cmd : HdlcCommand}
    {payload : List Byte} (h : IsReply b cmd payload) (hread : ReadsThrough b) :
    getAnswer b
      = parseGetResponse payload >>= fun r => ok (.response r) := by
  obtain ⟨frame, hparse, -, rfl⟩ := hdlcFrameParse_of_readsThrough h hread
  rw [getAnswer, hparse, ok_bind]

/-- A vector that is refused is no response. -/
theorem responseOf_getAnswer_of_throws {b : List Byte} {e : Exn}
    (h : hdlcFrameParse b = throws e) : responseOf (getAnswer b) = none := by
  rw [getAnswer, h, throws_bind]
  rfl

/-- Neither is a reply without the header of a get response. -/
theorem responseOf_getAnswer_of_not_header {b : List Byte} {cmd : HdlcCommand}
    {payload : List Byte} (h : IsReply b cmd payload) (hread : ReadsThrough b)
    (hheader : ¬ HasGetResponseHeader payload) :
    responseOf (getAnswer b) = none := by
  rw [getAnswer_of_readsThrough h hread, parseGetResponse_eq, if_neg hheader,
    throws_bind]
  rfl

namespace Meter

variable {ι : Type} {meters : ι → Meter} {meterAt : Word × Word → Option ι}

/-- What the client is to read as a response to a request, if it is a get
request and there is one. -/
def response (meter : Meter) (r : Hdlc.Request) : Option Response :=
  if r.cmd = HdlcCommand.commandI then
    match decodeRequestApdu r.payload with
    | some (.get, req) => responseOf (meter.attributeOf req).result
    | _ => none
  else
    none

variable (meters) (meterAt) in
/-- **What is to be made of the reply to a frame.** -/
def lineResponse (q : List Byte) : Option Response :=
  (addressee meterAt q).bind fun i =>
    (decodeRequest q).bind (meters i).response

variable (meters) in
/-- **What an operation is to return as a response.** -/
def operationResponse : ι × Operation → Option Response
  | (i, .getRequest req) => responseOf ((meters i).attributeOf req).result
  | _ => none

theorem response_of_eq {meter : Meter} {r : Hdlc.Request} {req : Dlms.Request}
    (hcmd : r.cmd = HdlcCommand.commandI)
    (h : decodeRequestApdu r.payload = some (.get, req)) :
    meter.response r = responseOf (meter.attributeOf req).result := by
  rw [response, if_pos hcmd, h]

/-- **A reply is taken for no response but the one that it is.** -/
theorem Replies.responseOf_getAnswer {meter : Meter} {phase phase' : Phase}
    {r : Hdlc.Request} {b : List Byte} (h : meter.Replies phase r b phase')
    (hread : ReadsThrough b) :
    responseOf (getAnswer b) = none
      ∨ responseOf (getAnswer b) = meter.response r := by
  cases h with
  | @connect _ _ _ answer hr hanswer hb =>
    refine .inl (responseOf_getAnswer_of_not_header hb hread ?_)
    cases answer with
    | none => exact (by decide : ¬ HasGetResponseHeader [])
    | some field => exact meter.not_header field hanswer
  | @associate _ _ _ apdu _ hphase hr haarq hresult hb haare =>
    refine .inl (responseOf_getAnswer_of_not_header hb hread fun h => ?_)
    obtain ⟨invokeId, choice, rest, rfl⟩ := h.exists_eq
    exact absurd haare.tag (by decide)
  | get hphase hr hreq hb hapdu =>
    rw [getAnswer_of_readsThrough hb hread, hapdu.parseGetResponse_eq,
      response_of_eq hr hreq, offers]
    split_ifs
    · exact .inr rfl
    · exact .inl rfl
  | absent hr hb =>
    exact .inl (responseOf_getAnswer_of_not_header hb hread (by decide))
  | disconnect hphase hr hb =>
    exact .inl (responseOf_getAnswer_of_not_header hb hread (by decide))

/-- On a noisy line, what comes back is taken for the response to the request
in the frame, or for none. -/
theorem NoisyLine.responseOf_getAnswer {meter : Meter} {phase phase' : Phase}
    {q b : List Byte} (h : meter.NoisyLine phase q b phase') :
    responseOf (getAnswer b) = none
      ∨ responseOf (getAnswer b) = (decodeRequest q).bind meter.response := by
  cases h with
  | answered hq hb =>
    rw [hq.2.1, Option.bind_some]
    by_cases hread : ReadsThrough b
    · exact hb.responseOf_getAnswer hread
    · obtain ⟨cmd, payload, hreply⟩ := hb.isReply
      exact .inl (responseOf_getAnswer_of_throws
        (hdlcFrameParse_of_not_readsThrough hreply hread))
  | disturbed hq hb hlen herr =>
    obtain ⟨cmd, payload, hreply⟩ := hb.isReply
    exact .inl (responseOf_getAnswer_of_throws
      (hdlcFrameParse_disturbed hreply hlen herr))
  | replyLost hq hb => exact .inl rfl
  | requestLost => exact .inl rfl

/-- A client asks for a response by its get requests, and by no other
message. -/
theorem lineResponse_frame {clients : ι → CosemHdlcClient}
    (hpaired : Paired meterAt clients) {i : ι} {client : CosemHdlcClient}
    (hparams : client.hdlcParams = (clients i).hdlcParams) (m : Message) :
    lineResponse meters meterAt (client.frame m)
      = match m with
        | .get req => responseOf ((meters i).attributeOf req).result
        | _ => none := by
  rw [lineResponse, hpaired.addressee_frame hparams, Option.bind_some,
    client.decodeRequest_frame (hparams ▸ hpaired.encodable i),
    Option.bind_some]
  cases m with
  | snrm => rfl
  | aarq value =>
    have hcmd : (client.request (.aarq value)).cmd = HdlcCommand.commandI := rfl
    have hnone : decodeRequestApdu (client.request (.aarq value)).payload
        = none := decodeRequestApdu_aarqWith _ _
    rw [response, if_pos hcmd, hnone]
  | get req =>
    exact response_of_eq rfl
      (decodeRequestApdu_serializeRequest client.cosem .get req)
  | disc => rfl

/-! ## In order and once -/

/-- **An operation of a client keeps the order**, as the line does. -/
theorem ensures_talk_inOrder {clients : ι → CosemHdlcClient}
    (hpaired : Paired meterAt clients) {i : ι} {client : CosemHdlcClient}
    (hparams : client.hdlcParams = (clients i).hdlcParams) (op : Operation)
    (rng : Rng) (due : List Response) :
    (CosemHdlcClient.talk op (client, rng)).Ensures
      (Peer.InOrder (responseOf ∘ getAnswer) (lineResponse meters meterAt))
      due fun r due' =>
        Peer.InOrder responseOf (operationResponse meters) due (i, op) r.1
          due' := by
  have hframe := @lineResponse_frame ι meters meterAt clients hpaired i client
    hparams
  cases op with
  | connect =>
    rw [CosemHdlcClient.talk, Dialogue.ensures_ask]
    intro reply due₁ h₁
    have hdue₁ := h₁.of_none (hframe .snrm)
    split
    · intro reply' due₂ h₂
      have hdue₂ := h₂.of_none (hframe (.aarq _))
      exact Peer.inOrder_of_none (responseOf_bind_bool _ _)
        (hdue₂.trans hdue₁)
    · exact Peer.inOrder_of_none (responseOf_bind_bool _ _) hdue₁
  | getRequest req =>
    rw [CosemHdlcClient.talk, Dialogue.ensures_ask]
    intro reply due' h
    rw [Peer.InOrder, hframe] at h
    exact h
  | disconnect =>
    rw [CosemHdlcClient.talk, Dialogue.ensures_ask]
    intro reply due' h
    exact Peer.inOrder_of_none (responseOf_bind_bool _ _)
      (h.of_none (hframe .disc))

variable [DecidableEq ι]

/-- The same on a line with several meters. -/
theorem responseOf_getAnswer_onLine {phases phases' : ι → Phase}
    {q b : List Byte}
    (h : Peer.OnLine (addressee meterAt) [] (fun i => (meters i).NoisyLine)
      phases q b phases') :
    responseOf (getAnswer b) = none
      ∨ responseOf (getAnswer b) = lineResponse meters meterAt q := by
  cases h with
  | answered hi h =>
    rw [lineResponse, hi, Option.bind_some]
    exact h.responseOf_getAnswer
  | silent hnone => exact .inl rfl

/-- **Late responses come in order and once.** On a noisy line that is late as
well, the responses that the first operations return are answers to get
requests among these, in the order of the requests, and no request is answered
twice. -/
theorem late_responses {meters : ι → Meter}
    {meterAt : Word × Word → Option ι} {phases : ι → Phase}
    {line : (ι → Phase) × List (List Byte)} (ops : List (ι × Operation))
    (s : Station (ι → CosemHdlcClient)) (hpaired : Paired meterAt s.client)
    (h : (Peer.Late [] (Peer.OnLine (addressee meterAt) []
        fun i => (meters i).NoisyLine)).History (phases, [])
      (s.exchangesTo (performEach CosemHdlcClient.perform ops s).2) line)
    (n : ℕ) :
    (((performEach CosemHdlcClient.perform ops s).1.take n).filterMap
        responseOf).Sublist
      ((ops.take n).filterMap (operationResponse meters)) := by
  have hsilence : (responseOf ∘ getAnswer) [] = none := rfl
  have hmade : ∀ phases q b phases', Peer.OnLine (addressee meterAt) []
      (fun i => (meters i).NoisyLine) phases q b phases' →
      (responseOf ∘ getAnswer) b = none
        ∨ (responseOf ∘ getAnswer) b = lineResponse meters meterAt q :=
    fun _ _ _ _ => responseOf_getAnswer_onLine
  have hline := h.inOrder hsilence hmade
  have hthrough := ensures_through_several
    (Peer.InOrder (responseOf ∘ getAnswer) (lineResponse meters meterAt))
    (· = ·) (s.client, s.rng) [] (Dialogue.asks_any (Dialogue.inTurn ops)) (by
      rintro ⟨i, op⟩ - client hparams - rng due _ rfl
      exact (ensures_talk_inOrder hpaired hparams op rng due).mono
        fun r due' hr => ⟨due', hr, rfl⟩) rfl (Dialogue.ensures_inTurn ops [])
  obtain ⟨due, ⟨hlength, hhistory⟩, -⟩ :=
    CosemHdlcClient.transport.several.performs_of_ensures hthrough hline
  obtain ⟨due', hfirst⟩ := hhistory.take n
  have hsublist := hfirst.sublist
  rw [List.zip_eq_zipWith, List.take_zipWith, ← List.zip_eq_zipWith,
    List.map_snd_zip (by simp [hlength]), List.map_fst_zip (by simp [hlength]),
    List.nil_append] at hsublist
  exact (List.sublist_append_left _ _).trans hsublist

/-- A get request to one of the meters. -/
def getFrom (req : ι × Dlms.Request) : ι × Operation :=
  (req.1, .getRequest req.2)

/-- A get response with an unsigned value. -/
def unsignedReply : List Byte :=
  [0x7E, 0xA0, 0x15, 0x03, 0x00, 0x02, 0xFE, 0xFF, 0xF4, 0x44, 0x5C, 0xE6,
    0xE7, 0x00, 0xC4, 0x01, 0xC1, 0x00, 0x11, 0x05, 0xB6, 0x1A, 0x7E]

/-- Two meters, of which the first has a null value for everything, and the
second that value. -/
def unlikeMeters (b : Bool) : Meter :=
  granting fun _ => .data (if b then [0x11, 0x05] else [0x00])

/-- To read both clocks. -/
def bothClocks : List (Bool × Dlms.Request) :=
  [(false, clockRequest), (true, clockRequest)]

/-- To do that, where the reply of the first meter is late. -/
def lateStation : Station (Bool → CosemHdlcClient) :=
  twoStation (Stream'.cons [] (Stream'.const nullReply))

/-- What the operations there come to. -/
def lateRun : List (Result Answer) × Station (Bool → CosemHdlcClient) :=
  performEach CosemHdlcClient.perform (bothClocks.map getFrom) lateStation

theorem exchanges_lateStation : lateStation.exchangesTo lateRun.2
    = [((twoClients false).frame (.get clockRequest), []),
      ((twoClients true).frame (.get clockRequest), nullReply)] := by
  decide +kernel

/-- Both meters answer. -/
theorem clearLine_unlikeMeters (b : Bool) :
    (unlikeMeters b).ClearLine .associated
      ((twoClients b).frame (.get clockRequest))
      (if b then unsignedReply else nullReply) .associated := by
  have htakes : Takes ((twoClients b).frame (.get clockRequest))
      ((twoClients b).request (.get clockRequest)) :=
    takes_get (paired_twoClients.encodable b) (Nat.zero_le _)
  cases b with
  | false =>
    exact .answered htakes (replies_nullReply _ clockRequest)
      readsThrough_nullReply
  | true =>
    have hunsigned : ReplyAt unsignedReply HdlcCommand.responseI
        [0xC4, 0x01, 0xC1, 0x00, 0x11, 0x05] 8 := by decide +kernel
    exact .answered htakes (replies_get _ hunsigned ⟨0xC1, rfl⟩)
      (readsThrough_of_serverAddress
        (show ServerAddress unsignedReply 8 by decide) (by decide))

/-- On a line together. -/
theorem onLine_unlikeMeters {peers : Bool → Peer Phase (List Byte) (List Byte)}
    (hpeers : ∀ b phase q a phase', (unlikeMeters b).ClearLine phase q a phase' →
      peers b phase q a phase') (b : Bool) :
    Peer.OnLine (addressee twoMeters) [] peers (fun _ => .associated)
      ((twoClients b).frame (.get clockRequest))
      (if b then unsignedReply else nullReply) fun _ => .associated := by
  have h := hpeers b _ _ _ _ (clearLine_unlikeMeters b)
  have honline := @onLine_twoClients peers b _ _ (fun _ => .associated) _ h
  rwa [Function.update_eq_self] at honline

/-- The value of the first meter comes after the request to the second. -/
theorem late_responses_lateStation :
    ((lateRun.1.take 2).filterMap responseOf).Sublist
      (((bothClocks.map getFrom).take 2).filterMap
        (operationResponse unlikeMeters)) := by
  have hline := @onLine_unlikeMeters (fun b => (unlikeMeters b).NoisyLine)
    fun _ _ _ _ _ h => h.noisyLine
  refine @late_responses Bool _ unlikeMeters twoMeters
    (fun _ => .associated) (fun _ => .associated, [unsignedReply])
    (bothClocks.map getFrom) lateStation paired_twoClients ?_ 2
  have hexchanges := exchanges_lateStation
  rw [lateRun] at hexchanges
  rw [hexchanges]
  exact .cons (.tooLate (hline false))
    (.cons (.read (hline true) (List.Sublist.cons _ (List.Sublist.refl _)))
      (.nil _))

/-! ## One reply behind -/

variable (meters) in
/-- A peer that answers get requests with what is to be read. -/
def Readings : Peer Unit (ι × Operation) (Result Answer) :=
  Peer.stateless fun op r => ∀ req, op.2 = .getRequest req →
    r = ((meters op.1).attributeOf req).result

omit [DecidableEq ι] in
/-- Its answers, if they are one behind. -/
theorem answers_of_behind {last last' : Unit × Result Answer}
    {reqs : List (ι × Dlms.Request)} {rs : List (Result Answer)}
    (hlength : rs.length = reqs.length)
    (h : (Peer.Behind (Readings meters)).History last
      ((reqs.map getFrom).zip rs) last') :
    rs = (last.2 :: reqs.map fun req =>
      ((meters req.1).attributeOf req.2).result).take reqs.length := by
  have hzip : rs.length = (reqs.map getFrom).length := by
    rw [hlength, List.length_map]
  obtain ⟨as, has, hanswers⟩ := h.behind
  rw [List.map_snd_zip hzip.le] at has
  rw [List.map_fst_zip hzip.ge] at hanswers
  have hcount := congrArg List.length has
  rw [List.length_append, List.length_singleton, List.length_cons] at hcount
  have hforall : List.Forall₂ (fun (op : ι × Operation) r => ∀ req,
      op.2 = .getRequest req → r = ((meters op.1).attributeOf req).result)
      (reqs.map getFrom) as :=
    List.forall₂_iff_zip.mpr ⟨hzip.symm.trans (Nat.succ.inj hcount),
      fun hmem => Peer.history_stateless_iff.mp hanswers _ hmem⟩
  have heq : (reqs.map fun req =>
      ((meters req.1).attributeOf req.2).result) = as := by
    rw [← List.forall₂_eq_eq_eq, List.forall₂_map_left_iff]
    exact (List.forall₂_map_left_iff.mp hforall).imp fun req r hr =>
      (hr req.2 rfl).symm
  rw [heq, ← has, ← hlength, List.take_left]

/-- **A get request on a line that is one reply behind** comes to what is made
of the reply on its way, and then its own is there. -/
theorem ensures_getRequest_behind {clients : ι → CosemHdlcClient}
    (hpaired : Paired meterAt clients) {i : ι} {client : CosemHdlcClient}
    (hparams : client.hdlcParams = (clients i).hdlcParams)
    {req : Dlms.Request} (hdata : req.data.length ≤ 4067) (rng : Rng)
    {late : List Byte} :
    (CosemHdlcClient.talk (.getRequest req) (client, rng)).Ensures
      (Peer.Behind (Peer.OnLine (addressee meterAt) []
        fun i => (meters i).ClearLine)) (fun _ => .associated, late)
      fun r line => r.1 = getAnswer late
        ∧ getAnswer line.2 = ((meters i).attributeOf req).result
        ∧ line.1 = fun _ => .associated := by
  have hi := hpaired.addressee_frame hparams (.get req)
  have hheard := @ClearLine.heard (meters i) client _
    (takes_get (hparams ▸ hpaired.encodable i) hdata)
  rw [CosemHdlcClient.talk, Dialogue.ensures_ask]
  rintro _ _ ⟨h⟩
  cases h with
  | answered hj hb =>
    obtain rfl : i = _ := Option.some.inj (hi.symm.trans hj)
    rcases hheard _ _ _ hb with ⟨hreplies, hread⟩ | ⟨hfalse, -⟩
    · obtain ⟨rfl, cmd, apdu, hreply, hresponse⟩ := hreplies.of_get
      refine ⟨rfl, ?_, Function.update_eq_self i _⟩
      rw [getAnswer_of_readsThrough hreply hread, hresponse]
      rfl
    · exact absurd hfalse id
  | silent hnone =>
    rw [hi] at hnone
    cases hnone

/-- **After a late reply, every answer is that to the request before**, and of
the meter that was asked before. The first request fails, and each one after
it comes to what is to be read of the attribute that was asked for before it:
its data, as a success, where the meter grants that. -/
theorem late_answers {meters : ι → Meter} {meterAt : Word × Word → Option ι}
    {line : (ι → Phase) × List Byte} (reqs : List (ι × Dlms.Request))
    (s : Station (ι → CosemHdlcClient)) (hpaired : Paired meterAt s.client)
    (hdata : ∀ req ∈ reqs, req.2.data.length ≤ 4067)
    (h : (Peer.Behind (Peer.OnLine (addressee meterAt) []
        fun i => (meters i).ClearLine)).History (fun _ => .associated, [])
      (s.exchangesTo
        (performEach CosemHdlcClient.perform (reqs.map getFrom) s).2) line) :
    (performEach CosemHdlcClient.perform (reqs.map getFrom) s).1
      = (throws .invalidHdlcFrame :: reqs.map fun req =>
          ((meters req.1).attributeOf req.2).result).take reqs.length := by
  have hops : ∀ op ∈ reqs.map getFrom,
      ∃ req ∈ reqs, getFrom req = op := fun op => List.mem_map.mp
  have hthrough := ensures_through_several
    (Peer.Behind
      (Peer.OnLine (addressee meterAt) [] fun i => (meters i).ClearLine))
    (fun line (last : Unit × Result Answer) =>
      line.1 = (fun _ => .associated) ∧ last.2 = getAnswer line.2)
    (s.client, s.rng) (fun _ => .associated, []) (Dialogue.inTurn_asks hops) (by
      rintro _ ⟨⟨i, req⟩, hreq, rfl⟩ client hparams - rng ⟨_, late⟩ ⟨_, _⟩
        ⟨rfl, rfl⟩
      refine (ensures_getRequest_behind hpaired hparams (hdata _ hreq)
        rng).mono fun r line' hr => ?_
      obtain ⟨hr, hanswer, hphases⟩ := hr
      rw [hr]
      refine ⟨((), getAnswer line'.2), .read fun req' hreq' => ?_, hphases, rfl⟩
      rw [hanswer, Operation.getRequest.inj hreq']) ⟨rfl, rfl⟩
    (@Dialogue.ensures_inTurn _ _ _ (Peer.Behind (Readings meters))
      (reqs.map getFrom) ((), throws .invalidHdlcFrame))
  obtain ⟨last, ⟨hlength, hhistory⟩, -⟩ :=
    CosemHdlcClient.transport.several.performs_of_ensures hthrough h
  rw [List.length_map] at hlength
  exact answers_of_behind hlength hhistory

/-- The clock of the first meter is taken for that of the second. -/
theorem late_answers_lateStation :
    lateRun.1 = [throws .invalidHdlcFrame, ok (.response ⟨0, [0x00]⟩)] := by
  have hline := onLine_unlikeMeters fun _ _ _ _ _ h => h
  refine @late_answers Bool _ unlikeMeters twoMeters
    (fun _ => .associated, unsignedReply) bothClocks lateStation
    paired_twoClients ?_ ?_
  · intro req hreq
    fin_cases hreq <;> exact Nat.zero_le _
  · have hexchanges := exchanges_lateStation
    rw [lateRun] at hexchanges
    rw [hexchanges]
    exact .cons (.read (hline false)) (.cons (.read (hline true)) (.nil _))

/-! ## To give up -/

/-- **Operations of several clients, until one fails** because nothing was
read, or nothing that is a frame. -/
def performUntil (ops : List (ι × Operation))
    (s : Station (ι → CosemHdlcClient)) :
    List (Result Answer) × Station (ι → CosemHdlcClient) :=
  performs (performOf CosemHdlcClient.perform)
    (Dialogue.inTurnUntil (throws .invalidHdlcFrame) ops) s

/-- **Clients that give up have sessions with their meters**, whatever comes
late and whoever it comes from. Until the first failure each operation comes to
what it comes to in a session with its meter alone, and the one that fails
leaves its meter somewhere on its way. -/
theorem late_sessions {meters : ι → Meter} {meterAt : Word × Word → Option ι}
    {phases : ι → Phase} {line : (ι → Phase) × List (List Byte)}
    (ops : List (ι × Operation)) (s : Station (ι → CosemHdlcClient))
    (hpaired : Paired meterAt s.client)
    (h : (Peer.Late [] (Peer.OnLine (addressee meterAt) []
        fun i => (meters i).NoisyLine)).History (phases, [])
      (s.exchangesTo (performUntil ops s).2) line) (i : ι) :
    (meters i).InterruptedSession.History (phases i)
      (Peer.part i (ops.zip (performUntil ops s).1)) (line.1 i) := by
  have hlost : ∀ phases q b phases', Peer.OnLine (addressee meterAt) []
      (fun i => (meters i).NoisyLine) phases q b phases' →
      Peer.OnLine (addressee meterAt) [] (fun i => (meters i).NoisyLine)
        phases q [] phases' :=
    fun _ _ _ _ h => h.silence fun _ _ _ _ _ h => NoisyLine.silence h
  have hsessions := CosemHdlcClient.transport.several.performs_late
    (Transport.several_fails CosemHdlcClient.talk_fails) hlost
    (Dialogue.inTurnUntil_endsAfter ops)
    (ensures_through_several_noisy hpaired
      (Dialogue.ensures_inTurnUntil ops phases)) h
  exact Peer.history_sideBySide_iff.mp hsessions.2 i

/-- The reply to the second meter is late, and they give up. -/
theorem late_sessions_noisyTurnsStation :
    nullMeter.InterruptedSession.History .disconnected
        (Peer.part false (takingTurns.zip
          (performUntil takingTurns noisyTurnsStation).1)) .associated
      ∧ nullMeter.InterruptedSession.History .disconnected
        (Peer.part true (takingTurns.zip
          (performUntil takingTurns noisyTurnsStation).1)) .connected := by
  have hparams := paired_twoClients.encodable
  have hfits : ∀ b, AarqFits (twoClients b).cosem.parameters :=
    fun _ => .inl rfl
  have hexchanges : noisyTurnsStation.exchangesTo
      (performUntil takingTurns noisyTurnsStation).2
      = [((twoClients false).frame .snrm, uaReply),
        ((twoClients false).frame twoAarq, aareReply),
        ((twoClients true).frame .snrm, [])] := by
    decide +kernel
  have hconnect := fun b => replies_connection (fun _ => .data [0x00])
    (twoClients b) (hfits b) (Stream'.const 0)
  -- the reply to the last frame stays on its way
  obtain ⟨line, hline, hphases⟩ : ∃ line, (Peer.Late [] (Peer.OnLine
      (addressee twoMeters) [] fun _ => nullMeter.NoisyLine)).History
        (fun _ => .disconnected, []) (noisyTurnsStation.exchangesTo
          (performUntil takingTurns noisyTurnsStation).2)
        line ∧ line.1 false = .associated ∧ line.1 true = .connected := by
    rw [hexchanges]
    exact ⟨_, .cons (.inTime (onLine_twoClients
        (.answered (takes_snrm (hparams _)) (hconnect _).1)))
      (.cons (.inTime (onLine_twoClients
        (.answered (takes_aarq (hparams _) (hfits _) _) (hconnect _).2.1)))
      (.cons (.tooLate (onLine_twoClients
        (.answered (takes_snrm (hparams _)) (hconnect _).1)))
      (.nil _))), rfl, rfl⟩
  have hsessions := late_sessions takingTurns noisyTurnsStation
    paired_twoClients hline
  exact ⟨hphases.1 ▸ hsessions false, hphases.2 ▸ hsessions true⟩

end Meter

end Dlms
