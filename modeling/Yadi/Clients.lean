import Yadi.Meter
import Yadi.Parties

/-!
# A line with several meters

On a line with several meters every frame comes to all of them, and the one
whose address is in it answers. An HDLC client does not look at the address a
reply comes from. It need not, as long as no reply is late: whatever the
operations of the clients are and in whatever order they come, each client is
in a session with the meter it addresses, and no operation of one has anything
to do with the session of another (`Meter.clear_sessions`,
`Meter.noisy_sessions`).
-/

namespace Dlms

open Run Hdlc

variable {ι : Type}

/-! ## Addresses -/

/-- The address of the server of a client. -/
def CosemHdlcClient.serverAddress (client : CosemHdlcClient) : Word × Word :=
  (client.hdlcParams.serverLogicalAddress,
    client.hdlcParams.serverPhysicalAddress)

/-- **For whom a frame is**, by the address in it, where `meterAt` says who is
at an address. -/
def addressee (meterAt : Word × Word → Option ι) (q : List Byte) : Option ι :=
  (decodeRequest q).bind fun r => meterAt (r.logicalAddress, r.physicalAddress)

/-- What a client writes is for the server it addresses. -/
theorem addressee_frame {client : CosemHdlcClient}
    (hparams : client.hdlcParams.Encodable)
    (meterAt : Word × Word → Option ι) (m : Message) :
    addressee meterAt (client.frame m) = meterAt client.serverAddress := by
  rw [addressee, client.decodeRequest_frame hparams]
  rfl

/-- An operation writes nothing but frames of messages. -/
theorem CosemHdlcClient.talk_asks {client : CosemHdlcClient}
    {I : List Byte → Prop} (h : ∀ m, I (client.frame m)) (op : Operation)
    (rng : Rng) : (CosemHdlcClient.talk op (client, rng)).Asks I := by
  cases op with
  | connect =>
    refine ⟨h _, fun reply => ?_⟩
    dsimp only
    split
    · exact ⟨h _, fun _ => trivial⟩
    · trivial
  | getRequest req => exact ⟨h _, fun _ => trivial⟩
  | disconnect => exact ⟨h _, fun _ => trivial⟩

/-- **Clients and meters that belong together**: each client addresses a
meter of its own. -/
structure Paired (meterAt : Word × Word → Option ι)
    (clients : ι → CosemHdlcClient) : Prop where
  encodable : ∀ i, (clients i).hdlcParams.Encodable
  meterAt_eq : ∀ i, meterAt (clients i).serverAddress = some i

/-- What a client writes is for its meter, whatever its context has become. -/
theorem Paired.addressee_frame {meterAt : Word × Word → Option ι}
    {clients : ι → CosemHdlcClient} (h : Paired meterAt clients) {i : ι}
    {client : CosemHdlcClient}
    (hparams : client.hdlcParams = (clients i).hdlcParams) (m : Message) :
    addressee meterAt (client.frame m) = some i := by
  rw [Dlms.addressee_frame (hparams ▸ h.encodable i),
    CosemHdlcClient.serverAddress, hparams]
  exact h.meterAt_eq i

variable [DecidableEq ι]

/-- **The rule for programs that use several clients.** If every operation of
a client, from states that `Sim` relates to those of a second peer, ends with
a result that peer may give and in states that are related again, then what a
program ensures with the second peer its dialogue ensures with the first. -/
theorem ensures_through_several {σ τ α : Type}
    (peer : Peer σ (List Byte) (List Byte))
    {peer' : Peer τ (ι × Operation) (Result Answer)} (Sim : σ → τ → Prop)
    (k : (ι → CosemHdlcClient) × Rng) (state : σ)
    {I : ι × Operation → Prop} {d : Program α (ι × Operation)}
    {P : α → τ → Prop} (hasks : d.Asks I)
    (hop : ∀ op, I op → ∀ client : CosemHdlcClient,
      client.hdlcParams = (k.1 op.1).hdlcParams →
      client.cosem = (k.1 op.1).cosem →
      ∀ rng state t, Sim state t →
        (CosemHdlcClient.talk op.2 (client, rng)).Ensures peer state
          fun r state' => ∃ t', peer' t op r.1 t' ∧ Sim state' t')
    {t : τ} (hsim : Sim state t) (hd : d.Ensures peer' t P) :
    (d.through CosemHdlcClient.transport.several.talk k).Ensures peer state
      fun r state' => ∃ t', P r.1 t' ∧ Sim state' t' := by
  have hthrough := @Dialogue.ensures_through (List Byte) (List Byte)
    (Result Answer) α σ peer (ι × Operation) ((ι → CosemHdlcClient) × Rng) τ
    CosemHdlcClient.transport.several.talk peer'
    (fun k' state t => Sim state t
      ∧ ∀ i, (k'.1 i).hdlcParams = (k.1 i).hdlcParams
        ∧ (k'.1 i).cosem = (k.1 i).cosem)
    I
    (by
      rintro ⟨i, op⟩ hI ⟨clients, rng⟩ state t ⟨hsim, hsame⟩
      refine Dialogue.ensures_bind.mpr ?_
      have hkeeps := CosemHdlcClient.ensures_talk_keeps peer op (clients i)
        rng state
      refine ((hop _ hI (clients i) (hsame i).1 (hsame i).2 rng state t
        hsim).and hkeeps).mono fun r state' hr => ?_
      obtain ⟨⟨t', hr, hsim'⟩, hparams, hcosem⟩ := hr
      exact ⟨t', hr, hsim', fun j =>
        ⟨(apply_update_eq hparams j).trans (hsame j).1,
          (apply_update_eq hcosem j).trans (hsame j).2⟩⟩)
    d hasks k state t ⟨hsim, fun _ => ⟨rfl, rfl⟩⟩ P hd
  refine hthrough.mono fun r state' hr => ?_
  obtain ⟨t', hP, hsim', -⟩ := hr
  exact ⟨t', hP, hsim'⟩

namespace Meter

variable {meters : ι → Meter} {interruptions : Prop}
  {peers : ι → Peer Phase (List Byte) (List Byte)}
  {meterAt : Word × Word → Option ι}

/-! ## On a line with several meters -/

/-- **What such a program ensures with the meters side by side**, its dialogue
ensures on a line where its operations are heard. -/
theorem ensures_through_several_of_heard {α : Type}
    {I : ι × Operation → Prop} {d : Program α (ι × Operation)}
    {k : (ι → CosemHdlcClient) × Rng} {phases : ι → Phase}
    {P : α → (ι → Phase) → Prop} (hpaired : Paired meterAt k.1)
    (hasks : d.Asks I)
    (hheard : ∀ op, I op → ∀ client : CosemHdlcClient,
      client.hdlcParams = (k.1 op.1).hdlcParams →
      client.cosem = (k.1 op.1).cosem →
      ∀ rng, ∀ m ∈ messages client rng op.2,
        (meters op.1).Heard client interruptions (peers op.1) m)
    (hd : d.Ensures
      (Peer.SideBySide fun i => (meters i).ComesTo interruptions) phases P) :
    (d.through CosemHdlcClient.transport.several.talk k).Ensures
      (Peer.OnLine (addressee meterAt) [] peers) phases
      fun r phases' => P r.1 phases' := by
  have hthrough := ensures_through_several
    (Peer.OnLine (addressee meterAt) [] peers) (· = ·) k phases hasks (by
    rintro ⟨i, op⟩ hI client hparams hcosem rng phases _ rfl
    have hmessages := hheard _ hI client hparams hcosem rng
    have hasks : (CosemHdlcClient.talk op (client, rng)).Asks
        fun q => addressee meterAt q = some i :=
      CosemHdlcClient.talk_asks (hpaired.addressee_frame hparams) op rng
    refine (Dialogue.ensures_onLine hasks
      (ensures_talk op rng hmessages)).mono fun r phases' hr => ?_
    obtain ⟨phase, hr, rfl⟩ := hr
    exact ⟨_, .asked hr, rfl⟩) rfl hd
  refine hthrough.mono fun r phases' hr => ?_
  obtain ⟨_, hP, rfl⟩ := hr
  exact hP

/-- On a clear line. -/
theorem ensures_through_several_clear {α : Type}
    {d : Program α (ι × Operation)} {k : (ι → CosemHdlcClient) × Rng}
    {phases : ι → Phase} {P : α → (ι → Phase) → Prop}
    (hpaired : Paired meterAt k.1)
    (hfits : ∀ i, AarqFits (k.1 i).cosem.parameters)
    (hasks : d.Asks fun op => Writable op.2)
    (hd : d.Ensures (Peer.SideBySide fun i => (meters i).Session) phases P) :
    (d.through CosemHdlcClient.transport.several.talk k).Ensures
      (Peer.OnLine (addressee meterAt) [] fun i => (meters i).ClearLine) phases
      fun r phases' => P r.1 phases' :=
  ensures_through_several_of_heard hpaired hasks
    (fun op hop _ hparams hcosem rng => ClearLine.heard_messages
      (hparams ▸ hpaired.encodable op.1) (hcosem ▸ hfits op.1) hop rng)
    (hd.of_peer fun _ _ _ _ hr =>
      hr.mono fun _ _ _ _ _ => session_of_comesTo)

/-- On a noisy line. -/
theorem ensures_through_several_noisy {α : Type}
    {d : Program α (ι × Operation)} {k : (ι → CosemHdlcClient) × Rng}
    {phases : ι → Phase} {P : α → (ι → Phase) → Prop}
    (hpaired : Paired meterAt k.1)
    (hd : d.Ensures (Peer.SideBySide fun i => (meters i).InterruptedSession)
      phases P) :
    (d.through CosemHdlcClient.transport.several.talk k).Ensures
      (Peer.OnLine (addressee meterAt) [] fun i => (meters i).NoisyLine) phases
      fun r phases' => P r.1 phases' :=
  ensures_through_several_of_heard hpaired d.asks_any
    (fun op _ _ hparams _ _ m _ =>
      NoisyLine.heard (hparams ▸ hpaired.encodable op.1) m)
    (hd.of_peer fun _ _ _ _ hr =>
      hr.mono fun _ _ _ _ _ => interruptedSession_of_comesTo)

/-- **On a clear line each client has a session with its meter**, be it one that
grants what it is asked for or not. Whatever the operations of the clients are
and in whatever order they come, those of each client, taken by themselves,
come to what they come to in a session with its meter alone. -/
theorem clear_sessions {meters : ι → Meter}
    {meterAt : Word × Word → Option ι} {phases phases' : ι → Phase}
    (ops : List (ι × Operation)) (s : Station (ι → CosemHdlcClient))
    (hpaired : Paired meterAt s.client)
    (hfits : ∀ i, AarqFits (s.client i).cosem.parameters)
    (hops : ∀ op ∈ ops, Writable op.2)
    (h : (Peer.OnLine (addressee meterAt) []
        fun i => (meters i).ClearLine).History phases
      (s.exchangesTo (performEach CosemHdlcClient.perform ops s).2) phases') :
    (performEach CosemHdlcClient.perform ops s).1.length = ops.length
      ∧ ∀ i, (meters i).Session.History (phases i)
        (Peer.part i (ops.zip
          (performEach CosemHdlcClient.perform ops s).1)) (phases' i) := by
  have hsessions := CosemHdlcClient.transport.several.performs_of_ensures
    (ensures_through_several_clear hpaired hfits (Dialogue.inTurn_asks hops)
      (Dialogue.ensures_inTurn ops phases)) h
  exact ⟨hsessions.1, Peer.history_sideBySide_iff.mp hsessions.2⟩

/-- Two clients, of meters at two addresses. -/
def twoClients (b : Bool) : CosemHdlcClient where
  hdlcParams := { serverPhysicalAddress := if b then 2 else 1 }

/-- The meters at these addresses. -/
def twoMeters : Word × Word → Option Bool
  | (1, 1) => some false
  | (1, 2) => some true
  | _ => none

theorem paired_twoClients : Paired twoMeters twoClients := by
  refine ⟨fun b => ?_, fun b => ?_⟩
  · cases b <;> exact ⟨by decide, by decide, by decide⟩
  · cases b <;> rfl

/-- A port they share, with these replies. -/
def twoStation (incoming : Stream' (List Byte)) :
    Station (Bool → CosemHdlcClient) where
  client := twoClients
  serial := { incoming, written := [] }
  rng := Stream'.const 0

/-- The second client connects while the first one is in a session. -/
def takingTurns : List (Bool × Operation) :=
  [(false, .connect), (true, .connect), (false, .getRequest clockRequest)]

/-- What their operations come to. -/
def answersTo (s : Station (Bool → CosemHdlcClient)) : List (Result Answer) :=
  (performEach CosemHdlcClient.perform takingTurns s).1

/-- The association request of either. -/
def twoAarq : Message :=
  .aarq (authenticationValue {} (Stream'.const 0))

/-- What one of them says is for its meter. -/
theorem onLine_twoClients {peers : Bool → Peer Phase (List Byte) (List Byte)}
    {b : Bool} {m : Message} {reply : List Byte} {phases : Bool → Phase}
    {phase : Phase}
    (h : peers b (phases b) ((twoClients b).frame m) reply phase) :
    Peer.OnLine (addressee twoMeters) [] peers phases
      ((twoClients b).frame m) reply (Function.update phases b phase) :=
  .answered (paired_twoClients.addressee_frame rfl m) h

/-- Two meters, of which the second rejects every association. -/
def unlikeHosts (b : Bool) : Meter := if b then rejectingMeter else nullMeter

/-- They take turns and all is answered. -/
def turnsStation : Station (Bool → CosemHdlcClient) :=
  twoStation (Stream'.cons uaReply (Stream'.cons aareReply
    (Stream'.cons uaReply (Stream'.cons rejectingReply
      (Stream'.const nullReply)))))

/-- The clock of the first meter is read, and the second rejects its client. -/
theorem clear_sessions_turnsStation :
    nullMeter.Session.History .disconnected
        (Peer.part false (takingTurns.zip (answersTo turnsStation))) .associated
      ∧ rejectingMeter.Session.History .disconnected
        (Peer.part true (takingTurns.zip (answersTo turnsStation)))
        .connected := by
  have hparams := paired_twoClients.encodable
  have hfits : ∀ b, AarqFits (twoClients b).cosem.parameters :=
    fun _ => .inl rfl
  have hexchanges : turnsStation.exchangesTo
      (performEach CosemHdlcClient.perform takingTurns turnsStation).2
      = [((twoClients false).frame .snrm, uaReply),
        ((twoClients false).frame twoAarq, aareReply),
        ((twoClients true).frame .snrm, uaReply),
        ((twoClients true).frame twoAarq, rejectingReply),
        ((twoClients false).frame (.get clockRequest), nullReply)] := by
    decide +kernel
  obtain ⟨hread, hread', -⟩ := readsThrough_connection
  have hread'' := readsThrough_rejectingReply
  obtain ⟨hsnrm, haarq, -⟩ := replies_connection (fun _ => .data [0x00])
    (twoClients false) (hfits false) (Stream'.const 0)
  have hsnrm' : rejectingMeter.Replies .disconnected
      ((twoClients true).request .snrm) uaReply .connected :=
    replies_uaReply namesLimits_uaReply _
  have haarq' := replies_rejectingReply (twoClients true) (hfits true)
    (Stream'.const 0)
  obtain ⟨phases, hline, hphases⟩ : ∃ phases, (Peer.OnLine
      (addressee twoMeters) [] fun b => (unlikeHosts b).ClearLine).History
        (fun _ => .disconnected) (turnsStation.exchangesTo
          (performEach CosemHdlcClient.perform takingTurns turnsStation).2)
        phases ∧ phases false = .associated
          ∧ phases true = .connected := by
    rw [hexchanges]
    refine ⟨_, .cons (onLine_twoClients (b := false)
        (.answered (takes_snrm (hparams _)) hsnrm hread))
      (.cons (onLine_twoClients (b := false) (.answered
          (takes_aarq (hparams _) (hfits _) _) haarq hread'))
      (.cons (onLine_twoClients (b := true)
        (.answered (takes_snrm (hparams _)) hsnrm' hread))
      (.cons (onLine_twoClients (b := true) (.answered
          (takes_aarq (hparams _) (hfits _) _) haarq' hread''))
      (.cons (onLine_twoClients (b := false) (.answered
          (takes_get (hparams _) (Nat.zero_le _))
        (replies_nullReply _ clockRequest) readsThrough_nullReply))
      (.nil _))))), rfl, rfl⟩
  have hsessions := (clear_sessions takingTurns turnsStation
    paired_twoClients hfits (by
      intro op hop
      fin_cases hop
      · trivial
      · trivial
      · exact Nat.zero_le _) hline).2
  exact ⟨hphases.1 ▸ hsessions false, hphases.2 ▸ hsessions true⟩

/-- **On a noisy line each client has a session with its meter as well**, one
with interruptions: an operation that fails with an exception leaves its own
meter somewhere on its way, and all the rest of them come to what they come to
in a session with their meter alone, whatever the others do. -/
theorem noisy_sessions {meters : ι → Meter}
    {meterAt : Word × Word → Option ι} {phases phases' : ι → Phase}
    (ops : List (ι × Operation)) (s : Station (ι → CosemHdlcClient))
    (hpaired : Paired meterAt s.client)
    (h : (Peer.OnLine (addressee meterAt) []
        fun i => (meters i).NoisyLine).History phases
      (s.exchangesTo (performEach CosemHdlcClient.perform ops s).2) phases') :
    (performEach CosemHdlcClient.perform ops s).1.length = ops.length
      ∧ ∀ i, (meters i).InterruptedSession.History (phases i)
        (Peer.part i (ops.zip
          (performEach CosemHdlcClient.perform ops s).1)) (phases' i) := by
  have hsessions := CosemHdlcClient.transport.several.performs_of_ensures
    (ensures_through_several_noisy hpaired
      (Dialogue.ensures_inTurn ops phases)) h
  exact ⟨hsessions.1, Peer.history_sideBySide_iff.mp hsessions.2⟩

/-- They take turns, and the second meter does not get its first frame. -/
def noisyTurnsStation : Station (Bool → CosemHdlcClient) :=
  twoStation (Stream'.cons uaReply (Stream'.cons aareReply
    (Stream'.cons [] (Stream'.const nullReply))))

/-- The clock of the first meter is read all the same. -/
theorem noisy_sessions_noisyTurnsStation :
    nullMeter.InterruptedSession.History .disconnected
        (Peer.part false (takingTurns.zip (answersTo noisyTurnsStation)))
        .associated
      ∧ nullMeter.InterruptedSession.History .disconnected
        (Peer.part true (takingTurns.zip (answersTo noisyTurnsStation)))
        .disconnected := by
  have hparams := paired_twoClients.encodable
  have hfits : ∀ b, AarqFits (twoClients b).cosem.parameters :=
    fun _ => .inl rfl
  have hexchanges : noisyTurnsStation.exchangesTo
      (performEach CosemHdlcClient.perform takingTurns noisyTurnsStation).2
      = [((twoClients false).frame .snrm, uaReply),
        ((twoClients false).frame twoAarq, aareReply),
        ((twoClients true).frame .snrm, []),
        ((twoClients false).frame (.get clockRequest), nullReply)] := by
    decide +kernel
  obtain ⟨hsnrm, haarq, -⟩ := replies_connection (fun _ => .data [0x00])
    (twoClients false) (hfits false) (Stream'.const 0)
  obtain ⟨phases, hline, hphases⟩ : ∃ phases, (Peer.OnLine
      (addressee twoMeters) [] fun _ => nullMeter.NoisyLine).History
        (fun _ => .disconnected) (noisyTurnsStation.exchangesTo
          (performEach CosemHdlcClient.perform takingTurns
            noisyTurnsStation).2)
        phases ∧ phases false = .associated
          ∧ phases true = .disconnected := by
    rw [hexchanges]
    refine ⟨_, .cons (onLine_twoClients
        (.answered (takes_snrm (hparams _)) hsnrm))
      (.cons (onLine_twoClients
        (.answered (takes_aarq (hparams _) (hfits _) _) haarq))
      (.cons (onLine_twoClients .requestLost)
      (.cons (onLine_twoClients (.answered
          (takes_get (hparams _) (Nat.zero_le _))
        (replies_nullReply _ clockRequest)))
      (.nil _)))), rfl, rfl⟩
  have hsessions := (noisy_sessions takingTurns noisyTurnsStation
    paired_twoClients hline).2
  exact ⟨hphases.1 ▸ hsessions false, hphases.2 ▸ hsessions true⟩

end Meter

end Dlms
