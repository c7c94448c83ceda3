import Yadi.Client
import Yadi.Session

/-!
# When a client reports an association

`CosemHdlcClient.connect` sends two frames and reads two replies. It stops
after the first if that does not negotiate, so the association request is
only sent over a connection. The second reply is to carry an AARE whose
result says that the association is accepted; `parseAare` does not look at
it.

So `connect` returns `true` for whatever comes in an HDLC frame, and it is
right exactly if a first reply that negotiates is followed by an accepting
AARE, or by no frame at all (`connect_safe_iff`).
-/

namespace Dlms

open Run Ber

/-- **An AARE**: one element with tag 61 that is all of the APDU, made of
well-formed components, of which one is the association result. -/
def IsAare (result : Byte) (apdu : List Byte) : Prop :=
  ∃ content ts, (Tlv.mk 0x61 content).Spans apdu ∧ IsSequence ts content
    ∧ Components ts ∧ explicitValue ts 2 = some [result]

/-- An AARE starts with its tag. -/
theorem IsAare.tag {result x : Byte} {b : List Byte}
    (h : IsAare result (x :: b)) : x = 0x61 := by
  obtain ⟨content, ts, hspans, -⟩ := h
  obtain ⟨-, n, body, -, -, ht, -⟩ := readTlv_eq_some_iff.mp hspans
  exact (congrArg Tlv.tag ht).symm

/-- **An AARE that accepts the association**: its result is 0. -/
def IsAcceptingAare (apdu : List Byte) : Prop := IsAare 0x00 apdu

namespace CosemHdlcClient

/-- What `parse_snrm_response` makes of the first reply. -/
def firstReply (s : Station CosemHdlcClient) : Result Bool :=
  (Hdlc.parseSnrmResponse s.client.hdlcParams (s.serial.incoming.get 0)
    s.client.hdlcCtx).1

/-- The frame in the second reply. -/
def secondReply (s : Station CosemHdlcClient) : Result Hdlc.HdlcFrame :=
  Hdlc.hdlcFrameParse (s.serial.incoming.get 1)

/-- The first frame `connect` writes. -/
def snrmFrame (s : Station CosemHdlcClient) : List Byte :=
  Hdlc.frameBytes (Hdlc.requestFrame Hdlc.HdlcCommand.commandSnrm
    s.client.hdlcParams (Hdlc.limitParameter 0x05
        s.client.hdlcParams.maxInformationFieldLengthTx
      ++ Hdlc.limitParameter 0x06
        s.client.hdlcParams.maxInformationFieldLengthRx))

theorem serializeSnrm_eq (s : Station CosemHdlcClient) :
    Hdlc.serializeSnrm s.client.hdlcParams = ok (snrmFrame s) :=
  Hdlc.getFrame_eq _ _ _

/-- `connect` up to the first reply. -/
theorem connect_eq (s : Station CosemHdlcClient) :
    connect s
      = match Hdlc.parseSnrmResponse s.client.hdlcParams
          (s.serial.incoming.get 0) s.client.hdlcCtx with
        | (ok true, ctx) => associate s.client
            ((s.wrote (snrmFrame s)).afterRead.withCtx ctx)
        | (r, ctx) => (r, (s.wrote (snrmFrame s)).afterRead.withCtx ctx) := by
  rw [connect, getClient_bind, serializeSnrm_eq, StateRun.lift_ok_bind,
    write_bind, read_bind, onHdlcCtx_bind]
  simp only [client_afterRead, client_wrote, incoming_wrote]
  rcases Hdlc.parseSnrmResponse s.client.hdlcParams
    (s.serial.incoming.get 0) s.client.hdlcCtx with ⟨r, ctx⟩
  rcases r with (_ | _) | e | x <;> rfl

/-- **Without a negotiation** `connect` writes one frame and does not return
`true`. -/
theorem connect_of_ne {s : Station CosemHdlcClient}
    (h : firstReply s ≠ ok true) :
    (connect s).1 ≠ ok true
      ∧ (connect s).2.serial.written = s.serial.written ++ [snrmFrame s] := by
  unfold firstReply at h
  rw [connect_eq]
  rcases hfirst : Hdlc.parseSnrmResponse s.client.hdlcParams
    (s.serial.incoming.get 0) s.client.hdlcCtx with ⟨r, ctx⟩
  rw [hfirst] at h
  rcases r with (_ | _) | e | x
  · exact ⟨nofun, rfl⟩
  · exact absurd rfl h
  · exact ⟨nofun, rfl⟩
  · exact ⟨nofun, rfl⟩

/-- `associate` returns `true` for whatever comes in a frame. -/
theorem associate_eq (client : CosemHdlcClient)
    (s : Station CosemHdlcClient) :
    (associate client s).1
      = (Hdlc.hdlcFrameParse s.serial.incoming.head >>= fun _ => ok true) := by
  rw [associate, onRng_bind_ok (serializeAarq_eq _ _), onHdlcCtx_bind,
    Hdlc.serialize_eq]
  simp only [write_bind, read_bind, onHdlcCtx_bind, Hdlc.parse_eq,
    incoming_wrote, serial_withCtx, serial_withRng]
  cases Hdlc.hdlcFrameParse s.serial.incoming.head <;> rfl

/-- **After a negotiation** so does `connect`. -/
theorem connect_of_eq {s : Station CosemHdlcClient}
    (h : firstReply s = ok true) :
    (connect s).1 = (secondReply s >>= fun _ => ok true) := by
  unfold firstReply at h
  rw [connect_eq]
  rcases hfirst : Hdlc.parseSnrmResponse s.client.hdlcParams
    (s.serial.incoming.get 0) s.client.hdlcCtx with ⟨r, ctx⟩
  obtain rfl : r = ok true := by rw [← h, hfirst]
  exact associate_eq _ _

/-- **`connect` is safe** at a station: it writes more than the SNRM frame
only if the first reply negotiates, and it returns `true` only if, besides,
the APDU of the second accepts the association. -/
def ConnectSafe (s : Station CosemHdlcClient) : Prop :=
  ((connect s).2.serial.written ≠ s.serial.written ++ [snrmFrame s] →
      firstReply s = ok true)
    ∧ ((connect s).1 = ok true → firstReply s = ok true
      ∧ ∃ frame, secondReply s = ok frame ∧ IsAcceptingAare frame.payload)

/-- **When `connect` is safe**: a first reply that negotiates is followed by
an accepting AARE, or by no frame. -/
theorem connect_safe_iff (s : Station CosemHdlcClient) :
    ConnectSafe s ↔ (firstReply s = ok true →
      ∀ frame, secondReply s = ok frame → IsAcceptingAare frame.payload) := by
  constructor
  · rintro ⟨-, h⟩ hfirst frame hsecond
    have htrue := connect_of_eq hfirst
    rw [hsecond, ok_bind] at htrue
    obtain ⟨-, frame', hsecond', haare⟩ := h htrue
    rw [hsecond, Run.ok.injEq] at hsecond'
    rw [hsecond']
    exact haare
  · intro h
    by_cases hfirst : firstReply s = ok true
    · refine ⟨fun _ => hfirst, fun htrue => ⟨hfirst, ?_⟩⟩
      -- `true` means that the second reply was a frame
      rw [connect_of_eq hfirst] at htrue
      cases hsecond : secondReply s with
      | ok frame => exact ⟨frame, rfl, h hfirst frame hsecond⟩
      | throws e =>
        rw [hsecond, throws_bind] at htrue
        cases htrue
      | fault x =>
        rw [hsecond] at htrue
        cases htrue
    · obtain ⟨hne, hwritten⟩ := connect_of_ne hfirst
      exact ⟨fun hmore => absurd hwritten hmore, fun htrue => absurd htrue hne⟩

/-- A station with a fresh client, where a UA frame comes first and then an
information frame with the single byte `C4`. -/
def deceivedStation : Station CosemHdlcClient where
  client := {}
  serial :=
    { incoming := Stream'.cons Hdlc.uaReply (Stream'.const Hdlc.replyFrame)
      written := [] }
  rng := Stream'.const 0

/-- There the client reports an association, and has seen no AARE. -/
theorem connect_deceivedStation :
    (connect deceivedStation).1 = ok true
      ∧ ¬ ConnectSafe deceivedStation := by
  have htrue : (connect deceivedStation).1 = ok true := by decide +kernel
  refine ⟨htrue, fun h => ?_⟩
  obtain ⟨-, frame, hsecond, haare⟩ := h.2 htrue
  have hpayload : secondReply deceivedStation
      = ok (Hdlc.parsed Hdlc.replyFrame 8) := by decide +kernel
  rw [hpayload, Run.ok.injEq] at hsecond
  rw [← hsecond, show (Hdlc.parsed Hdlc.replyFrame 8).payload = [0xC4]
    by decide +kernel] at haare
  exact absurd (IsAare.tag haare) (by decide)

end CosemHdlcClient

end Dlms
