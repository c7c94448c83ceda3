import Yadi.ClientRuns
import Yadi.RequestDecoder

/-!
# Replies that are requests

On a line with two wires the port delivers what was written to it, if nobody
takes it off. An HDLC frame of a client is no frame for a client, because the
address of the server comes first in it: so an HDLC client on a line with an
echo notices that nobody answers, at every operation
(`hdlc_hears_itself`).

Over the wrapper both directions have one form, and `parse` leaves the header
where it is. So a wrapper client takes its own association request for an
accepting answer; and it takes no get response that comes in a wrapper, its
own requests or a server's (`wrapper_reads_nothing`).
-/

namespace Dlms

open Run

/-- A list whose members are values of a function is the list of them. -/
theorem eq_map_of_forall₂ {α β : Type} {f : α → β} {as : List α}
    {bs : List β} (h : List.Forall₂ (fun a b => f a = b) as bs) :
    bs = as.map f := by
  have hmap := List.forall₂_map_left_iff.mpr h
  rw [List.forall₂_eq_eq_eq] at hmap
  exact hmap.symm

/-! ## Over HDLC -/

/-- **What the frame writer writes is no frame for the parser**, whatever is
put into it: its fourth byte does not end an address. -/
theorem Hdlc.hdlcFrameParse_frameBytes (frame : Hdlc.HdlcFrame) :
    Hdlc.hdlcFrameParse (Hdlc.frameBytes frame)
      = throws .invalidHdlcFrame := by
  refine Hdlc.hdlcFrameParse_of_not_accepted fun ⟨c, hc⟩ => ?_
  have hclear := (Hdlc.requestAddresses_frameBytes frame).1
  rw [hc.client] at hclear
  exact Bool.noConfusion hclear

/-- **An operation that is answered by an echo** throws, and leaves the
client as it was. -/
theorem CosemHdlcClient.talk_echo (op : Operation)
    (k : CosemHdlcClient × Rng) :
    (CosemHdlcClient.talk op k).Ensures
      (Peer.stateless fun q a => a = q) () fun r _ =>
        r.1 = throws .invalidHdlcFrame ∧ r.2 = k := by
  obtain ⟨client, rng⟩ := k
  cases op with
  | connect =>
    rintro a - rfl
    have hparse := Hdlc.hdlcFrameParse_frameBytes (Hdlc.requestFrame
      (Message.cmd .snrm) client.hdlcParams (client.payload .snrm))
    simp only [frame, Hdlc.parseSnrmResponse_of_throws hparse]
    exact ⟨rfl, rfl⟩
  | getRequest req =>
    rintro a - rfl
    refine ⟨?_, rfl⟩
    rw [frame, Hdlc.hdlcFrameParse_frameBytes, throws_bind]
  | disconnect =>
    rintro a - rfl
    refine ⟨?_, rfl⟩
    rw [frame, Hdlc.parseDiscResponse, Hdlc.hdlcFrameParse_frameBytes,
      throws_bind, throws_bind]

/-- **An HDLC client that hears itself** throws at every operation, and is
left with its random number generator as it was. -/
theorem hdlc_hears_itself (ops : List Operation) (s : Station CosemHdlcClient)
    (h : ∀ e ∈ exchanges CosemHdlcClient.perform ops s, e.2 = e.1) :
    (performAll CosemHdlcClient.perform ops s).1
        = ops.map (fun _ => throws .invalidHdlcFrame)
      ∧ (performAll CosemHdlcClient.perform ops s).2.client = s.client
      ∧ (performAll CosemHdlcClient.perform ops s).2.rng = s.rng := by
  have hall := @Dialogue.ensures_all_forall₂ _ _ _ _
    (Peer.stateless fun q a : List Byte => a = q) _ _
    CosemHdlcClient.talk (fun k _ => k = (s.client, s.rng))
    (fun _ r => throws .invalidHdlcFrame = r) ops
    (fun op _ k _ hk => (CosemHdlcClient.talk_echo op k).mono
      fun r _ hr => ⟨hr.1.symm, hr.2.trans hk⟩) (s.client, s.rng) () rfl
  obtain ⟨hanswers, hkept⟩ := CosemHdlcClient.transport.performAll_of_ensures
    hall (Peer.history_stateless_iff.mpr h)
  refine ⟨?_, congrArg Prod.fst hkept, congrArg Prod.snd hkept⟩
  exact eq_map_of_forall₂ hanswers

/-- A station where the port delivers the SNRM frame of the client, and then
the frame that ends the connection. -/
def echoStation : Station CosemHdlcClient where
  client := {}
  serial :=
    { incoming := Stream'.cons (CosemHdlcClient.frame {} .snrm)
        (Stream'.const (CosemHdlcClient.frame {} .disc))
      written := [] }
  rng := Stream'.const 0

/-- There to connect and to disconnect throws. -/
theorem hdlc_hears_itself_echoStation :
    (performAll CosemHdlcClient.perform [.connect, .disconnect]
      echoStation).1
        = [throws .invalidHdlcFrame, throws .invalidHdlcFrame] :=
  (hdlc_hears_itself [.connect, .disconnect] echoStation
    (by decide +kernel)).1

/-! ## Over the wrapper -/

/-- **A reply in a wrapper**, from whatever port and with whatever in it, of 1
to 65527 bytes: longer ones `wrapper_frame_complete` refuses, and the empty one
as well. -/
def IsWrapped (b : List Byte) : Prop :=
  ∃ (params : Wrapper.WrapperParameters) (data : List Byte),
    1 ≤ data.length ∧ data.length ≤ 65527 ∧ b = Wrapper.serialize params data

/-- What an operation comes to then. -/
def wrappedAnswer : Operation → Result Answer
  | .connect | .disconnect => ok (.bool true)
  | .getRequest _ => throws .invalidCosemFrame

/-- The wrapper layer hands on such a reply with its header, and that is none
of a get response. -/
theorem IsWrapped.parse {b : List Byte} (h : IsWrapped b)
    (params : Wrapper.WrapperParameters) :
    Wrapper.parse params b = ok b
      ∧ parseGetResponse b = throws .invalidCosemFrame := by
  obtain ⟨params', data, hpos, hlen, rfl⟩ := h
  refine ⟨?_, parseGetResponse_of_ne
    (show Wrapper.wrapperVersionMsb ≠ xdlmsNoCipheringGetResponse by decide)⟩
  rw [Wrapper.parse,
    (Wrapper.wrapperFrameComplete_serialize_iff params' hpos).mpr hlen]
  rfl

theorem CosemWrapperClient.talk_wrapped (op : Operation)
    (k : CosemWrapperClient × Rng) :
    (CosemWrapperClient.talk op k).Ensures
      (Peer.stateless fun _ a => IsWrapped a) () fun r _ =>
        wrappedAnswer op = r.1 := by
  obtain ⟨client, rng⟩ := k
  cases op with
  | connect =>
    intro a _ ha
    rw [Dialogue.ensures_done, (ha.parse _).1]
    rfl
  | getRequest req =>
    intro a _ ha
    rw [Dialogue.ensures_done, (ha.parse _).1, ok_bind, (ha.parse {}).2]
    rfl
  | disconnect => exact Eq.refl _

/-- **A wrapper client reads nothing that comes in a wrapper.** If every
reply is a wrapper frame with 1 to 65527 bytes in it, each operation to connect
reports an association, whatever the replies say, and each get request
throws. -/
theorem wrapper_reads_nothing (ops : List Operation)
    (s : Station CosemWrapperClient)
    (h : ∀ e ∈ exchanges CosemWrapperClient.perform ops s, IsWrapped e.2) :
    (performAll CosemWrapperClient.perform ops s).1
      = ops.map wrappedAnswer := by
  have hall := @Dialogue.ensures_all_forall₂ _ _ _ _
    (Peer.stateless fun _ a : List Byte => IsWrapped a) _ _
    CosemWrapperClient.talk (fun _ _ => True)
    (fun op r => wrappedAnswer op = r) ops
    (fun op _ k _ _ => (CosemWrapperClient.talk_wrapped op k).mono
      fun r _ hr => ⟨hr, trivial⟩) (s.client, s.rng) () trivial
  obtain ⟨hanswers, -⟩ :=
    CosemWrapperClient.transport.performAll_of_ensures hall
      (Peer.history_stateless_iff.mpr h)
  exact eq_map_of_forall₂ hanswers

/-- A client that connects to a server with a wrapped get response for every
request, and asks it for the clock. -/
def wrappedStation : Station CosemWrapperClient where
  client := {}
  serial :=
    { incoming := Stream'.const (Wrapper.serialize {} Wrapper.getResponse)
      written := [] }
  rng := Stream'.const 0

/-- It is connected, and reads nothing. -/
theorem wrapper_reads_nothing_wrappedStation :
    (performAll CosemWrapperClient.perform
      [.connect, .getRequest clockRequest] wrappedStation).1
        = [ok (.bool true), throws .invalidCosemFrame] := by
  refine wrapper_reads_nothing _ _ fun e he => ?_
  have hreply : e.2 = Wrapper.serialize {} Wrapper.getResponse := by
    revert e
    decide +kernel
  exact ⟨{}, Wrapper.getResponse, by decide, by decide, hreply⟩

end Dlms
