import Yadi.HdlcRequests
import Yadi.RequestDecoder

/-!
# Sequence numbers over a session

A session starts from a fresh context with a successful negotiation and goes
on with exchanges: an information frame is sent, and a correctly numbered
reply to it is accepted. `Session` records what was emitted, each frame with
the number of replies accepted before it, and `Session.Reachable` are the
sessions there can be.

The counters of the context are for the numbers of these frames, but nothing
reads or moves them: `getFrame` fills in constants, so every information
frame carries 0 for its own number and 2 for the number it expects
(`numbers_serialize`). The very first frame is already wrong, and so no
session with an exchange in it is correctly numbered
(`Session.Reachable.numbered_iff`).
-/

namespace Dlms.Hdlc

open Run

/-- **A session**, as far as it has come. -/
structure Session where
  ctx : HdlcContext
  /-- The information frames sent, each with the number of replies accepted
  before it. -/
  emitted : List (List Byte × ℕ)
  /-- The number of replies accepted. -/
  accepted : ℕ

/-- **A correctly numbered reply** after `sent` frames were sent and
`received` accepted: an information frame whose own number is that of the
replies before it, and which expects the frame after those sent. -/
def IsNumberedReply (reply : List Byte) (sent received : ℕ) : Prop :=
  ∃ c, ServerAddress reply c ∧ IsInformation reply c
    ∧ sendNumber (byteAt reply c) = received % 8
    ∧ receiveNumber (byteAt reply c) = sent % 8

/-- One exchange: a frame is sent, and a correctly numbered reply to it is
accepted. -/
inductive Exchange (params : HdlcParameters) (s : Session) : Session → Prop
  | intro (data reply frame payload : List Byte) (ctx ctx' : HdlcContext)
      (hsend : serialize params data s.ctx = (ok frame, ctx))
      (hreply : IsNumberedReply reply (s.emitted.length + 1) s.accepted)
      (hreceive : parse params reply ctx = (ok payload, ctx')) :
      Exchange params s
        ⟨ctx', s.emitted ++ [(frame, s.accepted)], s.accepted + 1⟩

/-- **The sessions there can be**: any number of exchanges after a successful
negotiation from a fresh context. -/
inductive Session.Reachable (params : HdlcParameters) : Session → Prop
  | start (reply : List Byte) (ctx : HdlcContext)
      (h : parseSnrmResponse params reply {} = (ok true, ctx)) :
      Session.Reachable params ⟨ctx, [], 0⟩
  | exchange {s s' : Session} (hs : Session.Reachable params s)
      (h : Exchange params s s') : Session.Reachable params s'

/-- **A session is correctly numbered** if the frame at each position carries
that position and the number of replies accepted before it, both modulo 8. -/
def Session.Numbered (s : Session) : Prop :=
  ∀ n frame accepted, s.emitted[n]? = some (frame, accepted) →
    sendNumber (byteAt frame 8) = n % 8
      ∧ receiveNumber (byteAt frame 8) = accepted % 8

/-- **Every information frame carries the same two numbers.** -/
theorem numbers_serialize {params : HdlcParameters} {data frame : List Byte}
    {ctx ctx' : HdlcContext}
    (h : serialize params data ctx = (ok frame, ctx')) :
    sendNumber (byteAt frame 8) = 0 ∧ receiveNumber (byteAt frame 8) = 2 := by
  have hframe : frameBytes (requestFrame HdlcCommand.commandI params data)
      = frame := by
    rw [serialize_eq, Prod.mk.injEq, Run.ok.injEq] at h
    exact h.1
  rw [← hframe, byteAt_frameBytes _ (by decide)]
  exact numbers_controlByte rfl

/-- What holds of all sessions: every frame carries the same two numbers, and
the first one was sent before any reply. -/
structure Session.Constant (s : Session) : Prop where
  numbers : ∀ e ∈ s.emitted,
    sendNumber (byteAt e.1 8) = 0 ∧ receiveNumber (byteAt e.1 8) = 2
  first : ∀ e ∈ s.emitted.head?, e.2 = 0
  accepted : s.accepted = s.emitted.length

/-- An exchange keeps it. -/
theorem Exchange.constant {params : HdlcParameters} {s s' : Session}
    (h : Exchange params s s') (hs : s.Constant) : s'.Constant := by
  obtain ⟨data, reply, frame, payload, ctx, ctx', hsend, -, -⟩ := h
  refine ⟨fun e he => ?_, fun e he => ?_, ?_⟩
  · rcases List.mem_append.mp he with he | he
    · exact hs.numbers e he
    · rw [List.mem_singleton.mp he]
      exact numbers_serialize hsend
  · cases hemitted : s.emitted with
    | nil =>
      -- the frame sent now is the first, and no reply was accepted yet
      have haccepted := hs.accepted
      simp only [hemitted, List.nil_append, List.head?_cons, Option.mem_def,
        Option.some.injEq] at he
      rw [← he, haccepted, hemitted, List.length_nil]
    | cons e' rest =>
      simp only [hemitted, List.cons_append, List.head?_cons] at he
      exact hs.first e (by rw [hemitted]; exact he)
  · simp only [List.length_append, List.length_singleton, hs.accepted]

/-- **It holds of every session.** -/
theorem Session.Reachable.constant {params : HdlcParameters} {s : Session}
    (h : s.Reachable params) : s.Constant := by
  induction h with
  | start reply ctx h => exact ⟨nofun, nofun, rfl⟩
  | exchange hs h ih => exact h.constant ih

/-- **No session with an exchange in it is correctly numbered.** -/
theorem Session.Reachable.numbered_iff {params : HdlcParameters}
    {s : Session} (h : s.Reachable params) :
    s.Numbered ↔ s.emitted = [] := by
  have hconstant := h.constant
  constructor
  · intro hnumbered
    cases hemitted : s.emitted with
    | nil => rfl
    | cons e rest =>
      -- the frame sent first, before any reply, expects number 2
      have hmem : e ∈ s.emitted := hemitted ▸ List.mem_cons_self
      have hzero : e.2 = 0 := hconstant.first e (by rw [hemitted]; rfl)
      have hfirst := (hnumbered 0 e.1 e.2 (by rw [hemitted]; rfl)).2
      rw [(hconstant.numbers e hmem).2, hzero] at hfirst
      exact absurd hfirst (by decide)
  · intro hempty n frame accepted hget
    rw [hempty] at hget
    exact absurd hget nofun

/-- A UA frame that sets no limits. -/
def uaReply : List Byte :=
  [0x7E, 0xA0, 0x0F, 0x03, 0x00, 0x02, 0xFE, 0xFF, 0x73, 0x6D, 0xF0, 0x80,
    0x81, 0x00, 0x8F, 0x56, 0x7E]

/-- A session with one exchange. -/
def firstExchange : Session where
  ctx := {}
  emitted := [(frameBytes (requestFrame HdlcCommand.commandI {} [0xC0]), 0)]
  accepted := 1

theorem reachable_firstExchange : firstExchange.Reachable {} := by
  exact .exchange (.start uaReply {} (by decide +kernel)) (.intro [0xC0]
    replyFrame _ [0xC4] {} {} (serialize_eq {} [0xC0] {})
    ⟨8, by decide, by decide, by decide, by decide⟩ (by decide +kernel))

/-- It is not correctly numbered. -/
theorem numbered_iff_firstExchange : ¬ firstExchange.Numbered :=
  fun h => List.cons_ne_nil _ _
    (reachable_firstExchange.numbered_iff.mp h)

/-- The frame sent first expects number 2, before any reply. -/
theorem firstExchange_misnumbered :
    firstExchange.Reachable {} ∧ ∃ frame,
      firstExchange.emitted[0]? = some (frame, 0)
        ∧ receiveNumber (byteAt frame 8) = 2 ∧ ¬ firstExchange.Numbered := by
  have hnumber : receiveNumber (byteAt
      (frameBytes (requestFrame HdlcCommand.commandI {} [0xC0])) 8) = 2 := by
    decide +kernel
  refine ⟨reachable_firstExchange, _, rfl, hnumber, fun h => ?_⟩
  have hfirst := (h 0 _ 0 rfl).2
  rw [hnumber] at hfirst
  exact absurd hfirst (by decide)

end Dlms.Hdlc
