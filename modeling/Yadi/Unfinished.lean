import Yadi.Client
import Yadi.LogicalName

/-!
# What is not finished

Two functions of the library have a body that stops short of what they are
for. `CosemHdlcClient::authenticate` makes a request from no arguments, and a
logical name cannot be made from none, so it throws before it writes.
`emode_process` does the handshake of a meter that starts in mode E, and ends
without the baud rate it is to return.

The handshake is there twice, once in the header and once as functions that
nothing calls. They agree on every port (`emodeProcess_eq_handshake`), and
neither depends on the baud rate that is asked for.
-/

namespace Dlms

open Run

/-! ## Authentication -/

/-- `CosemHdlcClient::authenticate`. The request is made from an empty
initializer list, and so is its logical name. -/
def CosemHdlcClient.authenticate : ClientRun CosemHdlcClient Bool := do
  let client ← getClient
  let logicalName ← StateRun.lift (LogicalName.ofInitializerList [])
  write (← onHdlcCtx (Hdlc.serialize client.hdlcParams
    (serializeActionRequest client.cosem ⟨0, logicalName, 0, []⟩)))
  return true

/-- **`authenticate` throws, and nothing is sent.** -/
theorem CosemHdlcClient.authenticate_eq (s : Station CosemHdlcClient) :
    authenticate s
      = (throws (.runtimeError "logical name must be 6 bytes long"), s) :=
  rfl

/-! ## Mode E -/

/-- `EmodeBaud`. -/
inductive EmodeBaud
  | baud300 | baud600 | baud1200 | baud2400 | baud4800 | baud9600 | baud19200
  deriving DecidableEq, Repr

/-- `EmodeError`. -/
inductive EmodeError
  | emodeError
  deriving DecidableEq, Repr

/-- A run of the handshake at a port. -/
abbrev EmodeRun (α : Type) := StateRun Serial EmodeError α

/-- `serial.write`. -/
def emodeWrite (b : List Byte) : EmodeRun Unit :=
  fun s => (ok (), { s with written := s.written ++ [b] })

/-- `serial.read`. -/
def emodeRead : EmodeRun (List Byte) :=
  fun s => (ok s.incoming.head, { s with incoming := s.incoming.tail })

/-- `ask_baud_frame`, the text `/?!` and the end of a line. -/
def askBaudFrame : List Byte := [0x2F, 0x3F, 0x21, 0x0D, 0x0A]

/-- `accept_baud_frame`. -/
def acceptBaudFrame : List Byte := [0x06, 0x32, 0x00, 0x32, 0x0D, 0x0A]

/-- `emode_serialize_ask_baudrate`. -/
def emodeSerializeAskBaudrate (_baud : EmodeBaud) : List Byte := askBaudFrame

/-- `emode_serialize_accept_baudrate`. -/
def emodeSerializeAcceptBaudrate : List Byte := acceptBaudFrame

/-- `emode_parse_baudrate_response`. -/
def emodeParseBaudrateResponse (data : List Byte) : Run EmodeError Bool := do
  if 15 ≤ data.length then
    if (← readAt data (← minus data.length 2)) = 0x0D then
      return (← readAt data (← minus data.length 1)) = 0x0A
    else
      return false
  else
    return false

/-- **`emode_process`**. There is no `return` behind the last read. -/
def emodeProcess (_desiredBaudrate : EmodeBaud) : EmodeRun Unit := do
  emodeWrite askBaudFrame
  let data ← emodeRead
  if data.length < 15 then
    StateRun.lift (throws .emodeError)
  else if (← StateRun.lift (do readAt data (← minus data.length 2))) ≠ 0x0D then
    StateRun.lift (throws .emodeError)
  else if (← StateRun.lift (do readAt data (← minus data.length 1))) ≠ 0x0A then
    StateRun.lift (throws .emodeError)
  else
    emodeWrite acceptBaudFrame
    let _ ← emodeRead

/-- The same handshake by the functions for its steps. -/
def handshake (baud : EmodeBaud) : EmodeRun Unit := do
  emodeWrite (emodeSerializeAskBaudrate baud)
  let data ← emodeRead
  if ← StateRun.lift (emodeParseBaudrateResponse data) then
    emodeWrite emodeSerializeAcceptBaudrate
    let _ ← emodeRead
  else
    StateRun.lift (throws .emodeError)

/-- An identification that is accepted: it is long enough, and ends a line. -/
def IsIdentification (data : List Byte) : Prop :=
  15 ≤ data.length ∧ byteAt data (data.length - 2) = 0x0D
    ∧ byteAt data (data.length - 1) = 0x0A

instance (data : List Byte) : Decidable (IsIdentification data) :=
  inferInstanceAs (Decidable (_ ∧ _ ∧ _))

/-- The two bytes at the end are read only if they are there. -/
theorem readAt_ending {data : List Byte} (h : 15 ≤ data.length) {k : ℕ}
    (hk : 1 ≤ k) (hk' : k ≤ 2) :
    (do readAt data (← minus data.length k) : Run EmodeError Byte)
      = ok (byteAt data (data.length - k)) := by
  rw [minus_of_le (by omega), ok_bind, readAt_of_lt 0 (by omega)]
  rfl

theorem emodeParseBaudrateResponse_eq (data : List Byte) :
    emodeParseBaudrateResponse data
      = ok (decide (IsIdentification data)) := by
  unfold emodeParseBaudrateResponse IsIdentification
  by_cases hlen : 15 ≤ data.length
  · rw [if_pos hlen, minus_of_le (by omega), ok_bind, readAt_of_lt 0 (by omega),
      ok_bind]
    show (if byteAt data (data.length - 2) = 0x0D then _ else _) = _
    by_cases hreturn : byteAt data (data.length - 2) = 0x0D
    · rw [if_pos hreturn, minus_of_le (by omega), ok_bind,
        readAt_of_lt 0 (by omega), ok_bind]
      simp only [hlen, hreturn, true_and]
      rfl
    · rw [if_neg hreturn]
      simp only [hreturn, false_and, and_false, decide_false]
      rfl
  · rw [if_neg hlen]
    simp only [hlen, false_and, decide_false]
    rfl

/-- **What the handshake does at a port.** -/
theorem handshake_eq (baud : EmodeBaud) (s : Serial) :
    handshake baud s
      = if IsIdentification s.incoming.head then
          (ok (), ⟨s.incoming.tail.tail,
            s.written ++ [askBaudFrame] ++ [acceptBaudFrame]⟩)
        else
          (throws .emodeError,
            ⟨s.incoming.tail, s.written ++ [askBaudFrame]⟩) := by
  have hparse := emodeParseBaudrateResponse_eq s.incoming.head
  show (StateRun.lift (emodeParseBaudrateResponse s.incoming.head) >>= _)
    (⟨s.incoming.tail, s.written ++ [askBaudFrame]⟩ : Serial) = _
  rw [hparse, StateRun.lift_ok_bind]
  by_cases h : IsIdentification s.incoming.head
  · rw [decide_eq_true h, if_pos h]
    rfl
  · rw [decide_eq_false h, if_neg h]
    rfl

/-- **`emode_process` is that handshake**, whatever comes back. -/
theorem emodeProcess_eq_handshake (baud : EmodeBaud) (s : Serial) :
    emodeProcess baud s = handshake baud s := by
  have hrefused : ¬ IsIdentification s.incoming.head →
      (throws .emodeError, ⟨s.incoming.tail, s.written ++ [askBaudFrame]⟩)
        = handshake baud s := by
    intro h
    rw [handshake_eq, if_neg h]
  show (if s.incoming.head.length < 15 then _ else _ : EmodeRun Unit)
    (⟨s.incoming.tail, s.written ++ [askBaudFrame]⟩ : Serial) = _
  by_cases hlen : s.incoming.head.length < 15
  · rw [if_pos hlen]
    exact hrefused fun h => absurd h.1 (by omega)
  have hlen' : 15 ≤ s.incoming.head.length := by omega
  rw [if_neg hlen, readAt_ending hlen' (by decide) (by decide),
    StateRun.lift_ok_bind]
  by_cases hreturn : byteAt s.incoming.head (s.incoming.head.length - 2) = 0x0D
  · rw [if_neg (not_not.mpr hreturn),
      readAt_ending hlen' (by decide) (by decide), StateRun.lift_ok_bind]
    by_cases hline : byteAt s.incoming.head (s.incoming.head.length - 1) = 0x0A
    · rw [if_neg (not_not.mpr hline), handshake_eq,
        if_pos (show IsIdentification _ from ⟨hlen', hreturn, hline⟩)]
      rfl
    · rw [if_pos hline]
      exact hrefused fun h => hline h.2.2
  · rw [if_pos hreturn]
    exact hrefused fun h => hreturn h.2.1

end Dlms
