import Yadi.Aarq
import Yadi.HdlcRequests
import Yadi.Relational
import Yadi.Wrapper

/-!
# The two clients

`CosemHdlcClient` and `CosemWrapperClient` of `dlms.h`, over a serial port
and the random number generator. A `Station` is all three, and the operations
of a client are runs over its station: they write to the port and read from
it, and change the context of the client.

`Operation` and `performAll` are any use of a client: one operation after
another, whatever becomes of each. An operation that throws leaves the
station as it was when it threw, with all that had been written.
-/

namespace Dlms

open Run

/-! ## A client at its port -/

/-- The serial port: what the server is still to deliver, and what has been
written. -/
structure Serial where
  incoming : Stream' (List Byte)
  written : List (List Byte)

/-- **A client at its port**, and the random number generator. -/
structure Station (γ : Type) where
  client : γ
  serial : Serial
  rng : Rng

/-- A run of an operation of a client. -/
abbrev ClientRun (γ α : Type) := StateRun (Station γ) Exn α

section
variable {γ α β : Type}

/-- The client. -/
def getClient : ClientRun γ γ := fun s => (ok s.client, s)

/-- The station after a write. -/
def Station.wrote (s : Station γ) (b : List Byte) : Station γ :=
  { s with serial := { s.serial with written := s.serial.written ++ [b] } }

/-- `serial.write`. -/
def write (b : List Byte) : ClientRun γ Unit := fun s => (ok (), s.wrote b)

/-- The station after a read. -/
def Station.afterRead (s : Station γ) : Station γ :=
  { s with serial := { s.serial with incoming := s.serial.incoming.tail } }

/-- `serial.read`. -/
def read : ClientRun γ (List Byte) :=
  fun s => (ok s.serial.incoming.head, s.afterRead)

@[simp] theorem client_wrote (s : Station γ) (b : List Byte) :
    (s.wrote b).client = s.client := rfl

@[simp] theorem incoming_wrote (s : Station γ) (b : List Byte) :
    (s.wrote b).serial.incoming = s.serial.incoming := rfl

@[simp] theorem client_afterRead (s : Station γ) :
    s.afterRead.client = s.client := rfl

/-- The station with another random number generator. -/
def Station.withRng (s : Station γ) (rng : Rng) : Station γ := { s with rng }

@[simp] theorem serial_withRng (s : Station γ) (rng : Rng) :
    (s.withRng rng).serial = s.serial := rfl

/-- A run that draws from the random number generator. -/
def onRng (m : RandomRun α) : ClientRun γ α := fun s =>
  let (r, rng) := m s.rng
  (r, s.withRng rng)

theorem onRng_bind_ok {m : RandomRun α} {s : Station γ} {a : α} {rng : Rng}
    (h : m s.rng = (ok a, rng)) (f : α → ClientRun γ β) :
    (onRng m >>= f) s = f a (s.withRng rng) := by
  change StateRun.andThen _ f s = _
  rw [StateRun.andThen, onRng, h]

@[simp] theorem getClient_bind (f : γ → ClientRun γ β) (s : Station γ) :
    (getClient >>= f) s = f s.client s := rfl

@[simp] theorem write_bind (b : List Byte) (f : Unit → ClientRun γ β)
    (s : Station γ) : (write b >>= f) s = f () (s.wrote b) := rfl

@[simp] theorem read_bind (f : List Byte → ClientRun γ β) (s : Station γ) :
    (read >>= f) s = f s.serial.incoming.head s.afterRead := rfl

end

/-! ## Over HDLC -/

/-- `CosemHdlcClient`. -/
structure CosemHdlcClient where
  cosem : Cosem := {}
  hdlcCtx : Hdlc.HdlcContext := {}
  hdlcParams : Hdlc.HdlcParameters := {}

/-- The station with another HDLC context. -/
def Station.withCtx (s : Station CosemHdlcClient) (ctx : Hdlc.HdlcContext) :
    Station CosemHdlcClient :=
  { s with client := { s.client with hdlcCtx := ctx } }

@[simp] theorem serial_withCtx (s : Station CosemHdlcClient)
    (ctx : Hdlc.HdlcContext) : (s.withCtx ctx).serial = s.serial := rfl

/-- A run on the HDLC context of the client. -/
def onHdlcCtx {α : Type} (m : Hdlc.ContextRun α) :
    ClientRun CosemHdlcClient α := fun s =>
  let (r, ctx) := m s.client.hdlcCtx
  (r, s.withCtx ctx)

theorem onHdlcCtx_bind {α β : Type} (m : Hdlc.ContextRun α)
    (f : α → ClientRun CosemHdlcClient β) (s : Station CosemHdlcClient) :
    (onHdlcCtx m >>= f) s
      = match m s.client.hdlcCtx with
        | (ok a, ctx) => f a (s.withCtx ctx)
        | (throws e, ctx) => (throws e, s.withCtx ctx)
        | (fault x, ctx) => (fault x, s.withCtx ctx) := by
  change StateRun.andThen _ f s = _
  unfold StateRun.andThen onHdlcCtx
  rcases m s.client.hdlcCtx with ⟨r, ctx⟩
  cases r <;> rfl

namespace CosemHdlcClient

/-- The second half of `CosemHdlcClient::connect`, the association. -/
def associate (client : CosemHdlcClient) : ClientRun CosemHdlcClient Bool := do
  let aarq ← onRng (serializeAarq client.cosem)
  write (← onHdlcCtx (Hdlc.serialize client.hdlcParams aarq))
  let reply ← read
  let apdu ← onHdlcCtx (Hdlc.parse client.hdlcParams reply)
  return AssociationResult.accepted = parseAare client.cosem apdu

/-- `CosemHdlcClient::connect`. -/
def connect : ClientRun CosemHdlcClient Bool := do
  let client ← getClient
  write (← StateRun.lift (Hdlc.serializeSnrm client.hdlcParams))
  let reply ← read
  if !(← onHdlcCtx (Hdlc.parseSnrmResponse client.hdlcParams reply)) then
    return false
  associate client

/-- `CosemHdlcClient::disconnect`. -/
def disconnect : ClientRun CosemHdlcClient Bool := do
  let client ← getClient
  write (← StateRun.lift (Hdlc.serializeDisc client.hdlcParams))
  let reply ← read
  StateRun.lift (Hdlc.parseDiscResponse reply)

/-- `CosemHdlcClient::get_request`. -/
def getRequest (req : Request) : ClientRun CosemHdlcClient Response := do
  let client ← getClient
  write (← onHdlcCtx
    (Hdlc.serialize client.hdlcParams (serializeGetRequest client.cosem req)))
  let reply ← read
  let apdu ← onHdlcCtx (Hdlc.parse client.hdlcParams reply)
  StateRun.lift (parseGetResponse apdu)

end CosemHdlcClient

/-! ## Over the wrapper -/

/-- `CosemWrapperClient`. -/
structure CosemWrapperClient where
  cosem : Cosem := {}
  wrapperParams : Wrapper.WrapperParameters := {}

namespace CosemWrapperClient

/-- `CosemWrapperClient::connect`. -/
def connect : ClientRun CosemWrapperClient Bool := do
  let client ← getClient
  let aarq ← onRng (serializeAarq client.cosem)
  write (Wrapper.serialize client.wrapperParams aarq)
  let reply ← read
  let apdu ← StateRun.lift (Wrapper.parse client.wrapperParams reply)
  return AssociationResult.accepted = parseAare client.cosem apdu

/-- `CosemWrapperClient::disconnect`. -/
def disconnect : ClientRun CosemWrapperClient Bool := return true

/-- `CosemWrapperClient::get_request`. -/
def getRequest (req : Request) : ClientRun CosemWrapperClient Response := do
  let client ← getClient
  write (Wrapper.serialize client.wrapperParams
    (serializeGetRequest client.cosem req))
  let reply ← read
  let apdu ← StateRun.lift (Wrapper.parse client.wrapperParams reply)
  StateRun.lift (parseGetResponse apdu)

end CosemWrapperClient

/-! ## Any use of a client -/

/-- An operation of a client. -/
inductive Operation
  | connect
  | getRequest (req : Request)
  | disconnect

/-- What an operation returns. -/
inductive Answer
  | bool (b : Bool)
  | response (r : Response)
  deriving DecidableEq, Repr

def CosemHdlcClient.perform : Operation → ClientRun CosemHdlcClient Answer
  | .connect => do return .bool (← CosemHdlcClient.connect)
  | .getRequest req => do return .response (← CosemHdlcClient.getRequest req)
  | .disconnect => do return .bool (← CosemHdlcClient.disconnect)

def CosemWrapperClient.perform :
    Operation → ClientRun CosemWrapperClient Answer
  | .connect => do return .bool (← CosemWrapperClient.connect)
  | .getRequest req => do return .response (← CosemWrapperClient.getRequest req)
  | .disconnect => do return .bool (← CosemWrapperClient.disconnect)

/-- **One operation after another**, whatever becomes of each: what they
return or throw, and the station they leave. -/
def performAll {γ : Type} (perform : Operation → ClientRun γ Answer) :
    List Operation → Station γ → List (Result Answer) × Station γ
  | [], s => ([], s)
  | op :: ops, s =>
    let (r, s) := perform op s
    let (rs, s) := performAll perform ops s
    (r :: rs, s)

end Dlms
