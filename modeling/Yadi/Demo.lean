import Yadi.Conversation
import Yadi.DataType
import Yadi.LogicalName

/-!
# The demo

`main` of the demo connects to a meter, gets the serial number and the active
energy, writes both to the log as texts, and disconnects. Everything is in one
`try` block, and an exception on the way goes to the log too, but nothing else
is done about it.

As far as the client is concerned, `main` is a `Program`
(`transaction_eq_runProgram`), with the handlers around it (`main_eq`): it
depends on the answers to its operations, and on nothing else, what it asks next
and what it writes to the log.
-/

namespace Dlms

open Run

namespace Demo

/-! ## The log -/

/-- `spdlog::level`, as far as it is used. -/
inductive Level
  | info | error
  deriving DecidableEq, Repr

/-- What is put into a message. -/
inductive Argument
  | none
  | number (n : Byte)
  | text (bytes : List Byte)
  | what (what : String)
  deriving DecidableEq, Repr

/-- **An entry of the log.** -/
structure Entry where
  level : Level
  format : String
  argument : Argument
  deriving DecidableEq, Repr

def initiating : Entry := ⟨.info, "initiating transaction..", .none⟩

def failToConnect : Entry := ⟨.error, "fail to connect", .none⟩

def serialNumberFailure (result : DataAccessResult) : Entry :=
  ⟨.error, "failure to read serial number: \x7b\x7d", .number result⟩

def serialNumber (text : List Byte) : Entry :=
  ⟨.info, "serial number = \x7b\x7d", .text text⟩

def activeEnergyFailure (result : DataAccessResult) : Entry :=
  ⟨.error, "failure to read active energy: \x7b\x7d", .number result⟩

def activeEnergy (text : List Byte) : Entry :=
  ⟨.info, "active energy = \x7b\x7d", .text text⟩

def finished : Entry := ⟨.info, "transaction finished", .none⟩

/-- What the handlers write: the one for a `std::runtime_error` comes first,
and the exceptions of the library that are none have texts of their own. -/
def caught : Exn → Entry
  | .runtimeError what | .underflowError what =>
    ⟨.error, "runtime error: \x7b\x7d", .what what⟩
  | .invalidHdlcFrame =>
    ⟨.error, "exception: \x7b\x7d", .what "invalid hdlc frame"⟩
  | .invalidCosemFrame =>
    ⟨.error, "exception: \x7b\x7d", .what "invalid cosem frame"⟩

/-! ## The program -/

/-- The client at its port, and what is in the log. -/
structure State where
  station : Station CosemHdlcClient
  log : List Entry

/-- A run of the demo. -/
abbrev DemoRun (α : Type) := StateRun State Exn α

/-- `logger->info` and `logger->error`. -/
def log (e : Entry) : DemoRun Unit :=
  fun s => (ok (), { s with log := s.log ++ [e] })

/-- The first thing the demo reads. -/
def serialNumberRequest : Request := ⟨1, .ofBytes 0 0 96 1 0 255, 2, []⟩

/-- The second. -/
def activeEnergyRequest : Request := ⟨3, .ofBytes 1 0 1 8 0 255, 2, []⟩

/-- The entry that is made of a response. -/
def entryOf (failure : Entry) (value : List Byte → Entry) (r : Response) :
    Result Entry :=
  if r.result ≠ 0 then
    ok failure
  else
    toString r.data >>= fun text => ok (value text)

end Demo

end Dlms
