import Yadi.Checksum

/-!
# HDLC frames

The frame layer of `hdlc_frame.cpp`: `validFrame` decides whether a buffer
is a frame, `hdlcFrameParse` takes a valid one apart and `hdlcFrameSerialize`
writes one. The three are translated statement by statement.

The receive path is written with faults. Every access to the received buffer
is a `Run.readAt`, every 16-bit offset or size goes through `toU16`, and the
loops are `Run.loop`, so that the code's own behaviour on any input is the
run of the model up to a fault, and the absence of faults is a theorem. The
send path wraps where the code wraps: the length of a frame to be sent is a
`Word`, and the size handed to `checksequenceCalc` is taken modulo `2 ^ 16`.
-/

namespace Dlms.Hdlc

open Run

/-- `HdlcCommand`. The C++ enumeration has no fixed underlying type and the
parser casts a whole control byte to it, so any byte is a value; the
enumerators are the constants below. -/
abbrev HdlcCommand := Byte

namespace HdlcCommand

def commandI : HdlcCommand := 0x00
def commandRr : HdlcCommand := 0x01
def commandRnr : HdlcCommand := 0x05
def commandSnrm : HdlcCommand := 0x83
def commandDisc : HdlcCommand := 0x43
def commandUi : HdlcCommand := 0x03
def responseI : HdlcCommand := 0x00
def responseRr : HdlcCommand := 0x01
def responseRnr : HdlcCommand := 0x05
def responseUa : HdlcCommand := 0x63
def responseDm : HdlcCommand := 0x0F
def responseFrmr : HdlcCommand := 0x87
def responseUi : HdlcCommand := 0x03

/-- The enumerators, as values. -/
def enumerators : List HdlcCommand :=
  [commandI, commandRr, commandRnr, commandSnrm, commandDisc, commandUi,
    responseI, responseRr, responseRnr, responseUa, responseDm, responseFrmr,
    responseUi]

end HdlcCommand

/-- `HdlcFrame`. -/
structure HdlcFrame where
  cmd : HdlcCommand
  clientAddress : Byte
  rrr : Byte
  sss : Byte
  physicalAddress : Word
  logicalAddress : Word
  payload : List Byte
  deriving DecidableEq, Repr

/-- A conversion to `uint16_t` on the receive path, where it must not change
the value. -/
def toU16 (n : ℕ) : Result ℕ := toUnsigned 16 n

/-! ## Receiving -/

/-- One turn of the loop of `valid_frame` that looks for the last byte of
the server address. -/
def addrOffsetRound (buffer : List Byte) (addrOffset : ℕ) :
    Result (ForInStep ℕ) := do
  if addrOffset < 4 then
    let byte ← readAt buffer (addrOffset + 4)
    if byte &&& 0x01 ≠ 0x01 then
      return .yield (← toU16 (addrOffset + 1))
    else
      return .done addrOffset
  else
    return .done addrOffset

/-- `valid_frame`. -/
def validFrame (buffer : List Byte) : Result Bool := do
  let size := buffer.length
  if size < 10 then
    return false
  if (← readAt buffer 0) ≠ 0x7E then
    return false
  if (← readAt buffer (← minus size 1)) ≠ 0x7E then
    return false
  if (← readAt buffer 1) &&& 0xF0 ≠ 0xA0 then
    return false
  if ((← readAt buffer 1) &&& 0x0F).toNat <<< 8
      ||| (← readAt buffer 2).toNat ≠ (← minus size 2) then
    return false
  let fcs := ((← readAt buffer (← minus size 2)).setWidth 16 <<< 8)
    ||| (← readAt buffer (← minus size 3)).setWidth 16
  if fcs ≠ (← checksequenceCalc buffer 1 (← toU16 (← minus size 4))) then
    return false
  if (← readAt buffer 3) &&& 0x01 ≠ 0x01 then
    return false
  let addrOffset ← loop (addrOffsetRound buffer) size 0
  if addrOffset ≠ 1 ∧ addrOffset ≠ 3 then
    return false
  if addrOffset = 3 ∧ size < 12 then
    return false
  if (← readAt buffer (addrOffset + 5)) &&& 0x10 ≠ 0x10 then
    return false
  let size ← minus size addrOffset
  let size ← minus size 9
  if size ≠ 0 ∧ size < 3 then
    return false
  if size ≠ 0 then
    let fcs := ((← readAt buffer (addrOffset + 5)).setWidth 16 <<< 8)
      ||| (← readAt buffer (addrOffset + 6)).setWidth 16
    return fcs ≠ (← checksequenceCalc buffer 1 (← toU16 (addrOffset + 5)))
  return true

/-- One turn of the loop of `hdlc_frame_parse` that gathers the server
address; the state is `address` and `offset`. -/
def addressRound (buffer : List Byte) (s : BitVec 32 × ℕ) :
    Result (ForInStep (BitVec 32 × ℕ)) := do
  let (address, offset) := s
  if address &&& 0x01 ≠ 0x01 then
    let byte ← readAt buffer offset
    let offset ← toU16 (offset + 1)
    return .yield ((address <<< 8) ||| byte.setWidth 32, offset)
  else
    return .done (address, offset)

/-- The logical and the physical address, taken out of the address bytes by
the branch that goes by the offset behind them. -/
def serverAddresses (address : BitVec 32) (offset : ℕ) : Word × Word :=
  if offset = 5 then
    (((address >>> 9) &&& 0x7F#32).setWidth 16,
      ((address >>> 1) &&& 0x7F#32).setWidth 16)
  else
    ((((address >>> 18) &&& 0x3F80#32)
        ||| ((address >>> 17) &&& 0x7F#32)).setWidth 16,
      (((address >>> 2) &&& 0x3F80#32)
        ||| ((address >>> 1) &&& 0x7F#32)).setWidth 16)

/-- `cmd`, `rrr` and `sss`, taken out of the control byte without its final
bit. -/
def controlFields (cmd : HdlcCommand) : HdlcCommand × Byte × Byte :=
  if cmd &&& 0x01#8 = 0x00#8 then
    (0x00#8, (cmd >>> 5) &&& 0x07#8, (cmd >>> 1) &&& 0x07#8)
  else
    (cmd, 0x00#8, 0x00#8)

/-- `buffer[offset++] != expected` in the test of the LLC header: the offset
behind the byte, when it is the expected one. -/
def expectByte (buffer : List Byte) (expected : Byte) (offset : ℕ) :
    Result ℕ := do
  let byte ← readAt buffer offset
  let offset ← toU16 (offset + 1)
  if byte ≠ expected then
    throws .invalidHdlcFrame
  else
    return offset

/-- The test of the LLC header: the offset behind it, in a frame that has
one. -/
def skipLlcHeader (buffer : List Byte) (cmd : HdlcCommand) (offset : ℕ) :
    Result ℕ :=
  if cmd = HdlcCommand.responseI then do
    let offset ← expectByte buffer 0xE6 offset
    let offset ← expectByte buffer 0xE7 offset
    expectByte buffer 0x00 offset
  else
    return offset

/-- The bytes from `offset` up to the last check sequence. -/
def copyPayload (buffer : List Byte) (offset : ℕ) : Result (List Byte) := do
  let first ← position buffer offset
  let last ← position buffer (← minus buffer.length 3)
  if last > first then
    copyRange buffer first last
  else
    return []

/-- `hdlc_frame_parse`. -/
def hdlcFrameParse (buffer : List Byte) : Result HdlcFrame := do
  if !(← validFrame buffer) then
    throws .invalidHdlcFrame
  else
    let offset := 3
    let clientAddress := (← readAt buffer offset) >>> 1
    let offset ← toU16 (offset + 1)
    let (address, offset) ← loop (addressRound buffer) buffer.length (0, offset)
    let (logicalAddress, physicalAddress) := serverAddresses address offset
    let cmd := (← readAt buffer offset) &&& 0xEF#8
    let offset ← toU16 (offset + 1)
    let (cmd, rrr, sss) := controlFields cmd
    let offset ← toU16 (offset + 2)
    let offset ← skipLlcHeader buffer cmd offset
    let payload ← copyPayload buffer offset
    return { cmd, clientAddress, rrr, sss, physicalAddress, logicalAddress,
             payload }

/-! ## Sending -/

/-- The length `hdlc_frame_serialize` writes into the frame, a `uint16_t`. -/
def frameSize (frame : HdlcFrame) : Word :=
  let size : Word := 10
  if frame.payload.length > 0 then
    let size := size + BitVec.ofNat 16 frame.payload.length
    let size := size + 2
    if frame.cmd = HdlcCommand.commandI then size + 3 else size
  else
    size

/-- The control byte `hdlc_frame_serialize` writes. -/
def controlByte (frame : HdlcFrame) : Byte :=
  if frame.cmd &&& 0x01#8 ≠ 0x00#8 then
    frame.cmd ||| 0x10#8
  else
    frame.cmd ||| 0x10#8 ||| (((frame.sss + 1) &&& 0x07#8) <<< 5)
      ||| ((frame.rrr &&& 0x07#8) <<< 1)

/-- `checksequence_calc(&buffer[1], buffer.size() - 1)` and the two bytes
pushed after it: the size is narrowed to a `uint16_t`. -/
def pushChecksequence (buffer : List Byte) : Result (List Byte) := do
  let fcs ← checksequenceCalc buffer 1 ((buffer.length - 1) % 2 ^ 16)
  return buffer ++ [fcs.setWidth 8, (fcs >>> 8).setWidth 8]

/-- `hdlc_frame_serialize`. -/
def hdlcFrameSerialize (frame : HdlcFrame) : Result (List Byte) := do
  let size := frameSize frame
  let buffer : List Byte :=
    [0x7E,
      0xA0 ||| ((size >>> 8) &&& 0x0F#16).setWidth 8,
      size.setWidth 8,
      ((frame.logicalAddress >>> 6) &&& 0xFE#16).setWidth 8,
      ((frame.logicalAddress <<< 1) &&& 0xFE#16).setWidth 8,
      ((frame.physicalAddress >>> 6) &&& 0xFE#16).setWidth 8,
      ((frame.physicalAddress <<< 1) &&& 0xFE#16).setWidth 8 ||| 0x01,
      (frame.clientAddress <<< 1) ||| 0x01,
      controlByte frame]
  let buffer ← pushChecksequence buffer
  let buffer :=
    if frame.cmd = HdlcCommand.commandI then
      buffer ++ [0xE6, 0xE6, 0x00]
    else
      buffer
  let buffer := buffer ++ frame.payload
  let buffer ←
    if frame.payload.length > 0 then pushChecksequence buffer else pure buffer
  return buffer ++ [0x7E]

end Dlms.Hdlc
