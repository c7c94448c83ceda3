import Yadi.FrameParse

/-!
# The HDLC layer

The functions of `hdlc.cpp`, over the frame layer: building the frames a
client sends, and reading the replies. The context is passed by reference, so
the functions that take it are `StateRun`s over `HdlcContext`.

The last section is the safety of the receive path. Whatever bytes arrive,
`hdlcFrameParse`, `parse`, `parseDiscResponse` and `parseSnrmResponse` are
clean: they return or throw, so no read leaves the buffer or the payload, no
16-bit offset or size wraps, and every loop ends
(`receive_clean`). The negotiation loop needs an argument of its own, because
it bounds its offset by the payload and reads the buffer: a payload is never
longer than the buffer it was copied from.
-/

namespace Dlms.Hdlc

open Run

/-- `HdlcParameters`. -/
structure HdlcParameters where
  clientAddress : Byte := 1
  serverAddressLen : Byte := 4
  serverLogicalAddress : Word := 1
  serverPhysicalAddress : Word := 0x3FFF
  maxInformationFieldLengthTx : Word := 128
  maxInformationFieldLengthRx : Word := 128
  deriving DecidableEq, Repr

/-- `HdlcContext`. -/
structure HdlcContext where
  rxSss : Byte := 0
  txSss : Byte := 0
  maxInformationFieldLengthTx : Word := 128
  maxInformationFieldLengthRx : Word := 128
  deriving DecidableEq, Repr

/-- A run of a function that takes the context by reference. -/
abbrev ContextRun (α : Type) := StateRun HdlcContext Exn α

/-! ## Sending -/

/-- The frame `get_frame` fills in. -/
def requestFrame (cmd : HdlcCommand) (params : HdlcParameters)
    (data : List Byte) : HdlcFrame where
  cmd := cmd
  clientAddress := params.clientAddress
  logicalAddress := params.serverLogicalAddress
  physicalAddress := params.serverPhysicalAddress
  rrr := 0
  sss := 1
  payload := data

/-- `get_frame`. -/
def getFrame (cmd : HdlcCommand) (params : HdlcParameters)
    (data : List Byte) : Result (List Byte) :=
  hdlcFrameSerialize (requestFrame cmd params data)

/-- The bytes `serialize_snrm` writes for one limit: none for the default,
one value byte below it and two above it. -/
def limitParameter (id : Byte) (limit : Word) : List Byte :=
  if limit < 128 then [id, 1, limit.setWidth 8]
  else if limit > 128 then [id, 2, (limit >>> 8).setWidth 8, limit.setWidth 8]
  else []

/-- `serialize_snrm`. -/
def serializeSnrm (params : HdlcParameters) : Result (List Byte) :=
  let tempBuffer := limitParameter 0x05 params.maxInformationFieldLengthTx
    ++ limitParameter 0x06 params.maxInformationFieldLengthRx
  getFrame HdlcCommand.commandSnrm params tempBuffer

/-- `serialize_disc`. -/
def serializeDisc (params : HdlcParameters) : Result (List Byte) :=
  getFrame HdlcCommand.commandDisc params []

/-- `hdlc::serialize`. -/
def serialize (params : HdlcParameters) (data : List Byte) :
    ContextRun (List Byte) :=
  StateRun.lift (getFrame HdlcCommand.commandI params data)

/-! ## Receiving -/

/-- `hdlc::parse`. -/
def parse (_params : HdlcParameters) (buffer : List Byte) :
    ContextRun (List Byte) := do
  let frame ← StateRun.lift (hdlcFrameParse buffer)
  return frame.payload

/-- `parse_disc_response`. -/
def parseDiscResponse (buffer : List Byte) : Result Bool := do
  let frame ← hdlcFrameParse buffer
  return frame.cmd = HdlcCommand.responseUa

/-- One turn of the inner loop of `parse_snrm_response`; the state is `len`,
`offset` and `value`. -/
def valueRound (buffer payload : List Byte) (s : Byte × ℕ × BitVec 32) :
    Result (ForInStep (Byte × ℕ × BitVec 32)) := do
  let (len, offset, value) := s
  if len < 4 ∧ offset < payload.length then
    -- `len-- != 0` counts down also when it fails
    if len ≠ 0 then
      let byte ← readAt buffer offset
      return .yield (len - 1, offset + 1, (value <<< 8) ||| byte.setWidth 32)
    else
      return .done (len - 1, offset, value)
  else
    return .done (len, offset, value)

/-- `std::min` of a limit and a value narrowed to 16 bits. -/
def minLimit (limit : Word) (value : BitVec 32) : Word :=
  if value.setWidth 16 < limit then value.setWidth 16 else limit

/-- The `switch` of `parse_snrm_response`. -/
def setLimit (params : HdlcParameters) (id : Byte) (value : BitVec 32)
    (ctx : HdlcContext) : HdlcContext :=
  if id = 5 then
    { ctx with maxInformationFieldLengthTx :=
        minLimit params.maxInformationFieldLengthTx value }
  else if id = 6 then
    { ctx with maxInformationFieldLengthRx :=
        minLimit params.maxInformationFieldLengthRx value }
  else
    ctx

/-- One turn of the outer loop of `parse_snrm_response`; the state is
`offset`, an `unsigned int`, and the context. -/
def parameterRound (params : HdlcParameters) (buffer payload : List Byte)
    (s : ℕ × HdlcContext) : Result (ForInStep (ℕ × HdlcContext)) := do
  let (offset, ctx) := s
  if offset + 1 < payload.length then
    let id ← readAt payload offset
    let len ← readAt payload (offset + 1)
    let (_, offset, value) ←
      loop (valueRound buffer payload) (payload.length + 1) (len, offset + 2, 0)
    return .yield (offset, setLimit params id value ctx)
  else
    return .done (offset, ctx)

/-- The context `parse_snrm_response` starts the negotiation from. -/
def resetLimits (params : HdlcParameters) (ctx : HdlcContext) : HdlcContext :=
  { ctx with
    maxInformationFieldLengthRx := params.maxInformationFieldLengthRx
    maxInformationFieldLengthTx := params.maxInformationFieldLengthTx }

/-- What its loop starts from: `offset`, and the context. -/
def parameterStart (params : HdlcParameters) (ctx : HdlcContext) :
    ℕ × HdlcContext :=
  (0, resetLimits params ctx)

/-- `parse_snrm_response`. -/
def parseSnrmResponse (params : HdlcParameters) (buffer : List Byte) :
    ContextRun Bool := do
  let frame ← StateRun.lift (hdlcFrameParse buffer)
  let payload := frame.payload
  if payload.length = 0 then
    return false
  if payload.length < 3 then
    return false
  if (← StateRun.lift (readAt payload 0)) ≠ 0x80 then
    return false
  if (← StateRun.lift (readAt payload 1)) ≠ 0x81 then
    return false
  if frame.cmd ≠ HdlcCommand.responseUa then
    return false
  let ctx ← StateRun.get
  let (_, ctx) ← StateRun.lift (loop (parameterRound params buffer payload)
    (payload.length + 1) (parameterStart params ctx))
  StateRun.set ctx
  return true

/-! ## The loops of the negotiation -/

/-- One turn of the inner loop reads below the end of the payload and moves
the offset on by at most one. -/
theorem valueRound_keeps {buffer payload : List Byte}
    (h : payload.length ≤ buffer.length) (start : ℕ)
    (s : Byte × ℕ × BitVec 32)
    (hs : start ≤ s.2.1 ∧ s.2.1 ≤ payload.length) :
    ∃ t, valueRound buffer payload s = ok t ∧ RoundKeeps
      (fun s => start ≤ s.2.1 ∧ s.2.1 ≤ payload.length)
      (fun s => start ≤ s.2.1 ∧ s.2.1 ≤ payload.length)
      (fun s => payload.length - s.2.1) s t := by
  obtain ⟨len, offset, value⟩ := s
  rw [valueRound]
  by_cases hc : len < 4 ∧ offset < payload.length
  · rw [if_pos hc]
    by_cases hlen : len ≠ 0
    · rw [if_pos hlen, readAt_byte (by omega)]
      exact ⟨_, rfl, ⟨Nat.le_succ_of_le hs.1, hc.2⟩,
        Nat.sub_lt_sub_left hc.2 (Nat.lt_succ_self offset)⟩
    · rw [if_neg hlen]
      exact ⟨_, rfl, hs⟩
  · rw [if_neg hc]
    exact ⟨_, rfl, hs⟩

/-- **The inner loop returns**, with an offset between where it started and
the end of the payload. -/
theorem value_loop {buffer payload : List Byte}
    (h : payload.length ≤ buffer.length) (len : Byte) (offset : ℕ)
    (hoff : offset ≤ payload.length) :
    ∃ len' offset' value, loop (valueRound buffer payload)
        (payload.length + 1) (len, offset, 0) = ok (len', offset', value)
      ∧ offset ≤ offset' ∧ offset' ≤ payload.length := by
  obtain ⟨⟨len', offset', value⟩, hloop, hpost⟩ := loop_returns _ _ _
    (valueRound_keeps h offset) (payload.length + 1) (len, offset, 0)
    ⟨le_refl _, hoff⟩
    (Nat.lt_succ_of_le (Nat.sub_le _ _))
  exact ⟨len', offset', value, hloop, hpost⟩

/-- **One turn of the outer loop** assigns a limit, or none, and moves the
offset on by at least two. -/
theorem parameterRound_yields {params : HdlcParameters}
    {buffer payload : List Byte} (h : payload.length ≤ buffer.length)
    {offset : ℕ} (ctx : HdlcContext) (hc : offset + 1 < payload.length) :
    ∃ offset' value, parameterRound params buffer payload (offset, ctx)
        = ok (.yield (offset',
            setLimit params (byteAt payload offset) value ctx))
      ∧ offset + 2 ≤ offset' ∧ offset' ≤ payload.length := by
  -- the inner loop starts behind the identifier and the length
  obtain ⟨len', offset', value, hvalue, hlo, hhi⟩ :=
    value_loop h (byteAt payload (offset + 1)) (offset + 2) (by omega)
  refine ⟨offset', value, ?_, hlo, hhi⟩
  rw [parameterRound, if_pos hc, readAt_byte (by omega), ok_bind,
    readAt_byte hc, ok_bind, hvalue]
  rfl

/-- It keeps what every assignment of a limit keeps. -/
theorem parameterRound_keeps {params : HdlcParameters}
    {buffer payload : List Byte} (h : payload.length ≤ buffer.length)
    {I : HdlcContext → Prop}
    (hI : ∀ id value ctx, I ctx → I (setLimit params id value ctx))
    (s : ℕ × HdlcContext) (hs : s.1 ≤ payload.length ∧ I s.2) :
    ∃ t, parameterRound params buffer payload s = ok t ∧ RoundKeeps
      (fun s => s.1 ≤ payload.length ∧ I s.2) (fun s => I s.2)
      (fun s => payload.length - s.1) s t := by
  obtain ⟨offset, ctx⟩ := s
  by_cases hc : offset + 1 < payload.length
  · obtain ⟨offset', value, hround, hlo, hhi⟩ :=
      parameterRound_yields h ctx hc
    exact ⟨_, hround, ⟨hhi, hI _ _ _ hs.2⟩, Nat.sub_lt_sub_left (by omega)
      (show offset < offset' by omega)⟩
  · rw [parameterRound, if_neg hc]
    exact ⟨_, rfl, hs.2⟩

/-- **The outer loop returns**, and keeps what every assignment of a limit
keeps. -/
theorem parameter_loop {params : HdlcParameters} {buffer payload : List Byte}
    (h : payload.length ≤ buffer.length) {I : HdlcContext → Prop}
    (hI : ∀ id value ctx, I ctx → I (setLimit params id value ctx))
    {ctx : HdlcContext} (hctx : I (resetLimits params ctx)) :
    ∃ offset ctx', loop (parameterRound params buffer payload)
        (payload.length + 1) (parameterStart params ctx) = ok (offset, ctx')
      ∧ I ctx' := by
  obtain ⟨⟨offset, ctx'⟩, hloop, hpost⟩ := loop_returns _ _ _
    (parameterRound_keeps h hI) (payload.length + 1)
    (parameterStart params ctx) ⟨Nat.zero_le _, hctx⟩
    (Nat.lt_succ_of_le (Nat.sub_le _ _))
  exact ⟨offset, ctx', hloop, hpost⟩

/-! ## What the negotiation answers -/

/-- A payload is no longer than the buffer it was copied from. -/
theorem length_payload_le {b : List Byte} {frame : HdlcFrame}
    (h : hdlcFrameParse b = ok frame) : frame.payload.length ≤ b.length := by
  obtain ⟨c, -, -, rfl⟩ := hdlcFrameParse_eq_ok_iff.mp h
  rw [parsed, length_slice]
  omega

/-- What `parse_snrm_response` asks of a frame before it reads the limits: a
UA frame whose payload starts with `80 81` and is not over with that. -/
structure Negotiates (frame : HdlcFrame) : Prop where
  length : 3 ≤ frame.payload.length
  format : byteAt frame.payload 0 = 0x80
  group : byteAt frame.payload 1 = 0x81
  cmd : frame.cmd = HdlcCommand.responseUa

/-- **A frame that does not negotiate** makes `parse_snrm_response` return
`false` and leaves the context alone. -/
theorem parseSnrmResponse_of_not {params : HdlcParameters}
    {ctx : HdlcContext} {b : List Byte} {frame : HdlcFrame}
    (hparse : hdlcFrameParse b = ok frame) (h : ¬ Negotiates frame) :
    parseSnrmResponse params b ctx = (ok false, ctx) := by
  rw [parseSnrmResponse, hparse, StateRun.lift_ok_bind]
  by_cases h0 : frame.payload.length = 0
  · simp only [if_pos h0, StateRun.pure_apply]
  by_cases h3 : frame.payload.length < 3
  · simp only [if_neg h0, if_pos h3, StateRun.pure_apply]
  simp only [if_neg h0, if_neg h3]
  rw [readAt_byte (by omega), StateRun.lift_ok_bind]
  by_cases hformat : byteAt frame.payload 0 ≠ 0x80
  · rw [if_pos hformat, StateRun.pure_apply]
  rw [if_neg hformat, readAt_byte (by omega), StateRun.lift_ok_bind]
  by_cases hgroup : byteAt frame.payload 1 ≠ 0x81
  · rw [if_pos hgroup, StateRun.pure_apply]
  rw [if_neg hgroup]
  by_cases hcmd : frame.cmd ≠ HdlcCommand.responseUa
  · rw [if_pos hcmd, StateRun.pure_apply]
  · exact absurd ⟨not_lt.mp h3, not_not.mp hformat, not_not.mp hgroup,
      not_not.mp hcmd⟩ h

/-- **A frame that negotiates** makes `parse_snrm_response` return `true`, in
the context the loop ends with. -/
theorem parseSnrmResponse_eq_of_loop {params : HdlcParameters}
    {ctx ctx' : HdlcContext} {b : List Byte} {frame : HdlcFrame} {offset : ℕ}
    (hparse : hdlcFrameParse b = ok frame) (h : Negotiates frame)
    (hloop : loop (parameterRound params b frame.payload)
      (frame.payload.length + 1) (parameterStart params ctx)
        = ok (offset, ctx')) :
    parseSnrmResponse params b ctx = (ok true, ctx') := by
  have hlen := h.length
  rw [parseSnrmResponse, hparse, StateRun.lift_ok_bind]
  simp only [if_neg (show ¬ frame.payload.length = 0 by omega),
    if_neg (not_lt.mpr hlen)]
  rw [readAt_byte (by omega), StateRun.lift_ok_bind,
    if_neg (not_not.mpr h.format), readAt_byte (by omega),
    StateRun.lift_ok_bind, if_neg (not_not.mpr h.group),
    if_neg (not_not.mpr h.cmd), StateRun.get_bind, hloop,
    StateRun.lift_ok_bind, StateRun.set_bind, StateRun.pure_apply]

/-- That context keeps what every assignment of a limit keeps. -/
theorem parseSnrmResponse_of_negotiates {params : HdlcParameters}
    {ctx : HdlcContext} {b : List Byte} {frame : HdlcFrame}
    (hparse : hdlcFrameParse b = ok frame) (h : Negotiates frame)
    {I : HdlcContext → Prop}
    (hI : ∀ id value ctx, I ctx → I (setLimit params id value ctx))
    (hctx : I (resetLimits params ctx)) :
    ∃ ctx', parseSnrmResponse params b ctx = (ok true, ctx') ∧ I ctx' := by
  obtain ⟨offset, ctx', hloop, hctx'⟩ :=
    parameter_loop (length_payload_le hparse) hI hctx
  exact ⟨ctx', parseSnrmResponse_eq_of_loop hparse h hloop, hctx'⟩

/-! ## The receive path is clean -/

theorem hdlcFrameParse_clean (b : List Byte) : Clean (hdlcFrameParse b) := by
  rcases hdlcFrameParse_cases b with ⟨frame, h⟩ | h
  · rw [h]
    exact clean_ok frame
  · rw [h]
    exact clean_throws _

/-- A buffer that is no frame makes `parse_snrm_response` throw and leaves
the context alone. -/
theorem parseSnrmResponse_of_throws {params : HdlcParameters}
    {ctx : HdlcContext} {b : List Byte} {e : Exn}
    (hparse : hdlcFrameParse b = throws e) :
    parseSnrmResponse params b ctx = (throws e, ctx) := by
  rw [parseSnrmResponse, hparse, StateRun.lift_throws_bind]

/-- **A reply negotiates from every context, or from none** and then leaves
each as it was. -/
theorem parseSnrmResponse_cases (params : HdlcParameters) (b : List Byte) :
    (∃ frame, hdlcFrameParse b = ok frame ∧ Negotiates frame)
      ∨ ∃ r, r ≠ ok true ∧ Clean r
          ∧ ∀ ctx, parseSnrmResponse params b ctx = (r, ctx) := by
  rcases hdlcFrameParse_cases b with ⟨frame, hparse⟩ | hparse
  · by_cases h : Negotiates frame
    · exact .inl ⟨frame, hparse, h⟩
    · exact .inr ⟨ok false, nofun, clean_ok false,
        fun ctx => parseSnrmResponse_of_not hparse h⟩
  · exact .inr ⟨throws .invalidHdlcFrame, nofun, clean_throws _,
      fun ctx => parseSnrmResponse_of_throws hparse⟩

/-- **The UA negotiation returns or throws**, whatever it is sent. -/
theorem parseSnrmResponse_clean (params : HdlcParameters)
    (ctx : HdlcContext) (b : List Byte) :
    Clean (parseSnrmResponse params b ctx).1 := by
  rcases parseSnrmResponse_cases params b with
    ⟨frame, hparse, hneg⟩ | ⟨r, -, hclean, heq⟩
  · obtain ⟨ctx', heq, -⟩ := @parseSnrmResponse_of_negotiates params ctx b
      frame hparse hneg (fun _ => True) (fun _ _ _ _ => trivial) trivial
    rw [heq]
    exact clean_ok true
  · rw [heq]
    exact hclean

/-- **`parse` hands on the payload** and does not touch the context. -/
theorem parse_eq (params : HdlcParameters) (b : List Byte)
    (ctx : HdlcContext) :
    parse params b ctx
      = (hdlcFrameParse b >>= fun frame => ok frame.payload, ctx) := by
  rw [parse]
  rcases hdlcFrameParse_cases b with ⟨frame, h⟩ | h
  · rw [h, StateRun.lift_ok_bind, StateRun.pure_apply, ok_bind]
  · rw [h, StateRun.lift_throws_bind, throws_bind]

/-- **The receive path is safe and ends on any bytes whatsoever.** Each of
the four functions that read a received buffer returns or throws: it reads
neither the buffer nor the payload outside its bounds, no 16-bit offset or
size changes its value, and no loop runs on. -/
theorem receive_clean (params : HdlcParameters) (ctx : HdlcContext)
    (b : List Byte) :
    Clean (hdlcFrameParse b) ∧ Clean (parse params b ctx).1
      ∧ Clean (parseDiscResponse b)
      ∧ Clean (parseSnrmResponse params b ctx).1 := by
  have hframe := hdlcFrameParse_clean b
  refine ⟨hframe, ?_, hframe.bind (fun frame _ => clean_ok _),
    parseSnrmResponse_clean params ctx b⟩
  rw [parse_eq]
  exact hframe.bind (fun frame _ => clean_ok frame.payload)

end Dlms.Hdlc
