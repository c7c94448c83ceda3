import Yadi.Cosem

/-!
# The wrapper layer

`wrapper.cpp` puts an APDU behind a header of eight bytes – the version, the
length and two ports – and is to take it out again. `parse` checks the length
and returns the frame as it came, header and all: the unpacking is still to
be written.

The round trip therefore fails for every APDU (`parse_serialize`), and what
`CosemWrapperClient` hands to `parseGetResponse` starts with the version of
the wrapper, so it refuses every reply.

The check adds the header to the length in 16 bits. `serialize` declares the
lengths of payloads that fill the field, but behind a header the longest of
them are refused (`wrapperFrameComplete_exact_iff`).
-/

namespace Dlms.Wrapper

open Run

/-- `WrapperParameters`. -/
structure WrapperParameters where
  wPortSource : Word := 0x01
  wPortDestination : Word := 0x01
  deriving DecidableEq, Repr

def wrapperVersionMsb : Byte := 0x00
def wrapperVersionLsb : Byte := 0x01

/-- `wrapper_frame_complete`. The sum is narrowed to a `uint16_t`. -/
def wrapperFrameComplete (buffer : List Byte) : Result Bool := do
  if buffer.length < 9 then
    return false
  else
    let hi ← readAt buffer 2
    let lo ← readAt buffer 3
    let size := ((hi.toNat <<< 8 ||| lo.toNat) + 8) % 2 ^ 16
    return size = buffer.length

/-- `wrapper::serialize`. -/
def serialize (params : WrapperParameters) (data : List Byte) : List Byte :=
  [wrapperVersionMsb,
    wrapperVersionLsb,
    BitVec.ofNat 8 (data.length >>> 8),
    BitVec.ofNat 8 data.length,
    (params.wPortDestination >>> 8).setWidth 8,
    params.wPortDestination.setWidth 8,
    (params.wPortSource >>> 8).setWidth 8,
    params.wPortSource.setWidth 8] ++ data

/-- `wrapper::parse`. -/
def parse (_params : WrapperParameters) (data : List Byte) :
    Result (List Byte) := do
  if !(← wrapperFrameComplete data) then
    throws (.runtimeError "wrapper: received invalid data")
  else
    return data

theorem length_serialize (params : WrapperParameters) (data : List Byte) :
    (serialize params data).length = data.length + 8 := by
  rw [serialize, List.length_append, Nat.add_comm]
  rfl

/-! ## The completeness check -/

/-- The length a header declares. -/
def lengthField (b : List Byte) : ℕ :=
  (byteAt b 2).toNat * 256 + (byteAt b 3).toNat

theorem lengthField_lt (b : List Byte) : lengthField b < 2 ^ 16 := by
  have hhi := (byteAt b 2).isLt
  have hlo := (byteAt b 3).isLt
  unfold lengthField
  omega

/-- Nine bytes are complete if the length of the header and the payload,
in 16 bits, is theirs. -/
theorem wrapperFrameComplete_eq {b : List Byte} (h : 9 ≤ b.length) :
    wrapperFrameComplete b
      = ok (decide ((lengthField b + 8) % 2 ^ 16 = b.length)) := by
  have hfield : ((byteAt b 2).toNat <<< 8 ||| (byteAt b 3).toNat)
      = lengthField b := by
    rw [lengthField, ← Nat.shiftLeft_add_eq_or_of_lt (byteAt b 3).isLt,
      Nat.shiftLeft_eq]
  rw [wrapperFrameComplete, if_neg (by omega), readAt_byte (by omega), ok_bind,
    readAt_byte (by omega), ok_bind, hfield]
  rfl

/-- A header declares the length of the payload, in 16 bits. -/
theorem lengthField_serialize (params : WrapperParameters)
    (data : List Byte) :
    lengthField (serialize params data) = data.length % 2 ^ 16 := by
  have hhi : byteAt (serialize params data) 2
      = BitVec.ofNat 8 (data.length >>> 8) := rfl
  have hlo : byteAt (serialize params data) 3
      = BitVec.ofNat 8 data.length := rfl
  rw [lengthField, hhi, hlo, BitVec.toNat_ofNat, BitVec.toNat_ofNat,
    Nat.shiftRight_eq_div_pow]
  omega

/-- **A frame as `serialize` builds it is complete exactly if its length fits
16 bits** with the header. -/
theorem wrapperFrameComplete_serialize_iff (params : WrapperParameters)
    {data : List Byte} (hpos : 1 ≤ data.length) :
    wrapperFrameComplete (serialize params data) = ok true
      ↔ data.length ≤ 65527 := by
  have hlength := length_serialize params data
  rw [wrapperFrameComplete_eq (by omega), Run.ok.injEq, decide_eq_true_iff,
    lengthField_serialize, hlength]
  omega

/-- `parse` refuses what is not complete, and nothing else. -/
theorem parse_eq_ok_iff (params : WrapperParameters) (b : List Byte) :
    (∃ payload, parse params b = ok payload)
      ↔ wrapperFrameComplete b = ok true := by
  have hreturns : ∃ r, wrapperFrameComplete b = ok r := by
    by_cases h : b.length < 9
    · exact ⟨false, by rw [wrapperFrameComplete, if_pos h, pure_eq]⟩
    · exact ⟨_, wrapperFrameComplete_eq (Nat.not_lt.mp h)⟩
  obtain ⟨r, hr⟩ := hreturns
  rw [parse, hr, ok_bind, Run.ok.injEq]
  cases r with
  | true => exact ⟨fun _ => rfl, fun _ => ⟨b, rfl⟩⟩
  | false =>
    refine ⟨fun h => ?_, nofun⟩
    obtain ⟨payload, hpayload⟩ := h
    cases hpayload

/-- **The completeness check compares modulo `2 ^ 16`.** It is exact for a
buffer exactly if the buffer is shorter than that, or does not have the
length it declares: a frame that declares its length and is longer is held to
be incomplete. So a frame as `serialize` builds it is not refused exactly if
its payload leaves room for the header in 16 bits. -/
theorem wrapperFrameComplete_exact_iff (p q : WrapperParameters)
    (b : List Byte) {data : List Byte} (hpos : 1 ≤ data.length) :
    ((wrapperFrameComplete b = ok true
        ↔ 9 ≤ b.length ∧ lengthField b = b.length - 8)
      ↔ b.length ≤ 65535 ∨ lengthField b ≠ b.length - 8)
    ∧ ((∃ payload, parse q (serialize p data) = ok payload)
      ↔ data.length ≤ 65527) := by
  constructor
  · by_cases h : b.length < 9
    · rw [wrapperFrameComplete, if_pos h, pure_eq, Run.ok.injEq]
      exact ⟨fun _ => .inl (by omega),
        fun _ => ⟨nofun, fun hb => absurd hb.1 (by omega)⟩⟩
    · have hlt := lengthField_lt b
      rw [wrapperFrameComplete_eq (Nat.not_lt.mp h), Run.ok.injEq,
        decide_eq_true_iff]
      omega
  · rw [parse_eq_ok_iff, wrapperFrameComplete_serialize_iff p hpos]

/-- A get response with one null value. -/
def getResponse : List Byte := [0xC4, 0x01, 0xC1, 0x00, 0x00]

/-- Its frame is complete and is not refused. -/
theorem wrapperFrameComplete_exact_getResponse :
    wrapperFrameComplete (serialize {} getResponse) = ok true
      ∧ ∃ payload, parse {} (serialize {} getResponse) = ok payload := by
  obtain ⟨hcheck, hparse⟩ := wrapperFrameComplete_exact_iff {} {}
    (serialize {} getResponse) (show 1 ≤ getResponse.length by decide)
  exact ⟨(hcheck.mpr (.inl (by decide))).mpr ⟨by decide, by decide⟩,
    hparse.mpr (by decide)⟩

/-- A payload of 65528 bytes makes a frame that declares its length and is
refused. -/
theorem wrapperFrameComplete_overflows :
    9 ≤ (serialize {} (List.replicate 65528 0)).length
      ∧ lengthField (serialize {} (List.replicate 65528 0))
        = (serialize {} (List.replicate 65528 0)).length - 8
      ∧ wrapperFrameComplete (serialize {} (List.replicate 65528 0)) ≠ ok true
      ∧ ¬ ∃ payload,
        parse {} (serialize {} (List.replicate 65528 0)) = ok payload := by
  have hreplicate : (List.replicate 65528 (0 : Byte)).length = 65528 :=
    List.length_replicate
  have hcomplete : wrapperFrameComplete
      (serialize {} (List.replicate 65528 0)) ≠ ok true := fun h => by
    have := (wrapperFrameComplete_serialize_iff {} (by omega)).mp h
    omega
  rw [parse_eq_ok_iff, lengthField_serialize, length_serialize, hreplicate]
  exact ⟨by decide, by decide, hcomplete, hcomplete⟩

/-! ## The round trip -/

/-- **The wrapper does not come off.** For every payload it is made for,
`parse` returns the frame with its header, not the payload, and the parser
of get responses refuses what it is given. -/
theorem parse_serialize (p q : WrapperParameters) {data : List Byte}
    (hpos : 1 ≤ data.length) (hlen : data.length ≤ 65527) :
    parse q (serialize p data) = ok (serialize p data)
      ∧ parse q (serialize p data) ≠ ok data
      ∧ (parse q (serialize p data) >>= parseGetResponse)
          = throws .invalidCosemFrame := by
  have hparse : parse q (serialize p data) = ok (serialize p data) := by
    rw [parse, (wrapperFrameComplete_serialize_iff p hpos).mpr hlen]
    rfl
  refine ⟨hparse, fun h => ?_, ?_⟩
  -- the frame is longer than the payload, and starts with the version
  · have hlength := length_serialize p data
    rw [hparse, Run.ok.injEq] at h
    rw [h] at hlength
    omega
  · rw [hparse, ok_bind]
    exact parseGetResponse_of_ne
      (show wrapperVersionMsb ≠ xdlmsNoCipheringGetResponse by decide)

/-- The parser of get responses refuses the frame of a get response. -/
theorem parse_serialize_getResponse :
    (parse {} (serialize {} getResponse) >>= parseGetResponse)
      = throws .invalidCosemFrame :=
  (parse_serialize {} {} (by decide) (by decide)).2.2

/-- Unwrapped it is a response; wrapped, it comes back with the wrapper. -/
theorem parse_wrapped_getResponse :
    parseGetResponse getResponse = ok ⟨0x00, [0x00]⟩
      ∧ parse {} (serialize {} getResponse)
        = ok ([0x00, 0x01, 0x00, 0x05, 0x00, 0x01, 0x00, 0x01] ++ getResponse)
      ∧ parse {} (serialize {} getResponse) ≠ ok getResponse := by
  decide

end Dlms.Wrapper
