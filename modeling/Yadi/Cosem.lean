import Yadi.Bytes
import Mathlib.Data.Stream.Init

/-!
# The COSEM layer

What a client asks and how it reads the answers: the functions of `cosem.cpp`
that build an association request and the requests to get, to set and to act,
and those that take the responses apart, with
`Security::generate_challenger`.

The random bytes of a challenge come from a generator that is a global
variable. Here it is the stream of the bytes it is still to give, so a
function that draws from it is a `StateRun` over `Rng`.

Of the parameters `cosem`, only that of `serialize_aarq` is read. It is left
out of `parse_get_response`.
-/

namespace Dlms

open Run

/-! ## Parameters and context -/

/-- `AuthenticationMechanism`. -/
inductive AuthenticationMechanism
  | lowest | lls | hls | hlsMd5 | hlsSha1 | hlsGmac | hlsSha256 | hlsEcdsa
  deriving DecidableEq, Repr

/-- The value of an enumerator. -/
def AuthenticationMechanism.value : AuthenticationMechanism → Byte
  | lowest => 0
  | lls => 1
  | hls => 2
  | hlsMd5 => 3
  | hlsSha1 => 4
  | hlsGmac => 5
  | hlsSha256 => 6
  | hlsEcdsa => 7

/-- `SecurityContext`. -/
inductive SecurityContext
  | none | authentication | encryption | authenticationEncryption
  deriving DecidableEq, Repr

/-- `AssociationResult`. -/
inductive AssociationResult
  | accepted | rejectedPermanent | rejectedTransient
  deriving DecidableEq, Repr

/-- `CosemParameters`. -/
structure CosemParameters where
  authentication : AuthenticationMechanism := .lowest
  security : SecurityContext := .none
  systemTitle : Vector Byte 8 := Vector.replicate 8 0
  secret : Vector Byte 8 := Vector.replicate 8 0
  ak : Vector Byte 16 := Vector.replicate 16 0
  guek : Vector Byte 16 := Vector.replicate 16 0
  challengerSize : BitVec 32 := 8

/-- `CosemContext`. -/
structure CosemContext where
  maxPduSize : Word := 0xFFFF
  invocationCounter : BitVec 32 := 0
  clientSystemTitle : Vector Byte 8 := Vector.replicate 8 0
  /-- The dedicated encryption key, declared as an array of arrays. -/
  dek : Vector (Vector Byte 16) 16 := Vector.replicate 16 (Vector.replicate 16 0)

/-- `Cosem`. -/
structure Cosem where
  context : CosemContext := {}
  parameters : CosemParameters := {}

/-! ## The association request -/

/-- The bytes a random number generator is still to give. -/
abbrev Rng := Stream' Byte

/-- A run that may draw random bytes. -/
abbrev RandomRun (α : Type) := StateRun Rng Exn α

/-- `rng()`. -/
def drawByte : RandomRun Byte := fun rng => (ok rng.head, rng.tail)

/-- `Security::generate_challenger`, on the buffer it is given by
reference. -/
def generateChallenger : (size : ℕ) → (buffer : List Byte) →
    RandomRun (List Byte)
  | 0, buffer => pure buffer
  | size + 1, buffer => do
    let byte ← drawByte
    generateChallenger size (buffer ++ [byte])

def berClassApplication : Byte := 0x40
def berClassContext : Byte := 0x80
def berConstructed : Byte := 0x20
def berObjectIdentifier : Byte := 0x06
def berBitString : Byte := 0x03
def berOctetString : Byte := 0x04

def aarqProtocolVersion : Byte := 0
def aarqApplicationContextName : Byte := 1
def aarqCallingApTitle : Byte := 6
def aarqSenderAcseRequirements : Byte := 10
def aarqMechanismName : Byte := 11
def aarqCallingAuthenticationValue : Byte := 12
def aarqUserInformation : Byte := 30

def xdlmsVersion : Byte := 6
def xdlmsNoCipheringInitiateRequest : Byte := 1

def lnameNoCiphering : List Byte := [0x60, 0x85, 0x74, 0x05, 0x08, 0x01, 0x01]
def lnameWithCiphering : List Byte := [0x60, 0x85, 0x74, 0x05, 0x08, 0x01, 0x03]

namespace ConformanceBlock

def tag : Byte := 95
def blockTransferWithGetOrRead : BitVec 32 := 1 <<< 11
def blockTransferWithSetOrWrite : BitVec 32 := 1 <<< 12
def blockTransferWithAction : BitVec 32 := 1 <<< 13
def get : BitVec 32 := 1 <<< 19
def set : BitVec 32 := 1 <<< 20
def selectiveAccess : BitVec 32 := 1 <<< 21
def action : BitVec 32 := 1 <<< 23

/-- The services `serialize_aarq` proposes. -/
def proposed : BitVec 32 :=
  get ||| set ||| action ||| selectiveAccess ||| blockTransferWithGetOrRead
    ||| blockTransferWithSetOrWrite ||| blockTransferWithAction

end ConformanceBlock

/-- The InitiateRequest in the user information. -/
def initiateRequest : List Byte :=
  [xdlmsNoCipheringInitiateRequest,
    -- no dedicated key, no response-allowed, no quality of service
    0, 0, 0,
    xdlmsVersion,
    ConformanceBlock.tag,
    4,
    (ConformanceBlock.proposed >>> 24).setWidth 8,
    (ConformanceBlock.proposed >>> 16).setWidth 8,
    (ConformanceBlock.proposed >>> 8).setWidth 8,
    ConformanceBlock.proposed.setWidth 8,
    0xFF, 0xFF]

/-- The test of `serialize_aarq` for a calling AP title. -/
def sendsApTitle (params : CosemParameters) : Prop :=
  params.security ≠ .none ∨ params.authentication = .hlsGmac

instance (params : CosemParameters) : Decidable (sendsApTitle params) :=
  inferInstanceAs (Decidable (_ ∨ _))

/-- The calling AP title of `serialize_aarq`. -/
def pushApTitle (params : CosemParameters) (buffer : List Byte) : List Byte :=
  if sendsApTitle params then
    buffer ++
      [berClassContext ||| berConstructed ||| aarqCallingApTitle,
        BitVec.ofNat 8 (params.systemTitle.size + 2),
        berObjectIdentifier,
        BitVec.ofNat 8 params.systemTitle.size]
      ++ params.systemTitle.toList
  else
    buffer

/-- The authentication of `serialize_aarq`. -/
def pushAuthentication (params : CosemParameters) (buffer : List Byte) :
    RandomRun (List Byte) :=
  if params.authentication ≠ .lowest then
    let buffer := buffer ++
      [berClassContext ||| aarqSenderAcseRequirements,
        2,
        berBitString ||| berOctetString,
        0x80,
        berClassContext ||| aarqMechanismName,
        7,
        0x60, 0x85, 0x74, 0x05, 0x08, 0x02,
        params.authentication.value]
    if params.authentication = .lls then
      return buffer ++
        [berClassContext ||| berConstructed ||| aarqCallingAuthenticationValue,
          BitVec.ofNat 8 (params.secret.size + 2),
          berClassContext,
          BitVec.ofNat 8 params.secret.size]
        ++ params.secret.toList
    else
      let buffer := buffer ++
        [berClassContext ||| berConstructed ||| aarqCallingAuthenticationValue,
          (params.challengerSize + 2).setWidth 8,
          berClassContext,
          params.challengerSize.setWidth 8]
      generateChallenger params.challengerSize.toNat buffer
  else
    return buffer

/-- `serialize_aarq`. -/
def serializeAarq (cosem : Cosem) : RandomRun (List Byte) := do
  let params := cosem.parameters
  let buffer : List Byte :=
    [berConstructed ||| berClassApplication,
      -- the size, filled in at the end
      0,
      berClassContext ||| aarqProtocolVersion,
      2,
      7,
      0x80,
      berClassContext ||| berConstructed ||| aarqApplicationContextName,
      9,
      berObjectIdentifier,
      7]
  let buffer := buffer ++
    if params.security = .none then lnameNoCiphering else lnameWithCiphering
  let buffer := pushApTitle params buffer
  let buffer ← pushAuthentication params buffer
  let buffer := buffer ++
    [berClassContext ||| berConstructed ||| aarqUserInformation,
      15,
      berOctetString,
      13] ++ initiateRequest
  return buffer.set 1 (BitVec.ofNat 8 (buffer.length - 2))

/-- `parse_aare`. -/
def parseAare (_cosem : Cosem) (_data : List Byte) : AssociationResult :=
  .accepted

/-! ## Requests -/

/-- `LogicalName`, which is six bytes however it was made. -/
structure LogicalName where
  value : Vector Byte 6
  deriving DecidableEq, Repr

/-- The logical name of six bytes. -/
def LogicalName.ofBytes (n₀ n₁ n₂ n₃ n₄ n₅ : Byte) : LogicalName :=
  ⟨#v[n₀, n₁, n₂, n₃, n₄, n₅]⟩

/-- `ClassID`, an enumeration over 16 bits. -/
abbrev ClassId := Word

/-- `Request`. -/
structure Request where
  classId : ClassId
  logicalName : LogicalName
  index : Byte
  data : List Byte
  deriving DecidableEq, Repr

def xdlmsHighPriority : Byte := 128
def xdlmsServiceConfirmed : Byte := 64
def xdlmsInvokeId : Byte := 1

/-- `XDLMS_NO_CIPHERING_GET_REQUEST`. -/
def xdlmsNoCipheringGetRequest : Byte := 192

/-- `XDLMS_NO_CIPHERING_SET_REQUEST`. -/
def xdlmsNoCipheringSetRequest : Byte := 193

/-- `XDLMS_NO_CIPHERING_ACTION_REQUEST`. -/
def xdlmsNoCipheringActionRequest : Byte := 195

/-- `serialize_invoke_id_and_cosem_descriptor`, on the buffer it is given by
reference. -/
def serializeInvokeIdAndCosemDescriptor (buffer : List Byte) (req : Request) :
    List Byte :=
  buffer ++
    [xdlmsHighPriority ||| xdlmsServiceConfirmed ||| xdlmsInvokeId,
      (req.classId >>> 8).setWidth 8,
      req.classId.setWidth 8]
    ++ req.logicalName.value.toList ++ [req.index]

/-- `serialize_get_request`. -/
def serializeGetRequest (_cosem : Cosem) (req : Request) : List Byte :=
  serializeInvokeIdAndCosemDescriptor [xdlmsNoCipheringGetRequest, 1] req
    ++ [if req.data.isEmpty then 0 else 1] ++ req.data

/-- `serialize_set_request`. -/
def serializeSetRequest (_cosem : Cosem) (req : Request) : List Byte :=
  serializeInvokeIdAndCosemDescriptor [xdlmsNoCipheringSetRequest, 1] req
    ++ [0] ++ req.data

/-- `serialize_action_request`. -/
def serializeActionRequest (_cosem : Cosem) (req : Request) : List Byte :=
  serializeInvokeIdAndCosemDescriptor [xdlmsNoCipheringActionRequest, 1] req
    ++ [if req.data.isEmpty then 0 else 1] ++ req.data

/-! ## Get responses -/

/-- `DataAccessResult`, an enumeration over bytes: the parser casts a byte to
it, so any byte is a value. -/
abbrev DataAccessResult := Byte

/-- `Response`. -/
structure Response where
  result : DataAccessResult
  data : List Byte
  deriving DecidableEq, Repr

/-- `XDLMS_NO_CIPHERING_GET_RESPONSE`. -/
def xdlmsNoCipheringGetResponse : Byte := 196

/-- `parse_get_response`. -/
def parseGetResponse (data : List Byte) : Result Response := do
  if data.length < 4 then
    throws .invalidCosemFrame
  else if (← readAt data 0) ≠ xdlmsNoCipheringGetResponse then
    throws .invalidCosemFrame
  else if (← readAt data 1) ≠ 0x01 then
    throws .invalidCosemFrame
  else
    let result ← readAt data 3
    let first ← position data 4
    if data.length > first then
      return { result, data := ← copyRange data first data.length }
    else
      return { result, data := [] }

/-- The test `parse_get_response` makes of an APDU. -/
def HasGetResponseHeader (data : List Byte) : Prop :=
  4 ≤ data.length ∧ byteAt data 0 = xdlmsNoCipheringGetResponse
    ∧ byteAt data 1 = 0x01

instance (data : List Byte) : Decidable (HasGetResponseHeader data) :=
  inferInstanceAs (Decidable (_ ∧ _ ∧ _))

/-- **What `parse_get_response` returns**: byte 3 for the result, and what is
behind it for the data. -/
theorem parseGetResponse_eq (data : List Byte) :
    parseGetResponse data =
      if HasGetResponseHeader data then ok ⟨byteAt data 3, data.drop 4⟩
      else throws .invalidCosemFrame := by
  unfold parseGetResponse
  by_cases hlen : data.length < 4
  · rw [if_pos hlen, if_neg (fun h => absurd h.1 (Nat.not_le.mpr hlen))]
  rw [if_neg hlen, readAt_byte (by omega), ok_bind]
  by_cases htag : byteAt data 0 ≠ xdlmsNoCipheringGetResponse
  · rw [if_pos htag, if_neg (fun h => htag h.2.1)]
  rw [if_neg htag, readAt_byte (by omega), ok_bind]
  by_cases hnormal : byteAt data 1 ≠ 0x01
  · rw [if_pos hnormal, if_neg (fun h => hnormal h.2.2)]
  have hheader : HasGetResponseHeader data :=
    ⟨Nat.not_lt.mp hlen, not_not.mp htag, not_not.mp hnormal⟩
  rw [if_neg hnormal, if_pos hheader, readAt_byte (by omega), ok_bind,
    position_of_le (by omega), ok_bind]
  by_cases hmore : data.length > 4
  · rw [if_pos hmore, copyRange_of_le (by omega) le_rfl, ok_bind, pure_eq,
      List.take_of_length_le (by rw [List.length_drop])]
  · rw [if_neg hmore, pure_eq, List.drop_eq_nil_of_le (by omega)]

/-- **An APDU is refused for its first byte**, if that is not the tag of a
get response. -/
theorem parseGetResponse_of_ne {data : List Byte}
    (h : byteAt data 0 ≠ xdlmsNoCipheringGetResponse) :
    parseGetResponse data = throws .invalidCosemFrame := by
  rw [parseGetResponse_eq, if_neg (fun hheader => h hheader.2.1)]

end Dlms
