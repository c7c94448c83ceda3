import Yadi.Cosem

/-!
# What requests and responses say

The three request encoders share a header and differ in what stands behind
it. A get and an action request end with something optional, and a byte in
front of it says whether it is there; in a set request that byte is for an
access selection, which this library never sends, and the value comes behind
it. `decodeRequestApdu` is the decoder of these formats, and it recovers the
service and every field, so that the bytes of a request are those of no other
(`serializeRequest_determines`).

On the way back, a get response is a choice between data and an error, with a
byte that says which. `parseGetResponse` takes the choice for the result. So
it is right about data, wrong about every error, and takes whatever else has
a fitting header (`parseGetResponse_decodes_iff`).
-/

namespace Dlms

open Run

/-! ## Requests -/

/-- The services a request is for. -/
inductive Service
  | get | set | action
  deriving DecidableEq, Repr

/-- The tag of the APDU. -/
def Service.tag : Service → Byte
  | get => xdlmsNoCipheringGetRequest
  | set => xdlmsNoCipheringSetRequest
  | action => xdlmsNoCipheringActionRequest

/-- The request of a service. -/
def serializeRequest (cosem : Cosem) : Service → Request → List Byte
  | .get => serializeGetRequest cosem
  | .set => serializeSetRequest cosem
  | .action => serializeActionRequest cosem

/-- The byte in front of what is optional. -/
def optionalFlag (service : Service) (data : List Byte) : Byte :=
  if service = .set ∨ data = [] then 0 else 1

/-- A logical name is six bytes. -/
theorem LogicalName.exists_eq (name : LogicalName) :
    ∃ n₀ n₁ n₂ n₃ n₄ n₅, name = ofBytes n₀ n₁ n₂ n₃ n₄ n₅ := by
  obtain ⟨value⟩ := name
  refine ⟨value[0], value[1], value[2], value[3], value[4], value[5],
    congrArg _ (Vector.ext (fun i hi => ?_))⟩
  obtain rfl | rfl | rfl | rfl | rfl | rfl :
    i = 0 ∨ i = 1 ∨ i = 2 ∨ i = 3 ∨ i = 4 ∨ i = 5 := by omega
  all_goals rfl

/-- **The three requests have one form.** -/
theorem serializeRequest_eq (cosem : Cosem) (service : Service)
    (req : Request) :
    ∃ n₀ n₁ n₂ n₃ n₄ n₅, req.logicalName = .ofBytes n₀ n₁ n₂ n₃ n₄ n₅
      ∧ serializeRequest cosem service req
        = service.tag :: 1 :: 0xC1 :: (req.classId >>> 8).setWidth 8
          :: req.classId.setWidth 8 :: n₀ :: n₁ :: n₂ :: n₃ :: n₄ :: n₅
          :: req.index :: optionalFlag service req.data :: req.data := by
  obtain ⟨n₀, n₁, n₂, n₃, n₄, n₅, hname⟩ := req.logicalName.exists_eq
  refine ⟨n₀, n₁, n₂, n₃, n₄, n₅, hname, ?_⟩
  obtain ⟨classId, name, index, data⟩ := req
  obtain rfl : name = _ := hname
  cases service with
  | get => cases data <;> rfl
  | set => cases data <;> rfl
  | action => cases data <;> rfl

/-- The service a tag is for. -/
def Service.ofTag (tag : Byte) : Option Service :=
  if tag = xdlmsNoCipheringGetRequest then some .get
  else if tag = xdlmsNoCipheringSetRequest then some .set
  else if tag = xdlmsNoCipheringActionRequest then some .action
  else none

theorem Service.ofTag_tag (service : Service) :
    Service.ofTag service.tag = some service := by
  cases service <;> decide

/-- What may stand behind the descriptor of a request: for a set request no
access selection and then the value, for the others something or nothing, as
the flag says. -/
def FlagFits (service : Service) (flag : Byte) (data : List Byte) : Prop :=
  match service with
  | .set => flag = 0
  | .get | .action => flag = 0 ∧ data = [] ∨ flag = 1 ∧ data ≠ []

instance (service : Service) (flag : Byte) (data : List Byte) :
    Decidable (FlagFits service flag data) :=
  match service with
  | .set => inferInstanceAs (Decidable (_ = _))
  | .get | .action => inferInstanceAs (Decidable (_ ∨ _))

/-- **The decoder of a server** for the normal form of the three requests:
the tag and the choice, the invoke-id, the descriptor with class, name and
index, and what its flag announces. -/
def decodeRequestApdu : List Byte → Option (Service × Request)
  | tag :: choice :: _invokeId :: c₁ :: c₀ :: n₀ :: n₁ :: n₂ :: n₃ :: n₄ :: n₅
      :: index :: flag :: data => do
    let service ← Service.ofTag tag
    if choice = 1 ∧ FlagFits service flag data then
      some (service,
        { classId := c₁ ++ c₀
          logicalName := .ofBytes n₀ n₁ n₂ n₃ n₄ n₅
          index, data })
    else
      none
  | _ => none

/-- The flag says whether something stands behind it. -/
theorem flagFits_optionalFlag (service : Service) (data : List Byte) :
    FlagFits service (optionalFlag service data) data := by
  cases service <;> cases data <;>
    simp [FlagFits, optionalFlag]

/-- **The decoder recovers the service and every field.** -/
theorem decodeRequestApdu_serializeRequest (cosem : Cosem)
    (service : Service) (req : Request) :
    decodeRequestApdu (serializeRequest cosem service req)
      = some (service, req) := by
  obtain ⟨n₀, n₁, n₂, n₃, n₄, n₅, hname, heq⟩ :=
    serializeRequest_eq cosem service req
  have hfits : (1 : Byte) = 1
      ∧ FlagFits service (optionalFlag service req.data) req.data :=
    ⟨rfl, flagFits_optionalFlag service req.data⟩
  rw [heq, decodeRequestApdu, Service.ofTag_tag, Option.bind_eq_bind,
    Option.bind_some, if_pos hfits, append_setWidth, ← hname]

/-- **The flag says whether something follows it**, in a get and an action
request. -/
theorem flag_serializeRequest (cosem : Cosem) {service : Service}
    (hservice : service ≠ .set) (req : Request) :
    byteAt (serializeRequest cosem service req) 12 = 1
      ↔ 13 < (serializeRequest cosem service req).length := by
  obtain ⟨n₀, n₁, n₂, n₃, n₄, n₅, -, heq⟩ :=
    serializeRequest_eq cosem service req
  rw [heq]
  change optionalFlag service req.data = 1 ↔ 13 < req.data.length + 13
  rw [optionalFlag]
  by_cases hdata : req.data = []
  · rw [if_pos (.inr hdata), hdata]
    decide
  · rw [if_neg (not_or.mpr ⟨hservice, hdata⟩)]
    exact iff_of_true rfl (Nat.lt_add_of_pos_left
      (List.length_pos_iff.mpr hdata))

/-- **A request APDU determines the request.** Its bytes are those of no
other service and no other request, a server decodes both from them, and in
a get or an action request the flag is 1 exactly if something stands behind
it. -/
theorem serializeRequest_determines (cosem cosem' : Cosem)
    (service service' : Service) (req req' : Request) :
    (serializeRequest cosem service req = serializeRequest cosem' service' req'
      ↔ service = service' ∧ req = req')
    ∧ decodeRequestApdu (serializeRequest cosem service req)
      = some (service, req)
    ∧ (service ≠ .set → (byteAt (serializeRequest cosem service req) 12 = 1
      ↔ 13 < (serializeRequest cosem service req).length)) := by
  refine ⟨⟨fun h => ?_, ?_⟩,
    decodeRequestApdu_serializeRequest cosem service req,
    fun hservice => flag_serializeRequest cosem hservice req⟩
  · have hdecode := decodeRequestApdu_serializeRequest cosem service req
    rw [h, decodeRequestApdu_serializeRequest, Option.some.injEq,
      Prod.mk.injEq] at hdecode
    exact ⟨hdecode.1.symm, hdecode.2.symm⟩
  · rintro ⟨rfl, rfl⟩
    cases service <;> rfl

/-! ## Get responses -/

/-- **A get response in its normal form**, and what it says: the choice 0
with data that was read, or the choice 1 with the reason why not. -/
inductive IsGetResponse : List Byte → Response → Prop
  | data (invokeId : Byte) {d : List Byte} (h : d ≠ []) :
      IsGetResponse (0xC4 :: 0x01 :: invokeId :: 0x00 :: d) ⟨0, d⟩
  | dataAccessResult (invokeId r : Byte) :
      IsGetResponse [0xC4, 0x01, invokeId, 0x01, r] ⟨r, []⟩

/-- **`parse_get_response` decodes a vector**: it returns what a get response
says, and refuses what is none. -/
structure DecodesGetResponse (b : List Byte) : Prop where
  accepts : ∀ response, IsGetResponse b response →
    parseGetResponse b = ok response
  refuses : (¬ ∃ response, IsGetResponse b response) →
    parseGetResponse b = throws .invalidCosemFrame

theorem IsGetResponse.hasHeader {b : List Byte} {response : Response}
    (h : IsGetResponse b response) : HasGetResponseHeader b := by
  cases h with
  | data invokeId hd =>
    have hpos := List.length_pos_iff.mpr hd
    exact ⟨by simp, rfl, rfl⟩
  | dataAccessResult invokeId r => exact ⟨by simp, rfl, rfl⟩

/-- A vector with the header, byte by byte. -/
theorem HasGetResponseHeader.exists_eq {b : List Byte}
    (h : HasGetResponseHeader b) :
    ∃ invokeId choice rest, b = 0xC4 :: 0x01 :: invokeId :: choice :: rest := by
  obtain ⟨hlen, htag, hnormal⟩ := h
  match b, hlen with
  | x :: y :: invokeId :: choice :: rest, _ =>
    obtain rfl : x = 0xC4 := htag
    obtain rfl : y = 0x01 := hnormal
    exact ⟨invokeId, choice, rest, rfl⟩

/-- **`parse_get_response` decodes a vector exactly if it refuses it, or if
it is a response with data.** Every error is returned as a hardware fault,
with the reason for its data, and a vector with any other choice, or with
nothing behind the choice, is accepted. -/
theorem parseGetResponse_decodes_iff (b : List Byte) :
    DecodesGetResponse b
      ↔ ¬ HasGetResponseHeader b ∨ byteAt b 3 = 0 ∧ 5 ≤ b.length := by
  by_cases hheader : HasGetResponseHeader b
  · obtain ⟨invokeId, choice, rest, rfl⟩ := hheader.exists_eq
    have hparse : parseGetResponse
        (0xC4 :: 0x01 :: invokeId :: choice :: rest) = ok ⟨choice, rest⟩ := by
      rw [parseGetResponse_eq, if_pos hheader]
      rfl
    rw [or_iff_right (not_not.mpr hheader)]
    constructor
    · intro h
      by_cases hresponse : ∃ response,
          IsGetResponse (0xC4 :: 0x01 :: invokeId :: choice :: rest) response
      · obtain ⟨response, hresponse⟩ := hresponse
        have hok := h.accepts response hresponse
        rw [hparse, Run.ok.injEq] at hok
        cases hresponse with
        | data _ hd =>
          have hpos := List.length_pos_iff.mpr hd
          exact ⟨rfl, by simp only [List.length_cons]; omega⟩
        | dataAccessResult _ r =>
          -- the reason for an error is not returned as data
          exact absurd (congrArg Response.data hok) (List.cons_ne_nil _ _)
      · have hthrows := h.refuses hresponse
        rw [hparse] at hthrows
        cases hthrows
    · rintro ⟨hchoice, hlen⟩
      obtain rfl : choice = 0 := hchoice
      have hrest : rest ≠ [] := by
        rintro rfl
        exact absurd hlen (by simp)
      refine ⟨fun response hresponse => ?_,
        fun hnone => absurd ⟨_, .data invokeId hrest⟩ hnone⟩
      cases hresponse with
      | data _ _ => exact hparse
  · refine iff_of_true ⟨fun response h => absurd h.hasHeader hheader,
      fun _ => ?_⟩ (.inl hheader)
    rw [parseGetResponse_eq, if_neg hheader]

/-- A get request that is denied is read as a hardware fault with data. -/
theorem parseGetResponse_denied :
    IsGetResponse [0xC4, 0x01, 0xC1, 0x01, 0x03] ⟨3, []⟩
      ∧ parseGetResponse [0xC4, 0x01, 0xC1, 0x01, 0x03] = ok ⟨1, [0x03]⟩
      ∧ ¬ DecodesGetResponse [0xC4, 0x01, 0xC1, 0x01, 0x03] := by
  have hdenied : IsGetResponse [0xC4, 0x01, 0xC1, 0x01, 0x03] ⟨3, []⟩ :=
    .dataAccessResult 0xC1 3
  refine ⟨hdenied, by decide, fun h => ?_⟩
  exact absurd (h.accepts _ hdenied) (by decide)

end Dlms
