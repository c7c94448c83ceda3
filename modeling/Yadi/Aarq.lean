import Yadi.Ber
import Yadi.Cosem

/-!
# The association request

`serializeAarq` puts the components of the request one behind the other, each
with its length in a single byte, and fills in the length of the whole at the
end, in a single byte too. What it returns is the short form of `aarqTlv`
(`serializeAarq_eq`), whatever the lengths are.

What a server reads is stated without the writer. `IsAarq a b` says that `b`
is one element with components in order, and that these components say `a`;
no other request can be read from the bytes (`IsAarq.unique`). The request of
a client is one that says what it is to say, its `sentAarq`, exactly if its
components have less than 128 bytes (`serializeAarq_isAarq_iff`). All do but
those with a long challenge.

The other direction has to exclude every other way to read the bytes. The
narrowed length announces bytes of a longer length, and these are the first
bytes of the protocol version, so that there are only two ways
(`spans_of_ge`). In the one the content starts with a byte that is no tag of
a component, in the other the authentication value is cut short.
-/

namespace Dlms

open Run Ber

/-! ## What is sent -/

/-- The challenge is what the generator gives next. -/
theorem generateChallenger_eq (size : ℕ) (buffer : List Byte) (rng : Rng) :
    generateChallenger size buffer rng
      = (ok (buffer ++ rng.take size), rng.drop size) := by
  induction size generalizing buffer rng with
  | zero =>
    rw [generateChallenger, Stream'.take_zero, List.append_nil]
    rfl
  | succ size ih =>
    rw [generateChallenger]
    change generateChallenger size (buffer ++ [rng.head]) rng.tail = _
    rw [ih, Stream'.take_succ, Stream'.drop_succ, List.append_assoc]
    rfl

/-- The name of an authentication mechanism. -/
def mechanismName (mechanism : AuthenticationMechanism) : List Byte :=
  [0x60, 0x85, 0x74, 0x05, 0x08, 0x02, mechanism.value]

/-- The name of the application context. -/
def applicationContextName (params : CosemParameters) : List Byte :=
  if params.security = .none then lnameNoCiphering else lnameWithCiphering

theorem length_applicationContextName (params : CosemParameters) :
    (applicationContextName params).length = 7 := by
  unfold applicationContextName
  split_ifs <;> rfl

/-- What a client authenticates itself with: its secret or a challenge. -/
def authenticationValue (params : CosemParameters) (rng : Rng) : List Byte :=
  if params.authentication = .lls then params.secret.toList
  else rng.take params.challengerSize.toNat

/-- A component with one element in it. -/
def explicitTlv (tag inner : Byte) (value : List Byte) : Tlv :=
  ⟨tag, (Tlv.mk inner value).short⟩

/-- The calling AP title, if it is sent. -/
def apTitleComponents (params : CosemParameters) : List Tlv :=
  if sendsApTitle params then
    [explicitTlv 0xA6 0x06 params.systemTitle.toList]
  else
    []

/-- The authentication, if there is one: its requirement, its mechanism and
its value. -/
def authenticationComponents (params : CosemParameters) (rng : Rng) :
    List Tlv :=
  if params.authentication ≠ .lowest then
    [⟨0x8A, [0x07, 0x80]⟩,
      ⟨0x8B, mechanismName params.authentication⟩,
      explicitTlv 0xAC 0x80 (authenticationValue params rng)]
  else
    []

/-- **The components of an association request.** -/
def aarqComponents (params : CosemParameters) (rng : Rng) : List Tlv :=
  [⟨0x80, [0x07, 0x80]⟩, explicitTlv 0xA1 0x06 (applicationContextName params)]
    ++ apTitleComponents params ++ authenticationComponents params rng
    ++ [explicitTlv 0xBE 0x04 initiateRequest]

/-- **The association request**, an element made of its components. -/
def aarqTlv (params : CosemParameters) (rng : Rng) : Tlv :=
  ⟨0x60, shorts (aarqComponents params rng)⟩

/-- The generator when the request is built. -/
def rngAfter (params : CosemParameters) (rng : Rng) : Rng :=
  if params.authentication = .lowest ∨ params.authentication = .lls then rng
  else rng.drop params.challengerSize.toNat

theorem short_explicitTlv (tag inner : Byte) (value : List Byte) :
    (explicitTlv tag inner value).short
      = [tag, BitVec.ofNat 8 (value.length + 2), inner,
          BitVec.ofNat 8 value.length] ++ value := rfl

theorem length_explicitTlv (tag inner : Byte) (value : List Byte) :
    (explicitTlv tag inner value).value.length = value.length + 2 := rfl

theorem pushApTitle_eq (params : CosemParameters) (buffer : List Byte) :
    pushApTitle params buffer = buffer ++ shorts (apTitleComponents params) := by
  rw [pushApTitle, apTitleComponents]
  split_ifs
  · rw [shorts_cons, shorts_nil, List.append_nil, short_explicitTlv,
      Vector.length_toList, List.append_assoc]
    rfl
  · rw [shorts_nil, List.append_nil]

/-- The size of a challenge, narrowed, and that with two bytes in front of
it. -/
theorem setWidth_challengerSize (size : BitVec 32) :
    size.setWidth 8 = BitVec.ofNat 8 size.toNat
      ∧ (size + 2).setWidth 8 = BitVec.ofNat 8 (size.toNat + 2) := by
  have htwo : (2 : BitVec 32).toNat = 2 := rfl
  rw [← BitVec.toNat_inj, ← BitVec.toNat_inj, BitVec.toNat_setWidth,
    BitVec.toNat_setWidth, BitVec.toNat_add, BitVec.toNat_ofNat,
    BitVec.toNat_ofNat]
  omega

theorem pushAuthentication_eq (params : CosemParameters) (buffer : List Byte)
    (rng : Rng) :
    pushAuthentication params buffer rng
      = (ok (buffer ++ shorts (authenticationComponents params rng)),
        rngAfter params rng) := by
  unfold pushAuthentication authenticationComponents rngAfter
  by_cases hlowest : params.authentication = .lowest
  · rw [if_neg (not_not.mpr hlowest), if_neg (not_not.mpr hlowest),
      if_pos (.inl hlowest), shorts_nil, List.append_nil]
    rfl
  rw [if_pos hlowest, if_pos hlowest, shorts_cons, shorts_cons, shorts_cons,
    shorts_nil, List.append_nil, short_explicitTlv, authenticationValue]
  by_cases hlls : params.authentication = .lls
  · rw [if_pos hlls, if_pos hlls, if_pos (.inr hlls), Vector.length_toList,
      List.append_assoc, List.append_assoc]
    rfl
  · obtain ⟨hsize, hsize₂⟩ := setWidth_challengerSize params.challengerSize
    rw [if_neg hlls, if_neg hlls, if_neg (not_or.mpr ⟨hlowest, hlls⟩),
      generateChallenger_eq, Stream'.length_take, hsize, hsize₂,
      List.append_assoc, List.append_assoc]
    rfl

/-- The size is filled in last. -/
theorem set_size (tag : Byte) (content : List Byte) :
    (tag :: 0 :: content).set 1
        (BitVec.ofNat 8 ((tag :: 0 :: content).length - 2))
      = (Tlv.mk tag content).short := rfl

/-- **`serialize_aarq` returns the association request.** -/
theorem serializeAarq_eq (cosem : Cosem) (rng : Rng) :
    serializeAarq cosem rng
      = (ok (aarqTlv cosem.parameters rng).short,
        rngAfter cosem.parameters rng) := by
  have hname := length_applicationContextName cosem.parameters
  unfold serializeAarq
  rw [pushApTitle_eq]
  change StateRun.andThen _ _ rng = _
  rw [StateRun.andThen, pushAuthentication_eq, aarqTlv, ← set_size,
    aarqComponents, shorts_append, shorts_append, shorts_append, shorts_cons,
    shorts_cons, shorts_nil, shorts_cons, shorts_nil, short_explicitTlv,
    short_explicitTlv, hname]
  simp only [List.append_assoc, List.append_nil]
  rfl

/-- The request with the password `12345678`. -/
example (rng : Rng) :
    let secret := #v[0x31, 0x32, 0x33, 0x34, 0x35, 0x36, 0x37, 0x38]
    (serializeAarq { parameters := { authentication := .lls, secret } } rng).1
      = ok [0x60, 0x39, 0x80, 0x02, 0x07, 0x80, 0xA1, 0x09, 0x06, 0x07, 0x60,
        0x85, 0x74, 0x05, 0x08, 0x01, 0x01, 0x8A, 0x02, 0x07, 0x80, 0x8B, 0x07,
        0x60, 0x85, 0x74, 0x05, 0x08, 0x02, 0x01, 0xAC, 0x0A, 0x80, 0x08, 0x31,
        0x32, 0x33, 0x34, 0x35, 0x36, 0x37, 0x38, 0xBE, 0x0F, 0x04, 0x0D, 0x01,
        0x00, 0x00, 0x00, 0x06, 0x5F, 0x04, 0x00, 0xB8, 0x38, 0x00, 0xFF,
        0xFF] :=
  rfl

/-! ## What it says -/

/-- **What an association request says**, as far as it is there. -/
structure Aarq where
  applicationContext : Option (List Byte)
  callingApTitle : Option (List Byte)
  mechanism : Option (List Byte)
  authenticationValue : Option (List Byte)
  userInformation : Option (List Byte)
  deriving DecidableEq, Repr

/-- What its components say. -/
def readAarq (ts : List Tlv) : Aarq where
  applicationContext := explicitValue ts 1
  callingApTitle := explicitValue ts 6
  mechanism := (component ts 11).map Tlv.value
  authenticationValue := explicitValue ts 12
  userInformation := explicitValue ts 30

/-- **What the request of a client is to say.** -/
def sentAarq (params : CosemParameters) (rng : Rng) : Aarq where
  applicationContext := some (applicationContextName params)
  callingApTitle :=
    if sendsApTitle params then some params.systemTitle.toList else none
  mechanism :=
    if params.authentication ≠ .lowest then
      some (mechanismName params.authentication)
    else
      none
  authenticationValue :=
    if params.authentication ≠ .lowest then
      some (authenticationValue params rng)
    else
      none
  userInformation := some initiateRequest

/-- **An association request that says `a`**: one element that is all of the
bytes, made of well-formed components that say it. -/
def IsAarq (a : Aarq) (b : List Byte) : Prop :=
  ∃ content ts, (Tlv.mk 0x60 content).Spans b ∧ IsSequence ts content
    ∧ Components ts ∧ readAarq ts = a

/-- **Bytes are no two different requests.** -/
theorem IsAarq.unique {a a' : Aarq} {b : List Byte} (h : IsAarq a b)
    (h' : IsAarq a' b) : a = a' := by
  obtain ⟨content, ts, hspans, hseq, -, rfl⟩ := h
  obtain ⟨content', ts', hspans', hseq', -, rfl⟩ := h'
  unfold Tlv.Spans at hspans hspans'
  rw [hspans, Option.some.injEq, Prod.mk.injEq, Tlv.mk.injEq] at hspans'
  obtain ⟨⟨-, rfl⟩, -⟩ := hspans'
  rw [hseq.unique hseq']

/-- The name of a mechanism tells which it is. -/
theorem mechanismName_injective : Function.Injective mechanismName := by
  intro m m' h
  cases m <;> cases m' <;> first | rfl | exact absurd h (by decide)

/-! ## Requests that fit -/

/-- The tags of the components. -/
def aarqTags (params : CosemParameters) : List Byte :=
  [0x80, 0xA1] ++ (if sendsApTitle params then [0xA6] else [])
    ++ (if params.authentication ≠ .lowest then [0x8A, 0x8B, 0xAC] else [])
    ++ [0xBE]

theorem map_tag_aarqComponents (params : CosemParameters) (rng : Rng) :
    (aarqComponents params rng).map Tlv.tag = aarqTags params := by
  unfold aarqComponents apTitleComponents authenticationComponents aarqTags
  split_ifs <;> rfl

/-- The tags are of the context class, with numbers that go up. -/
theorem aarqTags_wellFormed (params : CosemParameters) :
    (∀ tag ∈ aarqTags params, tag &&& 0x1F#8 ≠ 0x1F#8 ∧ tag >>> 6 = 2)
      ∧ (aarqTags params).Pairwise fun tag tag' =>
          (tag &&& 0x1F#8).toNat < (tag' &&& 0x1F#8).toNat := by
  unfold aarqTags
  split_ifs <;> decide

/-- The value of a constructed component is one element. -/
theorem explicit_of_mem_aarqComponents {params : CosemParameters} {rng : Rng}
    {t : Tlv} (h : t ∈ aarqComponents params rng) (ht : t.IsConstructed)
    (hlen : t.value.length < 128) : ∃ u : Tlv, u.Spans t.value := by
  have hexplicit : ∃ tag inner value, t = explicitTlv tag inner value
      ∧ inner &&& 0x1F#8 ≠ 0x1F#8 := by
    unfold aarqComponents apTitleComponents authenticationComponents at h
    simp only [List.mem_append, List.mem_cons, List.not_mem_nil, or_false,
      List.mem_ite_nil_right] at h
    rcases h with ((((rfl | rfl) | ⟨-, rfl⟩) | ⟨-, rfl | rfl | rfl⟩) | rfl)
    · exact absurd ht (by decide)
    · exact ⟨_, _, _, rfl, by decide⟩
    · exact ⟨_, _, _, rfl, by decide⟩
    · exact absurd ht (by decide)
    · exact absurd ht (by change ¬ (0x8B#8).getLsbD 5 = true; decide)
    · exact ⟨_, _, _, rfl, by decide⟩
    · exact ⟨_, _, _, rfl, by decide⟩
  obtain ⟨tag, inner, value, rfl, hinner⟩ := hexplicit
  rw [explicitTlv, Tlv.length_short] at hlen
  exact ⟨⟨inner, value⟩, Tlv.IsShort.spans ⟨hinner, by omega⟩⟩

/-- The components by their numbers. -/
theorem component_aarqComponents (params : CosemParameters) (rng : Rng) :
    component (aarqComponents params rng) 1
        = some (explicitTlv 0xA1 0x06 (applicationContextName params))
      ∧ component (aarqComponents params rng) 6
        = (if sendsApTitle params then
            some (explicitTlv 0xA6 0x06 params.systemTitle.toList) else none)
      ∧ component (aarqComponents params rng) 11
        = (if params.authentication ≠ .lowest then
            some ⟨0x8B, mechanismName params.authentication⟩ else none)
      ∧ component (aarqComponents params rng) 12
        = (if params.authentication ≠ .lowest then
            some (explicitTlv 0xAC 0x80 (authenticationValue params rng))
          else none)
      ∧ component (aarqComponents params rng) 30
        = some (explicitTlv 0xBE 0x04 initiateRequest) := by
  unfold aarqComponents apTitleComponents authenticationComponents
  split_ifs <;> simp [component, Tlv.number, explicitTlv]

/-- The value inside a component that is not too long. -/
theorem explicitValue_explicitTlv {ts : List Tlv} {n : ℕ} {tag inner : Byte}
    {value : List Byte}
    (h : component ts n = some (explicitTlv tag inner value))
    (hinner : inner &&& 0x1F#8 ≠ 0x1F#8) (hlen : value.length < 128) :
    explicitValue ts n = some value :=
  explicitValue_eq h (Tlv.IsShort.spans (t := ⟨inner, value⟩) ⟨hinner, hlen⟩)

theorem explicitValue_of_none {ts : List Tlv} {n : ℕ}
    (h : component ts n = none) : explicitValue ts n = none := by
  rw [explicitValue, h]
  rfl

/-- **Components that are not too long say what they are to say.** -/
theorem readAarq_aarqComponents {params : CosemParameters} {rng : Rng}
    (hlen : params.authentication ≠ .lowest →
      (authenticationValue params rng).length < 128) :
    readAarq (aarqComponents params rng) = sentAarq params rng := by
  obtain ⟨hname, htitle, hmechanism, hvalue, huser⟩ :=
    component_aarqComponents params rng
  rw [readAarq, sentAarq, hmechanism, explicitValue_explicitTlv hname
    (by decide) (by unfold applicationContextName; split_ifs <;> decide),
    explicitValue_explicitTlv huser (by decide) (by decide)]
  have htitle' : explicitValue (aarqComponents params rng) 6
      = if sendsApTitle params then some params.systemTitle.toList else none := by
    split_ifs at htitle ⊢
    · exact explicitValue_explicitTlv htitle (by decide)
        (by rw [Vector.length_toList]; decide)
    · exact explicitValue_of_none htitle
  have hvalue' : explicitValue (aarqComponents params rng) 12
      = if params.authentication ≠ .lowest then
          some (authenticationValue params rng) else none := by
    split_ifs at hvalue ⊢ with hlowest
    · exact explicitValue_explicitTlv hvalue (by decide) (hlen hlowest)
    · exact explicitValue_of_none hvalue
  rw [htitle', hvalue']
  split_ifs <;> rfl

/-- The length of the components. -/
theorem length_shorts_aarqComponents (params : CosemParameters) (rng : Rng) :
    (shorts (aarqComponents params rng)).length
      = 32 + (if sendsApTitle params then 12 else 0)
        + (if params.authentication ≠ .lowest then
            17 + (authenticationValue params rng).length else 0) := by
  have hname := length_applicationContextName params
  unfold aarqComponents apTitleComponents authenticationComponents
  have hrequest : initiateRequest.length = 13 := rfl
  have hmechanism : (mechanismName params.authentication).length = 7 := rfl
  split_ifs
  all_goals simp only [shorts_append, shorts_cons, shorts_nil,
    List.length_append, Tlv.length_short, length_explicitTlv,
    Vector.length_toList, hname, hrequest, hmechanism, List.length_cons,
    List.length_nil]
  all_goals omega

/-- **A request with less than 128 bytes of components says what it is to
say.** -/
theorem isAarq_of_lt {params : CosemParameters} {rng : Rng}
    (h : (shorts (aarqComponents params rng)).length < 128) :
    IsAarq (sentAarq params rng) (aarqTlv params rng).short := by
  have htags := aarqTags_wellFormed params
  rw [← map_tag_aarqComponents params rng] at htags
  have hshort : ∀ t ∈ aarqComponents params rng, t.IsShort := by
    intro t ht
    have hle := length_short_le_shorts ht
    exact ⟨(htags.1 _ (List.mem_map_of_mem ht)).1, by omega⟩
  have hspans : (aarqTlv params rng).Spans (aarqTlv params rng).short :=
    Tlv.IsShort.spans ⟨show (0x60#8) &&& 0x1F#8 ≠ 0x1F#8 by decide, h⟩
  refine ⟨_, _, hspans, isSequence_short hshort, ?_,
    readAarq_aarqComponents ?_⟩
  · exact ⟨fun t ht => (htags.1 _ (List.mem_map_of_mem ht)).2,
      (List.pairwise_map (f := Tlv.tag)).mp htags.2,
      fun t ht hc => explicit_of_mem_aarqComponents ht hc (hshort t ht).length⟩
  · intro hlowest
    rw [length_shorts_aarqComponents, if_pos hlowest] at h
    omega

/-! ## Requests that do not fit -/

/-- The components start with the protocol version. -/
theorem shorts_aarqComponents_eq (params : CosemParameters) (rng : Rng) :
    ∃ tail, shorts (aarqComponents params rng)
      = 0x80 :: 0x02 :: 0x07 :: 0x80 :: tail := ⟨_, rfl⟩

theorem length_authenticationValue_lt (params : CosemParameters) (rng : Rng) :
    (authenticationValue params rng).length < 2 ^ 32 := by
  unfold authenticationValue
  split_ifs
  · rw [Vector.length_toList]
    decide
  · rw [Stream'.length_take]
    exact params.challengerSize.isLt

/-- The components are shorter than their number of length bytes could say. -/
theorem length_shorts_aarqComponents_lt (params : CosemParameters)
    (rng : Rng) : (shorts (aarqComponents params rng)).length < 2 ^ 33 := by
  have hvalue := length_authenticationValue_lt params rng
  rw [length_shorts_aarqComponents]
  split_ifs <;> omega

/-- **How a request that does not fit can be read as one element all the
same.** The narrowed length announces one length byte, and the first byte of
the protocol version is the length of the rest; or four, and the whole
protocol version is. -/
theorem spans_of_ge {params : CosemParameters} {rng : Rng} {u : Tlv}
    (hlong : 128 ≤ (shorts (aarqComponents params rng)).length)
    (h : u.Spans (aarqTlv params rng).short) :
    u.value = (shorts (aarqComponents params rng)).drop 1
      ∨ (shorts (aarqComponents params rng)).length = 0x80020784
        ∧ u.value = (shorts (aarqComponents params rng)).drop 4 := by
  obtain ⟨tail, htail⟩ := shorts_aarqComponents_eq params rng
  have hbound := length_shorts_aarqComponents_lt params rng
  rcases h.of_short with ⟨hshort, -⟩ | ⟨k, hk, hmod, hlen, rfl⟩
  · exact absurd hshort (Nat.not_lt.mpr hlong)
  change (shorts (aarqComponents params rng)).length % 256 = 128 + k at hmod
  change (shorts (aarqComponents params rng)).length
    = k + ofOctets ((shorts (aarqComponents params rng)).take k) at hlen
  change (shorts (aarqComponents params rng)).drop k = _
    ∨ _ ∧ (shorts (aarqComponents params rng)).drop k = _
  have htwo : ofOctets ((shorts (aarqComponents params rng)).take 2)
      = 0x8002 := by rw [htail]; rfl
  have hthree : ofOctets ((shorts (aarqComponents params rng)).take 3)
      = 0x800207 := by rw [htail]; rfl
  have hfour : ofOctets ((shorts (aarqComponents params rng)).take 4)
      = 0x80020780 := by rw [htail]; rfl
  rcases Nat.lt_or_ge k 5 with hsmall | hlarge
  · obtain rfl | rfl | rfl | rfl : k = 1 ∨ k = 2 ∨ k = 3 ∨ k = 4 := by omega
    · exact .inl rfl
    · omega
    · omega
    · exact .inr ⟨by omega, rfl⟩
  · -- five length bytes or more say more than there is
    obtain ⟨j, rfl⟩ : ∃ j, k = j + 1 := ⟨k - 1, by omega⟩
    have hj : j ≤ (0x02 :: 0x07 :: 0x80 :: tail : List Byte).length := by
      rw [htail, List.length_cons] at hlen
      omega
    have hge := ofOctets_take_succ_ge 0x80
      (0x02 :: 0x07 :: 0x80 :: tail : List Byte) hj
    rw [← htail] at hge
    have hpow : 256 ^ 4 ≤ 256 ^ j := Nat.pow_le_pow_right (by decide) (by omega)
    have hfirst : BitVec.toNat (0x80 : Byte) = 128 := rfl
    rw [hfirst] at hge
    omega

/-- The components in front of the authentication value. -/
def aarqLeading (params : CosemParameters) : List Tlv :=
  explicitTlv 0xA1 0x06 (applicationContextName params)
    :: (apTitleComponents params
      ++ [⟨0x8A, [0x07, 0x80]⟩, ⟨0x8B, mechanismName params.authentication⟩])

theorem aarqComponents_eq {params : CosemParameters} (rng : Rng)
    (h : params.authentication ≠ .lowest) :
    aarqComponents params rng = ⟨0x80, [0x07, 0x80]⟩ :: (aarqLeading params
      ++ [explicitTlv 0xAC 0x80 (authenticationValue params rng),
        explicitTlv 0xBE 0x04 initiateRequest]) := by
  rw [aarqComponents, authenticationComponents, if_pos h, aarqLeading]
  simp

theorem aarqLeading_isShort (params : CosemParameters) :
    ∀ t ∈ aarqLeading params, t.IsShort := by
  intro t ht
  unfold aarqLeading apTitleComponents at ht
  simp only [List.mem_append, List.mem_cons, List.not_mem_nil, or_false,
    List.mem_ite_nil_right] at ht
  rcases ht with rfl | ⟨-, rfl⟩ | rfl | rfl
  · refine ⟨show (0xA1#8) &&& 0x1F#8 ≠ 0x1F#8 by decide, ?_⟩
    rw [length_explicitTlv, length_applicationContextName]
    decide
  · refine ⟨show (0xA6#8) &&& 0x1F#8 ≠ 0x1F#8 by decide, ?_⟩
    rw [length_explicitTlv, Vector.length_toList]
    decide
  · exact ⟨by decide, by decide⟩
  · exact ⟨show (0x8B#8) &&& 0x1F#8 ≠ 0x1F#8 by decide,
      show 7 < 128 by decide⟩

/-- Only so much of a value is read as its narrowed length says. -/
theorem short_explicitTlv_wraps (tag inner : Byte) (value : List Byte) :
    (explicitTlv tag inner value).short
      = (explicitTlv tag inner (value.take (value.length % 256))).short
        ++ value.drop (value.length % 256) := by
  have hlen : (value.take (value.length % 256)).length
      = value.length % 256 := by
    rw [List.length_take]
    omega
  have hlength : BitVec.ofNat 8 value.length
        = BitVec.ofNat 8 (value.length % 256)
      ∧ BitVec.ofNat 8 (value.length + 2)
        = BitVec.ofNat 8 (value.length % 256 + 2) := by
    rw [← BitVec.toNat_inj, ← BitVec.toNat_inj, BitVec.toNat_ofNat,
      BitVec.toNat_ofNat, BitVec.toNat_ofNat, BitVec.toNat_ofNat]
    omega
  rw [short_explicitTlv, short_explicitTlv, hlen, hlength.1, hlength.2,
    List.append_assoc, List.take_append_drop]

/-- Behind the protocol version, the authentication value that is read is
only as long as its narrowed length says. -/
theorem authenticationValue_of_wraps {params : CosemParameters}
    {ts : List Tlv} {value b : List Byte}
    (hvalue : value.length % 256 < 126)
    (h : IsSequence ts (shorts (aarqLeading params)
      ++ ((explicitTlv 0xAC 0x80 value).short ++ b))) :
    explicitValue ts 12 = some (value.take (value.length % 256)) := by
  have hlen : (value.take (value.length % 256)).length
      = value.length % 256 := by
    rw [List.length_take]
    omega
  have hshort : ∀ t ∈ aarqLeading params
      ++ [explicitTlv 0xAC 0x80 (value.take (value.length % 256))],
      t.IsShort := by
    intro t ht
    rcases List.mem_append.mp ht with ht | ht
    · exact aarqLeading_isShort params t ht
    · rw [List.mem_singleton.mp ht]
      refine ⟨show (0xAC#8) &&& 0x1F#8 ≠ 0x1F#8 by decide, ?_⟩
      rw [length_explicitTlv, hlen]
      omega
  rw [short_explicitTlv_wraps, List.append_assoc, ← List.append_assoc,
    show shorts (aarqLeading params)
        ++ (explicitTlv 0xAC 0x80 (value.take (value.length % 256))).short
      = shorts (aarqLeading params
        ++ [explicitTlv 0xAC 0x80 (value.take (value.length % 256))])
      by rw [shorts_append, shorts_cons, shorts_nil, List.append_nil]] at h
  obtain ⟨rest, rfl, -⟩ := h.of_short_append hshort
  have hcomponent : component (aarqLeading params
        ++ [explicitTlv 0xAC 0x80 (value.take (value.length % 256))] ++ rest)
        12 = some (explicitTlv 0xAC 0x80
          (value.take (value.length % 256))) := by
    unfold aarqLeading apTitleComponents
    split_ifs <;> simp [component, Tlv.number, explicitTlv]
  exact explicitValue_explicitTlv hcomponent (by decide) (by omega)

/-- **A request with 128 bytes of components or more does not say what it is
to say**, whatever it is read as. -/
theorem not_isAarq_of_ge {params : CosemParameters} {rng : Rng}
    (h : 128 ≤ (shorts (aarqComponents params rng)).length) :
    ¬ IsAarq (sentAarq params rng) (aarqTlv params rng).short := by
  rintro ⟨content, ts, hspans, hseq, hcomponents, hread⟩
  obtain ⟨tail, htail⟩ := shorts_aarqComponents_eq params rng
  rcases spans_of_ge h hspans with hone | ⟨hlength, hfour⟩
  · -- the second byte of the protocol version is not the tag of a component
    obtain rfl : content = 0x02 :: 0x07 :: 0x80 :: tail := by
      rw [show content = _ from hone, htail]
      rfl
    cases ts with
    | nil => exact absurd hseq (List.cons_ne_nil _ _)
    | cons t ts =>
      obtain ⟨rest, hreadTlv, -⟩ := hseq
      obtain ⟨-, n, body, -, -, ht, -⟩ := readTlv_eq_some_iff.mp hreadTlv
      have hcontext := hcomponents.context t List.mem_cons_self
      rw [ht] at hcontext
      exact absurd hcontext (by change ¬ (0x02#8) >>> 6 = 2; decide)
  · -- the value of the authentication is cut short
    have hlowest : params.authentication ≠ .lowest := by
      intro hlowest
      rw [length_shorts_aarqComponents, if_neg (not_not.mpr hlowest)]
        at hlength
      split_ifs at hlength <;> omega
    have hvalue : (authenticationValue params rng).length = 0x80020753
        ∨ (authenticationValue params rng).length = 0x80020747 := by
      rw [length_shorts_aarqComponents, if_pos hlowest] at hlength
      split_ifs at hlength <;> omega
    have hmod : (authenticationValue params rng).length % 256 < 126 := by
      omega
    obtain rfl : content = shorts (aarqLeading params)
        ++ ((explicitTlv 0xAC 0x80 (authenticationValue params rng)).short
          ++ (explicitTlv 0xBE 0x04 initiateRequest).short) := by
      rw [show content = _ from hfour, aarqComponents_eq rng hlowest,
        shorts_cons, shorts_append, shorts_cons, shorts_cons, shorts_nil,
        List.append_nil]
      rfl
    have hcut := authenticationValue_of_wraps hmod hseq
    have hsent : explicitValue ts 12 = some (authenticationValue params rng) :=
      (congrArg Aarq.authenticationValue hread).trans (if_pos hlowest)
    rw [hcut, Option.some.injEq] at hsent
    have hlen := congrArg List.length hsent
    rw [List.length_take] at hlen
    omega

/-! ## Which requests fit -/

/-- **The parameters whose request fits**: without a challenge, or with a
challenge of at most 66 bytes next to an AP title and 78 without. -/
def AarqFits (params : CosemParameters) : Prop :=
  params.authentication = .lowest ∨ params.authentication = .lls
    ∨ params.challengerSize.toNat ≤ if sendsApTitle params then 66 else 78

theorem length_shorts_aarqComponents_lt_iff (params : CosemParameters)
    (rng : Rng) :
    (shorts (aarqComponents params rng)).length < 128 ↔ AarqFits params := by
  rw [length_shorts_aarqComponents, AarqFits, authenticationValue]
  by_cases hlowest : params.authentication = .lowest
  · rw [if_neg (not_not.mpr hlowest)]
    refine iff_of_true ?_ (.inl hlowest)
    split_ifs <;> decide
  by_cases hlls : params.authentication = .lls
  · rw [if_pos hlowest, if_pos hlls, Vector.length_toList]
    refine iff_of_true ?_ (.inr (.inl hlls))
    split_ifs <;> decide
  · rw [if_pos hlowest, if_neg hlls, Stream'.length_take]
    simp only [hlowest, hlls, false_or]
    split_ifs <;> omega

/-- **`serialize_aarq` writes a well-formed request that says what it is to
say exactly if the request fits**: it does so for every parameter without a
challenge, and for challenges that leave the length below 128. -/
theorem serializeAarq_isAarq_iff (cosem : Cosem) (rng : Rng) :
    Ensures (serializeAarq cosem rng).1 (IsAarq (sentAarq cosem.parameters rng))
      ↔ AarqFits cosem.parameters := by
  rw [serializeAarq_eq, ensures_ok,
    ← length_shorts_aarqComponents_lt_iff cosem.parameters rng]
  constructor
  · intro h
    by_contra hge
    exact not_isAarq_of_ge (Nat.not_lt.mp hge) h
  · exact isAarq_of_lt

/-- A client that authenticates itself with a challenge of 79 bytes. -/
def longChallenge : Cosem where
  parameters := { authentication := .hls, challengerSize := 79 }

/-- The length of its request is written as the byte `80`, which is none. -/
theorem serializeAarq_longChallenge :
    ∃ b, (serializeAarq longChallenge (Stream'.const 0)).1 = ok b
      ∧ b.take 2 = [0x60, 0x80]
      ∧ ¬ IsAarq (sentAarq longChallenge.parameters (Stream'.const 0)) b := by
  have hge : ¬ (shorts (aarqComponents longChallenge.parameters
      (Stream'.const 0))).length < 128 := by
    rw [length_shorts_aarqComponents_lt_iff]
    unfold AarqFits
    decide
  refine ⟨_, congrArg Prod.fst (serializeAarq_eq _ _), by decide +kernel,
    not_isAarq_of_ge (Nat.not_lt.mp hge)⟩

end Dlms
