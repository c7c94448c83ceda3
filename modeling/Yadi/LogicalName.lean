import Mathlib.Data.List.TakeWhile
import Yadi.Cosem
import Yadi.Lines

/-!
# Logical names

The two constructors of `LogicalName`. One takes six octets, the other a text
of six numbers with dots between them. The text goes through `std::getline`
and `std::atoi`, which are modelled as they are documented; what `atoi`
returns for a number that is no `int` is left open by the documentation, and
is a parameter here.

The text constructor is the other one on the octets `atoi` makes of the
tokens (`ofString_eq`). On six octets in decimal, with or without leading
zeros, it makes the same name (`constructors_agree`). But its one test is that
of the number of tokens. A token that is no number is 0, one above 255 loses
its upper bits, and a dot at the end begins no token, so a text that is no
name is refused only if it is one with more or fewer tokens
(`ofString_strict_iff`).
-/

namespace Dlms

open Run Lines

/-! ## What the standard library does -/

/-- `.`. -/
def dot : Byte := 0x2E

/-- `std::isspace`. -/
def IsSpace (c : Byte) : Prop := c = 0x20 ∨ 0x09 ≤ c ∧ c ≤ 0x0D

/-- `std::isdigit`. -/
def IsDigit (c : Byte) : Prop := 0x30 ≤ c ∧ c ≤ 0x39

instance (c : Byte) : Decidable (IsSpace c) :=
  inferInstanceAs (Decidable (_ ∨ _ ∧ _))

instance (c : Byte) : Decidable (IsDigit c) :=
  inferInstanceAs (Decidable (_ ∧ _))

/-- The number that decimal digits are. -/
def decimalValue (digits : List Byte) : ℕ :=
  digits.foldl (fun n c => n * 10 + (c.toNat - 0x30)) 0

/-- Whether there is a minus sign, and what stands behind the sign if there
is one. -/
def readSign : List Byte → Bool × List Byte
  | [] => (false, [])
  | c :: rest =>
    if c = 0x2D then (true, rest)
    else if c = 0x2B then (false, rest)
    else (false, c :: rest)

/-- `std::getline` on what is left of a stream: a token and what is left
behind its delimiter, or a failure if nothing is left. -/
def getline (delim : Byte) (stream : List Byte) :
    Option (List Byte × List Byte) :=
  if stream = [] then
    none
  else
    some (stream.takeWhile (· ≠ delim), (stream.dropWhile (· ≠ delim)).drop 1)

section
variable (overflow : List Byte → ℤ)

/-- `std::atoi`: after spaces and a sign, as many digits as there are. For a
number that is no `int` it may return anything, here `overflow`. -/
def atoi (token : List Byte) : ℤ :=
  let (negative, rest) := readSign (token.dropWhile (IsSpace ·))
  let magnitude : ℤ := decimalValue (rest.takeWhile (IsDigit ·))
  let value := if negative then -magnitude else magnitude
  if -0x80000000 ≤ value ∧ value ≤ 0x7FFFFFFF then value else overflow token

/-! ## The constructors -/

/-- `std::copy_n` of six bytes into a logical name. -/
def copyName (values : List Byte) : Result LogicalName := do
  return .ofBytes (← readAt values 0) (← readAt values 1) (← readAt values 2)
    (← readAt values 3) (← readAt values 4) (← readAt values 5)

/-- One turn of the loop over the tokens; the state is `tokenStream` and
`tokens`. -/
def tokenRound (s : List Byte × List Byte) :
    Result (ForInStep (List Byte × List Byte)) :=
  match getline dot s.1 with
  | some (token, tokenStream) =>
    return .yield (tokenStream, s.2 ++ [BitVec.ofInt 8 (atoi overflow token)])
  | none => return .done s

/-- `LogicalName::LogicalName(std::string const&)`. -/
def LogicalName.ofString (str : List Byte) : Result LogicalName := do
  let (_, tokens) ← loop (tokenRound overflow) (str.length + 1) (str, [])
  if tokens.length ≠ 6 then
    throws (.runtimeError "logical name must be 6 bytes long")
  else
    copyName tokens

end

/-- `LogicalName::LogicalName(std::initializer_list<uint8_t> const&)`. -/
def LogicalName.ofInitializerList (initializerList : List Byte) :
    Result LogicalName :=
  if initializerList.length ≠ 6 then
    throws (.runtimeError "logical name must be 6 bytes long")
  else
    copyName initializerList

/-! ## The loop over the tokens -/

/-- **A token is a line.** -/
theorem lines_of_getline {delim : Byte} {stream token rest : List Byte}
    (h : getline delim stream = some (token, rest)) :
    lines delim stream = token :: lines delim rest
      ∧ rest.length < stream.length := by
  unfold getline at h
  by_cases hne : stream = []
  · rw [if_pos hne] at h
    cases h
  rw [if_neg hne, Option.some.injEq, Prod.mk.injEq] at h
  obtain ⟨rfl, rfl⟩ := h
  have hmem : delim ∉ stream.takeWhile (· ≠ delim) := by
    intro hdelim
    exact absurd (List.mem_takeWhile_imp hdelim) (by simp)
  have hsplit := List.takeWhile_append_dropWhile (p := (· ≠ delim))
    (l := stream)
  have hpos := List.length_pos_iff.mpr hne
  cases hdrop : stream.dropWhile (· ≠ delim) with
  | nil =>
    -- there is no delimiter left
    rw [hdrop, List.append_nil] at hsplit
    rw [hsplit] at hmem ⊢
    exact ⟨lines_of_notMem hmem hne, hpos⟩
  | cons x rest =>
    have hx : x = delim := by
      have := List.head?_dropWhile_not (p := (· ≠ delim)) stream
      rw [hdrop] at this
      simpa using this
    rw [hdrop, hx] at hsplit
    have hlines := lines_append_cons hmem rest
    rw [hsplit] at hlines
    have hlen := congrArg List.length hsplit
    rw [List.length_append, List.length_cons] at hlen
    exact ⟨hlines, show rest.length < stream.length by omega⟩

/-- The octet that `LogicalName` takes a token for. -/
def tokenOctet (overflow : List Byte → ℤ) (token : List Byte) : Byte :=
  BitVec.ofInt 8 (atoi overflow token)

/-- **The loop collects the octets of all tokens.** -/
theorem token_loop (overflow : List Byte → ℤ) (fuel : ℕ)
    (stream tokens : List Byte) (hfuel : stream.length < fuel) :
    loop (tokenRound overflow) fuel (stream, tokens)
      = ok ([], tokens ++ (lines dot stream).map (tokenOctet overflow)) := by
  induction fuel generalizing stream tokens with
  | zero => exact absurd hfuel (Nat.not_lt_zero _)
  | succ fuel ih =>
    rw [loop, tokenRound]
    cases hline : getline dot stream with
    | none =>
      have hnil : stream = [] := by
        by_contra hne
        rw [getline, if_neg hne] at hline
        cases hline
      rw [hnil, lines, List.map_nil, List.append_nil]
      rfl
    | some r =>
      obtain ⟨token, rest⟩ := r
      obtain ⟨hlines, hlt⟩ := lines_of_getline hline
      rw [hlines, List.map_cons, List.append_cons]
      exact ih rest _ (by omega)

/-! ## The two constructors -/

/-- **The text constructor is the other one on the octets of the tokens.** -/
theorem LogicalName.ofString_eq (overflow : List Byte → ℤ) (str : List Byte) :
    ofString overflow str
      = ofInitializerList ((lines dot str).map (tokenOctet overflow)) := by
  rw [ofString, token_loop overflow _ _ _ (Nat.lt_succ_self _), ok_bind,
    List.nil_append]
  rfl

/-- Six octets are copied as they are. -/
theorem LogicalName.ofInitializerList_of_length (octets : List Byte)
    (h : octets.length = 6) :
    ∃ name, ofInitializerList octets = ok name
      ∧ name.value.toList = octets := by
  match octets, h with
  | [_, _, _, _, _, _], _ => exact ⟨_, rfl, rfl⟩

/-- Any other number of octets is refused. -/
theorem LogicalName.ofInitializerList_throws {octets : List Byte}
    (h : octets.length ≠ 6) :
    ofInitializerList octets
      = throws (.runtimeError "logical name must be 6 bytes long") := if_pos h

/-- **The text constructor throws exactly for texts of more or fewer than six
tokens.** -/
theorem LogicalName.ofString_throws_iff (overflow : List Byte → ℤ)
    (str : List Byte) :
    (∃ e, ofString overflow str = throws e) ↔ (lines dot str).length ≠ 6 := by
  rw [ofString_eq]
  refine ⟨fun ⟨e, he⟩ hsix => ?_, fun hsix => ?_⟩
  · obtain ⟨name, hname, -⟩ := ofInitializerList_of_length
      ((lines dot str).map (tokenOctet overflow))
      ((List.length_map _).trans hsix)
    rw [hname] at he
    cases he
  · exact ⟨_, ofInitializerList_throws (by rwa [List.length_map])⟩

/-! ## Octets in decimal -/

/-- **An octet in decimal**, with or without leading zeros. -/
structure Rendering where
  octet : Byte
  digits : List Byte
  digits_ne_nil : digits ≠ []
  isDigit : ∀ c ∈ digits, IsDigit c
  decimalValue_eq : decimalValue digits = octet.toNat

/-- Octets in decimal with dots between them. -/
def dotted (rs : List Rendering) : List Byte :=
  [dot].intercalate (rs.map Rendering.digits)

theorem IsDigit.ne_dot {c : Byte} (h : IsDigit c) : c ≠ dot := by
  rintro rfl
  exact absurd h (by decide)

/-- A digit is no space and no sign. -/
theorem IsDigit.not_isSpace {c : Byte} (h : IsDigit c) :
    ¬ IsSpace c ∧ c ≠ 0x2D ∧ c ≠ 0x2B := by
  revert c
  decide +kernel

/-- **`atoi` on a token of digits.** -/
theorem atoi_of_digits (overflow : List Byte → ℤ) {digits : List Byte}
    (hne : digits ≠ []) (h : ∀ c ∈ digits, IsDigit c)
    (hval : decimalValue digits ≤ 0x7FFFFFFF) :
    atoi overflow digits = decimalValue digits := by
  have htake : digits.takeWhile (IsDigit ·) = digits :=
    List.takeWhile_eq_self_iff.mpr (fun c hc => decide_eq_true (h c hc))
  have hsign : readSign (digits.dropWhile (IsSpace ·)) = (false, digits) := by
    cases digits with
    | nil => exact absurd rfl hne
    | cons c digits =>
      obtain ⟨hspace, hminus, hplus⟩ := (h c List.mem_cons_self).not_isSpace
      rw [List.dropWhile_cons_of_neg (by simpa using hspace), readSign,
        if_neg hminus, if_neg hplus]
  have hint : (-0x80000000 : ℤ) ≤ decimalValue digits
      ∧ (decimalValue digits : ℤ) ≤ 0x7FFFFFFF := by omega
  rw [atoi, hsign]
  simp only [htake, Bool.false_eq_true, if_false]
  exact if_pos hint

/-- **The constructor gets the octet back from its digits.** -/
theorem Rendering.tokenOctet_digits (overflow : List Byte → ℤ)
    (r : Rendering) : tokenOctet overflow r.digits = r.octet := by
  have hlt := r.octet.isLt
  rw [tokenOctet, atoi_of_digits overflow r.digits_ne_nil r.isDigit
    (by rw [r.decimalValue_eq]; omega), r.decimalValue_eq,
    BitVec.ofInt_natCast, BitVec.ofNat_toNat, BitVec.setWidth_eq]

/-- Digits of an octet are a field: not empty and without a dot. -/
theorem field_of_mem_digits {rs : List Rendering} :
    ∀ field ∈ rs.map Rendering.digits, field ≠ [] ∧ dot ∉ field := by
  intro field hfield
  obtain ⟨r, -, rfl⟩ := List.mem_map.mp hfield
  exact ⟨r.digits_ne_nil, fun hdot => (r.isDigit dot hdot).ne_dot rfl⟩

/-- **The tokens of octets with dots between them** are their digits. -/
theorem lines_dotted (rs : List Rendering) :
    lines dot (dotted rs) = rs.map Rendering.digits :=
  lines_intercalate field_of_mem_digits

/-- The octets the constructor makes of octets with dots between them. -/
theorem tokenOctets_dotted (overflow : List Byte → ℤ) (rs : List Rendering) :
    (lines dot (dotted rs)).map (tokenOctet overflow)
      = rs.map Rendering.octet := by
  rw [lines_dotted, List.map_map]
  exact List.map_congr_left (fun r _ => r.tokenOctet_digits overflow)

/-- **The two constructors agree**, whatever the number of octets and however
they are written in decimal: they make the name with these octets if there are
six, and throw if not. -/
theorem LogicalName.constructors_agree (overflow : List Byte → ℤ)
    (rs : List Rendering) :
    ofString overflow (dotted rs) = ofInitializerList (rs.map Rendering.octet)
      ∧ (rs.length = 6 → ∃ name,
          ofString overflow (dotted rs) = ok name
            ∧ ofInitializerList (rs.map Rendering.octet) = ok name
            ∧ name.value.toList = rs.map Rendering.octet)
      ∧ (rs.length ≠ 6 → ∃ e, ofString overflow (dotted rs) = throws e)
      ∧ ∀ octets : List Byte, octets.length ≠ 6 →
          ∃ e, ofInitializerList octets = throws e := by
  have heq : ofString overflow (dotted rs)
      = ofInitializerList (rs.map Rendering.octet) := by
    rw [ofString_eq, tokenOctets_dotted]
  refine ⟨heq, fun hsix => ?_, fun hsix => ?_, fun octets hsix =>
    ⟨_, ofInitializerList_throws hsix⟩⟩
  · obtain ⟨name, hname, hvalue⟩ := ofInitializerList_of_length
      (rs.map Rendering.octet) ((List.length_map _).trans hsix)
    exact ⟨name, heq.trans hname, hname, hvalue⟩
  · exact (ofString_throws_iff overflow _).mpr
      (by rwa [lines_dotted, List.length_map])

/-- Leading zeros do no harm: `001.0.1.8.0.255`. -/
example (overflow : List Byte → ℤ) :
    LogicalName.ofString overflow [0x30, 0x30, 0x31, 0x2E, 0x30, 0x2E, 0x31,
        0x2E, 0x38, 0x2E, 0x30, 0x2E, 0x32, 0x35, 0x35]
      = ok (.ofBytes 1 0 1 8 0 255) := rfl

/-! ## Texts that are no names -/

/-- What may stand between two dots. -/
def IsOctetText (field : List Byte) : Prop :=
  field ≠ [] ∧ (∀ c ∈ field, IsDigit c) ∧ decimalValue field ≤ 255

instance (field : List Byte) : Decidable (IsOctetText field) :=
  inferInstanceAs (Decidable (_ ∧ _ ∧ _))

/-- **A name in dotted decimal**: six octets and the dots between them. -/
def IsDottedName (str : List Byte) : Prop :=
  ∃ rs : List Rendering, rs.length = 6 ∧ str = dotted rs

/-- **A text with something in it that no name has**: a field that is empty,
has another character than digits or is above 255, or a dot at the end. -/
def Mistyped (str : List Byte) : Prop :=
  str.getLast? = some dot ∨ ∃ field ∈ lines dot str, ¬ IsOctetText field

instance (str : List Byte) : Decidable (Mistyped str) :=
  inferInstanceAs (Decidable (_ ∨ _))

/-- **How many fields a text has**: one for each dot, and one more unless the
text is empty or ends with a dot. -/
def fieldCount (str : List Byte) : ℕ :=
  str.count dot
    + if str.getLast? = none ∨ str.getLast? = some dot then 0 else 1

/-- Such a field is an octet in decimal. -/
def Rendering.ofText (field : List Byte) (h : IsOctetText field) :
    Rendering where
  octet := BitVec.ofNat 8 (decimalValue field)
  digits := field
  digits_ne_nil := h.1
  isDigit := h.2.1
  decimalValue_eq := by
    have hle := h.2.2
    rw [BitVec.toNat_ofNat, Nat.mod_eq_of_lt (by omega)]

theorem Rendering.isOctetText (r : Rendering) : IsOctetText r.digits := by
  have hlt := r.octet.isLt
  exact ⟨r.digits_ne_nil, r.isDigit, by rw [r.decimalValue_eq]; omega⟩

/-- **The names in dotted decimal** are the texts of six fields with nothing
else in them. -/
theorem isDottedName_iff (str : List Byte) :
    IsDottedName str ↔ fieldCount str = 6 ∧ ¬ Mistyped str := by
  rw [fieldCount, ← length_lines]
  constructor
  · rintro ⟨rs, hsix, rfl⟩
    rw [lines_dotted, List.length_map]
    refine ⟨hsix, ?_⟩
    rintro (hlast | ⟨field, hfield, hbad⟩)
    · exact getLast?_intercalate_ne field_of_mem_digits hlast
    · rw [lines_dotted] at hfield
      obtain ⟨r, -, rfl⟩ := List.mem_map.mp hfield
      exact hbad r.isOctetText
  · rintro ⟨hsix, hgood⟩
    rw [Mistyped, not_or] at hgood
    obtain ⟨hlast, hfields⟩ := hgood
    have hall : ∀ field ∈ lines dot str, IsOctetText field := by
      intro field hfield
      by_contra hbad
      exact hfields ⟨field, hfield, hbad⟩
    refine ⟨(lines dot str).pmap Rendering.ofText hall, ?_, ?_⟩
    · rw [List.length_pmap, hsix]
    · have hdigits : ((lines dot str).pmap Rendering.ofText hall).map
          Rendering.digits = lines dot str := by
        rw [List.map_pmap]
        exact (List.pmap_eq_map _).trans (List.map_id' _)
      rw [dotted, hdigits, intercalate_lines hlast]

/-- **What is expected of a text**: it is refused unless it is a name in
dotted decimal, whatever the mistake in it. -/
def RefusesMistyped (overflow : List Byte → ℤ) (str : List Byte) : Prop :=
  ((∀ e, LogicalName.ofString overflow str ≠ throws e) → IsDottedName str)
    ∧ (Mistyped str → ∃ e, LogicalName.ofString overflow str = throws e)

/-- **A text that is no name is refused exactly if it does not have six
fields.** -/
theorem LogicalName.ofString_strict_iff (overflow : List Byte → ℤ)
    (str : List Byte) :
    RefusesMistyped overflow str ↔ (fieldCount str = 6 → ¬ Mistyped str) := by
  have hthrows : (∃ e, ofString overflow str = throws e)
      ↔ fieldCount str ≠ 6 := by
    rw [ofString_throws_iff, length_lines]
    rfl
  constructor
  · rintro ⟨-, hrefused⟩ hsix hbad
    exact hthrows.mp (hrefused hbad) hsix
  · refine fun hgood => ⟨fun hreturns => ?_, fun hbad => ?_⟩
    · have hsix : fieldCount str = 6 := by
        by_contra hsix
        obtain ⟨e, he⟩ := hthrows.mpr hsix
        exact hreturns e he
      exact (isDottedName_iff str).mpr ⟨hsix, hgood hsix⟩
    · exact hthrows.mpr (fun hsix => hgood hsix hbad)

/-- `1.0.1.8.0.256` is taken for `1.0.1.8.0.0`. -/
theorem LogicalName.ofString_accepts_256 :
    ofString (fun _ => -1) [0x31, 0x2E, 0x30, 0x2E, 0x31, 0x2E, 0x38, 0x2E,
        0x30, 0x2E, 0x32, 0x35, 0x36] = ok (.ofBytes 1 0 1 8 0 0)
      ∧ ¬ RefusesMistyped (fun _ => -1) [0x31, 0x2E, 0x30, 0x2E, 0x31, 0x2E,
        0x38, 0x2E, 0x30, 0x2E, 0x32, 0x35, 0x36] := by
  have haccepted : ofString (fun _ => -1) [0x31, 0x2E, 0x30, 0x2E, 0x31, 0x2E,
      0x38, 0x2E, 0x30, 0x2E, 0x32, 0x35, 0x36]
      = ok (.ofBytes 1 0 1 8 0 0) := rfl
  refine ⟨haccepted, fun hrefuses => ?_⟩
  obtain ⟨e, he⟩ := hrefuses.2 (by decide)
  rw [haccepted] at he
  cases he

end Dlms
