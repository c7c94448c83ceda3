import Mathlib.Algebra.Group.Nat.Defs
import Mathlib.Data.List.Basic

/-!
# Definite-length BER

An element of BER is a tag, a length and a value. `readTlv` takes one from
the front of some octets, for tags of a single octet and definite lengths: an
octet below 128 is the length itself, and an octet `128 + k` says that the
next `k` octets are.

A value is often a sequence of elements again. `IsSequence ts b` says that
`b` is the elements `ts`, one behind the other. There is only one way to read
it (`IsSequence.unique`), and elements written in the short form, `Tlv.short`,
are read back as they are, whatever stands behind them (`isSequence_short`,
`IsSequence.of_short_append`).

`Tlv.short` is total, as a writer is that does not look at the length it
narrows to an octet. Only an element that is `Tlv.IsShort` is read back.
-/

/-- Eight bits. -/
abbrev Octet := BitVec 8

namespace Ber

/-! ## Lengths -/

/-- The number that octets are, the highest one first. -/
def ofOctets (b : List Octet) : ℕ :=
  b.foldl (fun n x => n * 256 + x.toNat) 0

theorem foldl_ofOctets (b : List Octet) (n : ℕ) :
    b.foldl (fun n x => n * 256 + x.toNat) n
      = n * 256 ^ b.length + ofOctets b := by
  induction b generalizing n with
  | nil => simp [ofOctets]
  | cons x b ih =>
    have hcons : ofOctets (x :: b) = x.toNat * 256 ^ b.length + ofOctets b := by
      rw [ofOctets, List.foldl_cons, ih, Nat.zero_mul, Nat.zero_add]
    rw [List.foldl_cons, ih, hcons, List.length_cons, Nat.pow_succ,
      Nat.add_mul, Nat.mul_assoc, Nat.mul_comm 256, Nat.add_assoc]

/-- The first octet counts highest. -/
theorem ofOctets_cons (x : Octet) (b : List Octet) :
    ofOctets (x :: b) = x.toNat * 256 ^ b.length + ofOctets b := by
  rw [ofOctets, List.foldl_cons, foldl_ofOctets, Nat.zero_mul, Nat.zero_add]

/-- **A definite length** from the front of some octets, and what is behind
it. -/
def readLength : List Octet → Option (ℕ × List Octet)
  | [] => none
  | x :: rest =>
    if x.toNat < 128 then
      some (x.toNat, rest)
    else if x.toNat = 128 ∨ rest.length < x.toNat - 128 then
      none
    else
      some (ofOctets (rest.take (x.toNat - 128)), rest.drop (x.toNat - 128))

/-- The two forms of a length. -/
theorem readLength_eq_some_iff {x : Octet} {b body : List Octet} {n : ℕ} :
    readLength (x :: b) = some (n, body)
      ↔ (x.toNat < 128 ∧ n = x.toNat ∧ body = b)
        ∨ (128 < x.toNat ∧ x.toNat - 128 ≤ b.length
          ∧ n = ofOctets (b.take (x.toNat - 128))
          ∧ body = b.drop (x.toNat - 128)) := by
  rw [readLength]
  split_ifs with hshort hnone
  · rw [Option.some.injEq, Prod.mk.injEq, eq_comm, @eq_comm _ b]
    exact ⟨fun h => .inl ⟨hshort, h⟩, fun h => h.elim And.right (by omega)⟩
  · refine ⟨nofun, fun h => ?_⟩
    omega
  · rw [Option.some.injEq, Prod.mk.injEq, eq_comm, @eq_comm _ (b.drop _)]
    refine ⟨fun h => .inr ⟨by omega, by omega, h⟩, fun h => ?_⟩
    exact h.elim (fun h => absurd h.1 hshort) (fun h => h.2.2)

/-- A length in the short form. -/
theorem readLength_short {n : ℕ} (h : n < 128) (rest : List Octet) :
    readLength (BitVec.ofNat 8 n :: rest) = some (n, rest) := by
  have hn : (BitVec.ofNat 8 n).toNat = n := by
    rw [BitVec.toNat_ofNat]
    omega
  exact readLength_eq_some_iff.mpr (.inl ⟨hn.symm ▸ h, hn.symm, rfl⟩)

/-- A length of `k` octets is at least as large as its first octet says. -/
theorem ofOctets_take_succ_ge (x : Octet) (b : List Octet) {k : ℕ}
    (h : k ≤ b.length) :
    x.toNat * 256 ^ k ≤ ofOctets ((x :: b).take (k + 1)) := by
  rw [List.take_succ_cons, ofOctets_cons, List.length_take, Nat.min_eq_left h]
  exact Nat.le_add_right _ _

/-- **A length in `k` octets is below `256 ^ k`.** -/
theorem ofOctets_lt (b : List Octet) : ofOctets b < 256 ^ b.length := by
  induction b with
  | nil => exact Nat.one_pos
  | cons x b ih =>
    have hx : x.toNat + 1 ≤ 256 := x.isLt
    calc ofOctets (x :: b) = x.toNat * 256 ^ b.length + ofOctets b :=
          ofOctets_cons x b
      _ < x.toNat * 256 ^ b.length + 256 ^ b.length := Nat.add_lt_add_left ih _
      _ = (x.toNat + 1) * 256 ^ b.length := (Nat.succ_mul _ _).symm
      _ ≤ 256 * 256 ^ b.length := Nat.mul_le_mul_right _ hx
      _ = 256 ^ (x :: b).length := by rw [List.length_cons, Nat.pow_succ']

/-- **A number in `k` octets**, the highest one first. -/
def toOctets : ℕ → ℕ → List Octet
  | 0, _ => []
  | k + 1, n => BitVec.ofNat 8 (n >>> (8 * k)) :: toOctets k n

@[simp] theorem length_toOctets (k n : ℕ) : (toOctets k n).length = k := by
  induction k with
  | zero => rfl
  | succ k ih => rw [toOctets, List.length_cons, ih]

/-- `k` octets keep a number up to multiples of `256 ^ k`. -/
theorem ofOctets_toOctets (k n : ℕ) : ofOctets (toOctets k n) = n % 256 ^ k := by
  induction k with
  | zero => rw [Nat.pow_zero, Nat.mod_one]; rfl
  | succ k ih =>
    have hpow : 2 ^ (8 * k) = 256 ^ k := Nat.pow_mul 2 8 k
    have hfirst : (BitVec.ofNat 8 (n >>> (8 * k))).toNat
        = n / 256 ^ k % 256 := by
      rw [BitVec.toNat_ofNat, Nat.shiftRight_eq_div_pow, hpow]
    rw [toOctets, ofOctets_cons, ih, length_toOctets, hfirst, Nat.pow_succ,
      @Nat.mod_mul (256 ^ k) 256 n, Nat.mul_comm, Nat.add_comm]

/-- **A length in the long form**, with `k` octets behind the first. -/
theorem readLength_long {k n : ℕ} (hk : 0 < k) (hk' : k < 128)
    (hn : n < 256 ^ k) (rest : List Octet) :
    readLength (BitVec.ofNat 8 (128 + k) :: (toOctets k n ++ rest))
      = some (n, rest) := by
  have hfirst : (BitVec.ofNat 8 (128 + k)).toNat = 128 + k := by
    rw [BitVec.toNat_ofNat]
    omega
  refine readLength_eq_some_iff.mpr (.inr ?_)
  rw [hfirst, Nat.add_sub_cancel_left]
  refine ⟨by omega, ?_, ?_, ?_⟩
  · rw [List.length_append, length_toOctets]
    exact Nat.le_add_right _ _
  · rw [List.take_left' (length_toOctets k n), ofOctets_toOctets,
      Nat.mod_eq_of_lt hn]
  · rw [List.drop_left' (length_toOctets k n)]

/-- **How many octets a length needs**: one for a length below 128, and
otherwise one more than it has in base 256. -/
theorem readLength_length {b : List Octet} {n : ℕ}
    (h : readLength b = some (n, [])) :
    b.length = 1 ∧ n < 128 ∨ ∃ k, b.length = k + 1 ∧ n < 256 ^ k := by
  cases b with
  | nil => exact absurd h nofun
  | cons x b =>
    rcases readLength_eq_some_iff.mp h with
      ⟨hshort, hn, hrest⟩ | ⟨-, -, hn, hrest⟩
    · rw [hn, ← hrest]
      exact .inl ⟨rfl, hshort⟩
    · rw [hn, List.take_of_length_le (List.drop_eq_nil_iff.mp hrest.symm)]
      exact .inr ⟨b.length, rfl, ofOctets_lt b⟩

/-! ## Elements -/

/-- **An element**: a tag and a value. -/
structure Tlv where
  tag : Octet
  value : List Octet
  deriving DecidableEq, Repr

/-- The number of the tag. -/
def Tlv.number (t : Tlv) : ℕ := (t.tag &&& 0x1F#8).toNat

/-- The tag is of the context-specific class. -/
def Tlv.IsContext (t : Tlv) : Prop := t.tag >>> 6 = 2

/-- The value is made of elements. -/
def Tlv.IsConstructed (t : Tlv) : Prop := t.tag.getLsbD 5 = true

instance (t : Tlv) : Decidable t.IsContext :=
  inferInstanceAs (Decidable (_ = _))

instance (t : Tlv) : Decidable t.IsConstructed :=
  inferInstanceAs (Decidable (_ = _))

/-- **An element from the front of some octets**, and what is behind it. The
number 31 announces a tag of several octets. -/
def readTlv : List Octet → Option (Tlv × List Octet)
  | [] => none
  | tag :: rest =>
    if tag &&& 0x1F#8 = 0x1F#8 then
      none
    else
      match readLength rest with
      | none => none
      | some (n, rest) =>
        if rest.length < n then none else some (⟨tag, rest.take n⟩, rest.drop n)

/-- What is read behind a tag. -/
theorem readTlv_eq_some_iff {x : Octet} {b rest : List Octet} {t : Tlv} :
    readTlv (x :: b) = some (t, rest)
      ↔ x &&& 0x1F#8 ≠ 0x1F#8 ∧ ∃ n body, readLength b = some (n, body)
        ∧ n ≤ body.length ∧ t = ⟨x, body.take n⟩ ∧ rest = body.drop n := by
  rw [readTlv]
  constructor
  · intro h
    by_cases htag : x &&& 0x1F#8 = 0x1F#8
    · rw [if_pos htag] at h
      cases h
    rw [if_neg htag] at h
    cases hlen : readLength b with
    | none =>
      rw [hlen] at h
      cases h
    | some r =>
      obtain ⟨n, body⟩ := r
      simp only [hlen] at h
      by_cases hn : body.length < n
      · rw [if_pos hn] at h
        cases h
      · rw [if_neg hn, Option.some.injEq, Prod.mk.injEq] at h
        exact ⟨htag, n, body, rfl, by omega, h.1.symm, h.2.symm⟩
  · rintro ⟨htag, n, body, hlen, hn, rfl, rfl⟩
    simp only [if_neg htag, hlen, if_neg (Nat.not_lt.mpr hn)]

/-- **An element that is all of some octets.** -/
def Tlv.Spans (t : Tlv) (b : List Octet) : Prop := readTlv b = some (t, [])

instance (t : Tlv) (b : List Octet) : Decidable (t.Spans b) :=
  inferInstanceAs (Decidable (_ = _))

/-- The element that is all of the value. -/
def Tlv.inner (t : Tlv) : Option Tlv :=
  match readTlv t.value with
  | some (u, []) => some u
  | _ => none

theorem Tlv.inner_eq_some {t u : Tlv} (h : u.Spans t.value) :
    t.inner = some u := by
  rw [Tlv.inner, show readTlv t.value = some (u, []) from h]

/-- **The short form of an element**, with its length in one octet. -/
def Tlv.short (t : Tlv) : List Octet :=
  t.tag :: BitVec.ofNat 8 t.value.length :: t.value

/-- An element that has a short form. -/
structure Tlv.IsShort (t : Tlv) : Prop where
  tag : t.tag &&& 0x1F#8 ≠ 0x1F#8
  length : t.value.length < 128

/-- **The short form is read back**, whatever stands behind it. -/
theorem Tlv.IsShort.readTlv_append {t : Tlv} (h : t.IsShort)
    (rest : List Octet) : readTlv (t.short ++ rest) = some (t, rest) := by
  rw [Tlv.short, List.cons_append, List.cons_append, readTlv_eq_some_iff]
  refine ⟨h.tag, t.value.length, t.value ++ rest,
    readLength_short h.length _, ?_, ?_, ?_⟩
  · rw [List.length_append]
    exact Nat.le_add_right _ _
  · rw [List.take_left]
  · rw [List.drop_left]

theorem Tlv.IsShort.spans {t : Tlv} (h : t.IsShort) : t.Spans t.short := by
  have := h.readTlv_append []
  rwa [List.append_nil] at this

theorem Tlv.length_short (t : Tlv) : t.short.length = t.value.length + 2 := rfl

/-- **What a length narrowed to an octet is read as**: the length itself, if
it is below 128; otherwise the octet says how many octets of the value are
taken for the length. -/
theorem Tlv.Spans.of_short {t u : Tlv} (h : u.Spans t.short) :
    (t.value.length < 128 ∧ u = t)
      ∨ ∃ k, 0 < k ∧ t.value.length % 256 = 128 + k
        ∧ t.value.length = k + ofOctets (t.value.take k)
        ∧ u = ⟨t.tag, t.value.drop k⟩ := by
  have hlen : (BitVec.ofNat 8 t.value.length).toNat = t.value.length % 256 :=
    BitVec.toNat_ofNat _ _
  obtain ⟨-, n, body, hread, hn, rfl, hrest⟩ := readTlv_eq_some_iff.mp h
  rw [eq_comm, List.drop_eq_nil_iff] at hrest
  rw [List.take_of_length_le hrest]
  rw [readLength_eq_some_iff, hlen] at hread
  rcases hread with ⟨hshort, hlength, hbody⟩ | ⟨hlong, hk, hlength, hbody⟩
  · rw [hbody] at hrest ⊢
    exact .inl ⟨by omega, rfl⟩
  · rw [hbody, List.length_drop] at hn hrest
    rw [hbody]
    exact .inr ⟨t.value.length % 256 - 128, by omega, by omega, by omega, rfl⟩

/-! ## Sequences -/

/-- **Octets that are a sequence of elements.** -/
def IsSequence : List Tlv → List Octet → Prop
  | [], b => b = []
  | t :: ts, b => ∃ rest, readTlv b = some (t, rest) ∧ IsSequence ts rest

/-- **Octets are a sequence in one way only.** -/
theorem IsSequence.unique {ts us : List Tlv} {b : List Octet}
    (h : IsSequence ts b) (h' : IsSequence us b) : ts = us := by
  induction ts generalizing us b with
  | nil =>
    obtain rfl : b = [] := h
    cases us with
    | nil => rfl
    | cons u us =>
      obtain ⟨rest, hread, -⟩ := h'
      exact absurd hread nofun
  | cons t ts ih =>
    obtain ⟨rest, hread, hrest⟩ := h
    cases us with
    | nil =>
      obtain rfl : b = [] := h'
      exact absurd hread nofun
    | cons u us =>
      obtain ⟨rest', hread', hrest'⟩ := h'
      rw [hread, Option.some.injEq, Prod.mk.injEq] at hread'
      obtain ⟨rfl, rfl⟩ := hread'
      rw [ih hrest hrest']

/-- Elements in the short form, one behind the other. -/
def shorts (ts : List Tlv) : List Octet := ts.flatMap Tlv.short

@[simp] theorem shorts_nil : shorts [] = [] := rfl

@[simp] theorem shorts_cons (t : Tlv) (ts : List Tlv) :
    shorts (t :: ts) = t.short ++ shorts ts := List.flatMap_cons

@[simp] theorem shorts_append (ts us : List Tlv) :
    shorts (ts ++ us) = shorts ts ++ shorts us := List.flatMap_append

/-- **Short forms in front of a sequence** make a longer one. -/
theorem isSequence_short_append {ts us : List Tlv} {b : List Octet}
    (hshort : ∀ t ∈ ts, t.IsShort) (h : IsSequence us b) :
    IsSequence (ts ++ us) (shorts ts ++ b) := by
  induction ts with
  | nil => exact h
  | cons t ts ih =>
    refine ⟨shorts ts ++ b, ?_, ih fun t ht =>
      hshort t (List.mem_cons_of_mem _ ht)⟩
    rw [shorts_cons, List.append_assoc]
    exact (hshort t List.mem_cons_self).readTlv_append _

theorem isSequence_short {ts : List Tlv} (hshort : ∀ t ∈ ts, t.IsShort) :
    IsSequence ts (shorts ts) := by
  have happend := isSequence_short_append hshort
    (show IsSequence [] [] from rfl)
  rwa [List.append_nil, List.append_nil] at happend

/-- **What is read from short forms starts with their elements.** -/
theorem IsSequence.of_short_append {ts us : List Tlv} {b : List Octet}
    (hshort : ∀ t ∈ us, t.IsShort) (h : IsSequence ts (shorts us ++ b)) :
    ∃ rest, ts = us ++ rest ∧ IsSequence rest b := by
  induction us generalizing ts with
  | nil => exact ⟨ts, rfl, h⟩
  | cons u us ih =>
    have hread := (hshort u List.mem_cons_self).readTlv_append (shorts us ++ b)
    rw [shorts_cons, List.append_assoc] at h
    cases ts with
    | nil => exact absurd h (List.cons_ne_nil _ _)
    | cons t ts =>
      obtain ⟨tail, hread', htail⟩ := h
      rw [hread, Option.some.injEq, Prod.mk.injEq] at hread'
      obtain ⟨rfl, rfl⟩ := hread'
      obtain ⟨rest, rfl, hrest⟩ :=
        ih (fun t ht => hshort t (List.mem_cons_of_mem _ ht)) htail
      exact ⟨rest, rfl, hrest⟩

/-- **A well-formed sequence of components**: context-specific tags with
numbers that go up, and in each constructed component just one element. -/
structure Components (ts : List Tlv) : Prop where
  context : ∀ t ∈ ts, t.IsContext
  increasing : ts.Pairwise fun t u => t.number < u.number
  explicit : ∀ t ∈ ts, t.IsConstructed → ∃ u : Tlv, u.Spans t.value

/-- The component with a given number. -/
def component (ts : List Tlv) (n : ℕ) : Option Tlv :=
  ts.find? fun t => t.number = n

/-- The value of the element inside the component with a given number. -/
def explicitValue (ts : List Tlv) (n : ℕ) : Option (List Octet) := do
  let t ← component ts n
  let u ← t.inner
  return u.value

theorem explicitValue_eq {ts : List Tlv} {n : ℕ} {t u : Tlv}
    (ht : component ts n = some t) (hu : u.Spans t.value) :
    explicitValue ts n = some u.value := by
  rw [explicitValue, ht]
  change (t.inner >>= _) = _
  rw [Tlv.inner_eq_some hu]
  rfl

theorem length_short_le_shorts {ts : List Tlv} {t : Tlv} (h : t ∈ ts) :
    t.value.length + 2 ≤ (shorts ts).length := by
  rw [← Tlv.length_short]
  exact (List.sublist_flatten_of_mem (List.mem_map_of_mem h)).length_le

end Ber
