import Mathlib.Algebra.CharP.Two
import Mathlib.GroupTheory.OrderOfElement
import Mathlib.RingTheory.AdjoinRoot
import Yadi.PolyCode

/-!
# Cyclic redundancy checks as shift registers

A reflected CRC of width `w` keeps a register of `w` bits, takes in a
message one bit at a time, least significant bit of each symbol first, and
shifts the register right. The feedback word `p` holds the generator with
its coefficients reversed and its leading one left out.

The register is arithmetic modulo the generator. `CrcRegister.toPoly` reads
a register as the polynomial whose coefficient of `X ^ j` is the `j`-th most
significant bit, and `CrcRegister.residue` is its class modulo
`CrcRegister.generator p`. One shift multiplies the class by `X`
(`residue_shift`) and a whole message is a Horner scheme (`residue_feed`),
so two messages of one length leave the same register exactly when the
generator divides the polynomial of the positions where they differ
(`generator_dvd_of_feed_eq`). That is where `PolyCode` applies.

Two computations are derived from the same reading: the byte-at-a-time step
that looks the low bits up in a table (`feed_symbolBits`), and powers of `X`
by squaring (`powX`), which decide the order of a concrete generator.
-/

open Polynomial

namespace CrcRegister

variable {w : ℕ}

/-- **One shift of the register**: right by one place, with the feedback
word added when the bit that falls out is one. -/
def shift (p r : BitVec w) : BitVec w :=
  if r.getLsbD 0 then (r >>> 1) ^^^ p else r >>> 1

/-- Take in one message bit: it is added to the lowest place before the
shift. -/
def feedBit (p r : BitVec w) (b : Bool) : BitVec w :=
  shift p (r ^^^ (BitVec.ofBool b).setWidth w)

/-- Take in a message, first bit first. -/
def feed (p r : BitVec w) (bits : List Bool) : BitVec w :=
  bits.foldl (feedBit p) r

@[simp] theorem feed_nil (p r : BitVec w) : feed p r [] = r := rfl

@[simp] theorem feed_cons (p r : BitVec w) (b : Bool) (bits : List Bool) :
    feed p r (b :: bits) = feed p (feedBit p r b) bits := rfl

theorem feed_append (p r : BitVec w) (bits bits' : List Bool) :
    feed p r (bits ++ bits') = feed p (feed p r bits) bits' :=
  List.foldl_append

/-! ## A register is a polynomial -/

/-- The exponents a register holds: `j` for its `j`-th most significant
bit. -/
def support (r : BitVec w) : Finset ℕ :=
  (Finset.range w).filter (fun j => r.getMsbD j = true)

/-- **The polynomial a register holds.** -/
noncomputable def toPoly (r : BitVec w) : (ZMod 2)[X] :=
  PolyCode.ofSupport (support r)

theorem mem_support (r : BitVec w) (j : ℕ) :
    j ∈ support r ↔ r.getMsbD j = true := by
  rw [support, Finset.mem_filter, Finset.mem_range]
  exact ⟨And.right, fun h => ⟨BitVec.lt_of_getMsbD h, h⟩⟩

theorem coeff_toPoly (r : BitVec w) (j : ℕ) :
    (toPoly r).coeff j = if r.getMsbD j then 1 else 0 := by
  rw [toPoly, PolyCode.coeff_ofSupport]
  simp only [mem_support]

/-- The sum of two bits is their exclusive or. -/
theorem ite_xor (a b : Bool) : (if (a ^^ b) = true then (1 : ZMod 2) else 0)
    = (if a = true then 1 else 0) + (if b = true then 1 else 0) := by
  cases a <;> cases b <;> decide

theorem toPoly_xor (r s : BitVec w) : toPoly (r ^^^ s) = toPoly r + toPoly s := by
  ext j
  rw [coeff_add, coeff_toPoly, coeff_toPoly, coeff_toPoly, BitVec.getMsbD_xor,
    ite_xor]

/-- A register holds a polynomial of degree below its width. -/
theorem degree_toPoly_lt (r : BitVec w) : (toPoly r).degree < w := by
  refine PolyCode.degree_ofSupport_lt (fun j hj => ?_)
  exact BitVec.lt_of_getMsbD ((mem_support r j).mp hj)

theorem toPoly_injective : Function.Injective (toPoly (w := w)) := by
  intro r s h
  refine BitVec.eq_of_getMsbD_eq (fun j _ => ?_)
  have hc := congrArg (fun f => coeff f j) h
  simp only [coeff_toPoly] at hc
  cases hr : r.getMsbD j <;> cases hs : s.getMsbD j <;> simp_all

/-- **The generator**: the feedback word with its leading one. -/
noncomputable def generator (p : BitVec w) : (ZMod 2)[X] := X ^ w + toPoly p

theorem degree_generator (p : BitVec w) : (generator p).degree = w := by
  rw [generator, degree_add_eq_left_of_degree_lt, degree_X_pow]
  rw [degree_X_pow]
  exact degree_toPoly_lt p

/-- **A shift multiplies by `X`, less the generator when a one falls out.**
-/
theorem X_mul_toPoly (p r : BitVec w) :
    X * toPoly r
      = toPoly (shift p r) + if r.getLsbD 0 then generator p else 0 := by
  have hright : X * toPoly r
      = toPoly (r >>> 1) + if r.getLsbD 0 then X ^ w else 0 := by
    ext j
    have hlsb : r.getLsbD 0 = true → 0 < w := BitVec.lt_of_getLsbD
    rw [coeff_add, coeff_toPoly, BitVec.getMsbD_ushiftRight]
    cases j with
    | zero =>
      rw [mul_coeff_zero, coeff_X_zero, zero_mul]
      cases h : r.getLsbD 0 with
      | false => simp
      | true => simp [coeff_X_pow, (hlsb h).ne]
    | succ j =>
      rw [coeff_X_mul, coeff_toPoly]
      rcases Nat.lt_trichotomy (j + 1) w with hj | hj | hj
      · cases h : r.getLsbD 0 <;> simp [coeff_X_pow, hj, hj.ne]
      · have hlast : r.getMsbD j = r.getLsbD 0 := by
          rw [BitVec.getMsbD, show w - 1 - j = 0 by omega]
          simp [show j < w by omega]
        cases h : r.getLsbD 0 <;> simp [coeff_X_pow, hj, hlast, h]
      · have hout : r.getMsbD j = false := BitVec.getMsbD_of_ge _ _ (by omega)
        cases h : r.getLsbD 0 <;>
          simp [coeff_X_pow, hj.ne', hout, show ¬ j + 1 < w by omega]
  rw [hright, shift]
  cases h : r.getLsbD 0 with
  | false => simp
  | true =>
    simp only [if_true, toPoly_xor, generator]
    rw [add_assoc, add_comm (X ^ w) (toPoly p), ← add_assoc (toPoly p),
      CharTwo.add_self_eq_zero, zero_add]

/-! ## The register modulo the generator -/

/-- **The class of a register modulo the generator.** -/
noncomputable def residue (p r : BitVec w) : AdjoinRoot (generator p) :=
  AdjoinRoot.mk (generator p) (toPoly r)

theorem residue_xor (p r s : BitVec w) :
    residue p (r ^^^ s) = residue p r + residue p s := by
  rw [residue, toPoly_xor, map_add]
  rfl

/-- **One shift multiplies by the root.** -/
theorem residue_shift (p r : BitVec w) :
    residue p (shift p r) = AdjoinRoot.root (generator p) * residue p r := by
  rw [residue, residue, ← AdjoinRoot.mk_X, ← map_mul, X_mul_toPoly p r, map_add]
  cases r.getLsbD 0 with
  | false => simp
  | true => simp [AdjoinRoot.mk_self]

theorem residue_iterate_shift (p r : BitVec w) (n : ℕ) :
    residue p ((shift p)^[n] r)
      = AdjoinRoot.root (generator p) ^ n * residue p r := by
  induction n with
  | zero => rw [Function.iterate_zero, id, pow_zero, one_mul]
  | succ n ih =>
    rw [Function.iterate_succ_apply', residue_shift, ih, pow_succ', mul_assoc]

/-- **The class determines the register**, both being below the degree of
the generator. -/
theorem residue_injective (p : BitVec w) : Function.Injective (residue p) := by
  intro r s h
  have hdvd : generator p ∣ toPoly r - toPoly s := AdjoinRoot.mk_eq_mk.mp h
  refine toPoly_injective (sub_eq_zero.mp
    (eq_zero_of_dvd_of_degree_lt hdvd ?_))
  rw [degree_generator]
  exact (degree_sub_le _ _).trans_lt
    (max_lt (degree_toPoly_lt r) (degree_toPoly_lt s))

/-! ## A message modulo the generator -/

/-- **The polynomial of a message**, its first bit the leading coefficient,
by Horner's rule. -/
noncomputable def messagePoly (bits : List Bool) : (ZMod 2)[X] :=
  bits.foldl (fun f b => X * f + if b then 1 else 0) 0

theorem messagePoly_concat (bits : List Bool) (b : Bool) :
    messagePoly (bits ++ [b]) = X * messagePoly bits + if b then 1 else 0 := by
  rw [messagePoly, List.foldl_append]
  rfl

theorem coeff_messagePoly (bits : List Bool) (k : ℕ) :
    (messagePoly bits).coeff k
      = if bits.reverse[k]? = some true then 1 else 0 := by
  induction bits using List.reverseRecOn generalizing k with
  | nil => simp [messagePoly]
  | append_singleton bits b ih =>
    rw [messagePoly_concat, List.reverse_append, coeff_add]
    cases k with
    | zero => cases b <;> simp
    | succ k =>
      rw [coeff_X_mul, ih]
      cases b <;> simp [coeff_one]

/-- The lowest place of the register is the coefficient of `X ^ (w - 1)`. -/
theorem residue_ofBool (hw : 0 < w) (p : BitVec w) (b : Bool) :
    AdjoinRoot.root (generator p) * residue p ((BitVec.ofBool b).setWidth w)
      = AdjoinRoot.root (generator p) ^ w * if b then 1 else 0 := by
  have hpoly : toPoly ((BitVec.ofBool b).setWidth w)
      = X ^ (w - 1) * if b then 1 else 0 := by
    ext j
    rw [coeff_toPoly, BitVec.getMsbD, BitVec.getLsbD_setWidth]
    cases b with
    | false => simp
    | true =>
      simp only [if_true, mul_one, coeff_X_pow, BitVec.getLsbD_ofBool]
      by_cases hj : j = w - 1
      · simp [hj, hw]
      · simp only [hj, if_false]
        rw [if_neg]
        simp only [Bool.and_eq_true, decide_eq_true_eq, not_and]
        omega
  rw [residue, hpoly, map_mul, map_pow, AdjoinRoot.mk_X, ← mul_assoc,
    ← pow_succ', Nat.sub_add_cancel hw]
  cases b <;> simp

theorem residue_feedBit (hw : 0 < w) (p r : BitVec w) (b : Bool) :
    residue p (feedBit p r b)
      = AdjoinRoot.root (generator p) * residue p r
        + AdjoinRoot.root (generator p) ^ w * if b then 1 else 0 := by
  rw [feedBit, residue_shift, residue_xor, mul_add, residue_ofBool hw]

/-- **A message is taken in as a Horner scheme**: the register is multiplied
by `X` once per bit, and the message, moved up by the width, is added. -/
theorem residue_feed (hw : 0 < w) (p r : BitVec w) (bits : List Bool) :
    residue p (feed p r bits)
      = AdjoinRoot.root (generator p) ^ bits.length * residue p r
        + AdjoinRoot.root (generator p) ^ w
          * AdjoinRoot.mk (generator p) (messagePoly bits) := by
  induction bits using List.reverseRecOn with
  | nil => simp [messagePoly]
  | append_singleton bits b ih =>
    rw [feed_append, feed_cons, feed_nil, residue_feedBit hw, ih,
      messagePoly_concat, map_add, map_mul, AdjoinRoot.mk_X,
      List.length_append, List.length_singleton, pow_succ']
    cases b <;> simp <;> ring

/-! ## Errors the register detects -/

/-- The positions where two messages of one length differ. -/
def differ (l l' : List Bool) : Finset ℕ :=
  (Finset.range l.length).filter (fun i => l[i]? ≠ l'[i]?)

theorem mem_differ {l l' : List Bool} {i : ℕ} :
    i ∈ differ l l' ↔ i < l.length ∧ l[i]? ≠ l'[i]? := by
  rw [differ, Finset.mem_filter, Finset.mem_range]

/-- What two messages share at their front does not count as a
difference. -/
theorem differ_append_left (l m m' : List Bool) :
    differ (l ++ m) (l ++ m') = (differ m m').image (l.length + ·) := by
  ext i
  simp only [mem_differ, List.length_append, Finset.mem_image]
  constructor
  · rintro ⟨hi, hne⟩
    have hli : l.length ≤ i := by
      by_contra hlt
      rw [List.getElem?_append_left (by omega),
        List.getElem?_append_left (by omega)] at hne
      exact hne rfl
    rw [List.getElem?_append_right hli, List.getElem?_append_right hli] at hne
    exact ⟨i - l.length, ⟨by omega, hne⟩, by omega⟩
  · rintro ⟨j, ⟨hj, hne⟩, rfl⟩
    rw [List.getElem?_append_right (by omega),
      List.getElem?_append_right (by omega), Nat.add_sub_cancel_left]
    exact ⟨by omega, hne⟩

/-- Nor does what they share at their end. -/
theorem differ_append_right {l l' : List Bool} (hlen : l.length = l'.length)
    (m : List Bool) : differ (l ++ m) (l' ++ m) = differ l l' := by
  ext i
  rw [mem_differ, mem_differ, List.length_append]
  by_cases hi : i < l.length
  · rw [List.getElem?_append_left hi, List.getElem?_append_left (by omega)]
    exact and_congr_left' ⟨fun _ => hi, fun _ => by omega⟩
  · rw [List.getElem?_append_right (by omega),
      List.getElem?_append_right (by omega), ← hlen]
    exact ⟨fun h => absurd rfl h.2, fun h => absurd h.1 hi⟩

/-- Two messages add up to the polynomial of the positions where they
differ, counted from the end. -/
theorem messagePoly_add {l l' : List Bool} (hlen : l.length = l'.length) :
    messagePoly l + messagePoly l'
      = PolyCode.ofSupport (differ l.reverse l'.reverse) := by
  refine PolyCode.eq_ofSupport (fun k => ?_)
  rw [coeff_add, coeff_messagePoly, coeff_messagePoly]
  simp only [mem_differ, List.length_reverse]
  by_cases hk : k < l.length
  · obtain ⟨a, ha⟩ : ∃ a, l.reverse[k]? = some a :=
      ⟨_, List.getElem?_eq_getElem (by simpa using hk)⟩
    obtain ⟨b, hb⟩ : ∃ b, l'.reverse[k]? = some b :=
      ⟨_, List.getElem?_eq_getElem (by simpa [← hlen] using hk)⟩
    rw [ha, hb]
    cases a <;> cases b <;> simp [hk, CharTwo.add_self_eq_zero]
  · rw [List.getElem?_eq_none (by simpa using hk),
      List.getElem?_eq_none (by simpa [← hlen] using hk)]
    simp [hk]

/-- **Two messages of one length leave the same register only if the
generator divides the polynomial of the positions where they differ.** -/
theorem generator_dvd_of_feed_eq (hw : 0 < w) {p : BitVec w}
    (hp : (generator p).coeff 0 = 1) (r : BitVec w) {l l' : List Bool}
    (hlen : l.length = l'.length) (h : feed p r l = feed p r l') :
    generator p ∣ PolyCode.ofSupport (differ l.reverse l'.reverse) := by
  -- the start of the register cancels, and the shift by the width is a unit
  have hres := congrArg (residue p) h
  rw [residue_feed hw, residue_feed hw, hlen] at hres
  have hmk := add_left_cancel hres
  rw [← sub_eq_zero, ← mul_sub, ← map_sub, ← AdjoinRoot.mk_X, ← map_pow,
    ← map_mul, AdjoinRoot.mk_eq_zero, CharTwo.sub_eq_add,
    messagePoly_add hlen] at hmk
  exact PolyCode.dvd_of_dvd_X_pow_mul hp w hmk

/-- Counting positions from the end turns the set of differences over. -/
theorem differ_reverse {l l' : List Bool} (hlen : l.length = l'.length) :
    differ l.reverse l'.reverse
      = (differ l l').image (fun i => l.length - 1 - i) := by
  ext k
  simp only [mem_differ, List.length_reverse, Finset.mem_image]
  constructor
  · rintro ⟨hk, hne⟩
    rw [List.getElem?_reverse hk, List.getElem?_reverse (by omega), ← hlen]
      at hne
    exact ⟨l.length - 1 - k, ⟨by omega, hne⟩, by omega⟩
  · rintro ⟨i, ⟨hi, hne⟩, rfl⟩
    refine ⟨by omega, ?_⟩
    rw [List.getElem?_reverse (by omega), List.getElem?_reverse (by omega),
      ← hlen, show l.length - 1 - (l.length - 1 - i) = i by omega]
    exact hne

/-- **A register detects what its generator detects**: messages that differ
in a detectable pattern never leave the same register. -/
theorem feed_ne_of_detectable {N : ℕ} (hw : 0 < w) {p : BitVec w}
    (c : PolyCode.Detecting w N) (hc : c.generator = generator p)
    (r : BitVec w) {l l' : List Bool} (hlen : l.length = l'.length)
    (hE : PolyCode.Detectable w N (differ l l')) :
    feed p r l ≠ feed p r l' := by
  intro h
  have hdvd := generator_dvd_of_feed_eq hw (hc ▸ c.coeff_zero) r hlen h
  rw [differ_reverse hlen, ← hc] at hdvd
  exact c.not_dvd (hE.reflect (fun i hi => (mem_differ.mp hi).1)) hdvd

/-! ## A symbol at a time -/

/-- **The bits of a symbol in transmission order**, least significant
first. -/
def symbolBits {k : ℕ} (x : BitVec k) : List Bool :=
  (List.range k).map x.getLsbD

@[simp] theorem length_symbolBits {k : ℕ} (x : BitVec k) :
    (symbolBits x).length = k := by
  rw [symbolBits, List.length_map, List.length_range]

theorem getElem?_symbolBits {k : ℕ} (x : BitVec k) (i : ℕ) :
    (symbolBits x)[i]? = if i < k then some (x.getLsbD i) else none := by
  rw [symbolBits, List.getElem?_map]
  split_ifs with hi
  · rw [List.getElem?_range hi, Option.map_some]
  · rw [List.getElem?_eq_none (by simpa using hi), Option.map_none]

/-- Sent as a message, a symbol is the polynomial of the register that holds
it. -/
theorem messagePoly_symbolBits {k : ℕ} (x : BitVec k) :
    messagePoly (symbolBits x) = toPoly x := by
  ext j
  rw [coeff_messagePoly, coeff_toPoly, BitVec.getMsbD]
  by_cases hj : j < k
  · have hlast : k - 1 - j < k := by omega
    rw [List.getElem?_reverse (by simpa using hj), length_symbolBits,
      getElem?_symbolBits]
    simp [hj, hlast]
  · rw [List.getElem?_eq_none (by simpa using hj)]
    simp [hj]

/-- Widening a symbol to the register leaves its polynomial in the top
places. -/
theorem X_pow_mul_toPoly_setWidth {k : ℕ} (hk : k ≤ w) (x : BitVec k) :
    X ^ k * toPoly (x.setWidth w) = X ^ w * toPoly x := by
  ext n
  rw [coeff_X_pow_mul', coeff_X_pow_mul', coeff_toPoly, coeff_toPoly,
    BitVec.getMsbD, BitVec.getLsbD_setWidth, BitVec.getMsbD]
  by_cases hkn : k ≤ n
  · by_cases hwn : w ≤ n
    · by_cases hout : n < w + k
      · rw [show w - 1 - (n - k) = k - 1 - (n - w) by omega]
        simp [hkn, hwn, show n - k < w by omega, show n - w < k by omega,
          show k - 1 - (n - w) < w by omega]
      · simp [hkn, hwn, show ¬ n - k < w by omega, show ¬ n - w < k by omega]
    · have hclear : x.getLsbD (w - 1 - (n - k)) = false :=
        BitVec.getLsbD_of_ge _ _ (by omega)
      simp [hwn, hclear]
  · simp [hkn, show ¬ w ≤ n by omega]

/-- **A symbol no wider than the register is added at once and then shifted
out.** -/
theorem feed_symbolBits {k : ℕ} (hw : 0 < w) (hk : k ≤ w) (p r : BitVec w)
    (x : BitVec k) :
    feed p r (symbolBits x) = (shift p)^[k] (r ^^^ x.setWidth w) := by
  apply residue_injective p
  -- the class of the widened symbol, shifted out, is that of the message
  have hx : AdjoinRoot.root (generator p) ^ k * residue p (x.setWidth w)
      = AdjoinRoot.root (generator p) ^ w
        * AdjoinRoot.mk (generator p) (messagePoly (symbolBits x)) := by
    rw [messagePoly_symbolBits, residue, ← AdjoinRoot.mk_X, ← map_pow,
      ← map_pow, ← map_mul, ← map_mul, X_pow_mul_toPoly_setWidth hk]
  rw [residue_feed hw, residue_iterate_shift, residue_xor, mul_add, hx,
    length_symbolBits]

theorem iterate_shift_xor (p r s : BitVec w) (n : ℕ) :
    (shift p)^[n] (r ^^^ s) = (shift p)^[n] r ^^^ (shift p)^[n] s := by
  apply residue_injective p
  rw [residue_iterate_shift, residue_xor, residue_xor, residue_iterate_shift,
    residue_iterate_shift, mul_add]

/-- While the bits that fall out are zero the register only moves. -/
theorem iterate_shift_of_low_clear (p r : BitVec w) {n : ℕ}
    (h : ∀ i < n, r.getLsbD i = false) : (shift p)^[n] r = r >>> n := by
  induction n with
  | zero => rw [Function.iterate_zero, id, BitVec.ushiftRight_zero]
  | succ n ih =>
    have hlsb : (r >>> n).getLsbD 0 = false := by
      rw [BitVec.getLsbD_ushiftRight]
      exact h n (by omega)
    rw [Function.iterate_succ_apply', ih (fun i hi => h i (by omega)), shift,
      hlsb, BitVec.shiftRight_add]
    rfl

/-- The bits of a register below and above place `k`. -/
theorem xor_split (r : BitVec w) (k : ℕ) :
    r = (r &&& (BitVec.allOnes k).setWidth w) ^^^ ((r >>> k) <<< k) := by
  refine BitVec.eq_of_getLsbD_eq (fun i hi => ?_)
  rw [BitVec.getLsbD_xor, BitVec.getLsbD_and, BitVec.getLsbD_setWidth,
    BitVec.getLsbD_shiftLeft, BitVec.getLsbD_ushiftRight,
    BitVec.getLsbD_allOnes]
  by_cases hik : i < k
  · simp [hi, hik]
  · simp [hi, hik, show k + (i - k) = i by omega]

/-- **The table-driven step.** A symbol is taken in by moving the register
down and adding the `k`-fold shift of its low places, which depends on those
places alone. -/
theorem feed_symbolBits_table {k : ℕ} (hw : 0 < w) (hk : k ≤ w)
    (p r : BitVec w) (x : BitVec k) :
    feed p r (symbolBits x)
      = (r >>> k) ^^^ (shift p)^[k]
          ((r ^^^ x.setWidth w) &&& (BitVec.allOnes k).setWidth w) := by
  have hhigh : (r ^^^ x.setWidth w) >>> k = r >>> k := by
    refine BitVec.eq_of_getLsbD_eq (fun i _ => ?_)
    simp only [BitVec.getLsbD_ushiftRight, BitVec.getLsbD_xor,
      BitVec.getLsbD_setWidth, BitVec.getLsbD_of_ge x (k + i) (by omega),
      Bool.and_false, Bool.xor_false]
  have hback : ((r >>> k) <<< k) >>> k = r >>> k := by
    refine BitVec.eq_of_getLsbD_eq (fun i _ => ?_)
    simp only [BitVec.getLsbD_ushiftRight, BitVec.getLsbD_shiftLeft]
    by_cases hki : k + i < w
    · simp [hki]
    · simp [hki, BitVec.getLsbD_of_ge r (k + i) (by omega)]
  have hclear : ∀ i < k, ((r >>> k) <<< k).getLsbD i = false := by
    intro i hi
    simp [BitVec.getLsbD_shiftLeft, hi]
  rw [feed_symbolBits hw hk]
  -- the places above the symbol only move down, those below feed back
  conv_lhs => rw [xor_split (r ^^^ x.setWidth w) k]
  rw [iterate_shift_xor, hhigh, iterate_shift_of_low_clear p _ hclear, hback,
    BitVec.xor_comm]

/-! ## Strings of symbols -/

/-- **The bits of a string of symbols in transmission order.** -/
def stringBits {k : ℕ} (xs : List (BitVec k)) : List Bool :=
  xs.flatMap symbolBits

theorem stringBits_append {k : ℕ} (xs ys : List (BitVec k)) :
    stringBits (xs ++ ys) = stringBits xs ++ stringBits ys :=
  List.flatMap_append

@[simp] theorem length_stringBits {k : ℕ} (xs : List (BitVec k)) :
    (stringBits xs).length = k * xs.length := by
  induction xs with
  | nil => rfl
  | cons x xs ih =>
    rw [stringBits, List.flatMap_cons, List.length_append, length_symbolBits,
      List.length_cons, Nat.mul_succ, Nat.add_comm, ← ih]
    rfl

/-- Bit `i` of a string is bit `i % k` of symbol `i / k`. -/
theorem getElem?_stringBits {k : ℕ} (hk : 0 < k) (xs : List (BitVec k))
    (i : ℕ) :
    (stringBits xs)[i]? = xs[i / k]?.map (fun x => x.getLsbD (i % k)) := by
  induction xs generalizing i with
  | nil => simp [stringBits]
  | cons x xs ih =>
    rw [stringBits, List.flatMap_cons]
    by_cases hi : i < k
    · rw [List.getElem?_append_left (by simpa using hi), getElem?_symbolBits,
        if_pos hi, Nat.div_eq_of_lt hi, Nat.mod_eq_of_lt hi]
      rfl
    · have hdiv : i / k = (i - k) / k + 1 := by
        rw [← Nat.add_div_right _ hk, Nat.sub_add_cancel (by omega)]
      have hmod : i % k = (i - k) % k := by
        rw [← Nat.mod_eq_sub_mod (by omega)]
      rw [List.getElem?_append_right (by simpa using hi), length_symbolBits,
        hdiv, hmod, List.getElem?_cons_succ]
      exact ih (i - k)

/-- Two symbols sent one after the other are one symbol with the first in
its low places. -/
theorem symbolBits_append {a b : ℕ} (hi : BitVec a) (lo : BitVec b) :
    symbolBits (hi ++ lo) = symbolBits lo ++ symbolBits hi := by
  refine List.ext_getElem? (fun i => ?_)
  rw [getElem?_symbolBits, BitVec.getLsbD_append]
  by_cases hb : i < b
  · rw [List.getElem?_append_left (by simpa using hb), getElem?_symbolBits]
    simp [hb, show i < a + b by omega]
  · rw [List.getElem?_append_right (by simpa using hb), getElem?_symbolBits,
      length_symbolBits]
    by_cases ha : i < a + b
    · simp [hb, ha, show i - b < a by omega]
    · simp [ha, show ¬ i - b < a by omega]

/-! ## Powers of `X` by squaring

Whether a power of `X` is one modulo a concrete generator is decided on
registers: `mul` is the product of two registers by Horner's rule over the
places of the second, and `powX` squares and shifts along the bits of the
exponent. -/

/-- The register of the constant one. -/
def one (w : ℕ) : BitVec w := BitVec.twoPow w (w - 1)

/-- The product of `a` with the lowest `n` places of `b`. -/
def mulUpTo (p a b : BitVec w) : ℕ → BitVec w
  | 0 => 0
  | n + 1 => shift p (mulUpTo p a b n) ^^^ (if b.getLsbD n then a else 0)

/-- The product of two registers. -/
def mul (p a b : BitVec w) : BitVec w := mulUpTo p a b w

/-- The exponent a list of bits stands for, lowest bit first. -/
def exponent : List Bool → ℕ
  | [] => 0
  | b :: bs => b.toNat + 2 * exponent bs

/-- The power of `X` with a given exponent. -/
def powX (p : BitVec w) : List Bool → BitVec w
  | [] => one w
  | b :: bs =>
    let square := mul p (powX p bs) (powX p bs)
    if b then shift p square else square

theorem residue_zero (p : BitVec w) : residue p 0#w = 0 := by
  have h := residue_xor p 0#w 0#w
  rwa [BitVec.xor_self, left_eq_add] at h

theorem residue_one (hw : 0 < w) (p : BitVec w) : residue p (one w) = 1 := by
  have hpoly : toPoly (one w) = 1 := by
    ext j
    rw [coeff_toPoly, one, BitVec.getMsbD, BitVec.getLsbD_twoPow, coeff_one]
    by_cases hj : j = 0
    · simp [hj, hw]
    · rw [if_neg hj, if_neg]
      simp only [Bool.and_eq_true, decide_eq_true_eq, not_and]
      omega
  rw [residue, hpoly, map_one]

theorem residue_mulUpTo (p a b : BitVec w) (n : ℕ) :
    residue p (mulUpTo p a b n)
      = AdjoinRoot.mk (generator p)
          (messagePoly ((List.range n).map b.getLsbD)) * residue p a := by
  induction n with
  | zero => simp [mulUpTo, residue_zero, messagePoly]
  | succ n ih =>
    rw [mulUpTo, residue_xor, residue_shift, ih, List.range_succ,
      List.map_append, List.map_singleton, messagePoly_concat, map_add,
      map_mul, AdjoinRoot.mk_X, add_mul, mul_assoc]
    cases b.getLsbD n <;> simp [residue_zero]

theorem residue_mul (p a b : BitVec w) :
    residue p (mul p a b) = residue p b * residue p a := by
  rw [mul, residue_mulUpTo]
  exact congrArg (fun f => AdjoinRoot.mk (generator p) f * residue p a)
    (messagePoly_symbolBits b)

theorem residue_powX (hw : 0 < w) (p : BitVec w) (bits : List Bool) :
    residue p (powX p bits)
      = AdjoinRoot.root (generator p) ^ exponent bits := by
  induction bits with
  | nil => rw [powX, residue_one hw, exponent, pow_zero]
  | cons b bits ih =>
    rw [powX, exponent, pow_add, two_mul, pow_add, ← ih]
    cases b with
    | false => simp [residue_mul]
    | true => simp [residue_shift, residue_mul]

/-- **A power of the root is one exactly when its register is.** -/
theorem root_pow_eq_one_iff (hw : 0 < w) (p : BitVec w) (bits : List Bool) :
    AdjoinRoot.root (generator p) ^ exponent bits = 1
      ↔ powX p bits = one w := by
  rw [← residue_powX hw, ← residue_one hw p]
  exact (residue_injective p).eq_iff

/-- **The order of `X` modulo the generator**, from one power that is one and
one power for each prime factor of its exponent that is not. -/
theorem orderOf_root (hw : 0 < w) {p : BitVec w} {n : List Bool}
    (hn : 0 < exponent n) (hone : powX p n = one w)
    (hprime : ∀ q, q.Prime → q ∣ exponent n →
      ∃ m, exponent m = exponent n / q ∧ powX p m ≠ one w) :
    orderOf (AdjoinRoot.root (generator p)) = exponent n := by
  refine orderOf_eq_of_pow_and_pow_div_prime hn
    ((root_pow_eq_one_iff hw p n).mpr hone) (fun q hq hdvd => ?_)
  obtain ⟨m, hm, hne⟩ := hprime q hq hdvd
  rw [← hm, ne_eq, root_pow_eq_one_iff hw]
  exact hne

/-- **A register with its detection power**: the feedback word has its top
place set and an odd number of ones, and `X` has a known order. -/
noncomputable def detecting {N : ℕ} (p : BitVec w)
    (htop : p.getMsbD 0 = true) (hodd : Odd (support p).card)
    (hord : orderOf (AdjoinRoot.root (generator p)) = N) :
    PolyCode.Detecting w N where
  generator := generator p
  degree_eq := degree_generator p
  coeff_zero := by
    have hw : 0 < w := BitVec.lt_of_getMsbD htop
    rw [generator, coeff_add, coeff_toPoly, if_pos htop, coeff_X_pow,
      if_neg hw.ne, zero_add]
  eval_one := by
    rw [generator, toPoly, eval_add, eval_pow, eval_X, one_pow,
      PolyCode.eval_one_ofSupport, ← Nat.cast_one (R := ZMod 2),
      ← Nat.cast_add, ZMod.natCast_eq_zero_iff_even]
    exact odd_one.add_odd hodd
  order := by
    intro d hd hN hdvd
    refine pow_ne_one_of_lt_orderOf hd.ne' (hord ▸ hN) ?_
    rwa [← CharTwo.sub_eq_add, ← map_one C, ← AdjoinRoot.mk_eq_mk, map_pow,
      AdjoinRoot.mk_X, AdjoinRoot.mk_C, map_one] at hdvd

end CrcRegister
