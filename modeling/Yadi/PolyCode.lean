import Mathlib.Algebra.Field.ZMod
import Mathlib.Algebra.Polynomial.RingDivision
import Mathlib.Data.ZMod.Basic
import Mathlib.RingTheory.Coprime.Lemmas

/-!
# Binary polynomial codes

A message of `n` bits is the polynomial over `ZMod 2` whose coefficients
are its bits, and a check sequence makes the transmitted polynomial a
multiple of a fixed generator `g`. An error flips a finite set of
coefficients, that is, it adds the polynomial `PolyCode.ofSupport E` of the
set `E` of exponents it hits. The receiver misses the error exactly when
`g` divides that polynomial.

Which sets of exponents `g` can divide is a question about `g` alone, and
the classical answers are collected here for an arbitrary generator:

* a generator with an even number of terms – the root `1` – divides no
  polynomial with an odd number of terms (`PolyCode.not_dvd_of_odd`);
* a generator with a constant term divides no non-zero polynomial whose
  exponents fit in a window as wide as its degree
  (`PolyCode.not_dvd_of_burst`);
* a generator for which `X` has order at least `N` divides no sum of two
  distinct powers less than `N` apart (`PolyCode.not_dvd_of_pair`).

`PolyCode.Detecting` bundles a generator with these three facts and
`PolyCode.Detecting.not_dvd` is their common consequence.
-/

open Polynomial

namespace PolyCode

/-- **The polynomial of a set of exponents**, the error polynomial when the
set is the set of coefficients an error flips. -/
noncomputable def ofSupport (E : Finset ℕ) : (ZMod 2)[X] := ∑ i ∈ E, X ^ i

/-- A coefficient is one exactly at the exponents of the set. -/
theorem coeff_ofSupport (E : Finset ℕ) (n : ℕ) :
    (ofSupport E).coeff n = if n ∈ E then 1 else 0 := by
  rw [ofSupport, finsetSum_coeff]
  simp only [coeff_X_pow]
  exact Finset.sum_ite_eq E n (fun _ => 1)

/-- A polynomial over two elements is the polynomial of the exponents where
its coefficient is one. -/
theorem eq_ofSupport {f : (ZMod 2)[X]} {E : Finset ℕ}
    (h : ∀ n, f.coeff n = if n ∈ E then 1 else 0) : f = ofSupport E := by
  ext n
  rw [h n, coeff_ofSupport]

/-- Only the empty set has the zero polynomial. -/
theorem ofSupport_ne_zero {E : Finset ℕ} (hE : E.Nonempty) :
    ofSupport E ≠ 0 := by
  obtain ⟨i, hi⟩ := hE
  intro h
  have hc := coeff_ofSupport E i
  rw [h, coeff_zero, if_pos hi] at hc
  exact zero_ne_one hc

/-- At `1` the polynomial counts its terms modulo two. -/
theorem eval_one_ofSupport (E : Finset ℕ) :
    (ofSupport E).eval 1 = (E.card : ZMod 2) := by
  rw [ofSupport, eval_finsetSum]
  simp only [eval_pow, eval_X, one_pow, Finset.sum_const, nsmul_eq_mul,
    mul_one]

/-! ## What a generator cannot divide -/

/-- **Odd errors.** A generator with the root `1` divides no polynomial
with an odd number of terms. -/
theorem not_dvd_of_odd {g : (ZMod 2)[X]} (hg : g.eval 1 = 0)
    {E : Finset ℕ} (hE : Odd E.card) : ¬ g ∣ ofSupport E := by
  rintro ⟨q, hq⟩
  have h := congrArg (eval 1) hq
  rw [eval_one_ofSupport, eval_mul, hg, zero_mul,
    ZMod.natCast_eq_zero_iff_even] at h
  exact Nat.not_even_iff_odd.mpr hE h

/-- A generator with a constant term is coprime to `X`. -/
theorem isCoprime_X_of_coeff_zero {g : (ZMod 2)[X]} (hg : g.coeff 0 = 1) :
    IsCoprime g X := by
  have hdiv := divX_mul_X_add g
  rw [hg, C_1] at hdiv
  exact ⟨1, -g.divX, by rw [one_mul, neg_mul, ← sub_eq_add_neg,
    sub_eq_iff_eq_add', hdiv]⟩

/-- Such a generator sees through a shift: it divides `X ^ s * f` only if
it divides `f`. -/
theorem dvd_of_dvd_X_pow_mul {g : (ZMod 2)[X]} (hg : g.coeff 0 = 1) (s : ℕ)
    {f : (ZMod 2)[X]} (h : g ∣ X ^ s * f) : g ∣ f :=
  ((isCoprime_X_of_coeff_zero hg).pow_right).dvd_of_dvd_mul_left h

/-- The polynomial of a shifted set is the shifted polynomial. -/
theorem ofSupport_image_add (E : Finset ℕ) (s : ℕ) :
    ofSupport (E.image (s + ·)) = X ^ s * ofSupport E := by
  rw [ofSupport, Finset.sum_image (fun _ _ _ _ h => Nat.add_left_cancel h),
    ofSupport, Finset.mul_sum]
  exact Finset.sum_congr rfl (fun i _ => pow_add X s i)

/-- A set above `s` is the shift by `s` of a set. -/
theorem exists_image_add {E : Finset ℕ} {s : ℕ} (h : ∀ i ∈ E, s ≤ i) :
    E = (E.image (· - s)).image (s + ·) := by
  rw [Finset.image_image]
  refine (Finset.image_id (s := E)).symm.trans
    (Finset.image_congr (fun i hi => ?_))
  simp only [id_eq, Function.comp_apply]
  exact (Nat.add_sub_cancel' (h i hi)).symm

/-- A polynomial whose exponents are below `w` has degree below `w`. -/
theorem degree_ofSupport_lt {E : Finset ℕ} {w : ℕ} (h : ∀ i ∈ E, i < w) :
    (ofSupport E).degree < w := by
  rw [degree_lt_iff_coeff_zero]
  intro n hn
  rw [coeff_ofSupport, if_neg (fun hmem => absurd (h n hmem) (by omega))]

/-- **Bursts.** A generator with a constant term divides no non-zero
polynomial whose exponents lie in a window as wide as its degree. -/
theorem not_dvd_of_burst {g : (ZMod 2)[X]} {w : ℕ} (hdeg : g.degree = w)
    (hg : g.coeff 0 = 1) {E : Finset ℕ} (hE : E.Nonempty) {s : ℕ}
    (hlo : ∀ i ∈ E, s ≤ i) (hhi : ∀ i ∈ E, i < s + w) :
    ¬ g ∣ ofSupport E := by
  rw [exists_image_add hlo, ofSupport_image_add]
  intro hdvd
  -- moved down to the constant term, the burst has too small a degree
  have hlt : (ofSupport (E.image (· - s))).degree < g.degree := by
    rw [hdeg]
    refine degree_ofSupport_lt (fun i hi => ?_)
    obtain ⟨j, hj, rfl⟩ := Finset.mem_image.mp hi
    have := hlo j hj
    have := hhi j hj
    omega
  exact ofSupport_ne_zero (hE.image _)
    (eq_zero_of_dvd_of_degree_lt (dvd_of_dvd_X_pow_mul hg s hdvd) hlt)

/-- **Pairs.** If `g` divides no `X ^ d + 1` with `0 < d < N`, it divides no
sum of two distinct powers less than `N` apart. -/
theorem not_dvd_of_pair {g : (ZMod 2)[X]} {N : ℕ} (hg : g.coeff 0 = 1)
    (hord : ∀ d, 0 < d → d < N → ¬ g ∣ X ^ d + 1) {i j : ℕ} (hij : i < j)
    (hN : j < i + N) : ¬ g ∣ X ^ i + X ^ j := by
  have hsplit : (X ^ i + X ^ j : (ZMod 2)[X]) = X ^ i * (X ^ (j - i) + 1) := by
    rw [mul_add, mul_one, ← pow_add, Nat.add_sub_cancel' hij.le, add_comm]
  rw [hsplit]
  intro hdvd
  exact hord (j - i) (by omega) (by omega) (dvd_of_dvd_X_pow_mul hg i hdvd)

/-! ## A generator with its detection power -/

/-- **An error pattern a code of degree `w` and order `N` detects**: an odd
number of hits, two hits less than `N` apart, or any hits inside a window of
`w` consecutive exponents. -/
inductive Detectable (w N : ℕ) (E : Finset ℕ) : Prop
  | odd (h : Odd E.card)
  | pair (i j : ℕ) (hij : i < j) (hN : j < i + N) (h : E = {i, j})
  | burst (hE : E.Nonempty) (s : ℕ) (h : ∀ i ∈ E, s ≤ i ∧ i < s + w)

/-- Detectability does not depend on the end the exponents are counted
from. -/
theorem Detectable.reflect {w N n : ℕ} {E : Finset ℕ}
    (hE : Detectable w N E) (hn : ∀ i ∈ E, i < n) :
    Detectable w N (E.image (fun i => n - 1 - i)) := by
  have hinj : Set.InjOn (fun i => n - 1 - i) E := by
    intro i hi j hj h
    have := hn i hi
    have := hn j hj
    simp only at h
    omega
  cases hE with
  | odd h => exact .odd (by rwa [Finset.card_image_of_injOn hinj])
  | pair i j hij hN h =>
    have := hn j (by simp [h])
    refine .pair (n - 1 - j) (n - 1 - i) (by omega) (by omega) ?_
    rw [h, Finset.image_insert, Finset.image_singleton, Finset.pair_comm]
  | burst hne s h =>
    refine .burst (hne.image _) (n - (s + w)) (fun k hk => ?_)
    obtain ⟨i, hi, rfl⟩ := Finset.mem_image.mp hk
    have := hn i hi
    have := h i hi
    omega

/-- **A generator with the facts its detection power rests on.** -/
structure Detecting (w N : ℕ) where
  /-- The generator polynomial. -/
  generator : (ZMod 2)[X]
  degree_eq : generator.degree = w
  coeff_zero : generator.coeff 0 = 1
  /-- The generator has an even number of terms. -/
  eval_one : generator.eval 1 = 0
  /-- The order of `X` modulo the generator is at least `N`. -/
  order : ∀ d, 0 < d → d < N → ¬ generator ∣ X ^ d + 1

/-- **A detectable error is no multiple of the generator.** -/
theorem Detecting.not_dvd {w N : ℕ} (c : Detecting w N) {E : Finset ℕ}
    (hE : Detectable w N E) : ¬ c.generator ∣ ofSupport E := by
  cases hE with
  | odd h => exact not_dvd_of_odd c.eval_one h
  | pair i j hij hN h =>
    rw [h, ofSupport, Finset.sum_pair hij.ne]
    exact not_dvd_of_pair c.coeff_zero c.order hij hN
  | burst hne s h =>
    exact not_dvd_of_burst c.degree_eq c.coeff_zero hne
      (fun i hi => (h i hi).1) (fun i hi => (h i hi).2)

end PolyCode
