import Mathlib.Algebra.Group.Nat.Defs
import Mathlib.Data.List.Basic
import Mathlib.Logic.Function.Basic
import Mathlib.Logic.Relation

/-!
# Runs of imperative code

A run of a C++ function returns a value, throws, or does something the
language or the reader would not want: it reads outside a vector, a
conversion or a subtraction of unsigned integers changes the value that was
meant, or a loop never ends. `Run` keeps the three apart. The last kind is a
`Fault`, and a model written in `Run` meets a fault at the very step where
the code would go wrong, so a proof that a run is *clean* – that it returns
or throws – covers every read, every conversion and every loop on its way.

A loop is `Run.loop`: its round either yields a state for the next round or
is done, and it is given as many rounds as its fuel. `Run.loop_returns` is
the rule for total correctness: an invariant, a variant below the fuel, and
what holds when a round is done.
-/

/-- What a run can do that no run should. -/
inductive Fault
  /-- A vector is read at an index not below its size. -/
  | outOfBounds
  /-- A conversion or subtraction of unsigned integers wraps around. -/
  | wraps
  /-- A loop runs out of rounds. -/
  | diverges
  deriving DecidableEq, Repr

/-- **A run**: it returns a value, throws an exception or meets a fault. -/
inductive Run (ε α : Type)
  | ok (a : α)
  | throws (e : ε)
  | fault (f : Fault)
  deriving DecidableEq, Repr

namespace Run

variable {ε α β σ : Type}

/-- Go on with the value a run returns; an exception or a fault ends the
whole run. -/
def andThen (m : Run ε α) (f : α → Run ε β) : Run ε β :=
  match m with
  | ok a => f a
  | throws e => throws e
  | fault x => fault x

instance : Monad (Run ε) where
  pure := ok
  bind := andThen

@[simp] theorem pure_eq (a : α) : (pure a : Run ε α) = ok a := rfl

@[simp] theorem ok_bind (a : α) (f : α → Run ε β) : (ok a >>= f) = f a := rfl

@[simp] theorem throws_bind (e : ε) (f : α → Run ε β) :
    ((throws e : Run ε α) >>= f) = throws e := rfl

/-! ## Clean runs -/

/-- **A clean run** returns or throws: it meets no fault. -/
def Clean (m : Run ε α) : Prop := ∀ x, m ≠ fault x

@[simp] theorem clean_ok (a : α) : Clean (ok a : Run ε α) :=
  nofun

@[simp] theorem clean_throws (e : ε) : Clean (throws e : Run ε α) :=
  nofun

/-- A run in two halves is clean when the first half is and the second is
clean after every value the first returns. -/
theorem Clean.bind {m : Run ε α} {f : α → Run ε β} (hm : Clean m)
    (hf : ∀ a, m = ok a → Clean (f a)) : Clean (m >>= f) := by
  cases m with
  | ok a => exact hf a rfl
  | throws e => exact clean_throws e
  | fault x => exact absurd rfl (hm x)

/-- **A run that ensures `Q`**: it returns only values of `Q`, and where it
does not return it throws. -/
def Ensures (m : Run ε α) (Q : α → Prop) : Prop :=
  match m with
  | ok a => Q a
  | throws _ => True
  | fault _ => False

@[simp] theorem ensures_ok {a : α} {Q : α → Prop} :
    Ensures (ok a : Run ε α) Q ↔ Q a := Iff.rfl

/-! ## Runs that decide a property -/

/-- **A run that decides `P`**: it returns, and returns `true` exactly when
`P` holds. -/
def Decides (m : Run ε Bool) (P : Prop) : Prop :=
  ∃ r, m = ok r ∧ (r = true ↔ P)

theorem decides_ok {r : Bool} {P : Prop} (h : r = true ↔ P) :
    Decides (ok r : Run ε Bool) P := ⟨r, rfl, h⟩

/-- A first half that returns can be passed over. -/
theorem Decides.bind {m : Run ε α} {a : α} {f : α → Run ε Bool} {P : Prop}
    (hm : m = ok a) (hf : Decides (f a) P) : Decides (m >>= f) P := by
  rw [hm]
  exact hf

/-- A check that answers `false` at once may be passed over when `P` excludes
what it checks for. -/
theorem Decides.check {c : Prop} [Decidable c] {m : Run ε Bool} {P : Prop}
    (hc : P → ¬ c) (hm : ¬ c → Decides m P) :
    Decides (if c then ok false else m) P := by
  by_cases h : c
  · rw [if_pos h]
    exact decides_ok ⟨nofun, fun hP => absurd h (hc hP)⟩
  · rw [if_neg h]
    exact hm h

theorem Decides.eq_true_iff {m : Run ε Bool} {P : Prop} (h : Decides m P) :
    m = ok true ↔ P := by
  obtain ⟨r, rfl, hr⟩ := h
  rw [← hr, Run.ok.injEq]

/-! ## Reads, copies and unsigned arithmetic -/

/-- `v[i]`. -/
def readAt (v : List α) (i : ℕ) : Run ε α :=
  match v[i]? with
  | some a => ok a
  | none => fault .outOfBounds

/-- **A read returns exactly below the size of the vector.** -/
theorem readAt_eq_ok_iff {v : List α} {i : ℕ} {a : α} :
    (readAt v i : Run ε α) = ok a ↔ ∃ h : i < v.length, v[i] = a := by
  unfold readAt
  by_cases h : i < v.length
  · simp [h]
  · simp [h]

theorem readAt_of_lt {v : List α} {i : ℕ} (d : α) (h : i < v.length) :
    (readAt v i : Run ε α) = ok (v.getD i d) := by
  rw [readAt_eq_ok_iff]
  exact ⟨h, by rw [List.getD_eq_getElem?_getD, List.getElem?_eq_getElem h,
    Option.getD_some]⟩

/-- `v.begin() + n`, the position `n` of a vector, its end included. -/
def position (v : List α) (n : ℕ) : Run ε ℕ :=
  if n ≤ v.length then ok n else fault .outOfBounds

/-- The elements of `v` from position `b` up to position `e`. -/
def copyRange (v : List α) (b e : ℕ) : Run ε (List α) :=
  if b ≤ e ∧ e ≤ v.length then ok ((v.drop b).take (e - b)) else fault .outOfBounds

theorem position_of_le {v : List α} {n : ℕ} (h : n ≤ v.length) :
    (position v n : Run ε ℕ) = ok n := if_pos h

theorem copyRange_of_le {v : List α} {b e : ℕ} (h : b ≤ e)
    (he : e ≤ v.length) :
    (copyRange v b e : Run ε (List α)) = ok ((v.drop b).take (e - b)) :=
  if_pos ⟨h, he⟩

/-- A conversion to an unsigned integer of `w` bits. -/
def toUnsigned (w n : ℕ) : Run ε ℕ :=
  if n < 2 ^ w then ok n else fault .wraps

/-- A subtraction of unsigned integers. -/
def minus (n k : ℕ) : Run ε ℕ := if k ≤ n then ok (n - k) else fault .wraps

theorem toUnsigned_of_lt {w n : ℕ} (h : n < 2 ^ w) :
    (toUnsigned w n : Run ε ℕ) = ok n := if_pos h

theorem minus_of_le {n k : ℕ} (h : k ≤ n) :
    (minus n k : Run ε ℕ) = ok (n - k) := if_pos h

/-! ## Loops -/

/-- **A loop.** One round from a state either yields the state of the next
round or is done; `fuel` bounds the number of rounds. -/
def loop (round : σ → Run ε (ForInStep σ)) : ℕ → σ → Run ε σ
  | 0, _ => fault .diverges
  | fuel + 1, s => do
    match ← round s with
    | .done s' => ok s'
    | .yield s' => loop round fuel s'

/-- What one round must do: yield a state that keeps the invariant and uses
up the variant, or be done in a state of `Q`. -/
def RoundKeeps (I Q : σ → Prop) (variant : σ → ℕ) (s : σ) :
    ForInStep σ → Prop
  | .done s' => Q s'
  | .yield s' => I s' ∧ variant s' < variant s

/-- **The rule for loops.** If every round from a state of the invariant
returns, and either keeps the invariant and decreases the variant or is done
in a state of `Q`, then a loop with more rounds than the variant returns a
state of `Q`. -/
theorem loop_returns {round : σ → Run ε (ForInStep σ)} (I Q : σ → Prop)
    (variant : σ → ℕ)
    (hround : ∀ s, I s → ∃ t, round s = ok t ∧ RoundKeeps I Q variant s t)
    (fuel : ℕ) (s : σ) (hs : I s) (hfuel : variant s < fuel) :
    ∃ s', loop round fuel s = ok s' ∧ Q s' := by
  induction fuel generalizing s with
  | zero => exact absurd hfuel (Nat.not_lt_zero _)
  | succ fuel ih =>
    obtain ⟨t, hr, ht⟩ := hround s hs
    rw [loop, hr, ok_bind]
    cases t with
    | done s' => exact ⟨s', rfl, ht⟩
    | yield s' => exact ih s' ht.1 (by have := ht.2; omega)

/-- **One turn of a loop** that goes on after it. -/
def Turn (round : σ → Run ε (ForInStep σ)) (s t : σ) : Prop :=
  round s = ok (.yield t)

/-- **A loop that returns has come, turn by turn, to a state whose round is
done.** -/
theorem turns_of_loop {round : σ → Run ε (ForInStep σ)} {fuel : ℕ} {s s' : σ}
    (h : loop round fuel s = ok s') :
    ∃ t, Relation.ReflTransGen (Turn round) s t ∧ round t = ok (.done s') := by
  induction fuel generalizing s with
  | zero => cases h
  | succ fuel ih =>
    rw [loop] at h
    rcases hround : round s with (s₁ | s₁) | e | x
    · rw [hround, ok_bind, Run.ok.injEq] at h
      exact ⟨s, .refl, h ▸ hround⟩
    · rw [hround, ok_bind] at h
      obtain ⟨t, hturns, hdone⟩ := ih h
      exact ⟨t, .head hround hturns, hdone⟩
    · rw [hround, throws_bind] at h
      cases h
    · rw [hround] at h
      cases h

/-- What every turn keeps holds of every state a loop comes through. -/
theorem turns_keep {round : σ → Run ε (ForInStep σ)} {I : σ → Prop}
    (hturn : ∀ s t, I s → Turn round s t → I t) {s t : σ}
    (h : Relation.ReflTransGen (Turn round) s t) (hs : I s) : I t := by
  induction h with
  | refl => exact hs
  | tail _ hstep ih => exact hturn _ _ ih hstep

end Run

/-! ## Runs with a state -/

/-- **A run that changes a state as it goes.** An exception leaves the state
as it was when it was thrown. -/
def StateRun (σ ε α : Type) := σ → Run ε α × σ

namespace StateRun

variable {σ ε α β : Type}

/-- Go on from the value and the state a run leaves. -/
def andThen (m : StateRun σ ε α) (f : α → StateRun σ ε β) : StateRun σ ε β :=
  fun s =>
    match m s with
    | (.ok a, s') => f a s'
    | (.throws e, s') => (.throws e, s')
    | (.fault x, s') => (.fault x, s')

instance : Monad (StateRun σ ε) where
  pure a := fun s => (.ok a, s)
  bind := andThen

/-- A run that does not touch the state. -/
def lift (m : Run ε α) : StateRun σ ε α := fun s => (m, s)

/-- The state. -/
def get : StateRun σ ε σ := fun s => (.ok s, s)

/-- A run on a state that is a variable of the caller: what it returns, and
the state it leaves. An exception drops the variable. -/
def runOn (s : σ) (m : StateRun σ ε α) : Run ε (α × σ) :=
  match m s with
  | (.ok a, s') => .ok (a, s')
  | (.throws e, _) => .throws e
  | (.fault x, _) => .fault x

/-- Replace the state. -/
def set (s : σ) : StateRun σ ε Unit := fun _ => (.ok (), s)

@[simp] theorem pure_apply (a : α) (s : σ) :
    (pure a : StateRun σ ε α) s = (.ok a, s) := rfl

@[simp] theorem lift_apply (m : Run ε α) (s : σ) :
    (lift m : StateRun σ ε α) s = (m, s) := rfl

@[simp] theorem get_bind (f : σ → StateRun σ ε β) (s : σ) :
    (get >>= f) s = f s s := rfl

@[simp] theorem set_bind (t : σ) (f : Unit → StateRun σ ε β) (s : σ) :
    (set t >>= f) s = f () t := rfl

@[simp] theorem lift_ok_bind (a : α) (f : α → StateRun σ ε β) (s : σ) :
    (lift (.ok a) >>= f) s = f a s := rfl

@[simp] theorem lift_throws_bind (e : ε) (f : α → StateRun σ ε β) (s : σ) :
    ((lift (.throws e) : StateRun σ ε α) >>= f) s = (.throws e, s) := rfl

end StateRun
