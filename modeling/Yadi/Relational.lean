import Yadi.Run

/-!
# Two runs side by side

A statement about what a program does *not* look at compares two runs of it.
`Run.Related P` holds of two runs that end alike: both return, with values
related by `P`, or both throw the same exception or meet the same fault.
`StateRun.Related R P` says so of two runs with a state, from all states
related by `R`, and asks that the states they leave be related again.

The rules follow the program, one for a sequence and one for a loop. A proof
that goes along two programs with them never runs either.
-/

namespace Run

variable {ε α β γ δ σ τ : Type}

/-- **Two runs that end alike**, with values related by `P` if they
return. -/
def Related (P : α → β → Prop) : Run ε α → Run ε β → Prop
  | ok a, ok b => P a b
  | throws e, throws e' => e = e'
  | fault x, fault y => x = y
  | _, _ => False

/-- Runs related by equality are equal. -/
theorem related_eq_iff {m m' : Run ε α} : Related Eq m m' ↔ m = m' := by
  cases m <;> cases m' <;> simp [Related]

theorem Related.same (m : Run ε α) : Related Eq m m := related_eq_iff.mpr rfl

/-- **The rule for sequences.** -/
theorem Related.bind {P : α → β → Prop} {Q : γ → δ → Prop} {m : Run ε α}
    {m' : Run ε β} {f : α → Run ε γ} {f' : β → Run ε δ}
    (hm : Related P m m') (hf : ∀ a b, P a b → Related Q (f a) (f' b)) :
    Related Q (m >>= f) (m' >>= f') := by
  cases m <;> cases m' <;> try exact absurd hm not_false
  · exact hf _ _ hm
  · exact hm
  · exact hm

/-- Two sequences with equal first halves. -/
theorem Related.bindEq {Q : γ → δ → Prop} {m m' : Run ε α}
    {f : α → Run ε γ} {f' : α → Run ε δ} (hm : Related Eq m m')
    (hf : ∀ a, Related Q (f a) (f' a)) : Related Q (m >>= f) (m' >>= f') :=
  hm.bind fun a _ hab => hab ▸ hf a

/-- Two rounds that go on or stop alike. -/
def StepRelated (R : σ → τ → Prop) : ForInStep σ → ForInStep τ → Prop
  | .done s, .done t => R s t
  | .yield s, .yield t => R s t
  | _, _ => False

/-- **The rule for loops.** If rounds from related states end alike, so do
the loops. -/
theorem Related.loop {R : σ → τ → Prop} {round : σ → Run ε (ForInStep σ)}
    {round' : τ → Run ε (ForInStep τ)}
    (h : ∀ s t, R s t → Related (StepRelated R) (round s) (round' t))
    (fuel : ℕ) (s : σ) (t : τ) (hst : R s t) :
    Related R (loop round fuel s) (loop round' fuel t) := by
  induction fuel generalizing s t with
  | zero => exact Eq.refl Fault.diverges
  | succ fuel ih =>
    refine Related.bind (h s t hst) (fun a b hab => ?_)
    cases a <;> cases b <;> try exact absurd hab not_false
    · exact hab
    · exact ih _ _ hab

end Run

namespace StateRun

variable {σ τ ε α β γ δ : Type}

/-- **Two runs with a state that end alike** from all states related by `R`,
and leave states that are. -/
def Related (R : σ → τ → Prop) (P : α → β → Prop) (m : StateRun σ ε α)
    (m' : StateRun τ ε β) : Prop :=
  ∀ s t, R s t → Run.Related P (m s).1 (m' t).1 ∧ R (m s).2 (m' t).2

section
variable {R : σ → τ → Prop} {P : α → β → Prop} {Q : γ → δ → Prop}

theorem Related.pure {a : α} {b : β} (h : P a b) :
    Related R P (Pure.pure a : StateRun σ ε α) (Pure.pure b) :=
  fun _ _ hst => ⟨h, hst⟩

theorem Related.lift {m : Run ε α} {m' : Run ε β} (h : Run.Related P m m') :
    Related R P (StateRun.lift m) (StateRun.lift m') :=
  fun _ _ hst => ⟨h, hst⟩

/-- **The rule for sequences.** -/
theorem Related.bind {m : StateRun σ ε α} {m' : StateRun τ ε β}
    {f : α → StateRun σ ε γ} {f' : β → StateRun τ ε δ}
    (hm : Related R P m m') (hf : ∀ a b, P a b → Related R Q (f a) (f' b)) :
    Related R Q (m >>= f) (m' >>= f') := by
  intro s t hst
  obtain ⟨hval, hstate⟩ := hm s t hst
  change Run.Related Q (andThen m f s).1 (andThen m' f' t).1
    ∧ R (andThen m f s).2 (andThen m' f' t).2
  unfold andThen
  -- the two first halves end alike
  rcases hr : m s with ⟨r, s'⟩
  rcases hr' : m' t with ⟨r', t'⟩
  rw [hr, hr'] at hval hstate
  cases r <;> cases r' <;> try exact absurd hval not_false
  · exact hf _ _ hval s' t' hstate
  · exact ⟨hval, hstate⟩
  · exact ⟨hval, hstate⟩

/-- Two sequences with first halves that return the same. -/
theorem Related.bindEq {m : StateRun σ ε α} {m' : StateRun τ ε α}
    {f : α → StateRun σ ε γ} {f' : α → StateRun τ ε δ}
    (hm : Related R Eq m m') (hf : ∀ a, Related R Q (f a) (f' a)) :
    Related R Q (m >>= f) (m' >>= f') :=
  hm.bind fun a _ hab => hab ▸ hf a

end

end StateRun
