import Mathlib.Logic.Function.Basic
import Yadi.Dialogue

/-!
# Peers on a line

A party may talk to several peers, and there are two ways to put them
together. Side by side, each question names the peer it is put to, and their
joint histories are no more than a history for each, in whatever order the
questions come (`Peer.history_sideBySide_iff`). On one line, a question names
nobody: every peer hears it, and the one it is for answers.

The two are the same to a dialogue that only asks questions for one of the
peers. What it ensures with that peer alone, it ensures on the line, and all
the others stay as they are (`Dialogue.ensures_onLine`).

A line may also be late. Then the answers on their way are part of its state,
and what is read after a question is one of those. `Peer.Late` is such a line
that keeps the order, and `Peer.Behind` one that is always late by one answer.
A dialogue that goes on after a silence may take an answer for another one,
though not out of order (`Peer.Late.inOrder`). If it ends there, lateness is
no worse than loss (`Dialogue.ensures_late`).
-/

namespace Peer

variable {ι σ Q A B : Type} [DecidableEq ι]

/-! ## Side by side -/

/-- **Peers side by side**: a question is put to one of them, and the others
stay as they are. -/
inductive SideBySide (peers : ι → Peer σ Q A) : Peer (ι → σ) (ι × Q) A
  | asked {s : ι → σ} {i : ι} {q : Q} {a : A} {t : σ}
      (h : peers i (s i) q a t) :
      SideBySide peers s (i, q) a (Function.update s i t)

/-- Peers that may do less do less side by side. -/
theorem SideBySide.mono {peers peers' : ι → Peer σ Q A}
    (hpeers : ∀ i s q a t, peers i s q a t → peers' i s q a t) {s s' : ι → σ}
    {q : ι × Q} {a : A} (h : SideBySide peers s q a s') :
    SideBySide peers' s q a s' := by
  cases h with
  | asked h => exact .asked (hpeers _ _ _ _ _ h)

/-- What was put to one of them, with the answers. -/
def part (i : ι) (es : List ((ι × Q) × A)) : List (Q × A) :=
  (es.filter fun e => e.1.1 = i).map fun e => (e.1.2, e.2)

theorem part_cons_self (i : ι) (q : Q) (a : A) (es : List ((ι × Q) × A)) :
    part i (((i, q), a) :: es) = (q, a) :: part i es := by
  simp [part]

theorem part_cons_of_ne {i j : ι} (h : j ≠ i) (q : Q) (a : A)
    (es : List ((ι × Q) × A)) : part i (((j, q), a) :: es) = part i es := by
  simp [part, h]

variable {peers : ι → Peer σ Q A}

/-- **A history of peers side by side is one of each.** -/
theorem history_sideBySide_iff {s s' : ι → σ} {es : List ((ι × Q) × A)} :
    (SideBySide peers).History s es s'
      ↔ ∀ i, (peers i).History (s i) (part i es) (s' i) := by
  induction es generalizing s with
  | nil =>
    rw [history_nil_iff, funext_iff]
    exact forall_congr' fun i => history_nil_iff.symm
  | cons e es ih =>
    obtain ⟨⟨j, q⟩, a⟩ := e
    rw [history_cons_iff]
    constructor
    · rintro ⟨_, @⟨_, _, _, _, t, h⟩, hs⟩ i
      have hi := ih.mp hs i
      by_cases hij : j = i
      · subst hij
        rw [Function.update_self] at hi
        rw [part_cons_self]
        exact .cons h hi
      · rw [Function.update_of_ne (Ne.symm hij)] at hi
        rw [part_cons_of_ne hij]
        exact hi
    · intro h
      have hj := h j
      rw [part_cons_self, history_cons_iff] at hj
      obtain ⟨t, ht, hj⟩ := hj
      refine ⟨_, .asked ht, ih.mpr fun i => ?_⟩
      by_cases hij : j = i
      · subst hij
        rw [Function.update_self]
        exact hj
      · have hi := h i
        rw [part_cons_of_ne hij] at hi
        rw [Function.update_of_ne (Ne.symm hij)]
        exact hi

/-! ## On one line -/

/-- **Peers on one line**: the peer that a question is for answers, and if it
is for nobody there is silence. -/
inductive OnLine (addressee : Q → Option ι) (silence : A)
    (peers : ι → Peer σ Q A) : Peer (ι → σ) Q A
  | answered {s : ι → σ} {i : ι} {q : Q} {a : A} {t : σ}
      (hi : addressee q = some i) (h : peers i (s i) q a t) :
      OnLine addressee silence peers s q a (Function.update s i t)
  | silent {s : ι → σ} {q : Q} (h : addressee q = none) :
      OnLine addressee silence peers s q silence s

/-! ## On a line that is late -/

/-- **A peer on a line that may be late**, with the answers on their way: what
is read after a question, and what stays on its way, is there in the order in
which it was answered and not twice, but some of it may be lost. If nothing
has come, there is silence. -/
inductive Late (silence : A) (peer : Peer σ Q A) : Peer (σ × List A) Q A
  | read {s s' : σ} {as as' : List A} {q : Q} {a b : A} (h : peer s q b s')
      (hread : (a :: as').Sublist (silence :: (as ++ [b]))) :
      Late silence peer (s, as) q a (s', as')

section
variable {silence : A} {peer : Peer σ Q A} {s s' : σ} {q : Q} {a : A}

/-- An answer may come in time. -/
theorem Late.inTime (h : peer s q a s') :
    Late silence peer (s, []) q a (s', []) :=
  .read h (List.Sublist.cons _ (List.Sublist.refl [a]))

/-- And it may come too late. -/
theorem Late.tooLate (h : peer s q a s') :
    Late silence peer (s, []) q silence (s', [a]) :=
  .read h (List.Sublist.refl [silence, a])

end

/-- **What is made of the answers comes in order and once**, where `f` says
what is made of an answer, `g` what is to be made of the answer to a question,
and the state is what is still due. -/
def InOrder (f : A → Option B) (g : Q → Option B) : Peer (List B) Q A :=
  fun due q a due' => ((f a).toList ++ due').Sublist (due ++ (g q).toList)

section
variable {f : A → Option B} {g : Q → Option B} {due due' : List B} {q : Q}
  {a : A}

/-- If nothing is to be made of the answer, nothing becomes due. -/
theorem InOrder.of_none (h : InOrder f g due q a due') (hg : g q = none) :
    due'.Sublist due := by
  rw [InOrder, hg, Option.toList_none, List.append_nil] at h
  exact (List.sublist_append_right _ _).trans h

/-- If nothing is made of it, the order is kept. -/
theorem inOrder_of_none (hf : f a = none) (h : due'.Sublist due) :
    InOrder f g due q a due' := by
  rw [InOrder, hf, Option.toList_none, List.nil_append]
  exact List.sublist_append_of_sublist_left h

end

/-- What is made of one more answer comes first. -/
theorem filterMap_cons_eq (f : A → Option B) (a : A) (as : List A) :
    (a :: as).filterMap f = (f a).toList ++ as.filterMap f := by
  rw [List.filterMap_cons]
  cases f a <;> rfl

/-- **On a late line it does**, if nothing is made of silence, and of each
answer nothing or what is to be made of it. -/
theorem Late.inOrder {peer : Peer σ Q A} {silence : A} {f : A → Option B}
    {g : Q → Option B} (hsilence : f silence = none)
    (hpeer : ∀ s q b s', peer s q b s' → f b = none ∨ f b = g q)
    {line line' : σ × List A} {q : Q} {a : A}
    (h : Late silence peer line q a line') :
    InOrder f g (line.2.filterMap f) q a (line'.2.filterMap f) := by
  obtain @⟨s, s', as, as', _, _, b, h, hread⟩ := h
  have hlast : (f b).toList.Sublist (g q).toList := by
    rcases hpeer s q b s' h with hnone | heq
    · rw [hnone]
      exact List.nil_sublist _
    · rw [heq]
  have hmade := hread.filterMap f
  rw [List.filterMap_cons_none hsilence, List.filterMap_append,
    filterMap_cons_eq, filterMap_cons_eq f b, List.filterMap_nil,
    List.append_nil] at hmade
  exact hmade.trans (hlast.append_left _)

theorem History.inOrder {peer : Peer σ Q A} {silence : A} {f : A → Option B}
    {g : Q → Option B} (hsilence : f silence = none)
    (hpeer : ∀ s q b s', peer s q b s' → f b = none ∨ f b = g q)
    {line line' : σ × List A} {es : List (Q × A)}
    (h : (Late silence peer).History line es line') :
    (InOrder f g).History (line.2.filterMap f) es (line'.2.filterMap f) := by
  induction h with
  | nil line => exact .nil _
  | cons h hs ih => exact .cons (h.inOrder hsilence hpeer) ih

/-- All that is made of the answers is among what was due at first and what
is to be made of them, in that order. -/
theorem History.sublist {f : A → Option B} {g : Q → Option B}
    {due due' : List B} {es : List (Q × A)}
    (h : (InOrder f g).History due es due') :
    ((es.map Prod.snd).filterMap f ++ due').Sublist
      (due ++ (es.map Prod.fst).filterMap g) := by
  induction h with
  | nil due =>
    rw [List.map_nil, List.map_nil, List.filterMap_nil, List.filterMap_nil,
      List.nil_append, List.append_nil]
  | @cons due due₁ _ q a es h hs ih =>
    rw [List.map_cons, List.map_cons, filterMap_cons_eq, filterMap_cons_eq,
      List.append_assoc, ← List.append_assoc due]
    refine (ih.append_left _).trans ?_
    rw [← List.append_assoc]
    exact List.Sublist.append_right h _

/-- **A peer on a line that is one answer behind**, with the answer that is on
its way: it is read after the next question. -/
inductive Behind (peer : Peer σ Q A) : Peer (σ × A) Q A
  | read {s s' : σ} {q : Q} {a b : A} (h : peer s q b s') :
      Behind peer (s, a) q a (s', b)

/-- **The answers are one behind.** -/
theorem History.behind {peer : Peer σ Q A} {line line' : σ × A}
    {es : List (Q × A)} (h : (Behind peer).History line es line') :
    ∃ as, es.map Prod.snd ++ [line'.2] = line.2 :: as
      ∧ peer.History line.1 ((es.map Prod.fst).zip as) line'.1 := by
  induction h with
  | nil line => exact ⟨[], rfl, .nil _⟩
  | cons hbehind hs ih =>
    obtain ⟨h⟩ := hbehind
    obtain ⟨as, has, hpeer⟩ := ih
    exact ⟨_, congrArg (_ :: ·) has, .cons h hpeer⟩

end Peer

/-- **A dialogue with one of the peers on a line.** What it ensures with the
peer alone, it ensures on the line, and the others stay as they are. -/
theorem Dialogue.ensures_onLine {ι σ Q A R : Type} [DecidableEq ι]
    {addressee : Q → Option ι} {silence : A} {peers : ι → Peer σ Q A} {i : ι}
    {d : Dialogue Q A R} (hasks : d.Asks fun q => addressee q = some i)
    {s : ι → σ} {P : R → σ → Prop} (h : d.Ensures (peers i) (s i) P) :
    d.Ensures (Peer.OnLine addressee silence peers) s fun r s' =>
      ∃ t, P r t ∧ s' = Function.update s i t := by
  induction d generalizing s with
  | done r => exact ⟨s i, h, (Function.update_eq_self i s).symm⟩
  | ask q next ih =>
    intro a s' hline
    cases hline with
    | @answered _ j _ _ t hj ha =>
      obtain rfl : i = j := Option.some.inj (hasks.1.symm.trans hj)
      have hnext := h a t ha
      have hih := @ih a (hasks.2 a) (Function.update s i t)
        (by rwa [Function.update_self])
      refine hih.mono fun r s' hr => ?_
      obtain ⟨t', hP, rfl⟩ := hr
      exact ⟨t', hP, Function.update_idem _ _ _⟩
    | silent hnone => rw [hasks.1] at hnone; cases hnone

/-- Peers that may lose their answers may lose them on a line. -/
theorem Peer.OnLine.silence {ι σ Q A : Type} [DecidableEq ι]
    {addressee : Q → Option ι} {silence : A} {peers : ι → Peer σ Q A}
    (hlost : ∀ i s q a t, peers i s q a t → peers i s q silence t)
    {s s' : ι → σ} {q : Q} {a : A}
    (h : OnLine addressee silence peers s q a s') :
    OnLine addressee silence peers s q silence s' := by
  cases h with
  | answered hi h => exact .answered hi (hlost _ _ _ _ _ h)
  | silent hnone => exact .silent hnone

/-- **A dialogue that ends after a silence is not misled by late answers**, if
none is late from before and the peer may lose its answers anyway. What it
ensures with the peer, it ensures on the line. -/
theorem Dialogue.ensures_late {σ Q A R : Type} {silence : A}
    {peer : Peer σ Q A} {E : R → Prop} {d : Dialogue Q A R}
    (hends : d.EndsAfter silence E)
    (hlost : ∀ s q a s', peer s q a s' → peer s q silence s') {s : σ}
    {P : R → σ → Prop} (h : d.Ensures peer s P) :
    d.Ensures (Peer.Late silence peer) (s, []) fun r line => P r line.1 := by
  induction d generalizing s with
  | done r => exact h
  | ask q next ih =>
    rintro a ⟨s', as'⟩ ⟨hb, hread⟩
    obtain ⟨⟨r, -, hsilent⟩, hnext⟩ := hends
    cases hread with
    | cons _ hread =>
      -- the answer itself is read, and nothing is left on its way
      have hlength := hread.length_le
      rw [List.nil_append, List.length_cons, List.length_singleton] at hlength
      obtain rfl := List.eq_nil_of_length_eq_zero
        (Nat.le_zero.mp (Nat.le_of_succ_le_succ hlength))
      obtain rfl : a = _ :=
        List.mem_singleton.mp (hread.subset (List.mem_singleton.mpr rfl))
      exact ih a (hnext a) (h a s' hb)
    | cons_cons _ hread =>
      have hover := h silence s' (hlost _ _ _ _ hb)
      rw [hsilent] at hover ⊢
      exact hover
