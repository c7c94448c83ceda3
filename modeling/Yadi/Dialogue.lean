import Mathlib.Data.List.Forall2
import Mathlib.Data.Stream.Init

/-!
# Dialogues

One party asks, the other answers, and the next question waits for the
answer to the last: `Dialogue` is all that the first party may do in such a
conversation, a tree that branches over the answers. What comes of it depends
on who answers. `hear` takes the answers from a stream, as they were recorded
or made up beforehand; a `Peer` is a party that answers, with a state of its
own and with any choice it may have.

The two views are connected twice. `Ensures` goes through a dialogue with a
peer, answer by answer, and it says the same as going through every stream of
which the exchanges are a history of the peer (`ensures_iff`). And for a peer
that is a function there is always such a stream, and just one
(`existsUnique_replies`), so that nothing is lost by fixing the answers
beforehand.

A party that holds a dialogue for each of its operations is, together with
its peer, a peer of its own: one that answers operations with their results.
So the operations can be the questions of a dialogue themselves, and
`ensures_through` is the rule for this. If every operation follows a step of a
second peer, then whatever a dialogue ensures with that peer it ensures with
the first, behind the operations. Operations one after another are a special
case (`ensures_all`). And if the operations fail after a silence, and the
dialogue ends after a failure, then all of it ends after a silence
(`EndsAfter.through`).
-/

/-- **A dialogue**: it is over, or it asks a question and goes on with the
answer. -/
inductive Dialogue (Q A R : Type)
  | done (r : R)
  | ask (q : Q) (next : A → Dialogue Q A R)

/-- **A peer**: in which state it may answer a question how, and the state it
is in then. -/
abbrev Peer (σ Q A : Type) := σ → Q → A → σ → Prop

/-! ## Histories -/

namespace Peer

variable {σ Q A : Type} {peer : Peer σ Q A}

/-- **A history of a peer**: questions with its answers, from one state to
another. -/
inductive History (peer : Peer σ Q A) : σ → List (Q × A) → σ → Prop
  | nil (s : σ) : History peer s [] s
  | cons {s s' s'' : σ} {q : Q} {a : A} {es : List (Q × A)}
      (h : peer s q a s') (hs : History peer s' es s'') :
      History peer s ((q, a) :: es) s''

theorem history_nil_iff {s s' : σ} : History peer s [] s' ↔ s' = s := by
  constructor
  · rintro ⟨⟩
    rfl
  · rintro rfl
    exact .nil _

theorem history_cons_iff {s s'' : σ} {q : Q} {a : A} {es : List (Q × A)} :
    History peer s ((q, a) :: es) s''
      ↔ ∃ s', peer s q a s' ∧ History peer s' es s'' := by
  constructor
  · rintro ⟨⟩
    exact ⟨_, ‹_›, ‹_›⟩
  · rintro ⟨s', h, hs⟩
    exact .cons h hs

/-- The first part of a history is one. -/
theorem History.take {s s' : σ} {es : List (Q × A)}
    (h : peer.History s es s') (n : ℕ) :
    ∃ s'', peer.History s (es.take n) s'' := by
  induction h generalizing n with
  | nil s => exact ⟨s, by rw [List.take_nil]; exact .nil s⟩
  | cons h hs ih =>
    cases n with
    | zero => exact ⟨_, .nil _⟩
    | succ n =>
      obtain ⟨s'', hs''⟩ := ih n
      exact ⟨s'', .cons h hs''⟩

/-- A peer without a state, which answers a question by `P`. -/
def stateless (P : Q → A → Prop) : Peer Unit Q A := fun _ q a _ => P q a

theorem history_stateless_iff {P : Q → A → Prop} {es : List (Q × A)} :
    (stateless P).History () es () ↔ ∀ e ∈ es, P e.1 e.2 := by
  induction es with
  | nil => simp [history_nil_iff]
  | cons e es ih =>
    rw [List.forall_mem_cons, ← ih]
    exact history_cons_iff.trans
      ⟨fun ⟨_, h, hs⟩ => ⟨h, hs⟩, fun ⟨h, hs⟩ => ⟨(), h, hs⟩⟩

end Peer

namespace Dialogue

variable {Q A R S σ : Type}

/-! ## What is heard -/

/-- **A dialogue with the answers of a stream**: its result, and the
questions with their answers. -/
def hear : Dialogue Q A R → Stream' A → R × List (Q × A)
  | done r, _ => (r, [])
  | ask q next, as =>
    let (r, es) := (next as.head).hear as.tail
    (r, (q, as.head) :: es)

/-- One dialogue, and then another one with its result. -/
def bind : Dialogue Q A R → (R → Dialogue Q A S) → Dialogue Q A S
  | done r, f => f r
  | ask q next, f => ask q fun a => (next a).bind f

theorem hear_ask (q : Q) (next : A → Dialogue Q A R) (as : Stream' A) :
    (ask q next).hear as = (((next as.head).hear as.tail).1,
      (q, as.head) :: ((next as.head).hear as.tail).2) := rfl

/-- The second dialogue hears what the first has left of the stream. -/
theorem hear_bind (d : Dialogue Q A R) (f : R → Dialogue Q A S)
    (as : Stream' A) :
    (d.bind f).hear as
      = (((f (d.hear as).1).hear (as.drop (d.hear as).2.length)).1,
        (d.hear as).2
          ++ ((f (d.hear as).1).hear (as.drop (d.hear as).2.length)).2) := by
  induction d generalizing as with
  | done r => rfl
  | ask q next ih =>
    rw [bind, hear_ask, ih]
    rfl

/-- The answers heard are the first of the stream. -/
theorem map_snd_hear (d : Dialogue Q A R) (as : Stream' A) :
    (d.hear as).2.map Prod.snd = as.take (d.hear as).2.length := by
  induction d generalizing as with
  | done r => rfl
  | ask q next ih =>
    rw [hear_ask, List.map_cons, ih, List.length_cons, Stream'.take_succ]

/-! ## What a peer brings about -/

/-- **A dialogue with a peer ensures `P`**: however the peer answers, `P`
holds of the result and of the state the peer is in then. -/
def Ensures (peer : Peer σ Q A) : Dialogue Q A R → σ → (R → σ → Prop) → Prop
  | done r, s, P => P r s
  | ask q next, s, P => ∀ a s', peer s q a s' → (next a).Ensures peer s' P

variable {peer : Peer σ Q A}

@[simp] theorem ensures_done {r : R} {s : σ} {P : R → σ → Prop} :
    (done r : Dialogue Q A R).Ensures peer s P ↔ P r s := Iff.rfl

@[simp] theorem ensures_ask {q : Q} {next : A → Dialogue Q A R} {s : σ}
    {P : R → σ → Prop} : (ask q next).Ensures peer s P
      ↔ ∀ a s', peer s q a s' → (next a).Ensures peer s' P := Iff.rfl

/-- **Two dialogues in a row.** -/
theorem ensures_bind {d : Dialogue Q A R} {f : R → Dialogue Q A S} {s : σ}
    {P : S → σ → Prop} : (d.bind f).Ensures peer s P
      ↔ d.Ensures peer s fun r s' => (f r).Ensures peer s' P := by
  induction d generalizing s with
  | done r => rfl
  | ask q next ih =>
    simp only [bind, ensures_ask, ih]

theorem Ensures.mono {d : Dialogue Q A R} {s : σ} {P P' : R → σ → Prop}
    (h : d.Ensures peer s P) (hP : ∀ r s', P r s' → P' r s') :
    d.Ensures peer s P' := by
  induction d generalizing s with
  | done r => exact hP _ _ h
  | ask q next ih => exact fun a s' ha => ih a (h a s' ha)

theorem Ensures.and {d : Dialogue Q A R} {s : σ} {P P' : R → σ → Prop}
    (h : d.Ensures peer s P) (h' : d.Ensures peer s P') :
    d.Ensures peer s fun r s' => P r s' ∧ P' r s' := by
  induction d generalizing s with
  | done r => exact ⟨h, h'⟩
  | ask q next ih => exact fun a s' ha => ih a (h a s' ha) (h' a s' ha)

/-- A peer that may do less ensures as much. -/
theorem Ensures.of_peer {peer' : Peer σ Q A} {d : Dialogue Q A R} {s : σ}
    {P : R → σ → Prop} (h : d.Ensures peer s P)
    (hpeer : ∀ s q a s', peer' s q a s' → peer s q a s') :
    d.Ensures peer' s P := by
  induction d generalizing s with
  | done r => exact h
  | ask q next ih => exact fun a s' ha => ih a (h a s' (hpeer s q a s' ha))

/-- **A peer ensures what all its recorded answers do.** -/
theorem ensures_iff [Inhabited A] {d : Dialogue Q A R} {s : σ} {P : R → σ → Prop} :
    d.Ensures peer s P
      ↔ ∀ as s', peer.History s (d.hear as).2 s' → P (d.hear as).1 s' := by
  induction d generalizing s with
  | done r =>
    constructor
    · intro h as s' hs
      rw [Peer.history_nil_iff.mp hs]
      exact h
    · exact fun h => h (Stream'.const default) s (.nil s)
  | ask q next ih =>
    constructor
    · intro h as s'' hs
      obtain ⟨s', ha, hs⟩ := Peer.history_cons_iff.mp hs
      exact (ih as.head).mp (h as.head s' ha) as.tail s'' hs
    · exact fun h a s' ha => (ih a).mpr fun as s'' hs =>
        h (Stream'.cons a as) s'' (.cons ha hs)

/-! ## Peers that are functions -/

/-- The answers of a peer that is a function. -/
def replies (react : σ → Q → A × σ) : σ → List Q → List A
  | _, [] => []
  | s, q :: qs => (react s q).1 :: replies react (react s q).2 qs

theorem length_replies (react : σ → Q → A × σ) (s : σ) (qs : List Q) :
    (replies react s qs).length = qs.length := by
  induction qs generalizing s with
  | nil => rfl
  | cons q qs ih => exact congrArg (· + 1) (ih _)

/-- **A peer that is a function is heard in just one way**: there is one list
of questions such that its answers to them, recorded beforehand and followed
by anything, make the dialogue ask these questions. -/
theorem existsUnique_replies (react : σ → Q → A × σ) (d : Dialogue Q A R)
    (s : σ) (rest : Stream' A) :
    ∃! qs, (d.hear (replies react s qs ++ₛ rest)).2.map Prod.fst = qs := by
  induction d generalizing s with
  | done r => exact ⟨[], rfl, fun qs h => h.symm⟩
  | ask q next ih =>
    obtain ⟨qs, hqs, hunique⟩ := ih (react s q).1 (react s q).2
    refine ⟨q :: qs, congrArg (q :: ·) hqs, fun qs' h => ?_⟩
    -- the first question does not depend on the answers
    cases qs' with
    | nil => exact absurd h (List.cons_ne_nil _ _)
    | cons q' qs' =>
      obtain ⟨hq, htail⟩ := List.cons.inj h
      obtain rfl : q = q' := hq
      exact congrArg (q :: ·) (hunique qs' htail)

/-! ## Dialogues whose questions are dialogues -/

variable {ι κ τ : Type}

/-- Whatever is answered, only questions of `I` are asked. -/
def Asks (I : ι → Prop) : Dialogue ι R S → Prop
  | done _ => True
  | ask i next => I i ∧ ∀ r, (next r).Asks I

theorem asks_any (d : Dialogue ι R S) : d.Asks fun _ => True := by
  induction d with
  | done _ => trivial
  | ask i next ih => exact ⟨trivial, ih⟩

/-- **A dialogue of operations**, where each operation is a dialogue that
depends on the state of the party and changes it. -/
def through (op : ι → κ → Dialogue Q A (R × κ)) :
    Dialogue ι R S → κ → Dialogue Q A (S × κ)
  | done r, k => done (r, k)
  | ask i next, k => (op i k).bind fun r => (next r.1).through op r.2

/-- **The rule for dialogues of operations.** If every operation, from states
that `Sim` relates to those of a second peer, ends with a result that peer may
give and in states that are related again, then what a dialogue ensures with
the second peer it ensures with the first. -/
theorem ensures_through {op : ι → κ → Dialogue Q A (R × κ)}
    {peer' : Peer τ ι R} {Sim : κ → σ → τ → Prop} {I : ι → Prop}
    (hop : ∀ i, I i → ∀ k s t, Sim k s t →
      (op i k).Ensures peer s fun r s' => ∃ t', peer' t i r.1 t' ∧ Sim r.2 s' t')
    {d : Dialogue ι R S} (hasks : d.Asks I) {k : κ} {s : σ} {t : τ}
    (h : Sim k s t) {P : S → τ → Prop} (hd : d.Ensures peer' t P) :
    (d.through op k).Ensures peer s fun r s' =>
      ∃ t', P r.1 t' ∧ Sim r.2 s' t' := by
  induction d generalizing k s t with
  | done r => exact ⟨t, hd, h⟩
  | ask i next ih =>
    rw [through, ensures_bind]
    refine (hop i hasks.1 k s t h).mono fun r s' hr => ?_
    obtain ⟨t', hpeer, hsim⟩ := hr
    exact ih r.1 (hasks.2 r.1) hsim (hd r.1 t' hpeer)

/-! ## Dialogues that end after a silence -/

section
variable {silence : A} {E : R → Prop}

/-- **A dialogue that ends after a silence**, and then with a result of
`E`. -/
def EndsAfter (silence : A) (E : R → Prop) : Dialogue Q A R → Prop
  | done _ => True
  | ask _ next => (∃ r, E r ∧ next silence = done r)
      ∧ ∀ a, (next a).EndsAfter silence E

/-- Two dialogues in a row, if the second is over after such a result of the
first. -/
theorem EndsAfter.bind {E' : S → Prop} {d : Dialogue Q A R}
    {f : R → Dialogue Q A S} (hd : d.EndsAfter silence E)
    (hf : ∀ r, (f r).EndsAfter silence E')
    (hover : ∀ r, E r → ∃ r', E' r' ∧ f r = done r') :
    (d.bind f).EndsAfter silence E' := by
  induction d with
  | done r => exact hf r
  | ask q next ih =>
    obtain ⟨⟨r, hr, hsilent⟩, hnext⟩ := hd
    obtain ⟨r', hr', hdone⟩ := hover r hr
    refine ⟨⟨r', hr', ?_⟩, fun a => ih a (hnext a)⟩
    show (next silence).bind f = done r'
    rw [hsilent]
    exact hdone

/-- **A dialogue that ends after a failure**, of operations that fail after a
silence. -/
theorem EndsAfter.through {op : ι → κ → Dialogue Q A (R × κ)} {failure : R}
    (hop : ∀ i k, (op i k).EndsAfter silence fun r => r.1 = failure)
    {d : Dialogue ι R S} (hd : d.EndsAfter failure fun _ => True) (k : κ) :
    (d.through op k).EndsAfter silence fun _ => True := by
  induction d generalizing k with
  | done r => trivial
  | ask i next ih =>
    refine (hop i k).bind (fun r => ih r.1 (hd.2 r.1) r.2) ?_
    rintro ⟨_, k'⟩ rfl
    obtain ⟨r, -, hdone⟩ := hd.1
    refine ⟨(r, k'), trivial, ?_⟩
    rw [hdone]
    rfl

end

/-! ## Operations one after another -/

/-- To ask one question after another, whatever the answers are. -/
def inTurn : List ι → Dialogue ι R (List R)
  | [] => done []
  | i :: is => ask i fun r => (inTurn is).bind fun rs => done (r :: rs)

theorem inTurn_asks {I : ι → Prop} {is : List ι} (h : ∀ i ∈ is, I i) :
    (inTurn is : Dialogue ι R (List R)).Asks I := by
  have hbind : ∀ {d : Dialogue ι R (List R)} (r : R), d.Asks I →
      (d.bind fun rs => done (r :: rs)).Asks I := by
    intro d r hd
    induction d with
    | done rs => trivial
    | ask i next ih => exact ⟨hd.1, fun a => ih a (hd.2 a)⟩
  induction is with
  | nil => trivial
  | cons i is ih =>
    exact ⟨h i List.mem_cons_self, fun r =>
      hbind r (ih fun j hj => h j (List.mem_cons_of_mem i hj))⟩

/-- The answers to all of them are a history. -/
theorem ensures_inTurn {peer' : Peer τ ι R} (is : List ι) (t : τ) :
    (inTurn is).Ensures peer' t fun rs t' =>
      rs.length = is.length ∧ peer'.History t (is.zip rs) t' := by
  induction is generalizing t with
  | nil => exact ⟨rfl, .nil t⟩
  | cons i is ih =>
    intro r t' hr
    rw [ensures_bind]
    exact (ih t').mono fun rs t'' hrs =>
      ⟨congrArg (· + 1) hrs.1, .cons hr hrs.2⟩

/-- The same, until there is an answer that ends it. -/
def inTurnUntil [DecidableEq R] (last : R) : List ι → Dialogue ι R (List R)
  | [] => done []
  | i :: is => ask i fun r =>
    if r = last then done [r]
    else (inTurnUntil last is).bind fun rs => done (r :: rs)

section
variable [DecidableEq R] {last : R}

theorem inTurnUntil_endsAfter (is : List ι) :
    (inTurnUntil last is).EndsAfter last fun _ => True := by
  induction is with
  | nil => trivial
  | cons i is ih =>
    refine ⟨⟨[last], trivial, if_pos rfl⟩, fun r => ?_⟩
    dsimp only
    split
    · trivial
    · exact ih.bind (fun _ => trivial) fun rs _ => ⟨r :: rs, trivial, rfl⟩

/-- The answers are a history of the first questions. -/
theorem ensures_inTurnUntil {peer' : Peer τ ι R} (is : List ι) (t : τ) :
    (inTurnUntil last is).Ensures peer' t fun rs t' =>
      rs.length ≤ is.length ∧ peer'.History t (is.zip rs) t' := by
  induction is generalizing t with
  | nil => exact ⟨le_rfl, .nil t⟩
  | cons i is ih =>
    intro r t' hr
    dsimp only
    split
    · refine ⟨Nat.le_add_left 1 _, .cons hr ?_⟩
      rw [List.zipWith_nil_right]
      exact .nil t'
    · rw [ensures_bind]
      exact (ih t').mono fun rs t'' hrs =>
        ⟨Nat.succ_le_succ hrs.1, .cons hr hrs.2⟩

end

/-- **One operation after another.** -/
def all (op : ι → κ → Dialogue Q A (R × κ)) (is : List ι) (k : κ) :
    Dialogue Q A (List R × κ) :=
  (inTurn is).through op k

/-- **The rule for operations one after another**: they follow a history of
the second peer. -/
theorem ensures_all {op : ι → κ → Dialogue Q A (R × κ)} {peer' : Peer τ ι R}
    {Sim : κ → σ → τ → Prop} {is : List ι}
    (hop : ∀ i ∈ is, ∀ k s t, Sim k s t → (op i k).Ensures peer s fun r s' =>
      ∃ t', peer' t i r.1 t' ∧ Sim r.2 s' t')
    (k : κ) (s : σ) (t : τ) (h : Sim k s t) :
    (all op is k).Ensures peer s fun rs s' => ∃ t', (rs.1.length = is.length
      ∧ peer'.History t (is.zip rs.1) t') ∧ Sim rs.2 s' t' :=
  ensures_through hop (inTurn_asks fun _ hi => hi) h (ensures_inTurn is t)

/-- **What every operation keeps, all of them keep**, and what each comes to,
each comes to among the others. -/
theorem ensures_all_forall₂ {op : ι → κ → Dialogue Q A (R × κ)}
    {I : κ → σ → Prop} {P : ι → R → Prop} {is : List ι}
    (hop : ∀ i ∈ is, ∀ k s, I k s →
      (op i k).Ensures peer s fun r s' => P i r.1 ∧ I r.2 s')
    (k : κ) (s : σ) (h : I k s) :
    (all op is k).Ensures peer s fun rs s' =>
      List.Forall₂ P is rs.1 ∧ I rs.2 s' := by
  have hall := @ensures_all Q A R σ peer ι κ Unit op (Peer.stateless P)
    (fun k s _ => I k s) is
    (fun i hi k s _ hs => (hop i hi k s hs).mono fun r s' hr => ⟨(), hr⟩)
    k s () h
  refine hall.mono fun rs s' hrs => ?_
  obtain ⟨_, ⟨hlength, hhistory⟩, hI⟩ := hrs
  refine ⟨List.forall₂_iff_zip.mpr ⟨hlength.symm, fun hmem => ?_⟩, hI⟩
  exact Peer.history_stateless_iff.mp hhistory _ hmem

end Dialogue
