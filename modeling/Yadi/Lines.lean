import Mathlib.Data.List.Basic

/-!
# The lines of a text

A text is read line by line up to a separator. `Lines.lines` are the lines
such a reader gets: each ends with the separator, and the last one may end
with the text instead. A separator at the very end begins no further line, so
this is not `List.splitOn`, which would have an empty one there.

Lines that are not empty and have no separator in them are got back from
where they are joined (`lines_intercalate`), and a text that does not end with
a separator is its lines joined (`intercalate_lines`). How many there are can
be told from the separators and the end of the text (`length_lines`).
-/

namespace Lines

variable {α : Type} [DecidableEq α]

/-- **The lines of a text.** -/
def lines (sep : α) : List α → List (List α)
  | [] => []
  | x :: text =>
    if x = sep then
      [] :: lines sep text
    else
      match lines sep text with
      | [] => [[x]]
      | line :: rest => (x :: line) :: rest

theorem lines_cons_of_ne {sep x : α} (h : x ≠ sep) {text line : List α}
    {rest : List (List α)} (htext : lines sep text = line :: rest) :
    lines sep (x :: text) = (x :: line) :: rest := by
  rw [lines, if_neg h, htext]

/-- **The first line ends with the first separator.** -/
theorem lines_append_cons {sep : α} {line : List α} (h : sep ∉ line)
    (text : List α) : lines sep (line ++ sep :: text) = line :: lines sep text := by
  induction line with
  | nil => rw [List.nil_append, lines, if_pos rfl]
  | cons x line ih =>
    rw [List.mem_cons, not_or] at h
    rw [List.cons_append]
    exact lines_cons_of_ne (Ne.symm h.1) (ih h.2)

/-- **A text without a separator is one line**, if it is not empty. -/
theorem lines_of_notMem {sep : α} {line : List α} (h : sep ∉ line)
    (hne : line ≠ []) : lines sep line = [line] := by
  induction line with
  | nil => exact absurd rfl hne
  | cons x line ih =>
    rw [List.mem_cons, not_or] at h
    cases line with
    | nil => rw [lines, if_neg (Ne.symm h.1), lines]
    | cons y line =>
      exact lines_cons_of_ne (Ne.symm h.1) (ih h.2 (List.cons_ne_nil _ _))

/-- **Joined lines are got back.** -/
theorem lines_intercalate {sep : α} {ls : List (List α)}
    (h : ∀ line ∈ ls, line ≠ [] ∧ sep ∉ line) :
    lines sep ([sep].intercalate ls) = ls := by
  induction ls with
  | nil => rfl
  | cons line ls ih =>
    obtain ⟨hne, hline⟩ := h line List.mem_cons_self
    have hrest := ih (fun l hl => h l (List.mem_cons_of_mem _ hl))
    cases ls with
    | nil =>
      rw [List.intercalate_singleton]
      exact lines_of_notMem hline hne
    | cons l ls =>
      rw [List.intercalate_cons_cons, List.append_assoc]
      exact (lines_append_cons hline _).trans (congrArg _ hrest)

/-- Joined lines do not end with a separator. -/
theorem getLast?_intercalate_ne {sep : α} {ls : List (List α)}
    (h : ∀ line ∈ ls, line ≠ [] ∧ sep ∉ line) :
    ([sep].intercalate ls).getLast? ≠ some sep := by
  induction ls with
  | nil => exact nofun
  | cons line ls ih =>
    cases ls with
    | nil =>
      rw [List.intercalate_singleton]
      intro hlast
      exact (h line List.mem_cons_self).2 (List.mem_of_getLast? hlast)
    | cons l ls =>
      have hrest := ih (fun l hl => h l (List.mem_cons_of_mem _ hl))
      have hne : [sep].intercalate (l :: ls) ≠ [] := by
        intro hnil
        have hlines : lines sep ([sep].intercalate (l :: ls)) = l :: ls :=
          lines_intercalate (fun l hl => h l (List.mem_cons_of_mem line hl))
        rw [hnil] at hlines
        cases hlines
      rw [List.intercalate_cons_cons, List.getLast?_append_of_ne_nil _ hne]
      exact hrest

/-- A text that is not empty has a line. -/
theorem exists_lines_cons (sep x : α) (text : List α) :
    ∃ line rest, lines sep (x :: text) = line :: rest := by
  rw [lines]
  by_cases h : x = sep
  · rw [if_pos h]
    exact ⟨_, _, rfl⟩
  · rw [if_neg h]
    cases lines sep text with
    | nil => exact ⟨_, _, rfl⟩
    | cons line rest => exact ⟨_, _, rfl⟩

/-- **A text is its lines joined**, if it does not end with a separator. -/
theorem intercalate_lines {sep : α} {text : List α}
    (h : text.getLast? ≠ some sep) :
    [sep].intercalate (lines sep text) = text := by
  induction text with
  | nil => rfl
  | cons x text ih =>
    cases text with
    | nil =>
      have hx : x ≠ sep := fun hx => h (congrArg some hx)
      rw [lines, if_neg hx, lines, List.intercalate_singleton]
    | cons y text =>
      rw [List.getLast?_cons_cons] at h
      obtain ⟨line, rest, htext⟩ := exists_lines_cons sep y text
      have hjoined := ih h
      by_cases hx : x = sep
      · rw [lines, if_pos hx, htext, List.intercalate_cons_cons, ← htext,
          hjoined, hx, List.nil_append, List.singleton_append]
      · rw [lines_cons_of_ne hx htext]
        rw [htext] at hjoined
        cases rest with
        | nil =>
          rw [List.intercalate_singleton] at hjoined ⊢
          rw [hjoined]
        | cons next rest =>
          rw [List.intercalate_cons_cons] at hjoined ⊢
          rw [List.cons_append, List.cons_append, hjoined]

/-- **How many lines a text has**: one for each separator, and one more if it
does not end with one. -/
theorem length_lines (sep : α) (text : List α) :
    (lines sep text).length = text.count sep
      + if text.getLast? = none ∨ text.getLast? = some sep then 0 else 1 := by
  induction text with
  | nil => rfl
  | cons x text ih =>
    cases text with
    | nil => by_cases h : x = sep <;> simp [lines, h]
    | cons y text =>
      rw [List.getLast?_cons_cons]
      obtain ⟨line, rest, htext⟩ := exists_lines_cons sep y text
      by_cases h : x = sep
      · rw [lines, if_pos h, List.length_cons, ih, h, List.count_cons_self]
        omega
      · rw [lines_cons_of_ne h htext, List.length_cons, ← List.length_cons,
          ← htext, ih, List.count_cons_of_ne h]

end Lines
