import Mathlib.Data.List.Basic

/-!
# Frames in a stream

On a line, frames come one behind the other with nothing between them, and a
receiver cuts the stream into frames again. It can if a frame says at its
beginning how long it is: `size` reads that length off whatever starts with
the frame, and `split` cuts off as much, over and over.

A list of such frames is got back from the stream of them
(`split_flatten`), so no two lists make the same stream.
-/

namespace Framing

variable {α : Type}

/-- **A frame that says how long it is**, to anyone who reads the length off
its beginning by `size`. -/
structure SelfDelimiting (size : List α → ℕ) (frame : List α) : Prop where
  ne_nil : frame ≠ []
  size_eq : ∀ rest, size (frame ++ rest) = frame.length

/-- **A stream cut into frames**, of which there are at most as many as the
first argument says. -/
def split (size : List α → ℕ) : ℕ → List α → List (List α)
  | 0, _ => []
  | _ + 1, [] => []
  | fuel + 1, x :: b =>
    (x :: b).take (size (x :: b))
      :: split size fuel ((x :: b).drop (size (x :: b)))

/-- The first frame of a stream is cut off whole. -/
theorem split_append {size : List α → ℕ} {frame : List α}
    (h : SelfDelimiting size frame) (fuel : ℕ) (rest : List α) :
    split size (fuel + 1) (frame ++ rest)
      = frame :: split size fuel rest := by
  obtain ⟨x, tail, hcons⟩ := List.exists_cons_of_ne_nil h.ne_nil
  have hsize := h.size_eq rest
  have hstep : ∀ b : List α, b ≠ [] → split size (fuel + 1) b
      = b.take (size b) :: split size fuel (b.drop (size b)) := by
    intro b hb
    cases b with
    | nil => exact absurd rfl hb
    | cons x b => rfl
  rw [hstep _ (by rw [hcons]; exact List.cons_ne_nil _ _), hsize,
    List.take_left, List.drop_left]

/-- **The frames of a stream are got back from it.** -/
theorem split_flatten {size : List α → ℕ} {frames : List (List α)}
    (h : ∀ frame ∈ frames, SelfDelimiting size frame) {fuel : ℕ}
    (hfuel : frames.length ≤ fuel) :
    split size fuel frames.flatten = frames := by
  induction frames generalizing fuel with
  | nil => cases fuel <;> rfl
  | cons frame frames ih =>
    cases fuel with
    | zero => exact absurd hfuel (Nat.not_succ_le_zero _)
    | succ fuel =>
      rw [List.flatten_cons, split_append (h frame List.mem_cons_self),
        ih (fun f hf => h f (List.mem_cons_of_mem frame hf))
          (Nat.le_of_succ_le_succ hfuel)]

/-- There are at most as many frames as the stream is long. -/
theorem length_le_flatten {size : List α → ℕ} {frames : List (List α)}
    (h : ∀ frame ∈ frames, SelfDelimiting size frame) :
    frames.length ≤ frames.flatten.length := by
  induction frames with
  | nil => exact Nat.le_refl 0
  | cons frame frames ih =>
    have hpos := List.length_pos_iff.mpr
      (h frame List.mem_cons_self).ne_nil
    have hle := ih fun f hf => h f (List.mem_cons_of_mem frame hf)
    rw [List.flatten_cons, List.length_append, List.length_cons]
    omega

/-- The length of the stream is fuel enough. -/
theorem split_length_flatten {size : List α → ℕ} {frames : List (List α)}
    (h : ∀ frame ∈ frames, SelfDelimiting size frame) :
    split size frames.flatten.length frames.flatten = frames :=
  split_flatten h (length_le_flatten h)

end Framing
