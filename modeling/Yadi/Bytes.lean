import Yadi.Run

/-!
# Bytes, words and vectors of bytes

A `uint8_t` is a `Byte`, a `uint16_t` a `Word`, a `std::vector<uint8_t>` and
a `std::string` a list of bytes. `Result` is a run of the library's code,
which can throw the exceptions of `Exn`.

`byteAt`, `slice` and `leWord` are how the statements about a buffer speak of
its bytes: total, and equal to what the code reads wherever it reads inside
the buffer (`readAt_byte`).
-/

/-- `uint8_t`. -/
abbrev Byte := BitVec 8

/-- `uint16_t`. -/
abbrev Word := BitVec 16

namespace Dlms

open Run

/-- The exceptions the library throws. -/
inductive Exn
  /-- `hdlc::invalid_hdlc_frame`. -/
  | invalidHdlcFrame
  /-- `InvalidCosemFrame`. -/
  | invalidCosemFrame
  /-- `std::runtime_error`, with its text. -/
  | runtimeError (what : String)
  /-- `std::underflow_error`, with its text. -/
  | underflowError (what : String)
  deriving DecidableEq, Repr

/-- A run of the library's code. -/
abbrev Result (α : Type) := Run Exn α

/-- Byte `i` of a buffer. -/
def byteAt (b : List Byte) (i : ℕ) : Byte := b.getD i 0

/-- The bytes of a buffer from position `i` up to position `j`, the latter
left out. -/
def slice (b : List Byte) (i j : ℕ) : List Byte :=
  (b.drop i).take (j - i)

/-- The two bytes at `i`, low byte first. -/
def leWord (b : List Byte) (i : ℕ) : Word := byteAt b (i + 1) ++ byteAt b i

theorem readAt_byte {b : List Byte} {i : ℕ} (h : i < b.length) :
    (readAt b i : Result Byte) = ok (byteAt b i) := readAt_of_lt 0 h

@[simp] theorem length_slice (b : List Byte) (i j : ℕ) :
    (slice b i j).length = min (j - i) (b.length - i) := by
  rw [slice, List.length_take, List.length_drop]

theorem getElem?_slice (b : List Byte) (i j k : ℕ) :
    (slice b i j)[k]? = if i + k < j then b[i + k]? else none := by
  rw [slice, List.getElem?_take, List.getElem?_drop]
  exact if_congr (by omega) rfl rfl

/-- Two slices that meet make one. -/
theorem slice_append_slice {b : List Byte} {i j k : ℕ} (hij : i ≤ j)
    (hjk : j ≤ k) : slice b i j ++ slice b j k = slice b i k := by
  rw [slice, slice, slice, show k - i = (j - i) + (k - j) by omega,
    List.take_add, List.drop_drop, Nat.add_sub_cancel' hij]

@[simp] theorem slice_length (b : List Byte) : slice b 0 b.length = b := by
  rw [slice, List.drop_zero, Nat.sub_zero, List.take_length]

theorem slice_succ {b : List Byte} {i j : ℕ} (hij : i < j)
    (hi : i < b.length) : slice b i j = byteAt b i :: slice b (i + 1) j := by
  rw [slice, slice, List.drop_eq_getElem_cons hi,
    show j - i = (j - (i + 1)) + 1 by omega, List.take_succ_cons, byteAt,
    List.getD_eq_getElem?_getD, List.getElem?_eq_getElem hi, Option.getD_some]

theorem slice_singleton {b : List Byte} {i : ℕ} (hi : i < b.length) :
    slice b i (i + 1) = [byteAt b i] := by
  rw [slice_succ (Nat.lt_succ_self i) hi, slice, Nat.sub_self, List.take_zero]

/-- The low bit of a byte is its parity. -/
theorem getLsbD_zero_eq (x : Byte) :
    x.getLsbD 0 = decide (x.toNat % 2 = 1) := by
  revert x
  decide +kernel

theorem byteAt_append_left {a : List Byte} (b : List Byte) {i : ℕ}
    (h : i < a.length) : byteAt (a ++ b) i = byteAt a i := by
  rw [byteAt, byteAt, List.getD_eq_getElem?_getD, List.getD_eq_getElem?_getD,
    List.getElem?_append_left h]

theorem byteAt_append_right {a : List Byte} (b : List Byte) {i : ℕ}
    (h : a.length ≤ i) : byteAt (a ++ b) i = byteAt b (i - a.length) := by
  rw [byteAt, byteAt, List.getD_eq_getElem?_getD, List.getD_eq_getElem?_getD,
    List.getElem?_append_right h]

theorem slice_append_left {a : List Byte} (b : List Byte) {j : ℕ} (i : ℕ)
    (h : j ≤ a.length) : slice (a ++ b) i j = slice a i j := by
  refine List.ext_getElem? (fun k => ?_)
  rw [getElem?_slice, getElem?_slice]
  refine if_ctx_congr Iff.rfl (fun hk => ?_) (fun _ => rfl)
  rw [List.getElem?_append_left (by omega)]

/-- What stands between two parts of a buffer. -/
theorem slice_append_middle (a m c : List Byte) :
    slice (a ++ m ++ c) a.length (a.length + m.length) = m := by
  rw [slice_append_left _ _ (List.length_append ▸ Nat.le_refl _), slice,
    List.drop_left, Nat.add_sub_cancel_left, List.take_length]

/-- Two bytes side by side are the shift and the disjunction the code
writes. -/
theorem shiftLeft_or_eq_append (hi lo : Byte) :
    (hi.setWidth 16 <<< 8) ||| lo.setWidth 16 = (hi ++ lo : Word) := by
  refine BitVec.eq_of_getLsbD_eq (fun i hlt => ?_)
  rw [BitVec.getLsbD_or, BitVec.getLsbD_shiftLeft, BitVec.getLsbD_setWidth,
    BitVec.getLsbD_setWidth, BitVec.getLsbD_append]
  by_cases h : i < 8
  · simp [h, hlt]
  · simp [h, hlt, BitVec.getLsbD_of_ge lo i (by omega),
      show i - 8 < 16 by omega]

/-- The two bytes of a word, put together again. -/
theorem append_setWidth (w : Word) :
    ((w >>> 8).setWidth 8 ++ w.setWidth 8 : Word) = w := by
  refine BitVec.eq_of_getLsbD_eq (fun i hi => ?_)
  rw [BitVec.getLsbD_append, BitVec.getLsbD_setWidth, BitVec.getLsbD_setWidth,
    BitVec.getLsbD_ushiftRight]
  by_cases h : i < 8
  · simp [h]
  · simp [h, show i - 8 < 8 by omega, show 8 + (i - 8) = i by omega]

/-- Shifting a byte into a word of 32 bits drops the word's upper byte. -/
theorem toNat_shiftLeft_or (w : BitVec 32) (x : Byte) :
    ((w <<< 8) ||| x.setWidth 32).toNat
      = w.toNat % 2 ^ 24 * 256 + x.toNat := by
  have hupper : w.toNat * 2 ^ 8 % 2 ^ 32 = (w.toNat % 2 ^ 24) <<< 8 := by
    rw [Nat.shiftLeft_eq]
    omega
  rw [BitVec.toNat_or, BitVec.toNat_shiftLeft, Nat.shiftLeft_eq,
    BitVec.toNat_setWidth_of_le (by decide), hupper,
    ← Nat.shiftLeft_add_eq_or_of_lt x.isLt, Nat.shiftLeft_eq]

end Dlms
