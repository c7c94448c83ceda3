import Yadi.Bytes

/-!
# Encoding and decoding of data

`data_type.cpp`: a string or a string of bytes is packed as a tag, its size
in one of five forms, and its bytes; `toString` and `toBytes` are to unpack
it.

The encoder keeps to the format (`fromString_eq`). The decoder does not:
`toString` takes the byte behind the tag for the size, whatever its form, and
copies from the tag on, not from behind the size; and `toBytes` returns
nothing. So a string comes back only if it is short and repeats the header in
front of it, and a string of bytes only if it is empty (`roundTrip_iff`).

The byte behind the tag is also believed before it is compared with the bytes
there are. A number is read only from enough bytes, but a string is copied
however long it says it is, so `toString` leaves a truncated string at its
end (`toString_clean_iff`).
-/

namespace Dlms

open Run

/-! ## The code -/

/-- `DataType`. -/
inductive DataType
  | nullData | array | struct | boolean | bitString | int32 | uint32
  | octetString | string | utf8String | bcd | int8 | int16 | uint8 | uint16
  | int64 | uint64 | float32 | float64 | dateTime | date | time
  deriving DecidableEq, Repr

/-- The value of an enumerator. -/
def DataType.tag : DataType → Byte
  | nullData => 0
  | array => 1
  | struct => 2
  | boolean => 3
  | bitString => 4
  | int32 => 5
  | uint32 => 6
  | octetString => 9
  | string => 10
  | utf8String => 12
  | bcd => 13
  | int8 => 15
  | int16 => 16
  | uint8 => 17
  | uint16 => 18
  | int64 => 20
  | uint64 => 21
  | float32 => 23
  | float64 => 24
  | dateTime => 25
  | date => 26
  | time => 27

/-- The bytes `write_size` appends for a size it accepts. -/
def sizeBytes (size : ℕ) : List Byte :=
  if size ≤ 0x80 then
    [BitVec.ofNat 8 size]
  else if size ≤ 0xFF then
    [0x81, BitVec.ofNat 8 size]
  else if size ≤ 0xFFFF then
    [0x82, BitVec.ofNat 8 (size >>> 8), BitVec.ofNat 8 size]
  else if size ≤ 0xFFFFFF then
    [0x83, BitVec.ofNat 8 (size >>> 16), BitVec.ofNat 8 (size >>> 8),
      BitVec.ofNat 8 size]
  else
    [0x84, BitVec.ofNat 8 (size >>> 24), BitVec.ofNat 8 (size >>> 16),
      BitVec.ofNat 8 (size >>> 8), BitVec.ofNat 8 size]

/-- `write_size`, on the buffer it is given by reference. -/
def writeSize (size : ℕ) : StateRun (List Byte) Exn Unit := do
  if size > 0xFFFFFFFF then
    StateRun.lift (throws (.runtimeError "size os too big"))
  let buffer ← StateRun.get
  StateRun.set (buffer ++ sizeBytes size)

/-- `pack_sized_type`. -/
def packSizedType (tag : Byte) (value : List Byte) : Result (List Byte) := do
  let buffer := [tag]
  let (_, buffer) ← StateRun.runOn buffer (writeSize value.length)
  return buffer ++ value

/-- `from_string`. -/
def fromString (str : List Byte) (tag : DataType := .string) :
    Result (List Byte) :=
  match tag with
  | .octetString | .string => packSizedType tag.tag str
  | _ => return []

/-- `from_bytes`. -/
def fromBytes (data : List Byte) (tag : DataType := .octetString) :
    Result (List Byte) :=
  match tag with
  | .octetString | .string => packSizedType tag.tag data
  | _ => return []

/-- `std::to_string` of an unsigned number. -/
def decimal (value : ℕ) : List Byte :=
  (Nat.toDigits 10 value).map (fun c => BitVec.ofNat 8 c.toNat)

/-- The loop of `to_string`, from `i` on and for `count` turns. -/
def appendBytes (buffer : List Byte) :
    (count i : ℕ) → (retval : List Byte) → Result (List Byte)
  | 0, _, retval => pure retval
  | count + 1, i, retval => do
    let byte ← readAt buffer i
    appendBytes buffer count (i + 1) (retval ++ [byte])

/-- `to_string`. -/
def toString (buffer : List Byte) : Result (List Byte) := do
  if buffer.length < 2 then
    return []
  else
    let tag ← readAt buffer 0
    if tag = 0x06 then
      if buffer.length < 5 then
        throws (.underflowError "not enough bytes")
      else
        let value : BitVec 32 := (← readAt buffer 1).setWidth 32
        let value := (value <<< 8) ||| (← readAt buffer 2).setWidth 32
        let value := (value <<< 8) ||| (← readAt buffer 3).setWidth 32
        let value := (value <<< 8) ||| (← readAt buffer 4).setWidth 32
        return decimal value.toNat
    else if tag = 0x0A then
      let size ← readAt buffer 1
      appendBytes buffer size.toNat 0 []
    else
      return []

/-- `to_bytes`. -/
def toBytes (_buffer : List Byte) : Result (List Byte) := return []

/-! ## What is packed -/

/-- What stands in front of a packed value. -/
def packHeader (tag : DataType) (size : ℕ) : List Byte :=
  tag.tag :: sizeBytes size

/-- **A size of four bytes is appended to the buffer.** -/
theorem writeSize_eq {size : ℕ} (h : size ≤ 0xFFFFFFFF)
    (buffer : List Byte) :
    writeSize size buffer = (ok (), buffer ++ sizeBytes size) := by
  rw [writeSize, if_neg (Nat.not_lt.mpr h)]
  rfl

theorem packSizedType_eq (tag : DataType) {value : List Byte}
    (h : value.length ≤ 0xFFFFFFFF) :
    packSizedType tag.tag value = ok (packHeader tag value.length ++ value) := by
  rw [packSizedType, StateRun.runOn, writeSize_eq h]
  rfl

/-- **A string is packed as its tag, its size and its bytes.** -/
theorem fromString_eq {str : List Byte} (h : str.length ≤ 0xFFFFFFFF) :
    fromString str = ok (packHeader .string str.length ++ str) :=
  packSizedType_eq .string h

theorem fromBytes_eq {data : List Byte} (h : data.length ≤ 0xFFFFFFFF) :
    fromBytes data = ok (packHeader .octetString data.length ++ data) :=
  packSizedType_eq .octetString h

/-- The first byte of a size: the size itself, or how many bytes follow. -/
def sizeByte (size : ℕ) : ℕ :=
  if size ≤ 0x80 then size
  else if size ≤ 0xFF then 0x81
  else if size ≤ 0xFFFF then 0x82
  else if size ≤ 0xFFFFFF then 0x83
  else 0x84

theorem sizeBytes_eq_cons (size : ℕ) :
    ∃ rest, sizeBytes size = BitVec.ofNat 8 (sizeByte size) :: rest := by
  rw [sizeBytes, sizeByte]
  split_ifs <;> exact ⟨_, rfl⟩

theorem sizeByte_le (size : ℕ) : sizeByte size ≤ 0x84 := by
  unfold sizeByte
  split_ifs <;> omega

theorem sizeByte_le_size (size : ℕ) : sizeByte size ≤ size := by
  unfold sizeByte
  split_ifs <;> omega

/-- The first byte of a size is the size in the one-byte form, and by chance
for 129 bytes. -/
theorem sizeByte_eq_iff (size : ℕ) : sizeByte size = size ↔ size ≤ 0x81 := by
  unfold sizeByte
  split_ifs <;> omega

/-! ## What comes back -/

/-- The loop copies the bytes it runs over. -/
theorem appendBytes_eq {buffer : List Byte} (count i : ℕ)
    (retval : List Byte) (h : i + count ≤ buffer.length) :
    appendBytes buffer count i retval
      = ok (retval ++ slice buffer i (i + count)) := by
  induction count generalizing i retval with
  | zero => simp [appendBytes, slice]
  | succ count ih =>
    rw [appendBytes, readAt_byte (by omega), ok_bind, ih _ _ (by omega),
      slice_succ (show i < i + (count + 1) by omega) (by omega),
      List.append_assoc, show i + 1 + count = i + (count + 1) by omega]
    rfl

/-- **`to_string` copies a packed string from its tag on**, as many bytes as
the first byte of the size says. -/
theorem toString_packed (str : List Byte) :
    toString (packHeader .string str.length ++ str)
      = ok ((packHeader .string str.length ++ str).take
          (sizeByte str.length)) := by
  obtain ⟨rest, hrest⟩ := sizeBytes_eq_cons str.length
  have hle := sizeByte_le str.length
  have hsize : (BitVec.ofNat 8 (sizeByte str.length)).toNat
      = sizeByte str.length := by
    rw [BitVec.toNat_ofNat, Nat.mod_eq_of_lt (by omega)]
  have hlen := sizeByte_le_size str.length
  rw [packHeader, hrest, toString, if_neg (by simp),
    readAt_byte (Nat.succ_pos _), ok_bind]
  change (do
    let size ← (readAt _ 1 : Result Byte)
    appendBytes _ size.toNat 0 []) = _
  rw [readAt_byte (by simp), ok_bind]
  change appendBytes _ (BitVec.ofNat 8 (sizeByte str.length)).toNat 0 [] = _
  rw [hsize, appendBytes_eq _ _ _ (by simp only [List.cons_append,
    List.length_cons, List.length_append]; omega), slice]
  simp

section
variable {α : Type}

/-- **A list is a beginning of itself behind a header exactly if it repeats
the header.** -/
theorem take_append_eq_self_iff {header l : List α} (h : header ≠ []) :
    (header ++ l).take l.length = l
      ↔ ∀ i < l.length, l[i]? = header[i % header.length]? := by
  have hpos := List.length_pos_iff.mpr h
  constructor
  · intro heq i hi
    -- behind the header, an element is the one a header's length before it
    induction i using Nat.strongRecOn with
    | ind i ih =>
      have hget : l[i]? = (header ++ l)[i]? := by
        conv_lhs => rw [← heq]
        rw [List.getElem?_take, if_pos hi]
      rw [hget]
      by_cases hlt : i < header.length
      · rw [List.getElem?_append_left hlt, Nat.mod_eq_of_lt hlt]
      · rw [List.getElem?_append_right (by omega),
          ih (i - header.length) (by omega) (by omega),
          Nat.mod_eq_sub_mod (a := i) (by omega)]
  · intro hall
    refine List.ext_getElem? (fun i => ?_)
    rw [List.getElem?_take]
    by_cases hi : i < l.length
    · rw [if_pos hi]
      by_cases hlt : i < header.length
      · rw [List.getElem?_append_left hlt, hall i hi, Nat.mod_eq_of_lt hlt]
      · rw [List.getElem?_append_right (by omega), hall i hi,
          hall (i - header.length) (by omega),
          Nat.mod_eq_sub_mod (a := i) (by omega)]
    · rw [if_neg hi, List.getElem?_eq_none (by omega)]

end

/-- **A string that repeats its own header**: it has at most 129 bytes, and
they are, over and over, the tag and the size in front of it. -/
def RepeatsHeader (str : List Byte) : Prop :=
  str.length ≤ 0x81 ∧ ∀ i < str.length, str[i]?
    = (packHeader .string str.length)[
        i % (packHeader .string str.length).length]?

/-- **The round trip of strings and of strings of bytes**: it succeeds
exactly for the strings that repeat their own header, and for no bytes at
all. -/
theorem roundTrip_iff {str data : List Byte}
    (hstr : str.length ≤ 0xFFFFFFFF) (hdata : data.length ≤ 0xFFFFFFFF) :
    ((fromString str >>= toString) = ok str ↔ RepeatsHeader str)
      ∧ ((fromBytes data >>= toBytes) = ok data ↔ data = []) := by
  constructor
  · have hrepeats := take_append_eq_self_iff (l := str)
      (List.cons_ne_nil DataType.string.tag (sizeBytes str.length))
    rw [fromString_eq hstr, ok_bind, toString_packed, Run.ok.injEq,
      RepeatsHeader, ← sizeByte_eq_iff, packHeader, ← hrepeats]
    constructor
    · intro h
      have hlen := congrArg List.length h
      rw [List.length_take, List.length_append,
        Nat.min_eq_left (by have := sizeByte_le_size str.length; omega)]
        at hlen
      exact ⟨hlen, by rwa [hlen] at h⟩
    · rintro ⟨hlen, h⟩
      rwa [hlen]
  · rw [fromBytes_eq hdata, ok_bind, toBytes, pure_eq, Run.ok.injEq, eq_comm]

/-- The string of one newline, whose byte is the tag of a string, comes back;
as a string of bytes it does not. -/
theorem roundTrip_iff_newline :
    (fromString [0x0A] >>= toString) = ok [0x0A]
      ∧ (fromBytes [0x0A] >>= toBytes) ≠ ok [0x0A] := by
  obtain ⟨hstr, hdata⟩ := roundTrip_iff
    (show ([0x0A] : List Byte).length ≤ 0xFFFFFFFF by decide)
    (show ([0x0A] : List Byte).length ≤ 0xFFFFFFFF by decide)
  refine ⟨hstr.mpr ⟨by decide, by decide⟩, fun h => ?_⟩
  exact List.cons_ne_nil _ _ (hdata.mp h)

/-- The string `A` comes back as a newline. -/
theorem toString_fromString_letter :
    (fromString [0x41] >>= toString) = ok [0x0A]
      ∧ (fromString [0x41] >>= toString) ≠ ok [0x41] := by
  decide

/-! ## What is read on the way -/

/-- The loop runs over the end of a buffer that has fewer bytes than turns
are left. -/
theorem appendBytes_of_lt {buffer : List Byte} (count i : ℕ)
    (retval : List Byte) (hi : i ≤ buffer.length)
    (h : buffer.length < i + count) :
    appendBytes buffer count i retval = fault .outOfBounds := by
  induction count generalizing i retval with
  | zero => exact absurd h (by omega)
  | succ count ih =>
    by_cases hlt : i < buffer.length
    · rw [appendBytes, readAt_byte hlt, ok_bind]
      exact ih _ _ hlt (by omega)
    · have hread : (readAt buffer i : Result Byte) = fault .outOfBounds := by
        rw [readAt, List.getElem?_eq_none (by omega)]
      rw [appendBytes, hread]
      rfl

/-- **The loop stays inside the buffer exactly if the buffer has a byte for
every turn.** -/
theorem appendBytes_clean_iff (buffer : List Byte) (count : ℕ)
    (retval : List Byte) :
    Clean (appendBytes buffer count 0 retval) ↔ count ≤ buffer.length := by
  constructor
  · intro h
    by_contra hlt
    exact h .outOfBounds
      (appendBytes_of_lt count 0 retval (Nat.zero_le _) (by omega))
  · intro h
    rw [appendBytes_eq count 0 retval (by omega)]
    exact clean_ok _

/-- **`to_string` stays inside its input exactly if the input is no string,
or has as many bytes as its length byte says.** A number is not read before
its bytes are counted; of a string the length byte is believed. -/
theorem toString_clean_iff (buffer : List Byte) :
    Clean (toString buffer)
      ↔ (2 ≤ buffer.length → byteAt buffer 0 = 0x0A →
          (byteAt buffer 1).toNat ≤ buffer.length) := by
  unfold toString
  by_cases hlen : buffer.length < 2
  · rw [if_pos hlen]
    exact ⟨fun _ h => absurd h (by omega), fun _ => clean_ok _⟩
  rw [if_neg hlen, readAt_byte (by omega), ok_bind]
  by_cases hnumber : byteAt buffer 0 = 0x06
  · have hne : byteAt buffer 0 ≠ 0x0A := by
      rw [hnumber]
      decide
    rw [if_pos hnumber]
    refine ⟨fun _ _ h => absurd h hne, fun _ => ?_⟩
    -- the four bytes of a number are there when they are read
    by_cases hfive : buffer.length < 5
    · rw [if_pos hfive]
      exact clean_throws _
    · rw [if_neg hfive, readAt_byte (by omega), ok_bind,
        readAt_byte (by omega), ok_bind, readAt_byte (by omega), ok_bind,
        readAt_byte (by omega), ok_bind]
      exact clean_ok _
  rw [if_neg hnumber]
  by_cases hstring : byteAt buffer 0 = 0x0A
  · rw [if_pos hstring, readAt_byte (by omega), ok_bind,
      appendBytes_clean_iff]
    exact ⟨fun h _ _ => h, fun h => h (by omega) hstring⟩
  · rw [if_neg hstring]
    exact ⟨fun _ _ h => absurd h hstring, fun _ => clean_ok _⟩

/-- A string that claims five bytes and brings one. -/
theorem toString_truncated : ¬ Clean (toString [0x0A, 0x05, 0x41]) :=
  fun h => h .outOfBounds (by decide)

end Dlms
