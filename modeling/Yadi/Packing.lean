import Yadi.Ber
import Yadi.DataType

/-!
# Sizes and packed values

`writeSize` writes a size in one of five forms. All but one size are the
definite length of BER, in as few bytes as that has for them: the form of a
single byte reaches one too far, so that 128 is the byte `80`, which is no
definite length (`writeSize_writesLength_iff`).

Nothing is lost by that. The byte `80` begins no other size, so whoever knows
this encoder can read its sizes (`readSize_sizeBytes`), and a packed string
or string of bytes ends where its size says. So what is packed can be taken
apart again, whatever stands behind it (`packed_selfDelimiting`), and a
sequence of packed values has one reading only (`items_unique`).
-/

namespace Dlms

open Run Ber

/-! ## Sizes are lengths, but for one -/

/-- The first byte of a size, and as many bytes of the size as it says. -/
theorem sizeBytes_eq (size : ℕ) :
    sizeBytes size = BitVec.ofNat 8 (sizeByte size)
      :: toOctets (sizeByte size - 128) size := by
  rw [sizeBytes, sizeByte]
  split_ifs with h
  · rw [Nat.sub_eq_zero_of_le h]
    rfl
  · rfl
  · rfl
  · rfl
  · rfl

/-- A size above 128 has as many bytes as it needs in base 256, and no
fewer would do. -/
theorem sizeByte_tight {size : ℕ} (hlong : 0x80 < size)
    (hsize : size ≤ 0xFFFFFFFF) :
    0 < sizeByte size - 128 ∧ sizeByte size - 128 < 128
      ∧ size < 256 ^ (sizeByte size - 128)
      ∧ ∀ k, size < 256 ^ k → sizeByte size - 128 ≤ k := by
  have hfits : ∀ {j k : ℕ}, 256 ^ j ≤ size → size < 256 ^ k → j < k := by
    intro j k hj hk
    exact (Nat.pow_lt_pow_iff_right (show 1 < 256 by decide)).mp
      (Nat.lt_of_le_of_lt hj hk)
  unfold sizeByte
  split_ifs with h1 h2 h3 h4
  · omega
  · refine ⟨by decide, by decide, by omega, fun k hk => ?_⟩
    exact hfits (j := 0) (by omega) hk
  · refine ⟨by decide, by decide, by omega, fun k hk => ?_⟩
    exact hfits (j := 1) (by omega) hk
  · refine ⟨by decide, by decide, by omega, fun k hk => ?_⟩
    exact hfits (j := 2) (by omega) hk
  · refine ⟨by decide, by decide, by omega, fun k hk => ?_⟩
    exact hfits (j := 3) (by omega) hk

/-- **Every size but 128 is a definite length**, whatever stands behind it. -/
theorem readLength_sizeBytes {size : ℕ} (h : size ≠ 0x80)
    (hsize : size ≤ 0xFFFFFFFF) (rest : List Byte) :
    readLength (sizeBytes size ++ rest) = some (size, rest) := by
  rw [sizeBytes_eq, List.cons_append]
  by_cases hlong : 0x80 < size
  · obtain ⟨hpos, hlt, hbound, -⟩ := sizeByte_tight hlong hsize
    rw [show sizeByte size = 128 + (sizeByte size - 128) by omega,
      Nat.add_sub_cancel_left]
    exact readLength_long hpos hlt hbound rest
  · have hbyte : sizeByte size = size := if_pos (by omega)
    rw [hbyte, Nat.sub_eq_zero_of_le (by omega)]
    exact readLength_short (by omega) rest

/-- The size 128 is not. -/
theorem readLength_sizeBytes_128 (rest : List Byte) :
    readLength (sizeBytes 0x80 ++ rest) = none := rfl

/-- **No definite length is shorter than the size.** -/
theorem length_sizeBytes_le {size : ℕ} (hsize : size ≤ 0xFFFFFFFF)
    {b : List Byte} (h : readLength b = some (size, [])) :
    (sizeBytes size).length ≤ b.length := by
  rw [sizeBytes_eq, List.length_cons, length_toOctets]
  by_cases hlong : 0x80 < size
  · obtain ⟨-, -, -, htight⟩ := sizeByte_tight hlong hsize
    rcases readLength_length h with ⟨-, hshort⟩ | ⟨k, hlen, hk⟩
    · omega
    · have := htight k hk
      omega
  · have hbyte : sizeByte size = size := if_pos (by omega)
    rcases readLength_length h with ⟨hlen, -⟩ | ⟨k, hlen, -⟩ <;> omega

/-- **`write_size` writes a definite length**: it appends bytes that are read
as the size and nothing else, as few as there are for it, and a size it
cannot write is refused. -/
structure WritesLength (size : ℕ) (buffer : List Byte) : Prop where
  writes : size ≤ 0xFFFFFFFF → ∃ bytes,
    writeSize size buffer = (ok (), buffer ++ bytes)
      ∧ (∀ rest, readLength (bytes ++ rest) = some (size, rest))
      ∧ ∀ b, readLength b = some (size, []) → bytes.length ≤ b.length
  refuses : 0xFFFFFFFF < size →
    ∃ e, writeSize size buffer = (throws e, buffer)

/-- **`write_size` writes a definite length for every size but 128.** -/
theorem writeSize_writesLength_iff (size : ℕ) (buffer : List Byte) :
    WritesLength size buffer ↔ size ≠ 0x80 := by
  constructor
  · rintro ⟨hwrites, -⟩ rfl
    obtain ⟨bytes, hbytes, hread, -⟩ := hwrites (by decide)
    rw [writeSize_eq (by decide), Prod.mk.injEq, List.append_right_inj]
      at hbytes
    rw [← hbytes.2] at hread
    exact absurd (hread []) (by rw [readLength_sizeBytes_128]; nofun)
  · intro h
    refine ⟨fun hsize => ⟨sizeBytes size, writeSize_eq hsize buffer,
      readLength_sizeBytes h hsize, fun b => length_sizeBytes_le hsize⟩,
      fun hsize => ⟨.runtimeError "size os too big", ?_⟩⟩
    rw [writeSize, if_pos hsize]
    rfl

/-- The size 128 is written as the byte `80`. -/
theorem writeSize_128 :
    writeSize 128 [] = (ok (), [0x80]) ∧ readLength [0x80] = none
      ∧ ¬ WritesLength 128 [] := by
  refine ⟨rfl, rfl, fun h => ?_⟩
  obtain ⟨bytes, hbytes, hread, -⟩ := h.writes (by decide)
  rw [writeSize_eq (by decide), Prod.mk.injEq] at hbytes
  rw [← (List.append_right_inj _).mp hbytes.2] at hread
  exact absurd (hread []) nofun

/-! ## What is packed can be taken apart -/

/-- **A size as `write_size` writes it**: a definite length, or the byte
`80`. -/
def readSize : List Byte → Option (ℕ × List Byte)
  | [] => none
  | x :: rest => if x = 0x80 then some (0x80, rest) else readLength (x :: rest)

/-- The first byte of a size is `80` for the size 128 only. -/
theorem sizeByte_eq_128_iff (size : ℕ) :
    BitVec.ofNat 8 (sizeByte size) = 0x80 ↔ size = 0x80 := by
  have hle := sizeByte_le size
  rw [← BitVec.toNat_inj, BitVec.toNat_ofNat, Nat.mod_eq_of_lt (by omega)]
  change sizeByte size = 0x80 ↔ _
  unfold sizeByte
  split_ifs <;> omega

/-- **A size is read back**, whatever stands behind it. -/
theorem readSize_sizeBytes {size : ℕ} (hsize : size ≤ 0xFFFFFFFF)
    (rest : List Byte) :
    readSize (sizeBytes size ++ rest) = some (size, rest) := by
  by_cases h : size = 0x80
  · rw [h]
    rfl
  · have hread := readLength_sizeBytes h hsize rest
    rw [sizeBytes_eq, List.cons_append] at hread ⊢
    rw [readSize, if_neg (mt (sizeByte_eq_128_iff size).mp h)]
    exact hread

/-- **A value that can be packed**, with a tag it is packed under. -/
@[ext]
structure Item where
  tag : DataType
  value : List Byte
  tag_eq : tag = .octetString ∨ tag = .string
  length_le : value.length ≤ 0xFFFFFFFF

/-- The bytes it is packed into. -/
def Item.bytes (x : Item) : List Byte :=
  packHeader x.tag x.value.length ++ x.value

/-- **`from_string` and `from_bytes` pack alike.** -/
theorem Item.pack_eq (x : Item) :
    fromString x.value x.tag = ok x.bytes
      ∧ fromBytes x.value x.tag = ok x.bytes := by
  have hpack := packSizedType_eq x.tag x.length_le
  obtain ⟨tag, value, rfl | rfl, hlen⟩ := x
  · exact ⟨hpack, hpack⟩
  · exact ⟨hpack, hpack⟩

/-- **A packed value ends where its size says**: what stands in front of it
and behind it can be told apart. -/
theorem Item.bytes_append_inj {x y : Item} {r s : List Byte}
    (h : x.bytes ++ r = y.bytes ++ s) : x = y ∧ r = s := by
  rw [Item.bytes, Item.bytes, packHeader, packHeader, List.append_assoc,
    List.append_assoc, List.cons_append, List.cons_append, List.cons.injEq]
    at h
  obtain ⟨htag, hbytes⟩ := h
  -- both sides are read as the same size, and so as the same value
  have hread := readSize_sizeBytes x.length_le (x.value ++ r)
  rw [hbytes, readSize_sizeBytes y.length_le, Option.some.injEq,
    Prod.mk.injEq] at hread
  obtain ⟨hvalue, hrest⟩ := List.append_inj hread.2 hread.1
  refine ⟨Item.ext ?_ hvalue.symm, hrest.symm⟩
  obtain ht | ht := x.tag_eq <;> obtain hu | hu := y.tag_eq
  all_goals rw [ht, hu] at htag ⊢
  all_goals exact absurd htag (by decide)

/-- **What is packed is self-delimiting.** If two packed values, each with
some bytes behind it, are the same, then so are their tags, the values and
the bytes behind. -/
theorem packed_selfDelimiting {a b : List Byte} {t u : DataType}
    (ha : a.length ≤ 0xFFFFFFFF) (hb : b.length ≤ 0xFFFFFFFF)
    (ht : t = .octetString ∨ t = .string)
    (hu : u = .octetString ∨ u = .string) (r s : List Byte) :
    ∃ x y, (fromString a t = ok x ∧ fromBytes a t = ok x)
      ∧ (fromString b u = ok y ∧ fromBytes b u = ok y)
      ∧ (x ++ r = y ++ s → t = u ∧ a = b ∧ r = s) := by
  refine ⟨_, _, Item.pack_eq ⟨t, a, ht, ha⟩, Item.pack_eq ⟨u, b, hu, hb⟩,
    fun h => ?_⟩
  obtain ⟨hitem, hrest⟩ := Item.bytes_append_inj h
  obtain ⟨htag, hvalue⟩ := Item.mk.injEq .. ▸ hitem
  exact ⟨htag, hvalue, hrest⟩

/-- The string `A` and the one byte `41` are packed differently. -/
theorem packed_selfDelimiting_letter :
    ∃ x y, fromString [0x41] = ok x ∧ fromBytes [0x41] = ok y
      ∧ x ++ [0x00] ≠ y ++ [0x00] := by
  obtain ⟨x, y, ⟨hx, -⟩, ⟨-, hy⟩, hinj⟩ := packed_selfDelimiting
    (show ([0x41] : List Byte).length ≤ 0xFFFFFFFF by decide)
    (show ([0x41] : List Byte).length ≤ 0xFFFFFFFF by decide)
    (show DataType.string = .octetString ∨ DataType.string = .string
      from .inr rfl)
    (show DataType.octetString = .octetString ∨ DataType.octetString = .string
      from .inl rfl) [0x00] [0x00]
  exact ⟨x, y, hx, hy, fun h => absurd (hinj h).1 (by decide)⟩

/-- **A sequence of packed values has one reading only.** -/
theorem items_unique {xs ys : List Item}
    (h : xs.flatMap Item.bytes = ys.flatMap Item.bytes) : xs = ys := by
  induction xs generalizing ys with
  | nil =>
    cases ys with
    | nil => rfl
    | cons y ys => exact absurd h nofun
  | cons x xs ih =>
    cases ys with
    | nil => exact absurd h nofun
    | cons y ys =>
      rw [List.flatMap_cons, List.flatMap_cons] at h
      obtain ⟨rfl, hrest⟩ := Item.bytes_append_inj h
      rw [ih hrest]

end Dlms
