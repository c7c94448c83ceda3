import Mathlib.Tactic.NormNum.Prime
import Yadi.Bytes
import Yadi.CrcRegister

/-!
# The frame check sequence

`checksequenceCalc` is the table-driven checksum of the frame layer, and
`fcs` the check sequence it is meant to compute: the CRC register of width
16 with feedback word `0x8408`, started at all ones, fed the bits of the
bytes least significant first, and complemented at the end. The two agree on
every range of every buffer (`checksequenceCalc_eq`), because each entry of
the literal table is the eight-fold shift of its index (`table_entry`).

The feedback word is `X ^ 16 + X ^ 12 + X ^ 5 + 1`. `X` has order 32767
modulo it, which with its two other properties makes `fcsCode`, the
detection power every frame check in the library rests on.
-/

namespace Dlms.Hdlc

open Run CrcRegister

/-- The table of `checksequence_calc`. -/
def table : List Word :=
  [0x0000, 0x1189, 0x2312, 0x329B, 0x4624, 0x57AD, 0x6536, 0x74BF,
   0x8C48, 0x9DC1, 0xAF5A, 0xBED3, 0xCA6C, 0xDBE5, 0xE97E, 0xF8F7,
   0x1081, 0x0108, 0x3393, 0x221A, 0x56A5, 0x472C, 0x75B7, 0x643E,
   0x9CC9, 0x8D40, 0xBFDB, 0xAE52, 0xDAED, 0xCB64, 0xF9FF, 0xE876,
   0x2102, 0x308B, 0x0210, 0x1399, 0x6726, 0x76AF, 0x4434, 0x55BD,
   0xAD4A, 0xBCC3, 0x8E58, 0x9FD1, 0xEB6E, 0xFAE7, 0xC87C, 0xD9F5,
   0x3183, 0x200A, 0x1291, 0x0318, 0x77A7, 0x662E, 0x54B5, 0x453C,
   0xBDCB, 0xAC42, 0x9ED9, 0x8F50, 0xFBEF, 0xEA66, 0xD8FD, 0xC974,
   0x4204, 0x538D, 0x6116, 0x709F, 0x0420, 0x15A9, 0x2732, 0x36BB,
   0xCE4C, 0xDFC5, 0xED5E, 0xFCD7, 0x8868, 0x99E1, 0xAB7A, 0xBAF3,
   0x5285, 0x430C, 0x7197, 0x601E, 0x14A1, 0x0528, 0x37B3, 0x263A,
   0xDECD, 0xCF44, 0xFDDF, 0xEC56, 0x98E9, 0x8960, 0xBBFB, 0xAA72,
   0x6306, 0x728F, 0x4014, 0x519D, 0x2522, 0x34AB, 0x0630, 0x17B9,
   0xEF4E, 0xFEC7, 0xCC5C, 0xDDD5, 0xA96A, 0xB8E3, 0x8A78, 0x9BF1,
   0x7387, 0x620E, 0x5095, 0x411C, 0x35A3, 0x242A, 0x16B1, 0x0738,
   0xFFCF, 0xEE46, 0xDCDD, 0xCD54, 0xB9EB, 0xA862, 0x9AF9, 0x8B70,
   0x8408, 0x9581, 0xA71A, 0xB693, 0xC22C, 0xD3A5, 0xE13E, 0xF0B7,
   0x0840, 0x19C9, 0x2B52, 0x3ADB, 0x4E64, 0x5FED, 0x6D76, 0x7CFF,
   0x9489, 0x8500, 0xB79B, 0xA612, 0xD2AD, 0xC324, 0xF1BF, 0xE036,
   0x18C1, 0x0948, 0x3BD3, 0x2A5A, 0x5EE5, 0x4F6C, 0x7DF7, 0x6C7E,
   0xA50A, 0xB483, 0x8618, 0x9791, 0xE32E, 0xF2A7, 0xC03C, 0xD1B5,
   0x2942, 0x38CB, 0x0A50, 0x1BD9, 0x6F66, 0x7EEF, 0x4C74, 0x5DFD,
   0xB58B, 0xA402, 0x9699, 0x8710, 0xF3AF, 0xE226, 0xD0BD, 0xC134,
   0x39C3, 0x284A, 0x1AD1, 0x0B58, 0x7FE7, 0x6E6E, 0x5CF5, 0x4D7C,
   0xC60C, 0xD785, 0xE51E, 0xF497, 0x8028, 0x91A1, 0xA33A, 0xB2B3,
   0x4A44, 0x5BCD, 0x6956, 0x78DF, 0x0C60, 0x1DE9, 0x2F72, 0x3EFB,
   0xD68D, 0xC704, 0xF59F, 0xE416, 0x90A9, 0x8120, 0xB3BB, 0xA232,
   0x5AC5, 0x4B4C, 0x79D7, 0x685E, 0x1CE1, 0x0D68, 0x3FF3, 0x2E7A,
   0xE70E, 0xF687, 0xC41C, 0xD595, 0xA12A, 0xB0A3, 0x8238, 0x93B1,
   0x6B46, 0x7ACF, 0x4854, 0x59DD, 0x2D62, 0x3CEB, 0x0E70, 0x1FF9,
   0xF78F, 0xE606, 0xD49D, 0xC514, 0xB1AB, 0xA022, 0x92B9, 0x8330,
   0x7BC7, 0x6A4E, 0x58D5, 0x495C, 0x3DE3, 0x2C6A, 0x1EF1, 0x0F78]

/-- The loop `while (size--)` of `checksequence_calc`, reading on from
position `data`. -/
def checksequenceLoop (buffer : List Byte) :
    (size data : ℕ) → (fcs : Word) → Result Word
  | 0, _, fcs => pure fcs
  | size + 1, data, fcs => do
    let byte ← readAt buffer data
    let entry ← readAt table ((fcs ^^^ byte.setWidth 16) &&& 0xFF).toNat
    checksequenceLoop buffer size (data + 1) ((fcs >>> 8) ^^^ entry)

/-- `checksequence_calc(&buffer[data], size)`. -/
def checksequenceCalc (buffer : List Byte) (data size : ℕ) : Result Word := do
  let fcs ← checksequenceLoop buffer size data 0xFFFF
  return ~~~fcs

/-- The generator of the check sequence without its leading coefficient,
reflected. -/
def feedback : Word := 0x8408

/-- **The frame check sequence of a string of bytes**, bit by bit. -/
def fcs (bytes : List Byte) : Word :=
  ~~~(feed feedback 0xFFFF (stringBits bytes))

/-! ## The table -/

/-- **Every entry of the table is the eight-fold shift of its index.** -/
theorem table_entry (i : Byte) :
    table[i.toNat]? = some ((shift feedback)^[8] (i.setWidth 16)) := by
  revert i
  decide +kernel

/-- The index the loop looks up is a byte. -/
theorem and_mask_eq_setWidth (r : Word) :
    r &&& (BitVec.allOnes 8).setWidth 16 = (r.setWidth 8).setWidth 16 := by
  refine BitVec.eq_of_getLsbD_eq (fun i hi => ?_)
  rw [BitVec.getLsbD_and, BitVec.getLsbD_setWidth, BitVec.getLsbD_allOnes,
    BitVec.getLsbD_setWidth, BitVec.getLsbD_setWidth]
  by_cases h : i < 8
  · simp [h, hi]
  · simp [h]

/-- **One turn of the loop takes in one byte.** -/
theorem readAt_table (r : Word) (byte : Byte) :
    ∃ entry, (readAt table ((r ^^^ byte.setWidth 16) &&& 0xFF).toNat
        : Result Word) = ok entry
      ∧ (r >>> 8) ^^^ entry = feed feedback r (symbolBits byte) := by
  have hmask : (r ^^^ byte.setWidth 16) &&& 0xFF
      = ((r ^^^ byte.setWidth 16).setWidth 8).setWidth 16 :=
    and_mask_eq_setWidth _
  have hentry := table_entry ((r ^^^ byte.setWidth 16).setWidth 8)
  refine ⟨_, ?_, (feed_symbolBits_table (by decide) (by decide) feedback r
    byte).symm⟩
  rw [and_mask_eq_setWidth, hmask, readAt, BitVec.toNat_setWidth_of_le
    (by decide), hentry]

/-- **The loop is the register fed the bytes it reads.** -/
theorem checksequenceLoop_eq (buffer : List Byte) (size data : ℕ) (r : Word)
    (h : data + size ≤ buffer.length) :
    checksequenceLoop buffer size data r
      = ok (feed feedback r (stringBits (slice buffer data (data + size)))) := by
  induction size generalizing data r with
  | zero => simp [checksequenceLoop, slice, stringBits]
  | succ size ih =>
    obtain ⟨entry, hread, hfeed⟩ := readAt_table r (byteAt buffer data)
    rw [checksequenceLoop, readAt_byte (by omega), ok_bind, hread, ok_bind,
      hfeed, ih _ _ (by omega),
      slice_succ (show data < data + (size + 1) by omega) (by omega),
      show data + 1 + size = data + (size + 1) by omega, stringBits,
      stringBits, List.flatMap_cons, feed_append]

/-- **The table-driven checksum is the frame check sequence** of the bytes
it is pointed at. -/
theorem checksequenceCalc_eq {buffer : List Byte} {data size : ℕ}
    (h : data + size ≤ buffer.length) :
    checksequenceCalc buffer data size
      = ok (fcs (slice buffer data (data + size))) := by
  rw [checksequenceCalc, checksequenceLoop_eq _ _ _ _ h]
  rfl

/-! ## The residue of a checked string -/

/-- The register after a string of bytes followed by its check sequence, low
byte first. -/
def residue : Word := 0xF0B8

theorem xor_not_self (r : Word) : r ^^^ ~~~r = 0xFFFF := by
  rw [← BitVec.not_xor_right, BitVec.xor_self]
  rfl

/-- **A string followed by its check sequence leaves the residue**, whatever
the string. -/
theorem feed_of_fcs_eq {bytes : List Byte} {hi lo : Byte}
    (h : (hi ++ lo : Word) = fcs bytes) :
    feed feedback 0xFFFF (stringBits (bytes ++ [lo, hi])) = residue := by
  have htail : stringBits [lo, hi] = symbolBits (hi ++ lo : Word) := by
    rw [symbolBits_append]
    simp [stringBits]
  rw [stringBits_append, feed_append, htail,
    feed_symbolBits (by decide) (by decide), h, fcs, BitVec.setWidth_eq,
    xor_not_self]
  decide +kernel

/-- The loop over a string that stands in a buffer. -/
theorem checksequenceLoop_middle (front bytes back : List Byte) (r : Word) :
    checksequenceLoop (front ++ bytes ++ back) bytes.length front.length r
      = ok (feed feedback r (stringBits bytes)) := by
  have hlen : front.length + bytes.length ≤ (front ++ bytes ++ back).length := by
    rw [List.length_append, List.length_append]
    exact Nat.le_add_right _ _
  rw [checksequenceLoop_eq _ _ _ _ hlen, slice_append_middle]

/-- **The table-driven checksum is the frame check sequence** of any string
that a 16-bit size can count, wherever it stands in a buffer; and the string
and its check sequence together leave the residue, in the loop as in the
register of bits. -/
theorem checksequenceCalc_isFcs (front bytes back : List Byte)
    (h : bytes.length ≤ 65535) :
    checksequenceCalc (front ++ bytes ++ back) front.length
        (bytes.length % 2 ^ 16) = ok (fcs bytes)
      ∧ feed (0x8408 : Word) 0xFFFF (stringBits (bytes
          ++ [(fcs bytes).setWidth 8, (fcs bytes >>> 8).setWidth 8])) = 0xF0B8
      ∧ (bytes.length + 2 ≤ 65535 →
          checksequenceLoop (front ++ (bytes
              ++ [(fcs bytes).setWidth 8, (fcs bytes >>> 8).setWidth 8])
              ++ back) ((bytes.length + 2) % 2 ^ 16) front.length 0xFFFF
            = ok 0xF0B8) := by
  have hresidue := feed_of_fcs_eq (append_setWidth (fcs bytes))
  refine ⟨?_, hresidue, fun hfits => ?_⟩
  · rw [Nat.mod_eq_of_lt (by omega), checksequenceCalc,
      checksequenceLoop_middle]
    rfl
  · have hloop := checksequenceLoop_middle front (bytes
      ++ [(fcs bytes).setWidth 8, (fcs bytes >>> 8).setWidth 8]) back 0xFFFF
    rw [List.length_append] at hloop
    rw [Nat.mod_eq_of_lt (by omega)]
    exact hloop.trans (congrArg ok hresidue)

/-- The check string `123456789`. -/
theorem checksequenceCalc_isFcs_digits :
    checksequenceCalc [0x31, 0x32, 0x33, 0x34, 0x35, 0x36, 0x37, 0x38, 0x39] 0 9
        = ok 0x906E
      ∧ checksequenceLoop [0x31, 0x32, 0x33, 0x34, 0x35, 0x36, 0x37, 0x38,
          0x39, 0x6E, 0x90] 11 0 0xFFFF = ok 0xF0B8 := by
  have hfcs : fcs [0x31, 0x32, 0x33, 0x34, 0x35, 0x36, 0x37, 0x38, 0x39]
      = 0x906E := by
    decide +kernel
  obtain ⟨hcalc, -, hloop⟩ := checksequenceCalc_isFcs []
    [0x31, 0x32, 0x33, 0x34, 0x35, 0x36, 0x37, 0x38, 0x39] [] (by decide)
  rw [hfcs] at hcalc hloop
  exact ⟨hcalc, hloop (by decide)⟩

/-! ## The detection power of the check sequence -/

/-- The bits of 32767 and of its quotients by 7, 31 and 151, lowest first. -/
theorem exponent_bits :
    exponent (List.replicate 15 true) = 32767
      ∧ exponent [true, false, false, true, false, false, true, false, false,
          true, false, false, true] = 32767 / 7
      ∧ exponent [true, false, false, false, false, true, false, false, false,
          false, true] = 32767 / 31
      ∧ exponent [true, false, false, true, true, false, true, true]
          = 32767 / 151 := by
  decide

/-- **`X` has order 32767 modulo the generator of the check sequence.** -/
theorem orderOf_root_feedback :
    orderOf (AdjoinRoot.root (generator feedback)) = 32767 := by
  obtain ⟨hn, h7, h31, h151⟩ := exponent_bits
  rw [← hn]
  refine orderOf_root (by decide) (by decide) (by decide +kernel)
    (fun q hq hdvd => ?_)
  rw [hn] at hdvd ⊢
  rw [show 32767 = 7 * 31 * 151 by rfl, hq.dvd_mul, hq.dvd_mul,
    Nat.prime_dvd_prime_iff_eq hq (by norm_num),
    Nat.prime_dvd_prime_iff_eq hq (by norm_num),
    Nat.prime_dvd_prime_iff_eq hq (by norm_num)] at hdvd
  obtain (rfl | rfl) | rfl := hdvd
  · exact ⟨_, h7, by decide +kernel⟩
  · exact ⟨_, h31, by decide +kernel⟩
  · exact ⟨_, h151, by decide +kernel⟩

/-- **The code of the check sequence**: it detects an odd number of flipped
bits, two flipped bits less than 32767 apart, and any flips within 16
consecutive bits. -/
noncomputable def fcsCode : PolyCode.Detecting 16 32767 :=
  detecting feedback (by decide) (by decide) orderOf_root_feedback

end Dlms.Hdlc
