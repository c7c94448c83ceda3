import Yadi.HdlcFrame

/-!
# The grammar of response frames

A response frame is `7E`, a format field, a one-byte client address, a
server address of two or four bytes, a control byte, a header check
sequence, an information field with its own check sequence, and `7E`; a
frame without an information field ends after the header check sequence.
`IsResponseFrame` says so of a buffer byte by byte, with `c` the position of
the control byte, which the width of the server address decides.

`validFrame` checks everything in `Envelope`, that is, all of the grammar but
the header check sequence of a frame with an information field. For that last
check it compares the wrong word: `headerWordRead`, which starts one byte
early, at the control byte, and with the comparison the other way round. So
`validFrame` decides `Accepted` (`validFrame_decides`), and it agrees with
the grammar on a buffer exactly when there is no information field to check
or just one of the two words is the check sequence
(`validFrame_iff_grammar`).
-/

namespace Dlms.Hdlc

open Run

/-! ## The grammar -/

/-- The length a frame declares, the 12 bits after the format type. -/
def lengthField (b : List Byte) : ℕ :=
  (byteAt b 1).toNat % 16 * 256 + (byteAt b 2).toNat

theorem lengthField_lt (b : List Byte) : lengthField b < 4096 := by
  have := (byteAt b 2).isLt
  unfold lengthField
  omega

/-- **A server address in the bytes from 4 up to the control byte at `c`**:
two or four bytes, of which only the last has its low bit set. -/
structure ServerAddress (b : List Byte) (c : ℕ) : Prop where
  width : c = 6 ∨ c = 8
  more : ∀ i, 4 ≤ i → i + 1 < c → (byteAt b i).getLsbD 0 = false
  last : (byteAt b (c - 1)).getLsbD 0 = true

instance (b : List Byte) (c : ℕ) : Decidable (ServerAddress b c) :=
  decidable_of_iff ((c = 6 ∨ c = 8)
      ∧ (∀ i < c - 1, 4 ≤ i → (byteAt b i).getLsbD 0 = false)
      ∧ (byteAt b (c - 1)).getLsbD 0 = true)
    ⟨fun h => ⟨h.1, fun i hi hic => h.2.1 i (by omega) hi, h.2.2⟩,
      fun h => ⟨h.width, fun i hic hi => h.more i hi (by omega), h.last⟩⟩

/-- **A frame up to its header check sequence**, with the control byte at
`c`. -/
structure Envelope (b : List Byte) (c : ℕ) : Prop where
  opening : byteAt b 0 = 0x7E
  closing : byteAt b (b.length - 1) = 0x7E
  /-- The high nibble of the format field. -/
  format : byteAt b 1 >>> 4 = 0xA
  length_eq : lengthField b = b.length - 2
  /-- The last two bytes before the closing flag check all bytes after the
  opening one. -/
  check : leWord b (b.length - 3) = fcs (slice b 1 (b.length - 3))
  /-- The client address is a single byte. -/
  client : (byteAt b 3).getLsbD 0 = true
  server : ServerAddress b c
  /-- The final bit of the control byte. -/
  final : (byteAt b c).getLsbD 4 = true
  /-- There is no information field, or it has at least one byte. -/
  body : b.length = c + 4 ∨ c + 7 ≤ b.length

/-- The two bytes after the control byte check the bytes up to it. -/
def HeaderCheck (b : List Byte) (c : ℕ) : Prop :=
  leWord b (c + 1) = fcs (slice b 1 (c + 1))

/-- **A response frame.** -/
def IsResponseFrame (b : List Byte) : Prop :=
  ∃ c, Envelope b c ∧ (b.length = c + 4 ∨ HeaderCheck b c)

/-- The word `valid_frame` takes for the header check sequence: the control
byte and the low byte of the sequence. -/
def headerWordRead (b : List Byte) (c : ℕ) : Word :=
  byteAt b c ++ byteAt b (c + 1)

/-- **What `validFrame` accepts**, with the control byte at `c`. -/
structure Accepted (b : List Byte) (c : ℕ) : Prop extends Envelope b c where
  header : b.length = c + 4 ∨ headerWordRead b c ≠ fcs (slice b 1 (c + 1))

theorem Envelope.length_le {b : List Byte} {c : ℕ} (h : Envelope b c) :
    c + 4 ≤ b.length := by
  have := h.body
  omega

/-- The position of the control byte is determined by the buffer. -/
theorem ServerAddress.unique {b : List Byte} {c c' : ℕ}
    (h : ServerAddress b c) (h' : ServerAddress b c') : c = c' := by
  have hlt : ∀ {c c' : ℕ}, ServerAddress b c → ServerAddress b c' →
      ¬ c < c' := by
    intro c c' h h' hcc
    have hw := h.width
    have hclear := h'.more (c - 1) (by omega) (by omega)
    rw [h.last] at hclear
    exact Bool.noConfusion hclear
  exact le_antisymm (not_lt.mp (hlt h' h)) (not_lt.mp (hlt h h'))

/-! ## Single checks -/

theorem and_one_eq_iff (x : Byte) : x &&& 0x01 = 0x01 ↔ x.getLsbD 0 = true := by
  revert x
  decide +kernel

theorem and_final_eq_iff (x : Byte) :
    x &&& 0x10 = 0x10 ↔ x.getLsbD 4 = true := by
  revert x
  decide +kernel

theorem and_format_eq_iff (x : Byte) : x &&& 0xF0 = 0xA0 ↔ x >>> 4 = 0xA := by
  revert x
  decide +kernel

/-- The 12-bit length as the code puts it together. -/
theorem lengthField_eq (b : List Byte) :
    ((byteAt b 1 &&& 0x0F).toNat <<< 8 ||| (byteAt b 2).toNat)
      = lengthField b := by
  have hlow : ∀ x : Byte, (x &&& 0x0F).toNat = x.toNat % 16 := by
    decide +kernel
  rw [lengthField, hlow, ← Nat.shiftLeft_add_eq_or_of_lt (byteAt b 2).isLt,
    Nat.shiftLeft_eq]

/-- **The loop of `valid_frame` stops at the first of four bytes with its
low bit set**, or behind them. -/
theorem addrOffset_loop {b : List Byte} (h : 8 ≤ b.length) :
    ∃ a, loop (addrOffsetRound b) b.length 0 = ok a ∧ a ≤ 4
      ∧ (∀ i < a, (byteAt b (i + 4)).getLsbD 0 = false)
      ∧ (a < 4 → (byteAt b (a + 4)).getLsbD 0 = true) := by
  refine loop_returns
    (fun a => a ≤ 4 ∧ ∀ i < a, (byteAt b (i + 4)).getLsbD 0 = false) _
    (fun a => 4 - a) (fun a ha => ?_) _ _ ⟨by omega, by omega⟩ (by omega)
  unfold addrOffsetRound
  by_cases hlt : a < 4
  · rw [if_pos hlt, readAt_byte (by omega), ok_bind]
    by_cases hbit : byteAt b (a + 4) &&& 0x01 ≠ 0x01
    · rw [if_pos hbit, toU16, toUnsigned_of_lt (by omega)]
      refine ⟨_, rfl, ⟨by omega, fun i hi => ?_⟩, Nat.sub_lt_sub_left hlt
        (Nat.lt_succ_self a)⟩
      rcases Nat.lt_succ_iff_lt_or_eq.mp hi with hi | rfl
      · exact ha.2 i hi
      · rw [ne_eq, and_one_eq_iff] at hbit
        simpa using hbit
    · rw [if_neg hbit]
      rw [not_not, and_one_eq_iff] at hbit
      exact ⟨_, rfl, ha.1, ha.2, fun _ => hbit⟩
  · rw [if_neg hlt]
    exact ⟨_, rfl, ha.1, ha.2, fun h => absurd h hlt⟩

/-- Where the loop stops is where the control byte is. -/
theorem addrOffset_iff {b : List Byte} {a : ℕ} (ha : a ≤ 4)
    (hmore : ∀ i < a, (byteAt b (i + 4)).getLsbD 0 = false)
    (hlast : a < 4 → (byteAt b (a + 4)).getLsbD 0 = true) {c : ℕ} :
    ServerAddress b c ↔ c = a + 5 ∧ (a = 1 ∨ a = 3) := by
  have hself : a = 1 ∨ a = 3 → ServerAddress b (a + 5) := by
    intro h
    refine ⟨by omega, fun i hi hic => ?_, hlast (by omega)⟩
    have := hmore (i - 4) (by omega)
    rwa [Nat.sub_add_cancel hi] at this
  constructor
  · intro h
    have hw := h.width
    have hle : ¬ c < a + 5 := fun hlt => by
      have := hmore (c - 5) (by omega)
      rw [show c - 5 + 4 = c - 1 by omega, h.last] at this
      exact Bool.noConfusion this
    have hge : ¬ a + 5 < c := fun hlt => by
      have := h.more (a + 4) (by omega) (by omega)
      rw [hlast (by omega)] at this
      exact Bool.noConfusion this
    omega
  · rintro ⟨rfl, h⟩
    exact hself h

/-! ## What `validFrame` decides -/

/-- **`validFrame` returns on every buffer, and accepts exactly the buffers
of `Accepted`.** -/
theorem validFrame_decides (b : List Byte) :
    Decides (validFrame b) (∃ c, Accepted b c) := by
  unfold validFrame
  refine .check (fun ⟨c, h⟩ => ?_) (fun hsize => ?_)
  · have := h.length_le
    have := h.server.width
    omega
  refine .bind (readAt_byte (by omega)) (.check
    (fun ⟨c, h⟩ => not_not.mpr h.opening) (fun hopening => ?_))
  refine .bind (minus_of_le (by omega)) (.bind (readAt_byte (by omega))
    (.check (fun ⟨c, h⟩ => not_not.mpr h.closing) (fun hclosing => ?_)))
  refine .bind (readAt_byte (by omega)) (.check
    (fun ⟨c, h⟩ => not_not.mpr ((and_format_eq_iff _).mpr h.format))
    (fun hformat => ?_))
  refine .bind (readAt_byte (by omega)) (.bind (readAt_byte (by omega))
    (.bind (minus_of_le (by omega)) ?_))
  rw [lengthField_eq]
  refine .check (fun ⟨c, h⟩ => not_not.mpr h.length_eq) (fun hlength => ?_)
  -- the length field is a number of 12 bits, so the buffer is short
  have hshort : b.length < 4098 := by
    have := lengthField_lt b
    omega
  refine .bind (minus_of_le (by omega)) (.bind (readAt_byte (by omega)) ?_)
  refine .bind (minus_of_le (by omega)) (.bind (readAt_byte (by omega)) ?_)
  refine .bind (minus_of_le (by omega)) (.bind (toUnsigned_of_lt (by omega))
    (.bind (checksequenceCalc_eq (by omega)) ?_))
  rw [shiftLeft_or_eq_append, show 1 + (b.length - 4) = b.length - 3 by omega,
    show b.length - 2 = b.length - 3 + 1 by omega]
  refine .check (fun ⟨c, h⟩ => not_not.mpr h.check) (fun hcheck => ?_)
  refine .bind (readAt_byte (by omega)) (.check
    (fun ⟨c, h⟩ => not_not.mpr ((and_one_eq_iff _).mpr h.client))
    (fun hclient => ?_))
  obtain ⟨a, hloop, ha, hmore, hlast⟩ := addrOffset_loop (b := b) (by omega)
  refine .bind hloop (.check (fun ⟨c, h⟩ => ?_) (fun hodd => ?_))
  · have := (addrOffset_iff ha hmore hlast).mp h.server
    omega
  have hserver : ServerAddress b (a + 5) :=
    (addrOffset_iff ha hmore hlast).mpr ⟨rfl, by omega⟩
  have hpos : ∀ {c}, Accepted b c → c = a + 5 :=
    fun h => h.server.unique hserver
  refine .check (fun ⟨c, h⟩ => ?_) (fun hlong => ?_)
  · have := h.length_le
    have := hpos h
    omega
  refine .bind (readAt_byte (by omega)) (.check (fun ⟨c, h⟩ => ?_)
    (fun hfinal => ?_))
  · rw [not_not, and_final_eq_iff, ← hpos h]
    exact h.final
  refine .bind (minus_of_le (by omega)) (.bind (minus_of_le (by omega)) ?_)
  refine .check (fun ⟨c, h⟩ => ?_) (fun hbody => ?_)
  · have := h.body
    have := hpos h
    omega
  have hframe : Envelope b (a + 5) :=
    { opening := not_not.mp hopening
      closing := not_not.mp hclosing
      format := (and_format_eq_iff _).mp (not_not.mp hformat)
      length_eq := not_not.mp hlength
      check := not_not.mp hcheck
      client := (and_one_eq_iff _).mp (not_not.mp hclient)
      server := hserver
      final := (and_final_eq_iff _).mp (not_not.mp hfinal)
      body := by omega }
  by_cases hinfo : b.length - a - 9 ≠ 0
  · -- the word read starts at the control byte, and has to differ
    rw [if_pos hinfo]
    refine .bind (readAt_byte (by omega)) (.bind (readAt_byte (by omega)) ?_)
    refine .bind (toUnsigned_of_lt (by omega)) (.bind
      (checksequenceCalc_eq (by omega)) (decides_ok ?_))
    rw [shiftLeft_or_eq_append, decide_eq_true_iff, Nat.add_comm 1 (a + 5)]
    constructor
    · exact fun h => ⟨a + 5, hframe, .inr h⟩
    · rintro ⟨c, h⟩
      obtain rfl := hpos h
      exact h.header.resolve_left (by omega)
  · rw [if_neg hinfo]
    exact decides_ok ⟨fun _ => ⟨a + 5, hframe, .inl (by omega)⟩, fun _ => rfl⟩

/-! ## How far that is the grammar -/

theorem validFrame_eq_true_iff (b : List Byte) :
    validFrame b = ok true ↔ ∃ c, Accepted b c :=
  (validFrame_decides b).eq_true_iff

/-- **Where the misread header check sequence does no harm**: the buffer is
no frame up to its header check sequence, or has no information field, or
just one of the two words – the header check sequence and the word read in
its place – is the check sequence of the header. -/
def HeaderReadAgrees (b : List Byte) : Prop :=
  ∀ c, Envelope b c → c + 7 ≤ b.length →
    (headerWordRead b c = fcs (slice b 1 (c + 1)) ↔ ¬ HeaderCheck b c)

/-- **`valid_frame` is the grammar exactly where the misread header check
sequence does no harm.** -/
theorem validFrame_iff_grammar (b : List Byte) :
    (validFrame b = ok true ↔ IsResponseFrame b) ↔ HeaderReadAgrees b := by
  rw [validFrame_eq_true_iff]
  constructor
  · intro h c hc hinfo
    have hread : (∃ c, Accepted b c)
        ↔ headerWordRead b c ≠ fcs (slice b 1 (c + 1)) := by
      constructor
      · rintro ⟨c', h'⟩
        obtain rfl := hc.server.unique h'.server
        exact h'.header.resolve_left (by omega)
      · exact fun h' => ⟨c, hc, .inr h'⟩
    have hright : IsResponseFrame b ↔ HeaderCheck b c := by
      constructor
      · rintro ⟨c', hc', h'⟩
        obtain rfl := hc.server.unique hc'.server
        exact h'.resolve_left (by omega)
      · exact fun h' => ⟨c, hc, .inr h'⟩
    rw [hread, hright] at h
    rw [← h, not_not]
  · intro h
    refine exists_congr (fun c => ⟨fun h' => ⟨h'.toEnvelope, ?_⟩,
      fun h' => ⟨h'.1, ?_⟩⟩)
    · rcases h'.body with hbody | hbody
      · exact .inl hbody
      · have hne := h'.header.resolve_left (by omega)
        rw [ne_eq, h c h'.toEnvelope hbody, not_not] at hne
        exact .inr hne
    · rcases h'.1.body with hbody | hbody
      · exact .inl hbody
      · have hcheck := h'.2.resolve_left (by omega)
        exact .inr (fun heq => (h c h'.1 hbody).mp heq hcheck)

/-- A UA frame with three information bytes and zeros for its header check
sequence. -/
def wrongHeaderFrame : List Byte :=
  [0x7E, 0xA0, 0x0F, 0x03, 0x00, 0x02, 0xFE, 0xFF, 0x73, 0x00, 0x00, 0x80,
    0x81, 0x00, 0x63, 0xFC, 0x7E]

/-- `valid_frame` accepts it, and it is no response frame. -/
theorem validFrame_wrongHeaderFrame :
    ¬ (validFrame wrongHeaderFrame = ok true
      ↔ IsResponseFrame wrongHeaderFrame) := by
  have haccept : validFrame wrongHeaderFrame = ok true := by decide +kernel
  have hserver : ServerAddress wrongHeaderFrame 8 := by decide
  intro h
  obtain ⟨c, hc, hcheck⟩ := h.mp haccept
  obtain rfl := hc.server.unique hserver
  rcases hcheck with hlen | hcheck
  · exact absurd hlen (by decide)
  · exact absurd hcheck (by unfold HeaderCheck; decide +kernel)

end Dlms.Hdlc
