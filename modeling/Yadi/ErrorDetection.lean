import Yadi.FrameParse

/-!
# Errors the frame parser detects

Between the flags every bit of a frame is covered by its final check
sequence, which is sent after the bytes it covers, low byte first. So the
register that has taken in everything between the flags holds one fixed
residue in every accepted frame (`Envelope.feed_eq_residue`), and a
disturbance that the parser overlooks is one the register overlooks. The
length field bounds what is covered to 4095 bytes, 32760 bits, which is just
below the order of the generator, so that two flipped bits are always close
enough to be detected.

A disturbance of a flag needs no check sequence: two accepted frames of one
length have the same flags.
-/

namespace Dlms.Hdlc

open Run CrcRegister

/-- **The bits in which two buffers differ**, numbered in transmission
order. -/
def errorBits (b b' : List Byte) : Finset ℕ :=
  differ (stringBits b) (stringBits b')

/-- Bit `i` is bit `i % 8` of byte `i / 8`, the lowest bit first. -/
theorem mem_errorBits {b b' : List Byte} (hlen : b'.length = b.length)
    (i : ℕ) : i ∈ errorBits b b' ↔ i < 8 * b.length
      ∧ (byteAt b (i / 8)).getLsbD (i % 8)
        ≠ (byteAt b' (i / 8)).getLsbD (i % 8) := by
  have hbit : ∀ b : List Byte, i < 8 * b.length →
      (stringBits b)[i]? = some ((byteAt b (i / 8)).getLsbD (i % 8)) := by
    intro b hi
    rw [getElem?_stringBits (by decide), byteAt, List.getD_eq_getElem?_getD,
      List.getElem?_eq_getElem (by omega)]
    rfl
  rw [errorBits, mem_differ, length_stringBits]
  refine and_congr_right (fun hi => not_congr ?_)
  rw [hbit b hi, hbit b' (hlen ▸ hi), Option.some.injEq]

/-- **A line error**: one flipped bit, two, an odd number, or any within 16
consecutive bits. -/
inductive LineError (E : Finset ℕ) : Prop
  | single (h : E.card = 1)
  | double (h : E.card = 2)
  | odd (h : Odd E.card)
  | burst (hE : E.Nonempty) (s : ℕ) (h : ∀ i ∈ E, s ≤ i ∧ i < s + 16)

/-- Line errors within `N` bits are detectable, wherever they start. -/
theorem LineError.detectable {N s : ℕ} {E : Finset ℕ}
    (h : LineError (E.image (s + ·))) (hN : ∀ i ∈ E, i < N) :
    PolyCode.Detectable 16 N E := by
  have hcard : (E.image (s + ·)).card = E.card :=
    Finset.card_image_of_injective E (add_right_injective s)
  cases h with
  | single h => exact .odd (by rw [← hcard, h]; exact odd_one)
  | double h =>
    rw [hcard, Finset.card_eq_two] at h
    obtain ⟨i, j, hij, rfl⟩ := h
    have hi := hN i (by simp)
    have hj := hN j (by simp)
    rcases lt_or_gt_of_ne hij with hlt | hlt
    · exact .pair i j hlt (by omega) rfl
    · exact .pair j i hlt (by omega) (Finset.pair_comm i j)
  | odd h => exact .odd (by rwa [hcard] at h)
  | burst hne t h =>
    refine .burst (Finset.image_nonempty.mp hne) (t - s) (fun i hi => ?_)
    have := h (s + i) (Finset.mem_image_of_mem _ hi)
    omega

/-- A frame is its two flags and what stands between them. -/
theorem Envelope.eq_flags {b : List Byte} {c : ℕ} (h : Envelope b c) :
    [0x7E] ++ slice b 1 (b.length - 1) ++ [0x7E] = b := by
  have hlen := h.length_le
  have hfirst := slice_singleton (b := b) (i := 0) (by omega)
  have hlast := slice_singleton (b := b) (i := b.length - 1) (by omega)
  rw [h.opening] at hfirst
  rw [h.closing, Nat.sub_add_cancel (by omega)] at hlast
  conv_rhs => rw [← slice_length b]
  rw [← slice_append_slice (b := b) (Nat.zero_le 1) (by omega),
    ← slice_append_slice (b := b) (i := 1) (j := b.length - 1) (by omega)
      (Nat.sub_le _ _), hlast, ← hfirst, List.append_assoc]

/-- **What stands between the flags leaves the residue in the register.** -/
theorem Envelope.feed_eq_residue {b : List Byte} {c : ℕ} (h : Envelope b c) :
    feed feedback 0xFFFF (stringBits (slice b 1 (b.length - 1))) = residue := by
  have hlen := h.length_le
  have hw := h.server.width
  have htail : slice b (b.length - 3) (b.length - 1)
      = [byteAt b (b.length - 3), byteAt b (b.length - 3 + 1)] := by
    rw [slice_succ (by omega) (by omega),
      show b.length - 1 = b.length - 3 + 1 + 1 by omega,
      slice_singleton (by omega)]
  rw [← slice_append_slice (i := 1) (j := b.length - 3) (by omega) (by omega),
    htail]
  exact feed_of_fcs_eq h.check

/-- Two frames of one length differ between their flags, if at all. -/
theorem errorBits_eq {b b' : List Byte} {c c' : ℕ} (h : Envelope b c)
    (h' : Envelope b' c') (hlen : b'.length = b.length) :
    errorBits b b'
      = (differ (stringBits (slice b 1 (b.length - 1)))
          (stringBits (slice b' 1 (b.length - 1)))).image (8 + ·) := by
  have hb := h.eq_flags
  have hb' := h'.eq_flags
  rw [hlen] at hb'
  conv_lhs => rw [errorBits, ← hb, ← hb']
  rw [stringBits_append, stringBits_append, stringBits_append,
    stringBits_append, differ_append_right, differ_append_left,
    length_stringBits]
  · rfl
  · simp only [List.length_append, length_stringBits, length_slice, hlen]

/-- **The parser detects line errors.** Whatever it accepts, it refuses after
one flipped bit, after two, after an odd number and after any within 16
consecutive bits, wherever in the frame they are. -/
theorem hdlcFrameParse_detects_lineError {b b' : List Byte}
    {frame : HdlcFrame} (h : hdlcFrameParse b = ok frame)
    (hlen : b'.length = b.length) (herr : LineError (errorBits b b')) :
    hdlcFrameParse b' = throws .invalidHdlcFrame := by
  obtain ⟨c, hc, -, -⟩ := hdlcFrameParse_eq_ok_iff.mp h
  refine hdlcFrameParse_of_not_accepted (fun ⟨c', hc'⟩ => ?_)
  have hshort := hc.toEnvelope.length_lt
  rw [errorBits_eq hc.toEnvelope hc'.toEnvelope hlen] at herr
  -- both registers hold the residue, yet the bits they took in differ
  refine feed_ne_of_detectable (by decide) fcsCode rfl 0xFFFF ?_
    (herr.detectable (N := 32767) (fun i hi => ?_))
    (hc.feed_eq_residue.trans
      (hlen ▸ hc'.toEnvelope.feed_eq_residue).symm)
  · simp only [length_stringBits, length_slice, hlen]
  · have := (mem_differ.mp hi).1
    rw [length_stringBits, length_slice] at this
    omega

/-- The UA frame is refused with one bit flipped in the client address and one
in the check sequence. -/
theorem hdlcFrameParse_detects_lineError_uaFrame :
    hdlcFrameParse [0x7E, 0xA0, 0x0A, 0x07, 0x00, 0x02, 0xFE, 0xFF, 0x73,
      0xCE, 0x10, 0x7E] = throws .invalidHdlcFrame :=
  hdlcFrameParse_detects_lineError
    (show hdlcFrameParse uaFrame = ok (parsed uaFrame 8) by decide +kernel)
    rfl (.double (by decide +kernel))

end Dlms.Hdlc
