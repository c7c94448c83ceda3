import Yadi.Hdlc
import Yadi.RequestDecoder

/-!
# Whose reply it is

On a line with several servers a client must hand on only what is meant for
it: an information frame from its server to itself. `parse` is given the
parameters and does not look at them, nor at the type of the frame: whatever
`hdlcFrameParse` accepts, it hands on.

So it does right exactly by the buffers that are refused anyway, and by those
that happen to be information frames with the address bytes of the server and
the client (`parse_matched_iff`).
-/

namespace Dlms.Hdlc

open Run

/-- The logical and the physical address in the server address of a frame
with its control byte at `c`: a byte each, or two bytes each. -/
def sourceAddress (b : List Byte) (c : ℕ) : Word × Word :=
  if c = 6 then
    ((byteAt b 4 >>> 1).setWidth 16, (byteAt b 5 >>> 1).setWidth 16)
  else
    (addressHalf (byteAt b 4) (byteAt b 5),
      addressHalf (byteAt b 6) (byteAt b 7))

/-- **A reply from the server to the client** of these parameters. -/
def IsReplyTo (params : HdlcParameters) (b : List Byte) : Prop :=
  ∃ c, ServerAddress b c ∧ IsInformation b c
    ∧ byteAt b 3 >>> 1 = params.clientAddress
    ∧ sourceAddress b c
      = (params.serverLogicalAddress, params.serverPhysicalAddress)

/-- The address bytes of such a reply, with its control byte at `c`, as
numbers: an address that does not fit is no byte, and matches none. -/
def addressBytes (params : HdlcParameters) (c : ℕ) : List ℕ :=
  let logical := params.serverLogicalAddress.toNat
  let physical := params.serverPhysicalAddress.toNat
  (params.clientAddress.toNat * 2 + 1) ::
    if c = 6 then
      [logical * 2, physical * 2 + 1]
    else
      [logical / 128 * 2, logical % 128 * 2, physical / 128 * 2,
        physical % 128 * 2 + 1]

/-- A byte with its low bit clear is twice its upper seven bits. -/
theorem toNat_eq_of_clear {x : Byte} (h : x.getLsbD 0 = false) {n : ℕ} :
    x.toNat = n * 2 ↔ x.toNat / 2 = n := by
  rw [getLsbD_zero_eq, decide_eq_false_iff_not] at h
  omega

theorem toNat_eq_of_set {x : Byte} (h : x.getLsbD 0 = true) {n : ℕ} :
    x.toNat = n * 2 + 1 ↔ x.toNat / 2 = n := by
  rw [getLsbD_zero_eq, decide_eq_true_iff] at h
  omega

/-- Seven bits of a byte, as a byte or as a word. -/
theorem ushiftRight_eq_iff (x y : Byte) :
    x >>> 1 = y ↔ x.toNat / 2 = y.toNat := by
  rw [← BitVec.toNat_inj, BitVec.toNat_ushiftRight, Nat.shiftRight_eq_div_pow,
    Nat.pow_one]

theorem setWidth_ushiftRight_eq_iff (x : Byte) (y : Word) :
    (x >>> 1).setWidth 16 = y ↔ x.toNat / 2 = y.toNat := by
  rw [← BitVec.toNat_inj, BitVec.toNat_setWidth_of_le (by decide),
    BitVec.toNat_ushiftRight, Nat.shiftRight_eq_div_pow, Nat.pow_one]

/-- **The addresses of a frame are those of its address bytes.** -/
theorem addressBytes_iff {params : HdlcParameters} {b : List Byte} {c : ℕ}
    (h : Envelope b c) :
    (slice b 3 c).map BitVec.toNat = addressBytes params c
      ↔ byteAt b 3 >>> 1 = params.clientAddress ∧ sourceAddress b c
        = (params.serverLogicalAddress, params.serverPhysicalAddress) := by
  have hlen := h.length_le
  have hmore := h.server.more
  have hlast := h.server.last
  rw [ushiftRight_eq_iff, ← toNat_eq_of_set h.client, sourceAddress,
    addressBytes]
  rcases h.server.width with rfl | rfl
  · rw [slice_succ (by decide) (by omega), slice_succ (by decide) (by omega),
      slice_singleton (by omega), if_pos rfl, if_pos rfl, Prod.mk.injEq,
      setWidth_ushiftRight_eq_iff, setWidth_ushiftRight_eq_iff,
      ← toNat_eq_of_clear (hmore 4 le_rfl (by decide)),
      ← toNat_eq_of_set hlast]
    simp only [List.map_cons, List.map_nil, List.cons.injEq, and_true]
  · rw [slice_succ (by decide) (by omega), slice_succ (by decide) (by omega),
      slice_succ (by decide) (by omega), slice_succ (by decide) (by omega),
      slice_singleton (by omega), if_neg (by decide), if_neg (by decide),
      Prod.mk.injEq, addressHalf_eq_iff, addressHalf_eq_iff,
      ← toNat_eq_of_clear (hmore 4 le_rfl (by decide)),
      ← toNat_eq_of_clear (hmore 5 (by decide) (by decide)),
      ← toNat_eq_of_clear (hmore 6 (by decide) (by decide)),
      ← toNat_eq_of_set hlast]
    simp only [List.map_cons, List.map_nil, List.cons.injEq, and_true,
      and_assoc]

/-- **The buffers `parse` does right by**: those it refuses, as no frame or
as an information frame without its LLC header, and the information frames
that have just the address bytes of the parameters. -/
def OwnReplyOrRefused (params : HdlcParameters) (b : List Byte) : Prop :=
  ∀ c, Accepted b c → IsInformation b c ∧ (LlcHeader b (c + 3) →
    (slice b 3 c).map BitVec.toNat = addressBytes params c)

/-- **`parse` hands on nothing but replies to the client exactly for these
buffers.** -/
theorem parse_matched_iff (params : HdlcParameters) (ctx : HdlcContext)
    (b : List Byte) :
    (∀ payload, (parse params b ctx).1 = ok payload → IsReplyTo params b)
      ↔ OwnReplyOrRefused params b := by
  have hparse : ∀ frame, hdlcFrameParse b = ok frame →
      (parse params b ctx).1 = ok frame.payload := by
    intro frame h
    rw [parse_eq, h, ok_bind]
  constructor
  · intro h c hc
    -- what `hdlcFrameParse` accepts is handed on, so it must be a reply
    have hreply : (IsInformation b c → LlcHeader b (c + 3)) →
        IsInformation b c ∧ (slice b 3 c).map BitVec.toNat
          = addressBytes params c := by
      intro hllc
      obtain ⟨c', hserver, hinfo, haddresses⟩ := h _ (hparse _
        (hdlcFrameParse_eq_ok_iff.mpr ⟨c, hc, hllc, rfl⟩))
      obtain rfl := hc.server.unique hserver
      exact ⟨hinfo, (addressBytes_iff hc.toEnvelope).mpr haddresses⟩
    by_cases hinfo : IsInformation b c
    · exact ⟨hinfo, fun hllc => (hreply fun _ => hllc).2⟩
    · exact absurd (hreply fun hi => absurd hi hinfo).1 hinfo
  · intro h payload hpayload
    rcases hdlcFrameParse_cases b with ⟨frame, hframe⟩ | hthrows
    · obtain ⟨c, hc, hllc, -⟩ := hdlcFrameParse_eq_ok_iff.mp hframe
      obtain ⟨hinfo, haddresses⟩ := h c hc
      exact ⟨c, hc.server, hinfo,
        (addressBytes_iff hc.toEnvelope).mp (haddresses (hllc hinfo))⟩
    · rw [parse_eq, hthrows, throws_bind] at hpayload
      cases hpayload

/-- A UA frame from the right server is handed on as an empty payload, and an
information frame for client 1 as a payload for client 2. -/
theorem parse_unmatched :
    (parse {} uaFrame {}).1 = ok [] ∧ ¬ IsReplyTo {} uaFrame
      ∧ (parse { clientAddress := 2 } replyFrame {}).1 = ok [0xC4]
      ∧ ¬ IsReplyTo { clientAddress := 2 } replyFrame := by
  refine ⟨by decide +kernel, ?_, by decide +kernel, ?_⟩
  · rintro ⟨c, hc, hinfo, -⟩
    obtain rfl := hc.unique (show ServerAddress uaFrame 8 by decide)
    exact absurd hinfo (by decide)
  · rintro ⟨c, -, -, hclient, -⟩
    exact absurd hclient (by decide)

end Dlms.Hdlc
