import Yadi.HdlcRequests
import Yadi.RequestDecoder

/-!
# To whom a frame is addressed

The parameters of a connection have a byte for the client and two bytes for
each part of the server's address. The frame has one byte and four for them,
with seven bits of address in each. The writer keeps the lower bits and drops
what is left, and nothing looks at the parameters before.

So two sets of parameters have the same address field exactly if their
addresses agree in these bits (`addressField_eq_iff`), and a frame is addressed
as its parameters say exactly if these fit (`addressed_iff`). A request for a
server with a greater address goes to another server, and no error is seen
(`serialize_addresses_iff`).
-/

namespace Dlms.Hdlc

open Run

/-- The three addresses of a set of parameters: the client's, and the two
parts of the server's. -/
def HdlcParameters.addresses (params : HdlcParameters) : Byte × Word × Word :=
  (params.clientAddress, params.serverLogicalAddress,
    params.serverPhysicalAddress)

/-- **Addresses that fit**: seven bits for the client, fourteen for each part
of the server's address. -/
structure HdlcParameters.Encodable (params : HdlcParameters) : Prop where
  client : params.clientAddress.toNat < 2 ^ 7
  logical : params.serverLogicalAddress.toNat < 2 ^ 14
  physical : params.serverPhysicalAddress.toNat < 2 ^ 14

/-- Two sets of parameters with the same addresses, as far as they fit. -/
structure HdlcParameters.Aliases (params other : HdlcParameters) : Prop where
  client : params.clientAddress.toNat % 2 ^ 7
    = other.clientAddress.toNat % 2 ^ 7
  logical : params.serverLogicalAddress.toNat % 2 ^ 14
    = other.serverLogicalAddress.toNat % 2 ^ 14
  physical : params.serverPhysicalAddress.toNat % 2 ^ 14
    = other.serverPhysicalAddress.toNat % 2 ^ 14

/-- The address field of a request: four bytes for the server and one for the
client. -/
def addressField (b : List Byte) : List Byte := slice b 3 8

/-- **A frame addressed as its parameters say**, to the server that reads its
address field. -/
structure Addressed (params : HdlcParameters) (b : List Byte) : Prop where
  marks : RequestAddresses b
  client : byteAt b 7 >>> 1 = params.clientAddress
  logical : addressHalf (byteAt b 3) (byteAt b 4)
    = params.serverLogicalAddress
  physical : addressHalf (byteAt b 5) (byteAt b 6)
    = params.serverPhysicalAddress

/-! ## The address field of a request -/

/-- The five bytes of the field. -/
theorem addressField_frameBytes (frame : HdlcFrame) :
    addressField (frameBytes frame)
      = [((frame.logicalAddress >>> 6) &&& 0xFE#16).setWidth 8,
          ((frame.logicalAddress <<< 1) &&& 0xFE#16).setWidth 8,
          ((frame.physicalAddress >>> 6) &&& 0xFE#16).setWidth 8,
          ((frame.physicalAddress <<< 1) &&& 0xFE#16).setWidth 8 ||| 0x01#8,
          frame.clientAddress <<< 1 ||| 0x01#8] := by
  obtain ⟨rest, hrest⟩ := header_prefix_frameBytes frame
  rw [addressField, ← hrest, withChecksequence, List.append_assoc,
    slice_append_left _ _ (Nat.le_succ 8 : 8 ≤ (frameHeader frame).length)]
  rfl

/-- The fourteen lower bits of an address part are what its two bytes hold. -/
theorem addressBytes_eq_iff (x y : ℕ) :
    x / 128 % 128 * 2 = y / 128 % 128 * 2 ∧ x % 128 * 2 = y % 128 * 2
      ↔ x % 2 ^ 14 = y % 2 ^ 14 := by
  omega

/-- **Which parameters share an address field**: those that agree in the bits
that fit. -/
theorem addressField_eq_iff (cmd : HdlcCommand) (params other : HdlcParameters)
    (data data' : List Byte) :
    addressField (frameBytes (requestFrame cmd params data))
        = addressField (frameBytes (requestFrame cmd other data'))
      ↔ params.Aliases other := by
  rw [addressField_frameBytes, addressField_frameBytes]
  simp only [requestFrame, List.cons.injEq, and_true, ← BitVec.toNat_inj,
    toNat_addressHigh, toNat_addressLow, toNat_addressLast,
    toNat_clientAddress]
  constructor
  · rintro ⟨hlogical, hlogical', hphysical, hphysical', hclient⟩
    exact ⟨by omega, (addressBytes_eq_iff _ _).mp ⟨hlogical, hlogical'⟩,
      (addressBytes_eq_iff _ _).mp ⟨hphysical, by omega⟩⟩
  · rintro ⟨hclient, hlogical, hphysical⟩
    obtain ⟨hhigh, hlow⟩ := (addressBytes_eq_iff _ _).mpr hlogical
    obtain ⟨hhigh', hlow'⟩ := (addressBytes_eq_iff _ _).mpr hphysical
    exact ⟨hhigh, hlow, hhigh', by omega, by omega⟩

/-- **Which frames are addressed as their parameters say**: those of addresses
that fit. -/
theorem addressed_iff (cmd : HdlcCommand) (params : HdlcParameters)
    (data : List Byte) :
    Addressed params (frameBytes (requestFrame cmd params data))
      ↔ params.Encodable := by
  have hclient := clientAddress_frameBytes_iff (requestFrame cmd params data)
  have hlogical := logicalAddress_frameBytes_iff (requestFrame cmd params data)
  have hphysical :=
    physicalAddress_frameBytes_iff (requestFrame cmd params data)
  constructor
  · intro h
    exact ⟨hclient.mp h.client, hlogical.mp h.logical,
      hphysical.mp h.physical⟩
  · intro h
    exact ⟨requestAddresses_frameBytes _, hclient.mpr h.client,
      hlogical.mpr h.logical, hphysical.mpr h.physical⟩

/-! ## Distinct addresses -/

/-- **Distinct addresses do not meet.** What is written under two sets of
parameters with different addresses has different address fields, and every
frame is addressed as its own parameters say. -/
structure AddressesKept (params other : HdlcParameters)
    (ctx ctx' : HdlcContext) (data : List Byte) : Prop where
  distinct : ∀ b b', params.addresses ≠ other.addresses →
    (serialize params data ctx).1 = ok b →
    (serialize other data ctx').1 = ok b' → addressField b ≠ addressField b'
  addressed : ∀ b, (serialize params data ctx).1 = ok b → Addressed params b
  addressed' : ∀ b, (serialize other data ctx').1 = ok b → Addressed other b

/-- Words that fit are told apart by what fits. -/
theorem eq_of_mod_eq {w n : ℕ} {x y : BitVec w} (hx : x.toNat < n)
    (hy : y.toNat < n) (h : x.toNat % n = y.toNat % n) : x = y := by
  rw [Nat.mod_eq_of_lt hx, Nat.mod_eq_of_lt hy] at h
  exact BitVec.eq_of_toNat_eq h

/-- Addresses that fit are told apart. -/
theorem HdlcParameters.Aliases.addresses_eq {params other : HdlcParameters}
    (h : params.Aliases other) (hparams : params.Encodable)
    (hother : other.Encodable) : params.addresses = other.addresses := by
  rw [addresses, addresses,
    eq_of_mod_eq hparams.client hother.client h.client,
    eq_of_mod_eq hparams.logical hother.logical h.logical,
    eq_of_mod_eq hparams.physical hother.physical h.physical]

/-- **Distinct addresses do not meet exactly if all of them fit.** -/
theorem serialize_addresses_iff (params other : HdlcParameters)
    (ctx ctx' : HdlcContext) (data : List Byte) :
    AddressesKept params other ctx ctx' data
      ↔ params.Encodable ∧ other.Encodable := by
  have hparams := congrArg Prod.fst (serialize_eq params data ctx)
  have hother := congrArg Prod.fst (serialize_eq other data ctx')
  constructor
  · intro h
    exact ⟨(addressed_iff _ _ _).mp (h.addressed _ hparams),
      (addressed_iff _ _ _).mp (h.addressed' _ hother)⟩
  · rintro ⟨hfits, hfits'⟩
    refine ⟨fun b b' hne hb hb' hsame => ?_, fun b hb => ?_, fun b hb => ?_⟩
    · rw [hparams, Run.ok.injEq] at hb
      rw [hother, Run.ok.injEq] at hb'
      rw [← hb, ← hb', addressField_eq_iff] at hsame
      exact hne (hsame.addresses_eq hfits hfits')
    · rw [hparams, Run.ok.injEq] at hb
      exact hb ▸ (addressed_iff _ _ _).mpr hfits
    · rw [hother, Run.ok.injEq] at hb
      exact hb ▸ (addressed_iff _ _ _).mpr hfits'

/-- The physical addresses `0x4001` and `0x0001` make the same frame. -/
theorem serialize_aliases :
    (serialize { serverPhysicalAddress := 0x4001 } [0xC0] {}).1
        = (serialize { serverPhysicalAddress := 0x0001 } [0xC0] {}).1
      ∧ ¬ AddressesKept { serverPhysicalAddress := 0x4001 }
          { serverPhysicalAddress := 0x0001 } {} {} [0xC0] := by
  have hsame : (serialize { serverPhysicalAddress := 0x4001 } [0xC0] {}).1
      = (serialize { serverPhysicalAddress := 0x0001 } [0xC0] {}).1 := by
    decide +kernel
  refine ⟨hsame, fun h => ?_⟩
  have hb := congrArg Prod.fst
    (serialize_eq { serverPhysicalAddress := 0x0001 } [0xC0] {})
  exact h.distinct _ _ (by decide) (hsame.trans hb) hb rfl

end Dlms.Hdlc
