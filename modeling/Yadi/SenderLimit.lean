import Yadi.Session

/-!
# The limit and the sender

`parseSnrmResponse` computes how long an information field may be that is
sent, and keeps the limit in the context. `serialize` is given the context
and does not look at it: it sends an information field of any length.

A context goes through calls of three kinds, in any order. What they emit is
recorded with the limit there was at the time (`emissions`). It is within the
limit exactly if, at each `serialize`, the data and the three bytes of the
LLC header are (`emissions_withinLimit_iff`): the callers would have to keep
to a limit that nothing tells them.
-/

namespace Dlms.Hdlc

open Run

/-! ## The information field of a request -/

/-- **The information field of a frame that is sent**: what stands behind the
check sequence of the header, up to the final check sequence, or up to the
closing flag in a frame that is too short to have one. -/
def sentInformation (b : List Byte) : List Byte :=
  slice b 11 (b.length - if 15 < b.length then 3 else 1)

/-- It is the LLC header and the data. -/
theorem sentInformation_serialize (params : HdlcParameters)
    (data : List Byte) :
    sentInformation (frameBytes (requestFrame HdlcCommand.commandI params data))
      = [0xE6, 0xE6, 0x00] ++ data := by
  have hlen := length_requestFrame HdlcCommand.commandI params data
  rw [if_pos rfl] at hlen
  by_cases hdata : data = []
  · -- without data there is no final check sequence
    subst hdata
    have hmiddle := slice_append_middle (withChecksequence (frameHeader
      (requestFrame HdlcCommand.commandI params []))) [0xE6, 0xE6, 0x00] [0x7E]
    rw [length_withChecksequence, length_frameHeader] at hmiddle
    rw [sentInformation, hlen, frameBytes, frameBody]
    exact hmiddle
  · have hpos := List.length_pos_iff.mpr hdata
    have hslice := @slice_information
      (requestFrame HdlcCommand.commandI params data) (fun _ => hdata)
    rw [if_pos hpos] at hlen
    rw [sentInformation, if_pos (by omega), hslice]
    rfl

/-! ## Calls on a context -/

/-- A call with the context. -/
inductive Call
  | parseSnrmResponse (buffer : List Byte)
  | serialize (data : List Byte)
  | parse (buffer : List Byte)

/-- What a call does, and the frame it emits if it emits one. -/
def Call.perform (params : HdlcParameters) :
    Call → ContextRun (Option (List Byte))
  | .parseSnrmResponse buffer => do
    let _ ← Hdlc.parseSnrmResponse params buffer
    return none
  | .serialize data => do
    let frame ← Hdlc.serialize params data
    return some frame
  | .parse buffer => do
    let _ ← Hdlc.parse params buffer
    return none

/-- **A frame that was emitted**, and the limit for what is sent at the
time. -/
structure Emission where
  frame : List Byte
  limit : Word

/-- What a call emits in a context. -/
def Call.emission (params : HdlcParameters) (call : Call)
    (ctx : HdlcContext) : List Emission :=
  match (call.perform params ctx).1 with
  | ok (some frame) => [⟨frame, ctx.maxInformationFieldLengthTx⟩]
  | _ => []

/-- **What calls emit**, one after the other, from a context on. A call that
throws emits nothing, and the next one goes on from the context it leaves. -/
def emissions (params : HdlcParameters) :
    List Call → HdlcContext → List Emission
  | [], _ => []
  | call :: calls, ctx =>
    call.emission params ctx ++ emissions params calls (call.perform params ctx).2

/-- The information field of an emitted frame is within the limit. -/
def Emission.WithinLimit (e : Emission) : Prop :=
  (sentInformation e.frame).length ≤ e.limit.toNat

/-- **Calls that keep to the limit** from a context on: the data of each
`serialize` leaves room for the LLC header below the limit there is then. -/
def KeepToLimit (params : HdlcParameters) :
    List Call → HdlcContext → Prop
  | [], _ => True
  | call :: calls, ctx =>
    (∀ data, call = .serialize data →
        data.length + 3 ≤ ctx.maxInformationFieldLengthTx.toNat)
      ∧ KeepToLimit params calls (call.perform params ctx).2

/-- A run that ends with no frame emits none. -/
theorem fst_bind_none {α : Type} (m : ContextRun α) (ctx : HdlcContext)
    (frame : List Byte) :
    ((m >>= fun _ => (pure none : ContextRun (Option (List Byte)))) ctx).1
      ≠ ok (some frame) := by
  change (StateRun.andThen m _ ctx).1 ≠ _
  unfold StateRun.andThen
  split <;> nofun

/-- **A `serialize` emits its frame**, whatever the limit. -/
theorem emission_serialize (params : HdlcParameters) (data : List Byte)
    (ctx : HdlcContext) :
    (Call.serialize data).emission params ctx
      = [⟨frameBytes (requestFrame HdlcCommand.commandI params data),
          ctx.maxInformationFieldLengthTx⟩] := by
  rw [Call.emission, Call.perform, serialize, getFrame_eq,
    StateRun.lift_ok_bind, StateRun.pure_apply]

/-- The other calls emit nothing. -/
theorem emission_of_ne_serialize (params : HdlcParameters) {call : Call}
    (h : ∀ data, call ≠ .serialize data) (ctx : HdlcContext) :
    call.emission params ctx = [] := by
  unfold Call.emission
  split
  · rename_i frame hframe
    cases call with
    | parseSnrmResponse buffer => exact absurd hframe (fst_bind_none _ _ _)
    | serialize data => exact absurd rfl (h data)
    | parse buffer => exact absurd hframe (fst_bind_none _ _ _)
  · rfl

/-- **One call emits within the limit exactly if its data keeps to it.** -/
theorem emission_withinLimit_iff (params : HdlcParameters) (call : Call)
    (ctx : HdlcContext) :
    (∀ e ∈ call.emission params ctx, e.WithinLimit)
      ↔ ∀ data, call = .serialize data →
          data.length + 3 ≤ ctx.maxInformationFieldLengthTx.toNat := by
  by_cases h : ∃ data, call = .serialize data
  · obtain ⟨data, rfl⟩ := h
    rw [emission_serialize]
    simp only [List.mem_singleton, forall_eq, Emission.WithinLimit,
      sentInformation_serialize, Call.serialize.injEq, List.length_append,
      List.length_cons, List.length_nil, forall_eq']
    rw [Nat.add_comm]
  · have hne : ∀ data, call ≠ .serialize data :=
      fun data hdata => h ⟨data, hdata⟩
    rw [emission_of_ne_serialize params hne]
    exact iff_of_true nofun (fun data hdata => absurd hdata (hne data))

/-- **No information field is longer than the limit there is when it is sent,
exactly if the callers keep to it.** -/
theorem emissions_withinLimit_iff (params : HdlcParameters)
    (calls : List Call) (ctx : HdlcContext) :
    (∀ e ∈ emissions params calls ctx, e.WithinLimit)
      ↔ KeepToLimit params calls ctx := by
  induction calls generalizing ctx with
  | nil => exact iff_of_true nofun trivial
  | cons call calls ih =>
    rw [emissions, List.forall_mem_append, emission_withinLimit_iff, ih,
      KeepToLimit]

/-- After a negotiation of 128 bytes, 126 bytes of data are sent in an
information field of 129. -/
theorem emissions_overLimit :
    parseSnrmResponse {} uaReply {} = (ok true, {})
      ∧ ∃ frame, serialize {} (List.replicate 126 0) {} = (ok frame, {})
        ∧ (sentInformation frame).length = 129
        ∧ ({} : HdlcContext).maxInformationFieldLengthTx.toNat = 128
        ∧ ⟨frame, 128⟩ ∈ emissions {}
          [.parseSnrmResponse uaReply, .serialize (List.replicate 126 0)] {}
        ∧ ¬ Emission.WithinLimit ⟨frame, 128⟩ := by
  have hreply : parseSnrmResponse {} uaReply {} = (ok true, {}) := by
    decide +kernel
  have hlen : (sentInformation (frameBytes (requestFrame HdlcCommand.commandI {}
      (List.replicate 126 0)))).length = 129 := by
    rw [sentInformation_serialize, List.length_append, List.length_replicate]
    rfl
  refine ⟨hreply, _, serialize_eq _ _ _, hlen, rfl, ?_, ?_⟩
  · have hctx : ((Call.parseSnrmResponse uaReply).perform {} {}).2 = {} := by
      decide +kernel
    rw [emissions, hctx, emissions, emission_serialize, List.mem_append]
    exact .inr List.mem_cons_self
  · rw [Emission.WithinLimit, hlen]
    decide

end Dlms.Hdlc
