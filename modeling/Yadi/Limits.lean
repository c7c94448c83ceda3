import Yadi.Hdlc
import Yadi.Relational

/-!
# The negotiated limits

`parseSnrmResponse` starts from the limits of the parameters and assigns them
again while it reads the reply, each time no larger than the parameters
allow. Whatever it reads, and however often it assigns, three things hold
(`parseSnrmResponse_bounded`): the limits stay below those of the parameters,
nothing of them depends on the context there was before, and a reply that
does not negotiate changes nothing.

The first is an invariant of the outer loop. The second compares two runs of
it that differ in the counters of the context, which no turn looks at.
-/

namespace Dlms.Hdlc

open Run

/-! ## The limits are bounded -/

theorem minLimit_le (limit : Word) (value : BitVec 32) :
    minLimit limit value ≤ limit := by
  unfold minLimit
  split_ifs with h
  · exact BitVec.le_of_lt h
  · exact BitVec.le_refl limit

/-- **A context with limits the parameters allow**, and with the counters of
another one. -/
structure Bounded (params : HdlcParameters) (before ctx : HdlcContext) :
    Prop where
  tx : ctx.maxInformationFieldLengthTx ≤ params.maxInformationFieldLengthTx
  rx : ctx.maxInformationFieldLengthRx ≤ params.maxInformationFieldLengthRx
  rxSss : ctx.rxSss = before.rxSss
  txSss : ctx.txSss = before.txSss

theorem resetLimits_bounded (params : HdlcParameters) (ctx : HdlcContext) :
    Bounded params ctx (resetLimits params ctx) :=
  ⟨BitVec.le_refl _, BitVec.le_refl _, rfl, rfl⟩

/-- Every assignment of a limit keeps the limits bounded. -/
theorem setLimit_bounded {params : HdlcParameters} {before : HdlcContext}
    (id : Byte) (value : BitVec 32) (ctx : HdlcContext)
    (h : Bounded params before ctx) :
    Bounded params before (setLimit params id value ctx) := by
  unfold setLimit
  split_ifs
  · exact ⟨minLimit_le _ _, h.rx, h.rxSss, h.txSss⟩
  · exact ⟨h.tx, minLimit_le _ _, h.rxSss, h.txSss⟩
  · exact h

/-! ## The limits do not depend on the context before -/

/-- Two contexts with the same limits. -/
def SameLimits (ctx ctx' : HdlcContext) : Prop :=
  ctx.maxInformationFieldLengthTx = ctx'.maxInformationFieldLengthTx
    ∧ ctx.maxInformationFieldLengthRx = ctx'.maxInformationFieldLengthRx

/-- With the same counters they are the same context. -/
theorem SameLimits.eq {ctx ctx' : HdlcContext} (h : SameLimits ctx ctx')
    (hrx : ctx.rxSss = ctx'.rxSss) (htx : ctx.txSss = ctx'.txSss) :
    ctx = ctx' := by
  cases ctx
  cases ctx'
  exact HdlcContext.mk.injEq .. ▸ ⟨hrx, htx, h.1, h.2⟩

theorem setLimit_sameLimits (params : HdlcParameters) (id : Byte)
    (value : BitVec 32) {ctx ctx' : HdlcContext} (h : SameLimits ctx ctx') :
    SameLimits (setLimit params id value ctx)
      (setLimit params id value ctx') := by
  unfold setLimit
  split_ifs
  · exact ⟨rfl, h.2⟩
  · exact ⟨h.1, rfl⟩
  · exact h

/-- A turn of the outer loop does not look at the counters. -/
theorem parameterRound_related (params : HdlcParameters)
    (buffer payload : List Byte) (s t : ℕ × HdlcContext)
    (h : s.1 = t.1 ∧ SameLimits s.2 t.2) :
    Related (StepRelated fun s t => s.1 = t.1 ∧ SameLimits s.2 t.2)
      (parameterRound params buffer payload s)
      (parameterRound params buffer payload t) := by
  obtain ⟨offset, ctx⟩ := s
  obtain ⟨offset', ctx'⟩ := t
  obtain ⟨rfl, hlimits⟩ : offset = offset' ∧ SameLimits ctx ctx' := h
  rw [parameterRound, parameterRound]
  by_cases hc : offset + 1 < payload.length
  · rw [if_pos hc, if_pos hc]
    refine (Related.same _).bindEq (fun id => ?_)
    refine (Related.same _).bindEq (fun len => ?_)
    refine (Related.same _).bindEq (fun r => ?_)
    exact ⟨rfl, setLimit_sameLimits params id _ hlimits⟩
  · rw [if_neg hc, if_neg hc]
    exact ⟨rfl, hlimits⟩

/-- **The limits of a negotiation are those of any other with the same
reply.** -/
theorem parseSnrmResponse_sameLimits {params : HdlcParameters}
    {ctx ctx' : HdlcContext} {b : List Byte}
    (h : parseSnrmResponse params b ctx = (ok true, ctx'))
    (other : HdlcContext) :
    ∃ other', parseSnrmResponse params b other = (ok true, other')
      ∧ SameLimits ctx' other' := by
  rcases parseSnrmResponse_cases params b with
    ⟨frame, hparse, hneg⟩ | ⟨r, hr, -, heq⟩
  · have hle := length_payload_le hparse
    obtain ⟨offset, ctx₁, hloop, -⟩ := @parameter_loop params b frame.payload
      hle (fun _ => True) (fun _ _ _ h => h) ctx trivial
    obtain ⟨offset₂, other', hloop₂, -⟩ := @parameter_loop params b
      frame.payload hle (fun _ => True) (fun _ _ _ h => h) other trivial
    -- the two loops start from the same limits
    have hrelated := Related.loop
      (parameterRound_related params b frame.payload)
      (frame.payload.length + 1) (parameterStart params ctx)
      (parameterStart params other) ⟨rfl, rfl, rfl⟩
    rw [hloop, hloop₂] at hrelated
    rw [parseSnrmResponse_eq_of_loop hparse hneg hloop, Prod.mk.injEq] at h
    obtain ⟨-, rfl⟩ := h
    exact ⟨other', parseSnrmResponse_eq_of_loop hparse hneg hloop₂,
      hrelated.2⟩
  · rw [heq, Prod.mk.injEq] at h
    exact absurd h.1 hr

/-! ## Bounded, free of history, and atomic -/

/-- What every negotiation leaves of the context. -/
theorem parseSnrmResponse_keeps (params : HdlcParameters)
    (ctx : HdlcContext) (b : List Byte) :
    (parseSnrmResponse params b ctx).2.rxSss = ctx.rxSss
      ∧ (parseSnrmResponse params b ctx).2.txSss = ctx.txSss
      ∧ ((parseSnrmResponse params b ctx).1 = ok true →
          Bounded params ctx (parseSnrmResponse params b ctx).2)
      ∧ ((parseSnrmResponse params b ctx).1 ≠ ok true →
          (parseSnrmResponse params b ctx).2 = ctx) := by
  rcases parseSnrmResponse_cases params b with
    ⟨frame, hparse, hneg⟩ | ⟨r, hr, -, heq⟩
  · obtain ⟨ctx', heq, hbounded⟩ := parseSnrmResponse_of_negotiates hparse
      hneg setLimit_bounded (resetLimits_bounded params ctx)
    rw [heq]
    exact ⟨hbounded.rxSss, hbounded.txSss, fun _ => hbounded,
      fun h => absurd rfl h⟩
  · rw [heq]
    exact ⟨rfl, rfl, fun h => absurd h hr, fun _ => rfl⟩

/-- **The negotiation is bounded, free of history, and atomic.** If it
succeeds, the limits are at most those of the parameters, they are the same
from any other context, and the same reply again changes nothing; if not,
the context is as before; and the counters always are. -/
theorem parseSnrmResponse_bounded (params : HdlcParameters)
    (ctx : HdlcContext) (b : List Byte) :
    (∀ ctx', parseSnrmResponse params b ctx = (ok true, ctx') →
      ctx'.maxInformationFieldLengthTx ≤ params.maxInformationFieldLengthTx
      ∧ ctx'.maxInformationFieldLengthRx ≤ params.maxInformationFieldLengthRx
      ∧ (∀ other, ∃ other', parseSnrmResponse params b other = (ok true, other')
          ∧ SameLimits ctx' other')
      ∧ parseSnrmResponse params b ctx' = (ok true, ctx'))
    ∧ ((parseSnrmResponse params b ctx).1 ≠ ok true →
      (parseSnrmResponse params b ctx).2 = ctx)
    ∧ (parseSnrmResponse params b ctx).2.rxSss = ctx.rxSss
    ∧ (parseSnrmResponse params b ctx).2.txSss = ctx.txSss := by
  obtain ⟨hrx, htx, hbounded, hatomic⟩ := parseSnrmResponse_keeps params ctx b
  refine ⟨fun ctx' h => ?_, hatomic, hrx, htx⟩
  have hlimits := hbounded (congrArg Prod.fst h)
  rw [h] at hlimits
  refine ⟨hlimits.tx, hlimits.rx, parseSnrmResponse_sameLimits h, ?_⟩
  -- once more from the context it leaves: the same limits and counters
  obtain ⟨again, hagain, hsame⟩ := parseSnrmResponse_sameLimits h ctx'
  obtain ⟨hrx', htx', -, -⟩ := parseSnrmResponse_keeps params ctx' b
  rw [hagain] at hrx' htx'
  rw [hagain, hsame.eq hrx'.symm htx'.symm]

end Dlms.Hdlc
