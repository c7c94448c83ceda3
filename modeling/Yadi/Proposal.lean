import Yadi.Aarq

/-!
# What an association request tells

The request of a client that is not too long is well formed, and says what it
is to say. But also one that is too long is told from every other request:
its bytes are those of just the proposals with the same mechanism, with
ciphering or without, with the same AP title if there is one, and with the
same authentication value if there is one (`serializeAarq_determines`).

No length field is needed for this. What is there is read off the tags, the
names have fixed lengths, and the authentication value is what is left
between them and the user information.
-/

namespace Dlms

open Run Ber

/-- **Two proposals that are the same**, as far as an association request
goes. -/
structure SameProposal (params : CosemParameters) (rng : Rng)
    (params' : CosemParameters) (rng' : Rng) : Prop where
  authentication : params.authentication = params'.authentication
  ciphering : params.security = .none ↔ params'.security = .none
  title : sendsApTitle params → params.systemTitle = params'.systemTitle
  value : params.authentication ≠ .lowest →
    authenticationValue params rng = authenticationValue params' rng'

variable {params params' : CosemParameters} {rng rng' : Rng}

/-- The two application contexts have different names. -/
theorem applicationContextName_eq_iff :
    applicationContextName params = applicationContextName params'
      ↔ (params.security = .none ↔ params'.security = .none) := by
  unfold applicationContextName
  split_ifs with h h' h'
  · exact iff_of_true rfl (iff_of_true h h')
  · exact iff_of_false (by decide) fun hiff => h' (hiff.mp h)
  · exact iff_of_false (by decide) fun hiff => h (hiff.mpr h')
  · exact iff_of_true rfl (iff_of_false h h')

/-- Whether a title is sent depends on what is told otherwise. -/
theorem SameProposal.sendsApTitle_iff
    (h : SameProposal params rng params' rng') :
    sendsApTitle params ↔ sendsApTitle params' := by
  unfold sendsApTitle
  rw [h.authentication, ne_eq, ne_eq, h.ciphering]

/-- The same proposals have the same components. -/
theorem SameProposal.aarqComponents_eq
    (h : SameProposal params rng params' rng') :
    aarqComponents params rng = aarqComponents params' rng' := by
  have htitle : apTitleComponents params = apTitleComponents params' := by
    unfold apTitleComponents
    by_cases hsends : sendsApTitle params
    · rw [if_pos hsends, if_pos (h.sendsApTitle_iff.mp hsends),
        h.title hsends]
    · rw [if_neg hsends, if_neg fun hs => hsends (h.sendsApTitle_iff.mpr hs)]
  have hvalue : authenticationComponents params rng
      = authenticationComponents params' rng' := by
    unfold authenticationComponents
    by_cases hlowest : params.authentication = .lowest
    · rw [if_neg (not_not.mpr hlowest),
        if_neg (not_not.mpr (h.authentication ▸ hlowest))]
    · rw [if_pos hlowest, if_pos (h.authentication ▸ hlowest),
        h.value hlowest, h.authentication]
  rw [aarqComponents, aarqComponents, htitle, hvalue,
    applicationContextName_eq_iff.mpr h.ciphering]

/-! ## What is read off the bytes -/

/-- The bytes in front, with the application context. -/
theorem shorts_context (params : CosemParameters) :
    shorts [⟨0x80, [0x07, 0x80]⟩,
        explicitTlv 0xA1 0x06 (applicationContextName params)]
      = [0x80, 0x02, 0x07, 0x80, 0xA1, 0x09, 0x06, 0x07]
        ++ applicationContextName params := by
  rw [shorts_cons, shorts_cons, shorts_nil, List.append_nil,
    short_explicitTlv, length_applicationContextName]
  rfl

/-- The bytes of the authentication. -/
theorem shorts_authenticationComponents
    (h : params.authentication ≠ .lowest) :
    shorts (authenticationComponents params rng)
      = ([0x8A, 0x02, 0x07, 0x80, 0x8B, 0x07]
          ++ mechanismName params.authentication)
        ++ ([0xAC,
            BitVec.ofNat 8 ((authenticationValue params rng).length + 2), 0x80,
            BitVec.ofNat 8 (authenticationValue params rng).length]
          ++ authenticationValue params rng) := by
  rw [authenticationComponents, if_pos h, shorts_cons, shorts_cons,
    shorts_cons, shorts_nil, List.append_nil, short_explicitTlv]
  rfl

/-- **They tell it.** -/
theorem authentication_of_shorts_eq
    (h : shorts (authenticationComponents params rng)
      = shorts (authenticationComponents params' rng')) :
    params.authentication = params'.authentication
      ∧ (params.authentication ≠ .lowest →
        authenticationValue params rng = authenticationValue params' rng') := by
  have hnone : ∀ {p : CosemParameters} {rng : Rng},
      p.authentication = .lowest → shorts (authenticationComponents p rng) = [] := by
    intro p rng hp
    rw [authenticationComponents, if_neg (not_not.mpr hp), shorts_nil]
  by_cases hlowest : params.authentication = .lowest
  · by_cases hlowest' : params'.authentication = .lowest
    · exact ⟨hlowest.trans hlowest'.symm, fun hne => absurd hlowest hne⟩
    · rw [hnone hlowest, shorts_authenticationComponents hlowest'] at h
      exact absurd h.symm (List.cons_ne_nil _ _)
  · by_cases hlowest' : params'.authentication = .lowest
    · rw [hnone hlowest', shorts_authenticationComponents hlowest] at h
      exact absurd h (List.cons_ne_nil _ _)
    · rw [shorts_authenticationComponents hlowest,
        shorts_authenticationComponents hlowest'] at h
      -- the name of the mechanism and what is in front of the value have
      -- fixed lengths
      obtain ⟨hfirst, hsecond⟩ := List.append_inj h rfl
      refine ⟨mechanismName_injective (List.append_cancel_left hfirst),
        fun _ => ?_⟩
      exact List.append_inj_right hsecond rfl

/-- The bytes of the title. -/
theorem shorts_apTitleComponents (h : sendsApTitle params) :
    shorts (apTitleComponents params)
      = [0xA6, 0x0A, 0x06, 0x08] ++ params.systemTitle.toList := by
  rw [apTitleComponents, if_pos h, shorts_cons, shorts_nil, List.append_nil,
    short_explicitTlv, Vector.length_toList]
  rfl

theorem shorts_apTitleComponents_of_not (h : ¬ sendsApTitle params) :
    shorts (apTitleComponents params) = [] := by
  rw [apTitleComponents, if_neg h, shorts_nil]

/-- A title starts with its tag, an authentication does not. -/
theorem shorts_authenticationComponents_ne (b : List Byte) :
    shorts (authenticationComponents params rng) ≠ 0xA6 :: b := by
  intro hb
  by_cases hlowest : params.authentication = .lowest
  · rw [authenticationComponents, if_neg (not_not.mpr hlowest)] at hb
    exact List.cons_ne_nil _ _ hb.symm
  · rw [shorts_authenticationComponents hlowest] at hb
    exact absurd (List.cons.inj hb).1 (by decide)

/-- **The bytes of the title and the authentication tell both.** -/
theorem title_of_shorts_eq
    (h : shorts (apTitleComponents params)
        ++ shorts (authenticationComponents params rng)
      = shorts (apTitleComponents params')
        ++ shorts (authenticationComponents params' rng')) :
    (sendsApTitle params → params.systemTitle = params'.systemTitle)
      ∧ shorts (authenticationComponents params rng)
        = shorts (authenticationComponents params' rng') := by
  by_cases hsends : sendsApTitle params
  · by_cases hsends' : sendsApTitle params'
    · rw [shorts_apTitleComponents hsends,
        shorts_apTitleComponents hsends'] at h
      obtain ⟨hfirst, hsecond⟩ := List.append_inj h
        (by simp only [List.length_append, Vector.length_toList])
      refine ⟨fun _ => Vector.toList_inj.mp ?_, hsecond⟩
      exact List.append_cancel_left hfirst
    · rw [shorts_apTitleComponents hsends,
        shorts_apTitleComponents_of_not hsends', List.nil_append] at h
      exact absurd h.symm (shorts_authenticationComponents_ne _)
  · rw [shorts_apTitleComponents_of_not hsends, List.nil_append] at h
    by_cases hsends' : sendsApTitle params'
    · rw [shorts_apTitleComponents hsends'] at h
      exact absurd h (shorts_authenticationComponents_ne _)
    · rw [shorts_apTitleComponents_of_not hsends', List.nil_append] at h
      exact ⟨fun hs => absurd hs hsends, h⟩

/-- **An association request is told from all others.** Its bytes are those
of just the same proposals, also where it is too long to be well formed. -/
theorem serializeAarq_determines (cosem cosem' : Cosem) (rng rng' : Rng) :
    (serializeAarq cosem rng).1 = (serializeAarq cosem' rng').1
      ↔ SameProposal cosem.parameters rng cosem'.parameters rng' := by
  rw [serializeAarq_eq, serializeAarq_eq, Run.ok.injEq]
  constructor
  · intro h
    have hshorts := (List.cons.inj (List.cons.inj h).2).2
    change shorts (aarqComponents _ _) = shorts (aarqComponents _ _) at hshorts
    rw [aarqComponents, aarqComponents, shorts_append, shorts_append,
      shorts_append, shorts_append, shorts_append, shorts_append] at hshorts
    -- the user information is always the same, and comes last
    replace hshorts := List.append_cancel_right hshorts
    rw [List.append_assoc, List.append_assoc, shorts_context,
      shorts_context] at hshorts
    obtain ⟨hfirst, hsecond⟩ := List.append_inj hshorts
      (by simp only [List.length_append, length_applicationContextName])
    obtain ⟨htitle, hauthentication⟩ := title_of_shorts_eq hsecond
    obtain ⟨hmechanism, hvalue⟩ := authentication_of_shorts_eq hauthentication
    exact ⟨hmechanism, applicationContextName_eq_iff.mp
      (List.append_cancel_left hfirst), htitle, hvalue⟩
  · intro h
    rw [aarqTlv, aarqTlv, h.aarqComponents_eq]

end Dlms
