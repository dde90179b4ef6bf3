import FixedLayout.Proofs.Taint.Closure

/-! What propagation leaves behind. However wrapping and marking take turns, the registry ends up as
it was, except that the members of tainted unions that mention what is tainted at the end are
wrapped, each once. So there is nothing left to do for a second propagation. -/

namespace FixedLayout.Taint

/-- The member mentions a declaration with a key of `S`. It is not wrapped, and no gap. -/
structure NeedsWrapper (r : Registry) (S : Set String) (m : Member) : Prop where
  claimed : m.role ≠ .gap
  bare : m.type.path ≠ TypeExpr.manuallyDropPath
  mentions : ∃ u, m.type.Mentions u ∧ ∃ key, r.resolve? u = some key ∧ key ∈ S

/-- What becomes of a member of a union with its key in `S`. -/
inductive MemberEffect (r : Registry) (S : Set String) : Member → Member → Prop
  | wrapped {m : Member} (h : NeedsWrapper r S m) :
      MemberEffect r S m { m with type := m.type.manuallyDrop }
  | same {m : Member} (h : ¬NeedsWrapper r S m) : MemberEffect r S m m

/-- What becomes of a declaration when the keys of `S` are tainted. -/
inductive Effect (r : Registry) (S : Set String) : Declaration → Declaration → Prop
  | union {record : Record} {members : List Member} (hUnion : record.isUnion = true)
      (hTainted : record.key ∈ S)
      (hMembers : List.Forall₂ (MemberEffect r S) record.members members) :
      Effect r S (.record record) (.record { record with members })
  | same {d : Declaration}
      (h : ∀ record, d = .record record → record.isUnion = true → record.key ∉ S) :
      Effect r S d d

variable {r : Registry} {t : Taint}

theorem needsWrapper_iff {m : Member} : NeedsWrapper r t.keySet m ↔
    (m.role != .gap && !m.type.isManuallyDrop && t.touches r m.type) = true := by
  simp only [Bool.and_eq_true, bne_iff_ne, Bool.not_eq_true', TypeExpr.isManuallyDrop,
    beq_eq_false_iff_ne, touches_iff]
  constructor
  · rintro ⟨hClaimed, hBare, hMentions⟩
    exact ⟨⟨hClaimed, hBare⟩, hMentions⟩
  · rintro ⟨⟨hClaimed, hBare⟩, hMentions⟩
    exact ⟨hClaimed, hBare, hMentions⟩

theorem wrapMember_effect (m : Member) : MemberEffect r t.keySet m (t.wrapMember r m) := by
  rw [wrapMember]
  split
  · rename_i hWrap
    exact .wrapped (needsWrapper_iff.mpr hWrap)
  · rename_i hPlain
    exact .same (mt needsWrapper_iff.mp hPlain)

theorem wrapDeclaration_effect (d : Declaration) :
    Effect r t.keySet d (t.wrapDeclaration r d) := by
  cases d with
  | enumeration | primitive => exact .same nofun
  | record record =>
    rw [wrapDeclaration, wrapRecord]
    split
    · rename_i hWrap
      obtain ⟨hUnion, hTainted⟩ := Bool.and_eq_true_iff.mp hWrap
      refine .union hUnion hTainted ?_
      exact List.forall₂_map_right_iff.mpr (List.forall₂_same.mpr fun m _ => wrapMember_effect m)
    · rename_i hPlain
      refine .same ?_
      rintro _ ⟨⟩ hUnion hTainted
      exact hPlain (Bool.and_eq_true_iff.mpr ⟨hUnion, hTainted⟩)

/-- A pass without a record to taint leaves the taint as it is and counts nothing. -/
theorem pass_of_not_reaches {records : List Record}
    (h : ∀ record ∈ records, ¬t.reaches r record = true) : pass r records t = (t, 0) := by
  induction records with
  | nil => rfl
  | cons record records ih =>
    rw [pass, if_neg (h record List.mem_cons_self)]
    exact ih fun other hOther => h other (List.mem_cons_of_mem _ hOther)

/-- A closed taint does not spread. -/
theorem spread_of_closed (h : r.ClosedUnderMention t.keySet) : spread r t = (t, [0]) := by
  have hPass : pass r r.records t = (t, 0) := by
    refine pass_of_not_reaches fun record hRecord hReaches => ?_
    obtain ⟨hOut, m, hm, u, hu, key, hResolve, hKey⟩ := reaches_iff.mp hReaches
    exact hOut (h record hRecord m hm u hu key hResolve hKey)
  rw [spread, hPass]
  exact dif_pos rfl

/-- Propagation leaves every declaration under its key and in its place. It wraps the members of the
unions that are tainted in the end, as the final taint asks for it, and changes nothing else. To
propagate once more changes nothing at all. -/
theorem propagate_effect (r : Registry) (t : Taint) :
    List.Forall₂ (fun e e' => e'.1 = e.1 ∧ e'.2.key = e.2.key ∧
        Effect r (propagate r t).2.1.keySet e.2 e'.2)
      r.entries (propagate r t).1.entries ∧
    propagate (propagate r t).1 (propagate r t).2.1 =
      ((propagate r t).1, (propagate r t).2.1, [0]) := by
  have hClosed := (isLeast_spread r t).1.2
  rw [propagate_eq]
  dsimp only
  generalize (spread r t).1 = t' at hClosed ⊢
  constructor
  · rw [wrapUnions]
    refine List.forall₂_map_right_iff.mpr (List.forall₂_same.mpr fun e _ => ⟨rfl, ?_, ?_⟩)
    · exact key_wrapDeclaration t' r e.2
    · exact wrapDeclaration_effect e.2
  · rw [propagate_wrapUnions subset_rfl, spread_of_closed hClosed]

end FixedLayout.Taint
