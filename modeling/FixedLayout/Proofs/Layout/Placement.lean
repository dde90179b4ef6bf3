import FixedLayout.Proofs.Layout.Overrun
import FixedLayout.Proofs.Text.Digits
import Mathlib.Data.List.Range

/-! Where the slots of a struct end up. Every slot that counts in a group before the first overrun
occurs once: as a field, or in a union of its own that one member stands for. -/

namespace FixedLayout.Layout

namespace Plan

def fieldsAt (plan : Plan) (o : Nat) : List Member :=
  plan.members.filter fun m => m.role = .field ∧ m.offset = o

def unionsAt (plan : Plan) (o : Nat) : List Member :=
  plan.members.filter fun m => m.role = .union ∧ m.offset = o

/-- How the slots kept at an offset occur in a plan: a single one as a field with its own type and
size, several over each other in a union that one member stands for. There is nothing else at the
offset. -/
def Places (plan : Plan) (o : Nat) : List Slot → Prop
  | [] => plan.fieldsAt o = [] ∧ plan.unionsAt o = []
  | [s] => plan.fieldsAt o = [s.member o] ∧ plan.unionsAt o = []
  | slots => plan.fieldsAt o = [] ∧ ∃ m u, plan.unionsAt o = [m] ∧ m.size = u.size ∧
      u.isUnion = true ∧ (u.members.filter (·.role ≠ .gap)).Perm (slots.map (·.member 0)) ∧
      plan.unions.filter (·.type = u.type) = [u] ∧
      plan.members.filter (fun m => m.role = .union ∧ m.type = u.type) = [m]

theorem places_of_many {plan : Plan} {o : Nat} {slots : List Slot} (h : 2 ≤ slots.length)
    {m : Member} (u : Record) (hFields : plan.fieldsAt o = []) (hUnion : plan.unionsAt o = [m])
    (hSize : m.size = u.size) (hForm : u.isUnion = true)
    (hMembers : (u.members.filter (·.role ≠ .gap)).Perm (slots.map (·.member 0)))
    (hOnce : plan.unions.filter (·.type = u.type) = [u])
    (hReference : plan.members.filter (fun m => m.role = .union ∧ m.type = u.type) = [m]) :
    plan.Places o slots := by
  match slots, h with
  | _ :: _ :: _, _ => exact ⟨hFields, m, u, hUnion, hSize, hForm, hMembers, hOnce, hReference⟩

end Plan

variable {config : Config} {slots : List Slot} {owner : TypeExpr}

/-! ### The plan as a list of placements -/

/-- The members for the groups at some offsets, each with the union that it needs. `n` counts the
unions so far. -/
def placements (config : Config) (owner : TypeExpr) (slots : List Slot) (n : Nat) :
    List Nat → List (Member × List Record)
  | [] => []
  | o :: os =>
    let placed := place owner n o (keptAt config slots o)
    placed :: placements config owner slots (n + placed.2.length) os

theorem filter_fillGaps (cursor target : Nat) :
    (fillGaps cursor target).filter (·.role ≠ .gap) = [] := by
  fun_induction fillGaps cursor target with
  | case1 cursor h span ih => simpa [Member.gap] using ih
  | case2 cursor h => rfl

/-- Between its gaps, a plan has the members for the groups that are reached, and their unions. -/
theorem layGroups_placements (hFits : ∀ s ∈ slots, s.Fits) (size n : Nat) (pre os : List Nat)
    (h : pre ++ os = offsets slots) (hPre : ∀ p ∈ pre, ¬Overrun config slots p) :
    (layGroups config owner size (cursorAfter config slots pre) n
        (os.map (slotsAt slots))).members.filter (·.role ≠ .gap) =
      (placements config owner slots n (os.filter (Reached config slots))).map (·.1) ∧
    (layGroups config owner size (cursorAfter config slots pre) n
        (os.map (slotsAt slots))).unions =
      (placements config owner slots n (os.filter (Reached config slots))).flatMap (·.2) := by
  induction os generalizing pre n with
  | nil => exact ⟨by simpa [layGroups, placements] using filter_fillGaps _ size, rfl⟩
  | cons o os ih =>
    have hO : o ∈ offsets slots := h ▸ by simp
    rw [List.map_cons, layGroups_slotsAt hO hFits]
    by_cases hOver : Overrun config slots o
    · have hNone : (o :: os).filter (Reached config slots) = [] := by
        apply List.filter_eq_nil_iff.mpr
        intro o' ho' hReached
        exact of_decide_eq_true hReached o (le_of_mem_cons h ho') hOver
      rw [if_pos ((overrun_iff h).mp hOver), hNone]
      exact ⟨filter_fillGaps _ size, rfl⟩
    · have hReached : Reached config slots o := fun o' hLe hOver' => by
        have := le_of_overrun h hPre hOver'
        exact hOver (Nat.le_antisymm this hLe ▸ hOver')
      have hRest := ih (n + (place owner n o (keptAt config slots o)).2.length)
        (pre ++ [o]) (by simpa using h)
        (List.forall_mem_append.mpr ⟨hPre, by simpa using hOver⟩)
      have hRole := role_place owner n o (keptAt config slots o)
      rw [cursorAfter_append] at hRest
      rw [if_neg (fun hLt => hOver ((overrun_iff h).mpr hLt)),
        List.filter_cons_of_pos (by simpa using hReached)]
      refine ⟨?_, ?_⟩
      · rw [List.filter_append, filter_fillGaps, List.nil_append, placements, List.map_cons,
          List.filter_cons_of_pos (by simpa using hRole)]
        exact congrArg _ hRest.1
      · rw [placements, List.flatMap_cons]
        exact congrArg _ hRest.2

/-! ### The unions of a plan -/

/-- Two unions of an owner never share a type. -/
theorem unionType_injective (owner : TypeExpr) : Function.Injective (unionType owner) := by
  intro n m h
  have hName : (if n = 0 then "" else "_" ++ toString n) =
      if m = 0 then "" else "_" ++ toString m := by
    simpa [unionType, TypeExpr.inModule, TypeExpr.ofPath] using h
  split at hName <;> split at hName
  · omega
  · simp at hName
  · simp at hName
  · exact Text.numeral_injective (by simpa using hName)

/-- A single slot is placed as a field. Any other number of them is placed as a union, and the
member that stands for it has its type and its size. -/
theorem place_cases (owner : TypeExpr) (n o : Nat) (slots : List Slot) :
    (∃ s, slots = [s] ∧ place owner n o slots = (s.member o, [])) ∨
    slots.length ≠ 1 ∧ ∃ m, place owner n o slots =
        (m, [unionOf (unionType owner n) slots minUnionSize]) ∧
      m.role = .union ∧ m.type = unionType owner n ∧
      m.size = (unionOf (unionType owner n) slots minUnionSize).size := by
  unfold place
  split
  · rename_i s
    exact .inl ⟨s, rfl, rfl⟩
  · rename_i hMany
    refine .inr ⟨fun hOne => ?_, _, rfl, rfl, rfl, rfl⟩
    obtain ⟨s, rfl⟩ := List.length_eq_one_iff.mp hOne
    exact hMany s rfl

@[simp] theorem type_unionOf (owner : TypeExpr) (n size : Nat) (slots : List Slot) :
    (unionOf (unionType owner n) slots size).type = unionType owner n := rfl

/-- Apart from its gap, a union has the slots as its members, all at its start. -/
theorem filter_members_unionOf (type : TypeExpr) (slots : List Slot) (size : Nat) :
    (unionOf type slots size).members.filter (·.role ≠ .gap) =
      (widestFirst slots).map (·.member 0) := by
  have hFields : ((widestFirst slots).map (·.member 0)).filter (·.role ≠ .gap) =
      (widestFirst slots).map (·.member 0) :=
    List.filter_eq_self.mpr (by simp [Slot.member])
  simp only [unionOf]
  rw [List.filter_append, hFields]
  split
  · rw [List.filter_cons_of_neg (by simp [Member.gap]), List.filter_nil, List.append_nil]
  · rw [List.filter_nil, List.append_nil]

theorem members_unionOf (type : TypeExpr) (slots : List Slot) (size : Nat) :
    ((unionOf type slots size).members.filter (·.role ≠ .gap)).Perm (slots.map (·.member 0)) := by
  rw [filter_members_unionOf]
  exact (widestFirst_perm slots).map _

/-- The unions are numbered in the order of the groups. -/
theorem placements_types (config : Config) (owner : TypeExpr) (slots : List Slot) (n : Nat)
    (os : List Nat) :
    ∃ count, ((placements config owner slots n os).flatMap (·.2)).map (·.type) =
      (List.range' n count).map (unionType owner) := by
  induction os generalizing n with
  | nil => exact ⟨0, rfl⟩
  | cons o os ih =>
    rw [placements, List.flatMap_cons, List.map_append]
    rcases place_cases owner n o (keptAt config slots o) with
      ⟨s, -, hPlace⟩ | ⟨-, m, hPlace, -, -, -⟩
    · rw [hPlace]
      exact ih n
    · rw [hPlace]
      obtain ⟨count, hTypes⟩ := ih (n + 1)
      refine ⟨count + 1, ?_⟩
      rw [List.range'_succ, List.map_cons]
      exact congrArg _ hTypes

theorem nodup_types_placements (n : Nat) (os : List Nat) :
    (((placements config owner slots n os).flatMap (·.2)).map (·.type)).Nodup := by
  obtain ⟨count, hTypes⟩ := placements_types config owner slots n os
  rw [hTypes]
  exact List.Nodup.map (unionType_injective owner) List.nodup_range'

/-- The members that stand for unions name the unions one by one. -/
theorem placements_references (n : Nat) (os : List Nat) :
    (((placements config owner slots n os).map (·.1)).filter (·.role = .union)).map (·.type) =
      ((placements config owner slots n os).flatMap (·.2)).map (·.type) := by
  induction os generalizing n with
  | nil => rfl
  | cons o os ih =>
    rw [placements, List.map_cons, List.flatMap_cons]
    rcases place_cases owner n o (keptAt config slots o) with
      ⟨s, -, hPlace⟩ | ⟨-, m, hPlace, hRole, hType, -⟩
    · rw [hPlace, List.filter_cons_of_neg (by simp [Slot.member])]
      exact ih n
    · rw [hPlace, List.filter_cons_of_pos (by simpa using hRole), List.map_cons, List.map_append,
        List.map_singleton, type_unionOf, hType]
      exact congrArg _ (ih (n + 1))

theorem filter_placements_of_notMem {n o : Nat} {os : List Nat} (ho : o ∉ os) :
    (placements config owner slots n os).filter (·.1.offset = o) = [] := by
  induction os generalizing n with
  | nil => rfl
  | cons o' os ih =>
    obtain ⟨hHead, hTail⟩ := List.ne_and_not_mem_of_not_mem_cons ho
    rw [placements, List.filter_cons_of_neg (by simpa [offset_place] using Ne.symm hHead)]
    exact ih hTail

/-- One placement is made for each of the offsets. -/
theorem filter_placements (config : Config) (owner : TypeExpr) (slots : List Slot) (n : Nat)
    {o : Nat} {os : List Nat} (hOs : os.Nodup) (ho : o ∈ os) :
    ∃ k, (placements config owner slots n os).filter (·.1.offset = o) =
      [place owner k o (keptAt config slots o)] := by
  induction os generalizing n with
  | nil => simp at ho
  | cons o' os ih =>
    obtain ⟨hHead, hTail⟩ := List.nodup_cons.mp hOs
    rcases List.mem_cons.mp ho with rfl | hMem
    · refine ⟨n, ?_⟩
      rw [placements, List.filter_cons_of_pos (by simp [offset_place]),
        filter_placements_of_notMem hHead]
    · have hne : o' ≠ o := by
        intro h
        exact hHead (h ▸ hMem)
      obtain ⟨k, hFilter⟩ := ih (n + (place owner n o' (keptAt config slots o')).2.length)
        hTail hMem
      refine ⟨k, ?_⟩
      rw [placements, List.filter_cons_of_neg (by simpa [offset_place] using hne)]
      exact hFilter

/-! ### The whole plan -/

/-- What a plan has at an offset is what its placements have there. -/
theorem filter_members {members : List Member} {placed : List (Member × List Record)} {role : Role}
    (hRole : role ≠ .gap) (hMembers : members.filter (·.role ≠ .gap) = placed.map (·.1)) (o : Nat) :
    members.filter (fun m => m.role = role ∧ m.offset = o) =
      ((placed.filter (·.1.offset = o)).map (·.1)).filter (·.role = role) := by
  have hAt : (placed.filter (·.1.offset = o)).map (·.1) =
      (members.filter (·.role ≠ .gap)).filter (·.offset = o) := by
    rw [hMembers, List.filter_map]
    rfl
  rw [hAt, List.filter_filter, List.filter_filter]
  apply List.filter_congr
  intro m _
  by_cases hm : m.role = role
  · simp [hm, hRole]
  · simp [hm]

/-- Where no two elements agree under `f`, each is the only one with its value. -/
theorem filter_eq_singleton {α β : Type} [DecidableEq β] {f : α → β} {l : List α} {a : α}
    (hNodup : (l.map f).Nodup) (ha : a ∈ l) : l.filter (f · = f a) = [a] := by
  induction l with
  | nil => simp at ha
  | cons b l ih =>
    obtain ⟨hHead, hTail⟩ := List.nodup_cons.mp hNodup
    rcases List.mem_cons.mp ha with rfl | hMem
    · rw [List.filter_cons_of_pos (by simp), List.filter_eq_nil_iff.mpr]
      intro c hc hEq
      exact hHead (List.mem_map.mpr ⟨c, hc, of_decide_eq_true hEq⟩)
    · have hne : f b ≠ f a := by
        intro h
        exact hHead (h ▸ List.mem_map_of_mem hMem)
      rw [List.filter_cons_of_neg (by simpa using hne)]
      exact ih hTail hMem

section Reconstruct

variable (config : Config) (owner : TypeExpr) (size : Nat) (slots : List Slot)

/-- The placements of a plan: one for each group that is reached. -/
noncomputable def placed : List (Member × List Record) :=
  placements config owner slots 0 ((offsets slots).filter (Reached config slots))

variable {slots}

theorem reconstruct_placed (hFits : ∀ s ∈ slots, s.Fits) :
    (reconstruct config owner size slots).members.filter (·.role ≠ .gap) =
      (placed config owner slots).map (·.1) ∧
    (reconstruct config owner size slots).unions = (placed config owner slots).flatMap (·.2) := by
  rw [reconstruct, groups_eq]
  exact layGroups_placements hFits size 0 [] (offsets slots) rfl (by simp)

variable {config owner size}

/-- Each union of a plan has one member that stands for it, and no two unions share a type. -/
theorem references_reconstruct (config : Config) (owner : TypeExpr) (size : Nat)
    (hFits : ∀ s ∈ slots, s.Fits) :
    ((reconstruct config owner size slots).members.filter (·.role = .union)).map (·.type) =
      (reconstruct config owner size slots).unions.map (·.type) ∧
    ((reconstruct config owner size slots).unions.map (·.type)).Nodup := by
  obtain ⟨hMembers, hUnions⟩ := reconstruct_placed config owner size hFits
  have hFilter : (reconstruct config owner size slots).members.filter (·.role = .union) =
      ((placed config owner slots).map (·.1)).filter (·.role = .union) := by
    rw [← hMembers, List.filter_filter]
    apply List.filter_congr
    intro m _
    by_cases hm : m.role = .union <;> simp [hm]
  rw [hFilter, hUnions]
  exact ⟨placements_references 0 _, nodup_types_placements 0 _⟩

/-- Beyond an overrun a plan has nothing. -/
theorem places_of_not_reached (hFits : ∀ s ∈ slots, s.Fits) {o : Nat}
    (ho : o ∉ (offsets slots).filter (Reached config slots)) :
    (reconstruct config owner size slots).Places o [] := by
  obtain ⟨hMembers, -⟩ := reconstruct_placed config owner size hFits
  have hNone : (placed config owner slots).filter (·.1.offset = o) = [] :=
    filter_placements_of_notMem ho
  constructor
  · rw [Plan.fieldsAt, filter_members (by decide) hMembers, hNone]
    rfl
  · rw [Plan.unionsAt, filter_members (by decide) hMembers, hNone]
    rfl

/-- Each group that is reached is placed as a field or as a union. -/
theorem places_of_reached (hFits : ∀ s ∈ slots, s.Fits) {o : Nat} (ho : o ∈ offsets slots)
    (hReached : Reached config slots o) :
    (reconstruct config owner size slots).Places o (keptAt config slots o) := by
  obtain ⟨hMembers, hUnions⟩ := reconstruct_placed config owner size hFits
  obtain ⟨hReferences, hNodup⟩ := references_reconstruct config owner size hFits
  have hMem : o ∈ (offsets slots).filter (Reached config slots) :=
    List.mem_filter.mpr ⟨ho, decide_eq_true hReached⟩
  obtain ⟨k, hAt⟩ := filter_placements config owner slots 0
    (((pairwise_offsets slots).imp fun h => h.ne).sublist List.filter_sublist) hMem
  change (placed config owner slots).filter _ = _ at hAt
  have hFields : (reconstruct config owner size slots).fieldsAt o =
      [(place owner k o (keptAt config slots o)).1].filter (·.role = .field) := by
    rw [Plan.fieldsAt, filter_members (by decide) hMembers, hAt, List.map_singleton]
  have hUnionsAt : (reconstruct config owner size slots).unionsAt o =
      [(place owner k o (keptAt config slots o)).1].filter (·.role = .union) := by
    rw [Plan.unionsAt, filter_members (by decide) hMembers, hAt, List.map_singleton]
  rcases place_cases owner k o (keptAt config slots o) with
    ⟨s, hKept, hPlace⟩ | ⟨hMany, m, hPlace, hRole, hType, hSize⟩
  · rw [hPlace] at hFields hUnionsAt
    rw [hKept]
    exact ⟨hFields, hUnionsAt⟩
  · rw [hPlace] at hFields hUnionsAt
    have hLength : 2 ≤ (keptAt config slots o).length := by
      have := List.length_pos_iff.mpr (keptAt_ne_nil config ho)
      omega
    have hPlaced : (m, [unionOf (unionType owner k) (keptAt config slots o) minUnionSize]) ∈
        placed config owner slots := by
      have : place owner k o (keptAt config slots o) ∈
          (placed config owner slots).filter (·.1.offset = o) := by
        rw [hAt]
        exact List.mem_singleton_self _
      rw [hPlace] at this
      exact (List.mem_filter.mp this).1
    have hMember : m ∈ (reconstruct config owner size slots).members.filter (·.role = .union) := by
      have : m ∈ (reconstruct config owner size slots).members.filter (·.role ≠ .gap) := by
        rw [hMembers]
        exact List.mem_map_of_mem hPlaced
      exact List.mem_filter.mpr ⟨(List.mem_filter.mp this).1, decide_eq_true hRole⟩
    refine Plan.places_of_many hLength
      (unionOf (unionType owner k) (keptAt config slots o) minUnionSize)
      (by simpa [hRole] using hFields) (by simpa [hRole] using hUnionsAt) hSize rfl
      (members_unionOf _ _ _) (filter_eq_singleton hNodup ?_) ?_
    · rw [hUnions]
      exact List.mem_flatMap.mpr ⟨_, hPlaced, List.mem_singleton_self _⟩
    · have := filter_eq_singleton (hReferences ▸ hNodup) hMember
      rw [List.filter_filter, hType] at this
      rw [type_unionOf, ← this]
      apply List.filter_congr
      intro m' _
      simp [Bool.and_comm]

/-- No slot is lost. A plan reports an overrun exactly if some group starts before the end of the
one in front of it, and then only the first. What counts in the groups before is placed, each group
at its offset, and nothing else is. -/
theorem reconstruct_places (hFits : ∀ s ∈ slots, s.Fits) (config : Config) (owner : TypeExpr)
    (size : Nat) :
    ((reconstruct config owner size slots).diagnostics ≠ [] ↔ ∃ o, Overrun config slots o) ∧
    (∀ p o, Precedes slots p o → o < keptStop p (keptAt config slots p) →
      (∀ o' < o, ¬Overrun config slots o') →
      (reconstruct config owner size slots).diagnostics =
        [.layoutOverrun owner.canonical (firstName slots o)
          (keptStop p (keptAt config slots p)) o]) ∧
    (∀ o, Reached config slots o →
      (reconstruct config owner size slots).Places o (keptAt config slots o)) ∧
    (∀ o, ¬Reached config slots o → (reconstruct config owner size slots).Places o []) ∧
    ((reconstruct config owner size slots).members.filter (·.role = .union)).map (·.type) =
      (reconstruct config owner size slots).unions.map (·.type) ∧
    ((reconstruct config owner size slots).unions.map (·.type)).Nodup := by
  have hDiagnostics := @layGroups_diagnostics config slots owner hFits size 0 []
    (offsets slots) rfl (by simp)
  rw [← groups_eq] at hDiagnostics
  change _ ∧ (reconstruct config owner size slots).diagnostics = [] ∨
    ∃ o p, _ ∧ _ ∧ _ ∧ (reconstruct config owner size slots).diagnostics = _ at hDiagnostics
  refine ⟨?_, ?_, ?_, ?_, references_reconstruct config owner size hFits⟩
  · rcases hDiagnostics with ⟨hNone, hEq⟩ | ⟨o, p, -, hPrecedes, hLt, hEq⟩
    · refine ⟨fun h => absurd hEq h, fun ⟨o, hOver⟩ => ?_⟩
      by_cases ho : o ∈ offsets slots
      · exact absurd hOver (hNone o ho)
      · exact absurd hOver (not_overrun_of_notMem ho)
    · exact ⟨fun _ => ⟨o, p, hPrecedes, hLt⟩, fun _ => by simp [hEq]⟩
  · intro p o hPrecedes hLt hFirst
    have hOver : Overrun config slots o := ⟨p, hPrecedes, hLt⟩
    rcases hDiagnostics with ⟨hNone, -⟩ | ⟨o', p', hFirst', hPrecedes', hLt', hEq⟩
    · exact absurd hOver (hNone o hPrecedes.2.1)
    · have ho : o' = o := by
        rcases lt_trichotomy o' o with h | h | h
        · exact absurd ⟨p', hPrecedes', hLt'⟩ (hFirst o' h)
        · exact h
        · exact absurd hOver (hFirst' o h)
      subst ho
      rw [hEq, hPrecedes.unique hPrecedes']
  · intro o hReached
    by_cases ho : o ∈ offsets slots
    · exact places_of_reached hFits ho hReached
    · have hNone : keptAt config slots o = [] := by
        rw [keptAt, slotsAt_eq_nil ho]
        rfl
      rw [hNone]
      exact places_of_not_reached hFits fun h => ho (List.mem_filter.mp h).1
  · intro o hReached
    apply places_of_not_reached hFits
    intro h
    exact hReached (of_decide_eq_true (List.mem_filter.mp h).2)

/-- Two slots over each other, and one that starts within them. -/
def crowded : List Slot :=
  [⟨"whole", .ofPath ["u64"], 0, 8⟩, ⟨"inside", .ofPath ["u32"], 4, 4⟩,
    ⟨"half", .ofPath ["u32"], 0, 4⟩]

theorem reconstruct_places_crowded : (∀ s ∈ crowded, s.Fits) ∧
    (reconstruct {} (.inModule [] "Owner") 16 crowded).diagnostics =
      [.layoutOverrun "crate::Owner" "inside" 8 4] := by
  have hFits : ∀ s ∈ crowded, s.Fits := by
    simp [crowded, Slot.Fits, minUnionSize, maxAddress]
  have hMem : ∀ q, q ∈ offsets crowded ↔ q = 0 ∨ q = 4 := by
    intro q
    simp only [mem_offsets, crowded, List.mem_cons, List.not_mem_nil, or_false, exists_eq_or_imp,
      exists_eq_left]
    omega
  have hPrecedes : Precedes crowded 0 4 := by
    refine ⟨by simp [hMem], by simp [hMem], by decide, fun q hq => ?_⟩
    have := (hMem q).mp hq
    omega
  have hStop : keptStop 0 (keptAt {} crowded 0) = 8 := by decide
  refine ⟨hFits, ?_⟩
  have hReport := (reconstruct_places hFits {} (.inModule [] "Owner") 16).2.1 0 4 hPrecedes
    (by rw [hStop]; decide) ?_
  · rw [hReport, hStop]
    rfl
  · rintro o hLess ⟨p, hBefore, -⟩
    have h1 := (hMem p).mp hBefore.1
    have h2 := (hMem o).mp hBefore.2.1
    have h3 := hBefore.2.2.1
    omega

end Reconstruct

end FixedLayout.Layout
