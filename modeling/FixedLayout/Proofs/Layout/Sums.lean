import FixedLayout.Proofs.Layout.Extent

/-! The sums of addresses that a plan takes: for each group, where its member ends. Where all slots
fit, every one of them is an address itself. So it does not show in the plan what becomes of a sum
that is none, whether it is clamped, wrapped or kept as it is. -/

namespace FixedLayout.Layout

/-- Lays groups of slots as `layGroups` does, with `add` for the sum of two addresses. -/
def layGroupsBy (add : Nat → Nat → Nat) (config : Config) (owner : TypeExpr) (size : Nat)
    (cursor n : Nat) : List (List Slot) → Plan
  | [] => { members := fillGaps cursor size }
  | [] :: rest => layGroupsBy add config owner size cursor n rest
  | (first :: others) :: rest =>
    if first.offset < cursor then
      { members := fillGaps cursor size
        diagnostics := [.layoutOverrun owner.canonical first.name cursor first.offset] }
    else
      let (member, unions) := place owner n first.offset (contenders config first others)
      let plan := layGroupsBy add config owner size (add first.offset member.size)
        (n + unions.length) rest
      { plan with
        members := fillGaps cursor first.offset ++ member :: plan.members
        unions := unions ++ plan.unions }

variable {config : Config} {owner : TypeExpr} {size : Nat} {slots : List Slot}

theorem le_maxAddress_iff {n : Nat} : n ≤ maxAddress ↔ n < 2 ^ 64 := by
  rw [maxAddress]
  omega

theorem layGroupsBy_clampedAdd (cursor n : Nat) (groups : List (List Slot)) :
    layGroupsBy clampedAdd config owner size cursor n groups =
      layGroups config owner size cursor n groups := by
  fun_induction layGroups config owner size cursor n groups with
  | case1 => rfl
  | case2 _ _ _ ih => exact ih
  | case3 cursor n first others rest hLt => rw [layGroupsBy, if_pos hLt]
  | case4 cursor n first others rest hLe member unions hPlace plan ih =>
    rw [layGroupsBy, if_neg hLe, hPlace]
    simp only [ih, plan]

/-- Two ways to add that agree wherever the sum is an address. -/
def AddsAlike (add add' : Nat → Nat → Nat) : Prop :=
  ∀ a b, a + b < 2 ^ 64 → add a b = add' a b

theorem addsAlike_clampedAdd : AddsAlike clampedAdd (· + ·) :=
  fun _ _ hLt => min_eq_left (le_maxAddress_iff.mpr hLt)

theorem layGroupsBy_alike {add add' : Nat → Nat → Nat} (hAdd : AddsAlike add add')
    (hFits : ∀ s ∈ slots, s.Fits) {os : List Nat} (hOs : ∀ o ∈ os, o ∈ offsets slots)
    (cursor n : Nat) :
    layGroupsBy add config owner size cursor n (os.map (slotsAt slots)) =
      layGroupsBy add' config owner size cursor n (os.map (slotsAt slots)) := by
  induction os generalizing cursor n with
  | nil => rfl
  | cons o os ih =>
    have ho := hOs o List.mem_cons_self
    obtain ⟨first, others, hGroup, hFirst⟩ := exists_slotsAt_eq_cons ho
    have hKept : contenders config first others = keptAt config slots o := by
      rw [contenders_eq, keptAt, hGroup]
    -- The one sum for this group is the address at which its member ends.
    have hSum : add o (place owner n o (keptAt config slots o)).1.size =
        add' o (place owner n o (keptAt config slots o)).1.size := by
      have hStop := stop_place owner n o (keptAt config slots o)
      rw [Member.stop, offset_place] at hStop
      exact hAdd _ _ (hStop ▸ le_maxAddress_iff.mp (keptStop_keptAt_le config ho hFits))
    rw [List.map_cons, hGroup]
    simp only [layGroupsBy, hFirst, hKept, hSum,
      ih fun o' ho' => hOs o' (List.mem_cons_of_mem _ ho')]

theorem reconstruct_eq_layGroupsBy {add : Nat → Nat → Nat} (hAdd : AddsAlike add (· + ·))
    (hFits : ∀ s ∈ slots, s.Fits) :
    reconstruct config owner size slots =
      layGroupsBy add config owner size 0 0 (groups slots) := by
  have hClamped : AddsAlike clampedAdd add := fun a b hLt =>
    (addsAlike_clampedAdd a b hLt).trans (hAdd a b hLt).symm
  rw [reconstruct, groups_eq, ← layGroupsBy_clampedAdd]
  exact layGroupsBy_alike hClamped hFits (fun _ h => h) 0 0

theorem stop_le_of_mem_reconstruct (hFits : ∀ s ∈ slots, s.Fits) {m : Member}
    (hMem : m ∈ (reconstruct config owner size slots).members) (hRole : m.role ≠ .gap) :
    m.stop ≤ maxAddress := by
  have hPlaced : m ∈ (placed config owner slots).map (·.1) := by
    rw [← (reconstruct_placed config owner size hFits).1]
    exact List.mem_filter.mpr ⟨hMem, by simpa using hRole⟩
  have hStop : m.stop ∈ ((placed config owner slots).map (·.1)).map Member.stop :=
    List.mem_map_of_mem hPlaced
  rw [placed, List.map_map, Function.comp_def, stop_placements] at hStop
  obtain ⟨o, ho, hEq⟩ := List.mem_map.mp hStop
  exact hEq ▸ keptStop_keptAt_le config (List.mem_filter.mp ho).1 hFits

/-- No sum that goes into the plan of some slots leaves the address space. -/
structure InRange (config : Config) (owner : TypeExpr) (size : Nat) (slots : List Slot) : Prop where
  /-- The plan is the one for any sum of addresses that is right where it is an address. -/
  plan : ∀ add, AddsAlike add (· + ·) → reconstruct config owner size slots =
    layGroupsBy add config owner size 0 0 (groups slots)
  /-- A field or a union ends at an address, from which the cursor goes on. -/
  placed : ∀ m ∈ (reconstruct config owner size slots).members, m.role ≠ .gap →
    m.offset + m.size < 2 ^ 64
  /-- The gaps do not take the cursor any further, unless the size itself is no address. -/
  cursor : size < 2 ^ 64 → ∀ m ∈ (reconstruct config owner size slots).members,
    m.offset + m.size < 2 ^ 64

theorem inRange_of_fits (hFits : ∀ s ∈ slots, s.Fits) : InRange config owner size slots := by
  have hPlaced : ∀ m ∈ (reconstruct config owner size slots).members, m.role ≠ .gap →
      m.stop ≤ maxAddress := fun _ => stop_le_of_mem_reconstruct hFits
  refine ⟨fun add hAdd => reconstruct_eq_layGroupsBy hAdd hFits,
    fun m hMem hRole => le_maxAddress_iff.mp (hPlaced m hMem hRole), fun hSize m hMem => ?_⟩
  have hTiles := tiles_reconstruct hFits config owner size
  have hLast : lastStop 0 (reconstruct config owner size slots).members ≤ maxAddress :=
    (hTiles.lastStop_le_iff le_rfl _).mpr ⟨Nat.zero_le _, hPlaced⟩
  have hStop := (hTiles.stop_le.2 m hMem).trans (max_le (le_maxAddress_iff.mpr hSize) hLast)
  exact le_maxAddress_iff.mp hStop

end FixedLayout.Layout
