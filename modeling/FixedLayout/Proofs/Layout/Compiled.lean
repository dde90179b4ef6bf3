import FixedLayout.Proofs.Layout.Tiling
import Mathlib.Order.Bounds.Basic

/-! The layout that a compiler gives to the members of a plan. It puts each member at the first
multiple of its alignment behind the member before, and rounds the size up to the greatest alignment.
Since members lie side by side and gaps are bytes, which stand anywhere, every member gets the offset
that the plan has for it. -/

namespace FixedLayout.Layout

/-! ### The rule -/

/-- The first multiple of `align` that is not below `n`. -/
def alignUp (align n : Nat) : Nat := (n + (align - 1)) / align * align

theorem isLeast_alignUp {align : Nat} (h : 0 < align) (n : Nat) :
    IsLeast {k | align ∣ k ∧ n ≤ k} (alignUp align n) := by
  have hDiv := Nat.div_add_mod (n + (align - 1)) align
  have hMod := Nat.mod_lt (n + (align - 1)) h
  rw [Nat.mul_comm] at hDiv
  refine ⟨⟨Nat.dvd_mul_left .., by unfold alignUp; omega⟩, ?_⟩
  rintro _ ⟨⟨q, rfl⟩, hLe⟩
  have hLt : (n + (align - 1)) / align < q + 1 := by
    rw [Nat.div_lt_iff_lt_mul h, Nat.add_mul, Nat.one_mul, Nat.mul_comm q]
    omega
  rw [alignUp, Nat.mul_comm align q]
  exact Nat.mul_le_mul_right align (Nat.le_of_lt_succ hLt)

theorem alignUp_of_dvd {align n : Nat} (h : align ∣ n) : alignUp align n = n := by
  rcases Nat.eq_zero_or_pos align with rfl | hPos
  · rw [Nat.eq_zero_of_zero_dvd h]
    rfl
  · have hLeast : IsLeast {k | align ∣ k ∧ n ≤ k} n := ⟨⟨h, le_rfl⟩, fun _ hk => hk.2⟩
    exact (isLeast_alignUp hPos n).unique hLeast

/-- What a compiler knows of members: the bytes that each takes up, and what its offset has to be a
multiple of. -/
structure Measure where
  size : Member → Nat
  align : Member → Nat

namespace Measure

/-- Where the members are put that follow the byte `stop`. -/
def offsetsFrom (c : Measure) (stop : Nat) : List Member → List Nat
  | [] => []
  | m :: members =>
    let offset := alignUp (c.align m) stop
    offset :: c.offsetsFrom (offset + c.size m) members

/-- Where the last of these members ends. -/
def stopFrom (c : Measure) (stop : Nat) : List Member → Nat
  | [] => stop
  | m :: members => c.stopFrom (alignUp (c.align m) stop + c.size m) members

/-- The size of a type with these members. -/
def total (c : Measure) (members : List Member) : Nat :=
  alignUp ((members.map c.align).foldr max 1) (c.stopFrom 0 members)

/-- Bytes that no field claims have the size that their type tells, and may stand anywhere. -/
structure KnowsBytes (c : Measure) : Prop where
  single : ∀ m : Member, m.role = .gap → m.type = .ofPath ["u8"] → c.size m = 1 ∧ c.align m = 1
  array : ∀ (m : Member) (n : Nat), m.role = .gap →
    m.type = (TypeExpr.ofPath ["u8"]).withExtent n → c.size m = n ∧ c.align m = 1

/-- The slot has its size as a field, and it stands where a field of its alignment may. -/
structure Suits (c : Measure) (s : Slot) : Prop where
  size : c.size (s.member s.offset) = s.size
  align : c.align (s.member s.offset) ∣ s.offset

variable {c : Measure}

theorem KnowsBytes.gap (h : c.KnowsBytes) (offset size : Nat) :
    c.size (.gap offset size) = size ∧ c.align (.gap offset size) = 1 := by
  by_cases hOne : size = 1
  · subst hOne
    exact h.single _ rfl rfl
  · exact h.array _ size rfl (if_neg hOne)

/-- Members that lie side by side, each at a multiple of its alignment, are put where they lie. -/
theorem offsetsFrom_of_tiles {start stop : Nat} {members : List Member}
    (h : Tiles start stop members)
    (hMembers : ∀ m ∈ members, c.size m = m.size ∧ c.align m ∣ m.offset) :
    c.offsetsFrom start members = members.map Member.offset ∧
      c.stopFrom start members = stop := by
  induction members generalizing start with
  | nil => exact ⟨rfl, h⟩
  | cons m members ih =>
    obtain ⟨⟨hSize, hAlign⟩, hRest⟩ := List.forall_mem_cons.mp hMembers
    obtain ⟨hOffset, hTiles⟩ := h
    have hHere : alignUp (c.align m) start = m.offset := by
      rw [← hOffset, alignUp_of_dvd hAlign]
    have hNext : m.offset + c.size m = m.stop := by rw [hSize, Member.stop]
    obtain ⟨hOffsets, hStop⟩ := ih hTiles hRest
    constructor
    · simp only [offsetsFrom, hHere, hNext, hOffsets, List.map_cons]
    · rw [stopFrom, hHere, hNext, hStop]

theorem foldr_max_dvd {aligns : List Nat} {n : Nat} (h : ∀ a ∈ aligns, a ∣ n) :
    aligns.foldr max 1 ∣ n := by
  induction aligns with
  | nil => exact Nat.one_dvd n
  | cons a aligns ih =>
    obtain ⟨hHead, hTail⟩ := List.forall_mem_cons.mp h
    rw [List.foldr_cons]
    rcases max_choice a (aligns.foldr max 1) with hMax | hMax
    · rwa [hMax]
    · rw [hMax]
      exact ih hTail

end Measure

/-! ### The members of a plan -/

theorem exists_gap_of_mem_fillGaps {cursor target : Nat} {m : Member}
    (h : m ∈ fillGaps cursor target) : ∃ offset size, m = .gap offset size := by
  obtain ⟨c, -, rfl⟩ := exists_cursor_of_mem_fillGaps h
  exact ⟨_, _, rfl⟩

/-- A member of a plan is a gap, or it is placed for one of the groups. -/
theorem mem_layGroups_cases {config : Config} {owner : TypeExpr} {size cursor n : Nat}
    {groups : List (List Slot)} {m : Member}
    (h : m ∈ (layGroups config owner size cursor n groups).members) :
    (∃ offset size, m = .gap offset size) ∨ ∃ first others k, first :: others ∈ groups ∧
      m = (place owner k first.offset (contenders config first others)).1 := by
  fun_induction layGroups config owner size cursor n groups with
  | case1 => exact .inl (exists_gap_of_mem_fillGaps h)
  | case2 _ _ _ ih =>
    refine (ih h).imp_right ?_
    rintro ⟨first, others, k, hMem, hEq⟩
    exact ⟨first, others, k, List.mem_cons_of_mem _ hMem, hEq⟩
  | case3 => exact .inl (exists_gap_of_mem_fillGaps h)
  | case4 cursor n first others rest hLe member unions hPlace plan ih =>
    rcases List.mem_append.mp h with hGap | h
    · exact .inl (exists_gap_of_mem_fillGaps hGap)
    · rcases List.mem_cons.mp h with rfl | h
      · exact .inr ⟨first, others, n, List.mem_cons_self, by rw [hPlace]⟩
      · refine (ih h).imp_right ?_
        rintro ⟨first, others, k, hMem, hEq⟩
        exact ⟨first, others, k, List.mem_cons_of_mem _ hMem, hEq⟩

variable {config : Config} {owner : TypeExpr} {size : Nat} {slots : List Slot}

/-- Where no two slots share an offset, every group is a single slot. -/
theorem group_eq_singleton (hDistinct : (slots.map Slot.offset).Nodup) {first : Slot}
    {others : List Slot} (h : first :: others ∈ groups slots) : first ∈ slots ∧ others = [] := by
  rw [groups_eq] at h
  obtain ⟨o, -, hGroup⟩ := List.mem_map.mp h
  have hHere : ∀ s ∈ first :: others, s ∈ slots ∧ s.offset = o := by
    rw [← hGroup]
    exact fun s => mem_slotsAt.mp
  have hNodup : ((first :: others).map Slot.offset).Nodup := by
    rw [← hGroup]
    exact hDistinct.sublist (List.filter_sublist.map _)
  refine ⟨(hHere first List.mem_cons_self).1, ?_⟩
  cases others with
  | nil => rfl
  | cons s others =>
    have hSame : first.offset = s.offset :=
      (hHere first (by simp)).2.trans (hHere s (by simp)).2.symm
    simp [hSame] at hNodup

/-- Where no two slots share an offset, the members are gaps and fields. -/
theorem mem_reconstruct_cases (hDistinct : (slots.map Slot.offset).Nodup) {m : Member}
    (h : m ∈ (reconstruct config owner size slots).members) :
    (∃ offset size, m = .gap offset size) ∨ ∃ s ∈ slots, m = s.member s.offset := by
  refine (mem_layGroups_cases h).imp_right ?_
  rintro ⟨first, others, k, hGroup, rfl⟩
  obtain ⟨hFirst, rfl⟩ := group_eq_singleton hDistinct hGroup
  exact ⟨first, hFirst, rfl⟩

/-- A compiler lays a struct out as its plan says, also where an overrun cuts it short. If no two
slots share an offset and each stands at a multiple of its alignment, every member gets the offset
that it has in the plan. If also no slot ends behind the declared size, which is a multiple of every
alignment, then that is the size of the type. -/
theorem compiled_reconstruct {c : Measure} (hFits : ∀ s ∈ slots, s.Fits)
    (hDistinct : (slots.map Slot.offset).Nodup) (hBytes : c.KnowsBytes)
    (hSlots : ∀ s ∈ slots, c.Suits s) (config : Config) (owner : TypeExpr) (size : Nat) :
    c.offsetsFrom 0 (reconstruct config owner size slots).members =
      (reconstruct config owner size slots).members.map Member.offset ∧
    ((∀ s ∈ slots, s.offset + s.size ≤ size ∧ c.align (s.member s.offset) ∣ size) →
      c.total (reconstruct config owner size slots).members = size) := by
  have hTiles := tiles_reconstruct hFits config owner size
  have hMembers : ∀ m ∈ (reconstruct config owner size slots).members,
      c.size m = m.size ∧ c.align m ∣ m.offset := by
    intro m hm
    rcases mem_reconstruct_cases hDistinct hm with ⟨offset, n, rfl⟩ | ⟨s, hs, rfl⟩
    · obtain ⟨hSize, hAlign⟩ := hBytes.gap offset n
      exact ⟨hSize, hAlign ▸ Nat.one_dvd _⟩
    · exact ⟨(hSlots s hs).size, (hSlots s hs).align⟩
  obtain ⟨hOffsets, hStop⟩ := Measure.offsetsFrom_of_tiles hTiles hMembers
  refine ⟨hOffsets, fun hEnds => ?_⟩
  have hLast : lastStop 0 (reconstruct config owner size slots).members ≤ size := by
    refine (hTiles.lastStop_le_iff le_rfl size).mpr ⟨Nat.zero_le size, fun m hm hRole => ?_⟩
    rcases mem_reconstruct_cases hDistinct hm with ⟨offset, n, rfl⟩ | ⟨s, hs, rfl⟩
    · exact absurd rfl hRole
    · exact (hEnds s hs).1
  have hAligns : ∀ a ∈ (reconstruct config owner size slots).members.map c.align, a ∣ size := by
    refine List.forall_mem_map.mpr fun m hm => ?_
    rcases mem_reconstruct_cases hDistinct hm with ⟨offset, n, rfl⟩ | ⟨s, hs, rfl⟩
    · rw [(hBytes.gap offset n).2]
      exact Nat.one_dvd size
    · exact (hEnds s hs).2
  rw [Measure.total, hStop, max_eq_left hLast]
  exact alignUp_of_dvd (Measure.foldr_max_dvd hAligns)

/-- A compiler for bytes and words of four bytes. -/
def Measure.words : Measure where
  size m := m.type.extent.getD 1 * if m.type.name = "u8" then 1 else 4
  align m := if m.type.name = "u8" then 1 else 4

/-- A word and a byte, with gaps of one, two and four bytes around them. -/
def uneven : List Slot := [⟨"count", .ofPath ["i32"], 4, 4⟩, ⟨"flag", .ofPath ["u8"], 8, 1⟩]

theorem compiled_reconstruct_uneven :
    (∀ s ∈ uneven, s.Fits) ∧ (uneven.map Slot.offset).Nodup ∧ Measure.words.KnowsBytes ∧
    (∀ s ∈ uneven, Measure.words.Suits s) ∧
    (∀ s ∈ uneven, s.offset + s.size ≤ 16 ∧ Measure.words.align (s.member s.offset) ∣ 16) ∧
    Measure.words.offsetsFrom 0 (reconstruct {} (.inModule [] "Owner") 16 uneven).members =
      [0, 4, 8, 9, 10, 12] ∧
    Measure.words.total (reconstruct {} (.inModule [] "Owner") 16 uneven).members = 16 := by
  have hFits : ∀ s ∈ uneven, s.Fits := by
    simp [uneven, Slot.Fits, minUnionSize, maxAddress]
  have hDistinct : (uneven.map Slot.offset).Nodup := by decide
  have hBytes : Measure.words.KnowsBytes :=
    ⟨fun m _ hType => by simp [Measure.words, hType, TypeExpr.ofPath, TypeExpr.name],
      fun m n _ hType => by
        simp [Measure.words, hType, TypeExpr.ofPath, TypeExpr.withExtent, TypeExpr.name]⟩
  have hSlots : ∀ s ∈ uneven, Measure.words.Suits s := by
    simp only [uneven, List.forall_mem_cons]
    exact ⟨⟨by decide, by decide⟩, ⟨by decide, by decide⟩, List.forall_mem_nil _⟩
  have hEnds : ∀ s ∈ uneven,
      s.offset + s.size ≤ 16 ∧ Measure.words.align (s.member s.offset) ∣ 16 := by
    decide
  have hOffsets : (reconstruct {} (.inModule [] "Owner") 16 uneven).members.map Member.offset =
      [0, 4, 8, 9, 10, 12] := by
    have hSorted : byOffset uneven = uneven := List.mergeSort_of_pairwise (by decide)
    rw [reconstruct, groups, hSorted]
    decide +kernel
  obtain ⟨hSame, hTotal⟩ :=
    compiled_reconstruct hFits hDistinct hBytes hSlots {} (.inModule [] "Owner") 16
  exact ⟨hFits, hDistinct, hBytes, hSlots, hEnds, hSame.trans hOffsets, hTotal hEnds⟩

end FixedLayout.Layout
