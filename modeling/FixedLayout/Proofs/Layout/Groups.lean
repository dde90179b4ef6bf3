import FixedLayout.Layout.Plan
import Mathlib.Data.Finset.Sort
import Mathlib.Data.List.SplitBy

/-! The slots of a struct by offset. Sorting and splitting yield, for each offset in use and in
order, the slots at this offset as they stood in the input. Each such group is placed as one member,
a field or a union, and `layGroups_slotsAt` says what a plan does with it. -/

namespace FixedLayout.Layout

/-- The slots at an offset, in the order of the input. -/
def slotsAt (slots : List Slot) (o : Nat) : List Slot := slots.filter (·.offset = o)

/-- The offsets in use, each once and in order. -/
def offsets (slots : List Slot) : List Nat := (slots.map Slot.offset).toFinset.sort

@[simp] theorem mem_slotsAt {slots : List Slot} {o : Nat} {s : Slot} :
    s ∈ slotsAt slots o ↔ s ∈ slots ∧ s.offset = o := by
  simp [slotsAt]

theorem mem_offsets {slots : List Slot} {o : Nat} :
    o ∈ offsets slots ↔ ∃ s ∈ slots, s.offset = o := by
  simp [offsets]

theorem pairwise_offsets (slots : List Slot) : (offsets slots).Pairwise (· < ·) :=
  (Finset.sortedLT_sort _).pairwise

theorem slotsAt_ne_nil {slots : List Slot} {o : Nat} (h : o ∈ offsets slots) :
    slotsAt slots o ≠ [] := by
  obtain ⟨s, hs, ho⟩ := mem_offsets.mp h
  exact List.ne_nil_of_mem (mem_slotsAt.mpr ⟨hs, ho⟩)

theorem exists_slotsAt_eq_cons {slots : List Slot} {o : Nat} (h : o ∈ offsets slots) :
    ∃ first others, slotsAt slots o = first :: others ∧ first.offset = o := by
  obtain ⟨first, others, hGroup⟩ := List.exists_cons_of_ne_nil (slotsAt_ne_nil h)
  have hFirst : first ∈ slotsAt slots o := hGroup ▸ List.mem_cons_self
  exact ⟨first, others, hGroup, (mem_slotsAt.mp hFirst).2⟩

theorem slotsAt_eq_nil {slots : List Slot} {o : Nat} (h : o ∉ offsets slots) :
    slotsAt slots o = [] := by
  refine List.filter_eq_nil_iff.mpr fun s hs ho => h ?_
  exact mem_offsets.mpr ⟨s, hs, by simpa using ho⟩

theorem byOffset_perm (slots : List Slot) : (byOffset slots).Perm slots :=
  List.mergeSort_perm _ _

theorem pairwise_byOffset (slots : List Slot) :
    (byOffset slots).Pairwise fun a b => a.offset ≤ b.offset := by
  have h := @List.pairwise_mergeSort Slot (fun a b => decide (a.offset ≤ b.offset))
    (fun a b c => by simpa using Nat.le_trans) (fun a b => by simpa using Nat.le_total _ _) slots
  simpa [byOffset] using h

/-- A sort is stable: elements that it counts as equal keep their order. -/
theorem filter_mergeSort {α : Type} {le : α → α → Bool}
    (hTrans : ∀ a b c, le a b → le b c → le a c) (hTotal : ∀ a b, le a b || le b a)
    {p : α → Bool} (hEqual : ∀ a b, p a → p b → le a b) (l : List α) :
    (l.mergeSort le).filter p = l.filter p := by
  have hSorted : (l.filter p).Pairwise fun a b => le a b := by
    apply List.pairwise_of_forall_mem_list
    intro a ha b hb
    exact hEqual a b (List.mem_filter.mp ha).2 (List.mem_filter.mp hb).2
  have hSub : (l.filter p).Sublist (l.mergeSort le) :=
    List.sublist_mergeSort hTrans hTotal hSorted List.filter_sublist
  have hFilter : (l.filter p).Sublist ((l.mergeSort le).filter p) := by
    simpa using hSub.filter p
  exact (hFilter.eq_of_length ((List.mergeSort_perm l le).filter p).length_eq.symm).symm

/-- Slots that share an offset keep their order. -/
theorem slotsAt_byOffset (slots : List Slot) (o : Nat) :
    slotsAt (byOffset slots) o = slotsAt slots o := by
  refine filter_mergeSort (fun a b c => by simpa using Nat.le_trans)
    (fun a b => by simpa using Nat.le_total _ _) (fun a b ha hb => ?_) slots
  simp only [decide_eq_true_eq] at ha hb ⊢
  omega

/-- In the order of the offsets, the slots at the least one come first. -/
theorem slotsAt_append {slots : List Slot} {o : Nat}
    (hSlots : slots.Pairwise fun a b => a.offset ≤ b.offset) (hLeast : ∀ s ∈ slots, o ≤ s.offset) :
    slotsAt slots o ++ slots.filter (·.offset ≠ o) = slots := by
  induction slots with
  | nil => rfl
  | cons s slots ih =>
    obtain ⟨hHead, hTail⟩ := List.pairwise_cons.mp hSlots
    by_cases hs : s.offset = o
    · have := ih hTail fun other h => hLeast other (List.mem_cons_of_mem _ h)
      simpa [slotsAt, hs] using this
    · have hAll : ∀ other ∈ s :: slots, other.offset ≠ o := by
        have hLt : o < s.offset := by have := hLeast s (by simp); omega
        rintro other (_ | ⟨_, hOther⟩)
        · omega
        · have := hHead other hOther; omega
      rw [slotsAt, List.filter_eq_nil_iff.mpr (by simpa using hAll),
        List.filter_eq_self.mpr (by simpa using hAll), List.nil_append]

/-- Slots in the order of their offsets are those at each offset in turn. -/
theorem flatMap_slotsAt {slots : List Slot} {os : List Nat}
    (hSlots : slots.Pairwise fun a b => a.offset ≤ b.offset) (hOs : os.Pairwise (· < ·))
    (hMem : ∀ s ∈ slots, s.offset ∈ os) : os.flatMap (slotsAt slots) = slots := by
  induction os generalizing slots with
  | nil => simpa [List.eq_nil_iff_forall_not_mem] using hMem
  | cons o os ih =>
    obtain ⟨hHead, hTail⟩ := List.pairwise_cons.mp hOs
    have hRest : os.flatMap (slotsAt slots) = slots.filter (·.offset ≠ o) := by
      rw [← @ih (slots.filter (·.offset ≠ o)) (hSlots.sublist List.filter_sublist) hTail]
      · apply List.flatMap_congr
        intro o' ho'
        have hne : o' ≠ o := by have := hHead o' ho'; omega
        rw [slotsAt, slotsAt, List.filter_filter]
        apply List.filter_congr
        intro s _
        by_cases hs : s.offset = o' <;> simp [hs, hne]
      · intro s hs
        rw [List.mem_filter] at hs
        simpa [of_decide_eq_true hs.2] using hMem s hs.1
    rw [List.flatMap_cons, hRest]
    apply slotsAt_append hSlots
    intro s hs
    rcases List.mem_cons.mp (hMem s hs) with h | h
    · omega
    · exact (hHead _ h).le

/-- The groups are the slots at each offset in use, in the order of the offsets. -/
theorem groups_eq (slots : List Slot) : groups slots = (offsets slots).map (slotsAt slots) := by
  have hFlat : byOffset slots = ((offsets slots).map (slotsAt slots)).flatten := by
    have h := flatMap_slotsAt (pairwise_byOffset slots) (pairwise_offsets slots) fun s hs =>
      mem_offsets.mpr ⟨s, (byOffset_perm slots).mem_iff.mp hs, rfl⟩
    rw [funext (slotsAt_byOffset slots)] at h
    rw [← List.flatMap_def, h]
  rw [groups, List.splitBy_eq_iff]
  refine ⟨hFlat, fun hNil => ?_, fun group hGroup => ?_, ?_⟩
  · obtain ⟨o, ho, h⟩ := List.mem_map.mp hNil
    exact slotsAt_ne_nil ho h
  · obtain ⟨o, -, rfl⟩ := List.mem_map.mp hGroup
    refine List.Pairwise.isChain (List.pairwise_of_forall_mem_list fun a ha b hb => ?_)
    simp [(mem_slotsAt.mp ha).2, (mem_slotsAt.mp hb).2]
  · rw [List.isChain_map]
    refine List.Pairwise.isChain ?_
    apply (pairwise_offsets slots).imp_of_mem
    intro o o' ho ho' hLt
    refine ⟨slotsAt_ne_nil ho, slotsAt_ne_nil ho', ?_⟩
    have hLast := (mem_slotsAt.mp (List.getLast_mem (slotsAt_ne_nil ho))).2
    have hFirst := (mem_slotsAt.mp (List.head_mem (slotsAt_ne_nil ho'))).2
    simp only [hLast, hFirst, beq_eq_false_iff_ne]
    omega

/-! ### One group -/

/-- The slot ends at an address, even if a union of the least size has to hold it. -/
def Slot.Fits (s : Slot) : Prop := s.offset + max s.size minUnionSize ≤ maxAddress

def widest (slots : List Slot) : Nat := (slots.map Slot.size).foldr max 0

/-- The slots of a group that count. A group of several has its pointers to the virtual table
dropped, or all but its first slot if there is nothing else in it. -/
def kept (config : Config) (group : List Slot) : List Slot :=
  if group.length < 2 then group
  else
    let fields := group.filter fun s => !config.isTableMarker s.name
    if fields.isEmpty then group.take 1 else fields

/-- Where the slots kept at an offset end: a single one after its size, several after that of the
union that holds them. -/
def keptStop (o : Nat) : List Slot → Nat
  | [s] => o + s.size
  | slots => o + max (widest slots) minUnionSize

theorem le_widest {slots : List Slot} {s : Slot} (h : s ∈ slots) : s.size ≤ widest slots := by
  induction slots with
  | nil => simp at h
  | cons other slots ih =>
    rw [widest, List.map_cons, List.foldr_cons]
    rcases List.mem_cons.mp h with rfl | h
    · exact le_max_left _ _
    · exact (ih h).trans (le_max_right _ _)

theorem exists_widest {slots : List Slot} (h : slots ≠ []) :
    ∃ s ∈ slots, s.size = widest slots := by
  induction slots with
  | nil => exact absurd rfl h
  | cons s slots ih =>
    rw [widest, List.map_cons, List.foldr_cons]
    rcases eq_or_ne slots [] with rfl | hSlots
    · exact ⟨s, by simp⟩
    · obtain ⟨other, hOther, hSize⟩ := ih hSlots
      rcases le_total s.size (widest slots) with hLe | hLe
      · exact ⟨other, List.mem_cons_of_mem _ hOther, hSize.trans (max_eq_right hLe).symm⟩
      · exact ⟨s, by simp, (max_eq_left hLe).symm⟩

theorem widest_le_iff {slots : List Slot} {n : Nat} :
    widest slots ≤ n ↔ ∀ s ∈ slots, s.size ≤ n := by
  constructor
  · intro h s hs
    exact (le_widest hs).trans h
  · intro h
    rcases eq_or_ne slots [] with rfl | hSlots
    · exact Nat.zero_le n
    · obtain ⟨s, hs, hSize⟩ := exists_widest hSlots
      exact hSize ▸ h s hs

theorem contenders_eq (config : Config) (first : Slot) (others : List Slot) :
    contenders config first others = kept config (first :: others) := by
  cases others <;> simp [contenders, kept]

theorem mem_of_mem_kept {config : Config} {group : List Slot} {s : Slot}
    (h : s ∈ kept config group) : s ∈ group := by
  simp only [kept] at h
  split at h
  · exact h
  · split at h
    · exact List.mem_of_mem_take h
    · exact List.mem_of_mem_filter h

theorem kept_ne_nil {config : Config} {group : List Slot} (h : group ≠ []) :
    kept config group ≠ [] := by
  simp only [kept]
  split
  · exact h
  · split
    · simpa using h
    · rename_i hFields
      exact fun hNil => hFields (by rw [hNil]; rfl)

theorem widestFirst_perm (slots : List Slot) : (widestFirst slots).Perm slots :=
  List.mergeSort_perm _ _

theorem pairwise_widestFirst (slots : List Slot) :
    (widestFirst slots).Pairwise fun a b => b.size ≤ a.size := by
  have h := @List.pairwise_mergeSort Slot (fun a b => decide (b.size ≤ a.size))
    (fun a b c => by simpa using fun h h' => Nat.le_trans h' h)
    (fun a b => by simpa using Nat.le_total _ _) slots
  simpa [widestFirst] using h

/-- Equally wide slots keep their order. -/
theorem filter_widestFirst (slots : List Slot) (n : Nat) :
    (widestFirst slots).filter (·.size = n) = slots.filter (·.size = n) := by
  refine filter_mergeSort (fun a b c => by simpa using fun h h' => Nat.le_trans h' h)
    (fun a b => by simpa using Nat.le_total _ _) (fun a b ha hb => ?_) slots
  simp only [decide_eq_true_eq] at ha hb ⊢
  omega

/-- The first slot of a union is its widest. -/
theorem head?_widestFirst (slots : List Slot) :
    ((widestFirst slots).head?.map Slot.size).getD 0 = widest slots := by
  have hSorted := pairwise_widestFirst slots
  have hMem : ∀ s, s ∈ widestFirst slots ↔ s ∈ slots := by
    intro s
    exact (widestFirst_perm slots).mem_iff
  cases hOrdered : widestFirst slots with
  | nil =>
    rw [hOrdered] at hMem
    simp [List.eq_nil_iff_forall_not_mem.mpr fun s hs => by simpa using (hMem s).mpr hs, widest]
  | cons s rest =>
    rw [hOrdered] at hMem hSorted
    obtain ⟨other, hOther, hSize⟩ := exists_widest (List.ne_nil_of_mem ((hMem s).mp (by simp)))
    have hLe : other.size ≤ s.size := by
      rcases List.mem_cons.mp ((hMem other).mpr hOther) with rfl | h
      · exact le_rfl
      · exact (List.pairwise_cons.mp hSorted).1 other h
    have hGe := le_widest ((hMem s).mp (by simp))
    simp only [List.head?_cons, Option.map_some, Option.getD_some]
    omega

theorem size_unionOf (type : TypeExpr) (slots : List Slot) (n : Nat) :
    (unionOf type slots n).size = max (widest slots) n := by
  simp only [unionOf, head?_widestFirst, Record.empty]

section Place

variable (owner : TypeExpr) (n o : Nat) (slots : List Slot)

theorem offset_place : (place owner n o slots).1.offset = o := by
  unfold place
  split <;> rfl

theorem role_place : (place owner n o slots).1.role ≠ .gap := by
  unfold place
  split <;> simp [Slot.member]

theorem stop_place : (place owner n o slots).1.stop = keptStop o slots := by
  unfold place keptStop
  split
  · rfl
  · simp [Member.stop, size_unionOf]

end Place

theorem keptStop_le {o : Nat} {slots : List Slot} (h : slots ≠ [])
    (hFits : ∀ s ∈ slots, s.offset = o ∧ s.Fits) : keptStop o slots ≤ maxAddress := by
  unfold keptStop
  split
  · rename_i s
    obtain ⟨ho, hs⟩ := hFits s (by simp)
    have := le_max_left s.size minUnionSize
    unfold Slot.Fits at hs
    omega
  · obtain ⟨s, hMem, hSize⟩ := exists_widest h
    obtain ⟨ho, hs⟩ := hFits s hMem
    unfold Slot.Fits at hs
    rwa [← hSize, ← ho]

/-- The slots that count at an offset. -/
def keptAt (config : Config) (slots : List Slot) (o : Nat) : List Slot :=
  kept config (slotsAt slots o)

theorem keptAt_ne_nil (config : Config) {slots : List Slot} {o : Nat} (h : o ∈ offsets slots) :
    keptAt config slots o ≠ [] :=
  kept_ne_nil (slotsAt_ne_nil h)

/-- What counts at an offset ends at an address, since all slots do. -/
theorem keptStop_keptAt_le (config : Config) {slots : List Slot} {o : Nat} (h : o ∈ offsets slots)
    (hFits : ∀ s ∈ slots, s.Fits) : keptStop o (keptAt config slots o) ≤ maxAddress := by
  apply keptStop_le (keptAt_ne_nil config h)
  intro s hs
  obtain ⟨hMem, hOffset⟩ := mem_slotsAt.mp (mem_of_mem_kept hs)
  exact ⟨hOffset, hFits s hMem⟩

/-- The name of the first slot at an offset. -/
def firstName (slots : List Slot) (o : Nat) : String :=
  ((slotsAt slots o).head?.map Slot.name).getD ""

/-- What a plan does with the slots at one offset: unless they start before the cursor, it closes
the gap in front of them, places those that count, and goes on where they end. -/
theorem layGroups_slotsAt {config : Config} {owner : TypeExpr} {size cursor n o : Nat}
    {slots : List Slot} {rest : List (List Slot)} (ho : o ∈ offsets slots)
    (hFits : ∀ s ∈ slots, s.Fits) :
    layGroups config owner size cursor n (slotsAt slots o :: rest) =
      if o < cursor then
        { members := fillGaps cursor size
          diagnostics := [.layoutOverrun owner.canonical (firstName slots o) cursor o] }
      else
        let placed := place owner n o (keptAt config slots o)
        let plan := layGroups config owner size (keptStop o (keptAt config slots o))
          (n + placed.2.length) rest
        { plan with
          members := fillGaps cursor o ++ placed.1 :: plan.members
          unions := placed.2 ++ plan.unions } := by
  have hStop : clampedAdd o (place owner n o (keptAt config slots o)).1.size =
      keptStop o (keptAt config slots o) := by
    have h := stop_place owner n o (keptAt config slots o)
    rw [Member.stop, offset_place] at h
    rw [clampedAdd, h, min_eq_left (keptStop_keptAt_le config ho hFits)]
  obtain ⟨first, others, hGroup, hFirst⟩ := exists_slotsAt_eq_cons ho
  simp only [keptAt, hGroup] at hStop ⊢
  rw [layGroups, hFirst, contenders_eq]
  simp only [hStop, firstName, hGroup, List.head?_cons, Option.map_some, Option.getD_some]

/-- The unions of a plan are numbered unions of its owner. -/
theorem union_of_mem_layGroups {config : Config} {owner : TypeExpr} {size cursor n : Nat}
    {groups : List (List Slot)} {u : Record}
    (h : u ∈ (layGroups config owner size cursor n groups).unions) :
    ∃ k slots, u = unionOf (unionType owner k) slots minUnionSize := by
  fun_induction layGroups config owner size cursor n groups with
  | case1 => cases h
  | case2 _ _ _ ih => exact ih h
  | case3 => cases h
  | case4 cursor n first others rest hLe member unions hPlace plan ih =>
    rcases List.mem_append.mp h with hHere | hRest
    · unfold place at hPlace
      split at hPlace
      · cases hPlace
        cases hHere
      · cases hPlace
        exact ⟨n, _, List.mem_singleton.mp hHere⟩
    · exact ih hRest

/-- One slot needs no union. -/
theorem unions_singleton (config : Config) (owner : TypeExpr) (size : Nat) (slot : Slot) :
    (reconstruct config owner size [slot]).unions = [] := by
  simp [reconstruct, groups, byOffset, List.splitBy, List.splitBy.loop, layGroups, contenders,
    place]

end FixedLayout.Layout
