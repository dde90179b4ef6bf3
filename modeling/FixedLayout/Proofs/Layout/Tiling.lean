import FixedLayout.Proofs.Layout.Groups
import Mathlib.Algebra.GroupWithZero.Nat

/-! The members of a plan lie side by side. Gaps reach exactly from the cursor to the next slot, and
each member moves the cursor to its own end, so the bytes of a struct are covered without a hole and
without an overlap. -/

namespace FixedLayout.Layout

/-- The members cover the bytes from `start` to `stop`: each begins where the one before it ends. -/
def Tiles (start stop : Nat) : List Member → Prop
  | [] => start = stop
  | m :: members => m.offset = start ∧ Tiles m.stop stop members

/-- Where the last member that is no gap ends, or `start` if all are gaps. -/
def lastStop (start : Nat) (members : List Member) : Nat :=
  members.foldl (fun stop m => if m.role = .gap then stop else m.stop) start

theorem Tiles.append {start middle stop : Nat} {members members' : List Member}
    (h : Tiles start middle members) (h' : Tiles middle stop members') :
    Tiles start stop (members ++ members') := by
  induction members generalizing start with
  | nil => exact h ▸ h'
  | cons m members ih => exact ⟨h.1, ih h.2⟩

/-- The sizes of the members add up to what they cover. -/
theorem Tiles.sum {start stop : Nat} {members : List Member} (h : Tiles start stop members) :
    start + (members.map Member.size).sum = stop := by
  induction members generalizing start with
  | nil => exact h
  | cons m members ih =>
    have hRest := ih h.2
    rw [Member.stop, h.1] at hRest
    rw [List.map_cons, List.sum_cons]
    omega

/-- No member ends behind what all of them cover. -/
theorem Tiles.stop_le {start stop : Nat} {members : List Member} (h : Tiles start stop members) :
    start ≤ stop ∧ ∀ m ∈ members, m.stop ≤ stop := by
  induction members generalizing start with
  | nil => exact ⟨h.le, by simp⟩
  | cons m members ih =>
    obtain ⟨hLe, hRest⟩ := ih h.2
    have hStop : m.offset ≤ m.stop := Nat.le_add_right ..
    rw [h.1] at hStop
    exact ⟨hStop.trans hLe, List.forall_mem_cons.mpr ⟨hLe, hRest⟩⟩

/-- The last member that is no gap ends behind all the others. -/
theorem Tiles.lastStop_le_iff {start stop : Nat} {members : List Member}
    (h : Tiles start stop members) {last : Nat} (hLast : last ≤ start) (n : Nat) :
    lastStop last members ≤ n ↔ last ≤ n ∧ ∀ m ∈ members, m.role ≠ .gap → m.stop ≤ n := by
  induction members generalizing start last with
  | nil => simp [lastStop]
  | cons m members ih =>
    have hStop : m.offset ≤ m.stop := Nat.le_add_right ..
    rw [h.1] at hStop
    rw [lastStop, List.foldl_cons, List.forall_mem_cons]
    by_cases hRole : m.role = .gap
    · rw [if_pos hRole]
      simpa [lastStop, hRole] using ih h.2 (hLast.trans hStop)
    · rw [if_neg hRole]
      refine (ih h.2 le_rfl).trans ⟨fun ⟨hHere, hRest⟩ => ?_, fun ⟨_, hHere, hRest⟩ => ?_⟩
      · exact ⟨hLast.trans (hStop.trans hHere), fun _ => hHere, hRest⟩
      · exact ⟨hHere hRole, hRest⟩

/-- Gaps cover the bytes from the cursor to the target, if that lies behind it. -/
theorem tiles_fillGaps (cursor target : Nat) :
    Tiles cursor (max target cursor) (fillGaps cursor target) := by
  fun_induction fillGaps cursor target with
  | case1 cursor h span ih =>
    have hLe : span ≤ target - cursor := gapSpan_le cursor (by omega)
    rw [max_eq_left (by omega)] at ih ⊢
    exact ⟨rfl, ih⟩
  | case2 cursor h => exact (max_eq_right (by omega)).symm

theorem role_of_mem_fillGaps {cursor target : Nat} {m : Member} (h : m ∈ fillGaps cursor target) :
    m.role = .gap := by
  obtain ⟨c, -, rfl⟩ := exists_cursor_of_mem_fillGaps h
  rfl

theorem lastStop_append (start : Nat) (members members' : List Member) :
    lastStop start (members ++ members') = lastStop (lastStop start members) members' :=
  List.foldl_append

theorem lastStop_of_gaps {members : List Member} (h : ∀ m ∈ members, m.role = .gap)
    (start : Nat) : lastStop start members = start := by
  induction members with
  | nil => rfl
  | cons m members ih =>
    rw [lastStop, List.foldl_cons, if_pos (h m (by simp))]
    exact ih fun other hOther => h other (List.mem_cons_of_mem _ hOther)

@[simp] theorem lastStop_fillGaps (start cursor target : Nat) :
    lastStop start (fillGaps cursor target) = start :=
  lastStop_of_gaps (fun _ => role_of_mem_fillGaps) start

/-- From the cursor on, the groups that are left are laid side by side. -/
theorem tiles_layGroups {config : Config} {owner : TypeExpr} {size cursor n : Nat}
    {slots : List Slot} (hFits : ∀ s ∈ slots, s.Fits) {os : List Nat}
    (hOs : ∀ o ∈ os, o ∈ offsets slots) :
    Tiles cursor
      (max size
        (lastStop cursor (layGroups config owner size cursor n (os.map (slotsAt slots))).members))
      (layGroups config owner size cursor n (os.map (slotsAt slots))).members := by
  induction os generalizing cursor n with
  | nil =>
    rw [List.map_nil, layGroups, lastStop_fillGaps]
    exact tiles_fillGaps cursor size
  | cons o os ih =>
    rw [List.map_cons, layGroups_slotsAt (hOs o (by simp)) hFits]
    by_cases hOver : o < cursor
    · rw [if_pos hOver]
      simp only [lastStop_fillGaps]
      exact tiles_fillGaps cursor size
    · rw [if_neg hOver]
      have hGap := tiles_fillGaps cursor o
      rw [max_eq_left (by omega)] at hGap
      have hRole := role_place owner n o (keptAt config slots o)
      simp only [lastStop_append, lastStop_fillGaps]
      refine hGap.append ⟨offset_place .., ?_⟩
      rw [lastStop, List.foldl_cons, if_neg hRole, stop_place]
      exact ih fun o' ho' => hOs o' (List.mem_cons_of_mem _ ho')

/-- The members of a plan cover the bytes from 0 to the size, or to the end of the last field or
union if that lies behind it. -/
theorem tiles_reconstruct {slots : List Slot} (hFits : ∀ s ∈ slots, s.Fits) (config : Config)
    (owner : TypeExpr) (size : Nat) :
    Tiles 0 (max size (lastStop 0 (reconstruct config owner size slots).members))
      (reconstruct config owner size slots).members := by
  rw [reconstruct, groups_eq]
  exact tiles_layGroups hFits fun _ h => h

end FixedLayout.Layout
