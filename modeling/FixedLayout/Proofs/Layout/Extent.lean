import FixedLayout.Proofs.Layout.Placement
import FixedLayout.Proofs.Layout.Tiling

/-! How far the members of a plan reach. A plan compares each group with the end of the one in front
of it, and none with the declared size: the sizes of the members add up to that exactly if nothing
ends behind it. -/

namespace FixedLayout.Layout

variable {config : Config} {slots : List Slot}

/-- What is placed at an offset ends where the slots kept there do. -/
theorem stop_placements (config : Config) (owner : TypeExpr) (slots : List Slot) (n : Nat)
    (os : List Nat) :
    (placements config owner slots n os).map (·.1.stop) =
      os.map fun o => keptStop o (keptAt config slots o) := by
  induction os generalizing n with
  | nil => rfl
  | cons o os ih =>
    rw [placements, List.map_cons, List.map_cons, stop_place, ih]

/-- A plan in which some group overruns reports an overrun of its owner. -/
theorem diagnostics_reconstruct (owner : TypeExpr) (hFits : ∀ s ∈ slots, s.Fits) (size : Nat) :
    (∀ o, ¬Overrun config slots o) ∨ ∃ name cursor offset,
      (reconstruct config owner size slots).diagnostics =
        [.layoutOverrun owner.canonical name cursor offset] := by
  rw [reconstruct, groups_eq]
  rcases @layGroups_diagnostics config slots owner hFits size 0 [] (offsets slots) rfl
    (by simp) with ⟨hNone, -⟩ | ⟨_, _, -, -, -, hReport⟩
  · refine .inl fun o hOver => ?_
    exact hNone o (by_contra fun hOut => not_overrun_of_notMem hOut hOver) hOver
  · exact .inr ⟨_, _, _, hReport⟩

/-- Without an overrun, the sizes of the members add up to the declared size exactly if no group ends
behind it. -/
theorem sum_reconstruct_iff (owner : TypeExpr) (hFits : ∀ s ∈ slots, s.Fits)
    (hNone : ∀ o, ¬Overrun config slots o) (size : Nat) :
    ((reconstruct config owner size slots).members.map Member.size).sum = size ↔
      ∀ o ∈ offsets slots, keptStop o (keptAt config slots o) ≤ size := by
  have hTiles := tiles_reconstruct hFits config owner size
  have hSum := hTiles.sum
  have hLast := hTiles.lastStop_le_iff le_rfl size
  obtain ⟨hMembers, -⟩ := reconstruct_placed config owner size hFits
  have hReached : (offsets slots).filter (Reached config slots) = offsets slots :=
    List.filter_eq_self.mpr fun o _ => decide_eq_true fun o' _ => hNone o'
  have hStops : ((reconstruct config owner size slots).members.filter (·.role ≠ .gap)).map
      Member.stop = (offsets slots).map fun o => keptStop o (keptAt config slots o) := by
    rw [hMembers, placed, hReached, List.map_map]
    exact stop_placements config owner slots 0 (offsets slots)
  have hAll : (∀ m ∈ (reconstruct config owner size slots).members, m.role ≠ .gap →
      m.stop ≤ size) ↔ ∀ o ∈ offsets slots, keptStop o (keptAt config slots o) ≤ size := by
    rw [← @List.forall_mem_map _ _ _ _ (· ≤ size), ← hStops]
    simp only [List.forall_mem_map, List.mem_filter, decide_eq_true_eq, and_imp]
  rw [← hAll]
  constructor
  · intro hSize
    exact (hLast.mp (by omega)).2
  · intro hStop
    have := hLast.mpr ⟨Nat.zero_le _, hStop⟩
    omega

end FixedLayout.Layout
