import FixedLayout.Proofs.Export.Session
import FixedLayout.Proofs.Layout.Tiling

/-! The structs of an export have no hole and no overlap. -/

namespace FixedLayout.Export

open Construction Layout

/-- The markers of a placeholder take up no room. -/
theorem tiles_openRecord (type : TypeExpr) :
    Tiles 0 (max (openRecord type).size (lastStop 0 (openRecord type).members))
      (openRecord type).members := by
  have hTiles : ∀ members : List Member, (∀ m ∈ members, m.offset = 0 ∧ m.stop = 0) →
      lastStop 0 members = 0 ∧ Tiles 0 0 members := by
    intro members h
    induction members with
    | nil => exact ⟨rfl, rfl⟩
    | cons m members ih =>
      obtain ⟨hOffset, hStop⟩ := h m (by simp)
      obtain ⟨hLast, hRest⟩ := ih fun m hm => h m (by simp [hm])
      constructor
      · rw [lastStop, List.foldl_cons, hStop, ite_self]
        exact hLast
      · exact ⟨hOffset, hStop ▸ hRest⟩
  obtain ⟨hLast, hRest⟩ := hTiles (openRecord type).members (by
    intro m hm
    obtain ⟨e, -, rfl⟩ := List.mem_map.mp hm
    exact ⟨rfl, rfl⟩)
  rw [hLast]
  exact hRest

/-- Every plan tiles the bytes of its struct, and so do the members of every struct that an export
has, where it has any. -/
theorem tiles_structs :
    (∀ (config : Config) (owner : TypeExpr) (size : Nat) (slots : List Slot),
      (∀ s ∈ slots, s.Fits) →
      Tiles 0 (max size (lastStop 0 (reconstruct config owner size slots).members))
        (reconstruct config owner size slots).members) ∧
    ∀ (library : Library) (config : Config) (e : Export), build library config = .ok e →
      ∀ r ∈ e.registry.records, r.isUnion = false → r.members ≠ [] →
      Tiles 0 (max r.size (lastStop 0 r.members)) r.members := by
  refine ⟨fun config owner size slots hFits => tiles_reconstruct hFits config owner size, ?_⟩
  intro library config e h r hMem hStruct hMembers
  obtain ⟨-, s, hSession⟩ := exists_session h
  rcases hSession.struct_cases hMem hStruct hMembers with
    ⟨type, rfl⟩ | ⟨desc, type, slots, hSlots, hSize, hEq⟩
  · exact tiles_openRecord type
  · rw [hSize, hEq]
    exact tiles_reconstruct (Setting.fits_of_slots? hSlots) config type desc.size

/-- What stands before and after a field is filled with gaps. -/
example : (reconstruct {} (.inModule [] "A") 16 [⟨"x", .ofPath ["i32"], 4, 4⟩]).members.map
    (fun m => (m.role, m.offset, m.stop)) = [(.gap, 0, 4), (.field, 4, 8), (.gap, 8, 16)] := by
  decide +kernel

/-- A struct of 16 bytes with one field in the middle. -/
def middleField : Library :=
  .ofTypes [.ofFields "App.A" 16 [{ name := "x", shape := .scalar .int32, offset := 4 }]]

theorem tiles_structs_middleField :
    Tiles 0 16 (reconstruct {} (.inModule [] "A") 16 [⟨"x", .ofPath ["i32"], 4, 4⟩]).members ∧
    ∃ e, build middleField (.forNamespace "App" ["app"]) = .ok e ∧
      ∀ r ∈ e.registry.records, r.isUnion = false → r.members ≠ [] →
        Tiles 0 (max r.size (lastStop 0 r.members)) r.members := by
  have hBuild : (build middleField (.forNamespace "App" ["app"])).toOption.isSome = true := by
    decide +kernel
  have hLast : lastStop 0 (reconstruct {} (.inModule [] "A") 16
      [⟨"x", .ofPath ["i32"], 4, 4⟩]).members = 8 := by
    decide +kernel
  constructor
  · have hTiles := tiles_structs.1 {} (.inModule [] "A") 16 [⟨"x", .ofPath ["i32"], 4, 4⟩]
      (by simp [Slot.Fits, minUnionSize, maxAddress])
    rwa [hLast] at hTiles
  · obtain ⟨e, h⟩ := Option.isSome_iff_exists.mp hBuild
    have hOk := Construction.Script.ok_of_toOption h
    exact ⟨e, hOk, tiles_structs.2 _ _ e hOk⟩

end FixedLayout.Export
