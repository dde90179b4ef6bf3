import FixedLayout.ModuleTree
import FixedLayout.Proofs.Association

/-! What placing a declaration leaves alone: every module stays where it is, and every declaration
keeps its place, also when the new one finds none. No order among the members is needed for this. -/

namespace FixedLayout

theorem Members.lookup_insert (name : String) (member : ModuleTree) (members : Members)
    (n : String) : (Members.insert name member members).lookup n =
      if n = name then some member else members.lookup n := by
  induction members with
  | nil => exact lookup_cons_eq
  | cons e rest ih =>
    obtain ⟨n', m'⟩ := e
    unfold Members.insert
    split
    · rename_i hSame
      subst hSame
      by_cases h : n = name <;> simp [lookup_cons_eq, h]
    · rename_i hOther
      split
      · exact lookup_cons_eq
      · rw [lookup_cons_eq, lookup_cons_eq, ih]
        by_cases h : n = n'
        · simp [h, Ne.symm hOther]
        · simp [h]

namespace Module

theorem member?_insert (m : Module) (name : String) (member : ModuleTree) (n : String) :
    (m.insert name member).member? n = if n = name then some member else m.member? n :=
  Members.lookup_insert name member m.members n

/-- Every module in `m` is in `m'` at the same path, and so is every declaration in it under its
name. -/
def Keeps (m m' : Module) : Prop :=
  ∀ path found, m.find? path = some found → ∃ found', m'.find? path = some found' ∧
    found'.path = found.path ∧
    ∀ name key, found.member? name = some (.leaf key) → found'.member? name = some (.leaf key)

variable {m m' m'' : Module}

theorem Keeps.refl (m : Module) : m.Keeps m :=
  fun _ found h => ⟨found, h, rfl, fun _ _ h => h⟩

theorem Keeps.trans (h : m.Keeps m') (h' : m'.Keeps m'') : m.Keeps m'' := by
  intro path found hFound
  obtain ⟨found', hFound', hPath, hLeaves⟩ := h path found hFound
  obtain ⟨found'', hFound'', hPath', hLeaves'⟩ := h' path found' hFound'
  exact ⟨found'', hFound'', hPath'.trans hPath,
    fun name key hLeaf => hLeaves' name key (hLeaves name key hLeaf)⟩

/-- A member may be put under a name that is free, or in the place of a module that it keeps. -/
theorem keeps_insert {name : String} {member : ModuleTree}
    (hLeaf : ∀ key, m.member? name ≠ some (.leaf key))
    (hChild : ∀ path members, m.member? name = some (.module path members) →
      ∃ path' members', member = .module path' members' ∧
        (⟨path, members⟩ : Module).Keeps ⟨path', members'⟩) :
    m.Keeps (m.insert name member) := by
  rintro (_ | ⟨first, path⟩) found hFound
  · cases hFound
    refine ⟨m.insert name member, rfl, rfl, fun n key hThere => ?_⟩
    have hOther : n ≠ name := by
      rintro rfl
      exact hLeaf key hThere
    rw [member?_insert, if_neg hOther]
    exact hThere
  · unfold find? at hFound ⊢
    rw [member?_insert]
    split at hFound
    · rename_i childPath members hThere
      by_cases hSame : first = name
      · subst hSame
        obtain ⟨path', members', rfl, hKeeps⟩ := hChild childPath members hThere
        rw [if_pos rfl]
        exact hKeeps path found hFound
      · rw [if_neg hSame, hThere]
        exact ⟨found, hFound, rfl, fun _ _ h => h⟩
    · cases hFound

theorem keeps_addHere (name key : String) (m : Module) : m.Keeps (m.addHere name key).2 := by
  unfold addHere
  split
  · exact .refl m
  · rename_i hFree
    have hNone : m.member? name = none := by simpa using hFree
    exact keeps_insert (by simp [hNone]) (by simp [hNone])

/-- Whether or not there is a place for it, a declaration leaves everything else where it is. -/
theorem keeps_add (path : List String) (name key : String) (m : Module) :
    m.Keeps (m.add path name key).2 := by
  unfold add
  induction path generalizing m with
  | nil => exact keeps_addHere name key m
  | cons first path ih =>
    unfold update
    split
    · rename_i hFree
      exact keeps_insert (by simp [hFree]) (by simp [hFree])
    · rename_i childPath members hThere
      refine keeps_insert (by simp [hThere]) fun path' members' hSame => ?_
      cases hThere.symm.trans hSame
      exact ⟨_, _, rfl, ih ⟨childPath, members⟩⟩
    · exact .refl m

end Module

end FixedLayout
