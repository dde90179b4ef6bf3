import FixedLayout.Proofs.ModuleTree.Edits
import FixedLayout.Proofs.ModuleTree.Growth
import Mathlib.Data.List.Induction

/-! A module tree as the record of its edits. Which modules there are, what is declared in them and
which of them are bare can be read off the list of the edits alone, whatever their order and however
many of them failed. -/

namespace FixedLayout

namespace Module

/-- The module at a path has a declaration under a name. -/
def Holds (m : Module) (path : List String) (name key : String) : Prop :=
  ∃ found, m.find? path = some found ∧ found.member? name = some (.leaf key)

/-- The module that an edit makes, or declares something in. -/
def Edit.path : Edit → List String
  | .make path => path
  | .add path _ _ => path

/-- The module of an edit is there or can be made. -/
def Edit.Reaches (m : Module) (edit : Edit) : Prop :=
  ∃ found, (m.make edit.path).1 = .ok found

/-- The edit succeeds in declaring something. -/
def Edit.Places (m : Module) (path : List String) (name key : String) (edit : Edit) : Prop :=
  edit = .add path name key ∧ (m.add path name key).1 = .ok ()

/-- One of the edits does `P` to the tree that those before it leave. -/
def Happened (P : Module → Edit → Prop) (edits : List Edit) : Prop :=
  ∃ before edit later, edits = before ++ edit :: later ∧ P (after before) edit

/-- One of the edits reached the module at the path, and made it if it was missing. -/
def Made (edits : List Edit) (path : List String) : Prop :=
  Happened (fun m edit => edit.path = path ∧ edit.Reaches m) edits

/-- One of the edits placed the declaration. -/
def Declared (edits : List Edit) (path : List String) (name key : String) : Prop :=
  Happened (fun m edit => edit.Places m path name key) edits

/-- The tree is what its edits say. -/
structure Reflects (m : Module) (edits : List Edit) : Prop where
  /-- The modules are the root and those on the way to modules that were reached. -/
  found_iff (path : List String) :
    (m.find? path).isSome ↔ path = [] ∨ ∃ made, Made edits made ∧ path <+: made
  /-- Every module knows its path. -/
  path_eq (path : List String) (found : Module) : m.find? path = some found → found.path = path
  /-- The declarations in a module are those that were placed in it. -/
  declares_iff (path : List String) (found : Module) : m.find? path = some found →
    ∀ name key, (name, .leaf key) ∈ found.members ↔ Declared edits path name key
  /-- No name stands for a declaration and for a module. -/
  unmixed (path : List String) (found : Module) : m.find? path = some found →
    ∀ name key, (name, .leaf key) ∈ found.members →
      ∀ child : Module, (name, child.toTree) ∉ found.members
  /-- The members stand in the order of their names, each name once. -/
  sorted (path : List String) (found : Module) : m.find? path = some found →
    (found.members.map (·.1)).Pairwise (· < ·)
  /-- A module is bare if nothing was placed in it or below it. -/
  bare_iff (path : List String) (found : Module) : m.find? path = some found →
    (found.isBare = true ↔ ∀ below name key, path <+: below → ¬Declared edits below name key)

variable {α : Type} {m : Module} {name key : String} {path : List String}

/-! ### What a walk finds -/

theorem Sound.found (h : m.Sound) {found : Module} (hFound : m.find? path = some found) :
    found.Sound ∧ found.path = m.path ++ path := by
  induction path generalizing m with
  | nil =>
    cases hFound
    exact ⟨h, (List.append_nil _).symm⟩
  | cons first path ih =>
    unfold Module.find? at hFound
    split at hFound
    · rename_i childPath members hThere
      obtain ⟨rfl, hChild⟩ := h.child hThere
      obtain ⟨hSound, hPath⟩ := ih hChild hFound
      exact ⟨hSound, by simp [hPath]⟩
    · cases hFound

theorem Sound.member_mem (h : m.Sound) {member : ModuleTree} :
    m.member? name = some member ↔ (name, member) ∈ m.members :=
  ⟨mem_of_lookup, lookup_of_mem (Members.nodup_of_sorted h.sorted)⟩

theorem find?_empty (here : List String) :
    (⟨here, []⟩ : Module).find? path = if path = [] then some ⟨here, []⟩ else none := by
  cases path <;> rfl

theorem find?_cons_of_none (h : m.member? name = none) : m.find? (name :: path) = none := by
  simp [find?, h]

theorem find?_cons_of_module {childPath : List String} {members : Members}
    (h : m.member? name = some (.module childPath members)) :
    m.find? (name :: path) = (⟨childPath, members⟩ : Module).find? path := by
  simp [find?, h]

theorem find?_insert (child : Module) (first : String) :
    (m.insert name child.toTree).find? (first :: path) =
      if first = name then child.find? path else m.find? (first :: path) := by
  by_cases h : first = name
  · simp [find?, member?_insert, toTree, h]
  · simp [find?, member?_insert, h]

theorem isSome_find?_insert_leaf (hFree : m.member? name = none) (path : List String) :
    ((m.insert name (.leaf key)).find? path).isSome = (m.find? path).isSome := by
  cases path with
  | nil => rfl
  | cons first path =>
    by_cases h : first = name
    · simp [find?, member?_insert, h, hFree]
    · simp [find?, member?_insert, h]

theorem holds_nil {n k : String} : m.Holds [] n k ↔ m.member? n = some (.leaf k) := by
  constructor
  · rintro ⟨_, hFound, hThere⟩
    cases hFound
    exact hThere
  · exact fun hThere => ⟨m, rfl, hThere⟩

theorem not_holds_empty (here path : List String) (n k : String) :
    ¬(⟨here, []⟩ : Module).Holds path n k := by
  rintro ⟨found, hFound, hThere⟩
  rw [find?_empty] at hFound
  split at hFound
  · cases hFound
    cases hThere
  · cases hFound

/-- A module under a name changes what is found below that name, and nothing else. -/
theorem isSome_find?_insert {child : Module}
    (hBelow : ∀ p, (child.find? p).isSome ↔ (m.find? (name :: p)).isSome ∨ p <+: path)
    (p : List String) : ((m.insert name child.toTree).find? p).isSome ↔
      (m.find? p).isSome ∨ p <+: name :: path := by
  cases p with
  | nil => simp [find?]
  | cons first p =>
    rw [find?_insert, List.cons_prefix_cons]
    split
    · rename_i hSame
      simp [hSame, hBelow p]
    · rename_i hOther
      simp [hOther]

theorem holds_insert {child : Module} {n k : String} {new : Prop}
    (hLeaf : ∀ key, m.member? name ≠ some (.leaf key))
    (hBelow : ∀ p, child.Holds p n k ↔ m.Holds (name :: p) n k ∨ (p = path ∧ new))
    (p : List String) : (m.insert name child.toTree).Holds p n k ↔
      m.Holds p n k ∨ (p = name :: path ∧ new) := by
  cases p with
  | nil =>
    have hHere : (m.insert name child.toTree).member? n = some (.leaf k) ↔
        m.member? n = some (.leaf k) := by
      rw [member?_insert]
      split
      · rename_i hSame
        rw [hSame]
        exact iff_of_false (by simp [toTree]) (hLeaf k)
      · exact Iff.rfl
    simp [holds_nil, hHere]
  | cons first p =>
    rw [Holds, find?_insert]
    split
    · rename_i hSame
      simpa [hSame, Holds] using hBelow p
    · rename_i hOther
      simp [hOther, Holds]

/-! ### What a walk adds -/

section Update

variable {f : Module → Except ExportError α × Module}

/-- A walk that comes to its end leaves the modules that were there and those on its way, if what
is done at its end makes none and removes none. -/
theorem isSome_find?_update
    (hf : ∀ (found : Module) p, ((f found).2.find? p).isSome = (found.find? p).isSome)
    {made : Module} (hMade : (m.make path).1 = .ok made) (p : List String) :
    ((update f path m).2.find? p).isSome ↔ (m.find? p).isSome ∨ p <+: path := by
  unfold make at hMade
  fun_induction Module.update f path m generalizing p with
  | case1 m =>
    rw [hf m p, List.prefix_nil, iff_self_or]
    rintro rfl
    rfl
  | case2 name path m hThere result child hUpdate ih =>
    rw [Module.update, hThere] at hMade
    rw [hUpdate] at ih
    refine isSome_find?_insert (fun p => ?_) p
    rw [ih hMade p, find?_cons_of_none hThere, find?_empty]
    by_cases hNil : p = [] <;> simp [hNil]
  | case3 name path m childPath members hThere result child hUpdate ih =>
    rw [Module.update, hThere] at hMade
    rw [hUpdate] at ih
    refine isSome_find?_insert (fun p => ?_) p
    rw [ih hMade p, find?_cons_of_module hThere]
  | case4 name path m key hThere =>
    rw [Module.update, hThere] at hMade
    cases hMade

/-- A walk that succeeds declares what is declared at its end, and nothing elsewhere. -/
theorem holds_update (new : String → String → Prop)
    (hf : ∀ (found : Module) a, (f found).1 = .ok a → ∀ p n k,
      (f found).2.Holds p n k ↔ found.Holds p n k ∨ (p = [] ∧ new n k))
    {a : α} (hOk : (update f path m).1 = .ok a) (p : List String) (n k : String) :
    (update f path m).2.Holds p n k ↔ m.Holds p n k ∨ (p = path ∧ new n k) := by
  fun_induction Module.update f path m generalizing p with
  | case1 m => exact hf m a hOk p n k
  | case2 name path m hThere result child hUpdate ih =>
    rw [hUpdate] at ih
    refine holds_insert (by simp [hThere]) (fun p => ?_) p
    have hNone : ¬m.Holds (name :: p) n k := by simp [Holds, find?_cons_of_none hThere]
    simp [ih hOk p, hNone, not_holds_empty]
  | case3 name path m childPath members hThere result child hUpdate ih =>
    rw [hUpdate] at ih
    refine holds_insert (by simp [hThere]) (fun p => ?_) p
    rw [ih hOk p, Holds, Holds, find?_cons_of_module hThere]
  | case4 name path m key hThere => cases hOk

end Update

/-! ### What an edit adds -/

theorem holds_addHere {u : Unit} (hOk : (m.addHere name key).1 = .ok u) (p : List String)
    (n k : String) : (m.addHere name key).2.Holds p n k ↔
      m.Holds p n k ∨ (p = [] ∧ n = name ∧ k = key) := by
  unfold addHere at hOk ⊢
  split at hOk
  · cases hOk
  · rename_i hFree
    rw [if_neg hFree]
    have hNone : m.member? name = none := by simpa using hFree
    cases p with
    | nil =>
      rw [holds_nil, holds_nil, member?_insert]
      by_cases hSame : n = name
      · simp [hSame, hNone, eq_comm]
      · simp [hSame]
    | cons first p =>
      unfold Holds find?
      rw [member?_insert]
      by_cases hSame : first = name
      · simp [hSame, hNone]
      · simp [hSame]

theorem isSome_find?_addHere (found : Module) (p : List String) :
    ((found.addHere name key).2.find? p).isSome = (found.find? p).isSome := by
  unfold addHere
  split
  · rfl
  · rename_i hFree
    exact isSome_find?_insert_leaf (by simpa using hFree) p

theorem Sound.make_eq_self (h : m.Sound) {e : ExportError}
    (hFails : (m.make path).1 = .error e) : (m.make path).2 = m :=
  h.update_eq_self (fun _ => ⟨_, rfl⟩) (fun _ _ _ _ => rfl) path hFails

theorem Sound.add_eq_self (h : m.Sound) {e : ExportError}
    (hFails : (m.add path name key).1 = .error e) : (m.add path name key).2 = m :=
  h.update_eq_self (fun _ => ⟨(), rfl⟩) (fun _ _ _ hHere => (addHere_error hHere).2) path hFails

/-- An edit that does not reach its module changes nothing. -/
theorem Sound.on_of_not_reaches (h : m.Sound) {edit : Edit} (hReach : ¬edit.Reaches m) :
    edit.on m = m := by
  have hFails : ∃ e, (m.make edit.path).1 = .error e := by
    cases hMade : (m.make edit.path).1 with
    | ok found => exact absurd ⟨found, hMade⟩ hReach
    | error e => exact ⟨e, rfl⟩
  obtain ⟨e, hFails⟩ := hFails
  cases edit with
  | make path => exact h.make_eq_self hFails
  | add path name key =>
    have hAdd : (m.add path name key).1 = .error e := by
      rw [add, update_fst, show (m.make path).1 = .error e from hFails]
      rfl
    exact h.add_eq_self hAdd

/-- The modules after an edit are those before it and those on the way, if the edit gets there. -/
theorem Sound.isSome_find?_on (h : m.Sound) (edit : Edit) (p : List String) :
    ((edit.on m).find? p).isSome ↔ (m.find? p).isSome ∨ (edit.Reaches m ∧ p <+: edit.path) := by
  by_cases hReach : edit.Reaches m
  · obtain ⟨made, hMade⟩ := hReach
    have hReach : edit.Reaches m := ⟨made, hMade⟩
    cases edit with
    | make path =>
      refine (isSome_find?_update (f := fun found => (.ok found, found))
        (fun _ _ => rfl) hMade p).trans ?_
      simp [hReach, Edit.path]
    | add path name key =>
      refine (isSome_find?_update isSome_find?_addHere hMade p).trans ?_
      simp [hReach, Edit.path]
  · simp [h.on_of_not_reaches hReach, hReach]

/-- The declarations after an edit are those before it and the one that it places, if it does. -/
theorem Sound.holds_on (h : m.Sound) (edit : Edit) (p : List String) (n k : String) :
    (edit.on m).Holds p n k ↔ m.Holds p n k ∨ edit.Places m p n k := by
  cases edit with
  | make path =>
    have hNone : ¬(Edit.make path).Places m p n k := fun hPlaces => by cases hPlaces.1
    by_cases hReach : (Edit.make path).Reaches m
    · obtain ⟨made, hMade⟩ := hReach
      refine (holds_update (f := fun found => (.ok found, found)) (fun _ _ => False)
        (fun _ _ _ _ _ _ => by simp) hMade p n k).trans ?_
      simp [hNone]
    · simp [h.on_of_not_reaches hReach, hNone]
  | add path name key =>
    cases hAdd : (m.add path name key).1 with
    | ok u =>
      have hUpdate := holds_update (fun n k => n = name ∧ k = key)
        (fun _ _ hHere => holds_addHere hHere) hAdd p n k
      refine hUpdate.trans (or_congr_right ?_)
      constructor
      · rintro ⟨rfl, rfl, rfl⟩
        exact ⟨rfl, hAdd⟩
      · rintro ⟨hSame, -⟩
        cases hSame
        exact ⟨rfl, rfl, rfl⟩
    | error e =>
      have hSame : (Edit.add path name key).on m = m := h.add_eq_self hAdd
      have hNone : ¬(Edit.add path name key).Places m p n k := by
        rintro ⟨hEdit, hOk⟩
        cases hEdit
        cases hAdd.symm.trans hOk
      simp [hSame, hNone]

/-! ### What a history adds up to -/

theorem happened_append_singleton {P : Module → Edit → Prop} {edits : List Edit} {edit : Edit} :
    Happened P (edits ++ [edit]) ↔ Happened P edits ∨ P (after edits) edit := by
  constructor
  · rintro ⟨before, other, later, hSplit, hP⟩
    rcases List.eq_nil_or_concat later with rfl | ⟨later, last, rfl⟩
    · obtain ⟨rfl, hSame⟩ := List.append_inj' hSplit rfl
      cases hSame
      exact .inr hP
    · have hSplit' : edits ++ [edit] = (before ++ other :: later) ++ [last] := by simpa using hSplit
      exact .inl ⟨before, other, later, (List.append_inj' hSplit' rfl).1, hP⟩
  · rintro (⟨before, other, later, rfl, hP⟩ | hP)
    · exact ⟨before, other, later ++ [edit], by simp, hP⟩
    · exact ⟨edits, edit, [], rfl, hP⟩

theorem not_happened_nil (P : Module → Edit → Prop) : ¬Happened P [] := by
  rintro ⟨before, edit, later, hSplit, -⟩
  simp at hSplit

theorem after_append_singleton (edits : List Edit) (edit : Edit) :
    after (edits ++ [edit]) = edit.on (after edits) := by
  simp [after]

theorem path_after (edits : List Edit) : (after edits).path = [] := by
  induction edits using List.reverseRecOn with
  | nil => rfl
  | append_singleton edits edit ih =>
    have hSound := sound_after edits
    rw [after_append_singleton, ← ih]
    cases edit with
    | make path => exact (hSound.update (fun _ hFound => ⟨hFound, rfl⟩) path).2
    | add path name key => exact (hSound.update (fun _ hFound => hFound.addHere) path).2

theorem isSome_find?_after (edits : List Edit) (p : List String) :
    ((after edits).find? p).isSome ↔ p = [] ∨ ∃ made, Made edits made ∧ p <+: made := by
  induction edits using List.reverseRecOn with
  | nil =>
    have hRoot : (after []).find? p = if p = [] then some root else none := find?_empty _
    rw [hRoot]
    by_cases hNil : p = [] <;> simp [hNil, Made, not_happened_nil]
  | append_singleton edits edit ih =>
    rw [after_append_singleton, (sound_after edits).isSome_find?_on, ih, or_assoc]
    refine or_congr_right ?_
    unfold Made
    simp only [happened_append_singleton]
    constructor
    · rintro (⟨made, hMade, hPrefix⟩ | ⟨hReach, hPrefix⟩)
      · exact ⟨made, .inl hMade, hPrefix⟩
      · exact ⟨edit.path, .inr ⟨rfl, hReach⟩, hPrefix⟩
    · rintro ⟨made, hMade | ⟨rfl, hReach⟩, hPrefix⟩
      · exact .inl ⟨made, hMade, hPrefix⟩
      · exact .inr ⟨hReach, hPrefix⟩

theorem holds_after (edits : List Edit) (p : List String) (n k : String) :
    (after edits).Holds p n k ↔ Declared edits p n k := by
  induction edits using List.reverseRecOn with
  | nil => exact iff_of_false (not_holds_empty _ p n k) (not_happened_nil _)
  | append_singleton edits edit ih =>
    rw [after_append_singleton, (sound_after edits).holds_on, ih, Declared, Declared,
      happened_append_singleton]

end Module

/-! ### Bare modules -/

theorem Members.areBare_iff (members : Members) :
    Members.areBare members = true ↔ ∀ e ∈ members, e.2.isBare = true := by
  induction members with
  | nil => simp [Members.areBare]
  | cons e members ih =>
    obtain ⟨name, member⟩ := e
    simp [Members.areBare, ih]

namespace Module

variable {m : Module}

/-- Nothing is declared in a module or below it if that holds of each member, and all of them are
modules. -/
theorem Sound.not_holds_iff (h : m.Sound) : (∀ p n k, ¬m.Holds p n k) ↔
    ∀ name member, (name, member) ∈ m.members →
      ∃ child : Module, member = child.toTree ∧ ∀ p n k, ¬child.Holds p n k := by
  constructor
  · intro hNone name member hMem
    have hThere := h.member_mem.mpr hMem
    cases member with
    | leaf key => exact absurd (holds_nil.mpr hThere) (hNone [] name key)
    | module childPath members =>
      refine ⟨⟨childPath, members⟩, rfl, fun p n k hHolds => hNone (name :: p) n k ?_⟩
      rwa [Holds, find?_cons_of_module hThere]
  · rintro hAll (_ | ⟨first, p⟩) n k hHolds
    · obtain ⟨child, hChild, -⟩ := hAll n _ (h.member_mem.mp (holds_nil.mp hHolds))
      cases hChild
    · obtain ⟨found, hFound, hLeaf⟩ := hHolds
      rw [find?] at hFound
      split at hFound
      · rename_i childPath members hThere
        obtain ⟨child, hChild, hNone⟩ := hAll first _ (h.member_mem.mp hThere)
        cases hChild
        exact hNone p n k ⟨found, hFound, hLeaf⟩
      · cases hFound

end Module

theorem ModuleTree.Sound.isBare_iff {path : List String} {t : ModuleTree} (h : t.Sound path) :
    t.isBare = true ↔ ∃ m : Module, t = m.toTree ∧ ∀ p n k, ¬m.Holds p n k := by
  induction h with
  | leaf =>
    refine iff_of_false (by simp [ModuleTree.isBare]) ?_
    rintro ⟨m, hSame, -⟩
    cases hSame
  | @module path members hSorted hMembers ih =>
    have hSound : (⟨path, members⟩ : Module).Sound := ⟨hSorted, hMembers⟩
    have hBare : (ModuleTree.module path members).isBare = true ↔
        ∀ p n k, ¬(⟨path, members⟩ : Module).Holds p n k := by
      rw [ModuleTree.isBare, Members.areBare_iff, hSound.not_holds_iff]
      constructor
      · exact fun hAll name member hMem => (ih name member hMem).mp (hAll _ hMem)
      · exact fun hAll e he => (ih e.1 e.2 he).mpr (hAll e.1 e.2 he)
    rw [hBare]
    constructor
    · exact fun hNone => ⟨⟨path, members⟩, rfl, hNone⟩
    · rintro ⟨m, hSame, hNone⟩
      cases hSame
      exact hNone

namespace Module

variable {m : Module} {path : List String}

theorem Sound.isBare_iff (h : m.Sound) : m.isBare = true ↔ ∀ p n k, ¬m.Holds p n k := by
  rw [isBare, h.toTree.isBare_iff]
  constructor
  · rintro ⟨⟨_, _⟩, hSame, hNone⟩
    obtain ⟨_, _⟩ := m
    cases hSame
    exact hNone
  · exact fun hNone => ⟨m, rfl, hNone⟩

theorem find?_append {found : Module} (h : m.find? path = some found) (p : List String) :
    m.find? (path ++ p) = found.find? p := by
  induction path generalizing m with
  | nil =>
    cases h
    rfl
  | cons first path ih =>
    unfold find? at h
    split at h
    · rename_i childPath members hThere
      rw [List.cons_append, find?_cons_of_module hThere, ih h]
    · cases h

/-- After any edits, successful or not, the tree is what they say: which modules it has, what is
declared in each of them, in which order, and where nothing is declared at all. -/
theorem reflects_after (edits : List Edit) : (after edits).Reflects edits := by
  have hSound := sound_after edits
  have hHolds : ∀ path found, (after edits).find? path = some found → ∀ p n k,
      found.Holds p n k ↔ Declared edits (path ++ p) n k := by
    intro path found hFound p n k
    rw [← holds_after, Holds, Holds, find?_append hFound]
  constructor
  case found_iff => exact isSome_find?_after edits
  case path_eq =>
    intro path found hFound
    rw [(hSound.found hFound).2, path_after, List.nil_append]
  case sorted => exact fun path found hFound => (hSound.found hFound).1.sorted
  case declares_iff =>
    intro path found hFound name key
    rw [← (hSound.found hFound).1.member_mem, ← holds_nil, hHolds path found hFound,
      List.append_nil]
  case unmixed =>
    intro path found hFound name key hLeaf child hChild
    have hOne := (hSound.found hFound).1
    cases (hOne.member_mem.mpr hLeaf).symm.trans (hOne.member_mem.mpr hChild)
  case bare_iff =>
    intro path found hFound
    rw [(hSound.found hFound).1.isBare_iff]
    constructor
    · rintro hNone _ name key ⟨p, rfl⟩ hDeclared
      exact hNone p name key ((hHolds path found hFound p name key).mpr hDeclared)
    · intro hNone p name key hThere
      exact hNone (path ++ p) name key ⟨p, rfl⟩ ((hHolds path found hFound p name key).mp hThere)

end Module

end FixedLayout
