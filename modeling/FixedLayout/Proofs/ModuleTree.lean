import FixedLayout.ModuleTree
import FixedLayout.Proofs.Association
import Mathlib.Data.String.Basic

/-! The module tree as the list of its places: the path of each declaration, its name last, with its
key. To place a declaration in a tidy tree is to add one place, and a tidy tree is determined by its
places. -/

namespace FixedLayout

mutual

/-- The declarations in a tree that stands at a path, each with its own path and its key. -/
def ModuleTree.places (path : List String) : ModuleTree → List (List String × String)
  | .module _ members => Members.places path members
  | .leaf key => [(path, key)]

def Members.places (path : List String) :
    List (String × ModuleTree) → List (List String × String)
  | [] => []
  | (name, member) :: rest =>
    ModuleTree.places (path ++ [name]) member ++ Members.places path rest

end

def Module.places (m : Module) : List (List String × String) := Members.places m.path m.members

/-- Every module in a tree knows its path, has a member and keeps its members in order. -/
inductive ModuleTree.Tidy : List String → ModuleTree → Prop
  | leaf {path : List String} {key : String} : Tidy path (.leaf key)
  | module {path : List String} {members : Members} (hSome : members ≠ [])
      (hSorted : (members.map (·.1)).Pairwise (· < ·))
      (hMembers : ∀ name member, (name, member) ∈ members → Tidy (path ++ [name]) member) :
      Tidy path (.module path members)

/-- So does a module by itself, though it may be empty. -/
structure Module.Tidy (m : Module) : Prop where
  sorted : (m.members.map (·.1)).Pairwise (· < ·)
  members : ∀ name member, (name, member) ∈ m.members → member.Tidy (m.path ++ [name])

theorem Module.tidy_root : Module.root.Tidy := ⟨.nil, nofun⟩

namespace Members

theorem places_eq (path : List String) (members : Members) :
    Members.places path members = members.flatMap fun e => e.2.places (path ++ [e.1]) := by
  induction members with
  | nil => rfl
  | cons e members ih =>
    obtain ⟨name, member⟩ := e
    rw [Members.places, ih]
    rfl

theorem mem_places {path : List String} {members : Members} {place : List String × String} :
    place ∈ Members.places path members ↔
      ∃ name member, (name, member) ∈ members ∧ place ∈ member.places (path ++ [name]) := by
  rw [places_eq, List.mem_flatMap]
  constructor
  · rintro ⟨⟨name, member⟩, hMem, hPlace⟩
    exact ⟨name, member, hMem, hPlace⟩
  · rintro ⟨name, member, hMem, hPlace⟩
    exact ⟨(name, member), hMem, hPlace⟩

theorem nodup_of_sorted {members : Members} (h : (members.map (·.1)).Pairwise (· < ·)) :
    (members.map (·.1)).Nodup :=
  h.imp fun hLt => hLt.ne

/-! ### Inserting a member -/

section Insert

variable {members : Members} (hSorted : (members.map (·.1)).Pairwise (· < ·)) (name : String)
  (member : ModuleTree)
include hSorted

theorem insert_perm : (Members.insert name member members).Perm
    ((name, member) :: members.filter (·.1 ≠ name)) := by
  induction members with
  | nil => exact .refl _
  | cons e rest ih =>
    obtain ⟨n, m⟩ := e
    obtain ⟨hHead, hRest⟩ := List.pairwise_cons.mp hSorted
    have hAll : ∀ {low : String}, low ≤ n → rest.filter (·.1 ≠ low) = rest := by
      intro low hLow
      refine List.filter_eq_self.mpr fun e he => ?_
      have hLt := hLow.trans_lt (hHead e.1 (List.mem_map_of_mem he))
      simpa using hLt.ne'
    unfold Members.insert
    rcases lt_trichotomy name n with hLt | rfl | hLt
    · rw [if_neg hLt.ne, if_pos hLt, List.filter_cons_of_pos (by simpa using hLt.ne'),
        hAll hLt.le]
    · rw [if_pos rfl, List.filter_cons_of_neg (by simp), hAll le_rfl]
    · rw [if_neg hLt.ne', if_neg hLt.asymm, List.filter_cons_of_pos (by simpa using hLt.ne)]
      exact ((ih hRest).cons _).trans (.swap ..)

theorem mem_insert {n : String} {m : ModuleTree} :
    (n, m) ∈ Members.insert name member members ↔
      (n = name ∧ m = member) ∨ (n ≠ name ∧ (n, m) ∈ members) := by
  rw [(insert_perm hSorted name member).mem_iff]
  simp [and_comm]

theorem sorted_insert :
    ((Members.insert name member members).map (·.1)).Pairwise (· < ·) := by
  induction members with
  | nil => simp [Members.insert]
  | cons e rest ih =>
    obtain ⟨n, m⟩ := e
    obtain ⟨hHead, hRest⟩ := List.pairwise_cons.mp hSorted
    unfold Members.insert
    rcases lt_trichotomy name n with hLt | rfl | hLt
    · rw [if_neg hLt.ne, if_pos hLt]
      refine List.pairwise_cons.mpr ⟨fun other hOther => ?_, hSorted⟩
      rcases List.mem_cons.mp hOther with rfl | hOther
      · exact hLt
      · exact hLt.trans (hHead other hOther)
    · rw [if_pos rfl]
      exact hSorted
    · rw [if_neg hLt.ne', if_neg hLt.asymm]
      refine List.pairwise_cons.mpr ⟨fun other hOther => ?_, ih hRest⟩
      obtain ⟨⟨other, m'⟩, hMem, rfl⟩ := List.mem_map.mp hOther
      rcases (mem_insert hRest name member).mp hMem with ⟨rfl, -⟩ | ⟨-, hMem⟩
      · exact hLt
      · exact hHead other (List.mem_map_of_mem hMem)

end Insert

end Members

namespace ModuleTree

variable {path : List String} {t : ModuleTree}

/-- Every place of a tree lies at or below the path of the tree. -/
theorem Tidy.prefix_of_mem (h : t.Tidy path) {place : List String × String}
    (hPlace : place ∈ t.places path) : path <+: place.1 := by
  induction h with
  | leaf =>
    cases List.mem_singleton.mp hPlace
    exact List.prefix_rfl
  | @module path members _ _ _ ih =>
    obtain ⟨name, member, hMem, hPlace⟩ := Members.mem_places.mp hPlace
    exact (List.prefix_append ..).trans (ih name member hMem hPlace)

theorem Tidy.exists_place (h : t.Tidy path) : ∃ place, place ∈ t.places path := by
  induction h with
  | leaf => exact ⟨_, List.mem_singleton_self _⟩
  | @module path members hSome _ _ ih =>
    obtain ⟨⟨name, member⟩, hMem⟩ := List.exists_mem_of_ne_nil members hSome
    obtain ⟨place, hPlace⟩ := ih name member hMem
    exact ⟨place, Members.mem_places.mpr ⟨name, member, hMem, hPlace⟩⟩

section Members

variable {members : Members} (hSorted : (members.map (·.1)).Pairwise (· < ·))
  (hMembers : ∀ name member, (name, member) ∈ members → member.Tidy (path ++ [name]))
  {place : List String × String} {name : String} {member : ModuleTree}
include hMembers

/-- A place below a name lies in the member of that name. -/
theorem exists_member (hPlace : place ∈ Members.places path members)
    (hPrefix : path ++ [name] <+: place.1) :
    ∃ member, (name, member) ∈ members ∧ place ∈ member.places (path ++ [name]) := by
  obtain ⟨name', member, hMem, hHere⟩ := Members.mem_places.mp hPlace
  have hOwn := (hMembers _ _ hMem).prefix_of_mem hHere
  have hNames : path ++ [name] = path ++ [name'] :=
    (List.prefix_of_prefix_length_le hPrefix hOwn (by simp)).eq_of_length (by simp)
  obtain rfl : name = name' := by simpa using hNames
  exact ⟨member, hMem, hHere⟩

include hSorted

theorem mem_places_member (hMem : (name, member) ∈ members) :
    place ∈ member.places (path ++ [name]) ↔
      place ∈ Members.places path members ∧ path ++ [name] <+: place.1 := by
  constructor
  · intro hPlace
    exact ⟨Members.mem_places.mpr ⟨name, member, hMem, hPlace⟩,
      (hMembers _ _ hMem).prefix_of_mem hPlace⟩
  · rintro ⟨hPlace, hPrefix⟩
    obtain ⟨other, hOther, hHere⟩ := exists_member hMembers hPlace hPrefix
    have hKeys := Members.nodup_of_sorted hSorted
    cases (lookup_of_mem hKeys hMem).symm.trans (lookup_of_mem hKeys hOther)
    exact hHere

theorem eq_of_isPrefix_of_members
    (ih : ∀ name member, (name, member) ∈ members → ∀ {place place' : List String × String},
      place ∈ member.places (path ++ [name]) → place' ∈ member.places (path ++ [name]) →
      place.1 <+: place'.1 → place = place')
    {place' : List String × String} (hPlace : place ∈ Members.places path members)
    (hPlace' : place' ∈ Members.places path members) (hPrefix : place.1 <+: place'.1) :
    place = place' := by
  obtain ⟨name, member, hMem, hHere⟩ := Members.mem_places.mp hPlace
  have hBelow := ((hMembers _ _ hMem).prefix_of_mem hHere).trans hPrefix
  have hThere := (mem_places_member hSorted hMembers hMem).mpr ⟨hPlace', hBelow⟩
  exact ih name member hMem hHere hThere hPrefix

/-! Two lists of members with the same places, of which the members of the first are determined by
theirs. -/

variable {members' : Members} (hSorted' : (members'.map (·.1)).Pairwise (· < ·))
  (hMembers' : ∀ name member, (name, member) ∈ members' → member.Tidy (path ++ [name]))
  (hPlaces : ∀ place, place ∈ Members.places path members ↔
    place ∈ Members.places path members')
  (ih : ∀ name member, (name, member) ∈ members → ∀ {member' : ModuleTree},
    member'.Tidy (path ++ [name]) →
    (∀ place, place ∈ member.places (path ++ [name]) ↔
      place ∈ member'.places (path ++ [name])) → member = member')
include hSorted' hMembers' hPlaces ih

theorem subset_of_places : members ⊆ members' := by
  rintro ⟨name, member⟩ hMem
  obtain ⟨place, hPlace⟩ := (hMembers _ _ hMem).exists_place
  obtain ⟨hAll, hPrefix⟩ := (mem_places_member hSorted hMembers hMem).mp hPlace
  obtain ⟨member', hMem', -⟩ := exists_member hMembers' ((hPlaces place).mp hAll) hPrefix
  suffices hSame : member = member' by rwa [hSame]
  refine ih name member hMem (hMembers' _ _ hMem') fun place => ?_
  rw [mem_places_member hSorted hMembers hMem, mem_places_member hSorted' hMembers' hMem',
    hPlaces]

theorem eq_of_places : members = members' := by
  have hSub := subset_of_places hSorted hMembers hSorted' hMembers' hPlaces ih
  have hSub' : members' ⊆ members := by
    rintro ⟨name, member'⟩ hMem'
    obtain ⟨place, hPlace⟩ := (hMembers' _ _ hMem').exists_place
    obtain ⟨hAll, hPrefix⟩ := (mem_places_member hSorted' hMembers' hMem').mp hPlace
    obtain ⟨member, hMem, -⟩ := exists_member hMembers ((hPlaces place).mpr hAll) hPrefix
    have hKeys := Members.nodup_of_sorted hSorted'
    cases (lookup_of_mem hKeys (hSub hMem)).symm.trans (lookup_of_mem hKeys hMem')
    exact hMem
  have hNodup := (Members.nodup_of_sorted hSorted).of_map
  have hNodup' := (Members.nodup_of_sorted hSorted').of_map
  have hPerm := (List.perm_ext_iff_of_nodup hNodup hNodup').mpr fun e =>
    ⟨fun he => hSub he, fun he => hSub' he⟩
  refine hPerm.eq_of_pairwise (fun e e' _ _ hLt hGt => ?_) (List.pairwise_map.mp hSorted)
    (List.pairwise_map.mp hSorted')
  exact absurd hGt hLt.asymm

end Members

/-- No place of a tree comes before another one on the same way down. -/
theorem Tidy.eq_of_isPrefix (h : t.Tidy path) {place place' : List String × String}
    (hPlace : place ∈ t.places path) (hPlace' : place' ∈ t.places path)
    (hPrefix : place.1 <+: place'.1) : place = place' := by
  induction h generalizing place place' with
  | leaf => rw [List.mem_singleton.mp hPlace, List.mem_singleton.mp hPlace']
  | module _ hSorted hMembers ih =>
    exact eq_of_isPrefix_of_members hSorted hMembers ih hPlace hPlace' hPrefix

end ModuleTree

namespace Module

variable {m m' : Module} {name key : String} {path : List String}

theorem Tidy.eq_of_isPrefix (h : m.Tidy) {place place' : List String × String}
    (hPlace : place ∈ m.places) (hPlace' : place' ∈ m.places) (hPrefix : place.1 <+: place'.1) :
    place = place' :=
  ModuleTree.eq_of_isPrefix_of_members h.sorted h.members
    (fun name member hMem => (h.members name member hMem).eq_of_isPrefix) hPlace hPlace' hPrefix

theorem Tidy.member_mem (h : m.Tidy) {member : ModuleTree} :
    m.member? name = some member ↔ (name, member) ∈ m.members :=
  ⟨mem_of_lookup, lookup_of_mem (Members.nodup_of_sorted h.sorted)⟩

/-! ### Placing a declaration -/

theorem Tidy.insert (h : m.Tidy) {member : ModuleTree} (hMember : member.Tidy (m.path ++ [name])) :
    (m.insert name member).Tidy := by
  refine ⟨Members.sorted_insert h.sorted name member, fun n other hMem => ?_⟩
  rcases (Members.mem_insert h.sorted name member).mp hMem with ⟨rfl, rfl⟩ | ⟨-, hMem⟩
  · exact hMember
  · exact h.members n other hMem

theorem places_insert_of_none (h : m.Tidy) (hFree : m.member? name = none) (member : ModuleTree) :
    (m.insert name member).places.Perm (member.places (m.path ++ [name]) ++ m.places) := by
  have hAll : m.members.filter (·.1 ≠ name) = m.members := by
    refine List.filter_eq_self.mpr fun e he => ?_
    have hne := List.lookup_eq_none_iff.mp hFree e he
    simpa using (bne_iff_ne.mp hne).symm
  have hPerm := Members.insert_perm h.sorted name member
  rw [hAll] at hPerm
  unfold places
  rw [Members.places_eq, Members.places_eq]
  exact hPerm.flatMap_right _

theorem places_insert_of_some (h : m.Tidy) {old member : ModuleTree}
    (hOld : m.member? name = some old) {place : List String × String}
    (hPlaces : (member.places (m.path ++ [name])).Perm
      (place :: old.places (m.path ++ [name]))) :
    (m.insert name member).places.Perm (place :: m.places) := by
  have hRest : m.members.Perm ((name, old) :: m.members.filter (·.1 ≠ name)) := by
    obtain ⟨before, rest, hMembers, hBefore⟩ := List.lookup_eq_some_iff.mp hOld
    have hSorted := h.sorted
    rw [hMembers, List.map_append, List.map_cons] at hSorted
    obtain ⟨-, hRest, hLt⟩ := List.pairwise_append.mp hSorted
    have hBefore : before.filter (·.1 ≠ name) = before :=
      List.filter_eq_self.mpr fun e he => by simpa using (bne_iff_ne.mp (hBefore e he)).symm
    have hAfter : rest.filter (·.1 ≠ name) = rest :=
      List.filter_eq_self.mpr fun e he => by
        simpa using ((List.pairwise_cons.mp hRest).1 e.1 (List.mem_map_of_mem he)).ne'
    rw [hMembers, List.filter_append, List.filter_cons_of_neg (by simp), hBefore, hAfter]
    exact List.perm_middle
  have hPerm := Members.insert_perm h.sorted name member
  unfold places
  rw [Members.places_eq, Members.places_eq]
  refine (hPerm.flatMap_right _).trans ?_
  refine .trans ?_ ((hRest.flatMap_right _).cons place).symm
  exact hPlaces.append_right _

theorem tidy_child (m : Module) (name : String) : (⟨m.path ++ [name], []⟩ : Module).Tidy :=
  ⟨.nil, nofun⟩

/-- A module that is tidy with something in it is tidy as a member. -/
theorem Tidy.toTree (h : m.Tidy) {place : List String × String} (hPlace : place ∈ m.places) :
    m.toTree.Tidy m.path := by
  refine .module (fun hNil => ?_) h.sorted h.members
  rw [places, hNil] at hPlace
  cases hPlace

/-- To place a declaration is to add its place. -/
theorem Tidy.add (h : m.Tidy) (hAdd : m.add path name key = (.ok (), m')) :
    m'.Tidy ∧ m'.path = m.path ∧
      m'.places.Perm ((m.path ++ path ++ [name], key) :: m.places) := by
  unfold Module.add at hAdd
  induction path generalizing m m' with
  | nil =>
    unfold update addHere at hAdd
    split at hAdd
    · cases hAdd
    · rename_i hFree
      cases hAdd
      have hPlaces := places_insert_of_none h (by simpa using hFree) (.leaf key)
      refine ⟨h.insert .leaf, rfl, ?_⟩
      rw [List.append_nil]
      exact hPlaces
  | cons first path ih =>
    unfold update at hAdd
    have hStep : ∀ {child child' : Module}, child.Tidy → child.path = m.path ++ [first] →
        update (addHere name key) path child = (.ok (), child') →
        child'.toTree.Tidy (m.path ++ [first]) ∧
          (child'.toTree.places (m.path ++ [first])).Perm
            ((m.path ++ (first :: path) ++ [name], key) :: child.places) := by
      intro child child' hChild hPath hUpdate
      obtain ⟨hTidy, hPath', hPlaces⟩ := ih hChild hUpdate
      have hTree := hTidy.toTree (hPlaces.mem_iff.mpr List.mem_cons_self)
      have hSame : child'.path = m.path ++ [first] := hPath'.trans hPath
      rw [hSame] at hTree
      refine ⟨hTree, ?_⟩
      rw [Module.places, hSame, hPath] at hPlaces
      simpa [Module.toTree, ModuleTree.places] using hPlaces
    split at hAdd
    · rename_i hFree
      cases hUpdate : update (addHere name key) path ⟨m.path ++ [first], []⟩ with
      | mk result child =>
        rw [hUpdate] at hAdd
        cases hAdd
        obtain ⟨hTree, hPlaces⟩ := hStep (tidy_child m first) rfl hUpdate
        refine ⟨h.insert hTree, rfl, ?_⟩
        refine (places_insert_of_none h hFree _).trans ?_
        exact hPlaces.append_right m.places
    · rename_i childPath members hOld
      have hTidy := h.members first _ (h.member_mem.mp hOld)
      cases hTidy with
      | module _ hSorted hMembers =>
        cases hUpdate : update (addHere name key) path ⟨m.path ++ [first], members⟩ with
        | mk result child =>
          rw [hUpdate] at hAdd
          cases hAdd
          obtain ⟨hTree, hPlaces⟩ := hStep ⟨hSorted, hMembers⟩ rfl hUpdate
          exact ⟨h.insert hTree, rfl, places_insert_of_some h hOld hPlaces⟩
    · cases hAdd

/-- A declaration can be placed where no place lies on the way to it or below it. -/
theorem Tidy.exists_add (h : m.Tidy) (hFree : ∀ place ∈ m.places,
      ¬place.1 <+: m.path ++ path ++ [name] ∧ ¬m.path ++ path ++ [name] <+: place.1) :
    ∃ m', m.add path name key = (.ok (), m') := by
  unfold Module.add
  induction path generalizing m with
  | nil =>
    have hNone : m.member? name = none := by
      refine Option.eq_none_iff_forall_ne_some.mpr fun member hThere => ?_
      have hMem := h.member_mem.mp hThere
      have hTidy := h.members name member hMem
      obtain ⟨place, hPlace⟩ := hTidy.exists_place
      have hBelow := hTidy.prefix_of_mem hPlace
      exact (hFree place (Members.mem_places.mpr ⟨name, member, hMem, hPlace⟩)).2
        (by simpa using hBelow)
    exact ⟨m.insert name (.leaf key), by simp [update, addHere, hNone]⟩
  | cons first path ih =>
    have hStep : ∀ child : Module, child.Tidy → child.path = m.path ++ [first] →
        (∀ place ∈ child.places, place ∈ m.places) →
        ∃ child', update (addHere name key) path child = (.ok (), child') := by
      intro child hChild hPath hSub
      refine ih hChild fun place hPlace => ?_
      rw [hPath, List.append_assoc m.path, List.singleton_append]
      exact hFree place (hSub place hPlace)
    unfold update
    split
    · obtain ⟨child, hChild⟩ := hStep ⟨m.path ++ [first], []⟩ (tidy_child m first) rfl nofun
      exact ⟨_, by rw [hChild]⟩
    · rename_i childPath members hOld
      have hMem := h.member_mem.mp hOld
      cases h.members first _ hMem with
      | module _ hSorted hMembers =>
        obtain ⟨child, hChild⟩ := hStep ⟨m.path ++ [first], members⟩ ⟨hSorted, hMembers⟩ rfl
          fun place hPlace => Members.mem_places.mpr ⟨first, _, hMem, hPlace⟩
        exact ⟨_, by rw [hChild]⟩
    · rename_i key' hOld
      have hMem := h.member_mem.mp hOld
      have hPlace : (m.path ++ [first], key') ∈ m.places :=
        Members.mem_places.mpr ⟨first, _, hMem, List.mem_singleton_self _⟩
      exact absurd ⟨path ++ [name], by simp⟩ (hFree _ hPlace).1

/-! ### Finding a declaration, and trees with the same places -/

theorem exists_find_of_member {t : ModuleTree} {full : List String} (hTidy : t.Tidy full)
    {place : List String × String} (hPlace : place ∈ t.places full)
    (hMember : m.member? name = some t) (hFull : m.path ++ [name] = full) :
    ∃ path last, place.1 = m.path ++ path ++ [last] ∧
      (m.find? path).bind (·.member? last) = some (.leaf place.2) := by
  induction hTidy generalizing m name with
  | leaf =>
    rw [List.mem_singleton.mp hPlace]
    exact ⟨[], name, by simp [hFull], hMember⟩
  | @module full members _ hSorted hMembers ih =>
    obtain ⟨next, member, hMem, hPlace⟩ := Members.mem_places.mp hPlace
    have hNext : (⟨full, members⟩ : Module).member? next = some member :=
      lookup_of_mem (Members.nodup_of_sorted hSorted) hMem
    obtain ⟨path, last, hPath, hFound⟩ := ih next member hMem hPlace hNext rfl
    refine ⟨name :: path, last, ?_, ?_⟩
    · simp [hPath, ← hFull]
    · unfold find?
      rwa [hMember]

/-- A declaration stands in the module at its path, under its name. -/
theorem Tidy.member_of_mem_places (h : m.Tidy)
    (hPlace : (m.path ++ path ++ [name], key) ∈ m.places) :
    (m.find? path).bind (·.member? name) = some (.leaf key) := by
  obtain ⟨first, t, hMem, hPlace⟩ := Members.mem_places.mp hPlace
  obtain ⟨path', last, hPath, hFound⟩ := exists_find_of_member (h.members first t hMem) hPlace
    (h.member_mem.mpr hMem) rfl
  obtain ⟨hSame, hLast⟩ := List.append_inj' hPath rfl
  cases hLast
  rwa [List.append_cancel_left hSame]

end Module

/-- A tidy tree is determined by its places. -/
theorem ModuleTree.Tidy.ext {path : List String} {t t' : ModuleTree} (h : t.Tidy path)
    (h' : t'.Tidy path) (hPlaces : ∀ place, place ∈ t.places path ↔ place ∈ t'.places path) :
    t = t' := by
  have hBelow : ∀ {path : List String} {members : Members} {key : String},
      (ModuleTree.module path members).Tidy path →
      (path, key) ∉ (ModuleTree.module path members).places path := by
    intro path members key hTidy hPlace
    cases hTidy with
    | module _ _ hMembers =>
      obtain ⟨name, member, hMem, hPlace⟩ := Members.mem_places.mp hPlace
      have hLength := ((hMembers _ _ hMem).prefix_of_mem hPlace).length_le
      simp at hLength
  induction h generalizing t' with
  | @leaf path key =>
    have hHere := (hPlaces (path, key)).mp (List.mem_singleton_self _)
    cases h' with
    | leaf =>
      cases List.mem_singleton.mp hHere
      rfl
    | module hSome hSorted hMembers => exact absurd hHere (hBelow (.module hSome hSorted hMembers))
  | @module path members hSome hSorted hMembers ih =>
    cases h' with
    | @leaf _ key =>
      have hHere := (hPlaces (path, key)).mpr (List.mem_singleton_self _)
      exact absurd hHere (hBelow (.module hSome hSorted hMembers))
    | module _ hSorted' hMembers' =>
      rw [eq_of_places hSorted hMembers hSorted' hMembers' hPlaces ih]

theorem Module.Tidy.ext {m m' : Module} (h : m.Tidy) (h' : m'.Tidy) (hPath : m.path = m'.path)
    (hPlaces : m.places.Perm m'.places) : m = m' := by
  obtain ⟨path, members⟩ := m
  obtain ⟨_, members'⟩ := m'
  cases hPath
  have hSame : members = members' :=
    ModuleTree.eq_of_places h.sorted h.members h'.sorted h'.members
      (fun place => hPlaces.mem_iff) fun name member hMem => (h.members name member hMem).ext
  rw [hSame]

end FixedLayout
