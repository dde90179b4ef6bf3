import FixedLayout.Proofs.ModuleTree

/-! Edits of a module tree that starts as an empty root. Modules that are missing on the way to a
path are made as the walk goes on, and yet no edit that fails leaves anything behind: it fails where
a name is taken, and nothing is taken in a module that has just been made. -/

namespace FixedLayout

/-- The error says that a name is taken. -/
def ExportError.IsTaken (e : ExportError) : Prop :=
  ∃ inside name, e = .duplicateRegistration inside name

/-- Every module in a tree knows its path and keeps its members in order. It may be empty. -/
inductive ModuleTree.Sound : List String → ModuleTree → Prop
  | leaf {path : List String} {key : String} : Sound path (.leaf key)
  | module {path : List String} {members : Members}
      (hSorted : (members.map (·.1)).Pairwise (· < ·))
      (hMembers : ∀ name member, (name, member) ∈ members → Sound (path ++ [name]) member) :
      Sound path (.module path members)

structure Module.Sound (m : Module) : Prop where
  sorted : (m.members.map (·.1)).Pairwise (· < ·)
  members : ∀ name member, (name, member) ∈ m.members → member.Sound (m.path ++ [name])

theorem Members.insert_of_lookup {members : Members} {name : String} {member : ModuleTree}
    (hSorted : (members.map (·.1)).Pairwise (· < ·)) (h : members.lookup name = some member) :
    Members.insert name member members = members := by
  induction members with
  | nil => cases h
  | cons e rest ih =>
    obtain ⟨n, m⟩ := e
    obtain ⟨hHead, hRest⟩ := List.pairwise_cons.mp hSorted
    rw [lookup_cons_eq] at h
    unfold Members.insert
    by_cases hSame : name = n
    · rw [if_pos hSame] at h ⊢
      cases h
      rw [hSame]
    · rw [if_neg hSame] at h ⊢
      have hLater : n < name := hHead name (List.mem_map_of_mem (mem_of_lookup h))
      rw [if_neg hLater.asymm, ih hRest h]

namespace Module

variable {α : Type} {f : Module → Except ExportError α × Module} {m : Module}
  {name : String} {path : List String}

theorem sound_root : root.Sound := ⟨.nil, nofun⟩

theorem sound_empty (path : List String) : (⟨path, []⟩ : Module).Sound := ⟨.nil, nofun⟩

theorem Sound.toTree (h : m.Sound) : m.toTree.Sound m.path := .module h.sorted h.members

theorem Sound.insert (h : m.Sound) {member : ModuleTree}
    (hMember : member.Sound (m.path ++ [name])) : (m.insert name member).Sound := by
  refine ⟨Members.sorted_insert h.sorted name member, fun n other hMem => ?_⟩
  rcases (Members.mem_insert h.sorted name member).mp hMem with ⟨rfl, rfl⟩ | ⟨-, hMem⟩
  · exact hMember
  · exact h.members n other hMem

/-- A module among the members is sound itself, and stands below its parent. -/
theorem Sound.child (h : m.Sound) {childPath : List String} {members : Members}
    (hThere : m.member? name = some (.module childPath members)) :
    childPath = m.path ++ [name] ∧ (⟨childPath, members⟩ : Module).Sound := by
  cases h.members name _ (mem_of_lookup hThere) with
  | module hSorted hMembers => exact ⟨rfl, hSorted, hMembers⟩

theorem Sound.insert_eq_self (h : m.Sound) {member : ModuleTree}
    (hThere : m.member? name = some member) : m.insert name member = m := by
  rw [Module.insert, Members.insert_of_lookup h.sorted hThere]

/-! ### Walks -/

/-- A walk that may change only what stands at its end keeps the tree sound. -/
theorem Sound.update (hf : ∀ found : Module, found.Sound →
      (f found).2.Sound ∧ (f found).2.path = found.path) (path : List String) (h : m.Sound) :
    (update f path m).2.Sound ∧ (update f path m).2.path = m.path := by
  fun_induction Module.update f path m with
  | case1 m => exact hf m h
  | case2 name path m hThere result child hUpdate ih =>
    rw [hUpdate] at ih
    obtain ⟨hSound, hSame⟩ : child.Sound ∧ child.path = m.path ++ [name] := ih (sound_empty _)
    exact ⟨h.insert (hSame ▸ hSound.toTree), rfl⟩
  | case3 name path m childPath members hThere result child hUpdate ih =>
    rw [hUpdate] at ih
    obtain ⟨rfl, hChild⟩ := h.child hThere
    obtain ⟨hSound, hSame⟩ : child.Sound ∧ child.path = m.path ++ [name] := ih hChild
    exact ⟨h.insert (hSame ▸ hSound.toTree), rfl⟩
  | case4 name path m key hThere => exact ⟨h, rfl⟩

/-- A walk that has made a module does not fail any more, since it meets only empty ones. -/
theorem exists_update_of_empty (hf : ∀ path, ∃ a, (f ⟨path, []⟩).1 = .ok a)
    (path here : List String) : ∃ a, (update f path ⟨here, []⟩).1 = .ok a := by
  induction path generalizing here with
  | nil => exact hf here
  | cons name path ih => exact ih (here ++ [name])

/-- A walk that fails has changed nothing, if that holds of what is done at its end. -/
theorem Sound.update_eq_self (hf : ∀ path, ∃ a, (f ⟨path, []⟩).1 = .ok a)
    (hError : ∀ found : Module, found.Sound → ∀ e, (f found).1 = .error e → (f found).2 = found)
    (path : List String) (h : m.Sound) {e : ExportError}
    (hFails : (Module.update f path m).1 = .error e) : (Module.update f path m).2 = m := by
  fun_induction Module.update f path m with
  | case1 m => exact hError m h e hFails
  | case2 name path m hThere result child hUpdate ih =>
    obtain ⟨a, hOk⟩ := exists_update_of_empty hf path (m.path ++ [name])
    rw [hUpdate] at hOk
    cases hOk.symm.trans hFails
  | case3 name path m childPath members hThere result child hUpdate ih =>
    rw [hUpdate] at ih
    obtain rfl : child = ⟨childPath, members⟩ := ih (h.child hThere).2 hFails
    exact h.insert_eq_self hThere
  | case4 name path m key hThere => rfl

theorem isTaken_of_update
    (hf : ∀ (found : Module) (e : ExportError), (f found).1 = .error e → e.IsTaken)
    {e : ExportError} (h : (update f path m).1 = .error e) : e.IsTaken := by
  fun_induction Module.update f path m with
  | case1 m => exact hf m e h
  | case2 name path m hThere result child hUpdate ih
  | case3 name path m childPath members hThere result child hUpdate ih =>
    rw [hUpdate] at ih
    exact ih h
  | case4 name path m key hThere =>
    cases h
    exact ⟨_, _, rfl⟩

/-- What is done at the end of a walk is done to the module that the walk finds or makes. -/
theorem update_fst (f : Module → Except ExportError α × Module) (path : List String) (m : Module) :
    (update f path m).1 = (m.make path).1.bind fun found => (f found).1 := by
  unfold make
  fun_induction Module.update f path m with
  | case1 m => rfl
  | case2 name path m hThere result child hUpdate ih
  | case3 name path m childPath members hThere result child hUpdate ih =>
    rw [hUpdate] at ih
    rw [Module.update, hThere]
    exact ih
  | case4 name path m key hThere =>
    rw [Module.update, hThere]
    rfl

/-! ### The two kinds of edits -/

section AddHere

variable {key : String}

theorem Sound.addHere (h : m.Sound) :
    (m.addHere name key).2.Sound ∧ (m.addHere name key).2.path = m.path := by
  unfold Module.addHere
  split
  · exact ⟨h, rfl⟩
  · exact ⟨h.insert .leaf, rfl⟩

theorem addHere_error {e : ExportError} (h : (m.addHere name key).1 = .error e) :
    e.IsTaken ∧ (m.addHere name key).2 = m := by
  unfold Module.addHere at h ⊢
  split
  · rename_i hTaken
    rw [if_pos hTaken] at h
    cases h
    exact ⟨⟨_, _, rfl⟩, rfl⟩
  · rename_i hFree
    rw [if_neg hFree] at h
    cases h

theorem isTaken_of_add {e : ExportError} (h : (m.add path name key).1 = .error e) : e.IsTaken :=
  isTaken_of_update (fun _ _ hError => (addHere_error hError).1) h

end AddHere

/-- A request to change the tree: to make a module, or to place a declaration in one. -/
inductive Edit where
  | make (path : List String)
  | add (path : List String) (name key : String)

/-- What an edit leaves, whether or not it succeeds. -/
def Edit.on (m : Module) : Edit → Module
  | .make path => (m.make path).2
  | .add path name key => (m.add path name key).2

/-- The tree after some edits of an empty root. -/
def after (edits : List Edit) : Module := edits.foldl Edit.on root

theorem Sound.edit (h : m.Sound) (edit : Edit) : (edit.on m).Sound := by
  cases edit with
  | make path => exact (h.update (fun _ hFound => ⟨hFound, rfl⟩) path).1
  | add path name key => exact (h.update (fun _ hFound => hFound.addHere) path).1

theorem sound_after (edits : List Edit) : (after edits).Sound := by
  have hFold : ∀ m : Module, m.Sound → (edits.foldl Edit.on m).Sound := by
    induction edits with
    | nil => exact fun _ h => h
    | cons edit edits ih => exact fun m h => ih (edit.on m) (h.edit edit)
  exact hFold root sound_root

/-- To place a declaration is to make its module and to place it there. If the first of these fails,
or the second one after it, then for a taken name, and the tree is the one from before: no module is
left that was made on the way. -/
theorem after_of_error (edits : List Edit) (path : List String) (name key : String) :
    ((after edits).add path name key).1 =
      ((after edits).make path).1.bind (fun found => (found.addHere name key).1) ∧
    (∀ e, ((after edits).make path).1 = .error e →
      e.IsTaken ∧ ((after edits).make path).2 = after edits) ∧
    (∀ e, ((after edits).add path name key).1 = .error e →
      e.IsTaken ∧ ((after edits).add path name key).2 = after edits) := by
  have hSound := sound_after edits
  refine ⟨update_fst _ path _, fun e hError => ⟨?_, ?_⟩, fun e hError => ⟨?_, ?_⟩⟩
  · exact isTaken_of_update (fun _ _ hNever => by cases hNever) hError
  · exact hSound.update_eq_self (fun _ => ⟨_, rfl⟩) (fun _ _ _ _ => rfl) path hError
  · exact isTaken_of_add hError
  · exact hSound.update_eq_self (fun _ => ⟨(), rfl⟩)
      (fun _ _ _ hHere => (addHere_error hHere).2) path hError

/-- A declaration in a module, which is in the way of a module and of another declaration. -/
theorem after_of_error_window :
    let tree := after [.add ["ui"] "Window" "crate::ui::Window"]
    (tree.make ["ui", "Window", "parts"]).1 =
      .error (.duplicateRegistration "crate::ui" "Window") ∧
    (tree.make ["ui", "Window", "parts"]).2 = tree ∧
    (tree.add ["ui"] "Window" "crate::ui::Window").1 =
      .error (.duplicateRegistration "crate::ui" "Window") ∧
    (tree.add ["ui"] "Window" "crate::ui::Window").2 = tree := by
  intro tree
  have hMake : (tree.make ["ui", "Window", "parts"]).1 =
      .error (.duplicateRegistration "crate::ui" "Window") := by
    rfl
  have hAdd : (tree.add ["ui"] "Window" "crate::ui::Window").1 =
      .error (.duplicateRegistration "crate::ui" "Window") := by
    rfl
  have hMade := (after_of_error [.add ["ui"] "Window" "crate::ui::Window"]
    ["ui", "Window", "parts"] "Window" "").2.1 _ hMake
  have hAdded := (after_of_error [.add ["ui"] "Window" "crate::ui::Window"]
    ["ui"] "Window" "crate::ui::Window").2.2 _ hAdd
  exact ⟨hMake, hMade.2, hAdd, hAdded.2⟩

end Module

end FixedLayout
