import FixedLayout.Proofs.Construction.Steps
import FixedLayout.Proofs.Construction.Whole
import FixedLayout.Proofs.ModuleTree

/-! The module tree of a session holds the declarations of its registry: each of them that is
written out has its place in the tree, and there are no other places. -/

namespace FixedLayout

/-- Where a declaration stands in the module tree. -/
def Declaration.place (d : Declaration) : List String × String :=
  (d.type.modulePath ++ [d.type.name], d.key)

/-- The structs, unions and enumerations in the order of registration. -/
def Registry.emitted (r : Registry) : List Declaration := r.declarations.filter (·.isEmitted)

theorem Registry.emitted_push (r : Registry) (d : Declaration) :
    (r.push d).emitted = r.emitted ++ [d].filter (·.isEmitted) := by
  simp [emitted, declarations, push]

theorem Registry.mem_emitted {r : Registry} {d : Declaration} :
    d ∈ r.emitted ↔ (∃ key, (key, d) ∈ r.entries) ∧ d.isEmitted = true := by
  rw [emitted, List.mem_filter, declarations]
  simp

theorem Registry.nodup_emitted {r : Registry} (hKeys : r.keys.Nodup)
    (hOwn : ∀ key d, (key, d) ∈ r.entries → d.key = key) :
    (r.emitted.map Declaration.key).Nodup := by
  rw [← map_key_declarations hOwn] at hKeys
  exact hKeys.sublist (List.filter_sublist.map _)

namespace Construction

/-- The places of the tree are those of the declarations that are written out. -/
structure Session.Placed (s : Session) : Prop where
  tidy : s.root.Tidy
  path : s.root.path = []
  places : s.root.places.Perm (s.registry.emitted.map Declaration.place)

/-- Nothing but structs, unions and enumerations is placed. -/
def Action.Emits (a : Action) : Prop := ∀ d, a = .place d → d.isEmitted = true

variable {setting : Setting} {s s' : Session}

theorem Session.placed_empty : ({} : Session).Placed := ⟨Module.tidy_root, rfl, .refl _⟩

theorem Session.Placed.push (h : s.Placed) {d : Declaration} (hEmitted : d.isEmitted = true)
    {root : Module} (hAdmits : s.Admits d root) :
    Session.Placed { s with root, registry := s.registry.push d } := by
  obtain ⟨hTidy, hPath, hPlaces⟩ := h.tidy.add hAdmits.named
  refine ⟨hTidy, hPath.trans h.path, hPlaces.trans ?_⟩
  rw [h.path, List.nil_append, Registry.emitted_push, List.filter_cons_of_pos hEmitted]
  simp only [List.filter_nil, List.map_append, List.map_cons, List.map_nil]
  exact (h.places.cons _).trans (List.perm_append_singleton _ _).symm

theorem Session.Step.placed {a : Action} (h : s.Step a s') (hEmits : a.Emits) (hPlaced : s.Placed) :
    s'.Placed := by
  cases h with
  | present | claimed | pending => exact hPlaced
  | claim | report => exact ⟨hPlaced.tidy, hPlaced.path, hPlaced.places⟩
  | primitive =>
    refine ⟨hPlaced.tidy, hPlaced.path, ?_⟩
    simpa [Registry.emitted_push, Declaration.isEmitted] using hPlaced.places
  | placeholder _ hAdmits => exact hPlaced.push rfl hAdmits
  | place hAdmits => exact hPlaced.push (hEmits _ rfl) hAdmits

theorem Setting.Calls.emits {a : Action} (h : setting.Calls a) : a.Emits := by
  rintro d rfl
  cases h

theorem Setting.Declares.emitted {desc : TypeDesc} {type : TypeExpr} {d : Declaration}
    (h : setting.Declares desc type d) : d.isEmitted = true := by
  cases h with
  | own hOwn =>
    rcases Setting.declaration?_cases hOwn with ⟨-, rfl⟩ | ⟨_, _, _, _, -, -, -, rfl⟩ <;> rfl
  | union => rfl

theorem emits_buildScript (desc : TypeDesc) (type : TypeExpr) :
    ∀ a ∈ (setting.buildScript desc type).actions, a.Emits := by
  intro a ha
  rcases Host.does_buildType desc type a ha with hCalls | ⟨_, rfl⟩ | ⟨d, rfl, hDeclares⟩
  · exact hCalls.emits
  · exact nofun
  · rintro _ ⟨⟩
    exact hDeclares.emitted

theorem Session.Built.placed (h : s.Built setting) : s.Placed :=
  h.run.invariant emits_buildScript (fun hEmits hStep => hStep.placed hEmits)
    (fun _ hPlaced => ⟨hPlaced.tidy, hPlaced.path, hPlaced.places⟩)
    (fun hPlaced => ⟨hPlaced.tidy, hPlaced.path, hPlaced.places⟩)
    (only_script (fun _ => nofun) fun _ ha => ha.emits) Session.placed_empty

end Construction

end FixedLayout
