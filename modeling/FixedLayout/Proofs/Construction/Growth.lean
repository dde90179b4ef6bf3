import FixedLayout.Proofs.Construction.History
import FixedLayout.Proofs.ModuleTree.Growth
import Mathlib.Data.Vector.Basic

/-! A session only grows, whatever it is asked for and wherever a request fails: what was
registered, placed or reported before is still there, and nothing is left on the stack. -/

namespace FixedLayout.Construction

open Script

/-- Nothing is lost on the way from one session to another. -/
structure Session.Grows (s s' : Session) : Prop where
  registry : s.registry.entries <+: s'.registry.entries
  root : s.root.Keeps s'.root
  diagnostics : s.diagnostics <+: s'.diagnostics

variable {setting : Setting} {s s' s'' : Session}

theorem Session.Grows.refl (s : Session) : s.Grows s :=
  ⟨List.prefix_rfl, .refl _, List.prefix_rfl⟩

theorem Session.Grows.trans (h : s.Grows s') (h' : s'.Grows s'') : s.Grows s'' :=
  ⟨h.registry.trans h'.registry, h.root.trans h'.root, h.diagnostics.trans h'.diagnostics⟩

/-- The stack does not count. -/
theorem Session.Grows.leave {key : String} (h : (s.enter key).Grows s') : s.Grows s'.leave :=
  ⟨h.registry, h.root, h.diagnostics⟩

/-- The tree keeps what it holds, also when there is no place for the declaration. -/
theorem grows_place (s : Session) (d : Declaration) : s.Grows ((place d).on s).2 := by
  have hRoot := Module.keeps_add d.type.modulePath d.type.name d.key s.root
  rcases place_on s d with ⟨e, hPlace⟩ | ⟨-, -, hPlace⟩
  · rw [hPlace]
    exact ⟨List.prefix_rfl, hRoot, List.prefix_rfl⟩
  · rw [hPlace]
    exact ⟨List.prefix_append .., hRoot, List.prefix_rfl⟩

theorem Atomic.session_grows {config : Config} {a : Action} {r : Except ExportError Unit}
    (h : Atomic config s a r s') : s.Grows s' := by
  obtain ⟨hPlain, hEq⟩ := h
  obtain rfl : ((performOn config (fun _ _ => pure ()) a).on s).2 = s' := by rw [hEq]
  cases a with
  | primitive p =>
    change s.Grows ((registerPrimitive p).on s).2
    rcases registerPrimitive_on s p with ⟨-, hRun⟩ | ⟨-, hRun⟩
    · rw [hRun]
      exact .refl s
    · rw [hRun]
      exact ⟨List.prefix_append .., .refl _, List.prefix_rfl⟩
  | claim type name args =>
    change s.Grows ((claimInstance type name args).on s).2
    rcases claimInstance_on s type name args with ⟨e, hRun⟩ | ⟨-, hRun⟩ | ⟨-, hRun⟩
    all_goals
      rw [hRun]
      exact ⟨List.prefix_rfl, .refl _, List.prefix_rfl⟩
  | ensure desc type => cases hPlain
  | placeholder type =>
    unfold performOn
    rw [Build.on_bind, Build.on_get]
    dsimp only
    split
    · exact grows_place s _
    · exact .refl s
  | report diagnostics => exact ⟨List.prefix_rfl, .refl _, List.prefix_append ..⟩
  | place d => exact grows_place s d

theorem Exec.session_grows {as : List Action} {r : Except ExportError Unit}
    (h : Exec setting s as r s') : s.Grows s' := by
  induction h with
  | done => exact .refl _
  | step hStep _ ih => exact hStep.session_grows.trans ih
  | fail hStep => exact hStep.session_grows
  | skip _ _ ih => exact ih
  | build _ _ _ _ _ ihInner ihRest => exact ihInner.leave.trans ihRest
  | abort _ _ _ _ ihInner => exact ihInner.leave

namespace Request

/-- The session after a request, whatever that answers. -/
def after (setting : Setting) (s : Session) : Request → Session
  | .primitives => ((populate setting.config).on s).2
  | .call c => ((c.on (Scope.top setting)).on s).2

theorem exists_exec_after (setting : Setting) (request : Request) (hIdle : s.stack = []) :
    ∃ as r, Exec setting s as r (after setting s request) := by
  cases request with
  | primitives =>
    have hStacked : s.Stacked setting := ⟨hIdle ▸ List.nodup_nil, by simp [hIdle]⟩
    have hKnown : Only (Action.Known setting) setting.basis := only_basis fun _ => trivial
    have hRun := exec_withRoom setting.library.size hStacked hKnown (Nat.le_add_left ..)
    have hAfter :
        after setting s .primitives = ((setting.basis.runOn (Scope.top setting)).on s).2 := by
      rw [runOn_basis]
      rfl
    rw [hAfter, on_runOn]
    exact ⟨_, _, hRun⟩
  | call c =>
    obtain ⟨r, s', hRun, hAnswer⟩ := Call.exists_exec setting c hIdle
    have hAfter : after setting s (.call c) = s' := congrArg Prod.snd hAnswer
    rw [hAfter]
    exact ⟨_, r, hRun⟩

theorem grows_after (setting : Setting) (request : Request) (hIdle : s.stack = []) :
    s.Grows (after setting s request) ∧ (after setting s request).stack = [] := by
  obtain ⟨as, r, hRun⟩ := exists_exec_after setting request hIdle
  exact ⟨hRun.session_grows, hRun.stack_eq.trans hIdle⟩

theorem grows_of_mem_scanl (hIdle : s.stack = []) (requests : List Request) :
    ∀ s' ∈ requests.scanl (after setting) s, s.Grows s' ∧ s'.stack = [] := by
  induction requests generalizing s with
  | nil =>
    intro s' hMem
    obtain rfl := List.mem_singleton.mp hMem
    exact ⟨.refl _, hIdle⟩
  | cons request requests ih =>
    obtain ⟨hGrows, hStack⟩ := grows_after setting request hIdle
    intro s' hMem
    rw [List.scanl_cons] at hMem
    rcases List.mem_cons.mp hMem with rfl | hMem
    · exact ⟨.refl _, hIdle⟩
    · obtain ⟨hLater, hEnd⟩ := ih hStack s' hMem
      exact ⟨hGrows.trans hLater, hEnd⟩

/-- Requests may come in any order and number, and fail wherever they do. After each of them nothing
is being built, and nothing that any of them has left is ever lost. -/
theorem sessions_grow (setting : Setting) (hIdle : s.stack = []) (requests : List Request) :
    (∀ s' ∈ requests.scanl (after setting) s, s'.stack = []) ∧
      (requests.scanl (after setting) s).Pairwise Session.Grows := by
  refine ⟨fun s' hMem => (grows_of_mem_scanl hIdle requests s' hMem).2, ?_⟩
  induction requests generalizing s with
  | nil => exact List.pairwise_singleton ..
  | cons request requests ih =>
    obtain ⟨hGrows, hStack⟩ := grows_after setting request hIdle
    rw [List.scanl_cons]
    refine List.pairwise_cons.mpr ⟨fun s' hMem => ?_, ih hStack⟩
    exact hGrows.trans (grows_of_mem_scanl hStack requests s' hMem).1

/-- A struct with a pointer to another one, and with a field whose type is a parameter. -/
def halfBuilt : Setting :=
  ⟨.ofTypes [
    .ofFields "App.Leaf" 4 [{ name := "value", shape := .scalar .int32, offset := 0 }],
    .ofFields "App.Node" 16 [
      { name := "leaf", shape := .pointer (.named "App.Leaf" []), offset := 0 },
      { name := "rest", shape := .param "T", offset := 8 }]],
    .forNamespace "App" ["app"]⟩

theorem sessions_grow_halfBuilt :
    let requests := [.call (.named "App.Node"), .primitives, .call .all]
    let first := after halfBuilt {} (.call (.named "App.Node"))
    ({} : Session).stack = [] ∧
      (((Scope.top halfBuilt).ensureNamed "App.Node").on {}).1.toOption = none ∧
      first.registry.keys = ["crate::app::Leaf"] ∧
      (∀ s' ∈ requests.scanl (after halfBuilt) {}, s'.stack = []) ∧
      (requests.scanl (after halfBuilt) {}).Pairwise Session.Grows := by
  have hFails : (((Scope.top halfBuilt).ensureNamed "App.Node").on {}).1.toOption = none ∧
      (after halfBuilt {} (.call (.named "App.Node"))).registry.keys = ["crate::app::Leaf"] := by
    decide +kernel
  exact ⟨rfl, hFails.1, hFails.2, sessions_grow halfBuilt rfl _⟩

end Request

end FixedLayout.Construction
