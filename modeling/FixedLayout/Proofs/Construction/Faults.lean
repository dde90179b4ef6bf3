import FixedLayout.Proofs.Construction.Machine
import FixedLayout.Proofs.ModuleTree.Edits

/-! Where the error of a construction comes from. An action that builds nothing fails for a taken
name and for nothing else. Any other error is the one that a script ends with: the script that was
asked for, or that of a type whose build has begun on the way. -/

namespace FixedLayout

namespace Construction

open Script

theorem isTaken_of_place {d : Declaration} {s s' : Session} {e : ExportError}
    (h : (place d).on s = (.error e, s')) : e.IsTaken := by
  unfold place at h
  rw [Build.on_bind, claimName_on] at h
  cases hNamed : (s.root.add d.type.modulePath d.type.name d.key).1 with
  | error e' =>
    rw [hNamed] at h
    cases h
    exact Module.isTaken_of_add hNamed
  | ok u =>
    rw [hNamed] at h
    simp only [register, Registry.register, Build.on_bind, Build.on_get, Build.on_ofExcept] at h
    by_cases hThere : s.registry.contains d.key = true
    · rw [if_pos hThere] at h
      cases h
      exact ⟨_, _, rfl⟩
    · rw [if_neg hThere] at h
      cases h

/-- An action that builds nothing fails for a taken name only. -/
theorem Atomic.isTaken {config : Config} {s s' : Session} {a : Action} {e : ExportError}
    (h : Atomic config s a (.error e) s') : e.IsTaken := by
  have hRun := h.eq
  cases a with
  | primitive p =>
    rcases registerPrimitive_on s p with ⟨-, hOk⟩ | ⟨-, hOk⟩ <;> cases hOk.symm.trans hRun
  | claim type name args =>
    change (claimInstance type name args).on s = _ at hRun
    rw [claimInstance, Build.on_bind, Build.on_get] at hRun
    dsimp only at hRun
    split at hRun
    · split at hRun <;> cases hRun
      exact ⟨_, _, rfl⟩
    · cases hRun
  | ensure => cases h.plain
  | placeholder type =>
    rw [performOn, Build.on_bind, Build.on_get] at hRun
    dsimp only at hRun
    split at hRun
    · exact isTaken_of_place hRun
    · cases hRun
  | report => cases hRun
  | place d => exact isTaken_of_place hRun

namespace Moment

/-- With the next step, the build of a description begins. -/
def Opens (setting : Setting) (desc : TypeDesc) (type : TypeExpr) : Moment → Prop
  | running s ⟨a :: _, _⟩ _ =>
    a = .ensure desc type ∧ isCandidate setting.config desc = true ∧
      s.isPending type.canonical = false
  | _ => False

/-- A script that ends with the error is that of a type whose build begins later on. -/
def Blames (setting : Setting) (start : Moment) (e : ExportError) : Prop :=
  ∃ m desc type, start.Leads setting m ∧ m.Opens setting desc type ∧
    (setting.buildScript desc type).result = .error e

theorem Leads.blames {setting : Setting} {start next : Moment} {e : ExportError}
    (h : start.Leads setting next) (hBlames : next.Blames setting e) : start.Blames setting e := by
  obtain ⟨m, desc, type, hLater, hCause⟩ := hBlames
  exact ⟨m, desc, type, h.trans hLater, hCause⟩

end Moment

variable {setting : Setting}

/-- A run that fails does so for a taken name, or as the script of a type whose build begins on the
way does. -/
theorem Exec.error_cases {s s' : Session} {as : List Action} {e : ExportError}
    (h : Exec setting s as (.error e) s') (result : Except ExportError Unit) (outer : List Frame) :
    e.IsTaken ∨ (Moment.running s ⟨as, result⟩ outer).Blames setting e := by
  generalize hError : Except.error e = r at h
  induction h generalizing result outer with
  | done => cases hError
  | @step s s' s'' a as r hStep _ ih =>
    have hNext := hStep.next? as result outer
    exact (ih result outer hError).imp_right (Moment.Leads.blames (.single hNext))
  | fail hStep =>
    cases hError
    exact .inl hStep.isTaken
  | @skip s s' desc type as r hSkip _ ih =>
    have hNext := next?_of_skip hSkip as result outer
    exact (ih result outer hError).imp_right (Moment.Leads.blames (.single hNext))
  | @build s s' s'' desc type as r hCandidate hFree hOk hInner _ _ ihRest =>
    have hNext := next?_of_free hCandidate hFree as result outer
    have hBuilt := hInner.leads (setting.buildScript desc type).result (⟨as, result⟩ :: outer)
    rw [hOk] at hNext hBuilt
    exact (ihRest result outer hError).imp_right
      (Moment.Leads.blames (.head hNext (hBuilt.trans (.single rfl))))
  | @abort s s' desc type as r e' hCandidate hFree _ hFails ihInner =>
    cases hError
    cases r with
    | error e' =>
      -- An action of the build has failed, so the cause is further inside.
      cases hFails
      have hNext := next?_of_free hCandidate hFree as result outer
      exact (ihInner _ _ rfl).imp_right (Moment.Leads.blames (.single hNext))
    | ok u =>
      -- All its actions are done, so its script itself ends with the error.
      exact .inr ⟨_, desc, type, .refl, ⟨rfl, hCandidate, hFree⟩, hFails⟩

end Construction

end FixedLayout
