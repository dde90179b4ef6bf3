import FixedLayout.Proofs.Construction.Steps
import FixedLayout.Proofs.Construction.Whole

/-! The built-in primitives. They are registered before anything else, so nothing can take a key of
theirs first. -/

namespace FixedLayout.Construction

open Script

variable {setting : Setting}

theorem forM_perform {α : Type} (f : α → Action) (as : List α) :
    (as.forM fun a => (recorder setting).perform (f a)) = ⟨as.map f, .ok ⟨⟩⟩ := by
  induction as with
  | nil => rfl
  | cons a as ih =>
    show ((recorder setting).perform (f a) >>= fun _ =>
      as.forM fun a => (recorder setting).perform (f a)) = _
    rw [ih]
    rfl

/-- Primitives with free keys are registered one after the other. -/
theorem Exec.primitives {ps : List Primitive} {s s' : Session}
    (h : Exec setting s (ps.map .primitive) (.ok ()) s') (hKeys : (ps.map Primitive.key).Nodup)
    (hFree : ∀ p ∈ ps, s.registry.contains p.key = false) :
    s'.registry.entries = s.registry.entries ++ ps.map fun p => (p.key, .primitive p) := by
  induction ps generalizing s with
  | nil =>
    cases h
    exact (List.append_nil _).symm
  | cons p ps ih =>
    obtain ⟨hHead, hTail⟩ := List.nodup_cons.mp hKeys
    cases h with
    | step hStep hRest =>
      cases hStep.step with
      | present hThere => cases hThere.symm.trans (hFree p List.mem_cons_self)
      | primitive =>
        have hRest := ih hRest hTail fun q hq => by
          have hNe : q.key ≠ p.key := fun hEq => hHead (hEq ▸ List.mem_map_of_mem hq)
          rw [Registry.contains_push, hFree q (List.mem_cons_of_mem _ hq)]
          simpa [Declaration.key] using hNe
        rw [hRest]
        simp [Registry.push, Declaration.key]

/-- A finished construction has each built-in primitive under its key. -/
theorem Session.Built.mem_builtin {s : Session} (h : s.Built setting) {p : Primitive}
    (hp : p ∈ Primitive.builtin) : (p.key, .primitive p) ∈ s.registry.entries := by
  obtain ⟨n, hOk⟩ := h.result
  have hFirst : ∃ rest, setting.script.actions = Primitive.builtin.map .primitive ++ rest := by
    rw [script_actions hOk, Setting.basis, populateWith, forM_perform]
    exact ⟨_, List.append_assoc ..⟩
  obtain ⟨rest, hActions⟩ := hFirst
  have hRun := h.run
  rw [hActions] at hRun
  obtain ⟨basis, hBasis, hRest⟩ := hRun.exists_of_append
  have hEntries := hBasis.primitives (by decide) fun _ _ => rfl
  refine hRest.grows.isPrefix.subset ?_
  rw [hEntries]
  exact List.mem_append_right _ (List.mem_map_of_mem hp)

end FixedLayout.Construction
