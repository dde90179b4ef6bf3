import FixedLayout.Proofs.Construction.History
import FixedLayout.Proofs.Construction.Steps

/-! Asking again. An action that has had its effect has none when it is performed once more, as long
as it places and reports nothing; and no call places or reports anything except through the builds
that it leads to. So once the whole library has been ensured, to ensure any of it again does
nothing. -/

namespace FixedLayout.Construction

open Script

variable {setting : Setting} {s : Session}

/-- The action looks whether its effect is there before it does anything. -/
def Action.Looks : Action → Prop
  | .placeholder type => (openRecord type).key = type.erasedText
  | .report _ => False
  | .place _ => False
  | _ => True

theorem Setting.Calls.looks {a : Action} (h : setting.Calls a) : a.Looks := by
  cases h with
  | placeholder hMem hCandidate hOpen hTarget => exact key_openRecord hOpen _
  | foreign | claim | ensure => trivial

/-- An action that has had its effect and looks for it leaves the session as it is. -/
theorem Exec.single_of_settled {a : Action} (hLooks : a.Looks)
    (hSettled : a.Settled setting.config s) : Exec setting s [a] (.ok ()) s := by
  cases a with
  | primitive p => exact .step (Session.Step.present hSettled |>.atomic _) .done
  | claim type name args => exact .step (Session.Step.claimed hSettled |>.atomic _) .done
  | ensure desc type => exact .skip hSettled .done
  | placeholder type => exact .step (Session.Step.pending (hSettled hLooks) |>.atomic _) .done
  | report diagnostics => exact hLooks.elim
  | place d => exact hLooks.elim

theorem Exec.of_settled {as : List Action} (hLooks : ∀ a ∈ as, a.Looks)
    (hSettled : ∀ a ∈ as, a.Settled setting.config s) : Exec setting s as (.ok ()) s := by
  induction as with
  | nil => exact .done
  | cons a as ih =>
    refine (Exec.single_of_settled (hLooks a (by simp)) (hSettled a (by simp))).cons (ih ?_ ?_)
    · exact fun b hb => hLooks b (List.mem_cons_of_mem _ hb)
    · exact fun b hb => hSettled b (List.mem_cons_of_mem _ hb)

namespace Call

/-- The call is for something that is in the library. -/
def Covered (setting : Setting) : Call → Prop
  | .all => True
  | .named name => (setting.library.definition? name).isSome
  | .desc d => d ∈ setting.library.types
  | .shape .. => False

/-- If ensuring the whole library ends without an error, then so does any call for a part of it,
which does nothing else. -/
theorem Covered.subset {call : Call} (h : call.Covered setting) {n : Nat}
    (hAll : (recorder setting).ensureAll.result = .ok n) :
    (∃ answer, (call.on (recorder setting)).result = .ok answer) ∧
      (call.on (recorder setting)).actions ⊆ (recorder setting).ensureAll.actions := by
  have hDesc : ∀ desc ∈ setting.library.types,
      (∃ answer, ((recorder setting).ensureDesc desc).result = .ok answer) ∧
        ((recorder setting).ensureDesc desc).actions ⊆ (recorder setting).ensureAll.actions := by
    intro desc hMem
    obtain ⟨types, hTypes, -, hActions⟩ := bind_ok hAll
    obtain ⟨hOk, hSub⟩ := actions_subset_mapM hTypes hMem
    refine ⟨hOk, fun a ha => ?_⟩
    rw [Host.ensureAll, hActions]
    exact List.mem_append_left _ (hSub ha)
  cases call with
  | all => exact ⟨⟨n, hAll⟩, List.Subset.refl _⟩
  | desc d => exact hDesc d h
  | named name =>
    obtain ⟨desc, hFind⟩ := Option.isSome_iff_exists.mp h
    have hNamed : (recorder setting).ensureNamed name = (recorder setting).ensureDesc desc := by
      unfold Host.ensureNamed
      rw [show (recorder setting).library.definition? name = some desc from hFind]
    show (∃ answer, ((recorder setting).ensureNamed name).result = .ok answer) ∧
      ((recorder setting).ensureNamed name).actions ⊆ _
    rw [hNamed]
    exact hDesc desc (Library.definition?_spec hFind).1
  | shape context whole => exact h.elim

/-- Once the whole library has been ensured, everything in it can be ensured over and over, in any
order, always without an error. The session stays as it is, and the count too. -/
theorem ensureAll_idempotent {s₀ : Session} {n : Nat} (hIdle : s₀.stack = [])
    (hAll : ((Scope.top setting).ensureAll).on s₀ = (.ok n, s)) {calls : List Call}
    (hCalls : ∀ call ∈ calls, call.Covered setting) :
    after setting s calls = s ∧
      ((Scope.top setting).ensureAll).on (after setting s calls) = (.ok n, s) ∧
      ∀ call : Call, call.Covered setting →
        ∃ answer, (call.on (Scope.top setting)).on (after setting s calls) = (.ok answer, s) := by
  obtain ⟨r, s', hRun, hAnswer⟩ := exists_exec setting .all hIdle
  obtain ⟨hResult, rfl⟩ := Prod.ext_iff.mp (hAll.symm.trans hAnswer)
  cases r with
  | error e => cases hResult
  | ok u =>
    have hAllOk : (recorder setting).ensureAll.result = .ok n := hResult.symm
    have hSettled := hRun.settled (known .all)
    have hLooks : ∀ a ∈ (recorder setting).ensureAll.actions, a.Looks :=
      (only_mapM _ fun desc hMem a ha => (Host.calls_ensureDesc hMem a ha).looks).bind
        fun _ _ => only_pure _
    -- The script of a covered call is a part of what has been run.
    have hAgain : ∀ call : Call, call.Covered setting →
        (call.on (Scope.top setting)).on s = ((call.on (recorder setting)).result, s) := by
      intro call hCovered
      have hSub := (hCovered.subset hAllOk).2
      have hRest := Exec.of_settled (fun a ha => hLooks a (hSub ha))
        fun a ha => hSettled a (hSub ha)
      obtain ⟨r, s'', hRun', hAnswer'⟩ := exists_exec setting call (hRun.stack_eq.trans hIdle)
      obtain ⟨rfl, rfl⟩ := hRun'.unique hRest
      exact hAnswer'
    have hSame : after setting s calls = s := by
      clear hAll hAnswer
      induction calls with
      | nil => rfl
      | cons call calls ih =>
        rw [after, List.foldl_cons, hAgain call (hCalls call (by simp))]
        exact ih fun other hOther => hCalls other (List.mem_cons_of_mem _ hOther)
    rw [hSame]
    refine ⟨rfl, (hAgain .all trivial).trans (by rw [← hAllOk]; rfl), fun call hCovered => ?_⟩
    obtain ⟨answer, hOk⟩ := (hCovered.subset hAllOk).1
    exact ⟨answer, (hAgain call hCovered).trans (by rw [hOk])⟩

/-- Nodes hold cells, each with a pointer to a node. -/
def cellRing : Setting :=
  ⟨.ofTypes [
    { TypeDesc.ofFields "App.Cell" 0 [] with params := ["T"] },
    { TypeDesc.ofFields "App.Cell" 8
        [{ name := "node", shape := .pointer (.named "App.Node" []), offset := 0 }] with
      args := [.named "App.Node" []] },
    .ofFields "App.Node" 8
      [{ name := "cell", shape := .named "App.Cell" [.named "App.Node" []], offset := 0 }]],
    .forNamespace "App" ["app"]⟩

theorem ensureAll_idempotent_cellRing : ∃ s₀ s : Session, s₀.stack = [] ∧
    ((Scope.top cellRing).ensureAll).on s₀ = (.ok 3, s) ∧
    (∀ call ∈ [named "App.Node", all, named "App.Cell"], call.Covered cellRing) ∧
    after cellRing s [named "App.Node", all, named "App.Cell"] = s ∧
    ((Scope.top cellRing).ensureAll).on s = (.ok 3, s) := by
  let s₀ := ((populate cellRing.config).on {}).2
  have hIdle : s₀.stack = [] := by decide +kernel
  have hCount : (((Scope.top cellRing).ensureAll).on s₀).1.toOption = some 3 := by decide +kernel
  have hAll := eq_of_toOption hCount
  have hCalls : ∀ call ∈ [named "App.Node", all, named "App.Cell"], call.Covered cellRing := by
    have hNamed : (cellRing.library.definition? "App.Node").isSome ∧
        (cellRing.library.definition? "App.Cell").isSome := by
      decide +kernel
    simp [Covered, hNamed]
  obtain ⟨hSame, hAgain, -⟩ := ensureAll_idempotent hIdle hAll hCalls
  rw [hSame] at hAgain
  exact ⟨s₀, _, hIdle, hAll, hCalls, hSame, hAgain⟩

end Call

end FixedLayout.Construction
