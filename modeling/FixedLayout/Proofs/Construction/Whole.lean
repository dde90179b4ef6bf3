import FixedLayout.Proofs.Construction.Outcome

/-! The construction of a whole library: the script for it, and what is in the session once that has
been performed without an error. -/

namespace FixedLayout.Construction

open Script

/-- The script for the primitives and every description of the library. -/
def Setting.script (setting : Setting) : Script Nat := do
  populateWith (fun p => (recorder setting).perform (.primitive p)) setting.config
  (recorder setting).ensureAll

/-- The part of it for the primitives. -/
def Setting.basis (setting : Setting) : Script Unit :=
  populateWith (fun p => (recorder setting).perform (.primitive p)) setting.config

variable {setting : Setting}

/-- The script ends without an error exactly if its parts do, and then it consists of these. -/
theorem script_ok_iff : (∃ n, setting.script.result = .ok n) ↔ setting.basis.result = .ok () ∧
    ∀ desc ∈ setting.library.types, ∃ t, ((recorder setting).ensureDesc desc).result = .ok t := by
  constructor
  · rintro ⟨n, hOk⟩
    obtain ⟨_, hBasis, hAll, -⟩ := bind_ok hOk
    obtain ⟨types, hMap, -, -⟩ := bind_ok hAll
    exact ⟨hBasis, exists_mapM_iff.mp ⟨types, hMap⟩⟩
  · rintro ⟨hBasis, hAll⟩
    obtain ⟨types, hMap⟩ := exists_mapM_iff.mpr hAll
    exact ⟨_, (bind_of_ok hBasis).1.trans (bind_of_ok hMap).1⟩

theorem script_actions {n : Nat} (hOk : setting.script.result = .ok n) :
    setting.script.actions = setting.basis.actions ++
      setting.library.types.flatMap fun desc => ((recorder setting).ensureDesc desc).actions := by
  obtain ⟨hBasis, hAll⟩ := script_ok_iff.mp ⟨n, hOk⟩
  obtain ⟨types, hMap⟩ := exists_mapM_iff.mpr hAll
  rw [← actions_mapM hAll]
  refine (bind_of_ok hBasis).2.trans (congrArg _ ?_)
  exact (bind_of_ok hMap).2.trans (List.append_nil _)

theorem runOn_populateWith (s : Scope) (config : Config) :
    runOn s (populateWith (fun p => (recorder s.setting).perform (.primitive p)) config) =
      populateWith (fun p => s.perform (.primitive p)) config := by
  unfold populateWith
  rw [runOn_bind, runOn_forM s fun p => runOn_perform s _]
  refine bind_congr fun _ => runOn_forM s (fun external => ?_) _
  simp

theorem runOn_basis (setting : Setting) :
    setting.basis.runOn (Scope.top setting) = populate setting.config := by
  have hSetting : (Scope.top setting).setting = setting := Scope.setting_withRoom ..
  have hPrimitive : (fun p => (Scope.top setting).perform (.primitive p)) = registerPrimitive := by
    unfold Scope.top
    cases setting.library.size <;> rfl
  have hPopulate := runOn_populateWith (Scope.top setting) setting.config
  rwa [hSetting, hPrimitive] at hPopulate

theorem buildAll_eq (setting : Setting) :
    buildAll setting = setting.script.runOn (Scope.top setting) := by
  have hEnsure := Host.runOn_ensureAll (Scope.top setting)
  rw [show (Scope.top setting).setting = setting from Scope.setting_withRoom ..] at hEnsure
  rw [show setting.script = (setting.basis >>= fun _ => (recorder setting).ensureAll) from rfl,
    runOn_bind, runOn_basis, hEnsure]
  rfl

namespace Host

theorem calls_ensureDesc {desc : TypeDesc} (hMem : desc ∈ setting.library.types) :
    Only setting.Calls ((recorder setting).ensureDesc desc) := by
  unfold ensureDesc
  cases hCandidate : isCandidate (recorder setting).config desc with
  | false => exact only_pure _
  | true =>
    cases hOpen : desc.isOpenGeneric with
    | true =>
      simp only [Bool.not_true, Bool.false_eq_true, if_false, if_true]
      cases hTarget : Target.ofName? (recorder setting).config desc.name with
      | none => exact only_throw _
      | some target =>
        exact (only_perform (.placeholder hMem hCandidate hOpen hTarget)).bind
          fun _ _ => only_pure _
    | false =>
      simp only [Bool.not_true, Bool.false_eq_true, if_false]
      refine (calls_refer _ _ _ (calls_resolveAll _ _) ?_).bind fun _ _ => only_pure _
      exact fun _ h => Setting.argTypes?_eq h

end Host

theorem only_basis {P : Action → Prop} (hPrimitive : ∀ p, P (.primitive p)) :
    Only P setting.basis := by
  refine (only_forM _ fun p _ => only_perform (hPrimitive p)).bind fun _ _ => ?_
  refine only_forM _ fun external _ => (only_ofExcept _).bind fun target _ => ?_
  exact only_perform (hPrimitive _)

theorem only_script {P : Action → Prop} (hPrimitive : ∀ p, P (.primitive p))
    (hCalls : ∀ a, setting.Calls a → P a) : Only P setting.script := by
  refine (only_basis hPrimitive).bind fun _ _ => Only.bind ?_ fun _ _ => only_pure _
  exact only_mapM _ fun desc hMem a ha => hCalls a (Host.calls_ensureDesc hMem a ha)

theorem known_script : ∀ a ∈ setting.script.actions, a.Known setting :=
  only_script (fun _ => trivial) fun _ h => h.known

/-- A construction is a run of the script from an empty session. -/
theorem exists_exec (setting : Setting) :
    ∃ r, Exec setting {} setting.script.actions r ((buildAll setting).on {}).2 ∧
      ((buildAll setting).on {}).1 = r.bind fun _ => setting.script.result := by
  have hRun : Exec setting {} setting.script.actions _ _ := exec_top {} known_script
  rw [buildAll_eq, on_runOn]
  exact ⟨_, hRun, rfl⟩

/-- What a session is like once the whole library has been built in it. -/
structure Session.Built (setting : Setting) (s : Session) : Prop where
  run : Exec setting {} setting.script.actions (.ok ()) s
  stack : s.stack = []
  keys : s.registry.keys.Nodup
  origin : ∀ key d, (key, d) ∈ s.registry.entries →
    key = d.key ∧ setting.Registers setting.script.actions d
  settled : ∀ a ∈ setting.script.actions, a.Settled setting.config s
  result : ∃ n, setting.script.result = .ok n

/-- Declarations of a finished construction with one key are one declaration. -/
theorem Session.Built.eq_of_key {s : Session} (h : s.Built setting) {key key' : String}
    {d d' : Declaration} (hMem : (key, d) ∈ s.registry.entries)
    (hMem' : (key', d') ∈ s.registry.entries) (hKey : d.key = d'.key) : d = d' := by
  obtain rfl : key = d.key := (h.origin key d hMem).1
  obtain rfl : key' = d'.key := (h.origin key' d' hMem').1
  have hGet := Registry.get?_of_mem h.keys hMem
  rw [hKey, Registry.get?_of_mem h.keys hMem'] at hGet
  exact (Option.some.inj hGet).symm

theorem built_of_run {n : Nat} {s : Session}
    (hRun : Exec setting {} setting.script.actions (.ok ()) s)
    (hResult : setting.script.result = .ok n) : s.Built setting := by
  have hGrows := hRun.grows
  refine ⟨hRun, hRun.stack_eq, hGrows.nodup List.nodup_nil, fun key d hMem => ?_,
    hRun.settled known_script, n, hResult⟩
  rcases hGrows.origin hMem with hOld | hNew
  · cases hOld
  · exact hNew

theorem built_of_buildAll {n : Nat} {s : Session}
    (h : (buildAll setting).on {} = (.ok n, s)) : s.Built setting := by
  obtain ⟨r, hRun, hResult⟩ := exists_exec setting
  rw [h] at hRun hResult
  cases r with
  | error e => cases hResult
  | ok u => exact built_of_run hRun hResult.symm

end FixedLayout.Construction
