import FixedLayout.Proofs.Construction.Declares
import FixedLayout.Proofs.Construction.Effects
import Mathlib.Data.List.Perm.Subperm

/-! Runs without a bound on the stack. The types on the stack are entries of the library, each there
once, so the room that a run starts with is enough: a construction does what `Exec` says. -/

namespace FixedLayout.Construction

/-- The session while a type is being built. -/
def Session.enter (s : Session) (key : String) : Session := { s with stack := key :: s.stack }

/-- The session once that is over. -/
def Session.leave (s : Session) : Session := { s with stack := s.stack.tail }

theorem on_building {α : Type} (key : String) (step : Build α) (s : Session) :
    (building key step).on s = ((step.on (s.enter key)).1, (step.on (s.enter key)).2.leave) := rfl

theorem Script.on_runOn {α : Type} (x : Script α) (scope : Scope) (s : Session) :
    (x.runOn scope).on s =
      (((x.actions.forM scope.perform).on s).1.bind fun _ => x.result,
        ((x.actions.forM scope.perform).on s).2) := by
  unfold Script.runOn
  rw [Build.on_bind]
  rcases (x.actions.forM scope.perform).on s with ⟨e | u, s'⟩
  · rfl
  · exact Build.on_ofExcept x.result s'

@[simp] theorem Scope.setting_withRoom (setting : Setting) (room : Nat) :
    (Scope.withRoom setting room).setting = setting := by
  cases room <;> rfl

/-- The script for building a described type. -/
def Setting.buildScript (setting : Setting) (desc : TypeDesc) (type : TypeExpr) : Script Unit :=
  (Script.recorder setting).buildType desc type

/-- Performing some actions on a session answers a result and another session. -/
inductive Exec (setting : Setting) :
    Session → List Action → Except ExportError Unit → Session → Prop
  | done {s : Session} : Exec setting s [] (.ok ()) s
  | step {s s' s'' : Session} {a : Action} {as : List Action} {r : Except ExportError Unit}
      (hStep : Atomic setting.config s a (.ok ()) s')
      (hRest : Exec setting s' as r s'') : Exec setting s (a :: as) r s''
  | fail {s s' : Session} {a : Action} {as : List Action} {e : ExportError}
      (hStep : Atomic setting.config s a (.error e) s') :
      Exec setting s (a :: as) (.error e) s'
  | skip {s s' : Session} {desc : TypeDesc} {type : TypeExpr} {as : List Action}
      {r : Except ExportError Unit}
      (hSkip : isCandidate setting.config desc = true → s.isPending type.canonical = true)
      (hRest : Exec setting s as r s') : Exec setting s (.ensure desc type :: as) r s'
  | build {s s' s'' : Session} {desc : TypeDesc} {type : TypeExpr} {as : List Action}
      {r : Except ExportError Unit} (hCandidate : isCandidate setting.config desc = true)
      (hFree : s.isPending type.canonical = false)
      (hOk : (setting.buildScript desc type).result = .ok ())
      (hInner : Exec setting (s.enter type.canonical) (setting.buildScript desc type).actions
        (.ok ()) s')
      (hRest : Exec setting s'.leave as r s'') : Exec setting s (.ensure desc type :: as) r s''
  | abort {s s' : Session} {desc : TypeDesc} {type : TypeExpr} {as : List Action}
      {r : Except ExportError Unit} {e : ExportError}
      (hCandidate : isCandidate setting.config desc = true)
      (hFree : s.isPending type.canonical = false)
      (hInner : Exec setting (s.enter type.canonical) (setting.buildScript desc type).actions r s')
      (hError : (r.bind fun _ => (setting.buildScript desc type).result) = .error e) :
      Exec setting s (.ensure desc type :: as) (.error e) s'.leave

variable {setting : Setting}

/-- A run takes from the stack what it has put there. -/
theorem Exec.stack_eq {s s' : Session} {as : List Action} {r : Except ExportError Unit}
    (h : Exec setting s as r s') : s'.stack = s.stack := by
  induction h with
  | done => rfl
  | step hStep _ ih => rw [ih, hStep.session_extends.stack]
  | fail hStep => exact hStep.session_extends.stack
  | skip _ _ ih => exact ih
  | build _ _ _ _ _ ihInner ihRest =>
    rw [ihRest, Session.leave, ihInner]
    rfl
  | abort _ _ _ _ ihInner =>
    rw [Session.leave, ihInner]
    rfl

/-- The types on the stack are entries of the library, each there once. -/
structure Session.Stacked (setting : Setting) (s : Session) : Prop where
  nodup : s.stack.Nodup
  keys : ∀ key ∈ s.stack, ∃ desc ∈ setting.library.types, ∃ type,
    setting.typeOf? desc = some type ∧ type.canonical = key

theorem Session.Stacked.length_le {s : Session} (h : s.Stacked setting) :
    s.stack.length ≤ setting.library.size := by
  let known := setting.library.types.filterMap fun desc =>
    (setting.typeOf? desc).map TypeExpr.canonical
  have hSub : s.stack ⊆ known := by
    intro key hKey
    obtain ⟨desc, hMem, type, hType, hEq⟩ := h.keys key hKey
    exact List.mem_filterMap.mpr ⟨desc, hMem, by simp [hType, hEq]⟩
  calc s.stack.length ≤ known.length := (h.nodup.subperm hSub).length_le
    _ ≤ setting.library.size := List.length_filterMap_le ..

/-- What an action builds is an entry of the library, with its type. -/
def Action.Known (setting : Setting) : Action → Prop
  | .ensure desc type => desc ∈ setting.library.types ∧ setting.typeOf? desc = some type
  | _ => True

theorem Setting.Calls.known {a : Action} (h : setting.Calls a) : a.Known setting := by
  cases h with
  | ensure hMem hType => exact ⟨hMem, hType⟩
  | foreign | claim | placeholder => trivial

theorem known_buildScript (desc : TypeDesc) (type : TypeExpr) :
    ∀ a ∈ (setting.buildScript desc type).actions, a.Known setting := by
  intro a ha
  rcases Host.does_buildType desc type a ha with hCalls | ⟨_, rfl⟩ | ⟨_, rfl, -⟩
  · exact hCalls.known
  · trivial
  · trivial

theorem Session.Stacked.enter {s : Session} (h : s.Stacked setting) {desc : TypeDesc}
    {type : TypeExpr} (hKnown : (Action.ensure desc type).Known setting)
    (hFree : s.isPending type.canonical = false) :
    (s.enter type.canonical).Stacked setting := by
  have hOut : type.canonical ∉ s.stack := by
    intro hMem
    simp [Session.isPending, hMem] at hFree
  refine ⟨List.nodup_cons.mpr ⟨hOut, h.nodup⟩, fun key hKey => ?_⟩
  rcases List.mem_cons.mp hKey with rfl | hKey
  · exact ⟨desc, hKnown.1, type, hKnown.2, rfl⟩
  · exact h.keys key hKey

/-- The stack ends in `base`, whatever that is, and the types above are entries of the library. -/
def Session.StackedOver (setting : Setting) (base : List String) (s : Session) : Prop :=
  ∃ above, s.stack = above ++ base ∧ Session.Stacked setting { s with stack := above }

namespace Session.StackedOver

variable {base : List String} {s s' : Session}

theorem length_le (h : s.StackedOver setting base) :
    s.stack.length ≤ setting.library.size + base.length := by
  obtain ⟨above, hSplit, hStack⟩ := h
  have hLe : above.length ≤ setting.library.size := hStack.length_le
  rw [hSplit, List.length_append]
  omega

theorem congr (h : s.StackedOver setting base) (hSame : s'.stack = s.stack) :
    s'.StackedOver setting base := by
  obtain ⟨above, hSplit, hStack⟩ := h
  exact ⟨above, hSame.trans hSplit, hStack.nodup, hStack.keys⟩

theorem enter (h : s.StackedOver setting base) {desc : TypeDesc} {type : TypeExpr}
    (hKnown : (Action.ensure desc type).Known setting)
    (hFree : s.isPending type.canonical = false) :
    (s.enter type.canonical).StackedOver setting base := by
  obtain ⟨above, hSplit, hStack⟩ := h
  have hAbove : Session.isPending { s with stack := above } type.canonical = false := by
    simp only [isPending, hSplit, List.contains_append, Bool.or_eq_false_iff] at hFree ⊢
    exact ⟨hFree.1, hFree.2.1⟩
  have hEnter := hStack.enter hKnown hAbove
  exact ⟨type.canonical :: above, congrArg _ hSplit, hEnter.nodup, hEnter.keys⟩

end Session.StackedOver

theorem Atomic.ofRoom (setting : Setting) (room : Nat) (s : Session) {a : Action}
    (hPlain : a.builds = false) :
    Atomic setting.config s a (((Scope.withRoom setting room).perform a).on s).1
      (((Scope.withRoom setting room).perform a).on s).2 := by
  refine ⟨hPlain, ?_⟩
  cases room <;> cases a <;> first | rfl | cases hPlain

theorem Exec.cons {s s' s'' : Session} {a : Action} {as : List Action}
    {r : Except ExportError Unit} (h : Exec setting s [a] (.ok ()) s')
    (hRest : Exec setting s' as r s'') : Exec setting s (a :: as) r s'' := by
  cases h with
  | step hStep hDone =>
    cases hDone
    exact .step hStep hRest
  | skip hSkip hDone =>
    cases hDone
    exact .skip hSkip hRest
  | build hCandidate hFree hOk hInner hDone =>
    cases hDone
    exact .build hCandidate hFree hOk hInner hRest

theorem Exec.halt {s s' : Session} {a : Action} {e : ExportError}
    (h : Exec setting s [a] (.error e) s') (as : List Action) :
    Exec setting s (a :: as) (.error e) s' := by
  cases h with
  | step _ hDone => cases hDone
  | fail hStep => exact .fail hStep
  | skip _ hDone => cases hDone
  | build _ _ _ _ hDone => cases hDone
  | abort hCandidate hFree hInner hError => exact .abort hCandidate hFree hInner hError

/-- A run of actions in a row is a run of the first ones and then one of the others. -/
theorem Exec.exists_of_append {s s' : Session} {as bs : List Action}
    (h : Exec setting s (as ++ bs) (.ok ()) s') :
    ∃ mid, Exec setting s as (.ok ()) mid ∧ Exec setting mid bs (.ok ()) s' := by
  induction as generalizing s with
  | nil => exact ⟨s, .done, h⟩
  | cons a as ih =>
    cases h with
    | step hStep hRest =>
      obtain ⟨mid, hFirst, hThen⟩ := ih hRest
      exact ⟨mid, .step hStep hFirst, hThen⟩
    | skip hSkip hRest =>
      obtain ⟨mid, hFirst, hThen⟩ := ih hRest
      exact ⟨mid, .skip hSkip hFirst, hThen⟩
    | build hCandidate hFree hOk hInner hRest =>
      obtain ⟨mid, hFirst, hThen⟩ := ih hRest
      exact ⟨mid, .build hCandidate hFree hOk hInner hFirst, hThen⟩

section Ensure

variable (room : Nat) {s : Session} {desc : TypeDesc} {type : TypeExpr}

theorem performOn_ensure (config : Config) (build : TypeDesc → TypeExpr → Build Unit)
    (desc : TypeDesc) (type : TypeExpr) (s : Session) :
    (performOn config build (.ensure desc type)).on s =
      if isCandidate config desc && !s.isPending type.canonical then (build desc type).on s
      else (.ok (), s) := by
  unfold performOn
  rw [Build.on_bind, Build.on_get]
  dsimp only
  split <;> rfl

theorem ensure_on_of_skip
    (hSkip : isCandidate setting.config desc = true → s.isPending type.canonical = true) :
    ((Scope.withRoom setting room).perform (.ensure desc type)).on s = (.ok (), s) := by
  have hOff : ¬(isCandidate setting.config desc && !s.isPending type.canonical) = true := by
    intro hOn
    obtain ⟨hCandidate, hFree⟩ := Bool.and_eq_true_iff.mp hOn
    simp [hSkip hCandidate] at hFree
  cases room with
  | zero => exact (performOn_ensure _ (fun _ _ => return ()) ..).trans (if_neg hOff)
  | succ room =>
    exact (performOn_ensure _ (fun desc type =>
      building type.canonical ((Scope.withRoom setting room).buildType desc type)) ..).trans
        (if_neg hOff)

theorem ensure_on_of_free (hCandidate : isCandidate setting.config desc = true)
    (hFree : s.isPending type.canonical = false) :
    ((Scope.withRoom setting (room + 1)).perform (.ensure desc type)).on s =
      let ran := ((setting.buildScript desc type).actions.forM
        (Scope.withRoom setting room).perform).on (s.enter type.canonical)
      (ran.1.bind fun _ => (setting.buildScript desc type).result, ran.2.leave) := by
  have hScript : (Scope.withRoom setting room).buildType desc type =
      (setting.buildScript desc type).runOn (Scope.withRoom setting room) := by
    rw [← Host.runOn_buildType, Scope.setting_withRoom]
    rfl
  refine (performOn_ensure _ (fun desc type =>
    building type.canonical ((Scope.withRoom setting room).buildType desc type)) ..).trans ?_
  rw [if_pos (by simp [hCandidate, hFree]), hScript, on_building, Script.on_runOn]

end Ensure

/-- If builds have room, then so have lists of actions. -/
theorem exec_of_ensure {base : List String} (room : Nat)
    (hEnsure : ∀ {s : Session}, s.StackedOver setting base →
      setting.library.size + base.length ≤ s.stack.length + room → ∀ {desc type},
      (Action.ensure desc type).Known setting → Exec setting s [.ensure desc type]
        (((Scope.withRoom setting room).perform (.ensure desc type)).on s).1
        (((Scope.withRoom setting room).perform (.ensure desc type)).on s).2)
    {s : Session} (hStack : s.StackedOver setting base) {as : List Action}
    (hKnown : ∀ a ∈ as, a.Known setting)
    (hRoom : setting.library.size + base.length ≤ s.stack.length + room) :
    Exec setting s as ((as.forM (Scope.withRoom setting room).perform).on s).1
      ((as.forM (Scope.withRoom setting room).perform).on s).2 := by
  induction as generalizing s with
  | nil => exact .done
  | cons a as ih =>
    have hHead : Exec setting s [a] (((Scope.withRoom setting room).perform a).on s).1
        (((Scope.withRoom setting room).perform a).on s).2 := by
      cases hBuilds : a.builds with
      | true =>
        cases a with
        | ensure desc type => exact hEnsure hStack hRoom (hKnown _ (by simp))
        | _ => cases hBuilds
      | false =>
        have hAtomic := Atomic.ofRoom setting room s hBuilds
        generalize ((Scope.withRoom setting room).perform a).on s = answer at hAtomic ⊢
        obtain ⟨e | u, s'⟩ := answer
        · exact .fail hAtomic
        · exact .step hAtomic .done
    have hForM : ((a :: as).forM (Scope.withRoom setting room).perform).on s =
        (((Scope.withRoom setting room).perform a >>= fun _ =>
          as.forM (Scope.withRoom setting room).perform).on s) := rfl
    rw [hForM, Build.on_bind]
    generalize ((Scope.withRoom setting room).perform a).on s = answer at hHead ⊢
    obtain ⟨e | u, s'⟩ := answer
    · exact hHead.halt as
    · have hSame := hHead.stack_eq
      exact hHead.cons (ih (hStack.congr hSame) (fun a ha => hKnown a (by simp [ha]))
        (by rwa [hSame]))

/-- To perform some actions in a scope that has room for the rest of the library is a run. What the
stack has held all along takes up no room. -/
theorem exec_over {base : List String} (room : Nat) {s : Session}
    (hStack : s.StackedOver setting base) {as : List Action} (hKnown : ∀ a ∈ as, a.Known setting)
    (hRoom : setting.library.size + base.length ≤ s.stack.length + room) :
    Exec setting s as ((as.forM (Scope.withRoom setting room).perform).on s).1
      ((as.forM (Scope.withRoom setting room).perform).on s).2 := by
  induction room generalizing s as with
  | zero =>
    refine exec_of_ensure 0 (fun {s} hStack hRoom {desc type} hKnown => ?_) hStack hKnown hRoom
    -- One more type on the stack would be one more than there are in the library.
    have hSkip : s.isPending type.canonical = true := by
      by_contra hFree
      have hLength := (hStack.enter hKnown (by simpa using hFree)).length_le
      rw [Session.enter, List.length_cons] at hLength
      omega
    rw [ensure_on_of_skip 0 fun _ => hSkip]
    exact .skip (fun _ => hSkip) .done
  | succ room ihRoom =>
    refine exec_of_ensure (room + 1) (fun {s} hStack hRoom {desc type} hKnown => ?_)
      hStack hKnown hRoom
    by_cases hSkip : isCandidate setting.config desc = true → s.isPending type.canonical = true
    · rw [ensure_on_of_skip _ hSkip]
      exact .skip hSkip .done
    · obtain ⟨hCandidate, hFree⟩ := Classical.not_imp.mp hSkip
      have hFree : s.isPending type.canonical = false := by simpa using hFree
      have hInner := ihRoom (hStack.enter hKnown hFree) (known_buildScript desc type) (by
        rw [Session.enter, List.length_cons]
        omega)
      rw [ensure_on_of_free room hCandidate hFree]
      generalize ((setting.buildScript desc type).actions.forM
        (Scope.withRoom setting room).perform).on (s.enter type.canonical) = ran at hInner ⊢
      obtain ⟨r, s'⟩ := ran
      dsimp only
      cases hResult : r.bind fun _ => (setting.buildScript desc type).result with
      | error e => exact .abort hCandidate hFree hInner hResult
      | ok u =>
        cases r with
        | error e => cases hResult
        | ok u' => exact .build hCandidate hFree hResult hInner .done

theorem exec_withRoom (room : Nat) {s : Session} (hStack : s.Stacked setting) {as : List Action}
    (hKnown : ∀ a ∈ as, a.Known setting) (hRoom : setting.library.size ≤ s.stack.length + room) :
    Exec setting s as ((as.forM (Scope.withRoom setting room).perform).on s).1
      ((as.forM (Scope.withRoom setting room).perform).on s).2 :=
  exec_over room ⟨s.stack, (List.append_nil _).symm, hStack⟩ hKnown hRoom

/-- The outermost scope has room from any session on. -/
theorem exec_top (s : Session) {as : List Action} (hKnown : ∀ a ∈ as, a.Known setting) :
    Exec setting s as ((as.forM (Scope.top setting).perform).on s).1
      ((as.forM (Scope.top setting).perform).on s).2 :=
  exec_over setting.library.size ⟨[], rfl, List.nodup_nil, nofun⟩ hKnown (Nat.add_comm ..).le

end FixedLayout.Construction
