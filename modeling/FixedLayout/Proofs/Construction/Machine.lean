import FixedLayout.Proofs.Construction.Whole
import Mathlib.Logic.Relation

/-! A construction one step after the other. No bound is set here on how deep builds may lie in each
other; that every run comes to an end nevertheless is a theorem. -/

namespace FixedLayout.Construction

open Script

/-- A script under way: the actions that are left, and what comes of it after them. -/
structure Frame where
  actions : List Action
  result : Except ExportError Unit

/-- A moment of a construction. `outer` are the scripts that wait for the innermost one, each for
the build of a type. -/
inductive Moment where
  /-- The innermost script is under way. -/
  | running (s : Session) (frame : Frame) (outer : List Frame)
  /-- The innermost script is over. -/
  | ended (r : Except ExportError Unit) (s : Session) (outer : List Frame)

namespace Moment

def session : Moment → Session
  | running s _ _ => s
  | ended _ s _ => s

/-- The scripts that are under way, but for one that is over. -/
def frames : Moment → List Frame
  | running _ frame outer => frame :: outer
  | ended _ _ outer => outer

/-- The next moment. A build begins with its type on the stack, and however it ends, the type is
taken off again. -/
def next? (setting : Setting) : Moment → Option Moment
  | running s ⟨[], result⟩ outer => some (ended result s outer)
  | running s ⟨.ensure desc type :: as, result⟩ outer =>
    if isCandidate setting.config desc && !s.isPending type.canonical then
      let script := setting.buildScript desc type
      some (running (s.enter type.canonical) ⟨script.actions, script.result⟩
        (⟨as, result⟩ :: outer))
    else some (running s ⟨as, result⟩ outer)
  | running s ⟨a :: as, result⟩ outer =>
    match (performOn setting.config (fun _ _ => pure ()) a).on s with
    | (.ok _, s') => some (running s' ⟨as, result⟩ outer)
    | (.error e, s') => some (ended (.error e) s' outer)
  | ended _ _ [] => none
  | ended (.ok _) s (frame :: outer) => some (running s.leave frame outer)
  | ended (.error e) s (_ :: outer) => some (ended (.error e) s.leave outer)

/-- A moment leads to another one by some steps. -/
def Leads (setting : Setting) : Moment → Moment → Prop :=
  Relation.ReflTransGen fun m m' => m.next? setting = some m'

/-- What can happen from one moment to the next. -/
inductive Step (setting : Setting) : Moment → Moment → Prop
  /-- No action of the script is left. -/
  | ends {s : Session} {result : Except ExportError Unit} {outer : List Frame} :
      Step setting (running s ⟨[], result⟩ outer) (ended result s outer)
  /-- The build of a type begins. -/
  | build {s : Session} {desc : TypeDesc} {type : TypeExpr} {as : List Action}
      {result : Except ExportError Unit} {outer : List Frame}
      (hCandidate : isCandidate setting.config desc = true)
      (hFree : s.isPending type.canonical = false) :
      Step setting (running s ⟨.ensure desc type :: as, result⟩ outer)
        (running (s.enter type.canonical)
          ⟨(setting.buildScript desc type).actions, (setting.buildScript desc type).result⟩
          (⟨as, result⟩ :: outer))
  /-- There is nothing to build. -/
  | skip {s : Session} {desc : TypeDesc} {type : TypeExpr} {as : List Action}
      {result : Except ExportError Unit} {outer : List Frame} :
      Step setting (running s ⟨.ensure desc type :: as, result⟩ outer)
        (running s ⟨as, result⟩ outer)
  /-- Another action is performed. -/
  | act {s s' : Session} {a : Action} {as : List Action} {result : Except ExportError Unit}
      {outer : List Frame} (hAct : Atomic setting.config s a (.ok ()) s') :
      Step setting (running s ⟨a :: as, result⟩ outer) (running s' ⟨as, result⟩ outer)
  /-- Another action fails. -/
  | fail {s s' : Session} {a : Action} {as : List Action} {result : Except ExportError Unit}
      {outer : List Frame} {e : ExportError} (hFail : Atomic setting.config s a (.error e) s') :
      Step setting (running s ⟨a :: as, result⟩ outer) (ended (.error e) s' outer)
  /-- The script that waited for a build goes on. -/
  | resume {s : Session} {frame : Frame} {outer : List Frame} :
      Step setting (ended (.ok ()) s (frame :: outer)) (running s.leave frame outer)
  /-- The script that waited for a build fails with it. -/
  | unwind {s : Session} {e : ExportError} {frame : Frame} {outer : List Frame} :
      Step setting (ended (.error e) s (frame :: outer)) (ended (.error e) s.leave outer)

theorem step_of_next? {setting : Setting} {m m' : Moment} (h : m.next? setting = some m') :
    m.Step setting m' := by
  unfold next? at h
  split at h
  case h_1 =>
    cases h
    exact .ends
  case h_2 =>
    split at h
    · rename_i hBuilds
      obtain ⟨hCandidate, hFree⟩ := Bool.and_eq_true_iff.mp hBuilds
      cases h
      exact .build hCandidate (by simpa using hFree)
    · cases h
      exact .skip
  case h_3 s a as result outer hPlain =>
    have hBuilds : a.builds = false := by
      cases a with
      | ensure desc type => exact (hPlain desc type rfl).elim
      | _ => rfl
    split at h
    · rename_i s' hRun
      cases h
      exact .act ⟨hBuilds, hRun⟩
    · rename_i e s' hRun
      cases h
      exact .fail ⟨hBuilds, hRun⟩
  case h_4 => cases h
  case h_5 =>
    cases h
    exact .resume
  case h_6 =>
    cases h
    exact .unwind

end Moment

variable {setting : Setting}

/-! ### Every moment -/

/-- The stack holds entries of the library, each once, and all builds to come are of entries. -/
structure Moment.Sound (setting : Setting) (m : Moment) : Prop where
  stacked : m.session.Stacked setting
  known : ∀ frame ∈ m.frames, ∀ a ∈ frame.actions, a.Known setting

theorem Session.Stacked.leave {s : Session} (h : s.Stacked setting) : s.leave.Stacked setting :=
  ⟨h.nodup.sublist (List.tail_sublist _), fun key hKey => h.keys key (List.mem_of_mem_tail hKey)⟩

theorem Session.Stacked.congr {s s' : Session} (h : s.Stacked setting)
    (hSame : s'.stack = s.stack) : s'.Stacked setting :=
  ⟨hSame ▸ h.nodup, hSame ▸ h.keys⟩

theorem Moment.Sound.next {m m' : Moment} (h : m.Sound setting)
    (hNext : m.next? setting = some m') : m'.Sound setting := by
  obtain ⟨hStacked, hKnown⟩ := h
  cases step_of_next? hNext with
  | ends => exact ⟨hStacked, (List.forall_mem_cons.mp hKnown).2⟩
  | build hCandidate hFree =>
    obtain ⟨hFrame, hOuter⟩ := List.forall_mem_cons.mp hKnown
    obtain ⟨hEnsure, hRest⟩ := List.forall_mem_cons.mp hFrame
    exact ⟨hStacked.enter hEnsure hFree, List.forall_mem_cons.mpr
      ⟨known_buildScript _ _, List.forall_mem_cons.mpr ⟨hRest, hOuter⟩⟩⟩
  | skip =>
    obtain ⟨hFrame, hOuter⟩ := List.forall_mem_cons.mp hKnown
    exact ⟨hStacked, List.forall_mem_cons.mpr ⟨(List.forall_mem_cons.mp hFrame).2, hOuter⟩⟩
  | act hAct =>
    obtain ⟨hFrame, hOuter⟩ := List.forall_mem_cons.mp hKnown
    exact ⟨hStacked.congr hAct.session_extends.stack,
      List.forall_mem_cons.mpr ⟨(List.forall_mem_cons.mp hFrame).2, hOuter⟩⟩
  | fail hFail =>
    exact ⟨hStacked.congr hFail.session_extends.stack, (List.forall_mem_cons.mp hKnown).2⟩
  | resume => exact ⟨hStacked.leave, hKnown⟩
  | unwind => exact ⟨hStacked.leave, (List.forall_mem_cons.mp hKnown).2⟩

theorem Moment.Sound.leads {m m' : Moment} (h : m.Sound setting) (hLeads : m.Leads setting m') :
    m'.Sound setting := by
  induction hLeads with
  | refl => exact h
  | tail _ hNext ih => exact ih.next hNext

/-! ### The last moment -/

theorem Atomic.next? {s s' : Session} {a : Action} {r : Except ExportError Unit}
    (h : Atomic setting.config s a r s') (as : List Action) (result : Except ExportError Unit)
    (outer : List Frame) : (Moment.running s ⟨a :: as, result⟩ outer).next? setting =
      match r with
      | .ok _ => some (.running s' ⟨as, result⟩ outer)
      | .error e => some (.ended (.error e) s' outer) := by
  have hRun := h.eq
  have hBuilds := h.plain
  cases a with
  | ensure desc type => cases hBuilds
  | _ => cases r <;> simp only [Moment.next?, hRun]

theorem next?_of_skip {s : Session} {desc : TypeDesc} {type : TypeExpr}
    (hSkip : isCandidate setting.config desc = true → s.isPending type.canonical = true)
    (as : List Action) (result : Except ExportError Unit) (outer : List Frame) :
    (Moment.running s ⟨.ensure desc type :: as, result⟩ outer).next? setting =
      some (.running s ⟨as, result⟩ outer) := by
  refine if_neg fun hBuilds => ?_
  obtain ⟨hCandidate, hFree⟩ := Bool.and_eq_true_iff.mp hBuilds
  simp [hSkip hCandidate] at hFree

theorem next?_of_free {s : Session} {desc : TypeDesc} {type : TypeExpr}
    (hCandidate : isCandidate setting.config desc = true)
    (hFree : s.isPending type.canonical = false)
    (as : List Action) (result : Except ExportError Unit) (outer : List Frame) :
    (Moment.running s ⟨.ensure desc type :: as, result⟩ outer).next? setting =
      some (.running (s.enter type.canonical)
        ⟨(setting.buildScript desc type).actions, (setting.buildScript desc type).result⟩
        (⟨as, result⟩ :: outer)) :=
  if_pos (by simp [hCandidate, hFree])

/-- Steps lead to the end of a script, whatever waits for it. -/
theorem Exec.leads {s s' : Session} {as : List Action} {r : Except ExportError Unit}
    (h : Exec setting s as r s') (result : Except ExportError Unit) (outer : List Frame) :
    (Moment.running s ⟨as, result⟩ outer).Leads setting
      (.ended (r.bind fun _ => result) s' outer) := by
  induction h generalizing result outer with
  | done => exact .single rfl
  | step hStep _ ih => exact .head (hStep.next? _ result outer) (ih result outer)
  | fail hStep => exact .single (hStep.next? _ result outer)
  | skip hSkip _ ih => exact .head (next?_of_skip hSkip _ result outer) (ih result outer)
  | @build s s' s'' desc type as r hCandidate hFree hOk _ _ ihInner ihRest =>
    have hNext := next?_of_free hCandidate hFree as result outer
    rw [hOk] at hNext
    exact .head hNext ((ihInner (.ok ()) (⟨as, result⟩ :: outer)).trans
      (.head rfl (ihRest result outer)))
  | @abort s s' desc type as r e hCandidate hFree _ hError ihInner =>
    have hInner := ihInner (setting.buildScript desc type).result (⟨as, result⟩ :: outer)
    rw [hError] at hInner
    exact .head (next?_of_free hCandidate hFree as result outer) (hInner.trans (.single rfl))

/-- From a moment that leads to the end, there is no way on without an end. -/
theorem Moment.Leads.acc {m : Moment} {r : Except ExportError Unit} {s : Session}
    (h : m.Leads setting (.ended r s [])) :
    Acc (fun m' m : Moment => m.next? setting = some m') m := by
  induction h using Relation.ReflTransGen.head_induction_on with
  | refl => exact ⟨_, fun m' hNext => by cases hNext⟩
  | head hNext _ ih =>
    refine ⟨_, fun m' hOther => ?_⟩
    cases hNext.symm.trans hOther
    exact ih

/-- The end leads nowhere. -/
theorem Moment.Leads.eq_of_ended {r : Except ExportError Unit} {s : Session} {m : Moment}
    (h : (Moment.ended r s []).Leads setting m) : m = .ended r s [] := by
  cases h.cases_head with
  | inl hSame => exact hSame.symm
  | inr hNext =>
    obtain ⟨_, hNext, -⟩ := hNext
    cases hNext

/-- Every moment on the way comes before the end. -/
theorem Moment.Leads.ended {m m' : Moment} {r : Except ExportError Unit} {s : Session}
    (h : m.Leads setting m') (hEnd : m.Leads setting (.ended r s [])) :
    m'.Leads setting (.ended r s []) := by
  have hUnique : Relator.RightUnique fun m m' : Moment => m.next? setting = some m' :=
    fun _ _ _ hNext hNext' => Option.some.inj (hNext.symm.trans hNext')
  rcases h.total_of_right_unique hUnique hEnd with hBefore | hAfter
  · exact hBefore
  · cases Moment.Leads.eq_of_ended hAfter
    exact .refl

/-- What a run answers and leaves is determined by its actions. -/
theorem Exec.unique {s s₁ s₂ : Session} {as : List Action} {r₁ r₂ : Except ExportError Unit}
    (h₁ : Exec setting s as r₁ s₁) (h₂ : Exec setting s as r₂ s₂) : r₁ = r₂ ∧ s₁ = s₂ := by
  have hLast : ∀ r : Except ExportError Unit, (r.bind fun _ => .ok ()) = r := by
    rintro (_ | _) <;> rfl
  have hLeads₁ := h₁.leads (.ok ()) []
  have hLeads₂ := h₂.leads (.ok ()) []
  rw [hLast] at hLeads₁ hLeads₂
  cases Moment.Leads.eq_of_ended (Moment.Leads.ended hLeads₁ hLeads₂)
  exact ⟨rfl, rfl⟩

/-! ### Calls -/

/-- What a construction can be asked for. -/
inductive Call where
  /-- Every description of the library. -/
  | all
  /-- The definition of a name. -/
  | named (name : String)
  /-- A description, of the library or not. -/
  | desc (d : TypeDesc)
  /-- The type for a shape, in a context for messages. -/
  | shape (context : String) (whole : Shape)

namespace Call

def Answer : Call → Type
  | .all => Nat
  | .named _ => Option TypeExpr
  | .desc _ => Option TypeExpr
  | .shape .. => Resolved

/-- What a host does when it is called. -/
def on {m : Type → Type} [Monad m] [MonadExcept ExportError m] (h : Host m) :
    (call : Call) → m call.Answer
  | .all => h.ensureAll
  | .named name => h.ensureNamed name
  | .desc d => h.ensureDesc d
  | .shape context whole => h.resolve context whole

/-- The first moment of a call. -/
def start (setting : Setting) (call : Call) (s : Session) : Moment :=
  .running s ⟨(call.on (recorder setting)).actions, .ok ()⟩ []

theorem runOn_on (scope : Scope) (call : Call) :
    (call.on (recorder scope.setting)).runOn scope = call.on scope := by
  cases call with
  | all => exact Host.runOn_ensureAll scope
  | named name => exact Host.runOn_ensureNamed scope name
  | desc d => exact Host.runOn_ensureDesc scope d
  | shape context whole => exact Host.runOn_resolve scope context whole

theorem known_ensureDesc (desc : TypeDesc) :
    Only (Action.Known setting) ((recorder setting).ensureDesc desc) := by
  unfold Host.ensureDesc
  split
  · exact only_pure _
  · split
    · split
      · exact (only_perform trivial).bind fun _ _ => only_pure _
      · exact only_throw _
    · have hCalls : Only setting.Calls ((recorder setting).refer desc.name desc.name desc.args
          ((recorder setting).resolveAll desc.name desc.args)) :=
        Host.calls_refer _ _ _ (Host.calls_resolveAll _ _) fun _ h => Setting.argTypes?_eq h
      exact Only.bind (fun a ha => (hCalls a ha).known) fun _ _ => only_pure _

theorem known (call : Call) : Only (Action.Known setting) (call.on (recorder setting)) := by
  cases call with
  | all => exact (only_mapM _ fun desc _ => known_ensureDesc desc).bind fun _ _ => only_pure _
  | named name =>
    show Only _ ((recorder setting).ensureNamed name)
    unfold Host.ensureNamed
    split
    · exact known_ensureDesc _
    · exact only_throw _
  | desc d => exact known_ensureDesc d
  | shape context whole => exact fun a ha => (Host.calls_resolveUnder _ _ _ _ a ha).known

/-- Whatever a construction is asked for, and whatever its session holds as long as nothing is being
built, it comes to an end. At every moment on the way the types on the stack are distinct, and no
more than the library has entries. -/
theorem terminates (setting : Setting) (call : Call) {s : Session} (hIdle : s.stack = []) :
    Acc (fun m' m : Moment => m.next? setting = some m') (call.start setting s) ∧
    (∃ r s', (call.start setting s).Leads setting (.ended r s' []) ∧ s'.stack = [] ∧
      (call.on (Scope.top setting)).on s =
        (r.bind fun _ => (call.on (recorder setting)).result, s')) ∧
    ∀ m, (call.start setting s).Leads setting m →
      m.session.stack.Nodup ∧ m.session.stack.length ≤ setting.library.size := by
  have hStacked : s.Stacked setting := ⟨hIdle ▸ List.nodup_nil, by simp [hIdle]⟩
  have hRun := exec_withRoom setting.library.size hStacked call.known (Nat.le_add_left ..)
  have hLast : ∀ r : Except ExportError Unit, (r.bind fun _ => .ok ()) = r := by
    rintro (_ | _) <;> rfl
  have hLeads := hRun.leads (.ok ()) []
  rw [hLast] at hLeads
  refine ⟨hLeads.acc, ⟨_, _, hLeads, hRun.stack_eq.trans hIdle, ?_⟩, fun m hm => ?_⟩
  · have hSetting : (Scope.top setting).setting = setting := by
      unfold Scope.top
      cases setting.library.size <;> rfl
    have hScript := runOn_on (Scope.top setting) call
    rw [hSetting] at hScript
    rw [← hScript, on_runOn]
    rfl
  · have hSound : (call.start setting s).Sound setting := by
      refine ⟨hStacked, fun frame hFrame a ha => ?_⟩
      rw [List.mem_singleton.mp hFrame] at ha
      exact call.known a ha
    have hStack := (hSound.leads hm).stacked
    exact ⟨hStack.nodup, hStack.length_le⟩

/-- A struct with a pointer to itself. -/
def selfPointer : Setting :=
  ⟨.ofTypes [.ofFields "App.Node" 16
      [{ name := "next", shape := .pointer (.named "App.Node" []), offset := 0 }]],
    .forNamespace "App" ["app"]⟩

theorem terminates_selfPointer : ({} : Session).stack = [] ∧
    Acc (fun m' m : Moment => m.next? selfPointer = some m')
      (Call.start selfPointer (.named "App.Node") {}) ∧
    (((Scope.top selfPointer).ensureNamed "App.Node").on {}).1.toOption =
      some (some (.inModule ["app"] "Node")) ∧
    ∀ m, (Call.start selfPointer (.named "App.Node") {}).Leads selfPointer m →
      m.session.stack.Nodup ∧ m.session.stack.length ≤ 1 := by
  have hAnswer : (((Scope.top selfPointer).ensureNamed "App.Node").on {}).1.toOption =
      some (some (.inModule ["app"] "Node")) := by
    decide +kernel
  obtain ⟨hAcc, -, hStack⟩ := terminates selfPointer (.named "App.Node") (s := {}) rfl
  exact ⟨rfl, hAcc, hAnswer, hStack⟩

end Call

end FixedLayout.Construction
