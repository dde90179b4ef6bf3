import FixedLayout.Proofs.Construction.History

/-! References to closed instantiations. The name of such a type has its arguments mangled into it,
and different arguments may be mangled alike. What a name stands for is settled by the first
reference that claims it. -/

namespace FixedLayout.Construction

open Script

variable {setting : Setting} {s s' mid mid' : Session}

theorem Scope.keeps_forM {scope : Scope} (h : ∀ a s, Session.Keeps s ((scope.perform a).on s).2)
    (as : List Action) (s : Session) : s.Keeps ((as.forM scope.perform).on s).2 := by
  induction as generalizing s with
  | nil => exact .refl s
  | cons a as ih =>
    have hForM : ((a :: as).forM scope.perform).on s =
        (scope.perform a >>= fun _ => as.forM scope.perform).on s := rfl
    have hHead := h a s
    rw [hForM, Build.on_bind]
    generalize (scope.perform a).on s = answer at hHead ⊢
    obtain ⟨e | u, next⟩ := answer
    · exact hHead
    · exact hHead.trans (ih next)

/-- Whatever room a scope has, and whether an action fails there or not, what is claimed is kept. -/
theorem Scope.keeps_perform (setting : Setting) (room : Nat) (a : Action) (s : Session) :
    s.Keeps (((Scope.withRoom setting room).perform a).on s).2 := by
  induction room generalizing a s with
  | zero =>
    cases a with
    | ensure desc type =>
      have hRun := performOn_ensure setting.config (fun _ _ => return ()) desc type s
      have hSame : ((Scope.withRoom setting 0).perform (.ensure desc type)).on s = (.ok (), s) := by
        refine hRun.trans ?_
        split <;> rfl
      rw [hSame]
      exact .refl s
    | _ => exact (Atomic.ofRoom setting 0 s rfl).session_extends.keeps
  | succ room ih =>
    cases a with
    | ensure desc type =>
      by_cases hSkip : isCandidate setting.config desc = true → s.isPending type.canonical = true
      · rw [ensure_on_of_skip _ hSkip]
        exact .refl s
      · obtain ⟨hCandidate, hFree⟩ := Classical.not_imp.mp hSkip
        rw [ensure_on_of_free room hCandidate (by simpa using hFree)]
        exact (Scope.keeps_forM ih _ (s.enter type.canonical)).leave
    | _ => exact (Atomic.ofRoom setting (room + 1) s rfl).session_extends.keeps

/-- A reference to a name with arguments, where `room` more types fit on the stack. -/
structure Reference where
  context : String
  name : String
  args : List Shape
  room : Nat

namespace Reference

def argTypes (setting : Setting) (ref : Reference) : Build (List TypeExpr) :=
  (Scope.withRoom setting ref.room).resolveAll ref.context ref.args

def resolve (setting : Setting) (ref : Reference) : Build TypeExpr :=
  (Scope.withRoom setting ref.room).refer ref.context ref.name ref.args (ref.argTypes setting)

/-- The library describes the closed instantiation that the reference is to, which is declared in
the generated crate. On `s` the arguments have the types `types`, and resolving them leaves `mid`.
`type` has the mangled name. -/
structure Instantiates (setting : Setting) (ref : Reference) (s : Session)
    (types : List TypeExpr) (mid : Session) (type : TypeExpr) : Prop where
  external : setting.config.external? ref.name = none
  target : ∃ target, Target.ofName? setting.config ref.name = some target ∧
    target.exported = true ∧ type = (target.instantiate types).type
  args : ref.args ≠ []
  described : ∃ desc, setting.library.instantiation? ref.name ref.args = some desc
  types : (ref.argTypes setting).on s = (.ok types, mid)

/-- The reference has its claim: it has just made it, or it has been answered. -/
inductive Claimed (setting : Setting) (ref : Reference) (s : Session) (types : List TypeExpr)
    (mid : Session) (type : TypeExpr) : Session → Prop
  | claim {s' : Session} (h : (claimInstance type ref.name types).on mid = (.ok (), s')) :
      Claimed setting ref s types mid type s'
  | answer {s' : Session} {answer : TypeExpr} (h : (ref.resolve setting).on s = (.ok answer, s')) :
      Claimed setting ref s types mid type s'

variable {ref ref' : Reference} {types types' : List TypeExpr} {type type' : TypeExpr}

/-- Once it has the types of its arguments, a reference claims a name for them. -/
theorem Instantiates.resolve_on (h : ref.Instantiates setting s types mid type) :
    ∃ desc, (ref.resolve setting).on s = (do
      claimInstance type ref.name types
      (Scope.withRoom setting ref.room).perform (.ensure desc type)
      return type : Build TypeExpr).on mid := by
  obtain ⟨target, hTarget, hExported, rfl⟩ := h.target
  obtain ⟨desc, hDesc⟩ := h.described
  have hClaim : ∀ type, (Scope.withRoom setting ref.room).perform (.claim type ref.name types) =
      claimInstance type ref.name types := by
    intro type
    cases ref.room <;> rfl
  have hSetting : (Scope.withRoom setting ref.room).setting = setting :=
    Scope.setting_withRoom ..
  refine ⟨desc, ?_⟩
  unfold resolve Host.refer Host.referExported
  simp only [Host.config, Host.library, hSetting, h.external, hTarget, hExported, if_true,
    List.isEmpty_iff, h.args, if_false]
  rw [Build.on_bind, h.types]
  simp only [hDesc, hClaim]

theorem Instantiates.claims (h : ref.Instantiates setting s types mid type) {answer : TypeExpr}
    (hAnswer : (ref.resolve setting).on s = (.ok answer, s')) :
    answer = type ∧ s'.instances.lookup type.canonical = some (ref.name, types) := by
  obtain ⟨desc, hRun⟩ := h.resolve_on
  rw [hAnswer, Build.on_bind] at hRun
  have hEnsure : ∀ claimed : Session,
      claimed.instances.lookup type.canonical = some (ref.name, types) →
      (.ok answer, s') = (do
        (Scope.withRoom setting ref.room).perform (.ensure desc type)
        return type : Build TypeExpr).on claimed →
      answer = type ∧ s'.instances.lookup type.canonical = some (ref.name, types) := by
    intro claimed hClaimed hRest
    have hKeeps := Scope.keeps_perform setting ref.room (.ensure desc type) claimed
    rw [Build.on_bind] at hRest
    generalize ((Scope.withRoom setting ref.room).perform (.ensure desc type)).on claimed = after
      at hKeeps hRest
    obtain ⟨e | u, s''⟩ := after
    · cases hRest
    · cases hRest
      exact ⟨rfl, hKeeps.claims _ _ hClaimed⟩
  rcases claimInstance_on mid type ref.name types with ⟨e, hClaim⟩ | ⟨hSame, hClaim⟩ | ⟨-, hClaim⟩
  · rw [hClaim] at hRun
    cases hRun
  · rw [hClaim] at hRun
    exact hEnsure mid hSame hRun
  · rw [hClaim] at hRun
    exact hEnsure _ (by simp) hRun

theorem Instantiates.lookup (h : ref.Instantiates setting s types mid type)
    (hClaimed : ref.Claimed setting s types mid type s') :
    s'.instances.lookup type.canonical = some (ref.name, types) := by
  cases hClaimed with
  | answer hAnswer => exact (h.claims hAnswer).2
  | claim hClaim =>
    have hSettled := (performOn_spec setting.config (fun _ _ => pure ())
      (a := .claim type ref.name types) rfl mid).2
    have hPerform : (performOn setting.config (fun _ _ => pure ())
        (.claim type ref.name types)).on mid = (.ok (), s') := hClaim
    rw [hPerform] at hSettled
    exact hSettled rfl

/-- A name that is claimed for something else is not given again. -/
theorem Instantiates.resolve_on_of_clash (h : ref.Instantiates setting s types mid type)
    {claimed : String × List TypeExpr}
    (hClaimed : mid.instances.lookup type.canonical = some claimed)
    (hOther : claimed ≠ (ref.name, types)) :
    (ref.resolve setting).on s =
      (.error (.duplicateRegistration ("::".intercalate type.modulePath) type.name), mid) := by
  obtain ⟨desc, hRun⟩ := h.resolve_on
  have hClaim : (claimInstance type ref.name types).on mid =
      (.error (.duplicateRegistration ("::".intercalate type.modulePath) type.name), mid) := by
    unfold claimInstance
    rw [Build.on_bind, Build.on_get]
    simp only [hClaimed, hOther, if_false, Build.on_throw]
  rw [hRun, Build.on_bind, hClaim]

/-- Different arguments may be mangled alike. But of two references in one history, to different
instantiations, never both answer types with one canonical name: where a name is claimed for one
instantiation, a reference to the other one that comes to the same name fails with a duplicate. -/
theorem unambiguous (h : ref.Instantiates setting s types mid type)
    (h' : ref'.Instantiates setting s' types' mid' type')
    (hDiffer : (ref.name, types) ≠ (ref'.name, types')) :
    ¬Function.Injective TypeExpr.mangled ∧
    (∀ {answer answer' : TypeExpr} {after after' : Session},
      (ref.resolve setting).on s = (.ok answer, after) →
      (ref'.resolve setting).on s' = (.ok answer', after') → after.Precedes setting after' →
      answer.canonical ≠ answer'.canonical) ∧
    ∀ {after : Session}, ref.Claimed setting s types mid type after →
      after.Precedes setting mid' → type.canonical = type'.canonical →
      (ref'.resolve setting).on s' =
        (.error (.duplicateRegistration ("::".intercalate type'.modulePath) type'.name), mid') := by
  refine ⟨?_, ?_, ?_⟩
  · intro hInjective
    have hSame : TypeExpr.mangled (.inModule ["a"] "Foo") =
        TypeExpr.mangled (.inModule [] "a_Foo") := by
      decide
    exact absurd (hInjective hSame) (by decide)
  · intro answer answer' after after' hAnswer hAnswer' hPrecedes hSame
    obtain ⟨rfl, hClaimed⟩ := h.claims hAnswer
    obtain ⟨rfl, hClaimed'⟩ := h'.claims hAnswer'
    have hKept := hPrecedes.claims hClaimed
    rw [hSame, hClaimed'] at hKept
    exact hDiffer (Option.some.inj hKept).symm
  · intro after hClaimed hPrecedes hSame
    have hKept := hPrecedes.claims (h.lookup hClaimed)
    rw [hSame] at hKept
    exact h'.resolve_on_of_clash hKept hDiffer

/-- The reference by which an entry of the library is ensured. -/
def ofEntry (setting : Setting) (desc : TypeDesc) : Reference :=
  ⟨desc.name, desc.name, desc.args, setting.library.size⟩

theorem on_bind_pure {α β : Type} (x : Build α) (f : α → β) (s : Session) :
    ((x >>= fun a => pure (f a)).on s).2 = (x.on s).2 := by
  rw [Build.on_bind]
  rcases x.on s with ⟨e | a, s'⟩ <;> rfl

theorem after_desc {desc : TypeDesc} (hCandidate : isCandidate setting.config desc = true)
    (hClosed : desc.isOpenGeneric = false) (s : Session) :
    Call.after setting s [.desc desc] = (((ofEntry setting desc).resolve setting).on s).2 := by
  have hSetting : (Scope.top setting).setting = setting := Scope.setting_withRoom ..
  have hEnsure : (Scope.top setting).ensureDesc desc =
      (ofEntry setting desc).resolve setting >>= fun type => pure (some type) := by
    unfold Host.ensureDesc
    simp only [Host.config, hSetting, hCandidate, hClosed, Bool.not_true, Bool.false_eq_true,
      if_false]
    rfl
  exact (congrArg (fun x => (Build.on x s).2) hEnsure).trans (on_bind_pure _ some s)

theorem after_shape {desc : TypeDesc} {arg : Shape} (hArg : desc.args = [arg]) (s : Session) :
    Call.after setting s [.shape desc.name arg] =
      (((ofEntry setting desc).argTypes setting).on s).2 := by
  have hArgs : (ofEntry setting desc).argTypes setting =
      (Scope.top setting).resolve desc.name arg >>= fun resolved => pure [resolved.type] := by
    unfold argTypes ofEntry
    rw [hArg]
    rfl
  rw [hArgs, on_bind_pure]
  rfl

/-- A box for some content. -/
def box (content : Shape) (size : Nat) : TypeDesc :=
  { TypeDesc.ofFields "App.Box" size
      [{ name := "content", shape := content, offset := 0 }] with args := [content] }

def fooBox : TypeDesc := box (.named "App.A.Foo" []) 4

def otherBox : TypeDesc := box (.named "App.a_Foo" []) 8

def numberBox : TypeDesc := box (.scalar .int32) 4

/-- Boxes of three kinds, where the names of two are mangled alike. -/
def boxes : Setting :=
  ⟨.ofTypes [
    .ofFields "App.A.Foo" 4 [{ name := "x", shape := .scalar .int32, offset := 0 }],
    .ofFields "App.a_Foo" 8 [{ name := "x", shape := .scalar .int64, offset := 0 }],
    fooBox, otherBox, numberBox],
    .forNamespace "App" ["app"]⟩

theorem instantiates_box (content : Shape) (size : Nat) (type : TypeExpr) (ident : String)
    (hDescribed : (boxes.library.instantiation? "App.Box" [content]).isSome)
    (hTypes : (((ofEntry boxes (box content size)).argTypes boxes).on s).1.toOption =
      some [type])
    (hIdent : "Box" ++ String.join (TypeExpr.mangledArguments [type]) = ident) :
    (ofEntry boxes (box content size)).Instantiates boxes s [type]
      (Call.after boxes s [.shape "App.Box" content]) (.inModule ["app"] ident) := by
  have hTarget : Target.ofName? boxes.config "App.Box" = some ⟨["app"], "Box", true⟩ := by
    decide +kernel
  have hMid : Call.after boxes s [.shape "App.Box" content] = _ :=
    @after_shape boxes (box content size) content rfl s
  rw [hMid, ← hIdent]
  exact ⟨external?_of_nil rfl _, ⟨_, hTarget, rfl, rfl⟩, List.cons_ne_nil _ _,
    Option.isSome_iff_exists.mp hDescribed, eq_of_toOption hTypes⟩

theorem unambiguous_boxes : ∃ s after later : Session,
    ((ofEntry boxes fooBox).resolve boxes).on s =
      (.ok (.inModule ["app"] "Box_app_a_Foo"), after) ∧
    (∃ answer after', ((ofEntry boxes numberBox).resolve boxes).on later = (.ok answer, after') ∧
      after.Precedes boxes after' ∧
      (TypeExpr.inModule ["app"] "Box_app_a_Foo").canonical ≠ answer.canonical) ∧
    ∃ mid, after.Precedes boxes mid ∧ ((ofEntry boxes otherBox).resolve boxes).on later =
      (.error (.duplicateRegistration "app" "Box_app_a_Foo"), mid) := by
  let s := ((populate boxes.config).on {}).2
  let after := (((ofEntry boxes fooBox).resolve boxes).on s).2
  let later := Call.after boxes after [.named "App.Missing"]
  have hFoo := instantiates_box (.named "App.A.Foo" []) 4 (.inModule ["app", "a"] "Foo")
    "Box_app_a_Foo" (s := s) (by decide +kernel) (by decide +kernel) (by decide)
  have hOther := instantiates_box (.named "App.a_Foo" []) 8 (.inModule ["app"] "a_Foo")
    "Box_app_a_Foo" (s := later) (by decide +kernel) (by decide +kernel) (by decide)
  have hNumber := instantiates_box (.scalar .int32) 4 (.ofPath ["i32"])
    "Box_i32" (s := later) (by decide +kernel) (by decide +kernel) (by decide)
  have hAnswer : ((ofEntry boxes fooBox).resolve boxes).on s =
      (.ok (.inModule ["app"] "Box_app_a_Foo"), after) :=
    eq_of_toOption (by decide +kernel)
  have hAnswer' : ((ofEntry boxes numberBox).resolve boxes).on later =
      (.ok (.inModule ["app"] "Box_i32"), (((ofEntry boxes numberBox).resolve boxes).on later).2) :=
    eq_of_toOption (by decide +kernel)
  have hIdle : after.stack = [] := by decide +kernel
  have hLater : later = Call.after boxes after [.named "App.Missing"] := rfl
  clear_value s after later
  have hPrecedes : ∀ call, after.Precedes boxes (Call.after boxes later [call]) := by
    intro call
    rw [hLater]
    exact Call.precedes_after boxes hIdle [.named "App.Missing", call]
  have hNumbers := hPrecedes (.desc numberBox)
  rw [after_desc (by decide +kernel) rfl] at hNumbers
  have hApart := (unambiguous hFoo hNumber (by decide)).2.1 hAnswer hAnswer' hNumbers
  have hClash := (unambiguous hFoo hOther (by decide)).2.2 (.answer hAnswer) (hPrecedes _)
    rfl
  have hModule : "::".intercalate (TypeExpr.inModule ["app"] "Box_app_a_Foo").modulePath =
      "app" := by
    decide
  rw [hModule] at hClash
  exact ⟨s, after, later, hAnswer, ⟨_, _, hAnswer', hNumbers, hApart⟩, _, hPrecedes _, hClash⟩

end Reference

end FixedLayout.Construction
