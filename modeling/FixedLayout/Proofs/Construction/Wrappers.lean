import FixedLayout.Proofs.Construction.Resolution

/-! Pointer wrappers. A wrapper resolves what it points to by value and puts a pointer before it,
while a pointer shape hands its level on to what it points to. Both ways agree wherever there is a
value to point to and its type is no array. -/

namespace FixedLayout

/-- One more pointer to a scalar. Fewer pointers have a type wherever more have one. -/
theorem Scalar.typeExpr?_succ {scalar : Scalar} {depth : Nat} {t : TypeExpr}
    (h : scalar.typeExpr? (depth + 1) = some t) :
    ∃ inner, scalar.typeExpr? depth = some inner ∧ t = inner.pointerTo := by
  obtain ⟨hLimit, rfl⟩ := typeExpr?_eq_some_iff.mp h
  have hLess : scalar.pointerLimit?.all (depth ≤ ·) = true := by
    cases hFound : scalar.pointerLimit? with
    | none => rfl
    | some limit =>
      rw [hFound] at hLimit
      simp only [Option.all_some, decide_eq_true_eq] at hLimit ⊢
      omega
  exact ⟨_, if_pos hLess, rfl⟩

namespace Construction

open Script

/-- The second script answers a pointer to what the first one answers, with the same actions. -/
def Script.Lifts (x y : Script Resolved) : Prop :=
  ∀ r, y.result = .ok r → ∃ inner, x.result = .ok inner ∧
    r = ⟨inner.type.pointerTo, pointerSize⟩ ∧ x.actions = y.actions

/-- The shape can be used by value: it is a scalar, a pointer, or a name with a type and a size. -/
inductive HasValue (setting : Setting) (context : String) : Shape → Prop
  | scalar {scalar : Scalar} : HasValue setting context (.scalar scalar)
  | pointer {pointee : Shape} : HasValue setting context (.pointer pointee)
  | wrapper {name : String} {args : List Shape}
      (hWrapper : setting.config.isPointerWrapper name = true) :
      HasValue setting context (.named name args)
  | named {name : String} {args : List Shape} {size : Nat}
      (hMapped : ¬(setting.config.external? name = none ∧
        Target.ofName? setting.config name = none))
      (hSize : (recorder setting).sizeOf context name args = .ok size) :
      HasValue setting context (.named name args)

namespace Script

theorem Lifts.bind {α : Type} {x : Script α} {f g : α → Script Resolved}
    (h : ∀ a, (f a).Lifts (g a)) : (x >>= f).Lifts (x >>= g) := by
  intro r hr
  obtain ⟨a, hOk, hRest, hActions⟩ := bind_ok hr
  obtain ⟨inner, hInner, hEq, hSame⟩ := h a r hRest
  obtain ⟨hResult, hAll⟩ := bind_of_ok (f := f) hOk
  exact ⟨inner, hResult.trans hInner, hEq, by rw [hAll, hActions, hSame]⟩

theorem lifts_pure {inner r : Resolved} (h : r = ⟨inner.type.pointerTo, pointerSize⟩) :
    (pure inner : Script Resolved).Lifts (pure r) := by
  rintro _ ⟨⟩
  exact ⟨inner, rfl, h, rfl⟩

theorem lifts_throw (x : Script Resolved) (e : ExportError) : x.Lifts (throw e) := nofun

end Script

namespace Host

variable {setting : Setting}

theorem lifts_resolveWrapper (context name : String) (depth : Nat) (args : List Shape)
    (argTypes : Script (List TypeExpr)) :
    (resolveWrapper context name depth args argTypes).Lifts
      (resolveWrapper context name (depth + 1) args argTypes) := by
  unfold resolveWrapper
  split
  · exact lifts_throw _ _
  · refine Lifts.bind fun types => ?_
    split
    · split
      · exact lifts_throw _ _
      · exact lifts_pure rfl
    · exact lifts_throw _ _

theorem lifts_resolveNamed {context name : String} {depth : Nat} {args : List Shape}
    (hValue : 0 < depth ∨ HasValue setting context (.named name args))
    (argTypes : Script (List TypeExpr)) :
    ((recorder setting).resolveNamed context name depth args argTypes).Lifts
      ((recorder setting).resolveNamed context name (depth + 1) args argTypes) := by
  unfold resolveNamed
  split
  · exact lifts_resolveWrapper context name depth args argTypes
  · rename_i hPlain
    split
    · rename_i hUnmapped
      rcases hValue with hDepth | hValue
      · rw [if_pos hDepth, if_pos depth.succ_pos]
        refine lifts_pure ?_
        rw [Primitive.opaquePointer, Nat.max_eq_left (by omega), Primitive.opaquePointer,
          Nat.max_eq_left hDepth]
        rfl
      · cases hValue with
        | wrapper hWrapper => exact absurd hWrapper hPlain
        | named hMapped =>
          rw [Bool.and_eq_true, Option.isNone_iff_eq_none, Option.isNone_iff_eq_none] at hUnmapped
          exact absurd hUnmapped hMapped
    · refine Lifts.bind fun type => ?_
      rw [if_pos depth.succ_pos]
      split
      · exact lifts_pure rfl
      · rename_i hMapped hDepth
        cases hValue.resolve_left hDepth with
        | wrapper hWrapper => exact absurd hWrapper hPlain
        | named _ hSize =>
          rw [hSize]
          exact lifts_pure rfl

theorem lifts_resolveUnder {context : String} {depth : Nat} {shape : Shape}
    (hValue : 0 < depth ∨ HasValue setting context shape) (whole whole' : Shape) :
    ((recorder setting).resolveUnder context whole depth shape).Lifts
      ((recorder setting).resolveUnder context whole' (depth + 1) shape) := by
  cases shape with
  | pointer pointee => exact lifts_resolveUnder (.inl depth.succ_pos) whole whole'
  | void =>
    rcases hValue with hDepth | hVoid
    · refine lifts_pure ?_
      rw [Primitive.void, if_neg depth.succ_ne_zero, if_pos depth.succ_pos, Primitive.void,
        if_neg hDepth.ne']
      rfl
    · cases hVoid
  | scalar scalar =>
    unfold resolveUnder
    cases hType : scalar.typeExpr? (depth + 1) with
    | none => exact lifts_throw _ _
    | some type =>
      obtain ⟨inner, hInner, rfl⟩ := Scalar.typeExpr?_succ hType
      rw [hInner]
      exact lifts_pure (by rw [if_pos depth.succ_pos])
  | named name args => exact lifts_resolveNamed hValue _
  | param name => exact lifts_throw _ _
termination_by structural shape

theorem hasValue_of_ok {context : String} {whole shape : Shape} {inner : Resolved}
    (h : ((recorder setting).resolveUnder context whole 0 shape).result = .ok inner)
    (hVoid : shape ≠ .void) : HasValue setting context shape := by
  cases shape with
  | void => exact absurd rfl hVoid
  | scalar scalar => exact .scalar
  | pointer pointee => exact .pointer
  | param name => cases h
  | named name args =>
    simp only [resolveUnder, resolveNamed] at h
    split at h
    · exact .wrapper ‹_›
    · split at h
      · cases h
      · rename_i hMapped
        obtain ⟨type, -, hRest, -⟩ := bind_ok h
        obtain ⟨size, hSize, -⟩ := bind_ok hRest
        rw [result_ofExcept] at hSize
        refine .named (fun hNone => hMapped ?_) hSize
        rw [Bool.and_eq_true, Option.isNone_iff_eq_none, Option.isNone_iff_eq_none]
        exact hNone

/-- A pointer to a type, unless that is an array. -/
def behindPointer {m : Type → Type} [Monad m] [MonadExcept ExportError m] (context w : String)
    (inner : Resolved) : m Resolved :=
  if inner.type.extent.isSome then throw (.unsupportedShape context w)
  else return ⟨inner.type.pointerTo, pointerSize⟩

theorem resolve_wrapper {m : Type → Type} [Monad m] [LawfulMonad m] [MonadExcept ExportError m]
    (h : Host m) (context : String) {w : String} (hWrapper : h.config.isPointerWrapper w = true)
    (shape : Shape) :
    h.resolve context (.named w [shape]) = h.resolve context shape >>= behindPointer context w := by
  rw [resolve, resolveUnder, resolveNamed, if_pos hWrapper, resolveWrapper, if_neg (by simp),
    resolveAll, resolveAll]
  simp only [bind_assoc, pure_bind]
  rfl

theorem wrapper_of_hasValue {context w : String} {shape : Shape} {r : Resolved}
    (hWrapper : setting.config.isPointerWrapper w = true)
    (h : ((recorder setting).resolve context (.pointer shape)).result = .ok r)
    (hValue : HasValue setting context shape) (hExtent : r.type.extent = none) :
    ((recorder setting).resolve context (.named w [shape])).result = .ok r ∧
      ((recorder setting).resolve context (.named w [shape])).actions =
        ((recorder setting).resolve context (.pointer shape)).actions := by
  obtain ⟨inner, hInner, rfl, hActions⟩ :=
    lifts_resolveUnder (.inr hValue) shape (.pointer shape) r h
  have hPlain : (behindPointer context w inner : Script Resolved) =
      pure ⟨inner.type.pointerTo, pointerSize⟩ := by
    rw [behindPointer, if_neg]
    exact Option.not_isSome_iff_eq_none.mpr hExtent
  obtain ⟨hResult, hAll⟩ := bind_of_ok (f := behindPointer context w) hInner
  rw [hPlain] at hResult hAll
  rw [resolve_wrapper (recorder setting) context hWrapper]
  exact ⟨hResult, hAll.trans ((List.append_nil _).trans hActions)⟩

theorem hasValue_of_wrapper {context w : String} {shape : Shape} {r : Resolved}
    (hWrapper : setting.config.isPointerWrapper w = true)
    (h : ((recorder setting).resolve context (.pointer shape)).result = .ok r)
    (hSame : ((recorder setting).resolve context (.named w [shape])).result = .ok r) :
    HasValue setting context shape ∧ r.type.extent = none := by
  rw [resolve_wrapper (recorder setting) context hWrapper] at hSame
  obtain ⟨inner, hInner, hRest, -⟩ := bind_ok hSame
  unfold behindPointer at hRest
  split at hRest
  · cases hRest
  · rename_i hPlain
    cases hRest
    refine ⟨hasValue_of_ok hInner ?_, Option.not_isSome_iff_eq_none.mp hPlain⟩
    -- A pointer to no value is untyped, but a wrapper points to the type of no value.
    rintro rfl
    cases hInner
    have hType : Primitive.void 1 = (Primitive.void 0).pointerTo :=
      congrArg Resolved.type (Except.ok.inj h)
    exact absurd hType (by decide)

end Host

namespace Scope

/-- Where a pointer to a shape resolves, a wrapper of the shape resolves to the same type and size
exactly if the shape has a value and its type is no array. It leaves the same session then. -/
theorem wrapper_iff_pointer {setting : Setting} {w : String}
    (hWrapper : setting.config.isPointerWrapper w = true) {room : Nat} {context : String}
    {shape : Shape} {s : Session} {r : Resolved}
    (h : (((withRoom setting room).resolve context (.pointer shape)).on s).1 = .ok r) :
    ((((withRoom setting room).resolve context (.named w [shape])).on s).1 = .ok r ↔
      HasValue setting context shape ∧ r.type.extent = none) ∧
    (HasValue setting context shape ∧ r.type.extent = none →
      ((withRoom setting room).resolve context (.named w [shape])).on s =
        ((withRoom setting room).resolve context (.pointer shape)).on s) := by
  have hPointer := result_resolve h
  have hAgree : HasValue setting context shape ∧ r.type.extent = none →
      ((withRoom setting room).resolve context (.named w [shape])).on s =
        ((withRoom setting room).resolve context (.pointer shape)).on s := by
    rintro ⟨hValue, hExtent⟩
    obtain ⟨hResult, hActions⟩ := Host.wrapper_of_hasValue hWrapper hPointer hValue hExtent
    rw [← Host.runOn_resolve, ← Host.runOn_resolve, on_runOn, on_runOn, setting_withRoom, hResult,
      hActions, hPointer]
  refine ⟨⟨fun hSame => ?_, fun hBoth => ?_⟩, hAgree⟩
  · exact Host.hasValue_of_wrapper hWrapper hPointer (result_resolve hSame)
  · rw [hAgree hBoth, h]

/-- A struct with a wrapped pointer to itself. -/
def wrapped : Setting :=
  ⟨.ofTypes [
    .ofFields "App.Node" 8
      [{ name := "next", shape := .named "App.Ptr`1" [.named "App.Node" []], offset := 0 }]],
    { Config.forNamespace "App" ["app"] with pointerWrappers := ["App.Ptr`1"] }⟩

/-- Either way the struct is declared, and a pointer to it answered. -/
theorem wrapper_iff_pointer_node :
    (((withRoom wrapped 1).resolve "start" (.named "App.Ptr`1" [.named "App.Node" []])).on {}).1 =
        .ok ⟨(TypeExpr.inModule ["app"] "Node").pointerTo, 8⟩ ∧
      ((withRoom wrapped 1).resolve "start" (.named "App.Ptr`1" [.named "App.Node" []])).on {} =
        ((withRoom wrapped 1).resolve "start" (.pointer (.named "App.Node" []))).on {} := by
  have hOk : (((withRoom wrapped 1).resolve "start" (.pointer (.named "App.Node" []))).on {}).1 =
      .ok ⟨(TypeExpr.inModule ["app"] "Node").pointerTo, 8⟩ := by
    decide +kernel
  have hWrapper : wrapped.config.isPointerWrapper "App.Ptr`1" = true := by decide +kernel
  have hSize : (recorder wrapped).sizeOf "start" "App.Node" [] = .ok 8 := by decide +kernel
  have hValue : HasValue wrapped "start" (.named "App.Node" []) :=
    .named (by decide +kernel) hSize
  obtain ⟨hIff, hSession⟩ := wrapper_iff_pointer hWrapper hOk
  exact ⟨hIff.mpr ⟨hValue, rfl⟩, hSession ⟨hValue, rfl⟩⟩

/-- The wrapper of no value is not the untyped pointer that a pointer to no value is. -/
theorem exists_wrapper_ne_pointer :
    wrapped.config.isPointerWrapper "App.Ptr`1" = true ∧
      (((withRoom wrapped 1).resolve "start" (.pointer .void)).on {}).1 =
        .ok ⟨Primitive.untyped.pointerTo, 8⟩ ∧
      (((withRoom wrapped 1).resolve "start" (.named "App.Ptr`1" [.void])).on {}).1 =
        .ok ⟨(TypeExpr.ofPath ["()"]).pointerTo, 8⟩ := by
  decide +kernel

end Scope

end Construction

end FixedLayout
