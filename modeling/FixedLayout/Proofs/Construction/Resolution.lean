import FixedLayout.Proofs.Construction.Run

/-! What a shape resolves to. A scope performs actions on its session but learns nothing from them,
so neither the session nor what is being built in it shows in the type and the size of a shape. -/

namespace FixedLayout.Construction

open Script

theorem Script.ok_of_on {α : Type} {x : Script α} {scope : Scope} {s : Session} {a : α}
    (h : ((x.runOn scope).on s).1 = .ok a) : x.result = .ok a := by
  rw [on_runOn] at h
  cases hRun : ((x.actions.forM scope.perform).on s).1 with
  | error e =>
    rw [hRun] at h
    cases h
  | ok u => rwa [hRun] at h

namespace Host

variable {setting : Setting}

/-- Where the size of a shape comes from: a pointer has the size of a pointer, and only a shape
without pointers has that of its scalar or of what its name stands for. -/
inductive Sizes (setting : Setting) (context : String) : Nat → Shape → Resolved → Prop
  | pointer {depth : Nat} {shape : Shape} {r : Resolved} (hPointer : 0 < r.type.indirection)
      (hSize : r.size = pointerSize) : Sizes setting context depth shape r
  | void : Sizes setting context 0 .void ⟨.ofPath ["()"], 0⟩
  | scalar {scalar : Scalar} (hValue : scalar.primitive.indirection = 0) :
      Sizes setting context 0 (.scalar scalar) ⟨scalar.primitive, scalar.size⟩
  | named {name : String} {args : List Shape} {r : Resolved}
      (hSize : (recorder setting).sizeOf context name args = .ok r.size)
      (hValue : r.type.indirection = 0) : Sizes setting context 0 (.named name args) r

theorem sizes_resolveNamed (context name : String) (depth : Nat) (args : List Shape)
    (argTypes : Script (List TypeExpr)) :
    Answers (fun _ => Sizes setting context depth (.named name args))
      ((recorder setting).resolveNamed context name depth args argTypes) := by
  intro r hr
  unfold resolveNamed at hr
  split at hr
  · unfold resolveWrapper at hr
    split at hr
    · cases hr
    · obtain ⟨types, -, hr, -⟩ := bind_ok hr
      split at hr
      · split at hr
        · cases hr
        · cases hr
          exact .pointer (Nat.succ_pos _) rfl
      · cases hr
  · split at hr
    · split at hr
      · cases hr
        exact .pointer (lt_max_of_lt_right Nat.one_pos) rfl
      · cases hr
    · obtain ⟨type, -, hr, -⟩ := bind_ok hr
      split at hr
      · rename_i hDepth
        cases hr
        exact .pointer hDepth rfl
      · rename_i hDepth
        obtain rfl : depth = 0 := by omega
        obtain ⟨size, hSize, hr, -⟩ := bind_ok hr
        rw [result_ofExcept] at hSize
        cases hr
        exact .named hSize rfl

theorem sizes_resolveUnder (context : String) (whole : Shape) (depth : Nat) (shape : Shape) :
    Answers (fun _ => Sizes setting context depth shape)
      ((recorder setting).resolveUnder context whole depth shape) := by
  cases shape with
  | pointer pointee =>
    intro r hr
    cases sizes_resolveUnder context whole (depth + 1) pointee r hr with
    | pointer hPointer hSize => exact .pointer hPointer hSize
  | void =>
    rcases Nat.eq_zero_or_pos depth with rfl | hDepth
    · exact answers_pure .void
    · refine answers_pure (.pointer ?_ (if_pos hDepth))
      rw [Primitive.void, if_neg (by omega)]
      exact hDepth
  | scalar scalar =>
    simp only [resolveUnder]
    cases hType : scalar.typeExpr? depth with
    | none => exact answers_throw _
    | some type =>
      obtain ⟨-, rfl⟩ := Scalar.typeExpr?_eq_some_iff.mp hType
      refine answers_pure ?_
      rcases Nat.eq_zero_or_pos depth with rfl | hDepth
      · cases scalar with
        | intptr | uintptr => exact .pointer Nat.one_pos rfl
        | _ => exact .scalar rfl
      · exact .pointer (Nat.add_pos_right _ hDepth) (if_pos hDepth)
  | named name args => exact sizes_resolveNamed context name depth args _
  | param name => exact answers_throw _

end Host

/-- What a shape resolves to, if to anything. -/
def Setting.resolved? (setting : Setting) (shape : Shape) : Option Resolved :=
  ((recorder setting).resolve "" shape).result.toOption

theorem Setting.resolved?_of_result {setting : Setting} {context : String} {shape : Shape}
    {r : Resolved} (h : ((recorder setting).resolve context shape).result = .ok r) :
    setting.resolved? shape = some r := by
  have hAlike := Host.resolveUnder_alike setting "" context shape shape 0 shape
  exact hAlike.2.trans (congrArg Except.toOption h)

namespace Scope

variable {setting : Setting} {context : String} {shape : Shape} {s : Session} {r : Resolved}

theorem result_resolve {room : Nat}
    (h : (((withRoom setting room).resolve context shape).on s).1 = .ok r) :
    ((recorder setting).resolve context shape).result = .ok r := by
  rw [← Host.runOn_resolve, setting_withRoom] at h
  exact ok_of_on h

theorem result_slot {room : Nat} {desc : TypeDesc} {f : FieldDesc} {slot : Layout.Slot}
    (h : (((withRoom setting room).slot desc f).on s).1 = .ok slot) :
    ((recorder setting).slot desc f).result = .ok slot := by
  rw [← Host.runOn_slot, setting_withRoom] at h
  exact ok_of_on h

theorem resolved?_eq {room : Nat}
    (h : (((withRoom setting room).resolve context shape).on s).1 = .ok r) :
    setting.resolved? shape = some r :=
  Setting.resolved?_of_result (result_resolve h)

/-- Wherever a shape is resolved, whatever the session holds or is about to build, and however much
room there is: if it resolves to anything, then to the same type and the same size. A pointer has
the size of a pointer. -/
theorem resolve_unique {room room' : Nat} {context' : String} {s' : Session} {r' : Resolved}
    (h : (((withRoom setting room).resolve context shape).on s).1 = .ok r)
    (h' : (((withRoom setting room').resolve context' shape).on s').1 = .ok r') :
    r' = r ∧ (0 < r.type.indirection → r.size = 8) := by
  constructor
  · exact Option.some_injective _ ((resolved?_eq h').symm.trans (resolved?_eq h))
  · intro hPointer
    cases Host.sizes_resolveUnder context shape 0 shape r (result_resolve h) with
    | pointer _ hSize => exact hSize
    | void => cases hPointer
    | scalar hValue | named _ hValue => exact absurd hValue hPointer.ne'

/-- A struct inside another one, which it points back to. -/
def embedded : Setting :=
  ⟨.ofTypes [
    .ofFields "App.Outer" 8 [{ name := "inner", shape := .named "App.Inner" [], offset := 0 }],
    .ofFields "App.Inner" 8
      [{ name := "outer", shape := .pointer (.named "App.Outer" []), offset := 0 }]],
    .forNamespace "App" ["app"]⟩

/-- Resolved from the start, and again while both structs are being built. -/
theorem resolve_unique_embedded :
    (((withRoom embedded 2).resolve "start" (.pointer (.named "App.Outer" []))).on {}).1 =
      .ok ⟨(TypeExpr.inModule ["app"] "Outer").pointerTo, 8⟩ ∧
    ∃ r, (((withRoom embedded 0).resolve "App.Inner.outer"
        (.pointer (.named "App.Outer" []))).on
          { stack := ["crate::app::Inner", "crate::app::Outer"] }).1 = .ok r ∧
      r = ⟨(TypeExpr.inModule ["app"] "Outer").pointerTo, 8⟩ ∧ r.size = 8 := by
  have hStart : (((withRoom embedded 2).resolve "start"
      (.pointer (.named "App.Outer" []))).on {}).1 =
        .ok ⟨(TypeExpr.inModule ["app"] "Outer").pointerTo, 8⟩ := by
    decide +kernel
  have hInside : ((((withRoom embedded 0).resolve "App.Inner.outer"
      (.pointer (.named "App.Outer" []))).on
        { stack := ["crate::app::Inner", "crate::app::Outer"] }).1.toOption).isSome = true := by
    decide +kernel
  obtain ⟨r, hr⟩ := Option.isSome_iff_exists.mp hInside
  have hOk := ok_of_toOption hr
  obtain ⟨hSame, hSize⟩ := resolve_unique hStart hOk
  exact ⟨hStart, r, hOk, hSame, hSame ▸ hSize (by decide)⟩

end Scope

end FixedLayout.Construction
