import FixedLayout.Proofs.Construction.Run

/-! Named types that are provided elsewhere. The type of such a name is the configured target, but
with as many pointers as the shape has: those of the target itself are lost. -/

namespace FixedLayout.Construction

namespace Host

variable {m : Type → Type} [Monad m] [MonadExcept ExportError m]

theorem resolveUnder_pointers (h : Host m) (context : String) (whole shape : Shape)
    (depth d : Nat) :
    h.resolveUnder context whole depth (Shape.pointer^[d] shape) =
      h.resolveUnder context whole (depth + d) shape := by
  induction d generalizing depth with
  | zero => rfl
  | succ d ih =>
    rw [Function.iterate_succ_apply', resolveUnder, ih, Nat.add_right_comm, Nat.add_assoc]

end Host

namespace Scope

variable {setting : Setting} {external : External} {t : TypeExpr}

/-- The size of a provided type is asked for only where it is used by value. -/
theorem resolve_provided (hExternal : setting.config.external? external.source = some external)
    (hPlain : setting.config.isPointerWrapper external.source = false)
    (hTarget : TypeExpr.parse external.target = .ok t) (room : Nat) (context : String) (d : Nat)
    (s : Session) :
    ((withRoom setting room).resolve context (Shape.pointer^[d] (.named external.source []))).on s =
      ((if 0 < d then .ok pointerSize
        else (withRoom setting room).sizeOf context external.source []).map
          fun size => ⟨t.withIndirection d, size⟩, s) := by
  have hConfig : (withRoom setting room).config = setting.config := by
    rw [Host.config, setting_withRoom]
  rw [Host.resolve, Host.resolveUnder_pointers, Nat.zero_add]
  simp only [Host.resolveUnder, Host.resolveNamed, Host.refer, hConfig, hPlain, hExternal, hTarget]
  simp only [Bool.false_eq_true, if_false, Option.isNone_some, Bool.false_and, Build.on_bind,
    Build.on_ofExcept]
  rcases Nat.eq_zero_or_pos d with rfl | hDepth
  · simp only [Nat.lt_irrefl, if_false, Build.on_bind, Build.on_ofExcept]
    cases (withRoom setting room).sizeOf context external.source [] <;> rfl
  · simp only [hDepth, if_true]
    rfl

/-- A name that is provided elsewhere resolves to the parsed target with exactly as many pointers as
stand in front of the name. That is the target behind these pointers, and the target itself where the
name is used by value, exactly if the target has no pointers of its own. -/
theorem provided_type_iff
    (hExternal : setting.config.external? external.source = some external)
    (hPlain : setting.config.isPointerWrapper external.source = false)
    (hTarget : TypeExpr.parse external.target = .ok t) {room : Nat} {context : String} {d : Nat}
    {s : Session} {r : Resolved}
    (h : (((withRoom setting room).resolve context
      (Shape.pointer^[d] (.named external.source []))).on s).1 = .ok r) :
    r.type = t.withIndirection d ∧
      (r.type = t.withIndirection (t.indirection + d) ↔ t.indirection = 0) := by
  have hType : r.type = t.withIndirection d := by
    rw [resolve_provided hExternal hPlain hTarget] at h
    dsimp only at h
    cases hSize : (if 0 < d then .ok pointerSize
        else (withRoom setting room).sizeOf context external.source []) with
    | error e =>
      rw [hSize] at h
      cases h
    | ok size =>
      rw [hSize] at h
      cases h
      rfl
  refine ⟨hType, ?_⟩
  rw [hType, TypeExpr.withIndirection, TypeExpr.withIndirection, TypeExpr.mk.injEq]
  simp

/-- A name that stands for a pointer to a type of the runtime crate. -/
def handle : External :=
  { source := "App.Handle", target := "*mut crate::rt::Object", size := some 8 }

def handles : Setting :=
  ⟨.ofTypes [], { Config.forNamespace "App" ["app"] with externals := [handle] }⟩

/-- A pointer to the name resolves to a single pointer. -/
theorem provided_type_iff_handle :
    ∃ r, (((withRoom handles 0).resolve "start" (.pointer (.named "App.Handle" []))).on {}).1 =
        .ok r ∧
      r.type = (TypeExpr.inModule ["rt"] "Object").pointerTo ∧
      r.type ≠ (TypeExpr.inModule ["rt"] "Object").pointerTo.pointerTo := by
  have hExternal : handles.config.external? handle.source = some handle := by decide +kernel
  have hPlain : handles.config.isPointerWrapper handle.source = false := by decide +kernel
  have hTarget : TypeExpr.parse handle.target =
      .ok (TypeExpr.inModule ["rt"] "Object").pointerTo := by
    decide +kernel
  have hOk : (((withRoom handles 0).resolve "start"
      (.pointer (.named "App.Handle" []))).on {}).1 =
        .ok ⟨(TypeExpr.inModule ["rt"] "Object").pointerTo, 8⟩ := by
    decide +kernel
  obtain ⟨hType, hIff⟩ := provided_type_iff (d := 1) hExternal hPlain hTarget hOk
  exact ⟨_, hOk, hType, mt hIff.mp (by decide)⟩

/-- Used by value, the name resolves to the type that the target only points to. -/
theorem exists_provided_ne :
    ∃ t r, handles.config.external? handle.source = some handle ∧
      handles.config.isPointerWrapper handle.source = false ∧
      TypeExpr.parse handle.target = .ok t ∧
      (((withRoom handles 0).resolve "start" (.named handle.source [])).on {}).1 = .ok r ∧
      r.type ≠ t := by
  refine ⟨(TypeExpr.inModule ["rt"] "Object").pointerTo, ⟨TypeExpr.inModule ["rt"] "Object", 8⟩, ?_⟩
  decide +kernel

end Scope

end FixedLayout.Construction
