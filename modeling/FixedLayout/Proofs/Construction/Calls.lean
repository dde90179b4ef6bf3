import FixedLayout.Proofs.Construction.Recorder
import FixedLayout.Proofs.Library

/-! What a shape calls for. The context of a shape shows in errors only, so every description of the
library has one type at most, and everything that is ensured has the type of its description. -/

namespace FixedLayout.Construction

/-- A target is of the rule for its name. -/
theorem Target.exists_rule {config : Config} {name : String} {target : Target}
    (h : Target.ofName? config name = some target) :
    ∃ rule, config.ruleFor? name = some rule ∧ target.exported = rule.exported := by
  unfold Target.ofName? at h
  simp only [Option.bind_eq_bind, Option.bind_eq_some_iff, Option.pure_def, Option.some.injEq] at h
  obtain ⟨rule, hRule, _, -, hEq⟩ := h
  exact ⟨rule, hRule, by rw [← hEq]⟩

theorem external?_of_nil {config : Config} (h : config.externals = []) (name : String) :
    config.external? name = none := by
  rw [Config.external?, h]
  rfl

namespace Host

open Script

section Context

variable (setting : Setting) (context context' name : String)

theorem sizeOf_alike (args : List Shape) :
    ((recorder setting).sizeOf context name args).toOption =
      ((recorder setting).sizeOf context' name args).toOption := by
  unfold sizeOf
  cases ((recorder setting).config.external? name).bind (·.size) with
  | some size => rfl
  | none =>
    dsimp only
    generalize (if args.isEmpty then _ else _ : Option TypeDesc) = found
    cases found with
    | none => rfl
    | some desc =>
      dsimp only
      split
      · rfl
      · split <;> rfl

variable {argTypes argTypes' : Script (List TypeExpr)} (hArgs : Alike argTypes argTypes')
include hArgs

theorem referExported_alike (target : Target) (args : List Shape) :
    Alike ((recorder setting).referExported context name target args argTypes)
      ((recorder setting).referExported context' name target args argTypes') := by
  unfold referExported
  split
  · cases (recorder setting).library.definition? name with
    | none => exact alike_throw _ _
    | some desc => exact .refl _
  · apply hArgs.bind
    intro types
    cases (recorder setting).library.instantiation? name args with
    | some desc => exact .refl _
    | none =>
      cases (recorder setting).library.definition? name with
      | none => exact alike_throw _ _
      | some desc =>
        dsimp only
        split
        · exact (alike_throw _ _).bind fun _ => .refl _
        · exact .refl _

theorem refer_alike (args : List Shape) :
    Alike ((recorder setting).refer context name args argTypes)
      ((recorder setting).refer context' name args argTypes') := by
  unfold refer
  cases (recorder setting).config.external? name with
  | some external => exact .refl _
  | none =>
    cases Target.ofName? (recorder setting).config name with
    | none => exact alike_throw _ _
    | some target =>
      dsimp only
      split
      · exact referExported_alike setting context context' name hArgs target args
      · unfold referForeign
        split
        · exact .refl _
        · exact hArgs.bind fun types => .refl _

theorem resolveWrapper_alike (depth : Nat) (args : List Shape) :
    Alike (resolveWrapper context name depth args argTypes)
      (resolveWrapper context' name depth args argTypes') := by
  unfold resolveWrapper
  split
  · exact alike_throw _ _
  · apply hArgs.bind
    intro types
    split
    · split
      · exact alike_throw _ _
      · exact .refl _
    · exact alike_throw _ _

theorem resolveNamed_alike (depth : Nat) (args : List Shape) :
    Alike ((recorder setting).resolveNamed context name depth args argTypes)
      ((recorder setting).resolveNamed context' name depth args argTypes') := by
  unfold resolveNamed
  split
  · exact resolveWrapper_alike context context' name hArgs depth args
  · split
    · split
      · exact .refl _
      · exact alike_throw _ _
    · apply (refer_alike setting context context' name hArgs args).bind
      intro type
      split
      · exact .refl _
      · have hSize := sizeOf_alike setting context context' name args
        exact (alike_ofExcept hSize).bind fun size => .refl _

end Context

section Shapes

variable (setting : Setting) (context context' : String)

mutual

theorem resolveUnder_alike (whole whole' : Shape) (depth : Nat) (shape : Shape) :
    Alike ((recorder setting).resolveUnder context whole depth shape)
      ((recorder setting).resolveUnder context' whole' depth shape) := by
  cases shape with
  | void => exact .refl _
  | scalar scalar =>
    simp only [resolveUnder]
    cases scalar.typeExpr? depth with
    | none => exact alike_throw _ _
    | some type => exact .refl _
  | pointer pointee => exact resolveUnder_alike whole whole' (depth + 1) pointee
  | named name args =>
    exact resolveNamed_alike setting context context' name (resolveAll_alike args) depth args
  | param name => exact alike_throw _ _

theorem resolveAll_alike (shapes : List Shape) :
    Alike ((recorder setting).resolveAll context shapes)
      ((recorder setting).resolveAll context' shapes) := by
  cases shapes with
  | nil => exact .refl _
  | cons shape shapes =>
    exact (resolveUnder_alike shape shape 0 shape).bind fun resolved =>
      (resolveAll_alike shapes).bind fun types => .refl _

end

end Shapes

end Host

namespace Setting

variable (setting : Setting)

/-- The types of some arguments, unless one of them has none. -/
def argTypes? (args : List Shape) : Option (List TypeExpr) :=
  ((Script.recorder setting).resolveAll "" args).result.toOption

/-- The type that a description is declared with. -/
def typeOf? (desc : TypeDesc) : Option TypeExpr := do
  let target ← Target.ofName? setting.config desc.name
  if desc.args.isEmpty then return target.type
  else
    let types ← setting.argTypes? desc.args
    return (target.instantiate types).type

/-- What resolving a shape may call for. -/
inductive Calls : Action → Prop
  | foreign {name : String} {target : Target} {type : TypeExpr}
      (hTarget : Target.ofName? setting.config name = some target)
      (hForeign : target.exported = false) (hPath : type.path = target.type.path) :
      Calls (.primitive (.ofType type.erased))
  | claim {name : String} {args : List Shape} {desc : TypeDesc} {target : Target}
      {types : List TypeExpr} (hDesc : setting.library.instantiation? name args = some desc)
      (hTarget : Target.ofName? setting.config name = some target)
      (hTypes : setting.argTypes? args = some types) :
      Calls (.claim (target.instantiate types).type name types)
  | ensure {desc : TypeDesc} {type : TypeExpr} (hMem : desc ∈ setting.library.types)
      (hType : setting.typeOf? desc = some type) : Calls (.ensure desc type)
  | placeholder {desc : TypeDesc} {target : Target} (hMem : desc ∈ setting.library.types)
      (hCandidate : isCandidate setting.config desc = true) (hOpen : desc.isOpenGeneric = true)
      (hTarget : Target.ofName? setting.config desc.name = some target) :
      Calls (.placeholder (openType desc target))

variable {setting}

theorem argTypes?_eq {context : String} {args : List Shape} {types : List TypeExpr}
    (h : ((Script.recorder setting).resolveAll context args).result = .ok types) :
    setting.argTypes? args = some types := by
  rw [argTypes?, ← (Host.resolveAll_alike setting context "" args).2, h]
  rfl

end Setting

namespace Host

open Script

variable {setting : Setting}

section Named

variable (context name : String) (args : List Shape) {argTypes : Script (List TypeExpr)}
  (hCalls : Only setting.Calls argTypes)
  (hTypes : ∀ types, argTypes.result = .ok types → setting.argTypes? args = some types)
include hCalls hTypes

theorem calls_referExported {target : Target}
    (hTarget : Target.ofName? setting.config name = some target) :
    Only setting.Calls ((recorder setting).referExported context name target args argTypes) := by
  unfold referExported
  split
  · cases hDesc : (recorder setting).library.definition? name with
    | none => exact only_throw _
    | some desc =>
      obtain ⟨hMem, hName, hPlain⟩ := Library.definition?_spec hDesc
      refine Only.bind (only_perform (.ensure hMem ?_)) fun _ _ => only_pure _
      simp [Setting.typeOf?, hName, hTarget, hPlain]
  · rename_i hArgs
    apply hCalls.bind
    intro types hOk
    cases hDesc : (recorder setting).library.instantiation? name args with
    | some desc =>
      obtain ⟨hMem, hName, hEq⟩ := Library.instantiation?_spec hDesc
      refine Only.bind (only_perform (.claim hDesc hTarget (hTypes types hOk))) ?_
      intro _ _
      refine Only.bind (only_perform (.ensure hMem ?_)) fun _ _ => only_pure _
      simp only [Setting.typeOf?, hName, hTarget, hEq, hTypes types hOk]
      simp [hArgs]
    | none =>
      cases hDesc : (recorder setting).library.definition? name with
      | none => exact only_throw _
      | some desc =>
        obtain ⟨hMem, hName, hPlain⟩ := Library.definition?_spec hDesc
        dsimp only
        split
        · exact only_throw _
        · rename_i hLength
          split
          · rename_i hCandidate
            refine Only.bind (only_perform (.placeholder hMem hCandidate ?_ (hName ▸ hTarget)))
              fun _ _ => only_pure _
            cases args with
            | nil => exact absurd rfl hArgs
            | cons arg args =>
              cases hParams : desc.params <;> simp_all [TypeDesc.isOpenGeneric]
          · exact only_pure _

theorem calls_refer : Only setting.Calls ((recorder setting).refer context name args argTypes) := by
  unfold refer
  cases (recorder setting).config.external? name with
  | some external => exact only_ofExcept _
  | none =>
    cases hTarget : Target.ofName? (recorder setting).config name with
    | none => exact only_throw _
    | some target =>
      dsimp only
      split
      · exact calls_referExported context name args hCalls hTypes hTarget
      · rename_i hForeign
        have hEnd : ∀ type : TypeExpr, type.path = target.type.path → Only setting.Calls (do
            (recorder setting).perform (.primitive (.ofType type.erased))
            pure type) := fun type hPath =>
          (only_perform (.foreign hTarget (by simpa using hForeign) hPath)).bind
            fun _ _ => only_pure _
        unfold referForeign
        split
        · exact hEnd _ rfl
        · exact hCalls.bind fun types _ => hEnd _ rfl

theorem calls_resolveNamed (depth : Nat) :
    Only setting.Calls ((recorder setting).resolveNamed context name depth args argTypes) := by
  unfold resolveNamed
  split
  · unfold resolveWrapper
    split
    · exact only_throw _
    · apply hCalls.bind
      intro types _
      split
      · split
        · exact only_throw _
        · exact only_pure _
      · exact only_throw _
  · split
    · split
      · exact only_pure _
      · exact only_throw _
    · apply (calls_refer context name args hCalls hTypes).bind
      intro type _
      split
      · exact only_pure _
      · exact (only_ofExcept _).bind fun size _ => only_pure _

end Named

mutual

theorem calls_resolveUnder (context : String) (whole : Shape) (depth : Nat) (shape : Shape) :
    Only setting.Calls ((recorder setting).resolveUnder context whole depth shape) := by
  cases shape with
  | void => exact only_pure _
  | scalar scalar =>
    simp only [resolveUnder]
    cases scalar.typeExpr? depth with
    | none => exact only_throw _
    | some type => exact only_pure _
  | pointer pointee => exact calls_resolveUnder context whole (depth + 1) pointee
  | named name args =>
    exact calls_resolveNamed context name args (calls_resolveAll context args)
      (fun _ h => Setting.argTypes?_eq h) depth
  | param name => exact only_throw _

theorem calls_resolveAll (context : String) (shapes : List Shape) :
    Only setting.Calls ((recorder setting).resolveAll context shapes) := by
  cases shapes with
  | nil => exact only_pure _
  | cons shape shapes =>
    exact (calls_resolveUnder context shape 0 shape).bind fun resolved _ =>
      (calls_resolveAll context shapes).bind fun types _ => only_pure _

end

end Host

end FixedLayout.Construction
