import FixedLayout.Proofs.Construction.Script

/-! What a construction does depends on its setting alone: to run a step on a session is to perform
the script that the step leaves with a recorder. -/

namespace FixedLayout.Construction

namespace Host

open Script

variable (s : Scope)

@[simp] theorem config_recorder : (recorder s.setting).config = s.config := rfl

@[simp] theorem library_recorder : (recorder s.setting).library = s.library := rfl

theorem sizeOf_recorder : (recorder s.setting).sizeOf = s.sizeOf := rfl

theorem runOn_referExported (context name : String) (target : Target) (args : List Shape)
    (argTypes : Script (List TypeExpr)) :
    runOn s ((recorder s.setting).referExported context name target args argTypes) =
      s.referExported context name target args (runOn s argTypes) := by
  unfold referExported
  simp only [config_recorder, library_recorder]
  split
  · cases s.library.definition? name <;> simp
  · rw [runOn_bind]
    apply bind_congr
    intro types
    cases s.library.instantiation? name args with
    | some desc => simp
    | none =>
      cases s.library.definition? name with
      | none => simp
      | some desc =>
        by_cases hArity : desc.params.length = args.length
        · by_cases hCandidate : isCandidate s.config desc <;> simp [hArity, hCandidate]
        · simp [hArity]

theorem runOn_referForeign (target : Target) (args : List Shape)
    (argTypes : Script (List TypeExpr)) :
    runOn s ((recorder s.setting).referForeign target args argTypes) =
      s.referForeign target args (runOn s argTypes) := by
  unfold referForeign
  split <;> simp

theorem runOn_refer (context name : String) (args : List Shape)
    (argTypes : Script (List TypeExpr)) :
    runOn s ((recorder s.setting).refer context name args argTypes) =
      s.refer context name args (runOn s argTypes) := by
  unfold refer
  simp only [config_recorder]
  cases s.config.external? name with
  | some external => simp
  | none =>
    cases Target.ofName? s.config name with
    | none => simp
    | some target =>
      by_cases hExported : target.exported
      · simp [hExported, runOn_referExported]
      · simp [hExported, runOn_referForeign]

theorem runOn_resolveWrapper (context name : String) (depth : Nat) (args : List Shape)
    (argTypes : Script (List TypeExpr)) :
    runOn s (resolveWrapper context name depth args argTypes) =
      resolveWrapper context name depth args (runOn s argTypes) := by
  unfold resolveWrapper
  split
  · simp
  · simp only [runOn_bind]
    apply bind_congr
    intro types
    split
    · split <;> simp
    · simp

theorem runOn_resolveNamed (context name : String) (depth : Nat) (args : List Shape)
    (argTypes : Script (List TypeExpr)) :
    runOn s ((recorder s.setting).resolveNamed context name depth args argTypes) =
      s.resolveNamed context name depth args (runOn s argTypes) := by
  unfold resolveNamed
  simp only [config_recorder]
  split
  · exact runOn_resolveWrapper s ..
  · split
    · split <;> simp
    · rw [runOn_bind, runOn_refer]
      apply bind_congr
      intro type
      split <;> simp [sizeOf_recorder]

mutual

theorem runOn_resolveUnder (context : String) (whole : Shape) (depth : Nat) (shape : Shape) :
    runOn s ((recorder s.setting).resolveUnder context whole depth shape) =
      s.resolveUnder context whole depth shape := by
  cases shape with
  | void => simp [resolveUnder]
  | scalar scalar => cases h : scalar.typeExpr? depth <;> simp [resolveUnder, h]
  | pointer pointee =>
    simpa [resolveUnder] using runOn_resolveUnder context whole (depth + 1) pointee
  | named name args =>
    simp only [resolveUnder]
    rw [runOn_resolveNamed, runOn_resolveAll context args]
  | param name => simp [resolveUnder]

theorem runOn_resolveAll (context : String) (shapes : List Shape) :
    runOn s ((recorder s.setting).resolveAll context shapes) = s.resolveAll context shapes := by
  cases shapes with
  | nil => simp [resolveAll]
  | cons shape shapes =>
    simp [resolveAll, runOn_resolveUnder context shape 0 shape, runOn_resolveAll context shapes]

end

theorem runOn_resolve (context : String) (shape : Shape) :
    runOn s ((recorder s.setting).resolve context shape) = s.resolve context shape :=
  runOn_resolveUnder s context shape 0 shape

theorem runOn_slot (desc : TypeDesc) (f : FieldDesc) :
    runOn s ((recorder s.setting).slot desc f) = s.slot desc f := by
  simp [slot, runOn_resolve]

theorem runOn_descriptor (desc : TypeDesc) (owner : TypeExpr) (f : FunctionDesc)
    (binding : BindingDesc) (overload : Nat) :
    runOn s ((recorder s.setting).descriptor desc owner f binding overload) =
      s.descriptor desc owner f binding overload := by
  unfold descriptor
  simp only [runOn_bind, runOn_ofExcept, runOn_resolve]
  apply bind_congr
  intro binding
  rw [runOn_mapM s fun p => ?_]
  simp [runOn_resolve]

theorem runOn_descriptors (desc : TypeDesc) (owner : TypeExpr) (earlier : List String)
    (fs : List FunctionDesc) :
    runOn s ((recorder s.setting).descriptors desc owner earlier fs) =
      s.descriptors desc owner earlier fs := by
  induction fs generalizing earlier with
  | nil => simp [descriptors]
  | cons f fs ih =>
    simp only [descriptors]
    split
    · simp [runOn_descriptor, ih]
    · exact ih earlier

theorem runOn_layOut (desc : TypeDesc) (type : TypeExpr) (slots : List Layout.Slot) :
    runOn s ((recorder s.setting).layOut desc type slots) = s.layOut desc type slots := by
  unfold layOut
  split
  · simp
  · split
    · simp
    · simp only [runOn_bind, runOn_perform, config_recorder, runOn_pure]
      rw [runOn_forM s fun union => runOn_perform s _]

theorem runOn_buildRecord (desc : TypeDesc) (type : TypeExpr) :
    runOn s ((recorder s.setting).buildRecord desc type) = s.buildRecord desc type := by
  simp only [buildRecord, runOn_bind, runOn_layOut, runOn_descriptors, runOn_ofExcept,
    runOn_perform, config_recorder]
  rw [runOn_mapM s fun f => runOn_slot s desc f]

theorem runOn_buildType (desc : TypeDesc) (type : TypeExpr) :
    runOn s ((recorder s.setting).buildType desc type) = s.buildType desc type := by
  unfold buildType
  split
  · simp [buildEnumeration]
  · exact runOn_buildRecord s desc type

theorem runOn_ensureDesc (desc : TypeDesc) :
    runOn s ((recorder s.setting).ensureDesc desc) = s.ensureDesc desc := by
  unfold ensureDesc
  rw [config_recorder]
  by_cases hCandidate : isCandidate s.config desc
  · by_cases hOpen : desc.isOpenGeneric
    · cases h : Target.ofName? s.config desc.name <;> simp [hCandidate, hOpen]
    · simp [hCandidate, hOpen, runOn_refer, runOn_resolveAll]
  · simp [hCandidate]

theorem runOn_ensureAll : runOn s (recorder s.setting).ensureAll = s.ensureAll := by
  unfold ensureAll
  rw [runOn_bind, library_recorder, runOn_mapM s fun desc => runOn_ensureDesc s desc]
  rfl

theorem runOn_ensureNamed (name : String) :
    runOn s ((recorder s.setting).ensureNamed name) = s.ensureNamed name := by
  unfold ensureNamed
  rw [library_recorder]
  cases s.library.definition? name with
  | some desc => exact runOn_ensureDesc s desc
  | none => rfl

end Host

end FixedLayout.Construction
