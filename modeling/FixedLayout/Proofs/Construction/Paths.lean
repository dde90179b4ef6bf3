import FixedLayout.Proofs.Construction.Declares
import FixedLayout.Proofs.Layout.Types

/-! The paths of the types that fields have: built-in names, places in the generated crate and in
the runtime crate, and the targets of provided types. Nothing else gives a type its path. -/

namespace FixedLayout.Construction

open Script

/-- Where the path of a type comes from. -/
inductive Setting.Path (setting : Setting) : List String → Prop
  | builtin (path : List String) (h : Primitive.ofType (.ofPath path) ∈ Primitive.builtin) :
      Path setting path
  | target (target : Target) : Path setting target.type.path
  | external {external : External} {t : TypeExpr} (hMem : external ∈ setting.config.externals)
      (hTarget : TypeExpr.parse external.target = .ok t) : Path setting t.path

variable {setting : Setting}

/-- Only a provided type can be a wrapper against dropping. -/
theorem Setting.Path.exists_external (h : setting.Path TypeExpr.manuallyDropPath) :
    ∃ external ∈ setting.config.externals, ∃ t, TypeExpr.parse external.target = .ok t ∧
      t.isManuallyDrop = true := by
  generalize hPath : TypeExpr.manuallyDropPath = path at h
  cases h with
  | builtin path hBuiltin =>
    rw [← hPath] at hBuiltin
    exact absurd hBuiltin (by decide)
  | target target =>
    have hRoot : some TypeExpr.stdRoot = some TypeExpr.crateRoot :=
      congrArg List.head? hPath
    exact absurd hRoot (by decide)
  | external hMem hTarget => exact ⟨_, hMem, _, hTarget, by simp [TypeExpr.isManuallyDrop, hPath]⟩

theorem Setting.path_bytesType (size : Nat) : setting.Path (Member.bytesType size).path := by
  unfold Member.bytesType
  split <;> exact .builtin ["u8"] (by decide)

namespace Host

section Named

variable (context name : String) (args : List Shape) (argTypes : Script (List TypeExpr))

theorem path_refer : Answers (fun _ type => setting.Path type.path)
    ((recorder setting).refer context name args argTypes) := by
  have hTypes : Answers (fun _ _ => True) argTypes := fun _ _ => trivial
  unfold refer
  cases hExternal : (recorder setting).config.external? name with
  | some external =>
    have hMem : external ∈ setting.config.externals := List.mem_of_find?_eq_some hExternal
    exact answers_ofExcept fun type hType => .external hMem hType
  | none =>
    cases Target.ofName? (recorder setting).config name with
    | none => exact answers_throw _
    | some target =>
      dsimp only
      split
      · unfold referExported
        split
        · split
          · exact answers_throw _
          · exact answers_perform (answers_pure (.target target))
        · refine hTypes.bind fun _ types _ => ?_
          split
          · exact answers_perform (answers_perform (answers_pure
              (.target (target.instantiate types))))
          · split
            · exact answers_throw _
            · dsimp only
              split
              · exact answers_throw _
              · split
                · exact answers_perform (answers_pure (.target target))
                · exact answers_pure (.target target)
      · have hEnd : ∀ type : TypeExpr, setting.Path type.path →
            Answers (fun _ type => setting.Path type.path) (do
              (recorder setting).perform (.primitive (.ofType type.erased))
              pure type) := fun type hPath => answers_perform (answers_pure hPath)
        unfold referForeign
        split
        · exact hEnd target.type (.target target)
        · exact hTypes.bind fun _ types _ =>
            hEnd (target.type.withArguments types) (.target target)

theorem path_resolveNamed
    (hTypes : Answers (fun _ types => ∀ type ∈ types, setting.Path type.path) argTypes)
    (depth : Nat) : Answers (fun _ resolved => setting.Path resolved.type.path)
      ((recorder setting).resolveNamed context name depth args argTypes) := by
  unfold resolveNamed
  split
  · unfold resolveWrapper
    split
    · exact answers_throw _
    · refine hTypes.bind fun _ types hAll => ?_
      split
      · rename_i pointee
        split
        · exact answers_throw _
        · exact answers_pure (hAll pointee (by simp))
      · exact answers_throw _
  · split
    · split
      · exact answers_pure (.builtin Primitive.untyped.path (by decide))
      · exact answers_throw _
    · refine (path_refer context name args argTypes).bind fun _ type hType => ?_
      split
      · exact answers_pure hType
      · refine (answers_ofExcept (P := fun _ _ => True) fun _ _ => trivial).bind
          fun _ size _ => ?_
        exact answers_pure hType

end Named

mutual

theorem path_resolveUnder (context : String) (whole : Shape) (depth : Nat) (shape : Shape) :
    Answers (fun _ resolved => setting.Path resolved.type.path)
      ((recorder setting).resolveUnder context whole depth shape) := by
  cases shape with
  | void =>
    refine answers_pure ?_
    dsimp only
    unfold Primitive.void
    split
    · exact .builtin ["()"] (by decide)
    · exact .builtin Primitive.untyped.path (by decide)
  | scalar scalar =>
    simp only [resolveUnder]
    cases hType : scalar.typeExpr? depth with
    | none => exact answers_throw _
    | some type =>
      obtain ⟨-, rfl⟩ := Scalar.typeExpr?_eq_some_iff.mp hType
      refine answers_pure (.builtin scalar.primitive.path ?_)
      cases scalar <;> decide
  | pointer pointee => exact path_resolveUnder context whole (depth + 1) pointee
  | named name args =>
    exact path_resolveNamed context name args _ (path_resolveAll context args) depth
  | param name => exact answers_throw _

theorem path_resolveAll (context : String) (shapes : List Shape) :
    Answers (fun _ types => ∀ type ∈ types, setting.Path type.path)
      ((recorder setting).resolveAll context shapes) := by
  cases shapes with
  | nil => exact answers_pure (by simp)
  | cons shape shapes =>
    refine (path_resolveUnder context shape 0 shape).bind fun _ resolved hHead => ?_
    refine (path_resolveAll context shapes).bind fun _ types hRest => answers_pure ?_
    exact List.forall_mem_cons.mpr ⟨hHead, hRest⟩

end

theorem path_slot (desc : TypeDesc) (f : FieldDesc) :
    Answers (fun _ slot => setting.Path slot.type.path) ((recorder setting).slot desc f) := by
  refine (path_resolveUnder _ _ 0 f.shape).bind fun _ element hElement => ?_
  refine answers_ofExcept fun slot hSlot => ?_
  have hPath : slot.type.path = element.type.path := by
    rcases (Setting.slotOf_cases hSlot).2 with ⟨-, hType, -⟩ | ⟨_, -, hType, -⟩
    · rw [hType]
    · rw [hType]
      rfl
  exact hPath ▸ hElement

end Host

theorem Setting.path_of_slots? {desc : TypeDesc} {slots : List Layout.Slot}
    (h : setting.slots? desc = some slots) : ∀ s ∈ slots, setting.Path s.type.path := by
  intro s hs
  obtain ⟨f, -, hSlot⟩ := exists_of_mem_mapM (ok_of_toOption h) hs
  exact Host.path_slot desc f s hSlot

/-- The members of a union have the types of fields, or bytes. -/
theorem Setting.Declares.path_of_union {desc : TypeDesc} {type : TypeExpr} {r : Record}
    (h : setting.Declares desc type (.record r)) (hUnion : r.isUnion = true) :
    ∀ m ∈ r.members, setting.Path m.type.path := by
  have hForm : r.form = .union := by simpa [Record.isUnion] using hUnion
  cases h with
  | own hOwn =>
    rcases declaration?_cases hOwn with
      ⟨-, hEq⟩ | ⟨slots, record, functions, table, hSlots, hRecord, -, hEq⟩
    · cases hEq
    · cases hEq
      rcases Host.layOut_ok hRecord with rfl | rfl | rfl
      · cases hForm
      · exact Layout.types_unionOf (P := fun t => setting.Path t.path) path_bytesType
          (path_of_slots? hSlots) type desc.size
      · cases hForm
  | union _ hSlots hMem =>
    exact (Layout.uses_reconstruct (P := fun t => setting.Path t.path) path_bytesType
      (path_of_slots? hSlots) setting.config type desc.size).2 r hMem

end FixedLayout.Construction
