import FixedLayout.Enumeration
import FixedLayout.Proofs.Code.Nesting
import FixedLayout.Record

/-! Declarations at a depth. As long as none of its texts breaks a line, a declaration is nested
code, so it reads the same at every level. -/

namespace FixedLayout

open Code (Nested nested_nil_iff nested_line_iff nested_blank_iff nested_indent_iff
  nested_dedent_iff nested_block_iff)
open Text (IsLine isLine_append isLine_ofList)

/-! ### Types -/

namespace TypeExpr

/-- The segments of the path and of the paths of all arguments. -/
def segments (t : TypeExpr) : List String := t.references.flatMap (·.path)

theorem segments_none (path : List String) (indirection : Nat) (extent : Option Nat) :
    segments ⟨path, none, indirection, extent⟩ = path := by
  simp [segments, references]

theorem segments_some (path : List String) (args : List TypeExpr) (indirection : Nat)
    (extent : Option Nat) : segments ⟨path, some args, indirection, extent⟩ =
      path ++ args.flatMap segments := by
  have hArgs : referencesOfAll args = args.flatMap references := by
    induction args with
    | nil => rfl
    | cons a args ih => rw [referencesOfAll, ih, List.flatMap_cons]
  rw [segments, references, List.flatMap_cons, hArgs, List.flatMap_assoc]
  rfl

theorem segments_pointerTo (t : TypeExpr) : t.pointerTo.segments = t.segments := by
  obtain ⟨path, _ | args, _, _⟩ := t
  · exact (segments_none ..).trans (segments_none ..).symm
  · exact (segments_some ..).trans (segments_some ..).symm

theorem isLine_decorate (indirection : Nat) (extent : Option Nat) {name : String}
    (h : IsLine name) : IsLine (decorate indirection extent name) := by
  have hPointers : IsLine (String.join (List.replicate indirection "*mut ")) := by
    rw [Text.isLine_join]
    intro s hs
    rw [List.eq_of_mem_replicate hs]
    exact isLine_ofList (by decide)
  have hElement := isLine_append.mpr ⟨hPointers, h⟩
  cases extent with
  | none => exact hElement
  | some n =>
    simp only [decorate, isLine_append, hPointers, h, Text.isLine_hexUpper, and_true]
    and_intros <;> exact isLine_ofList (by decide)

mutual

theorem isLine_canonical : (t : TypeExpr) → (∀ s ∈ t.segments, IsLine s) → IsLine t.canonical
  | ⟨path, none, _, _⟩, h => by
    rw [segments_none] at h
    rw [canonical]
    exact .intercalate (by decide) h
  | ⟨path, some args, _, _⟩, h => by
    rw [segments_some, List.forall_mem_append] at h
    have hPath : IsLine ("::".intercalate path) := .intercalate (by decide) h.1
    have hArgs : IsLine (", ".intercalate (texts args)) := .intercalate (by decide) <|
      isLine_texts args fun t ht s hs => h.2 s (List.mem_flatMap.mpr ⟨t, ht, hs⟩)
    simp only [canonical, isLine_append, hPath, hArgs, true_and, and_true]
    and_intros <;> exact isLine_ofList (by decide)

theorem isLine_texts : (ts : List TypeExpr) → (∀ t ∈ ts, ∀ s ∈ t.segments, IsLine s) →
    ∀ s ∈ texts ts, IsLine s
  | [], _ => nofun
  | t :: ts, h => by
    obtain ⟨hHead, hTail⟩ := List.forall_mem_cons.mp h
    rw [texts, List.forall_mem_cons]
    exact ⟨isLine_decorate _ _ (isLine_canonical t hHead), isLine_texts ts hTail⟩

end

variable {t : TypeExpr} (h : ∀ s ∈ t.segments, IsLine s)

include h

theorem isLine_text : IsLine t.text := isLine_decorate _ _ (isLine_canonical t h)

theorem isLine_name : IsLine t.name := by
  have hPath : ∀ s ∈ t.path, IsLine s := by
    obtain ⟨path, _ | args, _, _⟩ := t
    · rwa [segments_none] at h
    · rw [segments_some] at h
      exact (List.forall_mem_append.mp h).1
  rw [TypeExpr.name]
  cases hLast : t.path.getLast? with
  | none => decide
  | some s => exact hPath s (List.mem_of_getLast? hLast)

theorem isLine_declaredName : IsLine t.declaredName := by
  refine isLine_append.mpr ⟨isLine_name h, ?_⟩
  obtain ⟨path, _ | args, _, _⟩ := t
  · rw [argumentText]
    exact isLine_ofList (by decide)
  · rw [segments_some, List.forall_mem_append] at h
    have hArgs : IsLine (", ".intercalate (args.map text)) := by
      rw [← texts_eq_map]
      exact .intercalate (by decide) <|
        isLine_texts args fun t ht s hs => h.2 s (List.mem_flatMap.mpr ⟨t, ht, hs⟩)
    simp only [argumentText, isLine_append, hArgs, and_true]
    and_intros <;> exact isLine_ofList (by decide)

end TypeExpr

/-! ### Addresses -/

theorem BytePattern.isLine_render (p : BytePattern) : IsLine p.render := by
  have hBytes : IsLine (", ".intercalate (p.bytes.map fun b => "0x" ++ Text.hexPadded 2 b.toNat)) :=
    .intercalate (by decide) <| List.forall_mem_map.mpr fun b _ =>
      isLine_append.mpr ⟨by decide, Text.isLine_hexPadded _ _⟩
  have hMask : IsLine (", ".intercalate (p.mask.map fun m => if m then "true" else "false")) :=
    .intercalate (by decide) (List.forall_mem_map.mpr fun m _ => by cases m <;> decide)
  simp only [render, typeName, isLine_append, Text.isLine_quoted, hBytes, hMask, and_true]
  and_intros <;> exact isLine_ofList (by decide)

theorem StaticAddress.isLine_render (a : StaticAddress) : IsLine a.render := by
  have hOffset : IsLine (toString a.offset) := Text.isLine_intRepr _
  have hPointer : IsLine (if a.isPointer then "true" else "false") := by
    cases a.isPointer <;> decide
  simp only [render, typeName, isLine_append, a.pattern.isLine_render, hOffset, hPointer, and_true]
  and_intros <;> exact isLine_ofList (by decide)

theorem isLine_cellDeclaration {cell : String} (h : IsLine cell) :
    IsLine (cellDeclaration cell) := by
  unfold cellDeclaration cellType
  simp only [isLine_append, h, and_true]
  and_intros <;> exact isLine_ofList (by decide)

theorem nested_cellAccessors {cell getter setter : String} (hCell : IsLine cell)
    (hGetter : IsLine getter) (hSetter : IsLine setter) (byRef : Bool) :
    Nested 0 (cellAccessors cell getter setter byRef) := by
  have hReceiver : IsLine (if byRef then "&self" else "") := by cases byRef <;> decide
  have hArgument : IsLine (if byRef then "&self, " else "") := by cases byRef <;> decide
  simp only [cellAccessors, nested_nil_iff, nested_line_iff, nested_blank_iff, nested_indent_iff,
    nested_dedent_iff, nested_block_iff, isLine_append, hCell, hGetter, hSetter, hReceiver,
    hArgument, and_true]
  and_intros <;> exact isLine_ofList (by decide)

theorem isLine_tableCell {owner : TypeExpr} (h : ∀ s ∈ owner.segments, IsLine s) :
    IsLine (tableCell owner) :=
  .ofStatic (isLine_append.mpr ⟨TypeExpr.isLine_name h, by decide⟩)

theorem nested_tableAccessors {owner : TypeExpr} (h : ∀ s ∈ owner.segments, IsLine s)
    (table : Option StaticAddress) : Nested 0 (tableAccessors owner table) := by
  have hAccessors := nested_cellAccessors (isLine_tableCell h)
    (by decide : IsLine "vtable_address") (by decide : IsLine "set_vtable_address") false
  cases table with
  | none => exact hAccessors
  | some a =>
    refine Nested.line ?_ (.blank hAccessors)
    simp only [StaticAddress.typeName, isLine_append, a.isLine_render, and_true]
    and_intros <;> exact isLine_ofList (by decide)

/-! ### Functions -/

namespace Descriptor

theorem isLine_bindingLine (d : Descriptor) : IsLine d.bindingLine := by
  unfold bindingLine
  split
  · rename_i p _
    simp only [BytePattern.typeName, isLine_append, p.isLine_render, and_true]
    and_intros <;> exact isLine_ofList (by decide)
  · rename_i index _
    have hIndex : IsLine (toString index) := Text.isLine_natRepr _
    simp only [isLine_append, hIndex, and_true]
    and_intros <;> exact isLine_ofList (by decide)
  · rename_i a _
    simp only [StaticAddress.typeName, isLine_append, a.isLine_render, and_true]
    and_intros <;> exact isLine_ofList (by decide)

theorem nested_tableResolver (d : Descriptor) : Nested 0 d.tableResolver := by
  unfold tableResolver
  split
  · simp only [nested_nil_iff, nested_line_iff, nested_blank_iff, nested_block_iff, and_true]
    and_intros <;> exact isLine_ofList (by decide)
  · exact .nil

/-- All texts of a descriptor. Addresses have none. -/
def texts (d : Descriptor) : List String :=
  [d.name, d.structName, d.accessor] ++ d.owner.segments ++ d.returns.segments
    ++ d.params.flatMap fun p => p.name :: p.type.segments

variable {d : Descriptor} (h : ∀ s ∈ d.texts, IsLine s)

include h

theorem isLine_structName : IsLine d.structName := h _ (by simp [texts])

theorem isLine_owner : ∀ s ∈ d.owner.segments, IsLine s := fun s hs => h s (by simp [texts, hs])

theorem isLine_returns : IsLine d.returns.text :=
  TypeExpr.isLine_text fun s hs => h s (by simp [texts, hs])

theorem isLine_returnText : IsLine d.returnText := by
  unfold returnText
  split
  · decide
  · exact isLine_append.mpr ⟨by decide, isLine_returns h⟩

theorem isLine_nativeParams : ∀ p ∈ d.nativeParams, IsLine p.1 ∧ IsLine p.2 := by
  have hOwner : IsLine d.owner.pointerTo.text := by
    refine TypeExpr.isLine_text ?_
    rw [TypeExpr.segments_pointerTo]
    exact isLine_owner h
  have hThis : IsLine "this" := by decide
  have hReceiver : ∀ p ∈ [("this", d.owner.pointerTo.text)], IsLine p.1 ∧ IsLine p.2 :=
    List.forall_mem_singleton.mpr ⟨hThis, hOwner⟩
  rw [nativeParams, List.forall_mem_append, List.forall_mem_map]
  constructor
  · -- only an instance function has a receiver, and none is behind an address
    intro p hp
    split at hp
    · cases hp
    · split at hp
      · cases hp
      · exact hReceiver p hp
  · intro p hp
    have hTexts : ∀ s ∈ p.name :: p.type.segments, IsLine s := fun s hs =>
      h s (List.mem_append_right _ (List.mem_flatMap.mpr ⟨p, hp, hs⟩))
    obtain ⟨hName, hType⟩ := List.forall_mem_cons.mp hTexts
    exact ⟨hName, TypeExpr.isLine_text hType⟩

theorem nested_callLines : Nested 0 d.callLines := by
  have hNames : IsLine (", ".intercalate (d.nativeParams.map (·.1))) :=
    .intercalate (by decide) (List.forall_mem_map.mpr fun p hp => (isLine_nativeParams h p hp).1)
  have hTypes : IsLine (", ".intercalate (d.nativeParams.map (·.2))) :=
    .intercalate (by decide) (List.forall_mem_map.mpr fun p hp => (isLine_nativeParams h p hp).2)
  unfold callLines
  split
  · exact .line (isLine_append.mpr ⟨by decide, isLine_returns h⟩) .nil
  · simp only [nested_nil_iff, nested_line_iff, isLine_append, isLine_returnText h, hNames, hTypes,
      and_true]
    and_intros <;> exact isLine_ofList (by decide)

theorem nested_callCode : Nested 0 d.callCode := by
  have hDeclared :
      IsLine (String.join (d.nativeParams.map fun p => ", " ++ p.1 ++ ": " ++ p.2)) := by
    rw [Text.isLine_join, List.forall_mem_map]
    intro p hp
    obtain ⟨hName, hType⟩ := isLine_nativeParams h p hp
    simp only [isLine_append, hName, hType, and_true]
    and_intros <;> exact isLine_ofList (by decide)
  simp only [callCode, List.cons_append, List.nil_append, nested_nil_iff, nested_line_iff,
    nested_indent_iff, nested_dedent_iff, nested_block_iff, isLine_append, hDeclared,
    isLine_returnText h, nested_callLines h, and_true]
  and_intros <;> exact isLine_ofList (by decide)

theorem nested_code : Nested 0 d.code := by
  have hCell : IsLine d.cell := .ofStatic (isLine_structName h)
  have hName : IsLine d.name := h _ (by simp [texts])
  have hAccessors := nested_cellAccessors hCell (by decide : IsLine "address")
    (by decide : IsLine "set_address") true
  -- after the lines that each descriptor has, the parts of more than one line
  have hMethods : Nested 0 (cellAccessors d.cell "address" "set_address" true
      ++ (d.tableResolver ++ .blank :: d.callCode)) :=
    hAccessors.append ((nested_tableResolver d).append (.blank (nested_callCode h)))
  simp only [code, List.cons_append, List.nil_append, List.append_assoc, nested_nil_iff,
    nested_line_iff, nested_blank_iff, nested_block_iff, isLine_append,
    isLine_cellDeclaration hCell, isLine_structName h, TypeExpr.isLine_name (isLine_owner h),
    hName, isLine_bindingLine, hMethods, and_true, true_and]
  and_intros <;> exact isLine_ofList (by decide)

theorem nested_accessorCode : Nested 0 d.accessorCode := by
  have hAccessor : IsLine d.accessor := h _ (by simp [texts])
  simp only [accessorCode, nested_nil_iff, nested_line_iff, nested_block_iff, isLine_append,
    hAccessor, isLine_structName h, and_true]
  and_intros <;> exact isLine_ofList (by decide)

end Descriptor

/-! ### Records -/

namespace Record

/-- All texts of a record. -/
def texts (r : Record) : List String :=
  r.type.segments ++ r.members.flatMap (fun m => m.name :: m.type.segments)
    ++ r.functions.flatMap Descriptor.texts

variable {r : Record} (h : ∀ s ∈ r.texts, IsLine s)

theorem isLine_sizeComment (r : Record) : IsLine r.sizeComment := by
  unfold sizeComment
  split
  · exact isLine_ofList (by decide)
  · simp only [isLine_append, Text.isLine_hexUpper, and_true]
    and_intros <;> exact isLine_ofList (by decide)

include h

theorem isLine_segments : ∀ s ∈ r.type.segments, IsLine s := fun s hs => h s (by simp [texts, hs])

theorem isLine_functions : ∀ d ∈ r.functions, ∀ s ∈ d.texts, IsLine s := fun d hd s hs =>
  h s (List.mem_append_right _ (List.mem_flatMap.mpr ⟨d, hd, hs⟩))

theorem isLine_memberLine : ∀ m ∈ r.members, IsLine (r.memberLine m) := by
  intro m hm
  have hTexts : ∀ s ∈ m.name :: m.type.segments, IsLine s := fun s hs =>
    h s (List.mem_append_left _ (List.mem_append_right _ (List.mem_flatMap.mpr ⟨m, hm, hs⟩)))
  obtain ⟨hName, hType⟩ := List.forall_mem_cons.mp hTexts
  have hPublic : IsLine (if m.isPublic then "pub " else "") := by cases m.isPublic <;> decide
  unfold memberLine
  simp only [isLine_append, Text.isLine_hexPadded, hPublic, hName, TypeExpr.isLine_text hType,
    and_true]
  and_intros <;> exact isLine_ofList (by decide)

theorem nested_itemCode : Nested 0 r.itemCode := by
  have hKind : IsLine (if r.isUnion then "union" else "struct") := by cases r.isUnion <;> decide
  have hDeclared := TypeExpr.isLine_declaredName (isLine_segments h)
  by_cases hBlob : r.form = .blob
  · simp only [itemCode, hBlob, if_true, nested_nil_iff, nested_line_iff, isLine_append, hKind,
      hDeclared, Text.isLine_hexUpper, isLine_sizeComment, and_true]
    and_intros <;> exact isLine_ofList (by decide)
  by_cases hEmpty : r.members.isEmpty
  · simp only [itemCode, hBlob, hEmpty, if_false, if_true, nested_nil_iff, nested_line_iff,
      isLine_append, hKind, hDeclared, isLine_sizeComment, and_true]
    and_intros <;> exact isLine_ofList (by decide)
  · -- the members stand between an indent and its dedent
    have hMembers : Nested (0 + 1)
        (r.members.map (fun m => .line (r.memberLine m)) ++ [.dedent, .line "\x7d"]) :=
      Nat.zero_add _ ▸ (Code.nested_lines (isLine_memberLine h)).append
        (.dedent (.line (by decide : IsLine "\x7d") .nil))
    simp only [itemCode, hBlob, hEmpty, Bool.false_eq_true, if_false, List.cons_append,
      List.nil_append, nested_line_iff, nested_indent_iff, isLine_append, hKind, hDeclared,
      isLine_sizeComment, hMembers, and_true]
    and_intros <;> exact isLine_ofList (by decide)

theorem nested_accessorsCode : Nested 0 r.accessorsCode := by
  have hAll : ∀ d ∈ r.functions, Nested 0 d.accessorCode := fun d hd =>
    Descriptor.nested_accessorCode (isLine_functions h d hd)
  unfold accessorsCode
  split
  · exact (nested_tableAccessors (isLine_segments h) r.table).append
      (Code.nested_flatMap fun d hd => .blank (hAll d hd))
  · split
    · exact .nil
    · rename_i d ds hFunctions
      rw [hFunctions, List.forall_mem_cons] at hAll
      exact hAll.1.append (Code.nested_flatMap fun d hd => .blank (hAll.2 d hd))

theorem nested_methodsCode : Nested 0 r.methodsCode := by
  have hName := TypeExpr.isLine_name (isLine_segments h)
  unfold methodsCode
  split
  · exact .nil
  · have hBlock : Nested 0 [.blank, .block ("impl " ++ r.type.name) r.accessorsCode] :=
      .blank (.block (isLine_append.mpr ⟨by decide, hName⟩) (nested_accessorsCode h) .nil)
    split
    · exact .blank (.line (isLine_cellDeclaration (isLine_tableCell (isLine_segments h))) hBlock)
    · exact hBlock

theorem nested_code (derive : Derive) : Nested 0 (r.code derive) := by
  have hRepr : Nested 0 [.line "#[repr(C)]"] := .line (isLine_ofList (by decide)) .nil
  have hDerive : Nested 0 (derive.attribute?.toList.map .line) := by
    cases derive with
    | copy => exact .line (isLine_ofList (by decide)) .nil
    | clone => exact .line (isLine_ofList (by decide)) .nil
    | nothing => exact .nil
  have hFunctions : Nested 0 (r.functions.flatMap fun d => .blank :: d.code) :=
    Code.nested_flatMap fun d hd => .blank (Descriptor.nested_code (isLine_functions h d hd))
  exact (((hRepr.append hDerive).append (nested_itemCode h)).append
    (nested_methodsCode h)).append hFunctions

end Record

/-! ### Enumerations -/

/-- The texts that a fault names. -/
def EnumFault.texts : EnumFault → List String
  | .repeatedName name | .outOfRange _ name _ => [name]
  | .notInteger _ | .unlisted => []

namespace Enumeration

/-- All texts of an enumeration. -/
def texts (e : Enumeration) : List String :=
  e.type.segments ++
    match e.body with
    | .ok vs => vs.variants.map Variant.name ++ vs.aliases.flatMap fun a => [a.name, a.target]
    | .error fault => fault.texts

theorem isLine_label (width : Scalar) : IsLine width.label := by cases width <;> decide

theorem isLine_reprName (width : Scalar) : IsLine (width.reprName?.getD "C") := by
  cases width <;> decide

theorem isLine_reason {fault : EnumFault} (h : ∀ s ∈ fault.texts, IsLine s) :
    IsLine fault.reason := by
  unfold EnumFault.reason
  split
  · exact isLine_append.mpr ⟨isLine_ofList (by decide), isLine_label _⟩
  · exact isLine_ofList (by decide)
  · rename_i name
    have hName : IsLine name := h name (by simp [EnumFault.texts])
    exact isLine_append.mpr ⟨isLine_ofList (by decide), hName⟩
  · rename_i value name width
    have hValue : IsLine (toString value) := Text.isLine_intRepr _
    have hName : IsLine name := h name (by simp [EnumFault.texts])
    simp only [isLine_append, hValue, hName, isLine_label, and_true]
    and_intros <;> exact isLine_ofList (by decide)

theorem nested_aliasCode {name : String} (hName : IsLine name) {aliases : List Alias}
    (h : ∀ a ∈ aliases, IsLine a.name ∧ IsLine a.target) : Nested 0 (aliasCode name aliases) := by
  unfold aliasCode
  split
  · exact .nil
  · have hLines : ∀ a ∈ aliases,
        IsLine ("pub const " ++ a.name ++ ": " ++ name ++ " = " ++ name ++ "::" ++ a.target ++ ";") := by
      intro a ha
      simp only [isLine_append, h a ha, hName, and_true]
      and_intros <;> exact isLine_ofList (by decide)
    simp only [nested_nil_iff, nested_line_iff, nested_blank_iff, nested_block_iff, isLine_append,
      hName, Code.nested_lines hLines, and_true]
    and_intros <;> exact isLine_ofList (by decide)

theorem nested_code {e : Enumeration} (h : ∀ s ∈ e.texts, IsLine s) : Nested 0 e.code := by
  obtain ⟨type, width, body⟩ := e
  obtain ⟨hType, hBody⟩ := List.forall_mem_append.mp h
  have hName : IsLine type.name := TypeExpr.isLine_name hType
  cases body with
  | error fault =>
    simp only [code, nested_nil_iff, nested_line_iff, nested_block_iff, isLine_append,
      isLine_reprName, hName, isLine_reason hBody, and_true]
    and_intros <;> exact isLine_ofList (by decide)
  | ok vs =>
    obtain ⟨hVariants, hAliases⟩ := List.forall_mem_append.mp hBody
    have hLines : ∀ v ∈ vs.variants, IsLine (v.name ++ " = " ++ toString v.value ++ ",") := by
      intro v hv
      have hValue : IsLine (toString v.value) := Text.isLine_intRepr _
      simp only [isLine_append, hVariants _ (List.mem_map_of_mem hv), hValue, and_true,
        true_and]
      and_intros <;> exact isLine_ofList (by decide)
    have hAliasCode : Nested 0 (aliasCode type.name vs.aliases) := by
      refine nested_aliasCode hName fun a ha => ?_
      have hTexts : ∀ s ∈ [a.name, a.target], IsLine s := fun s hs =>
        hAliases s (List.mem_flatMap.mpr ⟨a, ha, hs⟩)
      exact ⟨hTexts _ (by simp), hTexts _ (by simp)⟩
    simp only [code, List.cons_append, List.nil_append, nested_line_iff, nested_block_iff,
      isLine_append, isLine_reprName, hName, Code.nested_lines hLines, hAliasCode, and_true]
    and_intros <;> exact isLine_ofList (by decide)

end Enumeration

/-! ### Writing a declaration -/

namespace Writer

/-- A struct or union, an enumeration and a descriptor are written at every level as they are at the
outermost level, behind the margin of the level, and leave the writer at the level. -/
theorem run_declaration (w : Writer) :
    (∀ (r : Record) (derive : Derive), (∀ s ∈ r.texts, IsLine s) →
      w.run (r.code derive) = w.insert ((r.code derive).render w.width)) ∧
    (∀ e : Enumeration, (∀ s ∈ e.texts, IsLine s) →
      w.run e.code = w.insert (e.code.render w.width)) ∧
    ∀ d : Descriptor, (∀ s ∈ d.texts, IsLine s) →
      w.run d.code = w.insert (d.code.render w.width) :=
  ⟨fun _ derive h => w.run_nested (Record.nested_code h derive),
    fun _ h => w.run_nested (Enumeration.nested_code h),
    fun _ h => w.run_nested (Descriptor.nested_code h)⟩

/-- Two levels deep: a struct with a virtual function, an enumeration with an alias, and the
descriptor of the function. -/
theorem run_declaration_twoDeep :
    let w : Writer := ⟨4, 2, ""⟩
    let owner := TypeExpr.inModule ["game"] "Actor"
    let d : Descriptor := ⟨owner, "Tick", "Actor_Fn_Tick", "tick", .slot 3,
      [⟨"delta", .ofPath ["f32"]⟩], .ofPath ["()"], false⟩
    let r : Record :=
      { type := owner, size := 16, form := .struct, functions := [d]
        members := [.gap 0 8, ⟨"id", .ofPath ["u32"], 8, 4, .field⟩, .gap 12 4] }
    let e : Enumeration :=
      ⟨.inModule ["game"] "Mode", .byte, .ok ⟨[⟨"Off", 0⟩, ⟨"On", 1⟩], [⟨"Idle", "Off"⟩]⟩⟩
    ((∀ s ∈ r.texts, IsLine s) ∧ w.run (r.code .copy) = w.insert ((r.code .copy).render 4)) ∧
      ((∀ s ∈ e.texts, IsLine s) ∧ w.run e.code = w.insert (e.code.render 4)) ∧
      ((∀ s ∈ d.texts, IsLine s) ∧ w.run d.code = w.insert (d.code.render 4)) := by
  intro w owner d r e
  have hDescriptor : ∀ s ∈ d.texts, IsLine s := by decide
  have hRecord : ∀ s ∈ r.texts, IsLine s := by decide
  have hEnumeration : ∀ s ∈ e.texts, IsLine s := by decide
  exact ⟨⟨hRecord, (run_declaration w).1 r .copy hRecord⟩,
    ⟨hEnumeration, (run_declaration w).2.1 e hEnumeration⟩,
    ⟨hDescriptor, (run_declaration w).2.2 d hDescriptor⟩⟩

end Writer

end FixedLayout
