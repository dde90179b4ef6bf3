import FixedLayout.Proofs.Construction.Owners
import FixedLayout.Proofs.Export.Located
import FixedLayout.Proofs.Items

/-! The wiring of an export. The module that resolves addresses and the code of the declarations are
written apart, so it takes a proof that they fit: each descriptor and each known virtual table has
one entry, and all items that the entries refer to are there. -/

namespace FixedLayout

open Code Construction

/-- A constant or a function of a type in the generated crate. -/
structure Item where
  modules : List String
  type : String
  name : String

namespace Item

/-- The path of the type, from the root of the crate. -/
def typePath (i : Item) : String := "::".intercalate ("crate" :: i.modules ++ [i.type])

def path (i : Item) : String := i.typePath ++ "::" ++ i.name

/-- The item as a method of the type's only value. -/
def method (i : Item) : String := i.typePath ++ "." ++ i.name

end Item

/-- An entry of the wiring and the items that it refers to. -/
structure Link where
  entry : Code.Step
  items : List Item

/-- The resolver finds what a constant describes; the address goes to a setter. -/
def Link.ofConstant (constant setter : Item) (call : String) : Link :=
  ⟨Wiring.entry ("address) = resolver(&" ++ constant.path ++ ")") (call ++ "(address)"),
    [constant, setter]⟩

namespace Record

/-- An item of the record itself. -/
def item (r : Record) (name : String) : Item := ⟨r.type.modulePath, r.type.name, name⟩

/-- An item of a descriptor of the record. -/
def itemOf (r : Record) (d : Descriptor) (name : String) : Item :=
  ⟨r.type.modulePath, d.structName, name⟩

/-- What resolves the virtual table of a record. -/
def tableLink (r : Record) : Link :=
  .ofConstant (r.item "VTABLE_SIGNATURE") (r.item "set_vtable_address")
    (r.item "set_vtable_address").path

/-- What resolves a function of a record. -/
def functionLink (r : Record) (d : Descriptor) : Link :=
  match d.binding with
  | .pattern _ =>
    .ofConstant (r.itemOf d "SIGNATURE") (r.itemOf d "set_address")
      (r.itemOf d "set_address").method
  | .address _ =>
    .ofConstant (r.itemOf d "STATIC_ADDRESS") (r.itemOf d "set_address")
      (r.itemOf d "set_address").method
  | .slot _ =>
    ⟨Wiring.entry ("vtable) = " ++ (r.item "vtable_address").path ++ "()")
        ((r.itemOf d "resolve_from_vtable").method ++ "(vtable)"),
      [r.item "vtable_address", r.itemOf d "resolve_from_vtable"]⟩

end Record

/-- The function that resolves virtual tables. -/
def tableResolver : String := "pub fn resolve_vtables(resolver: StaticAddressResolver) -> usize"

/-- The function that resolves what is bound so. -/
def Binding.resolver : Binding → String
  | .pattern _ => "pub fn resolve_member_functions(resolver: SignatureResolver) -> usize"
  | .address _ => "pub fn resolve_static_addresses(resolver: StaticAddressResolver) -> usize"
  | .slot _ => "pub unsafe fn resolve_virtual_functions() -> usize"

/-- The entries for the functions of a record that the given function resolves. -/
def Record.entriesIn (r : Record) (resolver : String) : Code :=
  (r.functions.filter fun d => d.binding.resolver = resolver).map fun d => (r.functionLink d).entry

/-- The body of a function that counts what its entries resolve. -/
def counted (entries : Code) : Code :=
  .line "let mut resolved = 0;" :: entries ++ [.line "resolved"]

namespace Export

open Construction

/-- The record's own code offers the item, and it stands in the module that the item's path
names. -/
def Holds (e : Export) (config : Config) (r : Record) (item : Item) : Prop :=
  Offers item.type item.name (declarationCode e.registry e.taint config r.key) ∧
    ∃ around ∈ modulesAt item.modules (e.code config),
      declarationCode e.registry e.taint config r.key <:+: around

/-- How the body of the resolution module wires the records of an export, listed as `owners`. -/
structure Wires (e : Export) (config : Config) (owners : List Record) (body : Code) : Prop where
  code : (wiring e.registry).code = [.block "pub mod resolution" body]
  written : .block "pub mod resolution" body ∈ e.code config
  /-- All records are listed, each once, by their keys. -/
  owners_perm : owners.Perm e.registry.records
  sorted : owners.Pairwise fun a b => a.key < b.key
  /-- Every known virtual table has one entry. -/
  tables : bodies tableResolver body =
    [counted ((owners.filter (·.table.isSome)).map (·.tableLink.entry))]
  distinct : ((owners.filter (·.table.isSome)).map (·.tableLink.entry)).Nodup
  /-- Every function has one entry, where its binding belongs. -/
  functions : ∀ binding : Binding, bodies binding.resolver body =
    [counted (owners.flatMap (·.entriesIn binding.resolver))]
  /-- Everything that an entry refers to is there. -/
  tableItems : ∀ r ∈ owners, r.table.isSome = true → ∀ item ∈ r.tableLink.items,
    e.Holds config r item
  functionItems : ∀ r ∈ owners, ∀ d ∈ r.functions, ∀ item ∈ (r.functionLink d).items,
    e.Holds config r item
  values : ∀ r ∈ owners, ∀ d ∈ r.functions,
    .line ("pub struct " ++ d.structName ++ ";") ∈
      declarationCode e.registry e.taint config r.key

end Export

/-! ### The entries -/

/-- The entry for a descriptor among those for a binding. -/
def Binding.entryOf? : Binding → Descriptor → Option Code.Step
  | .pattern _ => Wiring.patternEntry?
  | .address _ => Wiring.addressEntry?
  | .slot _ => Wiring.slotEntry?

/-- A descriptor has its entry where its binding belongs, and nowhere else. -/
theorem Binding.entryOf?_eq (binding : Binding) (d : Descriptor) : binding.entryOf? d =
    if d.binding.resolver = binding.resolver then d.binding.entryOf? d else none := by
  cases hOwn : d.binding <;> cases binding <;>
    simp [entryOf?, Wiring.patternEntry?, Wiring.addressEntry?, Wiring.slotEntry?, resolver, hOwn]

theorem bodies_counting (header resolver : String) (entries : Code) :
    bodies header (Wiring.counting resolver entries) =
      if resolver = header then [counted entries] else [] := by
  by_cases h : resolver = header <;> simp [bodies, Wiring.counting, counted, h]

/-- The resolution module has one function for virtual tables and one for each kind of binding. -/
theorem Wiring.exists_body (w : Wiring) : ∃ body, w.code = [.block "pub mod resolution" body] ∧
    bodies tableResolver body = [counted (w.tables.map tableEntry)] ∧
    ∀ binding : Binding, bodies binding.resolver body =
      [counted (w.functions.filterMap binding.entryOf?)] := by
  refine ⟨_, rfl, ?_, fun binding => ?_⟩
  · simp only [bodies_append, bodies_counting, tableResolver]
    simp [bodies, typesCode]
  · cases binding
    all_goals
      simp only [bodies_append, bodies_counting, Binding.resolver]
      simp [bodies, typesCode, Binding.entryOf?]

namespace Record

variable {r : Record}

theorem typePath_item (h : r.IsOwner) (name : String) : (r.item name).typePath = r.type.text := by
  rw [h.path, TypeExpr.text_inModule]
  rfl

theorem typePath_itemOf (h : r.IsOwner) {d : Descriptor} (hMem : d ∈ r.functions) (name : String) :
    (r.itemOf d name).typePath = d.type.text := by
  rw [Descriptor.type, TypeExpr.text_inModule, h.owns d hMem]
  rfl

theorem tableEntry_eq (h : r.IsOwner) : Wiring.tableEntry r.type = r.tableLink.entry := by
  simp only [Wiring.tableEntry, tableLink, Link.ofConstant, Item.path, typePath_item h,
    String.append_assoc]
  rfl

theorem entryOf?_own (h : r.IsOwner) {d : Descriptor} (hMem : d ∈ r.functions) :
    d.binding.entryOf? d = some (r.functionLink d).entry := by
  cases hBinding : d.binding with
  | pattern =>
    simp only [Binding.entryOf?, Wiring.patternEntry?, functionLink, hBinding, Link.ofConstant,
      Item.path, Item.method, typePath_itemOf h hMem, String.append_assoc]
    rfl
  | address =>
    simp only [Binding.entryOf?, Wiring.addressEntry?, functionLink, hBinding, Link.ofConstant,
      Item.path, Item.method, typePath_itemOf h hMem, String.append_assoc]
    rfl
  | slot =>
    simp only [Binding.entryOf?, Wiring.slotEntry?, functionLink, hBinding, Item.path, Item.method,
      typePath_item h, typePath_itemOf h hMem, h.owns d hMem, String.append_assoc]
    rfl

theorem filterMap_functions (h : r.functions ≠ [] → r.IsOwner) (binding : Binding) :
    r.functions.filterMap binding.entryOf? = r.entriesIn binding.resolver := by
  rw [entriesIn, ← List.filterMap_eq_map, List.filterMap_filter]
  refine List.filterMap_congr fun d hd => ?_
  rw [Binding.entryOf?_eq, entryOf?_own (h (List.ne_nil_of_mem hd)) hd]
  simp

/-- Records with known virtual tables have different entries unless they have one key. -/
theorem key_eq_of_entry_eq {r' : Record} (h : r.IsOwner) (h' : r'.IsOwner)
    (hEntry : r.tableLink.entry = r'.tableLink.entry) : r.key = r'.key := by
  have hKey : ∀ {r : Record}, r.IsOwner → r.key = (r.item "VTABLE_SIGNATURE").typePath := by
    intro r h
    rw [Setting.key_of_plain (by rw [h.path]; rfl), typePath_item h, h.path,
      TypeExpr.canonical_inModule, TypeExpr.text_inModule]
  simp only [tableLink, Link.ofConstant, Wiring.entry, Item.path, Code.Step.block.injEq,
    String.append_right_inj, String.append_left_inj] at hEntry
  rw [hKey h, hKey h']
  exact (String.append_left_inj _).mp ((String.append_left_inj _).mp hEntry.1)

end Record

/-! ### The items -/

namespace Record

variable {r : Record} (derive : Derive)

theorem offers_tableLink (h : r.table.isSome = true) : ∀ item ∈ r.tableLink.items,
    item.modules = r.type.modulePath ∧ Offers item.type item.name (r.code derive) := by
  obtain ⟨a, hTable⟩ := Option.isSome_iff_exists.mp h
  have hCell : r.hasTableCell = true := by
    rw [hasTableCell, h]
    rfl
  have hSignature : Declares "VTABLE_SIGNATURE" (tableAccessors r.type r.table) := by
    rw [hTable]
    exact declares_vtableSignature r.type a
  rintro item (_ | ⟨_, _ | ⟨_, hNone⟩⟩)
  · exact ⟨rfl, offers_of_tableAccessors derive hCell hSignature⟩
  · exact ⟨rfl, offers_of_tableAccessors derive hCell (declares_setVtableAddress ..)⟩
  · cases hNone

theorem offers_functionLink {d : Descriptor} (hMem : d ∈ r.functions) :
    ∀ item ∈ (r.functionLink d).items,
      item.modules = r.type.modulePath ∧ Offers item.type item.name (r.code derive) := by
  have hOwn : ∀ {name : String}, Declares name d.methods →
      Offers d.structName name (r.code derive) := fun h => offers_of_descriptor derive hMem h
  cases hBinding : d.binding with
  | pattern p =>
    rw [functionLink, hBinding]
    rintro item (_ | ⟨_, _ | ⟨_, hNone⟩⟩)
    · exact ⟨rfl, hOwn (Descriptor.declares_signature hBinding)⟩
    · exact ⟨rfl, hOwn d.declares_setAddress⟩
    · cases hNone
  | address a =>
    rw [functionLink, hBinding]
    rintro item (_ | ⟨_, _ | ⟨_, hNone⟩⟩)
    · exact ⟨rfl, hOwn (Descriptor.declares_staticAddress hBinding)⟩
    · exact ⟨rfl, hOwn d.declares_setAddress⟩
    · cases hNone
  | slot index =>
    have hCell := hasTableCell_of_slot hMem hBinding
    rw [functionLink, hBinding]
    rintro item (_ | ⟨_, _ | ⟨_, hNone⟩⟩)
    · exact ⟨rfl, offers_of_tableAccessors derive hCell (declares_vtableAddress ..)⟩
    · exact ⟨rfl, hOwn (Descriptor.declares_resolveFromTable hBinding)⟩
    · cases hNone

end Record

namespace Export

variable {setting : Setting} {s : Session} {e : Export}

theorem Agrees.exists_code (h : e.Agrees) (config : Config) {r : Record}
    (hMem : r ∈ e.registry.records) :
    ∃ derive, declarationCode e.registry e.taint config r.key = r.code derive := by
  obtain ⟨key, hEntry⟩ := Registry.mem_records.mp hMem
  obtain rfl := h.own key _ hEntry
  refine ⟨r.derive (e.taint.contains r.key) (config.suppressesDerive r.key), ?_⟩
  rw [declarationCode, show e.registry.get? r.key = some (.record r) from
    Registry.get?_of_mem h.keys hEntry]

/-- What the code of a record offers is held under the modules of the record. -/
theorem Agrees.holds (h : e.Agrees) (config : Config) {r : Record}
    (hMem : r ∈ e.registry.records) {item : Item}
    (hItem : ∀ derive, item.modules = r.type.modulePath ∧
      Offers item.type item.name (r.code derive)) : e.Holds config r item := by
  obtain ⟨derive, hCode⟩ := h.exists_code config hMem
  obtain ⟨hModules, hOffers⟩ := hItem derive
  obtain ⟨key, hEntry⟩ := Registry.mem_records.mp hMem
  have hEmitted : .record r ∈ e.registry.emitted := Registry.mem_emitted.mpr ⟨⟨key, hEntry⟩, rfl⟩
  refine ⟨hCode ▸ hOffers, ?_⟩
  rw [hModules]
  exact h.exists_module config hEmitted

theorem FromSession.isOwner (h : FromSession setting s e) {r : Record}
    (hMem : r ∈ e.registry.records) (hCalls : r.table.isSome = true ∨ r.functions ≠ []) :
    r.IsOwner := by
  obtain ⟨key, r', hEntry, rfl⟩ := h.exists_entry hMem
  rw [Taint.table_wrapRecord, Taint.functions_wrapRecord] at hCalls
  obtain ⟨hPath, hOwns⟩ := h.built.isOwner hEntry hCalls
  constructor
  · rwa [Taint.type_wrapRecord]
  · rwa [Taint.functions_wrapRecord, Taint.type_wrapRecord]

/-- Every export wires each of its functions and known virtual tables once, in the order of the keys
of their owners, and only by what is there. -/
theorem wires_build {library : Library} {config : Config} (h : build library config = .ok e) :
    ∃ owners body, e.Wires config owners body := by
  obtain ⟨-, s, hSession⟩ := exists_session h
  have hAgrees := agrees_of_build h
  obtain ⟨body, hCode, hTables, hFunctions⟩ := (wiring e.registry).exists_body
  have hMem : ∀ r ∈ e.registry.sortedRecords, r ∈ e.registry.records := fun r hr =>
    e.registry.sortedRecords_perm.mem_iff.mp hr
  have hOwner : ∀ r ∈ e.registry.sortedRecords.filter (·.table.isSome), r.IsOwner := by
    intro r hr
    obtain ⟨hr, hTable⟩ := List.mem_filter.mp hr
    exact hSession.isOwner (hMem r hr) (.inl hTable)
  have hSorted : e.registry.sortedRecords.Pairwise fun a b => a.key < b.key :=
    Registry.pairwise_lt_sortedRecords (Registry.nodup_records hAgrees.keys hAgrees.own)
  refine ⟨e.registry.sortedRecords, body, ?_⟩
  constructor
  case code => exact hCode
  case written =>
    have hInfix := hAgrees.infix_wiring config
    rw [hCode] at hInfix
    exact hInfix.subset (List.mem_singleton_self _)
  case owners_perm => exact e.registry.sortedRecords_perm
  case sorted => exact hSorted
  case tables =>
    rw [hTables]
    show [counted (((e.registry.sortedRecords.filter _).map _).map _)] = _
    rw [List.map_map]
    exact congrArg (fun entries => [counted entries])
      (List.map_congr_left fun r hr => Record.tableEntry_eq (hOwner r hr))
  case distinct =>
    refine List.pairwise_map.mpr ((hSorted.filter _).imp_of_mem ?_)
    intro r r' hr hr' hLess hSame
    have hKey := Record.key_eq_of_entry_eq (hOwner r hr) (hOwner r' hr') hSame
    exact absurd hLess (hKey ▸ String.lt_irrefl _)
  case functions =>
    intro binding
    rw [hFunctions binding]
    show [counted ((e.registry.sortedRecords.flatMap _).filterMap _)] = _
    rw [List.filterMap_flatMap]
    refine congrArg (fun entries => [counted entries]) (List.flatMap_congr fun r hr => ?_)
    exact Record.filterMap_functions
      (fun hSome => hSession.isOwner (hMem r hr) (.inr hSome)) binding
  case tableItems =>
    exact fun r hr hTable item hItem => hAgrees.holds config (hMem r hr) fun derive =>
      Record.offers_tableLink derive hTable item hItem
  case functionItems =>
    exact fun r hr d hd item hItem => hAgrees.holds config (hMem r hr) fun derive =>
      Record.offers_functionLink derive hd item hItem
  case values =>
    intro r hr d hd
    obtain ⟨derive, hDeclared⟩ := hAgrees.exists_code config (hMem r hr)
    rw [hDeclared]
    exact Record.code_descriptor_subset derive hd d.struct_mem_code

/-- A struct at the root of the crate with a function for each kind of binding. -/
def door : Library := .ofTypes [
  { TypeDesc.ofFields "App.Door" 8 [] with
    functions := [
      { name := "Open", binding := some (.member "48 8B ?? 05") },
      { name := "Close", binding := some (.virtual 2) },
      { name := "Get", returns := .pointer (.named "App.Door" []), isStatic := true
        binding := some (.address { signature := "E8 ?? 01" }) }]
    table := some { signature := "48 8D 05" } }]

theorem wires_build_door : ∃ e, build door (.forNamespace "App" []) = .ok e ∧
    e.registry.records.map (fun r => (r.type.text, r.table.isSome,
      r.functions.map (·.type.text))) = [("crate::Door", true,
        ["crate::Door_Fn_Open", "crate::Door_Fn_Close", "crate::Door_Fn_Get"])] ∧
    ∃ owners body, e.Wires (.forNamespace "App" []) owners body := by
  have hBuild : ((build door (.forNamespace "App" [])).toOption.map fun e =>
      e.registry.records.map fun r => (r.type.text, r.table.isSome,
        r.functions.map (·.type.text))) = some [("crate::Door", true,
          ["crate::Door_Fn_Open", "crate::Door_Fn_Close", "crate::Door_Fn_Get"])] := by
    decide +kernel
  obtain ⟨e, hOk, hRecords⟩ := Option.map_eq_some_iff.mp hBuild
  have hOk := Script.ok_of_toOption hOk
  exact ⟨e, hOk, hRecords, wires_build hOk⟩

end Export

end FixedLayout
