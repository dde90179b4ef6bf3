import FixedLayout.Proofs.Code
import FixedLayout.Record

/-! The items that the code of a record offers: what belongs to its virtual table, and what each of
its descriptors has for the way in which its address is found. -/

namespace FixedLayout

open Code

section CellAccessors

variable (cell getter setter : String) (byRef : Bool)

theorem declares_getter : Declares getter (cellAccessors cell getter setter byRef) := by
  refine .function ((if byRef then "&self" else "") ++ ") -> Option<usize>") List.mem_cons_self ?_
  simp only [String.append_assoc]

theorem declares_setter : Declares setter (cellAccessors cell getter setter byRef) := by
  refine .function ((if byRef then "&self, " else "") ++ "address: usize) -> bool")
    (List.mem_cons_of_mem _ (List.mem_cons_of_mem _ (List.mem_cons_of_mem _
      List.mem_cons_self))) ?_
  simp only [String.append_assoc]

end CellAccessors

namespace Descriptor

variable (d : Descriptor)

/-- The methods of a descriptor. -/
def methods : Code :=
  [.line ("pub const NAME: &'static str = \"" ++ d.owner.name ++ "." ++ d.name ++ "\";"),
    .line d.bindingLine,
    .blank]
    ++ cellAccessors d.cell "address" "set_address" true
    ++ d.tableResolver
    ++ [.blank]
    ++ d.callCode

theorem block_mem_code : .block ("impl " ++ d.structName) d.methods ∈ d.code := by
  simp [code, methods]

theorem struct_mem_code : .line ("pub struct " ++ d.structName ++ ";") ∈ d.code := by
  simp [code]

theorem bindingLine_mem_methods : .line d.bindingLine ∈ d.methods := by
  simp [methods]

theorem declares_setAddress : Declares "set_address" d.methods := by
  refine (declares_setter d.cell "address" "set_address" true).mono fun step h => ?_
  simp [methods, h]

variable {d}

theorem declares_signature {p : BytePattern} (h : d.binding = .pattern p) :
    Declares "SIGNATURE" d.methods := by
  refine .constant (BytePattern.typeName ++ " = " ++ p.render ++ ";") d.bindingLine_mem_methods ?_
  rw [bindingLine, h]
  simp only [String.append_assoc]
  rfl

theorem declares_staticAddress {a : StaticAddress} (h : d.binding = .address a) :
    Declares "STATIC_ADDRESS" d.methods := by
  refine .constant (StaticAddress.typeName ++ " = " ++ a.render ++ ";") d.bindingLine_mem_methods ?_
  rw [bindingLine, h]
  simp only [String.append_assoc]
  rfl

theorem declares_resolveFromTable {index : Nat} (h : d.binding = .slot index) :
    Declares "resolve_from_vtable" d.methods := by
  have hVirtual : d.isVirtual = true := by rw [isVirtual, h]
  have hMem : ∀ step ∈ d.tableResolver, step ∈ d.methods := fun step hStep => by
    simp [methods, hStep]
  rw [tableResolver, if_pos hVirtual] at hMem
  refine .unsafeFunction "&self, vtable: usize) -> bool" (hMem _ (List.mem_cons_of_mem _
    (List.mem_cons_of_mem _ (List.mem_cons_of_mem _ List.mem_cons_self)))) ?_
  rfl

end Descriptor

section TableAccessors

variable (owner : TypeExpr) (table : Option StaticAddress)

theorem cellAccessors_subset_tableAccessors :
    cellAccessors (tableCell owner) "vtable_address" "set_vtable_address" false ⊆
      tableAccessors owner table :=
  List.subset_append_right ..

theorem declares_vtableAddress : Declares "vtable_address" (tableAccessors owner table) :=
  (declares_getter ..).mono (cellAccessors_subset_tableAccessors owner table)

theorem declares_setVtableAddress : Declares "set_vtable_address" (tableAccessors owner table) :=
  (declares_setter ..).mono (cellAccessors_subset_tableAccessors owner table)

theorem declares_vtableSignature (a : StaticAddress) :
    Declares "VTABLE_SIGNATURE" (tableAccessors owner (some a)) := by
  refine .constant (StaticAddress.typeName ++ " = " ++ a.render ++ ";") List.mem_cons_self ?_
  simp only [String.append_assoc]
  rfl

end TableAccessors

namespace Record

variable {r : Record} {name : String} (derive : Derive)

theorem hasTableCell_of_slot {d : Descriptor} (hMem : d ∈ r.functions) {index : Nat}
    (h : d.binding = .slot index) : r.hasTableCell = true := by
  have hVirtual : d.isVirtual = true := by rw [Descriptor.isVirtual, h]
  rw [hasTableCell, Bool.or_eq_true]
  exact .inr (List.any_eq_true.mpr ⟨d, hMem, hVirtual⟩)

/-- What a record with a cell for its virtual table has for that is among its methods. -/
theorem offers_of_tableAccessors (hCell : r.hasTableCell = true)
    (h : Declares name (tableAccessors r.type r.table)) :
    Offers r.type.name name (r.code derive) := by
  have hMethods : .block ("impl " ++ r.type.name) r.accessorsCode ∈ r.code derive := by
    simp [code, methodsCode, hCell]
  refine ⟨_, mem_bodies.mpr hMethods, h.mono fun step hStep => ?_⟩
  rw [accessorsCode, if_pos hCell]
  exact List.mem_append_left _ hStep

theorem code_descriptor_subset {d : Descriptor} (hMem : d ∈ r.functions) :
    d.code ⊆ r.code derive := by
  intro step hStep
  refine List.mem_append_right _ (List.mem_flatMap.mpr ⟨d, hMem, ?_⟩)
  exact List.mem_cons_of_mem _ hStep

theorem offers_of_descriptor {d : Descriptor} (hMem : d ∈ r.functions)
    (h : Declares name d.methods) : Offers d.structName name (r.code derive) :=
  ⟨_, mem_bodies.mpr (code_descriptor_subset derive hMem d.block_mem_code), h⟩

end Record

end FixedLayout
