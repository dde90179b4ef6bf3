import FixedLayout.Metadata.Document
import FixedLayout.Proofs.Datum
import FixedLayout.Proofs.Library

/-! What is looked up in a library is what a scan of its types finds, however often names and
arguments repeat. The types of a library that is read are those of the document in its order. -/

namespace FixedLayout.Library

section Scan

variable {α : Type}

/-- The item stands in the list and has the property, and no item before it has. -/
def IsFirst (l : List α) (P : α → Prop) (a : α) : Prop :=
  ∃ i : Nat, l[i]? = some a ∧ P a ∧ ∀ j < i, ∀ b, l[j]? = some b → ¬ P b

/-- What a scan for an item with the property answers: the first one, and nothing exactly where no
item has it. -/
structure IsScan (l : List α) (P : α → Prop) (answer : Option α) : Prop where
  some_iff : ∀ a, answer = some a ↔ IsFirst l P a
  none_iff : answer = none ↔ ∀ a ∈ l, ¬ P a

theorem isFirst_iff_find? {l : List α} {P : α → Prop} [DecidablePred P] {a : α} :
    IsFirst l P a ↔ l.find? (P ·) = some a := by
  rw [List.find?_eq_some_iff_getElem]
  constructor
  · rintro ⟨i, hThere, hP, hBefore⟩
    obtain ⟨hi, rfl⟩ := List.getElem?_eq_some_iff.mp hThere
    refine ⟨by simpa using hP, i, hi, rfl, fun j hj => ?_⟩
    simpa using hBefore j hj _ (List.getElem?_eq_getElem (by omega))
  · rintro ⟨hP, i, hi, rfl, hBefore⟩
    refine ⟨i, List.getElem?_eq_getElem hi, by simpa using hP, fun j hj b hb => ?_⟩
    obtain ⟨hLength, rfl⟩ := List.getElem?_eq_some_iff.mp hb
    simpa using hBefore j hj

theorem isScan_find? (l : List α) (P : α → Prop) [DecidablePred P] :
    IsScan l P (l.find? (P ·)) where
  some_iff _ := isFirst_iff_find?.symm
  none_iff := by simp

end Scan

/-- The library holds these types in this order, its index leads to all of them, and whatever is
looked up in it is what a scan of the types finds. -/
structure Scans (l : Library) (types : List TypeDesc) : Prop where
  types_eq : l.types = types
  isIndexOf : IsIndexOf l.index types
  definition : ∀ name,
    IsScan types (fun t => t.name = name ∧ t.args = []) (l.definition? name)
  instantiation : ∀ name args,
    IsScan types (fun t => t.name = name ∧ t.args = args) (l.instantiation? name args)

theorem scans_self (l : Library) : l.Scans l.types where
  types_eq := rfl
  isIndexOf := l.isIndexOf_index
  definition name := by
    rw [definition?_eq]
    exact isScan_find? l.types _
  instantiation name args := by
    rw [instantiation?_eq]
    exact isScan_find? l.types _

/-- The document describes these types, one by one and in this order, in its only list of types. -/
def Lists (d : Datum) (types : List TypeDesc) : Prop :=
  ∃ items, d.Holds "types" (.list items) ∧ items.map TypeDesc.ofDatum = types.map some

theorem ofDatum_eq_some_iff {d : Datum} {l : Library} :
    ofDatum d = some l ↔ ∃ types, Lists d types ∧ l = ofTypes types := by
  have hSplit : ofDatum d = ((d.fields ["types"] false).bind fun fields =>
      fields.need "types" (Datum.listOf TypeDesc.ofDatum)).map ofTypes := by
    rw [Option.map_eq_bind, Option.bind_assoc]
    rfl
  simp only [hSplit, Option.map_eq_some_iff, Datum.need_fields_eq_some_iff,
    Datum.listOf_eq_some_iff]
  constructor
  · rintro ⟨types, ⟨part, hPart, items, rfl, hItems⟩, rfl⟩
    exact ⟨types, ⟨items, hPart, hItems⟩, rfl⟩
  · rintro ⟨types, ⟨items, hPart, hItems⟩, rfl⟩
    exact ⟨types, ⟨_, hPart, items, rfl, hItems⟩, rfl⟩

/-- A library of some types answers as a scan of them does, and the library that is read from a
text is that of the types which its document lists. -/
theorem scans_document :
    (∀ types, (ofTypes types).Scans types) ∧
      ∀ text l, ofDocument text = some l ↔
        ∃ d types, Json.document text = some d ∧ Lists d types ∧ l = ofTypes types := by
  refine ⟨fun types => scans_self (ofTypes types), fun text l => ?_⟩
  rw [ofDocument, Option.bind_eq_some_iff]
  constructor
  · rintro ⟨d, hDocument, hRead⟩
    obtain ⟨types, hTypes, hLibrary⟩ := ofDatum_eq_some_iff.mp hRead
    exact ⟨d, types, hDocument, hTypes, hLibrary⟩
  · rintro ⟨d, types, hDocument, hTypes, hLibrary⟩
    exact ⟨d, hDocument, ofDatum_eq_some_iff.mpr ⟨types, hTypes, hLibrary⟩⟩

/-- Of two instantiations with the same arguments the one that comes first is found. The definition
is found behind them. -/
example :
    let pair size args : TypeDesc := { TypeDesc.ofFields "App.Pair" size [] with args }
    let l := ofTypes [pair 8 [.void], pair 16 [.void], pair 0 []]
    l.instantiation? "App.Pair" [.void] = some (pair 8 [.void]) ∧
      l.definition? "App.Pair" = some (pair 0 []) ∧
      l.instantiation? "App.Pair" [.scalar .byte] = none := by
  decide

end FixedLayout.Library
