import FixedLayout.Proofs.Construction.Builtin
import FixedLayout.Proofs.Export.Session
import FixedLayout.Proofs.Taint.Support

/-! The unions of an export. A tainted union has a member that made it so, which is no gap and ends
up wrapped; so no union derives `Clone` alone. -/

namespace FixedLayout

/-- Slots over each other are no gaps, and the one gap of a union is bare bytes. -/
theorem Layout.mem_unionOf_cases (type : TypeExpr) (slots : List Slot) (size : Nat) :
    ∀ m ∈ (unionOf type slots size).members,
      m.role ≠ .gap ∨ ∃ span, m.type = Member.bytesType span := by
  intro m h
  rcases List.mem_append.mp h with hSlot | hGap
  · obtain ⟨s, -, rfl⟩ := List.mem_map.mp hSlot
    exact .inl nofun
  · split at hGap
    · rw [List.mem_singleton.mp hGap]
      exact .inr ⟨_, rfl⟩
    · cases hGap

/-- Bare bytes mention bytes only. -/
theorem Taint.contains_of_touches_bytes {t : Taint} {r : Registry} {span : Nat}
    (hByte : r.contains "u8" = true) (h : t.touches r (Member.bytesType span) = true) :
    t.contains "u8" = true := by
  have hKey : ∀ extent, r.resolve? ⟨["u8"], none, 0, extent⟩ = some "u8" := fun extent =>
    if_pos hByte
  unfold Member.bytesType at h
  split at h <;>
    simpa [touches, TypeExpr.ofPath, TypeExpr.withExtent, TypeExpr.references, hKey] using h

/-- A union derives no single trait, as long as it has a wrapped member if it is tainted. -/
theorem Record.derive_of_union {r : Record} (hUnion : r.isUnion = true) {tainted : Bool}
    (hWrapped : tainted = true → r.hasManuallyDrop = true) (suppressed : Bool) :
    r.derive tainted suppressed = .copy ∨ r.derive tainted suppressed = .nothing := by
  cases tainted with
  | true => exact .inr (by simp [derive, hUnion, hWrapped rfl])
  | false =>
    unfold derive
    split
    · exact .inr rfl
    · exact .inl rfl

namespace Export

open Construction

section Tainted

variable {setting : Setting} {s : Session} {e : Export} (h : FromSession setting s e)
include h

/-- A declaration is tainted as a tainted primitive, or by a member that mentions a tainted
declaration. -/
theorem FromSession.tainted_cases {key : String} {d : Declaration}
    (hMem : (key, d) ∈ s.registry.entries) (hTainted : e.taint.contains d.key = true) :
    (∃ p, d = .primitive p ∧ p.tainted = true) ∨
      ∃ r, d = .record r ∧ ∃ m ∈ r.members, e.taint.touches s.registry m.type = true := by
  have hSpread : d.key ∈ (Taint.spread s.registry (.seeds s.registry)).1.keySet := by
    rw [← h.spread]
    exact hTainted
  rcases Taint.spread_subset_supported _ _ hSpread with hSeed | ⟨r, hRecord, hKey, hMember⟩
  · obtain ⟨p, ⟨other, hp⟩, hTaint, hKey⟩ := Taint.mem_keySet_seeds.mp hSeed
    exact .inl ⟨p, h.built.eq_of_key hMem hp hKey.symm, hTaint⟩
  · obtain ⟨other, hr⟩ := Registry.mem_records.mp hRecord
    rw [← h.spread] at hMember
    exact .inr ⟨r, h.built.eq_of_key hMem hr hKey.symm, hMember⟩

/-- A built-in primitive that is clean stays so. -/
theorem FromSession.not_contains_builtin {p : Primitive} (hp : p ∈ Primitive.builtin)
    (hClean : p.tainted = false) : e.taint.contains p.key = false := by
  by_contra hTainted
  rcases h.tainted_cases (h.built.mem_builtin hp) (Bool.of_not_eq_false hTainted) with
    ⟨q, hSame, hTaint⟩ | ⟨_, hSame, -⟩
  · cases hSame
    cases hClean.symm.trans hTaint
  · cases hSame

/-- The members of a union are no gaps, or bare bytes. -/
theorem FromSession.union_members {key : String} {r : Record}
    (hMem : (key, .record r) ∈ s.registry.entries) (hUnion : r.isUnion = true) :
    ∀ m ∈ r.members, m.role ≠ .gap ∨ ∃ span, m.type = Member.bytesType span := by
  cases (h.built.origin key _ hMem).2.origin with
  | placeholder => cases hUnion
  | built _ hDeclares =>
    have hForm : r.form = .union := by simpa [Record.isUnion] using hUnion
    rcases hDeclares.record_cases with ⟨hBlob, -⟩ | ⟨-, slots, size, hMembers⟩ | ⟨hStruct, -⟩
    · cases hForm.symm.trans hBlob
    · rw [hMembers]
      exact Layout.mem_unionOf_cases _ slots size
    · cases hForm.symm.trans hStruct

/-- A tainted union has a member that mentions a tainted declaration and is no gap. -/
theorem FromSession.exists_touches {key : String} {r : Record}
    (hMem : (key, .record r) ∈ s.registry.entries) (hUnion : r.isUnion = true)
    (hTainted : e.taint.contains r.key = true) :
    ∃ m ∈ r.members, m.role ≠ .gap ∧ e.taint.touches s.registry m.type = true := by
  rcases h.tainted_cases hMem hTainted with ⟨p, hSame, -⟩ | ⟨_, hSame, m, hm, hTouches⟩
  · cases hSame
  · cases hSame
    refine ⟨m, hm, (h.union_members hMem hUnion m hm).resolve_right ?_, hTouches⟩
    rintro ⟨span, hBytes⟩
    have hByte : Primitive.ofType (.ofPath ["u8"]) ∈ Primitive.builtin := by decide
    have hThere : s.registry.contains "u8" = true :=
      Registry.contains_iff.mpr (List.mem_map_of_mem (h.built.mem_builtin hByte))
    rw [hBytes] at hTouches
    have hDirty := Taint.contains_of_touches_bytes hThere hTouches
    cases hDirty.symm.trans (h.not_contains_builtin hByte rfl)

end Tainted

/-- A tainted union of an export has a wrapped member. So a union derives both traits or none. -/
theorem derive_unions {library : Library} {config : Config} {e : Export}
    (h : build library config = .ok e) {r : Record} (hMem : r ∈ e.registry.records)
    (hUnion : r.isUnion = true) :
    (e.taint.contains r.key = true → r.hasManuallyDrop = true) ∧
      (r.derive (e.taint.contains r.key) (config.suppressesDerive r.key) = .copy ∨
        r.derive (e.taint.contains r.key) (config.suppressesDerive r.key) = .nothing) := by
  obtain ⟨-, s, hSession⟩ := exists_session h
  have hWrapped : e.taint.contains r.key = true → r.hasManuallyDrop = true := by
    obtain ⟨key, r', hEntry, rfl⟩ := hSession.exists_entry hMem
    rw [Taint.key_wrapRecord]
    rw [Taint.isUnion_wrapRecord] at hUnion
    intro hTainted
    obtain ⟨m, hm, hRole, hTouches⟩ := hSession.exists_touches hEntry hUnion hTainted
    exact Taint.hasManuallyDrop_wrapRecord hUnion hTainted hm hRole hTouches
  exact ⟨hWrapped, Record.derive_of_union hUnion hWrapped _⟩

/-- A union of 32 bytes with room for a list, which is tainted. -/
def spareList : Library := .ofTypes [
  { TypeDesc.ofFields "App.Value" 32
      [{ name := "list", shape := .named "Std.Vector" [], offset := 0 }] with
    category := .union }]

/-- Lists come from elsewhere. -/
def withLists : Config :=
  { Config.forNamespace "App" ["app"] with
    externals := [{ source := "Std.Vector", target := "crate::cpp_std::Vector<u8>"
                    tainted := true, size := some 24 }] }

theorem derive_unions_spareList : ∃ e, build spareList withLists = .ok e ∧
    ∃ r ∈ e.registry.records, r.isUnion = true ∧ e.taint.contains r.key = true ∧
      r.hasManuallyDrop = true ∧
      (r.derive (e.taint.contains r.key) (withLists.suppressesDerive r.key) = .copy ∨
        r.derive (e.taint.contains r.key) (withLists.suppressesDerive r.key) = .nothing) := by
  have hBuild : ((build spareList withLists).toOption.map fun e =>
      e.registry.records.map fun r => (r.isUnion, e.taint.contains r.key)) =
        some [(true, true)] := by
    decide +kernel
  obtain ⟨e, hOk, hRecords⟩ := Option.map_eq_some_iff.mp hBuild
  obtain ⟨r, hSingle, hEq⟩ := List.map_eq_singleton_iff.mp hRecords
  obtain ⟨hUnion, hTainted⟩ := Prod.mk.inj hEq
  have hMem : r ∈ e.registry.records := hSingle ▸ List.mem_singleton_self r
  have hOk := Script.ok_of_toOption hOk
  obtain ⟨hWrapped, hDerive⟩ := derive_unions hOk hMem hUnion
  exact ⟨e, hOk, r, hMem, hUnion, hTainted, hWrapped hTainted, hDerive⟩

end Export

end FixedLayout
