import FixedLayout.Proofs.Construction.Paths
import FixedLayout.Proofs.Export.Emission
import FixedLayout.Proofs.Taint.Closure

/-! Which declarations of an export derive `Copy`. The taint decides it for records, and what a
member of an untainted record mentions is not tainted either. Two kinds of declaration derive
nothing without being tainted: malformed enumerations, and unions with a wrapper around a member
that was there before the taint spread. -/

namespace FixedLayout

/-- The line below the representation of a declaration derives `Copy`. -/
def Code.derivesCopy : Code → Bool
  | _ :: .line text :: _ =>
    text == "#[derive(Copy, Clone)]" || text == "#[derive(Copy, Clone, Debug)]"
  | _ => false

theorem Record.exists_itemCode (r : Record) :
    ∃ rest steps, r.itemCode = .line ("pub " ++ rest) :: steps := by
  unfold itemCode
  dsimp only
  split
  · exact ⟨_, [], by simp only [String.append_assoc]; rfl⟩
  · split
    · exact ⟨_, [], by simp only [String.append_assoc]; rfl⟩
    · exact ⟨_, _, by simp only [String.append_assoc]; rfl⟩

theorem Record.derivesCopy_code (r : Record) (derive : Derive) :
    (r.code derive).derivesCopy = true ↔ derive = .copy := by
  cases derive with
  | copy => exact iff_of_true rfl rfl
  | clone =>
    refine iff_of_false ?_ (by decide)
    simp [code, Derive.attribute?, Code.derivesCopy]
  | nothing =>
    obtain ⟨rest, steps, hItem⟩ := r.exists_itemCode
    have hOther : ∀ text : String, text.toList.head? = some '#' → "pub " ++ rest ≠ text := by
      rintro _ hHead rfl
      simp at hHead
    have hPair := hOther "#[derive(Copy, Clone)]" (by decide)
    have hTriple := hOther "#[derive(Copy, Clone, Debug)]" (by decide)
    refine iff_of_false ?_ (by decide)
    simp [code, Derive.attribute?, hItem, Code.derivesCopy, hPair, hTriple]

theorem Record.derive_eq_copy {r : Record} {tainted suppressed : Bool} :
    r.derive tainted suppressed = .copy ↔
      (tainted = false ∧ suppressed = false) ∧ (r.isUnion && r.hasManuallyDrop) = false := by
  unfold derive
  cases tainted <;> cases suppressed <;> cases r.isUnion && r.hasManuallyDrop <;> simp

theorem Enumeration.derivesCopy_code (e : Enumeration) :
    e.code.derivesCopy = true ↔ e.isMalformed = false := by
  unfold code isMalformed
  cases e.body with
  | error fault => exact iff_of_false nofun nofun
  | ok vs => exact iff_of_true rfl rfl

/-- Whatever the taint, nothing is derived: the declaration is a malformed enumeration, or a union
with a wrapped member. -/
def Declaration.derivesNothing : Declaration → Bool
  | .record r => r.isUnion && r.hasManuallyDrop
  | .enumeration e => e.isMalformed
  | .primitive _ => true

namespace Export

open Construction

variable {setting : Setting} {s : Session} {e : Export}

theorem FromSession.keys (h : FromSession setting s e) : e.registry.keys.Nodup := by
  rw [h.registry, Taint.keys_wrapUnions]
  exact h.built.keys

theorem FromSession.get?_record (h : FromSession setting s e) {r : Record}
    (hMem : r ∈ e.registry.records) : e.registry.get? r.key = some (.record r) := by
  obtain ⟨key, hEntry⟩ := Registry.mem_records.mp hMem
  obtain rfl : r.key = key := h.own hEntry
  exact Registry.get?_of_mem h.keys hEntry

/-- What an untainted record mentions is not tainted. -/
theorem FromSession.not_contains_of_mentions (h : FromSession setting s e) {r : Record}
    (hMem : r ∈ e.registry.records) (hClean : e.taint.contains r.key = false) {m : Member}
    (hm : m ∈ r.members) {u : TypeExpr} (hu : m.type.Mentions u) {key : String}
    (hResolve : e.registry.resolve? u = some key) : e.taint.contains key = false := by
  obtain ⟨other, r', hEntry, rfl⟩ := h.exists_entry hMem
  rw [Taint.key_wrapRecord] at hClean
  -- Only tainted records are wrapped, so this one has the members that it had in the session.
  rw [Taint.wrapRecord, if_neg (by simp [hClean])] at hm
  rw [h.registry, Registry.resolve?_congr (Taint.keys_wrapUnions e.taint s.registry)] at hResolve
  have hClosed := (Taint.isLeast_spread s.registry (.seeds s.registry)).1.2
  rw [← h.spread] at hClosed
  by_contra hTainted
  have hOwner := hClosed r' (Registry.mem_records.mpr ⟨_, hEntry⟩) m hm u hu key hResolve
    (Bool.of_not_eq_false hTainted)
  cases hClean.symm.trans hOwner

/-- A clean union has a wrapped member only as a provided type. -/
theorem FromSession.exists_external (h : FromSession setting s e) {r : Record}
    (hMem : r ∈ e.registry.records) (hClean : e.taint.contains r.key = false)
    (hUnion : r.isUnion = true) (hWrapped : r.hasManuallyDrop = true) :
    ∃ external ∈ setting.config.externals, ∃ t, TypeExpr.parse external.target = .ok t ∧
      t.isManuallyDrop = true := by
  obtain ⟨r', rfl, hOrigin⟩ := h.exists_origin hMem
  rw [Taint.key_wrapRecord] at hClean
  rw [Taint.wrapRecord, if_neg (by simp [hClean])] at hUnion hWrapped
  obtain ⟨m, hm, hDrop⟩ := List.any_eq_true.mp hWrapped
  cases hOrigin with
  | placeholder => cases hUnion
  | built _ hDeclares =>
    have hWrapper : m.type.path = TypeExpr.manuallyDropPath := by
      simpa [TypeExpr.isManuallyDrop] using hDrop
    exact (hWrapper ▸ hDeclares.path_of_union hUnion m hm).exists_external

/-- A member of a record that derives `Copy` stands for a declaration that derives it too, unless
this is a malformed enumeration, or a union that holds a provided wrapper. -/
theorem derivesCopy_iff {library : Library} {config : Config}
    (h : build library config = .ok e) (hNoDerive : config.noDerive = []) {r : Record}
    (hMem : r ∈ e.registry.records)
    (hCopy : (declarationCode e.registry e.taint config r.key).derivesCopy = true) {m : Member}
    (hm : m ∈ r.members) {key : String} (hResolve : e.registry.resolve? m.type = some key)
    {d : Declaration} (hGet : e.registry.get? key = some d) (hEmitted : d.isEmitted = true) :
    ((declarationCode e.registry e.taint config key).derivesCopy = true ↔
        d.derivesNothing = false) ∧
      ∀ u, d = .record u → u.isUnion = true → u.hasManuallyDrop = true →
        ∃ external ∈ config.externals, ∃ t, TypeExpr.parse external.target = .ok t ∧
          t.isManuallyDrop = true := by
  obtain ⟨-, s, hSession⟩ := exists_session h
  have hSuppressed : ∀ key, config.suppressesDerive key = false := by
    simp [Config.suppressesDerive, hNoDerive]
  have hRecord : ∀ {u : Record} {key : String}, e.registry.get? key = some (.record u) →
      ((declarationCode e.registry e.taint config key).derivesCopy = true ↔
        u.derive (e.taint.contains key) false = .copy) := by
    intro u key hGet
    rw [declarationCode, hGet, hSuppressed]
    exact u.derivesCopy_code _
  have hClean : e.taint.contains r.key = false :=
    (Record.derive_eq_copy.mp ((hRecord (hSession.get?_record hMem)).mp hCopy)).1.1
  have hTarget := hSession.not_contains_of_mentions hMem hClean hm (.self m.type) hResolve
  constructor
  · cases d with
    | primitive p => cases hEmitted
    | enumeration en =>
      rw [declarationCode, hGet]
      exact en.derivesCopy_code
    | record u =>
      rw [hRecord hGet, hTarget, Record.derive_eq_copy]
      exact and_iff_right ⟨rfl, rfl⟩
  · rintro u rfl hUnion hWrapped
    have hEntry := Registry.mem_of_get? hGet
    obtain rfl : u.key = key := hSession.own hEntry
    exact hSession.exists_external (Registry.mem_records.mpr ⟨_, hEntry⟩) hTarget hUnion hWrapped

/-- Of the first member of the first record: whether the record derives `Copy`, the pointers of the
member, whether what it stands for is written, and whether that derives `Copy`. -/
def firstMember (e : Export) (config : Config) : Option (Bool × Nat × Bool × Bool) :=
  e.registry.records.head?.bind fun r => r.members.head?.bind fun m =>
    (e.registry.resolve? m.type).bind fun key => (e.registry.get? key).map fun d =>
      ((declarationCode e.registry e.taint config r.key).derivesCopy, m.type.indirection,
        d.isEmitted, (declarationCode e.registry e.taint config key).derivesCopy)

theorem exists_of_firstMember {config : Config} {answer : Bool × Nat × Bool × Bool}
    (h : e.firstMember config = some answer) : ∃ r ∈ e.registry.records,
    (declarationCode e.registry e.taint config r.key).derivesCopy = answer.1 ∧
    ∃ m ∈ r.members, m.type.indirection = answer.2.1 ∧
    ∃ key d, e.registry.resolve? m.type = some key ∧ e.registry.get? key = some d ∧
      d.isEmitted = answer.2.2.1 ∧
      (declarationCode e.registry e.taint config key).derivesCopy = answer.2.2.2 := by
  simp only [firstMember, Option.bind_eq_some_iff, Option.map_eq_some_iff] at h
  obtain ⟨r, hr, m, hm, key, hResolve, d, hGet, rfl⟩ := h
  exact ⟨r, List.mem_of_head? hr, rfl, m, List.mem_of_head? hm, rfl, key, d, hResolve, hGet,
    rfl, rfl⟩

theorem derivesCopy_iff_besideModule : ∃ e,
    build besideModule (.forNamespace "App" ["app"]) = .ok e ∧
    (Config.forNamespace "App" ["app"]).noDerive = [] ∧ ∃ r ∈ e.registry.records,
    (declarationCode e.registry e.taint (.forNamespace "App" ["app"]) r.key).derivesCopy = true ∧
    ∃ m ∈ r.members, ∃ key d, e.registry.resolve? m.type = some key ∧
      e.registry.get? key = some d ∧ d.isEmitted = true ∧ d.derivesNothing = false := by
  have hFirst : ((build besideModule (.forNamespace "App" ["app"])).toOption.bind fun e =>
      e.firstMember (.forNamespace "App" ["app"])) = some (true, 0, true, true) := by
    decide +kernel
  obtain ⟨e, hOk, hFirst⟩ := Option.bind_eq_some_iff.mp hFirst
  obtain ⟨r, hMem, hCopy, m, hm, -, key, d, hResolve, hGet, hEmitted, hTarget⟩ :=
    exists_of_firstMember hFirst
  have hOk := Script.ok_of_toOption hOk
  obtain ⟨hIff, -⟩ := derivesCopy_iff hOk rfl hMem hCopy hm hResolve hGet hEmitted
  exact ⟨e, hOk, rfl, r, hMem, hCopy, m, hm, key, d, hResolve, hGet, hEmitted, hIff.mp hTarget⟩

/-- An enumeration of one byte with a constant that takes two, and a struct that holds it. -/
def wideFlag : Library := .ofTypes [
  .ofConstants "App.Flags" .byte [⟨"Huge", 300⟩],
  .ofFields "App.Holder" 1 [{ name := "F", shape := .named "App.Flags" [], offset := 0 }]]

theorem exists_not_derivesCopy : (Config.forNamespace "App" ["app"]).noDerive = [] ∧
    ∃ e, build wideFlag (.forNamespace "App" ["app"]) = .ok e ∧ ∃ r ∈ e.registry.records,
    (declarationCode e.registry e.taint (.forNamespace "App" ["app"]) r.key).derivesCopy = true ∧
    ∃ m ∈ r.members, m.type.indirection = 0 ∧ ∃ key d, e.registry.resolve? m.type = some key ∧
      e.registry.get? key = some d ∧ d.isEmitted = true ∧
      (declarationCode e.registry e.taint (.forNamespace "App" ["app"]) key).derivesCopy =
        false := by
  have hFirst : ((build wideFlag (.forNamespace "App" ["app"])).toOption.bind fun e =>
      e.firstMember (.forNamespace "App" ["app"])) = some (true, 0, true, false) := by
    decide +kernel
  obtain ⟨e, hOk, hFirst⟩ := Option.bind_eq_some_iff.mp hFirst
  exact ⟨rfl, e, Script.ok_of_toOption hOk, exists_of_firstMember hFirst⟩

end Export

end FixedLayout
