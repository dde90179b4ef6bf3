import FixedLayout.Config
import Mathlib.Data.List.Nodup
import Mathlib.Data.List.Perm.Basic

/-! Which rule a name falls under. The namespaces of a configuration may lie in each other, and then
the innermost one counts. Sources that cover one name are beginnings of each other, so two of one
length are one, and a configuration without faults has each source once. -/

namespace FixedLayout

theorem Text.after?_eq_some {start cs rest : List Char} :
    after? start cs = some rest ↔ cs = start ++ rest := by
  induction start generalizing cs with
  | nil => simp [after?]
  | cons c start ih =>
    cases cs with
    | nil => simp [after?]
    | cons d cs =>
      by_cases h : c = d
      · simp [after?, h, ih]
      · simp [after?, h, Ne.symm h]

namespace NamespaceRule

/-- The name begins with the source of the rule and a dot. -/
def Covers (rule : NamespaceRule) (name : String) : Prop :=
  ∃ rest, name = rule.source ++ "." ++ rest

variable {rule other : NamespaceRule} {name : String}

theorem isSome_rest?_iff : (rule.rest? name).isSome ↔ rule.Covers name := by
  unfold rest? Covers
  rw [Option.isSome_map, Option.isSome_iff_exists]
  constructor
  · rintro ⟨rest, hRest⟩
    refine ⟨String.ofList rest, String.toList_injective ?_⟩
    simpa using Text.after?_eq_some.mp hRest
  · rintro ⟨rest, rfl⟩
    exact ⟨rest.toList, Text.after?_eq_some.mpr (by simp)⟩

/-- Of two sources that cover one name, one begins with the other. -/
theorem Covers.comparable (h : rule.Covers name) (hOther : other.Covers name) :
    (∃ more, other.source = rule.source ++ more) ∨ ∃ more, rule.source = other.source ++ more := by
  have hBegins : ∀ {r : NamespaceRule}, r.Covers name → r.source.toList <+: name.toList := by
    rintro r ⟨rest, rfl⟩
    exact ⟨'.' :: rest.toList, by simp⟩
  have hAppend : ∀ {a b : String}, a.toList <+: b.toList → ∃ more, b = a ++ more := by
    rintro a b ⟨more, hMore⟩
    exact ⟨String.ofList more, String.toList_injective (by simpa using hMore.symm)⟩
  exact (List.prefix_or_prefix_of_prefix (hBegins h) (hBegins hOther)).imp hAppend hAppend

/-- Bytes and characters tell the same of two sources that cover one name. -/
theorem Covers.size_cases (h : rule.Covers name) (hOther : other.Covers name) :
    other.source = rule.source ∨
    (other.source.length < rule.source.length ∧
      other.source.utf8ByteSize < rule.source.utf8ByteSize) ∨
    (rule.source.length < other.source.length ∧
      rule.source.utf8ByteSize < other.source.utf8ByteSize) := by
  have hLonger : ∀ {a b more : String}, b = a ++ more → b = a ∨
      (a.length < b.length ∧ a.utf8ByteSize < b.utf8ByteSize) := by
    rintro a b more rfl
    by_cases hNil : more = ""
    · exact .inl (by simp [hNil])
    · have hLength : more.length ≠ 0 := by simpa using hNil
      have hSize : more.utf8ByteSize ≠ 0 := by simpa using hNil
      rw [String.length_append, String.utf8ByteSize_append]
      exact .inr ⟨by omega, by omega⟩
  rcases h.comparable hOther with ⟨more, hMore⟩ | ⟨more, hMore⟩
  · exact (hLonger hMore).imp_right .inr
  · exact (hLonger hMore).imp Eq.symm .inl

end NamespaceRule

namespace Config

variable {config : Config} {name : String}

theorem namespaceFault?_eq_none {seen : List String} {rules : List NamespaceRule}
    (h : namespaceFault? seen rules = none) :
    (rules.map (·.source)).Nodup ∧ ∀ rule ∈ rules, rule.source ∉ seen := by
  induction rules generalizing seen with
  | nil => simp
  | cons rule rules ih =>
    unfold namespaceFault? at h
    split at h
    · cases h
    · split at h
      · cases h
      · rename_i hNew
        obtain ⟨hNodup, hSeen⟩ := ih h
        have hOthers : ∀ other ∈ rules, other.source ∉ seen ∧ other.source ≠ rule.source := by
          intro other hMem
          simpa using hSeen other hMem
        constructor
        · refine List.nodup_cons.mpr ⟨fun hMem => ?_, hNodup⟩
          obtain ⟨other, hOther, hSame⟩ := List.mem_map.mp hMem
          exact (hOthers other hOther).2 hSame
        · intro other hMem
          rcases List.mem_cons.mp hMem with rfl | hMem
          · simpa using hNew
          · exact (hOthers other hMem).1

/-- No two namespaces of a configuration without faults have one source. -/
theorem nodup_sources (h : config.fault? = none) : (config.namespaces.map (·.source)).Nodup := by
  unfold fault? at h
  split at h
  · cases h
  · split at h
    · cases h
    · split at h
      · cases h
      · rename_i hNone
        exact (namespaceFault?_eq_none hNone).1

/-- The rule that is chosen is one of those to choose from, and none of these has a longer
source. -/
theorem foldl_moreSpecific (rules : List NamespaceRule) (best : NamespaceRule) :
    ∃ chosen, rules.foldl moreSpecific (some best) = some chosen ∧ chosen ∈ best :: rules ∧
      ∀ rule ∈ best :: rules, rule.source.utf8ByteSize ≤ chosen.source.utf8ByteSize := by
  induction rules generalizing best with
  | nil => exact ⟨best, rfl, by simp, by simp⟩
  | cons next rules ih =>
    rw [List.foldl_cons, moreSpecific]
    split
    · rename_i hLe
      obtain ⟨chosen, hChosen, hMem, hMost⟩ := ih next
      refine ⟨chosen, hChosen, List.mem_cons_of_mem _ hMem, fun rule hRule => ?_⟩
      rcases List.mem_cons.mp hRule with rfl | hRule
      · exact Nat.le_trans hLe (hMost next List.mem_cons_self)
      · exact hMost rule hRule
    · rename_i hLt
      obtain ⟨chosen, hChosen, hMem, hMost⟩ := ih best
      refine ⟨chosen, hChosen, ?_, fun rule hRule => ?_⟩
      · rcases List.mem_cons.mp hMem with rfl | hMem
        · exact List.mem_cons_self
        · exact List.mem_cons_of_mem _ (List.mem_cons_of_mem _ hMem)
      · rcases List.mem_cons.mp hRule with rfl | hRule
        · exact hMost rule List.mem_cons_self
        · rcases List.mem_cons.mp hRule with rfl | hRule
          · exact Nat.le_trans (Nat.le_of_not_le hLt) (hMost best List.mem_cons_self)
          · exact hMost rule (List.mem_cons_of_mem _ hRule)

/-- The rules that cover a name, in their order. -/
def candidates (config : Config) (name : String) : List NamespaceRule :=
  config.namespaces.filter fun rule => (rule.rest? name).isSome

theorem mem_candidates {rule : NamespaceRule} :
    rule ∈ config.candidates name ↔ rule ∈ config.namespaces ∧ rule.Covers name := by
  rw [candidates, List.mem_filter, NamespaceRule.isSome_rest?_iff]

/-- Either no rule covers the name and none is chosen, or one of them is, and none of them has a
source of more bytes. -/
theorem ruleFor?_cases (config : Config) (name : String) :
    (config.candidates name = [] ∧ config.ruleFor? name = none) ∨
    ∃ rule ∈ config.candidates name, config.ruleFor? name = some rule ∧
      ∀ other ∈ config.candidates name,
        other.source.utf8ByteSize ≤ rule.source.utf8ByteSize := by
  have hFold : config.ruleFor? name = (config.candidates name).foldl moreSpecific none := rfl
  rw [hFold]
  cases config.candidates name with
  | nil => exact .inl ⟨rfl, rfl⟩
  | cons first rules =>
    obtain ⟨rule, hRule, hMem, hMost⟩ := foldl_moreSpecific rules first
    exact .inr ⟨rule, hMem, hRule, hMost⟩

theorem ruleFor?_eq_none :
    config.ruleFor? name = none ↔ ∀ rule ∈ config.namespaces, ¬rule.Covers name := by
  have hEmpty : config.candidates name = [] ↔ ∀ rule ∈ config.namespaces, ¬rule.Covers name := by
    simp only [List.eq_nil_iff_forall_not_mem, mem_candidates, not_and]
  rw [← hEmpty]
  rcases ruleFor?_cases config name with ⟨hNil, hNone⟩ | ⟨rule, hMem, hSome, -⟩
  · exact iff_of_true hNone hNil
  · exact iff_of_false (by simp [hSome]) (List.ne_nil_of_mem hMem)

/-- The rule covers the name, and each other rule that does has a shorter source. -/
def IsLongest (config : Config) (name : String) (rule : NamespaceRule) : Prop :=
  rule ∈ config.namespaces ∧ rule.Covers name ∧
    ∀ other ∈ config.namespaces, other.Covers name → other ≠ rule →
      other.source.length < rule.source.length

theorem IsLongest.unique {rule rule' : NamespaceRule} (h : config.IsLongest name rule)
    (h' : config.IsLongest name rule') : rule = rule' := by
  by_contra hNe
  have hLt := h.2.2 rule' h'.1 h'.2.1 (Ne.symm hNe)
  have hGt := h'.2.2 rule h.1 h.2.1 hNe
  omega

theorem ruleFor?_eq_some (hSources : (config.namespaces.map (·.source)).Nodup)
    {rule : NamespaceRule} : config.ruleFor? name = some rule ↔ config.IsLongest name rule := by
  have hLongest : ∀ rule, config.ruleFor? name = some rule → config.IsLongest name rule := by
    intro rule hRule
    rcases ruleFor?_cases config name with ⟨-, hNone⟩ | ⟨rule', hMem, hSome, hMost⟩
    · cases hNone.symm.trans hRule
    · cases hSome.symm.trans hRule
      obtain ⟨hMem, hCovers⟩ := mem_candidates.mp hMem
      refine ⟨hMem, hCovers, fun other hOther hOtherCovers hNe => ?_⟩
      have hSize := hMost other (mem_candidates.mpr ⟨hOther, hOtherCovers⟩)
      -- Sources of one size are one, and that would make the rules one.
      rcases hCovers.size_cases hOtherCovers with hSame | ⟨hLength, -⟩ | ⟨-, hMore⟩
      · exact absurd (List.inj_on_of_nodup_map hSources hOther hMem hSame) hNe
      · exact hLength
      · omega
  refine ⟨hLongest rule, fun h => ?_⟩
  cases hRule : config.ruleFor? name with
  | none => exact absurd h.2.1 (ruleFor?_eq_none.mp hRule rule h.1)
  | some rule' => rw [(hLongest rule' hRule).unique h]

/-- In a configuration without faults, a name falls under a rule if the source of some rule and a
dot begin the name, and then under the one with the longest such source. The order of the rules does
not count. -/
theorem ruleFor?_longest (h : config.fault? = none) (name : String) :
    (config.ruleFor? name = none ↔ ∀ rule ∈ config.namespaces, ¬rule.Covers name) ∧
    (∀ rule, config.ruleFor? name = some rule ↔ config.IsLongest name rule) ∧
    ∀ namespaces, namespaces.Perm config.namespaces →
      ({ config with namespaces } : Config).ruleFor? name = config.ruleFor? name := by
  have hSources := nodup_sources h
  refine ⟨ruleFor?_eq_none, fun rule => ruleFor?_eq_some hSources, fun namespaces hPerm => ?_⟩
  have hSources' : (namespaces.map (·.source)).Nodup := (hPerm.map _).nodup_iff.mpr hSources
  have hSame : ∀ rule, ({ config with namespaces } : Config).IsLongest name rule ↔
      config.IsLongest name rule := by
    intro rule
    simp only [IsLongest, hPerm.mem_iff]
  refine Option.ext fun rule => ?_
  rw [ruleFor?_eq_some hSources, ← hSame, ← ruleFor?_eq_some hSources']

/-- The usual namespaces with one inside the first of them. -/
def nestedNamespaces : Config :=
  { namespaces := ({} : Config).namespaces ++
      [{ source := "FFXIVClientStructs.FFXIV.Client", target := ["client"] }] }

/-- A name in the inner namespace, in either order of the namespaces, and a name that only looks as
if it were in the outer one. -/
theorem ruleFor?_longest_nested :
    let config := nestedNamespaces
    let reversed : Config := { config with namespaces := config.namespaces.reverse }
    config.fault? = none ∧
      (config.ruleFor? "FFXIVClientStructs.FFXIV.Client.Game.Character").map (·.target) =
        some ["client"] ∧
      reversed.ruleFor? "FFXIVClientStructs.FFXIV.Client.Game.Character" =
        config.ruleFor? "FFXIVClientStructs.FFXIV.Client.Game.Character" ∧
      ∀ rule ∈ config.namespaces, ¬rule.Covers "FFXIVClientStructs.FFXIVX.Foo" := by
  intro config reversed
  have hFault : config.fault? = none := by decide
  have hInner := (ruleFor?_longest hFault "FFXIVClientStructs.FFXIV.Client.Game.Character").2.2
  have hOutside := (ruleFor?_longest hFault "FFXIVClientStructs.FFXIVX.Foo").1
  exact ⟨hFault, by decide, hInner _ (List.reverse_perm _), hOutside.mp (by decide)⟩

end Config

end FixedLayout
