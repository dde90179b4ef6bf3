import FixedLayout.Enumeration
import Mathlib.Data.List.Forall2
import Mathlib.Data.List.Nodup

/-! How constants become an enumeration. Whatever the order of their values, the first constant of
each value is its variant and the later ones are aliases of that. A fault at any constant leaves
nothing of those before it. -/

namespace FixedLayout

namespace Variants

/-! ### The first constant of each value -/

/-- The constants that have a property together with those before them, in order. -/
def select (p : List ConstantDesc → ConstantDesc → Bool) (cs : List ConstantDesc) :
    List ConstantDesc :=
  (cs.zipIdx.filter fun (c, i) => p (cs.take i) c).map Prod.fst

/-- The constants whose value no constant before them has. -/
def leaders : List ConstantDesc → List ConstantDesc :=
  select fun before c => before.all (·.value ≠ c.value)

/-- The constants whose value a constant before them has. -/
def followers : List ConstantDesc → List ConstantDesc :=
  select fun before c => before.any (·.value = c.value)

theorem select_append (p : List ConstantDesc → ConstantDesc → Bool) (cs : List ConstantDesc)
    (c : ConstantDesc) :
    select p (cs ++ [c]) = select p cs ++ if p cs c then [c] else [] := by
  have hBefore : (cs.zipIdx.filter fun (d, i) => p ((cs ++ [c]).take i) d) =
      cs.zipIdx.filter fun (d, i) => p (cs.take i) d := by
    refine List.filter_congr fun ⟨d, i⟩ hMem => ?_
    have hLt : i < cs.length := (List.mem_zipIdx' hMem).1
    dsimp only
    rw [List.take_append_of_le_length (Nat.le_of_lt hLt)]
  rw [select, List.zipIdx_append, List.filter_append, List.map_append, hBefore]
  cases hLast : p cs c <;> simp [select, hLast]

section Append

variable {cs : List ConstantDesc} {c : ConstantDesc}

theorem leaders_append_of_taken (h : c.value ∈ cs.map ConstantDesc.value) :
    leaders (cs ++ [c]) = leaders cs := by
  rw [leaders, select_append, if_neg (by simpa using h), List.append_nil]

theorem leaders_append_of_free (h : c.value ∉ cs.map ConstantDesc.value) :
    leaders (cs ++ [c]) = leaders cs ++ [c] := by
  rw [leaders, select_append, if_pos (by simpa using h)]

theorem followers_append_of_taken (h : c.value ∈ cs.map ConstantDesc.value) :
    followers (cs ++ [c]) = followers cs ++ [c] := by
  rw [followers, select_append, if_pos (by simpa using h)]

theorem followers_append_of_free (h : c.value ∉ cs.map ConstantDesc.value) :
    followers (cs ++ [c]) = followers cs := by
  rw [followers, select_append, if_neg (by simpa using h), List.append_nil]

end Append

/-! ### What is made of a list of constants -/

/-- The alias is for the constant, and its target is a variant with the value of that. -/
def IsAlias (variants : List Variant) (c : ConstantDesc) (a : Alias) : Prop :=
  a.name = Ident.escape c.name ∧ ∃ v ∈ variants, v.value = c.value ∧ a.target = v.name

/-- The variants are the first constants of each value, and the aliases all the others. -/
structure Tally (cs : List ConstantDesc) (vs : Variants) : Prop where
  variants : vs.variants = (leaders cs).map fun c => ⟨Ident.escape c.name, c.value⟩
  aliases : List.Forall₂ (IsAlias vs.variants) (followers cs) vs.aliases
  /-- A value has one variant. -/
  distinct : (vs.variants.map Variant.value).Nodup
  values : ∀ x, x ∈ vs.variants.map Variant.value ↔ x ∈ cs.map ConstantDesc.value
  count : vs.variants.length + vs.aliases.length = cs.length

theorem tally_nil : Tally [] {} :=
  ⟨rfl, .nil, List.nodup_nil, fun _ => Iff.rfl, rfl⟩

variable {cs : List ConstantDesc} {vs : Variants}

theorem Tally.add_of_taken (h : Tally cs vs) {c : ConstantDesc} {v : Variant}
    (hMem : v ∈ vs.variants) (hValue : v.value = c.value) :
    Tally (cs ++ [c]) { vs with aliases := vs.aliases ++ [⟨Ident.escape c.name, v.name⟩] } := by
  have hTaken : c.value ∈ cs.map ConstantDesc.value :=
    (h.values c.value).mp (List.mem_map.mpr ⟨v, hMem, hValue⟩)
  refine ⟨?_, ?_, h.distinct, fun x => ?_, ?_⟩
  · rw [leaders_append_of_taken hTaken]
    exact h.variants
  · rw [followers_append_of_taken hTaken]
    exact List.rel_append h.aliases (.cons ⟨rfl, v, hMem, hValue, rfl⟩ .nil)
  · rw [h.values, List.map_append, List.map_singleton, List.mem_append, List.mem_singleton]
    exact ⟨.inl, fun hx => hx.elim id fun hEq => hEq ▸ hTaken⟩
  · simpa [← Nat.add_assoc] using h.count

theorem Tally.add_of_free (h : Tally cs vs) {c : ConstantDesc}
    (hFree : c.value ∉ vs.variants.map Variant.value) :
    Tally (cs ++ [c]) { vs with variants := vs.variants ++ [⟨Ident.escape c.name, c.value⟩] } := by
  have hNew : c.value ∉ cs.map ConstantDesc.value := fun hx => hFree ((h.values _).mpr hx)
  refine ⟨?_, ?_, ?_, fun x => ?_, ?_⟩
  · rw [leaders_append_of_free hNew, List.map_append, ← h.variants]
    rfl
  · rw [followers_append_of_free hNew]
    refine h.aliases.imp fun d a ⟨hName, v, hMem, hSame⟩ => ?_
    exact ⟨hName, v, List.mem_append_left _ hMem, hSame⟩
  · rw [List.map_append, List.map_singleton, ← List.concat_eq_append]
    exact h.distinct.concat hFree
  · simp only [List.map_append, List.map_singleton, List.mem_append, List.mem_singleton, h.values]
  · have := h.count
    simp only [List.length_append, List.length_singleton]
    omega

/-- One more constant at the end is counted as it has to be. -/
theorem Tally.add (h : Tally cs vs) (c : ConstantDesc) : Tally (cs ++ [c]) (vs.add c) := by
  unfold Variants.add
  split
  · rename_i v hFind
    have hValue : v.value = c.value := by simpa using List.find?_some hFind
    exact h.add_of_taken (List.mem_of_find?_eq_some hFind) hValue
  · rename_i hNone
    refine h.add_of_free fun hMem => ?_
    obtain ⟨v, hv, hValue⟩ := List.mem_map.mp hMem
    exact List.find?_eq_none.mp hNone v hv (by simpa using hValue)

section AddAll

variable {width : Scalar} {lo hi : Int}

theorem Tally.addAll (h : Tally cs vs) {seen : List String} {rest : List ConstantDesc}
    {out : Variants} (hOut : addAll width lo hi seen vs rest = .ok out) :
    Tally (cs ++ rest) out := by
  induction rest generalizing cs vs seen with
  | nil =>
    cases hOut
    rwa [List.append_nil]
  | cons c rest ih =>
    rw [Variants.addAll] at hOut
    split at hOut
    · cases hOut
    · split at hOut
      · cases hOut
      · simpa using ih (h.add c) hOut

/-- Constants are added without a fault exactly if their names are new and distinct, and their
values in the range. -/
theorem exists_addAll_iff {seen : List String} {rest : List ConstantDesc} :
    (∃ out, addAll width lo hi seen vs rest = .ok out) ↔
      (∀ c ∈ rest, c.name ∉ seen) ∧ (rest.map ConstantDesc.name).Nodup ∧
        ∀ c ∈ rest, lo ≤ c.value ∧ c.value ≤ hi := by
  induction rest generalizing vs seen with
  | nil => exact ⟨fun _ => ⟨nofun, List.nodup_nil, nofun⟩, fun _ => ⟨vs, rfl⟩⟩
  | cons c rest ih =>
    rw [Variants.addAll, List.forall_mem_cons, List.map_cons, List.nodup_cons,
      List.forall_mem_cons]
    by_cases hSeen : c.name ∈ seen
    · simp [hSeen]
    · by_cases hOut : c.value < lo ∨ hi < c.value
      · have hBad : ¬(lo ≤ c.value ∧ c.value ≤ hi) := by omega
        simp [hSeen, hOut, hBad]
      · have hGood : lo ≤ c.value ∧ c.value ≤ hi := by omega
        rw [if_neg (by simpa using hSeen), if_neg hOut, ih]
        simp only [List.mem_cons, not_or, List.mem_map, not_exists, not_and]
        constructor
        · rintro ⟨hNames, hDistinct, hRange⟩
          exact ⟨⟨hSeen, fun d hd => (hNames d hd).2⟩,
            ⟨fun d hd => (hNames d hd).1, hDistinct⟩, hGood, hRange⟩
        · rintro ⟨⟨-, hNames⟩, ⟨hOther, hDistinct⟩, -, hRange⟩
          exact ⟨fun d hd => ⟨hOther d hd, hNames d hd⟩, hDistinct, hRange⟩

end AddAll

end Variants

namespace Enumeration

/-- A description that makes no enumeration. Where it has no width, that is `int32`. -/
inductive Faulty (desc : TypeDesc) : Prop
  | notInteger (hWidth : (desc.underlying.getD .int32).range? = none)
  | unlisted (hConstants : desc.constants = none)
  | repeatedName {cs : List ConstantDesc} (hConstants : desc.constants = some cs)
      (hNames : ¬(cs.map ConstantDesc.name).Nodup)
  | outOfRange {cs : List ConstantDesc} {c : ConstantDesc} {lo hi : Int}
      (hConstants : desc.constants = some cs) (hMem : c ∈ cs)
      (hRange : (desc.underlying.getD .int32).range? = some (lo, hi))
      (hOut : c.value < lo ∨ hi < c.value)

theorem exists_variants_iff (desc : TypeDesc) :
    (∃ vs, Variants.ofConstants desc.width desc.constants = .ok vs) ↔ ¬Faulty desc := by
  unfold Variants.ofConstants
  split
  · rename_i hWidth
    exact ⟨nofun, fun hNot => absurd (.notInteger hWidth) hNot⟩
  · rename_i hConstants
    exact ⟨nofun, fun hNot => absurd (.unlisted hConstants) hNot⟩
  · rename_i lo hi cs hWidth hConstants
    rw [Variants.exists_addAll_iff]
    constructor
    · rintro ⟨-, hDistinct, hAll⟩ (hNone | hNone | ⟨hSome, hNames⟩ | ⟨hSome, hMem, hRange, hOut⟩)
      · cases hWidth.symm.trans hNone
      · cases hConstants.symm.trans hNone
      · cases hConstants.symm.trans hSome
        exact hNames hDistinct
      · cases hConstants.symm.trans hSome
        cases hWidth.symm.trans hRange
        have := hAll _ hMem
        omega
    · intro hNot
      refine ⟨nofun, by_contra fun hNames => hNot (.repeatedName hConstants hNames), ?_⟩
      refine fun c hMem => by_contra fun hOut => ?_
      exact hNot (.outOfRange hConstants hMem hWidth (by omega))

/-- A description makes an enumeration unless it is faulty. Of a faulty one there are no variants
and no aliases, and it is reported once. Any other is not reported: its variants are the first
constants of each value and its aliases all later ones, in order and under their escaped names, each
of them for the one variant of its value. -/
theorem ofDesc_translates (type : TypeExpr) (desc : TypeDesc) :
    ((ofDesc type desc).isMalformed = true ↔ Faulty desc) ∧
    (Faulty desc → (ofDesc type desc).variants = [] ∧ (ofDesc type desc).aliases = [] ∧
      ∃ fault : EnumFault,
        (ofDesc type desc).diagnostic? = some (.malformedEnum type.canonical fault.reason)) ∧
    (¬Faulty desc → (ofDesc type desc).diagnostic? = none ∧ ∃ cs, desc.constants = some cs ∧
      Variants.Tally cs ⟨(ofDesc type desc).variants, (ofDesc type desc).aliases⟩) := by
  have hOk := exists_variants_iff desc
  unfold isMalformed variants aliases diagnostic? ofDesc
  cases hBody : Variants.ofConstants desc.width desc.constants with
  | error fault =>
    have hFaulty : Faulty desc := by
      by_contra hNot
      obtain ⟨vs, hVariants⟩ := hOk.mpr hNot
      cases hBody.symm.trans hVariants
    refine ⟨iff_of_true rfl hFaulty, fun _ => ⟨rfl, rfl, fault, rfl⟩, fun hNot => ?_⟩
    exact absurd hFaulty hNot
  | ok vs =>
    have hNot : ¬Faulty desc := hOk.mp ⟨vs, hBody⟩
    refine ⟨iff_of_false Bool.false_ne_true hNot, fun hFaulty => absurd hFaulty hNot, fun _ => ?_⟩
    refine ⟨rfl, ?_⟩
    unfold Variants.ofConstants at hBody
    split at hBody
    · cases hBody
    · cases hBody
    · rename_i cs hWidth hConstants
      exact ⟨cs, hConstants, Variants.tally_nil.addAll hBody⟩

/-- The second constant of a value is an alias, and a reserved word is escaped. -/
example : (ofDesc (.inModule ["app"] "Kind") (.ofConstants "App.Kind" .byte
    [⟨"None", 0⟩, ⟨"Pc", 1⟩, ⟨"Player", 1⟩, ⟨"Self", 2⟩])).body =
      .ok ⟨[⟨"None", 0⟩, ⟨"Pc", 1⟩, ⟨"Self_", 2⟩], [⟨"Player", "Pc"⟩]⟩ := by
  decide

end Enumeration

end FixedLayout
