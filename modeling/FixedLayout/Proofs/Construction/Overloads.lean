import FixedLayout.Proofs.Construction.Resolution
import FixedLayout.Proofs.Text.Digits
import Mathlib.Data.List.Nodup

/-! The names of descriptors. Functions that share a name are told apart by a number behind it. The
number is chosen without a look at the other names, so two descriptors of one owner share a name
exactly if a function is called like an overload of another one. -/

namespace FixedLayout

/-- The names of the functions that get descriptors, those that are bound and not deprecated. -/
def boundNames (fs : List FunctionDesc) : List String :=
  (fs.filter fun f => f.binding.isSome && !f.deprecated).map FunctionDesc.name

namespace Descriptor

/-! ### Names and their numbers -/

/-- Each name with the number of times that it occurs before. -/
def overloads (earlier : List String) : List String → List (String × Nat)
  | [] => []
  | name :: names => (name, earlier.count name) :: overloads (name :: earlier) names

theorem mem_overloads {earlier names : List String} {name : String} {k : Nat} :
    (name, k) ∈ overloads earlier names ↔
      earlier.count name ≤ k ∧ k < earlier.count name + names.count name := by
  induction names generalizing earlier with
  | nil =>
    simp only [overloads, List.not_mem_nil, List.count_nil, false_iff]
    omega
  | cons first names ih =>
    rw [overloads, List.mem_cons, ih, Prod.mk.injEq]
    by_cases hSame : name = first
    · subst hSame
      simp only [true_and, List.count_cons_self]
      omega
    · rw [List.count_cons_of_ne (Ne.symm hSame), List.count_cons_of_ne (Ne.symm hSame)]
      simp [hSame]

/-- A name with its number tells the occurrence. -/
theorem nodup_overloads (earlier names : List String) : (overloads earlier names).Nodup := by
  induction names generalizing earlier with
  | nil => exact .nil
  | cons name names ih =>
    refine List.nodup_cons.mpr ⟨fun h => ?_, ih _⟩
    have hLater := (mem_overloads.mp h).1
    rw [List.count_cons_self] at hLater
    omega

theorem overloadMark_of_pos {k : Nat} (h : 0 < k) : overloadMark k = "_" ++ toString k :=
  if_neg h.ne'

/-- What stands behind the last underscore is not mistaken for anything else. -/
theorem eq_of_append_underscore {as bs cs ds : List Char} (hcs : '_' ∉ cs) (hds : '_' ∉ ds)
    (h : as ++ '_' :: cs = bs ++ '_' :: ds) : as = bs ∧ cs = ds := by
  have hNone : ∀ {mid cs ds : List Char}, '_' ∉ cs → '_' :: cs = mid ++ '_' :: ds →
      mid = [] ∧ cs = ds := by
    intro mid cs ds hcs h
    cases mid with
    | nil => exact ⟨rfl, (List.cons.inj h).2⟩
    | cons c mid =>
      rw [List.cons_append] at h
      exact absurd ((List.cons.inj h).2 ▸ by simp) hcs
  rcases List.append_eq_append_iff.mp h with ⟨mid, rfl, hRest⟩ | ⟨mid, rfl, hRest⟩
  · obtain ⟨rfl, hSame⟩ := hNone hcs hRest
    exact ⟨(List.append_nil as).symm, hSame⟩
  · obtain ⟨rfl, hSame⟩ := hNone hds hRest
    exact ⟨List.append_nil bs, hSame.symm⟩

/-- A name with a positive number can be taken apart again. -/
theorem eq_of_append_number {name name' : String} {k k' : Nat}
    (h : name ++ "_" ++ toString k = name' ++ "_" ++ toString k') : name = name' ∧ k = k' := by
  have hDigits (k : Nat) : '_' ∉ (toString k).toList := fun hMem =>
    absurd (Text.isDigit_of_mem_numeral hMem) (by decide)
  have hLists := congrArg String.toList h
  simp only [String.toList_append] at hLists
  obtain ⟨hName, hNumber⟩ := eq_of_append_underscore (hDigits k) (hDigits k')
    (by simpa using hLists)
  exact ⟨String.toList_injective hName, Text.numeral_injective (String.toList_injective hNumber)⟩

/-- Names with numbers agree only where one of them is, as a whole, the name of the other. -/
theorem append_overloadMark_cases {name name' : String} {k k' : Nat}
    (h : name ++ overloadMark k = name' ++ overloadMark k') :
    (name = name' ∧ k = k') ∨ (k = 0 ∧ 0 < k' ∧ name = name' ++ overloadMark k') ∨
      (k' = 0 ∧ 0 < k ∧ name' = name ++ overloadMark k) := by
  have hZero (name : String) : name ++ overloadMark 0 = name := String.append_empty
  rcases Nat.eq_zero_or_pos k with rfl | hk <;> rcases Nat.eq_zero_or_pos k' with rfl | hk'
  · rw [hZero, hZero] at h
    exact .inl ⟨h, rfl⟩
  · rw [hZero] at h
    exact .inr (.inl ⟨rfl, hk', h⟩)
  · rw [hZero] at h
    exact .inr (.inr ⟨rfl, hk, h.symm⟩)
  · rw [overloadMark_of_pos hk, overloadMark_of_pos hk', ← String.append_assoc,
      ← String.append_assoc] at h
    exact .inl (eq_of_append_number h)

/-- The numbers keep names apart unless a name is another one with a number in use. -/
theorem nodup_append_overloadMark_iff (names : List String) :
    ((overloads [] names).map fun p => p.1 ++ overloadMark p.2).Nodup ↔
      ∀ name k, 0 < k → k < names.count name → name ++ overloadMark k ∉ names := by
  have hFirst {name : String} : (name, 0) ∈ overloads [] names ↔ name ∈ names := by
    simp [mem_overloads, List.count_pos_iff]
  rw [List.nodup_map_iff_inj_on (nodup_overloads [] names)]
  constructor
  · intro hInj name k hk hLt hMem
    have hHere : (name, k) ∈ overloads [] names := mem_overloads.mpr (by simpa using hLt)
    have hSame := hInj _ hHere _ (hFirst.mpr hMem) String.append_empty.symm
    exact hk.ne' (Prod.mk.inj hSame).2
  · rintro hNone ⟨name, k⟩ hHere ⟨name', k'⟩ hThere hSame
    rcases append_overloadMark_cases hSame with
      ⟨rfl, rfl⟩ | ⟨rfl, hk', rfl⟩ | ⟨rfl, hk, rfl⟩
    · rfl
    · exact absurd (hFirst.mp hHere) (hNone name' k' hk' (by simpa using (mem_overloads.mp hThere).2))
    · exact absurd (hFirst.mp hThere) (hNone name k hk (by simpa using (mem_overloads.mp hHere).2))

end Descriptor

/-! ### The descriptors of one owner -/

namespace Construction

open Script

/-- Every name with its number is made into a descriptor, in order. -/
theorem Host.made_of_descriptors {setting : Setting} {desc : TypeDesc} {owner : TypeExpr}
    {earlier : List String} {fs : List FunctionDesc} {ds : List Descriptor}
    (h : ((recorder setting).descriptors desc owner earlier fs).result = .ok ds) :
    List.Forall₂ (fun p d => ∃ binding params returns isStatic,
        Descriptor.make owner p.1 p.2 binding params returns isStatic = .ok d)
      (Descriptor.overloads earlier (boundNames fs)) ds := by
  induction fs generalizing earlier ds with
  | nil =>
    cases h
    exact .nil
  | cons f fs ih =>
    unfold descriptors at h
    split at h
    · rename_i binding hBinding hDeprecated
      obtain ⟨d, hHead, h, -⟩ := bind_ok h
      obtain ⟨ds', hRest, h, -⟩ := bind_ok h
      cases h
      unfold descriptor at hHead
      obtain ⟨_, -, hHead, -⟩ := bind_ok hHead
      obtain ⟨_, -, hHead, -⟩ := bind_ok hHead
      obtain ⟨_, -, hHead, -⟩ := bind_ok hHead
      rw [result_ofExcept] at hHead
      have hNames : boundNames (f :: fs) = f.name :: boundNames fs := by
        simp [boundNames, hBinding, hDeprecated]
      rw [hNames]
      exact .cons ⟨_, _, _, _, hHead⟩ (ih hRest)
    · rename_i hNot
      have hNames : boundNames (f :: fs) = boundNames fs := by
        cases hBinding : f.binding with
        | none => simp [boundNames, hBinding]
        | some binding =>
          cases hDeprecated : f.deprecated with
          | false => exact absurd hDeprecated (hNot binding hBinding)
          | true => simp [boundNames, hDeprecated]
      rw [hNames]
      exact ih h

theorem Host.structNames_of_descriptors {setting : Setting} {desc : TypeDesc} {owner : TypeExpr}
    {earlier : List String} {fs : List FunctionDesc} {ds : List Descriptor}
    (h : ((recorder setting).descriptors desc owner earlier fs).result = .ok ds) :
    ds.map Descriptor.structName =
      ((Descriptor.overloads earlier (boundNames fs)).map fun p =>
        p.1 ++ Descriptor.overloadMark p.2).map (owner.name ++ "_Fn_" ++ ·) := by
  replace h := made_of_descriptors h
  generalize Descriptor.overloads earlier (boundNames fs) = names at h ⊢
  induction h with
  | nil => rfl
  | cons hMake _ ih =>
    obtain ⟨binding, params, returns, isStatic, hMake⟩ := hMake
    rw [List.map_cons, List.map_cons, List.map_cons, ih, eq_of_make hMake, String.append_assoc]

namespace Scope

variable {scope : Scope} {desc : TypeDesc} {owner : TypeExpr} {s : Session} {ds : List Descriptor}

/-- The descriptors of an owner have distinct names exactly if none of its functions that are bound
is called like another one of them with an underscore and the number of an overload behind it. -/
theorem nodup_structNames_iff
    (h : ((scope.descriptors desc owner [] desc.functions).on s).1 = .ok ds) :
    (ds.map Descriptor.structName).Nodup ↔
      ∀ name k, 0 < k → k < (boundNames desc.functions).count name →
        name ++ "_" ++ toString k ∉ boundNames desc.functions := by
  rw [← Host.runOn_descriptors] at h
  have hInj : Function.Injective (owner.name ++ "_Fn_" ++ ·) := by
    intro name name' hSame
    simpa using hSame
  rw [Host.structNames_of_descriptors (ok_of_on h), List.nodup_map_iff hInj,
    Descriptor.nodup_append_overloadMark_iff]
  refine forall_congr' fun name => forall_congr' fun k => forall_congr' fun hk => ?_
  rw [Descriptor.overloadMark_of_pos hk, String.append_assoc]

/-- A type with two functions of one name and a third function. -/
def caller (third : String) : TypeDesc :=
  { TypeDesc.ofFields "App.Caller" 8 [] with
    functions := ["Call", "Call", third].map fun name => { name, binding := some (.virtual 0) } }

/-- What its functions are described as. -/
def callerDescriptors (third : String) : Except ExportError (List Descriptor) :=
  (((top ⟨.ofTypes [caller third], .forNamespace "App" ["app"]⟩).descriptors (caller third)
    (.inModule ["app"] "Caller") [] (caller third).functions).on {}).1

theorem nodup_structNames_iff_caller :
    ∃ ds, callerDescriptors "Send" = .ok ds ∧
      ds.map Descriptor.structName = ["Caller_Fn_Call", "Caller_Fn_Call_1", "Caller_Fn_Send"] ∧
      ((ds.map Descriptor.structName).Nodup ↔
        ∀ name k, 0 < k → k < (boundNames (caller "Send").functions).count name →
          name ++ "_" ++ toString k ∉ boundNames (caller "Send").functions) := by
  have hOk : callerDescriptors "Send" = .ok ((callerDescriptors "Send").toOption.getD []) := by
    decide +kernel
  exact ⟨_, hOk, by decide +kernel, nodup_structNames_iff hOk⟩

/-- The second function of a name and the function that is called like it share a name. -/
theorem exists_structNames_not_nodup :
    ∃ ds, callerDescriptors "Call_1" = .ok ds ∧
      ds.map Descriptor.structName = ["Caller_Fn_Call", "Caller_Fn_Call_1", "Caller_Fn_Call_1"] ∧
      ¬(ds.map Descriptor.structName).Nodup := by
  refine ⟨(callerDescriptors "Call_1").toOption.getD [], ?_⟩
  decide +kernel

end Scope

end Construction

end FixedLayout
