import FixedLayout.Proofs.Construction.Mentions
import FixedLayout.Proofs.Taint.Closure
import FixedLayout.Proofs.TypeExpr.RoundTrip

/-! What a construction starts from. Built-in primitives and provided types are registered in order,
and the first one keeps a key. A later one with the same key is passed over together with its
taint. -/

namespace FixedLayout.Construction

/-- The built-in primitives, and those of the provided types, in the order of registration. -/
def provided (config : Config) : List Primitive :=
  Primitive.builtin ++ config.externals.filterMap fun external =>
    (TypeExpr.parse external.target).toOption.map (externalPrimitive external)

theorem type_externalPrimitive (external : External) (t : TypeExpr) :
    (externalPrimitive external t).type = t.erased := by
  obtain ⟨path, _ | args, indirection, extent⟩ := t <;>
    cases hTainted : external.tainted <;>
      simp [externalPrimitive, hTainted, Primitive.wrapper, Primitive.ofType, Primitive.asTainted,
        TypeExpr.withArguments, TypeExpr.base, TypeExpr.erased]

theorem key_externalPrimitive (external : External) (t : TypeExpr) :
    (externalPrimitive external t).key = t.erasedText := by
  rw [Primitive.key, type_externalPrimitive, TypeExpr.canonical_erased]

theorem exists_of_isOk {α : Type} {r : Except ExportError α} (h : r.isOk = true) :
    ∃ a, r = .ok a := by
  cases r with
  | error e => cases h
  | ok a => exact ⟨a, rfl⟩

theorem forM_externals {externals : List External}
    (hTargets : ∀ external ∈ externals, (TypeExpr.parse external.target).isOk) :
    (externals.forM fun external => do
      let target ← ofExcept (TypeExpr.parse external.target)
      registerPrimitive (externalPrimitive external target)) =
    (externals.filterMap fun external =>
      (TypeExpr.parse external.target).toOption.map (externalPrimitive external)).forM
        registerPrimitive := by
  induction externals with
  | nil => rfl
  | cons external externals ih =>
    obtain ⟨t, ht⟩ := exists_of_isOk (hTargets external List.mem_cons_self)
    have hRest := ih fun other hOther => hTargets other (List.mem_cons_of_mem _ hOther)
    simp only [List.forM_eq_forM, List.forM_cons, List.filterMap_cons, ht] at hRest ⊢
    rw [hRest]
    rfl

theorem populate_eq {config : Config}
    (hTargets : ∀ external ∈ config.externals, (TypeExpr.parse external.target).isOk) :
    populate config = (provided config).forM registerPrimitive := by
  rw [populate, populateWith, forM_externals hTargets, provided]
  simp only [List.forM_eq_forM, List.forM_append]

/-- A primitive is found under its key, unless something else was found there before. -/
theorem registerPrimitive_get? (p : Primitive) (s : Session) :
    ∃ registry, (registerPrimitive p).on s = (.ok (), { s with registry }) ∧
      s.registry.Grows (· = .primitive p) registry ∧
      ∀ key, registry.get? key =
        (s.registry.get? key).or (if key = p.key then some (.primitive p) else none) := by
  rcases registerPrimitive_on s p with ⟨hTaken, hSkip⟩ | ⟨hFree, hPush⟩
  · refine ⟨s.registry, hSkip, .refl, fun key => ?_⟩
    split
    · rename_i hKey
      obtain ⟨d, hd⟩ := Registry.exists_get? (hKey ▸ hTaken)
      rw [hd]
      rfl
    · rw [Option.or_none]
  · exact ⟨_, hPush, .push .refl rfl hFree, fun key => Registry.get?_push ..⟩

/-- Of primitives in a row, the first one with a key is found there, unless something else was found
there before. -/
theorem forM_registerPrimitive_get? (ps : List Primitive) (s : Session) :
    ∃ registry, (ps.forM registerPrimitive).on s = (.ok (), { s with registry }) ∧
      s.registry.Grows (fun d => ∃ p ∈ ps, d = .primitive p) registry ∧
      ∀ key, registry.get? key =
        (s.registry.get? key).or ((ps.find? (·.key == key)).map .primitive) := by
  induction ps generalizing s with
  | nil => exact ⟨s.registry, rfl, .refl, fun key => by simp⟩
  | cons p ps ih =>
    obtain ⟨first, hFirst, hGrows, hGet⟩ := registerPrimitive_get? p s
    obtain ⟨registry, hRest, hGrowsRest, hGetRest⟩ := ih { s with registry := first }
    refine ⟨registry, ?_, ?_, fun key => ?_⟩
    · show (registerPrimitive p >>= fun _ => ps.forM registerPrimitive).on s = _
      rw [Build.on_bind, hFirst]
      exact hRest
    · refine (hGrows.mono fun d hd => ⟨p, List.mem_cons_self, hd⟩).trans (hGrowsRest.mono ?_)
      rintro d ⟨q, hq, rfl⟩
      exact ⟨q, List.mem_cons_of_mem _ hq, rfl⟩
    · rw [hGetRest, hGet, Option.or_assoc]
      congr 1
      by_cases hKey : key = p.key
      · simp [hKey]
      · rw [if_neg hKey, List.find?_cons_of_neg (by simpa using Ne.symm hKey)]
        rfl

/-- Primitives are known without arguments, or with an emptied list of them. -/
theorem erased_of_provided {config : Config} {p : Primitive} (hp : p ∈ provided config) :
    p.type.WellFormed ∧ p.type.erased = p.type := by
  rcases List.mem_append.mp hp with hp | hp
  · have hBuiltin : ∀ p ∈ Primitive.builtin,
        TypeExpr.parse p.type.text = .ok p.type ∧ p.type.erased = p.type := by
      decide +kernel
    exact ⟨TypeExpr.wellFormed_of_parse (hBuiltin p hp).1, (hBuiltin p hp).2⟩
  · obtain ⟨external, -, hPrimitive⟩ := List.mem_filterMap.mp hp
    obtain ⟨t, hParse, rfl⟩ := Option.map_eq_some_iff.mp hPrimitive
    have hWellFormed := TypeExpr.wellFormed_of_parse (Script.ok_of_toOption hParse)
    rw [type_externalPrimitive]
    exact ⟨hWellFormed.erased, t.erased_erased⟩

theorem resolve?_of_provided {config : Config} {registry : Registry} {t : TypeExpr}
    (hWellFormed : t.WellFormed)
    (hEntries : ∀ key d, (key, d) ∈ registry.entries →
      key = d.key ∧ ∃ p ∈ provided config, d = .primitive p)
    (hKey : registry.contains t.erasedText = true) :
    registry.resolve? t = some t.erasedText := by
  unfold Registry.resolve?
  rw [if_pos hKey]
  split
  · rename_i hCanonical
    obtain ⟨d, hd⟩ := Registry.exists_get? hCanonical
    obtain ⟨hOwn, p, hp, rfl⟩ := hEntries _ _ (Registry.mem_of_get? hd)
    obtain ⟨hType, hErased⟩ := erased_of_provided hp
    have hText : t.base.text = p.type.base.text := by
      rwa [TypeExpr.text_base, TypeExpr.text_base]
    obtain ⟨hPath, hArgs, -⟩ := TypeExpr.mk.inj (hWellFormed.base.eq_of_text hType.base hText)
    rw [hOwn, ← TypeExpr.erasedText_congr hPath.symm hArgs.symm, ← TypeExpr.canonical_erased,
      hErased]
    rfl
  · rfl

/-- Where all targets can be read, populating succeeds, each provided type stands for its erased
name, and that is a seed exactly if the first primitive with the name is tainted. -/
theorem seeds_populate {config : Config}
    (hTargets : ∀ external ∈ config.externals, (TypeExpr.parse external.target).isOk) :
    ∃ s, (populate config).on {} = (.ok (), s) ∧
      ∀ external ∈ config.externals, ∀ t, TypeExpr.parse external.target = .ok t →
        s.registry.resolve? t = some t.erasedText ∧
        ((Taint.seeds s.registry).contains t.erasedText = true ↔
          ∃ p, (provided config).find? (·.key == t.erasedText) = some p ∧ p.tainted = true) := by
  obtain ⟨registry, hOn, hGrows, hFound⟩ := forM_registerPrimitive_get? (provided config) {}
  rw [populate_eq hTargets]
  refine ⟨_, hOn, fun external hMem t ht => ?_⟩
  have hKeys := hGrows.nodup List.nodup_nil
  have hEntries : ∀ key d, (key, d) ∈ registry.entries →
      key = d.key ∧ ∃ p ∈ provided config, d = .primitive p := fun key d hEntry =>
    (hGrows.origin hEntry).resolve_left nofun
  have hGet (key : String) :
      registry.get? key = ((provided config).find? (·.key == key)).map .primitive :=
    hFound key
  have hSome : (externalPrimitive external t) ∈ provided config := by
    refine List.mem_append_right _ (List.mem_filterMap.mpr ⟨external, hMem, ?_⟩)
    rw [ht]
    rfl
  constructor
  · refine resolve?_of_provided (TypeExpr.wellFormed_of_parse ht) hEntries ?_
    rw [Registry.contains, hGet, Option.isSome_map, List.find?_isSome]
    exact ⟨_, hSome, by simp [key_externalPrimitive]⟩
  · rw [Taint.contains_seeds_iff hKeys fun key d hEntry => (hEntries key d hEntry).1.symm]
    simp [hGet]

/-- A container of the runtime crate under two names, of which the first tells that it owns memory. -/
def buffers : Config :=
  { Config.forNamespace "App" ["app"] with externals := [
    { source := "App.Bytes", target := "crate::rt::Buffer<u8>", tainted := true },
    { source := "App.Text", target := "*mut crate::rt::Buffer<u16>" }] }

/-- Both names stand for the container without its argument, and it is tainted. -/
theorem seeds_populate_buffers :
    ∃ s t, (populate buffers).on {} = (.ok (), s) ∧
      TypeExpr.parse "*mut crate::rt::Buffer<u16>" = .ok t ∧
      s.registry.resolve? t = some "crate::rt::Buffer<>" ∧
      (Taint.seeds s.registry).contains "crate::rt::Buffer<>" = true := by
  obtain ⟨s, hOn, hSeeds⟩ := @seeds_populate buffers (by decide +kernel)
  let t := ((TypeExpr.inModule ["rt"] "Buffer").withArguments [.ofPath ["u16"]]).pointerTo
  have ht : TypeExpr.parse "*mut crate::rt::Buffer<u16>" = .ok t := by decide +kernel
  have hKey : t.erasedText = "crate::rt::Buffer<>" := by decide +kernel
  obtain ⟨hResolve, hIff⟩ := hSeeds { source := "App.Text", target := "*mut crate::rt::Buffer<u16>" }
    (by decide +kernel) t ht
  rw [hKey] at hResolve hIff
  have hFirst : (provided buffers).find? (·.key == "crate::rt::Buffer<>") =
      some ⟨(TypeExpr.inModule ["rt"] "Buffer").withArguments [], true⟩ := by
    decide +kernel
  exact ⟨s, t, hOn, ht, hResolve, hIff.mpr ⟨_, hFirst, rfl⟩⟩

/-- A type of the runtime crate under two names, of which the second tells that it owns memory. -/
def twice : Config :=
  { Config.forNamespace "App" ["app"] with externals := [
    { source := "App.View", target := "crate::rt::Handle" },
    { source := "App.Owner", target := "crate::rt::Handle", tainted := true }] }

/-- The taint of the second name is lost. -/
theorem exists_not_seeded :
    ∃ external ∈ twice.externals, external.tainted = true ∧
      TypeExpr.parse external.target = .ok (TypeExpr.inModule ["rt"] "Handle") ∧
      ((populate twice).on {}).1 = .ok () ∧
      ((populate twice).on {}).2.registry.resolve? (TypeExpr.inModule ["rt"] "Handle") =
        some "crate::rt::Handle" ∧
      (Taint.seeds ((populate twice).on {}).2.registry).contains "crate::rt::Handle" = false := by
  decide +kernel

end FixedLayout.Construction
