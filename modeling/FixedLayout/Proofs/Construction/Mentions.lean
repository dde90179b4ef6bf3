import FixedLayout.Proofs.Construction.Account

/-! What types mention. Every type that a shape is resolved to mentions only what the initial
primitives and the actions of the shape declare. -/

namespace FixedLayout

namespace TypeExpr

theorem Mentions.eq_of_plain {t u : TypeExpr} (hPlain : t.arguments = none) (h : t.Mentions u) :
    u = t := by
  cases h with
  | self => rfl
  | argument hArgs => rw [hPlain] at hArgs; cases hArgs

theorem canonical_congr {t u : TypeExpr} (hPath : u.path = t.path)
    (hArgs : u.arguments = t.arguments) : u.canonical = t.canonical := by
  obtain ⟨path, args, _, _⟩ := t
  obtain ⟨_, _, _, _⟩ := u
  cases hPath
  cases hArgs
  cases args <;> rfl

theorem erasedText_congr {t u : TypeExpr} (hPath : u.path = t.path)
    (hArgs : u.arguments = t.arguments) : u.erasedText = t.erasedText := by
  rw [erasedText, erasedText, hPath, hArgs]

/-- An emptied argument list is the erased one. -/
theorem canonical_erased (t : TypeExpr) : t.erased.canonical = t.erasedText := by
  obtain ⟨path, _ | args, _, _⟩ := t
  · simp [erased, base, canonical, erasedText]
  · simp [erased, base, canonical, erasedText, texts, String.append_assoc]

theorem erased_erased (t : TypeExpr) : t.erased.erased = t.erased := by
  simp [erased, base, Option.map_map, Function.comp_def]

end TypeExpr

theorem Primitive.key_wrapper (t : TypeExpr) :
    (wrapper t).key = "::".intercalate t.path ++ "<>" := by
  simp [wrapper, ofType, key, TypeExpr.withArguments, TypeExpr.base, TypeExpr.canonical,
    TypeExpr.texts, String.append_assoc]

namespace Construction

open Script

/-- Once the action has been performed, the type stands for something. -/
inductive Action.Backs (config : Config) : Action → TypeExpr → Prop
  | primitive {p : Primitive} {u : TypeExpr}
      (hKey : p.key = u.canonical ∨ p.key = u.erasedText) : Backs config (.primitive p) u
  | ensure {desc : TypeDesc} {type u : TypeExpr} (hCandidate : isCandidate config desc = true)
      (hKey : type.canonical = u.canonical) : Backs config (.ensure desc type) u
  | placeholder {type u : TypeExpr} (hOpen : (openRecord type).key = type.erasedText)
      (hKey : type.erasedText = u.erasedText) : Backs config (.placeholder type) u
  | place {d : Declaration} {u : TypeExpr} (hKey : d.key = u.canonical) : Backs config (.place d) u

theorem Registry.resolve?_isSome {r : Registry} {u : TypeExpr}
    (h : r.contains u.canonical = true ∨ r.contains u.erasedText = true) :
    (r.resolve? u).isSome = true := by
  unfold FixedLayout.Registry.resolve?
  split
  · rfl
  · rename_i hCanonical
    rw [if_pos (h.resolve_left hCanonical)]
    rfl

theorem Action.Backs.resolves {config : Config} {a : Action} {u : TypeExpr} {s : Session}
    (h : a.Backs config u) (hSettled : a.Settled config s) (hStack : s.stack = []) :
    (s.registry.resolve? u).isSome = true := by
  have hPending : ∀ {key}, s.isPending key = true → s.registry.contains key = true := by
    intro key hKey
    simpa [Session.isPending, hStack] using hKey
  apply Registry.resolve?_isSome
  cases h with
  | primitive hKey =>
    rcases hKey with hKey | hKey
    · exact .inl (hKey ▸ hSettled)
    · exact .inr (hKey ▸ hSettled)
  | ensure hCandidate hKey => exact .inl (hKey ▸ hPending (hSettled hCandidate))
  | placeholder hOpen hKey => exact .inr (hKey ▸ hPending (hSettled hOpen))
  | place hKey => exact .inl (hKey ▸ hSettled)

theorem Action.Backs.congr {config : Config} {a : Action} {t u : TypeExpr}
    (h : a.Backs config t) (hPath : u.path = t.path) (hArgs : u.arguments = t.arguments) :
    a.Backs config u := by
  have hCanonical := TypeExpr.canonical_congr hPath hArgs
  have hErased := TypeExpr.erasedText_congr hPath hArgs
  cases h with
  | primitive hKey => exact .primitive (by rwa [hCanonical, hErased])
  | ensure hCandidate hKey => exact .ensure hCandidate (by rwa [hCanonical])
  | placeholder hOpen hKey => exact .placeholder hOpen (by rwa [hErased])
  | place hKey => exact .place (by rwa [hCanonical])

/-- The type stands for something, once the initial primitives are registered and the actions are
performed. -/
def Setting.Backs (setting : Setting) (as : List Action) (u : TypeExpr) : Prop :=
  ∃ a, (a ∈ setting.basis.actions ∨ a ∈ as) ∧ a.Backs setting.config u

/-- So does every type that it mentions. -/
def Setting.Covers (setting : Setting) (as : List Action) (t : TypeExpr) : Prop :=
  ∀ u, t.Mentions u → setting.Backs as u

variable {setting : Setting} {as bs : List Action} {t u : TypeExpr}

namespace Setting

theorem Backs.mono (h : setting.Backs as t) (hSub : as ⊆ bs) : setting.Backs bs t := by
  obtain ⟨a, ha, hBacks⟩ := h
  exact ⟨a, ha.imp_right fun h => hSub h, hBacks⟩

theorem Covers.mono (h : setting.Covers as t) (hSub : as ⊆ bs) : setting.Covers bs t :=
  fun u hu => (h u hu).mono hSub

/-- Pointers and an extent change nothing. -/
theorem Covers.congr (h : setting.Covers as t) (hPath : u.path = t.path)
    (hArgs : u.arguments = t.arguments) : setting.Covers as u := by
  intro v hv
  cases hv with
  | self =>
    obtain ⟨a, ha, hBacks⟩ := h t (.self t)
    exact ⟨a, ha, hBacks.congr hPath hArgs⟩
  | argument hHere hMem hv => exact h v (.argument (hArgs ▸ hHere) hMem hv)

theorem covers_of_plain (hPlain : t.arguments = none) (h : setting.Backs as t) :
    setting.Covers as t := by
  intro u hu
  rwa [hu.eq_of_plain hPlain]

theorem covers_of_arguments {args : List TypeExpr} (hArguments : t.arguments = some args)
    (h : setting.Backs as t) (hArgs : ∀ arg ∈ args, setting.Covers as arg) :
    setting.Covers as t := by
  intro u hu
  cases hu with
  | self => exact h
  | argument hHere hMem hu =>
    cases hHere.symm.trans hArguments
    exact hArgs _ hMem u hu

/-! ### The initial primitives -/

section Basis

variable (hBasis : setting.basis.result = .ok ())
include hBasis

theorem primitive_mem_basis {p : Primitive} (h : p ∈ Primitive.builtin) :
    .primitive p ∈ setting.basis.actions := by
  obtain ⟨_, hBuiltin, -, hActions⟩ := bind_ok hBasis
  rw [Setting.basis, populateWith, hActions]
  exact List.mem_append_left _
    ((actions_subset_forM hBuiltin h).2 (List.mem_singleton_self _))

theorem external_mem_basis {external : External} (h : external ∈ setting.config.externals)
    {target : TypeExpr} (hTarget : TypeExpr.parse external.target = .ok target) :
    .primitive (externalPrimitive external target) ∈ setting.basis.actions := by
  obtain ⟨_, -, hExternals, hActions⟩ := bind_ok hBasis
  rw [Setting.basis, populateWith, hActions]
  refine List.mem_append_right _ ((actions_subset_forM hExternals h).2 ?_)
  rw [hTarget]
  exact List.mem_singleton_self _

/-- A built-in primitive stands for itself. -/
theorem backs_builtin {p : Primitive} (h : p ∈ Primitive.builtin)
    (hKey : p.key = t.canonical ∨ p.key = t.erasedText) : setting.Backs as t :=
  ⟨_, .inl (primitive_mem_basis hBasis h), .primitive hKey⟩

theorem covers_void (depth : Nat) : setting.Covers as (Primitive.void depth) := by
  unfold Primitive.void
  split
  · refine covers_of_plain rfl (backs_builtin hBasis (p := .ofType (.ofPath ["()"])) ?_ (.inl rfl))
    decide
  · refine covers_of_plain rfl (backs_builtin hBasis (p := .ofType Primitive.untyped) ?_ (.inl rfl))
    decide

theorem covers_opaquePointer (depth : Nat) : setting.Covers as (Primitive.opaquePointer depth) := by
  refine covers_of_plain rfl (backs_builtin hBasis (p := .ofType Primitive.untyped) ?_ (.inl rfl))
  decide

theorem covers_scalar {scalar : Scalar} {depth : Nat} (h : scalar.typeExpr? depth = some t) :
    setting.Covers as t := by
  have hBuiltin : ∀ scalar : Scalar, Primitive.ofType scalar.primitive.base ∈ Primitive.builtin ∧
      scalar.primitive.arguments = none ∧
      (Primitive.ofType scalar.primitive.base).key = scalar.primitive.canonical := by
    intro scalar
    cases scalar <;> decide
  obtain ⟨-, rfl⟩ := Scalar.typeExpr?_eq_some_iff.mp h
  obtain ⟨hThere, hPlain, hKey⟩ := hBuiltin scalar
  refine covers_of_plain hPlain (backs_builtin hBasis hThere (.inl ?_))
  rw [hKey]
  exact TypeExpr.canonical_congr rfl rfl

theorem covers_bytesType (size : Nat) : setting.Covers as (Member.bytesType size) := by
  have hByte : setting.Covers as (.ofPath ["u8"]) := by
    refine covers_of_plain rfl (backs_builtin hBasis (p := .ofType (.ofPath ["u8"])) ?_ (.inl rfl))
    decide
  unfold Member.bytesType
  split
  · exact hByte
  · exact hByte.congr rfl rfl

theorem covers_manuallyDrop (h : setting.Covers as t) : setting.Covers as t.manuallyDrop := by
  refine covers_of_arguments rfl ?_ (by simpa using h)
  refine backs_builtin hBasis (p := .wrapper (.ofPath TypeExpr.manuallyDropPath)) (by decide) ?_
  exact .inr (Primitive.key_wrapper _)

/-- What an external type is replaced by, if its target has no arguments. -/
theorem covers_external {external : External} (h : external ∈ setting.config.externals)
    (hTarget : TypeExpr.parse external.target = .ok t) (hArgs : t.arguments.getD [] = []) :
    setting.Covers as t := by
  have hBacks : setting.Backs as t := by
    refine ⟨_, .inl (external_mem_basis hBasis h hTarget), .primitive ?_⟩
    have hKey : (externalPrimitive external t).key =
        (if t.arguments.isSome then Primitive.wrapper t else Primitive.ofType t).key := by
      unfold externalPrimitive
      cases external.tainted <;> rfl
    rw [hKey]
    split
    · rename_i hSome
      exact .inr (by rw [Primitive.key_wrapper, TypeExpr.erasedText, if_pos hSome])
    · exact .inl (TypeExpr.canonical_congr rfl rfl)
  cases hHere : t.arguments with
  | none => exact covers_of_plain hHere hBacks
  | some args =>
    rw [hHere] at hArgs
    refine covers_of_arguments hHere hBacks ?_
    simp_all

end Basis

/-- Every type of an exported namespace has a known layout, and no provided type has arguments in
its target. -/
structure Complete (setting : Setting) : Prop where
  layout : ∀ desc ∈ setting.library.types,
    (setting.config.ruleFor? desc.name).any (·.exported) = true →
      desc.isEnum = true ∨ desc.placement ≠ .auto
  external : ∀ external ∈ setting.config.externals, ∀ target,
    TypeExpr.parse external.target = .ok target → target.arguments.getD [] = []

theorem Complete.candidate (h : setting.Complete) {desc : TypeDesc}
    (hMem : desc ∈ setting.library.types) {target : Target}
    (hTarget : Target.ofName? setting.config desc.name = some target)
    (hExported : target.exported = true) : isCandidate setting.config desc = true := by
  obtain ⟨rule, hFound, hSame⟩ := Target.exists_rule hTarget
  have hRule : (setting.config.ruleFor? desc.name).any (·.exported) = true := by
    rw [hFound, Option.any_some, ← hSame]
    exact hExported
  unfold isCandidate
  rw [hRule]
  rcases h.layout desc hMem hRule with hEnum | hPlaced
  · simp [hEnum]
  · simp [hPlaced]

end Setting

/-! ### Shapes -/

namespace Host

variable {setting : Setting} (hBasis : setting.basis.result = .ok ()) (hComplete : setting.Complete)

section Named

variable {context name : String} {args : List Shape} {argTypes : Script (List TypeExpr)}
  (hTypes : Answers (fun as types => ∀ type ∈ types, setting.Covers as type) argTypes)
include hTypes

include hComplete in
theorem covers_referExported {target : Target}
    (hTarget : Target.ofName? setting.config name = some target)
    (hExported : target.exported = true) :
    Answers setting.Covers
      ((recorder setting).referExported context name target args argTypes) := by
  have hCandidate : ∀ {desc}, desc ∈ setting.library.types → desc.name = name →
      isCandidate setting.config desc = true := fun hMem hName =>
    hComplete.candidate hMem (hName ▸ hTarget) hExported
  unfold referExported
  split
  · cases hDesc : (recorder setting).library.definition? name with
    | none => exact answers_throw _
    | some desc =>
      obtain ⟨hMem, hName, -⟩ := Library.definition?_spec hDesc
      refine answers_perform (answers_pure
        (Setting.covers_of_plain rfl ⟨.ensure desc target.type, .inr ?_, ?_⟩))
      · exact List.mem_singleton_self _
      · exact .ensure (hCandidate hMem hName) rfl
  · rename_i hArgs
    refine hTypes.bind fun as types hAll => ?_
    cases hDesc : (recorder setting).library.instantiation? name args with
    | some desc =>
      obtain ⟨hMem, hName, -⟩ := Library.instantiation?_spec hDesc
      refine answers_perform (answers_perform (answers_pure
        (Setting.covers_of_plain rfl ⟨.ensure desc (target.instantiate types).type, .inr ?_, ?_⟩)))
      · simp
      · exact .ensure (hCandidate hMem hName) rfl
    | none =>
      cases hDesc : (recorder setting).library.definition? name with
      | none => exact answers_throw _
      | some desc =>
        obtain ⟨hMem, hName, hPlain⟩ := Library.definition?_spec hDesc
        have hHere : isCandidate (recorder setting).config desc = true := hCandidate hMem hName
        dsimp only
        split
        · exact answers_throw _
        · rename_i hLength
          refine answers_perform (answers_pure ?_)
          have hOpen : desc.isOpenGeneric = true := by
            cases args with
            | nil => exact absurd rfl hArgs
            | cons arg args =>
              cases hParams : desc.params <;> simp_all [TypeDesc.isOpenGeneric]
          refine Setting.covers_of_arguments rfl ⟨.placeholder (openType desc target), .inr ?_, ?_⟩
            fun type hType => (hAll type hType).mono (List.subset_append_left ..)
          · simp
          · exact .placeholder (key_openRecord hOpen target) rfl

theorem covers_referForeign (target : Target) :
    Answers setting.Covers ((recorder setting).referForeign target args argTypes) := by
  have hEnd : ∀ (as : List Action) (type : TypeExpr),
      (∀ arg ∈ type.arguments.getD [], setting.Covers as arg) →
      Answers (fun bs => setting.Covers (as ++ bs)) (do
        (recorder setting).perform (.primitive (.ofType type.erased))
        pure type) := by
    intro as type hArgs
    refine answers_perform (answers_pure ?_)
    have hBacks : setting.Backs (as ++ [.primitive (.ofType type.erased)]) type :=
      ⟨.primitive (.ofType type.erased), .inr (by simp),
        .primitive (.inr (TypeExpr.canonical_erased type))⟩
    cases hHere : type.arguments with
    | none => exact Setting.covers_of_plain hHere hBacks
    | some args =>
      rw [hHere] at hArgs
      exact Setting.covers_of_arguments hHere hBacks fun arg hArg =>
        (hArgs arg hArg).mono (List.subset_append_left ..)
  unfold referForeign
  split
  · exact hEnd [] _ (by simp [Target.type, TypeExpr.inModule, TypeExpr.ofPath])
  · exact hTypes.bind fun as types hAll => hEnd as _ hAll

include hBasis hComplete in
theorem covers_refer :
    Answers setting.Covers ((recorder setting).refer context name args argTypes) := by
  unfold refer
  cases hExternal : (recorder setting).config.external? name with
  | some external =>
    have hMem : external ∈ setting.config.externals := List.mem_of_find?_eq_some hExternal
    exact answers_ofExcept fun type hType =>
      Setting.covers_external hBasis hMem hType (hComplete.external _ hMem _ hType)
  | none =>
    cases hTarget : Target.ofName? (recorder setting).config name with
    | none => exact answers_throw _
    | some target =>
      dsimp only
      split
      · rename_i hExported
        exact covers_referExported hComplete hTypes hTarget hExported
      · exact covers_referForeign hTypes target

include hBasis hComplete in
theorem covers_resolveNamed (depth : Nat) :
    Answers (fun as resolved => setting.Covers as resolved.type)
      ((recorder setting).resolveNamed context name depth args argTypes) := by
  unfold resolveNamed
  split
  · unfold resolveWrapper
    split
    · exact answers_throw _
    · refine hTypes.bind fun as types hAll => ?_
      split
      · rename_i pointee
        split
        · exact answers_throw _
        · refine answers_pure ?_
          rw [List.append_nil]
          exact (hAll pointee (by simp)).congr rfl rfl
      · exact answers_throw _
  · split
    · split
      · exact answers_pure (Setting.covers_opaquePointer hBasis depth)
      · exact answers_throw _
    · refine (covers_refer hBasis hComplete hTypes).bind fun as type hType => ?_
      have hEnd : ∀ size : Nat, Answers (fun bs (resolved : Resolved) =>
          setting.Covers (as ++ bs) resolved.type) (pure ⟨type.withIndirection depth, size⟩) := by
        intro size
        refine answers_pure ?_
        rw [List.append_nil]
        exact hType.congr rfl rfl
      split
      · exact hEnd _
      · refine (answers_ofExcept (P := fun bs _ => bs = []) fun _ _ => rfl).bind
          fun bs size hNil => ?_
        rw [hNil]
        exact hEnd size

end Named

mutual

theorem covers_resolveUnder (hBasis : setting.basis.result = .ok ()) (hComplete : setting.Complete)
    (context : String) (whole : Shape) (depth : Nat) (shape : Shape) :
    Answers (fun as resolved => setting.Covers as resolved.type)
      ((recorder setting).resolveUnder context whole depth shape) := by
  cases shape with
  | void => exact answers_pure (Setting.covers_void hBasis depth)
  | scalar scalar =>
    simp only [resolveUnder]
    cases hType : scalar.typeExpr? depth with
    | none => exact answers_throw _
    | some type => exact answers_pure (Setting.covers_scalar hBasis hType)
  | pointer pointee => exact covers_resolveUnder hBasis hComplete context whole (depth + 1) pointee
  | named name args =>
    exact covers_resolveNamed hBasis hComplete
      (covers_resolveAll hBasis hComplete context args) depth
  | param name => exact answers_throw _

theorem covers_resolveAll (hBasis : setting.basis.result = .ok ()) (hComplete : setting.Complete)
    (context : String) (shapes : List Shape) :
    Answers (fun as types => ∀ type ∈ types, setting.Covers as type)
      ((recorder setting).resolveAll context shapes) := by
  cases shapes with
  | nil => exact answers_pure (by simp)
  | cons shape shapes =>
    refine (covers_resolveUnder hBasis hComplete context shape 0 shape).bind
      fun as resolved hHead => ?_
    refine (covers_resolveAll hBasis hComplete context shapes).bind
      fun bs types hRest => answers_pure ?_
    intro type hType
    rcases List.mem_cons.mp hType with rfl | hType
    · exact hHead.mono (by simp)
    · exact (hRest type hType).mono (by simp)

end

end Host

end Construction

end FixedLayout
