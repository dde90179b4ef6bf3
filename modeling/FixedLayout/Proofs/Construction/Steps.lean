import FixedLayout.Proofs.Construction.Run

/-! Actions without an error. An action that builds nothing succeeds on a session exactly if it is
one of these steps, which also say what it leaves. -/

namespace FixedLayout.Construction

/-- The name and the key of a declaration are free; `root` is the tree with the name in it. -/
structure Session.Admits (s : Session) (d : Declaration) (root : Module) : Prop where
  named : s.root.add d.type.modulePath d.type.name d.key = (.ok (), root)
  free : s.registry.contains d.key = false

/-- One action that builds nothing takes a session to another without an error. -/
inductive Session.Step (s : Session) : Action → Session → Prop
  | present {p : Primitive} (hThere : s.registry.contains p.key = true) : Step s (.primitive p) s
  | primitive {p : Primitive} (hFree : s.registry.contains p.key = false) :
      Step s (.primitive p) { s with registry := s.registry.push (.primitive p) }
  | claimed {type : TypeExpr} {name : String} {args : List TypeExpr}
      (hSame : s.instances.lookup type.canonical = some (name, args)) :
      Step s (.claim type name args) s
  | claim {type : TypeExpr} {name : String} {args : List TypeExpr}
      (hFree : s.instances.lookup type.canonical = none) :
      Step s (.claim type name args)
        { s with instances := (type.canonical, name, args) :: s.instances }
  | pending {type : TypeExpr} (hPending : s.isPending type.erasedText = true) :
      Step s (.placeholder type) s
  | placeholder {type : TypeExpr} {root : Module} (hFree : s.isPending type.erasedText = false)
      (hAdmits : s.Admits (.record (openRecord type)) root) :
      Step s (.placeholder type)
        { s with root, registry := s.registry.push (.record (openRecord type)) }
  | report {diagnostics : List Diagnostic} :
      Step s (.report diagnostics) { s with diagnostics := s.diagnostics ++ diagnostics }
  | place {d : Declaration} {root : Module} (hAdmits : s.Admits d root) :
      Step s (.place d) { s with root, registry := s.registry.push d }

section Admits

variable {s s' : Session} {d : Declaration}

theorem place_on_of_admits {root : Module} (h : s.Admits d root) :
    (place d).on s = (.ok (), { s with root, registry := s.registry.push d }) := by
  unfold place
  rw [Build.on_bind, claimName_on, h.named]
  exact register_on_of_free { s with root } h.free

theorem admits_of_place_on (h : (place d).on s = (.ok (), s')) :
    ∃ root, s.Admits d root ∧ s' = { s with root, registry := s.registry.push d } := by
  rcases place_on s d with ⟨e, hError⟩ | ⟨hNamed, hFree, hPlace⟩
  · cases hError.symm.trans h
  · cases hPlace.symm.trans h
    exact ⟨_, ⟨Prod.ext hNamed rfl, hFree⟩, rfl⟩

end Admits

variable {config : Config} {s s' : Session} {a : Action}

theorem Atomic.step (h : Atomic config s a (.ok ()) s') : s.Step a s' := by
  obtain ⟨hPlain, hEq⟩ := h
  cases a with
  | primitive p =>
    change (registerPrimitive p).on s = _ at hEq
    rcases registerPrimitive_on s p with ⟨hThere, hRun⟩ | ⟨hFree, hRun⟩
    · cases hRun.symm.trans hEq
      exact .present hThere
    · cases hRun.symm.trans hEq
      exact .primitive hFree
  | claim type name args =>
    change (claimInstance type name args).on s = _ at hEq
    rcases claimInstance_on s type name args with ⟨e, hRun⟩ | ⟨hSame, hRun⟩ | ⟨hFree, hRun⟩
    · cases hRun.symm.trans hEq
    · cases hRun.symm.trans hEq
      exact .claimed hSame
    · cases hRun.symm.trans hEq
      exact .claim hFree
  | ensure desc type => cases hPlain
  | placeholder type =>
    unfold performOn at hEq
    rw [Build.on_bind, Build.on_get] at hEq
    cases hPending : s.isPending type.erasedText with
    | true =>
      simp only [hPending, Bool.not_true, Bool.false_eq_true, if_false, Build.on_pure] at hEq
      cases hEq
      exact .pending hPending
    | false =>
      simp only [hPending, Bool.not_false, if_true] at hEq
      obtain ⟨root, hAdmits, rfl⟩ := admits_of_place_on hEq
      exact .placeholder hPending hAdmits
  | report diagnostics =>
    cases hEq
    exact .report
  | place d =>
    change (FixedLayout.Construction.place d).on s = _ at hEq
    obtain ⟨root, hAdmits, rfl⟩ := admits_of_place_on hEq
    exact .place hAdmits

theorem Session.Step.atomic (h : s.Step a s') (config : Config) :
    Atomic config s a (.ok ()) s' := by
  cases h with
  | @present p hThere =>
    refine ⟨rfl, ?_⟩
    rcases registerPrimitive_on s p with ⟨-, hRun⟩ | ⟨hFree, -⟩
    · exact hRun
    · rw [hThere] at hFree
      cases hFree
  | @primitive p hFree =>
    refine ⟨rfl, ?_⟩
    rcases registerPrimitive_on s p with ⟨hThere, -⟩ | ⟨-, hRun⟩
    · rw [hThere] at hFree
      cases hFree
    · exact hRun
  | claimed hSame =>
    refine ⟨rfl, ?_⟩
    change (claimInstance _ _ _).on s = _
    unfold claimInstance
    rw [Build.on_bind, Build.on_get]
    simp [hSame]
  | claim hFree =>
    refine ⟨rfl, ?_⟩
    change (claimInstance _ _ _).on s = _
    unfold claimInstance
    rw [Build.on_bind, Build.on_get]
    simp [hFree]
  | pending hPending =>
    refine ⟨rfl, ?_⟩
    unfold performOn
    rw [Build.on_bind, Build.on_get]
    simp [hPending]
  | placeholder hFree hAdmits =>
    refine ⟨rfl, ?_⟩
    unfold performOn
    rw [Build.on_bind, Build.on_get]
    simp only [hFree, Bool.not_false, if_true]
    exact place_on_of_admits hAdmits
  | report => exact ⟨rfl, rfl⟩
  | place hAdmits => exact ⟨rfl, place_on_of_admits hAdmits⟩

/-- What every single step keeps, as long as its action has a property that all scripts have, a run
without an error keeps too. -/
theorem Exec.invariant {setting : Setting} {P : Action → Prop} {I : Session → Prop}
    (hScripts : ∀ desc type, ∀ a ∈ (setting.buildScript desc type).actions, P a)
    (hStep : ∀ {s a s'}, P a → s.Step a s' → I s → I s')
    (hEnter : ∀ {s} key, I s → I (s.enter key)) (hLeave : ∀ {s}, I s → I s.leave)
    {s s' : Session} {as : List Action} (h : Exec setting s as (.ok ()) s')
    (hActions : ∀ a ∈ as, P a) (hI : I s) : I s' := by
  generalize hR : (.ok () : Except ExportError Unit) = r at h
  induction h with
  | fail => cases hR
  | abort => cases hR
  | done => exact hI
  | step hAtomic _ ih =>
    subst hR
    exact ih (fun a ha => hActions a (by simp [ha])) (hStep (hActions _ (by simp)) hAtomic.step hI)
      rfl
  | skip _ _ ih => exact ih (fun a ha => hActions a (by simp [ha])) hI hR
  | build _ _ _ _ _ ihInner ihRest =>
    have hInner := ihInner (hScripts _ _) (hEnter _ hI) rfl
    exact ihRest (fun a ha => hActions a (by simp [ha])) (hLeave hInner) hR

end FixedLayout.Construction
