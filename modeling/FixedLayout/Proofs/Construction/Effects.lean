import FixedLayout.Construction.Records
import FixedLayout.Proofs.Registry

/-! What one action does to a session, as long as it builds no described type: it leaves the stack
as it is and registers one declaration at most, under a free key. -/

namespace FixedLayout.Construction

namespace Build

variable {α β : Type}

@[simp] theorem on_pure (a : α) (s : Session) : (pure a : Build α).on s = (.ok a, s) := rfl

@[simp] theorem on_throw (e : ExportError) (s : Session) :
    (throw e : Build α).on s = (.error e, s) := rfl

@[simp] theorem on_ofExcept (r : Except ExportError α) (s : Session) :
    (ofExcept r : Build α).on s = (r, s) := by
  cases r <;> rfl

theorem on_bind (x : Build α) (f : α → Build β) (s : Session) :
    (x >>= f).on s =
      match x.on s with
      | (.ok a, s') => (f a).on s'
      | (.error e, s') => (.error e, s') := by
  show (ExceptT.bindCont f (x.on s).1).run (x.on s).2 = _
  rcases x.on s with ⟨e | a, s'⟩ <;> rfl

@[simp] theorem on_get (s : Session) : (get : Build Session).on s = (.ok s, s) := rfl

@[simp] theorem on_set (s t : Session) : (set t : Build PUnit).on s = (.ok ⟨⟩, t) := rfl

@[simp] theorem on_modify (f : Session → Session) (s : Session) :
    (modify f : Build PUnit).on s = (.ok ⟨⟩, f s) := rfl

end Build

/-! ### What the steps of a session can do -/

section Steps

variable (s : Session)

/-- The tree keeps what claiming a name has made of it, also where the name is not free. -/
theorem claimName_on (d : Declaration) :
    (claimName d).on s = ((s.root.add d.type.modulePath d.type.name d.key).1,
      { s with root := (s.root.add d.type.modulePath d.type.name d.key).2 }) := by
  unfold claimName
  simp only [Build.on_bind, Build.on_get, Build.on_set, Build.on_ofExcept]

theorem register_on_of_free {d : Declaration} (h : s.registry.contains d.key = false) :
    (register d).on s = (.ok (), { s with registry := s.registry.push d }) := by
  unfold register
  simp only [Build.on_bind, Build.on_get, Build.on_ofExcept, Registry.register_of_free h]
  rfl

theorem register_on_of_taken {d : Declaration} (h : s.registry.contains d.key = true) :
    ∃ e, (register d).on s = (.error e, s) := by
  obtain ⟨e, hError⟩ := Registry.register_of_taken h
  refine ⟨e, ?_⟩
  unfold register
  simp only [Build.on_bind, Build.on_get, Build.on_ofExcept, hError]

theorem place_on (d : Declaration) :
    (∃ e, (place d).on s =
      (.error e, { s with root := (s.root.add d.type.modulePath d.type.name d.key).2 })) ∨
    (s.root.add d.type.modulePath d.type.name d.key).1 = .ok () ∧
      s.registry.contains d.key = false ∧ (place d).on s = (.ok (), { s with
        root := (s.root.add d.type.modulePath d.type.name d.key).2
        registry := s.registry.push d }) := by
  unfold place
  rw [Build.on_bind, claimName_on]
  generalize s.root.add d.type.modulePath d.type.name d.key = named
  obtain ⟨e | u, root⟩ := named
  · exact .inl ⟨e, rfl⟩
  · cases hKey : s.registry.contains d.key with
    | true =>
      obtain ⟨e, hError⟩ := register_on_of_taken { s with root } hKey
      exact .inl ⟨e, hError⟩
    | false => exact .inr ⟨rfl, rfl, register_on_of_free { s with root } hKey⟩

theorem registerPrimitive_on (p : Primitive) :
    s.registry.contains p.key = true ∧ (registerPrimitive p).on s = (.ok (), s) ∨
    s.registry.contains p.key = false ∧ (registerPrimitive p).on s =
      (.ok (), { s with registry := s.registry.push (.primitive p) }) := by
  unfold registerPrimitive
  rw [Build.on_bind, Build.on_get]
  cases hKey : s.registry.contains p.key with
  | true =>
    refine .inl ⟨rfl, ?_⟩
    simp only [hKey, if_true, Build.on_pure]
  | false =>
    refine .inr ⟨rfl, ?_⟩
    simp only [hKey, Bool.false_eq_true, if_false]
    exact register_on_of_free s hKey

theorem claimInstance_on (type : TypeExpr) (name : String) (args : List TypeExpr) :
    (∃ e, (claimInstance type name args).on s = (.error e, s)) ∨
    s.instances.lookup type.canonical = some (name, args) ∧
      (claimInstance type name args).on s = (.ok (), s) ∨
    s.instances.lookup type.canonical = none ∧ (claimInstance type name args).on s =
      (.ok (), { s with instances := (type.canonical, name, args) :: s.instances }) := by
  unfold claimInstance
  rw [Build.on_bind, Build.on_get]
  cases h : s.instances.lookup type.canonical with
  | none => exact .inr (.inr ⟨rfl, by simp [h]⟩)
  | some claimed =>
    by_cases hSame : claimed = (name, args)
    · subst hSame
      exact .inr (.inl ⟨rfl, by simp [h]⟩)
    · exact .inl ⟨_, by simp [h, hSame]; rfl⟩

end Steps

namespace Action

/-- The action builds a type of its own. -/
def builds : Action → Bool
  | .ensure .. => true
  | _ => false

/-- The declarations that an action may register. -/
def Registers : Action → Declaration → Prop
  | .primitive p, d => d = .primitive p
  | .placeholder type, d => d = .record (openRecord type)
  | .place placed, d => d = placed
  | _, _ => False

/-- What holds of a session once an action has been performed on it without an error. -/
def Settled (config : Config) (s : Session) : Action → Prop
  | .primitive p => s.registry.contains p.key = true
  | .claim type name args => s.instances.lookup type.canonical = some (name, args)
  | .ensure desc type => isCandidate config desc = true → s.isPending type.canonical = true
  | .placeholder type =>
    (openRecord type).key = type.erasedText → s.isPending type.erasedText = true
  | .report _ => True
  | .place d => s.registry.contains d.key = true

end Action

/-- One session follows another by an action that builds nothing. -/
structure Session.Extends (s : Session) (a : Action) (s' : Session) : Prop where
  stack : s'.stack = s.stack
  registry : s'.registry = s.registry ∨
    ∃ d, a.Registers d ∧ s.registry.contains d.key = false ∧ s'.registry = s.registry.push d
  instances : s'.instances = s.instances ∨
    ∃ key claimed, s.instances.lookup key = none ∧ s'.instances = (key, claimed) :: s.instances

/-- Performing an action that builds nothing answers a result and another session. -/
structure Atomic (config : Config) (s : Session) (a : Action) (r : Except ExportError Unit)
    (s' : Session) : Prop where
  plain : a.builds = false
  eq : (performOn config (fun _ _ => pure ()) a).on s = (r, s')

theorem performOn_spec (config : Config) (build : TypeDesc → TypeExpr → Build Unit) {a : Action}
    (hPlain : a.builds = false) (s : Session) :
    s.Extends a ((performOn config build a).on s).2 ∧
      (((performOn config build a).on s).1 = .ok () →
        a.Settled config ((performOn config build a).on s).2) := by
  have hPlace : ∀ d, a.Registers d → s.Extends a ((place d).on s).2 ∧
      (((place d).on s).1 = .ok () → ((place d).on s).2.registry.contains d.key = true) := by
    intro d ha
    rcases place_on s d with ⟨e, h⟩ | ⟨-, hFree, h⟩
    · rw [h]
      exact ⟨⟨rfl, .inl rfl, .inl rfl⟩, nofun⟩
    · rw [h]
      exact ⟨⟨rfl, .inr ⟨d, ha, hFree, rfl⟩, .inl rfl⟩, fun _ => by simp [Registry.contains_push]⟩
  cases a with
  | primitive p =>
    show s.Extends _ ((registerPrimitive p).on s).2 ∧
      (_ → ((registerPrimitive p).on s).2.registry.contains p.key = true)
    rcases registerPrimitive_on s p with ⟨hTaken, h⟩ | ⟨hFree, h⟩
    · rw [h]
      exact ⟨⟨rfl, .inl rfl, .inl rfl⟩, fun _ => hTaken⟩
    · rw [h]
      exact ⟨⟨rfl, .inr ⟨_, rfl, hFree, rfl⟩, .inl rfl⟩,
        fun _ => by simp [Registry.contains_push, Declaration.key]⟩
  | claim type name args =>
    show s.Extends _ ((claimInstance type name args).on s).2 ∧
      (((claimInstance type name args).on s).1 = _ →
        ((claimInstance type name args).on s).2.instances.lookup type.canonical = _)
    rcases claimInstance_on s type name args with ⟨e, h⟩ | ⟨hSame, h⟩ | ⟨hFree, h⟩
    · rw [h]
      exact ⟨⟨rfl, .inl rfl, .inl rfl⟩, nofun⟩
    · rw [h]
      exact ⟨⟨rfl, .inl rfl, .inl rfl⟩, fun _ => hSame⟩
    · rw [h]
      exact ⟨⟨rfl, .inl rfl, .inr ⟨_, _, hFree, rfl⟩⟩, fun _ => by simp⟩
  | ensure desc type => cases hPlain
  | placeholder type =>
    unfold performOn
    rw [Build.on_bind, Build.on_get]
    cases hPending : s.isPending type.erasedText with
    | true =>
      simp only [hPending, Bool.not_true, Bool.false_eq_true, if_false, Build.on_pure]
      exact ⟨⟨rfl, .inl rfl, .inl rfl⟩, fun _ _ => hPending⟩
    | false =>
      simp only [hPending, Bool.not_false, if_true]
      obtain ⟨hExtends, hKey⟩ := hPlace (.record (openRecord type)) rfl
      refine ⟨hExtends, fun hOk hErased => ?_⟩
      have hThere := hKey hOk
      rw [Declaration.key, hErased] at hThere
      simp [Session.isPending, hThere]
  | report diagnostics => exact ⟨⟨rfl, .inl rfl, .inl rfl⟩, fun _ => trivial⟩
  | place d => exact hPlace d rfl

variable {config : Config} {s s' : Session} {a : Action} {r : Except ExportError Unit}

theorem Atomic.session_extends (h : Atomic config s a r s') : s.Extends a s' := by
  have hExtends := (performOn_spec config (fun _ _ => pure ()) h.plain s).1
  rwa [h.eq] at hExtends

theorem Atomic.settled (h : Atomic config s a (.ok ()) s') : a.Settled config s' := by
  have hSettled := (performOn_spec config (fun _ _ => pure ()) h.plain s).2
  rw [h.eq] at hSettled
  exact hSettled rfl

end FixedLayout.Construction
