import FixedLayout.Construction.Records
import Mathlib.Data.List.Forall2

/-! Scripts: the actions that a step performs on a session, written down in order, together with
what comes of the step if none of them fails. A host can record a script instead of performing
anything. -/

namespace FixedLayout.Construction

/-- Actions in order, and what comes of them if none of them fails. -/
structure Script (α : Type) where
  actions : List Action
  result : Except ExportError α

namespace Script

variable {α β : Type}

def andThen (x : Script α) (f : α → Script β) : Script β :=
  match x.result with
  | .ok a => ⟨x.actions ++ (f a).actions, (f a).result⟩
  | .error e => ⟨x.actions, .error e⟩

instance : Monad Script where
  pure a := ⟨[], .ok a⟩
  bind := andThen

instance : MonadExcept ExportError Script where
  throw e := ⟨[], .error e⟩
  tryCatch x handle :=
    match x.result with
    | .ok _ => x
    | .error e => ⟨x.actions ++ (handle e).actions, (handle e).result⟩

/-- The host that records what it is to perform. -/
def recorder (setting : Setting) : Host Script := ⟨setting, fun a => ⟨[a], .ok ()⟩⟩

def runOn (s : Scope) (x : Script α) : Build α := do
  x.actions.forM s.perform
  ofExcept x.result

section RunOn

variable (s : Scope)

theorem throw_bind (e : ExportError) (f : α → Build β) : (throw e >>= f) = throw e := rfl

@[simp] theorem runOn_pure (a : α) : runOn s (pure a) = pure a := rfl

@[simp] theorem runOn_throw (e : ExportError) : runOn s (throw e : Script α) = throw e := rfl

@[simp] theorem runOn_bind (x : Script α) (f : α → Script β) :
    runOn s (x >>= f) = runOn s x >>= fun a => runOn s (f a) := by
  obtain ⟨actions, result⟩ := x
  cases result with
  | ok a =>
    show (do (actions ++ (f a).actions).forM s.perform; ofExcept (f a).result) =
      (do actions.forM s.perform; pure a) >>= fun a => runOn s (f a)
    simp only [runOn, List.forM_eq_forM, List.forM_append, bind_assoc, pure_bind]
  | error e =>
    show (do actions.forM s.perform; throw e) =
      (do actions.forM s.perform; throw e) >>= fun a => runOn s (f a)
    simp only [bind_assoc, throw_bind]

@[simp] theorem runOn_perform (a : Action) :
    runOn s ((recorder s.setting).perform a) = s.perform a := by
  show (do [a].forM s.perform; pure ()) = s.perform a
  simp

@[simp] theorem runOn_ofExcept (r : Except ExportError α) :
    runOn s (ofExcept r : Script α) = ofExcept r := by
  cases r <;> rfl

instance : LawfulMonad Script := by
  refine LawfulMonad.mk' _ ?_ (fun _ _ => rfl) ?_
  · rintro α ⟨actions, result⟩
    cases result <;> simp [Functor.map, andThen]
  · rintro α β γ ⟨actions, result⟩ f g
    cases result with
    | error e => rfl
    | ok a => cases h : (f a).result <;> simp [bind, andThen, h]

@[simp] theorem runOn_map (f : α → β) (x : Script α) : runOn s (f <$> x) = f <$> runOn s x := by
  rw [map_eq_pure_bind, map_eq_pure_bind, runOn_bind]
  rfl

theorem runOn_mapM {f : α → Script β} {g : α → Build β} (h : ∀ a, runOn s (f a) = g a)
    (as : List α) : runOn s (as.mapM f) = as.mapM g := by
  induction as with
  | nil => rfl
  | cons a as ih => simp [List.mapM_cons, h, ih]

theorem runOn_forM {f : α → Script PUnit} {g : α → Build PUnit} (h : ∀ a, runOn s (f a) = g a)
    (as : List α) : runOn s (as.forM f) = as.forM g := by
  induction as with
  | nil => rfl
  | cons a as ih =>
    show runOn s (f a >>= fun _ => as.forM f) = g a >>= fun _ => as.forM g
    rw [runOn_bind, h, ih]

end RunOn

/-! ### Scripts that differ in their errors, and properties of all actions -/

/-- The scripts differ at most in the error that they end with. -/
def Alike (x y : Script α) : Prop :=
  x.actions = y.actions ∧ x.result.toOption = y.result.toOption

/-- Every action of the script has a property. -/
def Only (P : Action → Prop) (x : Script α) : Prop := ∀ a ∈ x.actions, P a

theorem Alike.refl (x : Script α) : Alike x x := ⟨rfl, rfl⟩

theorem alike_throw (e e' : ExportError) : Alike (throw e : Script α) (throw e') := ⟨rfl, rfl⟩

theorem ok_of_toOption {r : Except ExportError α} {a : α} (h : r.toOption = some a) :
    r = .ok a := by
  cases r with
  | error e => cases h
  | ok b =>
    cases h
    rfl

theorem alike_ofExcept {r r' : Except ExportError α} (h : r.toOption = r'.toOption) :
    Alike (ofExcept r) (ofExcept r') := by
  cases r <;> cases r' <;> exact ⟨rfl, h⟩

theorem Alike.bind {x y : Script α} {f g : α → Script β} (h : Alike x y)
    (hf : ∀ a, Alike (f a) (g a)) : Alike (x >>= f) (y >>= g) := by
  obtain ⟨actions, result⟩ := x
  obtain ⟨actions', result'⟩ := y
  obtain ⟨rfl, hResult⟩ := h
  cases result with
  | error e =>
    cases result' with
    | error e' => exact ⟨rfl, rfl⟩
    | ok a => cases hResult
  | ok a =>
    cases result' with
    | error e' => cases hResult
    | ok a' =>
      cases hResult
      exact ⟨congrArg (actions ++ ·) (hf a).1, (hf a).2⟩

variable {P : Action → Prop}

theorem only_pure (a : α) : Only P (pure a) := List.forall_mem_nil P

theorem only_throw (e : ExportError) : Only P (throw e : Script α) := List.forall_mem_nil P

@[simp] theorem result_ofExcept (r : Except ExportError α) :
    (ofExcept r : Script α).result = r := by
  cases r <;> rfl

theorem only_ofExcept (r : Except ExportError α) : Only P (ofExcept r) := by
  cases r <;> exact List.forall_mem_nil P

theorem only_perform {setting : Setting} {a : Action} (h : P a) :
    Only P ((recorder setting).perform a) := by
  rintro b (_ | ⟨_, hb⟩)
  · exact h
  · cases hb

theorem Only.bind {x : Script α} {f : α → Script β} (h : Only P x)
    (hf : ∀ a, x.result = .ok a → Only P (f a)) : Only P (x >>= f) := by
  obtain ⟨actions, result⟩ := x
  cases result with
  | error e => exact h
  | ok a =>
    intro b hb
    rcases List.mem_append.mp hb with hb | hb
    · exact h b hb
    · exact hf a rfl b hb

theorem only_mapM {f : α → Script β} (as : List α) (h : ∀ a ∈ as, Only P (f a)) :
    Only P (as.mapM f) := by
  induction as with
  | nil => exact only_pure _
  | cons a as ih =>
    rw [List.mapM_cons]
    apply (h a (by simp)).bind
    intro b _
    exact (ih fun a ha => h a (by simp [ha])).bind fun bs _ => only_pure _

theorem only_forM {f : α → Script PUnit} (as : List α) (h : ∀ a ∈ as, Only P (f a)) :
    Only P (as.forM f) := by
  induction as with
  | nil => exact only_pure _
  | cons a as ih =>
    exact (h a (by simp)).bind fun _ _ => ih fun a ha => h a (by simp [ha])

/-! ### The errors of a script -/

/-- If the script ends with an error, then the error has a property. -/
def FailsOnly (E : ExportError → Prop) (x : Script α) : Prop := ∀ e, x.result = .error e → E e

section FailsOnly

variable {E : ExportError → Prop}

theorem failsOnly_pure (a : α) : FailsOnly E (pure a) := nofun

theorem failsOnly_throw {e : ExportError} (h : E e) : FailsOnly E (throw e : Script α) := by
  rintro _ ⟨⟩
  exact h

theorem failsOnly_ofExcept {r : Except ExportError α} (h : ∀ e, r = .error e → E e) :
    FailsOnly E (ofExcept r) := by
  intro e hError
  rw [result_ofExcept] at hError
  exact h e hError

theorem failsOnly_perform {setting : Setting} (a : Action) :
    FailsOnly E ((recorder setting).perform a) := nofun

theorem FailsOnly.bind {x : Script α} {f : α → Script β} (h : FailsOnly E x)
    (hf : ∀ a, x.result = .ok a → FailsOnly E (f a)) : FailsOnly E (x >>= f) := by
  obtain ⟨actions, result⟩ := x
  cases result with
  | error e =>
    rintro _ ⟨⟩
    exact h e rfl
  | ok a => exact hf a rfl

theorem FailsOnly.mono {x : Script α} {F : ExportError → Prop} (h : FailsOnly E x)
    (hEF : ∀ e, E e → F e) : FailsOnly F x :=
  fun e hError => hEF e (h e hError)

theorem failsOnly_mapM {f : α → Script β} (as : List α) (h : ∀ a ∈ as, FailsOnly E (f a)) :
    FailsOnly E (as.mapM f) := by
  induction as with
  | nil => exact failsOnly_pure _
  | cons a as ih =>
    rw [List.mapM_cons]
    apply (h a List.mem_cons_self).bind
    intro b _
    exact (ih fun a ha => h a (List.mem_cons_of_mem _ ha)).bind fun bs _ => failsOnly_pure _

theorem failsOnly_forM {f : α → Script PUnit} (as : List α) (h : ∀ a ∈ as, FailsOnly E (f a)) :
    FailsOnly E (as.forM f) := by
  induction as with
  | nil => exact failsOnly_pure _
  | cons a as ih =>
    exact (h a List.mem_cons_self).bind fun _ _ => ih fun a ha => h a (List.mem_cons_of_mem _ ha)

end FailsOnly

/-! ### Scripts without an error -/

theorem bind_ok {x : Script α} {f : α → Script β} {b : β} (h : (x >>= f).result = .ok b) :
    ∃ a, x.result = .ok a ∧ (f a).result = .ok b ∧
      (x >>= f).actions = x.actions ++ (f a).actions := by
  obtain ⟨actions, result⟩ := x
  cases result with
  | error e => cases h
  | ok a => exact ⟨a, rfl, h, rfl⟩

/-- Each answer is the one for its element. -/
theorem forall₂_of_mapM {f : α → Script β} {as : List α} {bs : List β}
    (h : (as.mapM f).result = .ok bs) :
    List.Forall₂ (fun a b => (f a).result = .ok b) as bs := by
  induction as generalizing bs with
  | nil =>
    cases h
    exact .nil
  | cons a as ih =>
    rw [List.mapM_cons] at h
    obtain ⟨b, hHead, hRest, -⟩ := bind_ok h
    obtain ⟨bs', hTail, hEnd, -⟩ := bind_ok hRest
    cases hEnd
    exact .cons hHead (ih hTail)

theorem exists_of_mem_mapM {f : α → Script β} {as : List α} {bs : List β}
    (h : (as.mapM f).result = .ok bs) {b : β} (hb : b ∈ bs) :
    ∃ a ∈ as, (f a).result = .ok b := by
  have hAll := forall₂_of_mapM h
  clear h
  induction hAll with
  | nil => cases hb
  | @cons a b' as bs hHead _ ih =>
    rcases List.mem_cons.mp hb with rfl | hb
    · exact ⟨a, List.mem_cons_self, hHead⟩
    · obtain ⟨a', hMem, hEq⟩ := ih hb
      exact ⟨a', List.mem_cons_of_mem _ hMem, hEq⟩

theorem bind_of_ok {x : Script α} {f : α → Script β} {a : α} (h : x.result = .ok a) :
    (x >>= f).result = (f a).result ∧ (x >>= f).actions = x.actions ++ (f a).actions := by
  obtain ⟨actions, result⟩ := x
  cases h
  exact ⟨rfl, rfl⟩

/-- Scripts in a row end without an error exactly if each of them does. -/
theorem exists_mapM_iff {f : α → Script β} {as : List α} :
    (∃ bs, (as.mapM f).result = .ok bs) ↔ ∀ a ∈ as, ∃ b, (f a).result = .ok b := by
  induction as with
  | nil => exact ⟨fun _ => nofun, fun _ => ⟨[], rfl⟩⟩
  | cons a as ih =>
    rw [List.mapM_cons]
    constructor
    · rintro ⟨bs, h⟩
      obtain ⟨b, hHead, hRest, -⟩ := bind_ok h
      obtain ⟨bs', hTail, -, -⟩ := bind_ok hRest
      rintro a' (_ | ⟨_, ha'⟩)
      · exact ⟨b, hHead⟩
      · exact ih.mp ⟨bs', hTail⟩ a' ha'
    · intro h
      obtain ⟨b, hHead⟩ := h a List.mem_cons_self
      obtain ⟨bs, hTail⟩ := ih.mpr fun a' ha' => h a' (List.mem_cons_of_mem _ ha')
      refine ⟨b :: bs, ?_⟩
      rw [(bind_of_ok hHead).1, (bind_of_ok hTail).1]
      rfl

theorem actions_mapM {f : α → Script β} {as : List α} (h : ∀ a ∈ as, ∃ b, (f a).result = .ok b) :
    (as.mapM f).actions = as.flatMap fun a => (f a).actions := by
  induction as with
  | nil => rfl
  | cons a as ih =>
    have hRest : ∀ a' ∈ as, ∃ b, (f a').result = .ok b := fun a' ha' =>
      h a' (List.mem_cons_of_mem _ ha')
    obtain ⟨b, hHead⟩ := h a List.mem_cons_self
    obtain ⟨bs, hTail⟩ := exists_mapM_iff.mpr hRest
    rw [List.mapM_cons, (bind_of_ok hHead).2, (bind_of_ok hTail).2, ih hRest, List.flatMap_cons]
    exact congrArg _ (List.append_nil _)

theorem actions_subset_mapM {f : α → Script β} {as : List α} {bs : List β}
    (h : (as.mapM f).result = .ok bs) {a : α} (ha : a ∈ as) :
    (∃ b, (f a).result = .ok b) ∧ (f a).actions ⊆ (as.mapM f).actions := by
  have hAll := exists_mapM_iff.mp ⟨bs, h⟩
  rw [actions_mapM hAll]
  exact ⟨hAll a ha, fun action hAction => List.mem_flatMap.mpr ⟨a, ha, hAction⟩⟩

theorem actions_subset_forM {f : α → Script PUnit} {as : List α} {u : PUnit}
    (h : (as.forM f).result = .ok u) {a : α} (ha : a ∈ as) :
    (∃ v, (f a).result = .ok v) ∧ (f a).actions ⊆ (as.forM f).actions := by
  induction as with
  | nil => cases ha
  | cons a' as ih =>
    obtain ⟨v, hHead, hRest, hActions⟩ := @bind_ok _ _ (f a') (fun _ => as.forM f) _ h
    change _ ∧ _ ⊆ (f a' >>= fun _ => as.forM f).actions
    rw [hActions]
    rcases List.mem_cons.mp ha with rfl | ha
    · exact ⟨⟨v, hHead⟩, List.subset_append_left ..⟩
    · obtain ⟨hOk, hSub⟩ := ih hRest ha
      exact ⟨hOk, List.Subset.trans hSub (List.subset_append_right ..)⟩

/-! ### What a script without an error answers -/

/-- If the script ends without an error, then its actions and its answer have a property. -/
def Answers (P : List Action → α → Prop) (x : Script α) : Prop :=
  ∀ a, x.result = .ok a → P x.actions a

section Answers

variable {P : List Action → α → Prop} {Q : List Action → β → Prop} {x : Script α}

theorem answers_pure {a : α} (h : P [] a) : Answers P (pure a) := by
  rintro b hb
  cases hb
  exact h

theorem answers_throw (e : ExportError) : Answers P (throw e : Script α) := nofun

theorem answers_ofExcept {r : Except ExportError α} (h : ∀ a, r = .ok a → P [] a) :
    Answers P (ofExcept r) := by
  cases r with
  | error e => exact answers_throw e
  | ok a => exact answers_pure (h a rfl)

theorem Answers.bind {f : α → Script β} (h : Answers P x)
    (hf : ∀ as a, P as a → Answers (fun bs => Q (as ++ bs)) (f a)) : Answers Q (x >>= f) := by
  intro b hb
  obtain ⟨a, hOk, hRest, hActions⟩ := bind_ok hb
  rw [hActions]
  exact hf _ a (h a hOk) b hRest

theorem answers_perform {setting : Setting} {f : Unit → Script β} {a : Action}
    (h : Answers (fun bs => Q (a :: bs)) (f ())) :
    Answers Q ((recorder setting).perform a >>= f) := by
  intro b hb
  exact h b hb

/-- What holds of each answer may hold by earlier actions too. -/
theorem answers_mapM {R : List Action → β → Prop}
    (hMono : ∀ {as bs b}, R as b → as ⊆ bs → R bs b) {f : α → Script β} (as : List α)
    (h : ∀ a ∈ as, Answers R (f a)) :
    Answers (fun done bs => ∀ b ∈ bs, R done b) (as.mapM f) := by
  intro bs hBs b hb
  obtain ⟨a, ha, hOk⟩ := exists_of_mem_mapM hBs hb
  exact hMono (h a ha b hOk) (actions_subset_mapM hBs ha).2

end Answers

end Script

end FixedLayout.Construction
