import FixedLayout.Proofs.Construction.Run

/-! What a run leaves behind. Whatever it registers is called for by its actions or by the builds
that these lead to; nothing that was there is lost; and after a run without an error, every action
has had its effect. -/

namespace FixedLayout.Construction

variable {setting : Setting} {s s' : Session} {as : List Action} {r : Except ExportError Unit}

/-- The actions that a run may come to, from the given ones on. -/
inductive Setting.Reaches (setting : Setting) (as : List Action) : Action → Prop
  | here {a : Action} (hMem : a ∈ as) : Reaches setting as a
  | inner {desc : TypeDesc} {type : TypeExpr} {a : Action}
      (h : Reaches setting as (.ensure desc type))
      (hCandidate : isCandidate setting.config desc = true)
      (hMem : a ∈ (setting.buildScript desc type).actions) : Reaches setting as a

theorem Setting.Reaches.trans {bs : List Action} (hBs : ∀ b ∈ bs, setting.Reaches as b) {a : Action}
    (h : setting.Reaches bs a) : setting.Reaches as a := by
  induction h with
  | here hMem => exact hBs _ hMem
  | inner _ hCandidate hMem ih => exact .inner ih hCandidate hMem

theorem Setting.Reaches.mono {bs : List Action} (hBs : bs ⊆ as) {a : Action}
    (h : setting.Reaches bs a) : setting.Reaches as a :=
  h.trans fun _ hb => .here (hBs hb)

theorem Setting.Reaches.known (hKnown : ∀ a ∈ as, a.Known setting) {a : Action}
    (h : setting.Reaches as a) : a.Known setting := by
  cases h with
  | here hMem => exact hKnown a hMem
  | inner _ _ hMem => exact known_buildScript _ _ a hMem

/-- The declaration is one that some action registers. -/
def Setting.Registers (setting : Setting) (as : List Action) (d : Declaration) : Prop :=
  ∃ a, setting.Reaches as a ∧ a.Registers d

theorem Setting.Registers.mono {bs : List Action} (hBs : ∀ b ∈ bs, setting.Reaches as b)
    {d : Declaration} (h : setting.Registers bs d) : setting.Registers as d := by
  obtain ⟨a, hReaches, hRegisters⟩ := h
  exact ⟨a, hReaches.trans hBs, hRegisters⟩

theorem Atomic.grows {a : Action} (h : Atomic setting.config s a r s') :
    Registry.Grows (setting.Registers (a :: as)) s.registry s'.registry := by
  rcases h.session_extends.registry with hSame | ⟨d, hRegisters, hFree, hPush⟩
  · rw [hSame]
    exact .refl
  · rw [hPush]
    exact .push .refl ⟨a, .here (by simp), hRegisters⟩ hFree

theorem Exec.grows (h : Exec setting s as r s') :
    Registry.Grows (setting.Registers as) s.registry s'.registry := by
  have hTail : ∀ {a : Action} {as : List Action} (d : Declaration), setting.Registers as d →
      setting.Registers (a :: as) d := by
    intro a as d hd
    apply hd.mono
    intro b hb
    exact .here (List.mem_cons_of_mem a hb)
  have hInner : ∀ {desc : TypeDesc} {type : TypeExpr} {as : List Action},
      isCandidate setting.config desc = true → ∀ d,
      setting.Registers (setting.buildScript desc type).actions d →
      setting.Registers (.ensure desc type :: as) d := by
    intro desc type as hCandidate d hd
    apply hd.mono
    intro b hb
    exact .inner (.here List.mem_cons_self) hCandidate hb
  induction h with
  | done => exact .refl
  | step hStep _ ih => exact hStep.grows.trans (ih.mono hTail)
  | fail hStep => exact hStep.grows
  | skip _ _ ih => exact ih.mono hTail
  | build hCandidate _ _ _ _ ihInner ihRest =>
    exact (ihInner.mono (hInner hCandidate)).trans (ihRest.mono hTail)
  | abort hCandidate _ _ _ ihInner => exact ihInner.mono (hInner hCandidate)

/-- What was claimed stays claimed. -/
structure Session.Keeps (s s' : Session) : Prop where
  stack : s'.stack = s.stack
  contains : ∀ key, s.registry.contains key = true → s'.registry.contains key = true
  claims : ∀ key claimed, s.instances.lookup key = some claimed →
    s'.instances.lookup key = some claimed

theorem Session.Keeps.refl (s : Session) : s.Keeps s := ⟨rfl, fun _ h => h, fun _ _ h => h⟩

theorem Session.Keeps.trans {s'' : Session} (h : s.Keeps s') (h' : s'.Keeps s'') : s.Keeps s'' :=
  ⟨h'.stack.trans h.stack, fun key hKey => h'.contains key (h.contains key hKey),
    fun key c hc => h'.claims key c (h.claims key c hc)⟩

theorem Session.Extends.keeps {a : Action} (h : s.Extends a s') : s.Keeps s' := by
  constructor
  · exact h.stack
  · intro key hKey
    rcases h.registry with hSame | ⟨d, -, -, hPush⟩
    · rwa [hSame]
    · rw [hPush, Registry.contains_push, hKey]
      rfl
  · intro key claimed hClaimed
    rcases h.instances with hSame | ⟨other, c, hFree, hCons⟩
    · rwa [hSame]
    · have hne : key ≠ other := by
        rintro rfl
        rw [hClaimed] at hFree
        cases hFree
      rwa [hCons, List.lookup_cons, beq_false_of_ne hne]

theorem Session.Keeps.leave {key : String} (h : (s.enter key).Keeps s') : s.Keeps s'.leave :=
  ⟨congrArg List.tail h.stack, h.contains, h.claims⟩

theorem Exec.keeps (h : Exec setting s as r s') : s.Keeps s' := by
  induction h with
  | done => exact .refl _
  | step hStep _ ih => exact hStep.session_extends.keeps.trans ih
  | fail hStep => exact hStep.session_extends.keeps
  | skip _ _ ih => exact ih
  | build _ _ _ _ _ ihInner ihRest => exact ihInner.leave.trans ihRest
  | abort _ _ _ _ ihInner => exact ihInner.leave

theorem Session.Keeps.isPending (h : s.Keeps s') {key : String} (hKey : s.isPending key = true) :
    s'.isPending key = true := by
  rw [Session.isPending, Bool.or_eq_true] at *
  rw [h.stack]
  exact hKey.imp_left (h.contains key)

theorem Session.Keeps.settled (h : s.Keeps s') {config : Config} {a : Action}
    (ha : a.Settled config s) : a.Settled config s' := by
  cases a with
  | primitive p => exact h.contains _ ha
  | claim type name args => exact h.claims _ _ ha
  | ensure desc type => exact fun hCandidate => h.isPending (ha hCandidate)
  | placeholder type => exact fun hKey => h.isPending (ha hKey)
  | report diagnostics => trivial
  | place d => exact h.contains _ ha

/-- A build without an error has declared its type. -/
theorem contains_of_settled {desc : TypeDesc} {type : TypeExpr}
    (hEnsure : (Action.ensure desc type).Known setting)
    (hOk : (setting.buildScript desc type).result = .ok ())
    (hSettled : ∀ a ∈ (setting.buildScript desc type).actions, a.Settled setting.config s) :
    s.registry.contains type.canonical = true := by
  obtain ⟨d, hOwn, hPlace⟩ := Host.place_mem_of_ok hOk
  have hThere := hSettled _ hPlace
  rwa [Action.Settled, Setting.key_of_declaration? hEnsure.2 hOwn] at hThere

theorem Exec.settled (hKnown : ∀ a ∈ as, a.Known setting) (h : Exec setting s as (.ok ()) s') :
    ∀ a ∈ as, a.Settled setting.config s' := by
  generalize hR : (.ok () : Except ExportError Unit) = r at h
  induction h with
  | done => simp
  | fail => cases hR
  | abort => cases hR
  | step hStep hRest ih =>
    subst hR
    rintro a (_ | ⟨_, hMem⟩)
    · exact hRest.keeps.settled hStep.settled
    · exact ih (fun a ha => hKnown a (by simp [ha])) rfl a hMem
  | skip hSkip hRest ih =>
    rintro a (_ | ⟨_, hMem⟩)
    · exact hRest.keeps.settled hSkip
    · exact ih (fun a ha => hKnown a (by simp [ha])) hR a hMem
  | @build _ _ _ desc type _ _ hCandidate hFree hOk hInner hRest ihInner ihRest =>
    rintro a (_ | ⟨_, hMem⟩)
    · have hThere := contains_of_settled (hKnown (.ensure desc type) (by simp)) hOk
        (ihInner (known_buildScript desc type) rfl)
      apply hRest.keeps.settled
      intro _
      rw [Session.isPending, Bool.or_eq_true]
      exact .inl hThere
    · exact ihRest (fun a ha => hKnown a (by simp [ha])) hR a hMem

end FixedLayout.Construction
