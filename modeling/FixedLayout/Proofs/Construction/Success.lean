import FixedLayout.Proofs.Construction.Coherent

/-! Where nothing that is reached stands in the way of anything else, a construction succeeds, in
whatever order it comes to things. -/

namespace FixedLayout.Construction

variable {setting : Setting} {s s' : Session} {as : List Action}

/-- The session holds nothing but what is reached, and every build that has placed something is
under way or over. -/
structure Session.Sane (setting : Setting) (s : Session) : Prop where
  tree : s.Placed
  origin : ∀ {key : String} {d : Declaration}, (key, d) ∈ s.registry.entries →
    key = d.key ∧ setting.Registers setting.script.actions d
  claimed : ∀ {key : String} {claimed : String × List TypeExpr},
    s.instances.lookup key = some claimed → ∃ type : TypeExpr, type.canonical = key ∧
      setting.Reaches setting.script.actions (.claim type claimed.1 claimed.2)
  started : ∀ {job : Job}, job.Reached setting →
    ∀ {d : Declaration}, d ∈ placed (job.script setting).actions →
    s.registry.contains d.key = true → s.isPending job.key = true

/-- The actions are what is left of a script under way. What they are to place is not there yet, and
belongs to builds on the stack. -/
structure Session.Ready (setting : Setting) (s : Session) (as : List Action) : Prop where
  reached : ∀ a ∈ as, setting.Reaches setting.script.actions a
  free : ∀ d ∈ placed as, s.registry.contains d.key = false
  distinct : ((placed as).map Declaration.key).Nodup
  running : ∀ d ∈ placed as, ∃ job : Job, job.Reached setting ∧
    d ∈ placed (job.script setting).actions ∧ job.key ∈ s.stack

theorem Session.sane_empty : ({} : Session).Sane setting :=
  ⟨Session.placed_empty, nofun, nofun, fun _ _ _ hThere => by cases hThere⟩

theorem Session.isPending_push (root : Module) (d : Declaration) {key : String}
    (h : s.isPending key = true) :
    Session.isPending { s with root, registry := s.registry.push d } key = true := by
  simp only [isPending, Registry.contains_push, Bool.or_eq_true] at h ⊢
  exact h.imp_left .inl

/-- The session stays sane when a declaration is registered that no build places but such as are
under way. -/
theorem Session.Sane.push (h : s.Sane setting) {d : Declaration} {root : Module}
    (hRegisters : setting.Registers setting.script.actions d)
    (hPlaced : Session.Placed { s with root, registry := s.registry.push d })
    (hStarted : ∀ job : Job, job.Reached setting →
      ∀ d' ∈ placed (job.script setting).actions, d'.key = d.key →
      s.isPending job.key = true) :
    Session.Sane setting { s with root, registry := s.registry.push d } := by
  constructor
  case tree => exact hPlaced
  case origin =>
    intro key d' hMem
    rcases List.mem_append.mp hMem with hMem | hMem
    · exact h.origin hMem
    · cases List.mem_singleton.mp hMem
      exact ⟨rfl, hRegisters⟩
  case claimed => exact h.claimed
  case started =>
    intro job hJob d' hd' hThere
    apply isPending_push
    rw [Registry.contains_push, Bool.or_eq_true, beq_iff_eq] at hThere
    exact hThere.elim (h.started hJob hd') (hStarted job hJob d' hd')

/-- A build that is over has declared its type. -/
theorem Session.Sane.leave {key : String} {rest : List String} (h : s.Sane setting)
    (hStack : s.stack = key :: rest) (hThere : s.registry.contains key = true) :
    s.leave.Sane setting := by
  refine ⟨⟨h.tree.tidy, h.tree.path, h.tree.places⟩, h.origin, h.claimed,
    fun {job} hJob d hd hPlaced => ?_⟩
  have hPending := h.started hJob hd hPlaced
  have hSettled : (Action.ensure job.desc job.type).Settled setting.config s := fun _ => hPending
  exact hSettled.leave hStack hThere hJob.2

namespace Session.Ready

variable {a : Action}

theorem tail (h : s.Ready setting (a :: as)) : s.Ready setting as := by
  have hSub : (placed as).Sublist (placed (a :: as)) :=
    (List.sublist_cons_self a as).filterMap _
  exact ⟨fun b hb => h.reached b (List.mem_cons_of_mem _ hb), fun d hd => h.free d (hSub.subset hd),
    h.distinct.sublist (hSub.map _), fun d hd => h.running d (hSub.subset hd)⟩

theorem push (h : s.Ready setting as) {d : Declaration} (root : Module)
    (hOther : ∀ d' ∈ placed as, d'.key ≠ d.key) :
    Session.Ready setting { s with root, registry := s.registry.push d } as := by
  refine ⟨h.reached, fun d' hd' => ?_, h.distinct, h.running⟩
  rw [Registry.contains_push, h.free d' hd', Bool.false_or]
  exact beq_false_of_ne (hOther d' hd')

theorem emits {d : Declaration} (h : s.Ready setting (.place d :: as)) :
    setting.Emits d := by
  obtain ⟨job, hJob, hd, -⟩ := h.running d List.mem_cons_self
  exact hJob.emits hd

end Session.Ready

section Coherent

variable (hCoherent : setting.Coherent)
include hCoherent

/-- Whatever is written out and has a free key can be placed. -/
theorem Session.Sane.admits (h : s.Sane setting) {d : Declaration} (hEmits : setting.Emits d)
    (hFree : s.registry.contains d.key = false) : ∃ root, s.Admits d root := by
  have hOther : ∀ place ∈ s.root.places, ∃ d', setting.Emits d' ∧ place = d'.place ∧
      d'.key ≠ d.key := by
    intro place hPlace
    obtain ⟨d', hd', rfl⟩ := List.mem_map.mp (h.tree.places.mem_iff.mp hPlace)
    obtain ⟨hMem, hEmitted⟩ := List.mem_filter.mp hd'
    obtain ⟨⟨key, d'⟩, hEntry, rfl⟩ := List.mem_map.mp hMem
    obtain ⟨rfl, hRegisters⟩ := h.origin hEntry
    refine ⟨d', ⟨hRegisters, hEmitted⟩, rfl, fun hKey => ?_⟩
    have hThere := Registry.contains_iff.mpr (List.mem_map_of_mem hEntry)
    rw [← hKey, hThere] at hFree
    cases hFree
  have hAdd : ∃ root, s.root.add d.type.modulePath d.type.name d.key = (.ok (), root) := by
    refine h.tree.tidy.exists_add fun place hPlace => ?_
    obtain ⟨d', hEmits', rfl, hne⟩ := hOther place hPlace
    rw [h.tree.path]
    exact ⟨fun hAbove => hne (hCoherent.spread hEmits' hEmits hAbove),
      fun hBelow => hne (hCoherent.spread hEmits hEmits' hBelow).symm⟩
  obtain ⟨root, hAdd⟩ := hAdd
  exact ⟨root, hAdd, hFree⟩

/-- A build that begins is ready. -/
theorem Session.Sane.enter (h : s.Sane setting) {job : Job} (hJob : job.Reached setting)
    (hFree : s.isPending job.key = false) : (s.enter job.key).Sane setting ∧
      (s.enter job.key).Ready setting (job.script setting).actions := by
  have hTree : (s.enter job.key).Placed := ⟨h.tree.tidy, h.tree.path, h.tree.places⟩
  refine ⟨⟨hTree, h.origin, h.claimed, ?_⟩,
    ⟨fun a ha => .inner hJob.1 hJob.2 ha, ?_, hCoherent.own job hJob, ?_⟩⟩
  · intro other hOther d hd hThere
    have hPending := h.started hOther hd hThere
    simp only [Session.isPending, Session.enter, List.contains_cons, Bool.or_eq_true] at hPending ⊢
    exact hPending.imp_right .inr
  · intro d hd
    by_contra hThere
    rw [h.started hJob hd (by simpa [Session.enter] using hThere)] at hFree
    cases hFree
  · exact fun d hd => ⟨job, hJob, hd, List.mem_cons_self⟩

variable {a : Action}

/-- An action that builds nothing can be performed. -/
theorem Session.Sane.exists_step (h : s.Sane setting) (hReady : s.Ready setting (a :: as))
    (hPlain : a.builds = false) : ∃ s', s.Step a s' := by
  have hReaches := hReady.reached a List.mem_cons_self
  cases a with
  | primitive p =>
    cases hThere : s.registry.contains p.key with
    | true => exact ⟨_, .present hThere⟩
    | false => exact ⟨_, .primitive hThere⟩
  | claim type name args =>
    cases hClaim : s.instances.lookup type.canonical with
    | none => exact ⟨_, .claim hClaim⟩
    | some claimed =>
      obtain ⟨type', hKey, hReaches'⟩ := h.claimed hClaim
      cases hCoherent.claims hReaches' hReaches hKey
      exact ⟨_, .claimed hClaim⟩
  | ensure => cases hPlain
  | placeholder type =>
    cases hPending : s.isPending type.erasedText with
    | true => exact ⟨_, .pending hPending⟩
    | false =>
      obtain ⟨desc, target, hHolds, rfl⟩ := hReaches.holds
      have hKey := key_openRecord hHolds.generic target
      have hFree : s.registry.contains (openRecord (openType desc target)).key = false := by
        rw [Session.isPending, Bool.or_eq_false_iff] at hPending
        rw [hKey]
        exact hPending.1
      have hEmits : setting.Emits (.record (openRecord (openType desc target))) :=
        ⟨⟨_, hReaches, rfl⟩, rfl⟩
      obtain ⟨root, hAdmits⟩ := h.admits hCoherent hEmits hFree
      exact ⟨_, .placeholder hPending hAdmits⟩
  | report diagnostics => exact ⟨_, .report⟩
  | place d =>
    obtain ⟨root, hAdmits⟩ :=
      h.admits hCoherent hReady.emits (hReady.free d List.mem_cons_self)
    exact ⟨_, .place hAdmits⟩

variable (hSeparate : setting.Separate)
include hSeparate

omit hCoherent in
/-- What is lent is in nobody's way. -/
theorem Session.Sane.push_lent (h : s.Sane setting) (hReady : s.Ready setting (a :: as))
    {d : Declaration} (hLends : a.Lends d) {root : Module}
    (hPlaced : Session.Placed { s with root, registry := s.registry.push d }) :
    Session.Sane setting { s with root, registry := s.registry.push d } ∧
      Session.Ready setting { s with root, registry := s.registry.push d } as := by
  have hReaches := hReady.reached a List.mem_cons_self
  have hRegisters : a.Registers d := by cases hLends <;> rfl
  refine ⟨h.push ⟨a, hReaches, hRegisters⟩ hPlaced fun job hJob d' hd' hKey => ?_,
    hReady.tail.push root fun d' hd' => ?_⟩
  · exact absurd hKey (hSeparate.lent_ne hReaches hLends hJob hd')
  · obtain ⟨job, hJob, hd', -⟩ := hReady.tail.running d' hd'
    exact hSeparate.lent_ne hReaches hLends hJob hd'

/-- Then the session is sane again, and what is left of the script is ready. -/
theorem Session.Sane.step (h : s.Sane setting) (hStep : s.Step a s')
    (hReady : s.Ready setting (a :: as)) : s'.Sane setting ∧ s'.Ready setting as := by
  have hReaches := hReady.reached a List.mem_cons_self
  have hTail := hReady.tail
  cases hStep with
  | present | claimed | pending => exact ⟨h, hTail⟩
  | report =>
    exact ⟨⟨⟨h.tree.tidy, h.tree.path, h.tree.places⟩, h.origin, h.claimed, h.started⟩,
      hTail.reached, hTail.free, hTail.distinct, hTail.running⟩
  | @primitive p hFree =>
    exact h.push_lent hSeparate hReady .primitive
      ((Session.Step.primitive hFree).placed nofun h.tree)
  | @claim type name args hFree =>
    refine ⟨⟨⟨h.tree.tidy, h.tree.path, h.tree.places⟩, h.origin, ?_, h.started⟩,
      hTail.reached, hTail.free, hTail.distinct, hTail.running⟩
    intro key claimed hClaim
    rw [List.lookup_cons] at hClaim
    split at hClaim
    · rename_i hKey
      cases hClaim
      exact ⟨type, (beq_iff_eq.mp hKey).symm, hReaches⟩
    · exact h.claimed hClaim
  | @placeholder type root hFree hAdmits =>
    exact h.push_lent hSeparate hReady .placeholder (h.tree.push rfl hAdmits)
  | @place d root hAdmits =>
    have hEmits := hReady.emits
    obtain ⟨job, hJob, hd, hStack⟩ := hReady.running d List.mem_cons_self
    refine ⟨h.push ⟨_, hReaches, rfl⟩ (h.tree.push hEmits.emitted hAdmits) ?_,
      hTail.push root fun d' hd' hSame => ?_⟩
    · intro job' hJob' d' hd' hSame
      obtain rfl := hCoherent.apart hJob' hJob hd' hd hSame
      simp [Session.isPending, hStack]
    · exact (List.nodup_cons.mp hReady.distinct).1 (hSame ▸ List.mem_map_of_mem hd')

/-- A build that is over has left free what is still to be placed. -/
theorem Session.Ready.leave {job : Job} (hJob : job.Reached setting)
    (hFree : s.isPending job.key = false) {jobs : List Job}
    (hAccount : Account setting (s.enter job.key) (job.script setting).actions jobs s')
    (hStack : s'.stack = (s.enter job.key).stack) (h : s.Ready setting as) :
    s'.leave.Ready setting as := by
  have hIn : ∀ {a : Action}, setting.Reaches (job.script setting).actions a →
      setting.Reaches setting.script.actions a :=
    fun hReaches => hReaches.trans fun b hb => .inner hJob.1 hJob.2 hb
  have hLeave : s'.leave.stack = s.stack := by
    rw [Session.leave, hStack]
    rfl
  refine ⟨h.reached, fun d hd => ?_, h.distinct, fun d hd => ?_⟩
  · obtain ⟨own, hOwn, hMem, hRunning⟩ := h.running d hd
    have hApart : ∀ {other : Job}, other.Reached setting → s.isPending other.key = false →
        ∀ d' ∈ placed (other.script setting).actions, d.key ≠ d'.key := by
      intro other hOther hOtherFree d' hd' hKey
      obtain rfl := hCoherent.apart hOwn hOther hMem hd' hKey
      simp [Session.isPending, hRunning] at hOtherFree
    by_contra hThere
    have hThere : s'.registry.contains d.key = true := by simpa [Session.leave] using hThere
    obtain ⟨d', hGet⟩ := Registry.exists_get? hThere
    rcases hAccount.entry_cases (Registry.mem_of_get? hGet) with
      hOld | ⟨hKey, ⟨a, hReaches, hLends⟩ | hd' | ⟨other, hOther, hd'⟩⟩
    · have hOld := Registry.contains_iff.mpr (List.mem_map_of_mem hOld)
      exact absurd hOld (by simpa [Session.enter] using h.free d hd)
    · exact hSeparate.lent_ne (hIn hReaches) hLends hOwn hMem hKey
    · exact hApart hJob hFree d' hd' hKey
    · have hDone := hAccount.done other hOther
      have hOtherFree := hDone.free
      simp only [Session.isPending, Session.enter, List.contains_cons, Bool.or_eq_false_iff]
        at hOtherFree
      refine hApart ⟨hIn hDone.reaches, hDone.candidate⟩ ?_ d' hd' hKey
      rw [Session.isPending, hOtherFree.1, hOtherFree.2.2]
      rfl
  · obtain ⟨own, hOwn, hMem, hRunning⟩ := h.running d hd
    exact ⟨own, hOwn, hMem, hLeave ▸ hRunning⟩

/-- Every run of actions that are ready ends without an error. -/
theorem Exec.ok_of_sane {r : Except ExportError Unit} (h : Exec setting s as r s')
    (hSane : s.Sane setting) (hReady : s.Ready setting as) : r = .ok () ∧ s'.Sane setting := by
  induction h with
  | done => exact ⟨rfl, hSane⟩
  | step hStep _ ih =>
    obtain ⟨hSane', hReady'⟩ := hSane.step hCoherent hSeparate hStep.step hReady
    exact ih hSane' hReady'
  | fail hStep =>
    obtain ⟨s', hOther⟩ := hSane.exists_step hCoherent hReady hStep.plain
    have hEq := (hOther.atomic setting.config).eq
    cases hStep.eq.symm.trans hEq
  | skip _ _ ih => exact ih hSane hReady.tail
  | @build s s' s'' desc type as r hCandidate hFree hOk hInner _ ihInner ihRest =>
    have hJob : Job.Reached setting ⟨desc, type⟩ :=
      ⟨hReady.reached _ List.mem_cons_self, hCandidate⟩
    obtain ⟨hSaneIn, hReadyIn⟩ := hSane.enter hCoherent hJob hFree
    obtain ⟨-, hSane'⟩ := ihInner hSaneIn hReadyIn
    have hKnown : ∀ a ∈ (setting.buildScript desc type).actions, a.Known setting :=
      known_buildScript desc type
    have hThere := contains_of_settled hJob.known hOk (hInner.settled hKnown)
    obtain ⟨jobs, hAccount⟩ := hInner.account hKnown
    exact ihRest (hSane'.leave hInner.stack_eq hThere)
      (hReady.tail.leave hCoherent hSeparate hJob hFree hAccount hInner.stack_eq)
  | @abort s s' desc type as r e hCandidate hFree _ hError ihInner =>
    have hJob : Job.Reached setting ⟨desc, type⟩ :=
      ⟨hReady.reached _ List.mem_cons_self, hCandidate⟩
    obtain ⟨hSaneIn, hReadyIn⟩ := hSane.enter hCoherent hJob hFree
    obtain ⟨rfl, -⟩ := ihInner hSaneIn hReadyIn
    exact absurd ((hCoherent.builds _ hJob).symm.trans hError) nofun

end Coherent

/-- As long as no key is claimed for two sources, a construction succeeds exactly if nothing that is
reached stands in the way of anything else. -/
theorem exists_built_iff (hSeparate : setting.Separate) :
    (∃ n s, (buildAll setting).on {} = (.ok n, s)) ↔ setting.Coherent := by
  constructor
  · rintro ⟨n, s, hRun⟩
    have hBuilt := built_of_buildAll hRun
    obtain ⟨jobs, hAccount⟩ := hBuilt.run.account known_script
    exact hBuilt.coherent hSeparate hAccount
  · intro hCoherent
    obtain ⟨r, hRun, hResult⟩ := exists_exec setting
    have hReady : ({} : Session).Ready setting setting.script.actions := by
      refine ⟨fun a ha => .here ha, ?_, ?_, ?_⟩ <;> simp [placed_script]
    obtain ⟨rfl, -⟩ := hRun.ok_of_sane hCoherent hSeparate Session.sane_empty hReady
    obtain ⟨n, hScript⟩ := hCoherent.script
    rw [hScript] at hResult
    generalize (buildAll setting).on {} = ran at hResult
    obtain ⟨result, s⟩ := ran
    exact ⟨n, s, congrArg (·, s) hResult⟩

end FixedLayout.Construction
