import FixedLayout.Proofs.Construction.Whole
import FixedLayout.Proofs.Construction.Steps

/-! The account of a run without an error: which descriptions it has built, and that the session
holds what these builds and the given actions have declared and reported, and besides nothing but
primitives and placeholders. -/

namespace FixedLayout.Construction

open Script

/-- A description with the type that it is built with. -/
structure Job where
  desc : TypeDesc
  type : TypeExpr

namespace Job

def key (job : Job) : String := job.type.canonical

def script (setting : Setting) (job : Job) : Script Unit := setting.buildScript job.desc job.type

end Job

/-- The declarations that some actions place, in order. -/
def placed (as : List Action) : List Declaration :=
  as.filterMap fun
    | .place d => some d
    | _ => none

/-- What some actions report, in order. -/
def reported (as : List Action) : List Diagnostic :=
  as.flatMap fun
    | .report diagnostics => diagnostics
    | _ => []

theorem placed_cons (a : Action) (as : List Action) :
    placed (a :: as) = placed [a] ++ placed as := by
  simp only [placed, ← List.filterMap_append, List.singleton_append]

theorem reported_cons (a : Action) (as : List Action) :
    reported (a :: as) = reported [a] ++ reported as := by
  simp [reported]

@[simp] theorem placed_ensure (desc : TypeDesc) (type : TypeExpr) (as : List Action) :
    placed (.ensure desc type :: as) = placed as := rfl

@[simp] theorem reported_ensure (desc : TypeDesc) (type : TypeExpr) (as : List Action) :
    reported (.ensure desc type :: as) = reported as := rfl

theorem reported_append (as bs : List Action) :
    reported (as ++ bs) = reported as ++ reported bs :=
  List.flatMap_append

theorem reported_eq_nil {as : List Action} (h : ∀ a ∈ as, reported [a] = []) : reported as = [] :=
  List.flatMap_eq_nil_iff.mpr fun a ha => by simpa [reported] using h a ha

theorem mem_placed {as : List Action} {d : Declaration} : d ∈ placed as ↔ .place d ∈ as := by
  simp only [placed, List.mem_filterMap]
  constructor
  · rintro ⟨a, ha, hEq⟩
    cases a with
    | place d' =>
      cases hEq
      exact ha
    | _ => cases hEq
  · intro hd
    exact ⟨.place d, hd, rfl⟩

/-- Whatever a build places is what its description declares. -/
theorem Job.declares {setting : Setting} {job : Job} {d : Declaration}
    (hd : d ∈ placed (job.script setting).actions) : setting.Declares job.desc job.type d := by
  rcases Host.does_buildType job.desc job.type _ (mem_placed.mp hd) with
    hCalls | ⟨_, hEq⟩ | ⟨_, hEq, hDeclares⟩
  · cases hCalls
  · cases hEq
  · cases hEq
    exact hDeclares

/-- The declaration is one that an action registers unless its key is taken. -/
inductive Action.Lends : Action → Declaration → Prop
  | primitive {p : Primitive} : Lends (.primitive p) (.primitive p)
  | placeholder {type : TypeExpr} : Lends (.placeholder type) (.record (openRecord type))

/-- A run from `s` to `s'` with the actions `as` has come to the job, which was not pending, and has
finished it. -/
structure Job.Done (setting : Setting) (s : Session) (as : List Action) (s' : Session)
    (job : Job) : Prop where
  reaches : setting.Reaches as (.ensure job.desc job.type)
  candidate : isCandidate setting.config job.desc = true
  free : s.isPending job.key = false
  ok : (job.script setting).result = .ok ()
  settled : ∀ a ∈ (job.script setting).actions, a.Settled setting.config s'

/-- What a run from `s` to `s'` with the actions `as` has done, where `jobs` are its builds. -/
structure Account (setting : Setting) (s : Session) (as : List Action) (jobs : List Job)
    (s' : Session) : Prop where
  done : ∀ job ∈ jobs, job.Done setting s as s'
  diagnostics : s'.diagnostics.Perm
    (s.diagnostics ++
      (reported as ++ jobs.flatMap fun job => reported (job.script setting).actions))
  registry : ∃ lent : List Declaration,
    (∀ d ∈ lent, ∃ a, setting.Reaches as a ∧ a.Lends d) ∧
    s'.registry.entries.Perm (s.registry.entries ++
      (lent ++ (placed as ++ jobs.flatMap fun job => placed (job.script setting).actions)).map
        fun d => (d.key, d))

variable {setting : Setting} {s s' s'' : Session} {as bs : List Action}

/-- Everything in the registry was there before, or was lent by an action that is reached, or placed
by a given action or by a build. -/
theorem Account.entry_cases {jobs : List Job} (h : Account setting s as jobs s') {key : String}
    {d : Declaration} (hMem : (key, d) ∈ s'.registry.entries) :
    (key, d) ∈ s.registry.entries ∨ key = d.key ∧
      ((∃ a, setting.Reaches as a ∧ a.Lends d) ∨ d ∈ placed as ∨
        ∃ job ∈ jobs, d ∈ placed (job.script setting).actions) := by
  obtain ⟨lent, hLent, hEntries⟩ := h.registry
  rcases List.mem_append.mp (hEntries.mem_iff.mp hMem) with hOld | hNew
  · exact .inl hOld
  · simp only [List.mem_map, List.mem_append, List.mem_flatMap] at hNew
    obtain ⟨d, hd, hEq⟩ := hNew
    cases hEq
    exact .inr ⟨rfl, hd.imp_left (hLent d)⟩

/-- What one action adds to the diagnostics and to the registry. -/
theorem Session.Step.adds {a : Action} (h : s.Step a s') :
    s'.diagnostics = s.diagnostics ++ reported [a] ∧
      ∃ lent : List Declaration, (∀ d ∈ lent, a.Lends d) ∧
        s'.registry.entries =
          s.registry.entries ++ (lent ++ placed [a]).map fun d => (d.key, d) := by
  cases h with
  | present | claimed | claim | pending =>
    exact ⟨by simp [reported], [], by simp, by simp [placed]⟩
  | @primitive p =>
    refine ⟨by simp [reported], [.primitive p], ?_, by simp [placed, Registry.push]⟩
    simpa using Action.Lends.primitive
  | @placeholder type =>
    refine ⟨by simp [reported], [.record (openRecord type)], ?_,
      by simp [placed, Registry.push]⟩
    simpa using Action.Lends.placeholder
  | report => exact ⟨by simp [reported], [], by simp, by simp [placed]⟩
  | place => exact ⟨by simp [reported], [], by simp, by simp [placed, Registry.push]⟩

theorem Session.Keeps.free (h : s.Keeps s') {key : String} (hFree : s'.isPending key = false) :
    s.isPending key = false := by
  cases hPending : s.isPending key with
  | false => rfl
  | true =>
    rw [h.isPending hPending] at hFree
    cases hFree

/-- A type that is declared by now stays pending when it leaves the stack. -/
theorem Action.Settled.leave {a : Action} {key : String} {rest : List String}
    (h : a.Settled setting.config s) (hStack : s.stack = key :: rest)
    (hThere : s.registry.contains key = true) : a.Settled setting.config s.leave := by
  have hPending : ∀ other, s.isPending other = true → s.leave.isPending other = true := by
    intro other hOther
    simp only [Session.isPending, Session.leave, hStack, List.contains_cons, Bool.or_eq_true,
      beq_iff_eq, List.tail_cons] at hOther ⊢
    rcases hOther with hOther | rfl | hOther
    · exact .inl hOther
    · exact .inl hThere
    · exact .inr hOther
  cases a with
  | primitive | claim | report | place => exact h
  | ensure desc type => exact fun hCandidate => hPending _ (h hCandidate)
  | placeholder type => exact fun hKey => hPending _ (h hKey)

section Compose

variable {jobs inner : List Job} {job : Job}

theorem Job.Done.mono (h : job.Done setting s' bs s'') (hReaches : ∀ b ∈ bs, setting.Reaches as b)
    (hKeeps : s.Keeps s') : job.Done setting s as s'' :=
  ⟨h.reaches.trans hReaches, h.candidate, hKeeps.free h.free, h.ok, h.settled⟩

theorem Account.skip {desc : TypeDesc} {type : TypeExpr} (h : Account setting s as jobs s') :
    Account setting s (.ensure desc type :: as) jobs s' := by
  have hReaches : ∀ b ∈ as, setting.Reaches (.ensure desc type :: as) b := fun b hb =>
    .here (List.mem_cons_of_mem _ hb)
  obtain ⟨lent, hLent, hEntries⟩ := h.registry
  refine ⟨fun job hJob => ?_, ?_, lent, fun d hd => ?_, ?_⟩
  · obtain ⟨hReach, hCandidate, hFree, hOk, hSettled⟩ := h.done job hJob
    exact ⟨hReach.trans hReaches, hCandidate, hFree, hOk, hSettled⟩
  · exact h.diagnostics
  · obtain ⟨a, hReach, hLends⟩ := hLent d hd
    exact ⟨a, hReach.trans hReaches, hLends⟩
  · exact hEntries

theorem Account.step {a : Action} (hStep : s.Step a s') (hKeeps : s.Keeps s')
    (h : Account setting s' as jobs s'') : Account setting s (a :: as) jobs s'' := by
  have hReaches : ∀ b ∈ as, setting.Reaches (a :: as) b := fun b hb =>
    .here (List.mem_cons_of_mem _ hb)
  obtain ⟨hDiagnostics, lent, hLent, hEntries⟩ := hStep.adds
  obtain ⟨lent', hLent', hEntries'⟩ := h.registry
  refine ⟨fun job hJob => (h.done job hJob).mono hReaches hKeeps, ?_, lent ++ lent',
    fun d hd => ?_, ?_⟩
  · have hRest := h.diagnostics
    rw [hDiagnostics] at hRest
    rw [reported_cons a as]
    simpa using hRest
  · rcases List.mem_append.mp hd with hd | hd
    · exact ⟨a, .here List.mem_cons_self, hLent d hd⟩
    · obtain ⟨b, hReach, hLends⟩ := hLent' d hd
      exact ⟨b, hReach.trans hReaches, hLends⟩
  · rw [hEntries] at hEntries'
    refine hEntries'.trans (List.perm_iff_count.mpr fun e => ?_)
    rw [placed_cons a as]
    simp only [List.count_append, List.map_append]
    omega

/-- The account of a build and of what follows it. -/
theorem Job.Done.account (hJob : job.Done setting s (.ensure job.desc job.type :: as) s'')
    (hKeeps : s.Keeps s'.leave)
    (hSettled : ∀ a : Action, a.Settled setting.config s' → a.Settled setting.config s'')
    (hInner : Account setting (s.enter job.key) (job.script setting).actions inner s')
    (h : Account setting s'.leave as jobs s'') :
    Account setting s (.ensure job.desc job.type :: as) (job :: (inner ++ jobs)) s'' := by
  have hIn : ∀ b ∈ (job.script setting).actions,
      setting.Reaches (.ensure job.desc job.type :: as) b := fun b hb =>
    .inner (.here List.mem_cons_self) hJob.candidate hb
  have hOn : ∀ b ∈ as, setting.Reaches (.ensure job.desc job.type :: as) b := fun b hb =>
    .here (List.mem_cons_of_mem _ hb)
  obtain ⟨lent, hLent, hEntries⟩ := hInner.registry
  obtain ⟨lent', hLent', hEntries'⟩ := h.registry
  refine ⟨?_, ?_, lent ++ lent', fun d hd => ?_, ?_⟩
  · rintro other (_ | ⟨_, hOther⟩)
    · exact hJob
    · rcases List.mem_append.mp hOther with hOther | hOther
      · obtain ⟨hReach, hCandidate, hFree, hOk, hThen⟩ := hInner.done other hOther
        refine ⟨hReach.trans hIn, hCandidate, ?_, hOk, fun a ha => hSettled a (hThen a ha)⟩
        simp only [Session.isPending, Session.enter, List.contains_cons, Bool.or_eq_false_iff]
          at hFree ⊢
        exact ⟨hFree.1, hFree.2.2⟩
      · exact (h.done other hOther).mono hOn hKeeps
  · refine h.diagnostics.trans (List.perm_iff_count.mpr fun d => ?_)
    have hCount := List.perm_iff_count.mp hInner.diagnostics d
    simp only [reported_ensure, List.count_append, List.flatMap_cons, List.flatMap_append,
      Session.enter, Session.leave] at hCount ⊢
    omega
  · rcases List.mem_append.mp hd with hd | hd
    · obtain ⟨b, hReach, hLends⟩ := hLent d hd
      exact ⟨b, hReach.trans hIn, hLends⟩
    · obtain ⟨b, hReach, hLends⟩ := hLent' d hd
      exact ⟨b, hReach.trans hOn, hLends⟩
  · refine hEntries'.trans (List.perm_iff_count.mpr fun e => ?_)
    have hCount := List.perm_iff_count.mp hEntries e
    simp only [placed_ensure, List.count_append, List.map_append, List.flatMap_cons,
      List.flatMap_append, Session.enter, Session.leave] at hCount ⊢
    omega

end Compose

theorem Exec.account (hKnown : ∀ a ∈ as, a.Known setting) (h : Exec setting s as (.ok ()) s') :
    ∃ jobs, Account setting s as jobs s' := by
  generalize hR : (.ok () : Except ExportError Unit) = r at h
  induction h with
  | fail => cases hR
  | abort => cases hR
  | done => exact ⟨[], by simp, by simp [reported], [], by simp, by simp [placed]⟩
  | step hStep hRest ih =>
    subst hR
    obtain ⟨jobs, hAccount⟩ := ih (fun a ha => hKnown a (by simp [ha])) rfl
    exact ⟨jobs, hAccount.step hStep.step hStep.session_extends.keeps⟩
  | skip hSkip hRest ih =>
    obtain ⟨jobs, hAccount⟩ := ih (fun a ha => hKnown a (by simp [ha])) hR
    exact ⟨jobs, hAccount.skip⟩
  | @build s s' s'' desc type as r hCandidate hFree hOk hInner hRest ihInner ihRest =>
    subst hR
    have hScript : ∀ a ∈ (setting.buildScript desc type).actions, a.Known setting :=
      known_buildScript desc type
    obtain ⟨inner, hInnerAccount⟩ := ihInner hScript rfl
    obtain ⟨jobs, hAccount⟩ := ihRest (fun a ha => hKnown a (by simp [ha])) rfl
    have hThere := contains_of_settled (hKnown (.ensure desc type) (by simp)) hOk
      (hInner.settled hScript)
    have hSettled : ∀ a : Action, a.Settled setting.config s' → a.Settled setting.config s'' :=
      fun a ha => hRest.keeps.settled (ha.leave hInner.stack_eq hThere)
    obtain ⟨job, rfl, rfl⟩ : ∃ job : Job, job.desc = desc ∧ job.type = type :=
      ⟨⟨desc, type⟩, rfl, rfl⟩
    have hDone : job.Done setting s (.ensure job.desc job.type :: as) s'' :=
      ⟨.here List.mem_cons_self, hCandidate, hFree, hOk,
        fun a ha => hSettled a (hInner.settled hScript a ha)⟩
    exact ⟨_, hDone.account hInner.keeps.leave hSettled hInnerAccount hAccount⟩

/-! ### The account of a whole construction -/

/-- Only builds place anything. -/
theorem placed_script (setting : Setting) : placed setting.script.actions = [] := by
  have hNone : Only (fun a => placed [a] = []) setting.script :=
    only_script (fun _ => rfl) fun a ha => by cases ha <;> rfl
  refine List.filterMap_eq_nil_iff.mpr fun a ha => ?_
  cases a with
  | place => cases hNone _ ha
  | _ => rfl

theorem Setting.Calls.reported_eq_nil {setting : Setting} {a : Action} (h : setting.Calls a) :
    reported [a] = [] := by
  cases h <;> rfl

/-- Only builds report anything. -/
theorem reported_script (setting : Setting) : reported setting.script.actions = [] :=
  reported_eq_nil (only_script (fun _ => rfl) fun _ h => h.reported_eq_nil)

/-- Everything in the registry was lent by an action that is reached, or placed by a build. -/
theorem Account.origin {jobs : List Job} (h : Account setting {} setting.script.actions jobs s)
    {key : String} {d : Declaration} (hMem : (key, d) ∈ s.registry.entries) :
    key = d.key ∧ ((∃ a, setting.Reaches setting.script.actions a ∧ a.Lends d) ∨
      ∃ job ∈ jobs, d ∈ placed (job.script setting).actions) := by
  rcases h.entry_cases hMem with hOld | ⟨hKey, hLent | hPlaced | hBuilt⟩
  · cases hOld
  · exact ⟨hKey, .inl hLent⟩
  · rw [placed_script] at hPlaced
    cases hPlaced
  · exact ⟨hKey, .inr hBuilt⟩

end FixedLayout.Construction
