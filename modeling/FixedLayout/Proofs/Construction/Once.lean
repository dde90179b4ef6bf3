import FixedLayout.Proofs.Construction.Machine

/-! No type is built twice in one run, however many references lead to it. From the moment that the
build of a type begins, its key is on the stack, and the script of the build owes a declaration
under it; once that has been placed, the key is in the registry. -/

namespace FixedLayout.Construction

open Script

namespace Moment

/-- With the next step, the build of a type with the key begins. -/
def Begins (setting : Setting) (key : String) : Moment → Prop
  | running s ⟨.ensure desc type :: _, _⟩ _ =>
    isCandidate setting.config desc = true ∧ s.isPending type.canonical = false ∧
      type.canonical = key
  | _ => False

/-- All scripts that are under way, the innermost first. One that is over has no actions left. -/
def scripts : Moment → List Frame
  | running _ frame outer => frame :: outer
  | ended r _ outer => ⟨[], r⟩ :: outer

/-- The run is about to end, with an error. -/
def Failing : Moment → Prop
  | running .. => False
  | ended r .. => ∃ e, r = .error e

end Moment

/-- The script fails unless it declares something under the key. -/
def Frame.Owes (key : String) (frame : Frame) : Prop :=
  (∃ e, frame.result = .error e) ∨ ∃ d, .place d ∈ frame.actions ∧ d.key = key

namespace Moment

/-- The key is taken, or a build that owes it is under way, unless everything fails. -/
inductive Guards (key : String) (m : Moment) : Prop
  | failing (hFails : m.Failing)
  | taken (hThere : m.session.registry.contains key = true)
  | owed {i : Nat} {frame : Frame} (hStack : m.session.stack[i]? = some key)
      (hScript : m.scripts[i]? = some frame) (hOwes : frame.Owes key)

variable {setting : Setting} {key : String} {m m' : Moment}

/-- A guarded key is pending, so nothing builds it. -/
theorem Guards.not_begins (h : m.Guards key) : ¬m.Begins setting key := by
  intro hBegins
  unfold Begins at hBegins
  split at hBegins
  · rename_i s desc type as result outer
    obtain ⟨-, hFree, rfl⟩ := hBegins
    rw [Session.isPending, Bool.or_eq_false_iff] at hFree
    cases h with
    | failing hFails => exact hFails
    | taken hThere => exact Bool.false_ne_true (hFree.1.symm.trans hThere)
    | owed hStack =>
      have hMem : type.canonical ∈ s.stack := List.mem_of_getElem? hStack
      simp [hMem] at hFree
  · exact hBegins

/-- A build that begins guards its key. -/
theorem Begins.guards_next (h : m.Begins setting key) (hSound : m.Sound setting)
    (hNext : m.next? setting = some m') : m'.Guards key := by
  unfold Begins at h
  split at h
  · rename_i s desc type as result outer
    obtain ⟨hCandidate, hFree, rfl⟩ := h
    have hKnown : (Action.ensure desc type).Known setting :=
      hSound.known _ List.mem_cons_self _ List.mem_cons_self
    rw [next?_of_free hCandidate hFree] at hNext
    cases hNext
    refine .owed (i := 0) rfl rfl ?_
    cases hResult : (setting.buildScript desc type).result with
    | error e => exact .inl ⟨e, rfl⟩
    | ok u =>
      obtain ⟨d, hOwn, hPlace⟩ := Host.place_mem_of_ok hResult
      exact .inr ⟨d, hPlace, Setting.key_of_declaration? hKnown.2 hOwn⟩
  · exact h.elim

/-- A script under way does one of its actions, which keeps the session but for what it adds. -/
theorem Guards.tail {s s' : Session} {a : Action} {as : List Action}
    {result : Except ExportError Unit} {outer : List Frame} (hKeeps : s.Keeps s')
    (hPlaced : ∀ d, a = .place d → s'.registry.contains d.key = true)
    (h : (running s ⟨a :: as, result⟩ outer).Guards key) :
    (running s' ⟨as, result⟩ outer).Guards key := by
  cases h with
  | failing hFails => exact hFails.elim
  | taken hThere => exact .taken (hKeeps.contains key hThere)
  | @owed i frame hStack hScript hOwes =>
    have hStack : s'.stack[i]? = some key := hKeeps.stack ▸ hStack
    cases i with
    | succ i => exact .owed (i := i + 1) hStack hScript hOwes
    | zero =>
      cases hScript
      rcases hOwes with hError | ⟨d, hMem, rfl⟩
      · exact .owed (i := 0) hStack rfl (.inl hError)
      · rcases List.mem_cons.mp hMem with hHere | hMem
        · exact .taken (hPlaced d hHere.symm)
        · exact .owed (i := 0) hStack rfl (.inr ⟨d, hMem, rfl⟩)

theorem Guards.next (h : m.Guards key) (hNext : m.next? setting = some m') : m'.Guards key := by
  cases step_of_next? hNext with
  | ends =>
    cases h with
    | failing hFails => exact hFails.elim
    | taken hThere => exact .taken hThere
    | owed hStack hScript hOwes => exact .owed hStack hScript hOwes
  | build =>
    -- The scripts that were under way move outwards by one, and so do their keys.
    cases h.tail (.refl _) (by rintro d ⟨⟩) with
    | failing hFails => exact hFails.elim
    | taken hThere => exact .taken hThere
    | owed hStack hScript hOwes => exact .owed (i := _ + 1) hStack hScript hOwes
  | skip => exact h.tail (.refl _) (by rintro d ⟨⟩)
  | act hAct =>
    refine h.tail hAct.session_extends.keeps ?_
    rintro d rfl
    exact hAct.settled
  | fail => exact .failing ⟨_, rfl⟩
  | @resume s frame outer =>
    cases h with
    | failing hFails => exact nomatch hFails
    | taken hThere => exact .taken hThere
    | @owed i script hStack hScript hOwes =>
      cases i with
      | zero =>
        cases hScript
        rcases hOwes with ⟨e, hError⟩ | ⟨d, hMem, -⟩
        · cases hError
        · cases hMem
      | succ i =>
        have hTail : s.leave.stack[i]? = some key := by rwa [Session.leave, List.getElem?_tail]
        exact .owed (i := i) hTail hScript hOwes
  | unwind => exact .failing ⟨_, rfl⟩

theorem Guards.leads (h : m.Guards key) (hLeads : m.Leads setting m') : m'.Guards key := by
  induction hLeads with
  | refl => exact h
  | tail _ hNext ih => exact ih.next hNext

end Moment

/-- The first moment of a construction. -/
def Setting.start (setting : Setting) : Moment := .running {} ⟨setting.script.actions, .ok ()⟩ []

theorem Setting.sound_start (setting : Setting) : setting.start.Sound setting := by
  refine ⟨⟨List.nodup_nil, nofun⟩, fun frame hFrame a ha => ?_⟩
  rw [List.mem_singleton.mp hFrame] at ha
  exact known_script a ha

/-- In the construction of the library, no build that has begun begins again later on. -/
def Setting.BuildsOnce (setting : Setting) : Prop :=
  ∀ key m m' later, setting.start.Leads setting m → m.Begins setting key →
    m.next? setting = some m' → m'.Leads setting later → ¬later.Begins setting key

theorem Setting.buildsOnce (setting : Setting) : setting.BuildsOnce :=
  fun _ _ _ _ hLeads hBegins hNext hLater =>
    ((hBegins.guards_next (setting.sound_start.leads hLeads) hNext).leads hLater).not_begins

end FixedLayout.Construction
