import FixedLayout.Proofs.Construction.Machine

/-! What can become of a session. A construction is asked for one thing after another, and each
request may end with an error; what it has claimed by then stays claimed. -/

namespace FixedLayout.Construction

open Script

/-- What a construction is asked for: to register the primitives, or a call. -/
inductive Request where
  | primitives
  | call (c : Call)

/-- The first moment of a request. -/
def Request.start (setting : Setting) (s : Session) : Request → Moment
  | .primitives => .running s ⟨setting.basis.actions, .ok ()⟩ []
  | .call c => c.start setting s

namespace Moment

/-- One moment follows another: as a step of a request, or once a request has ended, however it has,
as the first moment of another one. -/
inductive Next (setting : Setting) : Moment → Moment → Prop
  | step {m m' : Moment} (h : m.next? setting = some m') : Next setting m m'
  | request {r : Except ExportError Unit} {s : Session} (request : Request) :
      Next setting (.ended r s []) (request.start setting s)

def Precedes (setting : Setting) : Moment → Moment → Prop :=
  Relation.ReflTransGen (Next setting)

end Moment

/-- At some moment the session is the first one, and at the same moment or later the second one. -/
def Session.Precedes (setting : Setting) (s s' : Session) : Prop :=
  ∃ m m' : Moment, m.session = s ∧ m'.session = s' ∧ m.Precedes setting m'

variable {setting : Setting} {s s' : Session} {m m' : Moment}

theorem Moment.Leads.precedes (h : m.Leads setting m') : m.Precedes setting m' := by
  induction h with
  | refl => exact .refl
  | tail _ hNext ih => exact ih.tail (.step hNext)

/-! ### What stays -/

/-- No claim is given up. -/
theorem Moment.claims_next? (h : m.next? setting = some m') {key : String}
    {claimed : String × List TypeExpr} (hClaimed : m.session.instances.lookup key = some claimed) :
    m'.session.instances.lookup key = some claimed := by
  cases step_of_next? h with
  | ends | build | skip | resume | unwind => exact hClaimed
  | act hAct => exact hAct.session_extends.keeps.claims key claimed hClaimed
  | fail hFail => exact hFail.session_extends.keeps.claims key claimed hClaimed

theorem Session.Precedes.claims (h : s.Precedes setting s') {key : String}
    {claimed : String × List TypeExpr} (hClaimed : s.instances.lookup key = some claimed) :
    s'.instances.lookup key = some claimed := by
  obtain ⟨m, m', rfl, rfl, hPrecedes⟩ := h
  induction hPrecedes with
  | refl => exact hClaimed
  | tail _ hNext ih =>
    cases hNext with
    | step hStep => exact Moment.claims_next? hStep ih
    | request request => cases request <;> exact ih

/-! ### Calls in a row -/

theorem eq_of_toOption {α : Type} {a : α} {answer : Except ExportError α × Session}
    (h : answer.1.toOption = some a) : answer = (.ok a, answer.2) :=
  Prod.ext (ok_of_toOption h) rfl

namespace Call

/-- To call a construction in which nothing is being built is a run of the script of the call. -/
theorem exists_exec (setting : Setting) (call : Call) (hIdle : s.stack = []) :
    ∃ r s', Exec setting s (call.on (recorder setting)).actions r s' ∧
      (call.on (Scope.top setting)).on s =
        (r.bind fun _ => (call.on (recorder setting)).result, s') := by
  have hStacked : s.Stacked setting := ⟨hIdle ▸ List.nodup_nil, by simp [hIdle]⟩
  have hScript := runOn_on (Scope.top setting) call
  rw [show (Scope.top setting).setting = setting from Scope.setting_withRoom ..] at hScript
  rw [← hScript, on_runOn]
  exact ⟨_, _, exec_withRoom _ hStacked call.known (Nat.le_add_left ..), rfl⟩

/-- The session after some calls, each of which may have failed. -/
def after (setting : Setting) (s : Session) (calls : List Call) : Session :=
  calls.foldl (fun s call => ((call.on (Scope.top setting)).on s).2) s

theorem exists_precedes_after (hIdle : s.stack = []) (calls : List Call)
    (r : Except ExportError Unit) :
    ∃ r', (Moment.ended r s []).Precedes setting (.ended r' (after setting s calls) []) := by
  induction calls generalizing s r with
  | nil => exact ⟨r, .refl⟩
  | cons call calls ih =>
    obtain ⟨r', s', hRun, hAnswer⟩ := exists_exec setting call hIdle
    have hCall : (Moment.ended r s []).Precedes setting (.ended (r'.bind fun _ => .ok ()) s' []) :=
      .head (.request (.call call)) (hRun.leads (.ok ()) []).precedes
    obtain ⟨r'', hRest⟩ := ih (hRun.stack_eq.trans hIdle) (r'.bind fun _ => .ok ())
    refine ⟨r'', ?_⟩
    rw [after, List.foldl_cons, hAnswer]
    exact hCall.trans hRest

theorem precedes_after (setting : Setting) (hIdle : s.stack = []) (calls : List Call) :
    s.Precedes setting (after setting s calls) := by
  obtain ⟨r, h⟩ := exists_precedes_after hIdle calls (.ok ())
  exact ⟨_, _, rfl, rfl, h⟩

end Call

end FixedLayout.Construction
