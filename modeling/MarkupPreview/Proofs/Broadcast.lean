import MarkupPreview.Proofs.SessionCourse

/-!
# The last broadcast is the view

A session sends its view out at three places only: after a firing that publishes
the empty result, after a firing that starts an attempt, and after an outcome that
is published. What a reader of the session sees is the last view that was sent, so
everything else that happens has to leave the view alone.

Nothing here asks whether a thing can happen in the state it happens in. The timer
may run out with no change pending, an outcome may be reported for any generation,
late or twice, and it may be any outcome at all: the attempts of a compiler other
than the one of the session are covered as well.

## Main results

* `announces_undergo` — whatever happens, the new view is sent out, or else nothing
  is sent and the view is the old one.
* `current_inStep` — so what was sent last is the view, along every run.
-/

namespace MarkupPreview.Session

/-! ## What happens to a session -/

/-- The outcome of an attempt of the given generation is reported. -/
def report (session : Session) (generation : Nat) (outcome : CompileOutcome) : Session :=
  let (publication, scheduler) := session.scheduler.complete generation outcome
  match publication with
  | .published => { session with scheduler }.broadcast
  | .discarded => { session with scheduler }

/-- Something that happens to a session: an event, whether the session admits it or
not, or the report of any outcome. -/
inductive Happening where
  | event (event : Event)
  | report (generation : Nat) (outcome : CompileOutcome)
deriving DecidableEq, Repr

/-- The session after something has happened. -/
def undergo (session : Session) : Happening → Session
  | .event event => session.after event
  | .report generation outcome => session.report generation outcome

/-- The end of an attempt is the report of its outcome. -/
theorem finish_eq_report (session : Session) (job : Job) :
    session.finish job =
      { session with
        compiler := (session.compiler.attempt job.abort job.ticket.source).2 }.report
          job.ticket.generation
          (session.compiler.attempt job.abort job.ticket.source).1 := rfl

/-! ## One step -/

/-- From one state to the next the new view is sent out, or else nothing is sent and
the view is as it was. -/
def Announces (before after : Session) : Prop :=
  (after.broadcasts = before.broadcasts + 1 ∧ after.current = after.scheduler.view) ∨
    (after.broadcasts = before.broadcasts ∧ after.current = before.current ∧
      after.scheduler.view = before.scheduler.view)

/-- The timer runs out. Without a pending change nothing is fired. -/
theorem announces_fire (session : Session) : Announces session session.fire := by
  by_cases hpending : session.scheduler.pending = true
  · by_cases hblank : session.scheduler.latestSource.isBlank = true
    · left
      simp [fire, Scheduler.fire_blank hpending hblank, broadcast]
    · rw [Bool.not_eq_true] at hblank
      left
      simp [fire, Scheduler.fire_compile hpending hblank, broadcast, startJob]
  · rw [Bool.not_eq_true] at hpending
    right
    simp [fire, Scheduler.fire_idle hpending]

/-- An outcome is published and sent out, or it is stale and dropped. -/
theorem announces_report (session : Session) (generation : Nat) (outcome : CompileOutcome) :
    Announces session (session.report generation outcome) := by
  by_cases hstale : generation < session.scheduler.lastPublished
  · right
    simp [report, Scheduler.complete_stale hstale]
  · left
    have hcurrent : session.scheduler.lastPublished ≤ generation := by omega
    simp [report, Scheduler.complete_current hcurrent, broadcast]

theorem announces_after (session : Session) (event : Event) :
    Announces session (session.after event) := by
  cases event with
  | edit source => exact .inr ⟨rfl, rfl, Scheduler.view_change ..⟩
  | shutdown => exact .inr ⟨rfl, rfl, Scheduler.view_cancel _⟩
  | wait time => exact .inr ⟨rfl, rfl, rfl⟩
  | due due =>
      cases due with
      | timer time => exact announces_fire { session with now := time }
      | job job others =>
          rw [after, handle, finish_eq_report]
          exact announces_report _ job.ticket.generation _

theorem announces_undergo (session : Session) (happening : Happening) :
    Announces session (session.undergo happening) := by
  cases happening with
  | event event => exact announces_after session event
  | report generation outcome => exact announces_report session generation outcome

/-! ## Whole runs -/

/-- What was sent last is the view. -/
def InStep (session : Session) : Prop := session.current = session.scheduler.view

theorem Announces.inStep {before after : Session} (h : Announces before after)
    (hbefore : InStep before) : InStep after := by
  rcases h with ⟨-, hsent⟩ | ⟨-, hcurrent, hview⟩
  · exact hsent
  · calc
      after.current = before.current := hcurrent
      _ = before.scheduler.view := hbefore
      _ = after.scheduler.view := hview.symm

theorem InStep.foldl_undergo {session : Session} (h : InStep session)
    (happened : List Happening) : InStep (happened.foldl undergo session) := by
  induction happened generalizing session with
  | nil => exact h
  | cons happening rest ih => exact ih ((announces_undergo session happening).inStep h)

/-- The steps of a user are such a run. In any run what was sent last is the view,
and whatever happens next the new view is sent out, or else nothing is sent and the
view stays the same. -/
theorem current_inStep (debounce : Nat) (base : Style) (script : Nat → Attempt) :
    let start := new debounce base script
    (∀ steps : List SessionStep, ∃ happened : List Happening,
      happened.foldl undergo start = steps.foldl step start) ∧
    ∀ happened : List Happening,
      let session := happened.foldl undergo start
      session.current = session.scheduler.view ∧
        ∀ next, Announces session (session.undergo next) := by
  intro start
  refine ⟨fun steps => ?_, fun happened => ⟨?_, fun next => announces_undergo _ next⟩⟩
  · refine ⟨(start.eventsOf steps).map .event, ?_⟩
    rw [List.foldl_map, ← follow_eventsOf]
    rfl
  · have hstart : InStep start := rfl
    exact hstart.foldl_undergo happened

end MarkupPreview.Session
