import MarkupPreview.Preview.Session
import MarkupPreview.Proofs.LineCache
import MarkupPreview.Proofs.SchedulerHistory

/-!
# The course of a session

A session goes on by single events: its user edits or shuts down, time passes,
the debounce timer runs out, an attempt ends. A *course* is a list of events each
of which is possible when it comes. Which of several due things comes first is
left open, and so is when a thing that is due is handled, so what holds along
every course does not hang on how the clock breaks ties. The steps of a user,
with all that falls due during a sleep, are one such course.

`Sound` is what every event keeps. It ties the four parts of a session together:
the timer to the pending flag, the attempts under way to the awaited tickets, the
compiler to its base style, and the last broadcast to the scheduler.

## Main results

* `follow_eventsOf`, `possible_eventsOf` — the steps of a user are a course.
* `Sound.after`, `Sound.follow` — one event and a whole course keep soundness.
-/

namespace MarkupPreview

/-! ## Attempts -/

/-- What an attempt comes to, whatever was compiled before it. -/
def attemptOutcome (base : Style) (abort : Option Abort) (source : Text) : CompileOutcome :=
  match abort with
  | some abort => .error (.aborted abort.text)
  | none => compileText base source

namespace CachedCompiler

/-- The compiler keeps its base style and whole lexed lines. -/
structure Sound (base : Style) (compiler : CachedCompiler) : Prop where
  base_eq : compiler.base = base
  holds : ∃ lines, compiler.cache.Holds lines

theorem sound_new (base : Style) : Sound base (.new base) where
  base_eq := rfl
  holds := ⟨[], LineCache.holds_empty⟩

theorem Sound.compile {base : Style} {compiler : CachedCompiler} (h : Sound base compiler)
    (source : Text) :
    (compiler.compile source).1 = compileText base source ∧
      Sound base (compiler.compile source).2 := by
  obtain ⟨lines, hlines⟩ := h.holds
  unfold CachedCompiler.compile compileText
  cases source.isBlank with
  | true => exact ⟨rfl, h⟩
  | false =>
      refine ⟨?_, ?_⟩
      · simp [h.base_eq, (hlines.tokenize source).1]
      · exact ⟨h.base_eq, source.lines, hlines.holds_tokenize source⟩

theorem Sound.attempt {base : Style} {compiler : CachedCompiler} (h : Sound base compiler)
    (abort : Option Abort) (source : Text) :
    (compiler.attempt abort source).1 = attemptOutcome base abort source ∧
      Sound base (compiler.attempt abort source).2 := by
  unfold CachedCompiler.attempt attemptOutcome
  cases abort with
  | some abort => exact ⟨rfl, h⟩
  | none => exact h.compile source

end CachedCompiler

namespace Session

/-! ## Courses -/

/-- One thing that happens to a session. -/
inductive Event where
  | edit (source : Text)
  | shutdown
  | wait (time : Nat)
  | due (due : Due)
deriving DecidableEq, Repr

/-- The session after an event. -/
def after (session : Session) : Event → Session
  | .edit source => session.edit source
  | .shutdown => session.shutdown
  | .wait time => { session with now := time }
  | .due due => session.handle due

/-- A timer that is set can run out, and any attempt under way can end. -/
def Admits (session : Session) : Event → Prop
  | .edit _ => True
  | .shutdown => True
  | .wait _ => True
  | .due (.timer time) => session.timer = some time
  | .due (.job job others) => session.jobs.Perm (job :: others)

/-- The session after some events. -/
def follow (session : Session) (events : List Event) : Session := events.foldl after session

/-- Events that may come one after the other. -/
def Possible : Session → List Event → Prop
  | _, [] => True
  | session, event :: rest => session.Admits event ∧ (session.after event).Possible rest

theorem follow_append (session : Session) (front back : List Event) :
    session.follow (front ++ back) = (session.follow front).follow back :=
  List.foldl_append

theorem possible_append (session : Session) (front back : List Event) :
    session.Possible (front ++ back) ↔
      session.Possible front ∧ (session.follow front).Possible back := by
  induction front generalizing session with
  | nil => simp [Possible, follow]
  | cons event rest ih => simp [Possible, ih, follow, and_assoc]

/-- A course cut at one of its events. -/
theorem possible_split {session : Session} {earlier later : List Event} {event : Event}
    (h : session.Possible (earlier ++ event :: later)) :
    session.Possible earlier ∧ (session.follow earlier).Admits event ∧
      ((session.follow earlier).after event).Possible later :=
  (possible_append ..).mp h

/-! ## The steps of a user -/

/-- What falls due up to the given time, as the clock brings it, and the wait for
the rest. -/
def dueEvents (session : Session) (limit : Nat) : List Event :=
  match _h : session.due? limit with
  | none => [.wait limit]
  | some due => .due due :: (session.handle due).dueEvents limit
termination_by session.weight
decreasing_by exact weight_handle_lt _h

/-- The events of a step. -/
def stepEvents (session : Session) : SessionStep → List Event
  | .edit source => [.edit source]
  | .shutdown => [.shutdown]
  | .sleep duration => session.dueEvents (session.now + duration)

/-- The events of some steps. -/
def eventsOf : Session → List SessionStep → List Event
  | _, [] => []
  | session, step :: rest => session.stepEvents step ++ (session.step step).eventsOf rest

theorem admits_due {session : Session} {limit : Nat} {due : Due}
    (h : session.due? limit = some due) : session.Admits (.due due) := by
  rcases due?_cases h with ⟨time, rfl, htimer⟩ | ⟨job, others, rfl, hjobs⟩
  · exact htimer
  · exact perm_firstJob? hjobs

theorem follow_dueEvents (session : Session) (limit : Nat) :
    session.follow (session.dueEvents limit) = session.advance limit := by
  fun_induction advance session limit with
  | case1 session h =>
      rw [dueEvents]
      split
      · rfl
      · simp_all
  | case2 session due h ih =>
      rw [dueEvents]
      split
      · simp_all
      · rename_i due' h'
        obtain rfl : due = due' := Option.some.inj (h.symm.trans h')
        exact ih

theorem possible_dueEvents (session : Session) (limit : Nat) :
    session.Possible (session.dueEvents limit) := by
  fun_induction dueEvents session limit with
  | case1 session h => exact ⟨trivial, trivial⟩
  | case2 session due h ih => exact ⟨admits_due h, ih⟩

theorem follow_stepEvents (session : Session) (step : SessionStep) :
    session.follow (session.stepEvents step) = session.step step := by
  cases step with
  | edit source => rfl
  | shutdown => rfl
  | sleep duration => exact follow_dueEvents session _

theorem possible_stepEvents (session : Session) (step : SessionStep) :
    session.Possible (session.stepEvents step) := by
  cases step with
  | edit source => exact ⟨trivial, trivial⟩
  | shutdown => exact ⟨trivial, trivial⟩
  | sleep duration => exact possible_dueEvents session _

/-- The events of some steps lead where the steps lead. -/
theorem follow_eventsOf (session : Session) (steps : List SessionStep) :
    session.follow (session.eventsOf steps) = steps.foldl step session := by
  induction steps generalizing session with
  | nil => rfl
  | cons step rest ih =>
      rw [eventsOf, follow_append, follow_stepEvents, ih]
      rfl

/-- The events of some steps are a course. -/
theorem possible_eventsOf (session : Session) (steps : List SessionStep) :
    session.Possible (session.eventsOf steps) := by
  induction steps generalizing session with
  | nil => trivial
  | cons step rest ih =>
      rw [eventsOf, possible_append, follow_stepEvents]
      exact ⟨possible_stepEvents session step, ih _⟩

/-! ## Soundness -/

/-- The history of the scheduler of a session. What it awaits are the attempts
under way; what has completed the session forgets. -/
def history (session : Session) (completed published : List Scheduler.Completion) :
    Scheduler.History where
  scheduler := session.scheduler
  awaited := session.jobs.map (·.ticket.generation)
  completed := completed
  published := published

/-- What every event keeps. -/
structure Sound (base : Style) (script : Nat → Attempt) (session : Session) : Prop where
  script_eq : session.script = script
  compiler_sound : session.compiler.Sound base
  current_eq : session.current = session.scheduler.view
  pending_eq : session.scheduler.pending = session.timer.isSome
  recorded : ∃ completed published, (session.history completed published).Recorded

variable {base : Style} {script : Nat → Attempt} {session : Session}

theorem sound_new (debounce : Nat) (base : Style) (script : Nat → Attempt) :
    Sound base script (new debounce base script) where
  script_eq := rfl
  compiler_sound := CachedCompiler.sound_new base
  current_eq := rfl
  pending_eq := rfl
  recorded := ⟨[], [], Scheduler.History.recorded_new⟩

theorem Sound.wait (h : Sound base script session) (time : Nat) :
    Sound base script { session with now := time } where
  script_eq := h.script_eq
  compiler_sound := h.compiler_sound
  current_eq := h.current_eq
  pending_eq := h.pending_eq
  recorded := h.recorded

theorem Sound.edit (h : Sound base script session) (source : Text) :
    Sound base script (session.edit source) where
  script_eq := h.script_eq
  compiler_sound := h.compiler_sound
  current_eq := h.current_eq.trans (Scheduler.view_change ..).symm
  pending_eq := rfl
  recorded := by
    obtain ⟨completed, published, hrecorded⟩ := h.recorded
    have hnext : ((session.history completed published).act (.change source)).Recorded :=
      hrecorded.act trivial
    exact ⟨completed, published, hnext⟩

theorem Sound.shutdown (h : Sound base script session) :
    Sound base script session.shutdown where
  script_eq := h.script_eq
  compiler_sound := h.compiler_sound
  current_eq := h.current_eq.trans (Scheduler.view_cancel _).symm
  pending_eq := by
    rw [Session.shutdown, Scheduler.cancel_eq]
    rfl
  recorded := by
    obtain ⟨completed, published, hrecorded⟩ := h.recorded
    have hnext : ((session.history completed published).act .cancel).Recorded :=
      hrecorded.act trivial
    exact ⟨completed, published, hnext⟩

/-- When the timer is set a change is pending, so the firing asks for something. -/
theorem Sound.pending_of_timer (h : Sound base script session) {time : Nat}
    (htimer : session.timer = some time) : session.scheduler.pending = true := by
  rw [h.pending_eq, htimer]
  rfl

theorem Sound.timer (h : Sound base script session) {time : Nat}
    (htimer : session.timer = some time) :
    Sound base script (session.handle (.timer time)) := by
  have hpending := h.pending_of_timer htimer
  obtain ⟨completed, published, hrecorded⟩ := h.recorded
  have hnext := hrecorded.fire
  cases hblank : session.scheduler.latestSource.isBlank with
  | true =>
      rw [Scheduler.History.act_fire_blank hpending hblank] at hnext
      rw [handle_timer_blank hpending hblank, Scheduler.fire_blank hpending hblank]
      exact
        { script_eq := h.script_eq
          compiler_sound := h.compiler_sound
          current_eq := rfl
          pending_eq := Scheduler.publish_pending ..
          recorded := ⟨_, _, hnext⟩ }
  | false =>
      rw [Scheduler.History.act_fire_compile hpending hblank] at hnext
      rw [handle_timer_compile hpending hblank, Scheduler.fire_compile hpending hblank]
      refine
        { script_eq := h.script_eq
          compiler_sound := h.compiler_sound
          current_eq := rfl
          pending_eq := rfl
          recorded := ⟨completed, published, ?_⟩ }
      -- The new attempt is the last one under way and the first one awaited.
      have hperm := (List.perm_append_singleton (session.scheduler.issued + 1)
        (session.jobs.map (·.ticket.generation))).symm
      rw [history, List.map_append]
      exact hnext.perm hperm

/-- The end of an attempt that is under way completes an awaited ticket. -/
theorem Sound.job (h : Sound base script session) {job : Job} {others : List Job}
    (hjobs : session.jobs.Perm (job :: others)) :
    Sound base script (session.handle (.job job others)) := by
  have hcompiler := (h.compiler_sound.attempt job.abort job.ticket.source).2
  obtain ⟨completed, published, hrecorded⟩ := h.recorded
  have hperm : (session.jobs.map (·.ticket.generation)).Perm
      ((job :: others).map (·.ticket.generation)) := hjobs.map _
  have hnext := (hrecorded.perm hperm).complete List.mem_cons_self
    (session.compiler.attempt job.abort job.ticket.source).1
  rcases Nat.lt_or_ge job.ticket.generation session.scheduler.lastPublished with
    hstale | hcurrent
  · rw [handle_job_stale hstale]
    rw [Scheduler.History.act_complete_stale hstale, List.map_cons, List.erase_cons_head]
      at hnext
    exact
      { script_eq := h.script_eq
        compiler_sound := hcompiler
        current_eq := h.current_eq
        pending_eq := h.pending_eq
        recorded := ⟨_, _, hnext⟩ }
  · rw [handle_job_current hcurrent]
    rw [Scheduler.History.act_complete_current hcurrent, List.map_cons, List.erase_cons_head]
      at hnext
    exact
      { script_eq := h.script_eq
        compiler_sound := hcompiler
        current_eq := rfl
        pending_eq := (Scheduler.publish_pending ..).trans h.pending_eq
        recorded := ⟨_, _, hnext⟩ }

theorem Sound.after (h : Sound base script session) {event : Event}
    (hadmits : session.Admits event) : Sound base script (session.after event) := by
  cases event with
  | edit source => exact h.edit source
  | shutdown => exact h.shutdown
  | wait time => exact h.wait time
  | due due =>
      cases due with
      | timer time => exact h.timer hadmits
      | job job others => exact h.job hadmits

theorem Sound.follow (h : Sound base script session) {events : List Event}
    (hpossible : session.Possible events) : Sound base script (session.follow events) := by
  induction events generalizing session with
  | nil => exact h
  | cons event rest ih => exact ih (h.after hpossible.1) hpossible.2

end Session

end MarkupPreview
