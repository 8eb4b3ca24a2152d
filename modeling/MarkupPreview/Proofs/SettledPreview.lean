import MarkupPreview.Proofs.SessionCourse

/-!
# The settled preview

Between two firings a session only waits for attempts that are under way. As long
as the attempt of the latest firing is one of them the session is compiling, so a
session that is not compiling has seen that attempt end, and no later event has
touched what was shown then: every other attempt still under way is older.

What the attempt came to depends on its source alone. The line cache that all
attempts share, and go through in whatever order they end, does not show.

## Main results

* `Sound.view_after_settled` — nothing but a firing unsettles a session.
* `Sound.exists_end_of_settled` — the attempt of the latest firing has ended.
* `shows_last_fired` — what a settled session shows.
-/

namespace MarkupPreview

/-- The view of an outcome with `previous` on show before: a success replaces the
tree, a failure puts its diagnostic beside it. -/
def View.Shows (view : View) (previous : Option DisplayTree) : CompileOutcome → Prop
  | .ok result => view.tree = some result.tree ∧ view.diagnostics = []
  | .error error => view.tree = previous ∧ view.diagnostics = [error.diagnostic]

theorem diagnostics_of_attemptOutcome {base : Style} {abort : Option Abort} {source : Text}
    {result : Compilation} (h : attemptOutcome base abort source = .ok result) :
    result.diagnostics = [] := by
  cases abort with
  | some abort => simp [attemptOutcome] at h
  | none => exact diagnostics_of_compileText h

theorem Scheduler.shows_publish (scheduler : Scheduler) (generation : Nat) (base : Style)
    (abort : Option Abort) (source : Text) :
    (scheduler.publish generation (attemptOutcome base abort source)).view.Shows
      scheduler.view.tree (attemptOutcome base abort source) := by
  cases houtcome : attemptOutcome base abort source with
  | ok result =>
      have hdiagnostics := diagnostics_of_attemptOutcome houtcome
      exact ⟨rfl, hdiagnostics⟩
  | error error => exact ⟨rfl, rfl⟩

namespace Session

variable {base : Style} {script : Nat → Attempt} {session : Session}

/-! ## Attempts under way -/

/-- An attempt under way has a stamp, and it is not the one on show. -/
theorem Sound.job_generation (h : Sound base script session) {job : Job}
    (hjob : job ∈ session.jobs) :
    job.ticket.generation ≤ session.scheduler.issued ∧
      job.ticket.generation ≠ session.scheduler.lastPublished := by
  obtain ⟨completed, published, hrecorded⟩ := h.recorded
  have hawaited : job.ticket.generation ∈ (session.history completed published).awaited :=
    List.mem_map_of_mem hjob
  exact ⟨(hrecorded.booked.awaited_le _ hawaited).2, hrecorded.ne_lastPublished hawaited⟩

theorem Sound.lastPublished_le (h : Sound base script session) :
    session.scheduler.lastPublished ≤ session.scheduler.issued := by
  obtain ⟨completed, published, hrecorded⟩ := h.recorded
  exact hrecorded.lastPublished_le

/-! ## Settled sessions -/

/-- Without a firing a settled session goes on showing what it shows: the attempts
still under way are all older. -/
theorem Sound.view_after_settled (h : Sound base script session)
    (hsettled : session.scheduler.isCompiling = false) {event : Event}
    (hadmits : session.Admits event) (hquiet : ∀ time, event ≠ .due (.timer time)) :
    (session.after event).scheduler.view = session.scheduler.view := by
  cases event with
  | edit source => exact Scheduler.view_change ..
  | shutdown => exact Scheduler.view_cancel _
  | wait time => rfl
  | due due =>
      cases due with
      | timer time => exact absurd rfl (hquiet time)
      | job job others =>
          have hjob : job ∈ session.jobs :=
            (show session.jobs.Perm (job :: others) from hadmits).mem_iff.mpr
              List.mem_cons_self
          have hgeneration := h.job_generation hjob
          have hstale : job.ticket.generation < session.scheduler.lastPublished := by
            simp only [Scheduler.isCompiling, decide_eq_false_iff_not] at hsettled
            omega
          rw [Session.after, handle_job_stale hstale]

theorem Sound.view_follow_settled (h : Sound base script session)
    (hsettled : session.scheduler.isCompiling = false) {events : List Event}
    (hpossible : session.Possible events) (hquiet : ∀ time, .due (.timer time) ∉ events) :
    (session.follow events).scheduler.view = session.scheduler.view := by
  induction events generalizing session with
  | nil => rfl
  | cons event rest ih =>
      have hview : (session.after event).scheduler.view = session.scheduler.view := by
        refine h.view_after_settled hsettled hpossible.1 ?_
        rintro time rfl
        exact hquiet time List.mem_cons_self
      have hsettled' : (session.after event).scheduler.isCompiling = false := by
        have hcompiling := congrArg View.isCompiling hview
        exact hcompiling.trans hsettled
      have hrest : ∀ time, .due (.timer time) ∉ rest := fun time hmem =>
        hquiet time (List.mem_cons_of_mem event hmem)
      exact (ih (h.after hpossible.1) hsettled' hpossible.2 hrest).trans hview

/-! ## The attempt of the latest firing -/

/-- While the attempt of the latest firing is under way the session compiles. -/
theorem Sound.isCompiling_of_job (h : Sound base script session) {job : Job}
    (hjob : job ∈ session.jobs)
    (hlatest : job.ticket.generation = session.scheduler.issued) :
    session.scheduler.isCompiling = true := by
  have hgeneration := (h.job_generation hjob).2
  have hle := h.lastPublished_le
  simp only [Scheduler.isCompiling, decide_eq_true_eq]
  omega

/-- The end of the attempt of the latest firing is always published, and it is the
outcome of that source alone. -/
theorem Sound.scheduler_after_job (h : Sound base script session) {job : Job}
    (hlatest : job.ticket.generation = session.scheduler.issued) (others : List Job) :
    (session.after (.due (.job job others))).scheduler =
      session.scheduler.publish session.scheduler.issued
        (attemptOutcome base job.abort job.ticket.source) := by
  have houtcome := (h.compiler_sound.attempt job.abort job.ticket.source).1
  have hcurrent : session.scheduler.lastPublished ≤ job.ticket.generation := by
    rw [hlatest]
    exact h.lastPublished_le
  rw [Session.after, handle_job_current hcurrent, houtcome, hlatest]

/-- Neither a quiet event nor the end of another attempt ends an attempt. -/
theorem after_keeps_job {job : Job} (hjob : job ∈ session.jobs) {event : Event}
    (hadmits : session.Admits event) (hquiet : ∀ time, event ≠ .due (.timer time))
    (hother : ∀ others, event ≠ .due (.job job others)) :
    job ∈ (session.after event).jobs ∧
      (session.after event).scheduler.issued = session.scheduler.issued := by
  cases event with
  | edit source => exact ⟨hjob, rfl⟩
  | shutdown =>
      refine ⟨hjob, ?_⟩
      rw [after, shutdown, Scheduler.cancel_eq]
  | wait time => exact ⟨hjob, rfl⟩
  | due due =>
      cases due with
      | timer time => exact absurd rfl (hquiet time)
      | job other others =>
          have hmem : job ∈ others := by
            have hperm : session.jobs.Perm (other :: others) := hadmits
            rcases List.mem_cons.mp (hperm.mem_iff.mp hjob) with rfl | hmem
            · exact absurd rfl (hother others)
            · exact hmem
          rcases Nat.lt_or_ge other.ticket.generation session.scheduler.lastPublished with
            hstale | hcurrent
          · rw [after, handle_job_stale hstale]
            exact ⟨hmem, rfl⟩
          · rw [after, handle_job_current hcurrent]
            exact ⟨hmem, by simp⟩

/-- If the attempt of the latest firing is under way, and some quiet events later
the session is settled, then the attempt has ended in between, and what is shown
at last was shown at its end. -/
theorem Sound.exists_end_of_settled (h : Sound base script session) {job : Job}
    (hjob : job ∈ session.jobs)
    (hlatest : job.ticket.generation = session.scheduler.issued) {events : List Event}
    (hpossible : session.Possible events) (hquiet : ∀ time, .due (.timer time) ∉ events)
    (hsettled : (session.follow events).scheduler.isCompiling = false) :
    ∃ middle others rest, events = middle ++ .due (.job job others) :: rest ∧
      (session.follow middle).scheduler.issued = session.scheduler.issued ∧
      (session.follow events).scheduler.view =
        ((session.follow middle).after (.due (.job job others))).scheduler.view := by
  induction events generalizing session with
  | nil =>
      have hcompiling := h.isCompiling_of_job hjob hlatest
      rw [Session.follow, List.foldl_nil, hcompiling] at hsettled
      cases hsettled
  | cons event rest ih =>
      have hrest : ∀ time, .due (.timer time) ∉ rest := fun time hmem =>
        hquiet time (List.mem_cons_of_mem event hmem)
      by_cases hends : ∃ others, event = .due (.job job others)
      · obtain ⟨others, rfl⟩ := hends
        have hscheduler := h.scheduler_after_job hlatest others
        have hended : (session.after (.due (.job job others))).scheduler.isCompiling = false := by
          rw [hscheduler]
          simp [Scheduler.isCompiling]
        have hview := (h.after hpossible.1).view_follow_settled hended hpossible.2 hrest
        exact ⟨[], others, rest, rfl, rfl, hview⟩
      · have hkeeps := after_keeps_job hjob hpossible.1
          (by rintro time rfl; exact hquiet time List.mem_cons_self)
          (fun others heq => hends ⟨others, heq⟩)
        obtain ⟨middle, others, rest', rfl, hissued, hview⟩ :=
          ih (h.after hpossible.1) hkeeps.1 (hlatest.trans hkeeps.2.symm) hpossible.2 hrest
            hsettled
        exact ⟨event :: middle, others, rest', rfl, hissued.trans hkeeps.2, hview⟩

/-! ## After a firing -/

/-- A blank source is settled from the start. -/
theorem Sound.current_of_blank (h : Sound base script session) {time : Nat}
    (htimer : session.timer = some time)
    (hblank : session.scheduler.latestSource.isBlank = true) {events : List Event}
    (hpossible : (session.after (.due (.timer time))).Possible events)
    (hquiet : ∀ other, .due (.timer other) ∉ events) :
    ((session.after (.due (.timer time))).follow events).current =
      ⟨some (.ofNodes [] .standard), [], false⟩ := by
  have hpending := h.pending_of_timer htimer
  have hfired : Sound base script (session.after (.due (.timer time))) := h.after htimer
  have hscheduler : (session.after (.due (.timer time))).scheduler =
      session.scheduler.fire.2 := by
    rw [Session.after, handle_timer_blank hpending hblank]
  have hview : (session.after (.due (.timer time))).scheduler.view =
      ⟨some (.ofNodes [] .standard), [], false⟩ := by
    rw [hscheduler, Scheduler.fire_blank hpending hblank]
    simp [Scheduler.view, Scheduler.isCompiling, Scheduler.diagnostic?, Except.toOption,
      Compilation.empty, Compilation.ofTree]
  have hsettled := congrArg View.isCompiling hview
  rw [(hfired.follow hpossible).current_eq,
    hfired.view_follow_settled hsettled hpossible hquiet, hview]

/-- The firing of any other source puts an attempt under way. -/
theorem Sound.exists_job_of_not_blank (h : Sound base script session) {time : Nat}
    (htimer : session.timer = some time)
    (hblank : session.scheduler.latestSource.isBlank = false) :
    (session.after (.due (.timer time))).scheduler.issued = session.scheduler.issued + 1 ∧
      ∃ job ∈ (session.after (.due (.timer time))).jobs,
        job.ticket = ⟨session.scheduler.issued + 1, session.scheduler.latestSource⟩ ∧
        job.abort = (script session.calls.length).abort := by
  have hpending := h.pending_of_timer htimer
  rw [Session.after, handle_timer_compile hpending hblank,
    Scheduler.fire_compile hpending hblank]
  refine ⟨rfl, _, List.mem_append_right _ List.mem_cons_self, rfl, ?_⟩
  rw [h.script_eq]

/-- Once the session is settled it shows what the attempt has come to. -/
theorem Sound.shows_attempt (h : Sound base script session) {time : Nat}
    (htimer : session.timer = some time)
    (hblank : session.scheduler.latestSource.isBlank = false) {events : List Event}
    (hpossible : (session.after (.due (.timer time))).Possible events)
    (hquiet : ∀ other, .due (.timer other) ∉ events)
    (hsettled : ((session.after (.due (.timer time))).follow events).current.isCompiling =
      false) :
    let source := session.scheduler.latestSource
    let outcome := attemptOutcome base (script session.calls.length).abort source
    ∃ middle job others rest, events = middle ++ .due (.job job others) :: rest ∧
      job.ticket = ⟨session.scheduler.issued + 1, source⟩ ∧
      let ending := (session.after (.due (.timer time))).follow middle
      (ending.compiler.attempt job.abort source).1 = outcome ∧
        ((session.after (.due (.timer time))).follow events).current.Shows
          ending.current.tree outcome := by
  intro source outcome
  have hfired : Sound base script (session.after (.due (.timer time))) := h.after htimer
  obtain ⟨hstamped, job, hjob, hticket, habort⟩ := h.exists_job_of_not_blank htimer hblank
  have hlatest : job.ticket.generation =
      (session.after (.due (.timer time))).scheduler.issued := by
    rw [hstamped, hticket]
  have hcurrent := (hfired.follow hpossible).current_eq
  rw [hcurrent] at hsettled
  obtain ⟨middle, others, rest, rfl, hissued, hview⟩ :=
    hfired.exists_end_of_settled hjob hlatest hpossible hquiet hsettled
  have hending := hfired.follow (possible_split hpossible).1
  refine ⟨middle, job, others, rest, rfl, hticket, ?_, ?_⟩
  · rw [(hending.compiler_sound.attempt job.abort source).1, habort]
  · rw [hending.current_eq, hcurrent, hview,
      hending.scheduler_after_job (hlatest.trans hissued.symm), hticket, habort]
    exact Scheduler.shows_publish ..

/-! ## The law -/

/-- The steps of a user are a course. Take any course up to a moment when nothing
is being compiled, and in it the last time the timer ran out. If the source that
was fired then was blank, the empty tree is shown and no diagnostic. Otherwise its
attempt has ended since, and what is shown is what it came to: the tree of the
source compiled on its own, or the one diagnostic of its failure beside the tree
that was shown just before. -/
theorem shows_last_fired (debounce : Nat) (base : Style) (script : Nat → Attempt) :
    let start := new debounce base script
    (∀ steps, start.Possible (start.eventsOf steps) ∧
      start.follow (start.eventsOf steps) = steps.foldl step start) ∧
    ∀ earlier time later, start.Possible (earlier ++ .due (.timer time) :: later) →
      (∀ other, .due (.timer other) ∉ later) →
      let before := start.follow earlier
      let source := before.scheduler.latestSource
      let outcome := attemptOutcome base (script before.calls.length).abort source
      let shown := (start.follow (earlier ++ .due (.timer time) :: later)).current
      shown.isCompiling = false →
        (source.isBlank = true →
          shown.tree = some (.ofNodes [] .standard) ∧ shown.diagnostics = []) ∧
        (source.isBlank = false →
          ∃ middle job others rest, later = middle ++ .due (.job job others) :: rest ∧
            job.ticket = ⟨before.scheduler.issued + 1, source⟩ ∧
            let ending := start.follow (earlier ++ .due (.timer time) :: middle)
            (ending.compiler.attempt job.abort source).1 = outcome ∧
              shown.Shows ending.current.tree outcome) := by
  intro start
  refine ⟨fun steps => ⟨possible_eventsOf start steps, follow_eventsOf start steps⟩, ?_⟩
  intro earlier time later hpossible hlast before source outcome shown hsettled
  obtain ⟨hearlier, htimer, hlater⟩ := possible_split hpossible
  have hbefore : Sound base script before := (sound_new debounce base script).follow hearlier
  have hfollow : ∀ events, start.follow (earlier ++ .due (.timer time) :: events) =
      (before.after (.due (.timer time))).follow events := by
    intro events
    rw [follow_append]
    rfl
  simp only [shown, hfollow] at hsettled ⊢
  refine ⟨fun hblank => ?_, fun hblank => ?_⟩
  · rw [hbefore.current_of_blank htimer hblank hlater hlast]
    exact ⟨rfl, rfl⟩
  · exact hbefore.shows_attempt htimer hblank hlater hlast hsettled

/-- A blank source is shown, an attempt at a second source is slow, and one at a
third fails before it has ended: the failure is shown beside the empty tree. -/
theorem shows_last_fired_failed :
    let script : Nat → Attempt
      | 0 => ⟨100, none⟩
      | _ => ⟨7, some (.message ['!'])⟩
    let start := new 5 .standard script
    let slow : Job := ⟨110, ⟨2, ['a']⟩, none⟩
    let failing : Job := ⟨22, ⟨3, ['b']⟩, some (.message ['!'])⟩
    let earlier : List Event :=
      [.edit [' '], .due (.timer 5), .edit ['a'], .due (.timer 10), .edit ['b']]
    let later : List Event := [.due (.job failing [slow]), .due (.job slow [])]
    let shown := (start.follow (earlier ++ .due (.timer 15) :: later)).current
    start.Possible (earlier ++ .due (.timer 15) :: later) ∧
      (∀ other, .due (.timer other) ∉ later) ∧ shown.isCompiling = false ∧
      ∃ middle job others rest, later = middle ++ .due (.job job others) :: rest ∧
        job.ticket = ⟨3, ['b']⟩ ∧
        shown.Shows (start.follow (earlier ++ .due (.timer 15) :: middle)).current.tree
          (.error (.aborted ['!'])) := by
  intro script start slow failing earlier later shown
  have hpossible : start.Possible (earlier ++ .due (.timer 15) :: later) := by
    refine ⟨trivial, rfl, trivial, rfl, trivial, rfl, ?_, ?_, trivial⟩
    · exact List.Perm.swap failing slow []
    · exact List.Perm.refl [slow]
  have hlast : ∀ other, .due (.timer other) ∉ later := by
    intro other
    simp [later]
  have hsettled : shown.isCompiling = false := rfl
  obtain ⟨middle, job, others, rest, hsplit, hticket, -, hshows⟩ :=
    ((shows_last_fired 5 .standard script).2 earlier 15 later hpossible hlast hsettled).2 rfl
  exact ⟨hpossible, hlast, hsettled, middle, job, others, rest, hsplit, hticket, hshows⟩

end Session

end MarkupPreview
