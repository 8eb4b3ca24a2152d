import MarkupPreview.Preview.Scheduler

/-!
# Preview sessions

A session runs a scheduler against a clock. Every new source sets the debounce
timer anew; when the timer runs out the scheduler fires, and the attempt it asks
for is made by a compiler that may take its time. Attempts under way are never
called back: one that is overtaken is simply not published.

What is on show goes out by *broadcast*, after each firing that changes the
view and after each publication.

The clock is a number that only `sleep` moves. What the compiler does besides
compiling, how long it takes and whether it breaks off, is the *script* of the
session, an `Attempt` for each call by its number.

Timers and attempts that are due are handled in the order of their times; at one
instant attempts come before the timer, earlier calls first.

## Main results

* `handle_timer_blank`, `handle_timer_compile` — what the timer sets off.
* `handle_job_stale`, `handle_job_current` — what the end of an attempt sets off.
* `weight_handle_lt` — handling what is due uses it up, so a sleep ends.
-/

namespace MarkupPreview

/-- How the compiler breaks off: with a message, or with none that can be
shown. -/
inductive Abort where
  | message (text : Text)
  | unnamed
deriving DecidableEq, Repr

/-- The message that stands for an abort. -/
def Abort.text : Abort → Text
  | message text => text
  | unnamed => "Compilation failed".toList

/-- What a call of the compiler does besides compiling: it takes some
milliseconds first, and then it may break off. -/
structure Attempt where
  delay : Nat
  abort : Option Abort
deriving DecidableEq, Repr

/-- The outcome of an attempt that breaks off or else compiles, and the compiler
after it. -/
def CachedCompiler.attempt (compiler : CachedCompiler) (abort : Option Abort) (source : Text) :
    CompileOutcome × CachedCompiler :=
  match abort with
  | some abort => (.error (.aborted abort.text), compiler)
  | none => compiler.compile source

/-- An attempt under way, and when it ends. -/
structure Job where
  due : Nat
  ticket : Ticket
  abort : Option Abort
deriving DecidableEq, Repr

/-- A call of the compiler: when it was made and with which source. -/
structure Call where
  time : Nat
  source : Text
deriving DecidableEq, Repr

/-- The state of a session. Times are in milliseconds. -/
structure Session where
  debounce : Nat
  script : Nat → Attempt
  now : Nat
  /-- When the debounce timer runs out, if it is set. -/
  timer : Option Nat
  jobs : List Job
  scheduler : Scheduler
  compiler : CachedCompiler
  calls : List Call
  /-- The view that was broadcast last. -/
  current : View
  broadcasts : Nat

/-- What a user of a session does. -/
inductive SessionStep where
  | edit (source : Text)
  | shutdown
  | sleep (duration : Nat)
deriving DecidableEq, Repr

namespace Session

/-- A session before its first source. -/
def new (debounce : Nat) (base : Style) (script : Nat → Attempt) : Session where
  debounce := debounce
  script := script
  now := 0
  timer := none
  jobs := []
  scheduler := .new
  compiler := .new base
  calls := []
  current := .initial
  broadcasts := 0

/-! ## What a session does -/

/-- Sends out the view of the scheduler. -/
def broadcast (session : Session) : Session :=
  { session with current := session.scheduler.view, broadcasts := session.broadcasts + 1 }

/-- Calls the compiler on a ticket. -/
def startJob (session : Session) (ticket : Ticket) : Session :=
  let attempt := session.script session.calls.length
  { session with
    calls := session.calls ++ [⟨session.now, ticket.source⟩]
    jobs := session.jobs ++ [⟨session.now + attempt.delay, ticket, attempt.abort⟩] }

/-- The debounce timer has run out. -/
def fire (session : Session) : Session :=
  let (outcome, scheduler) := session.scheduler.fire
  let fired := { session with scheduler, timer := none }
  match outcome with
  | .compile ticket => fired.broadcast.startJob ticket
  | .publishedEmpty => fired.broadcast
  | .idle => fired

/-- An attempt has ended. -/
def finish (session : Session) (job : Job) : Session :=
  let (outcome, compiler) := session.compiler.attempt job.abort job.ticket.source
  let (publication, scheduler) := session.scheduler.complete job.ticket.generation outcome
  let finished := { session with scheduler, compiler }
  match publication with
  | .published => finished.broadcast
  | .discarded => finished

/-! ## What is due -/

/-- The job that ends first, of several the earliest in the list, and the
others. -/
def firstJob? : List Job → Option (Job × List Job)
  | [] => none
  | job :: rest =>
      match firstJob? rest with
      | none => some (job, [])
      | some (first, others) =>
          if first.due < job.due then some (first, job :: others) else some (job, rest)

theorem perm_firstJob? {jobs others : List Job} {job : Job}
    (h : firstJob? jobs = some (job, others)) : jobs.Perm (job :: others) := by
  induction jobs generalizing job others with
  | nil => simp [firstJob?] at h
  | cons head rest ih =>
      simp only [firstJob?] at h
      split at h
      · rename_i hrest
        simp only [Option.some.injEq, Prod.mk.injEq] at h
        obtain ⟨rfl, rfl⟩ := h
        cases rest with
        | nil => exact .refl _
        | cons next more =>
            simp only [firstJob?] at hrest
            split at hrest
            · simp at hrest
            · split at hrest <;> simp at hrest
      · rename_i first remaining hrest
        split at h
        · simp only [Option.some.injEq, Prod.mk.injEq] at h
          obtain ⟨rfl, rfl⟩ := h
          exact ((ih hrest).cons head).trans (.swap ..)
        · simp only [Option.some.injEq, Prod.mk.injEq] at h
          obtain ⟨rfl, rfl⟩ := h
          exact .refl _

/-- What happens next. -/
inductive Due where
  | timer (time : Nat)
  | job (job : Job) (others : List Job)
deriving DecidableEq, Repr

/-- What is due first, if anything is up to the given time. -/
def due? (session : Session) (limit : Nat) : Option Due :=
  match session.timer, firstJob? session.jobs with
  | none, none => none
  | some time, none => if time ≤ limit then some (.timer time) else none
  | none, some (job, others) => if job.due ≤ limit then some (.job job others) else none
  | some time, some (job, others) =>
      if time < job.due then if time ≤ limit then some (.timer time) else none
      else if job.due ≤ limit then some (.job job others) else none

/-- Handles what is due, at its time. -/
def handle (session : Session) : Due → Session
  | .timer time => { session with now := time }.fire
  | .job job others => { session with now := job.due, jobs := others }.finish job

theorem handle_timer_blank {session : Session} (h : session.scheduler.pending = true)
    (hblank : session.scheduler.latestSource.isBlank = true) (time : Nat) :
    session.handle (.timer time) =
      { session with
        now := time
        timer := none
        scheduler := session.scheduler.fire.2
        current := session.scheduler.fire.2.view
        broadcasts := session.broadcasts + 1 } := by
  simp [handle, fire, Scheduler.fire_blank h hblank, broadcast]

theorem handle_timer_compile {session : Session} (h : session.scheduler.pending = true)
    (hblank : session.scheduler.latestSource.isBlank = false) (time : Nat) :
    session.handle (.timer time) =
      { session with
        now := time
        timer := none
        scheduler := session.scheduler.fire.2
        current := session.scheduler.fire.2.view
        broadcasts := session.broadcasts + 1
        calls := session.calls ++ [⟨time, session.scheduler.latestSource⟩]
        jobs := session.jobs ++
          [{ due := time + (session.script session.calls.length).delay
             ticket := ⟨session.scheduler.issued + 1, session.scheduler.latestSource⟩
             abort := (session.script session.calls.length).abort }] } := by
  simp [handle, fire, Scheduler.fire_compile h hblank, broadcast, startJob]

theorem handle_job_stale {session : Session} {job : Job}
    (h : job.ticket.generation < session.scheduler.lastPublished) (others : List Job) :
    session.handle (.job job others) =
      { session with
        now := job.due
        jobs := others
        compiler := (session.compiler.attempt job.abort job.ticket.source).2 } := by
  simp [handle, finish, Scheduler.complete_stale h]

theorem handle_job_current {session : Session} {job : Job}
    (h : session.scheduler.lastPublished ≤ job.ticket.generation) (others : List Job) :
    let attempted := session.compiler.attempt job.abort job.ticket.source
    let scheduler := session.scheduler.publish job.ticket.generation attempted.1
    session.handle (.job job others) =
      { session with
        now := job.due
        jobs := others
        compiler := attempted.2
        scheduler
        current := scheduler.view
        broadcasts := session.broadcasts + 1 } := by
  simp [handle, finish, Scheduler.complete_current h, broadcast]

/-- What is left to handle. A timer counts twice, since it may start a job. -/
def weight (session : Session) : Nat :=
  (if session.timer.isSome then 2 else 0) + session.jobs.length

theorem due?_cases {session : Session} {limit : Nat} {due : Due}
    (h : session.due? limit = some due) :
    (∃ time, due = .timer time ∧ session.timer = some time) ∨
      ∃ job others, due = .job job others ∧ firstJob? session.jobs = some (job, others) := by
  unfold due? at h
  split at h
  · simp at h
  · rename_i time htimer hjobs
    split at h
    · simp only [Option.some.injEq] at h
      exact .inl ⟨time, h.symm, htimer⟩
    · simp at h
  · rename_i job others htimer hjobs
    split at h
    · simp only [Option.some.injEq] at h
      exact .inr ⟨job, others, h.symm, hjobs⟩
    · simp at h
  · rename_i time job others htimer hjobs
    split at h
    · split at h
      · simp only [Option.some.injEq] at h
        exact .inl ⟨time, h.symm, htimer⟩
      · simp at h
    · split at h
      · simp only [Option.some.injEq] at h
        exact .inr ⟨job, others, h.symm, hjobs⟩
      · simp at h

theorem weight_handle_lt {session : Session} {limit : Nat} {due : Due}
    (h : session.due? limit = some due) : (session.handle due).weight < session.weight := by
  rcases due?_cases h with ⟨time, rfl, htimer⟩ | ⟨job, others, rfl, hjobs⟩
  · simp only [handle, fire]
    split
    · -- The timer weighs more than the attempt that takes its place.
      simp only [weight, broadcast, startJob, htimer, Option.isSome_some, Option.isSome_none,
        Bool.false_eq_true, if_true, if_false, List.length_append, List.length_singleton]
      omega
    · simp [weight, broadcast, htimer]
    · simp [weight, htimer]
  · have hlength := (perm_firstJob? hjobs).length_eq
    simp only [List.length_cons] at hlength
    simp only [handle, finish]
    split
    all_goals
      simp only [weight, broadcast, hlength]
      exact Nat.lt_succ_self _

/-- Lets time pass up to the given time, and handles all that falls due on the
way. -/
def advance (session : Session) (limit : Nat) : Session :=
  match _h : session.due? limit with
  | none => { session with now := limit }
  | some due => advance (session.handle due) limit
termination_by session.weight
decreasing_by exact weight_handle_lt _h

/-! ## What a user does -/

/-- Replaces the source and sets the debounce timer anew. -/
def edit (session : Session) (source : Text) : Session :=
  { session with
    scheduler := session.scheduler.change source
    timer := some (session.now + session.debounce) }

/-- Stops the debounce timer. Attempts under way still end. -/
def shutdown (session : Session) : Session :=
  { session with scheduler := session.scheduler.cancel, timer := none }

/-- Lets the given time pass. -/
def sleep (session : Session) (duration : Nat) : Session :=
  session.advance (session.now + duration)

/-- One step of a user. -/
def step (session : Session) : SessionStep → Session
  | .edit source => session.edit source
  | .shutdown => session.shutdown
  | .sleep duration => session.sleep duration

end Session

end MarkupPreview
