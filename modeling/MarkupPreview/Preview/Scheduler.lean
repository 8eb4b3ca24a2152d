import MarkupPreview.Compile

/-!
# The scheduler of the live preview

The scheduler decides when a source is compiled and which outcome is shown. It
knows no clock: whoever runs it keeps the timer that fires it.

Every firing stamps its attempt with the next *generation*. Attempts may
complete in any order, and an outcome is published unless one of a later
generation has been published before. A failure is shown as a diagnostic, and
the last successful result stays on show behind it.

Generations are natural numbers. A counter of 64 bits counts alike up to the
`2 ^ 64`th firing; what becomes of it there is left out.

## Main results

* `publish_lastResult`, `publish_lastError` — what is on show after an outcome.
* `complete_stale`, `complete_current` — an outcome that comes too late changes
  nothing, any other is published.
* `fire_idle`, `fire_blank`, `fire_compile` — the three answers of a firing.
-/

namespace MarkupPreview

/-- What the scheduler is waiting for. -/
inductive Phase where
  | idle
  | scheduled
  | compiling
  | published
deriving DecidableEq, Repr

/-- The name of a phase. -/
def Phase.name : Phase → String
  | idle => "Idle"
  | scheduled => "Scheduled"
  | compiling => "Compiling"
  | published => "Published"

/-- An attempt to make: its generation and its source. -/
structure Ticket where
  generation : Nat
  source : Text
deriving DecidableEq, Repr

/-- What a firing asks for. -/
inductive Firing where
  /-- Compile, and report back. -/
  | compile (ticket : Ticket)
  /-- Nothing: the source was blank and the empty result is published. -/
  | publishedEmpty
  /-- Nothing: no change was pending. -/
  | idle
deriving DecidableEq, Repr

/-- What becomes of an outcome. -/
inductive Publication where
  | published
  | discarded
deriving DecidableEq, Repr

/-- What the preview shows. -/
structure View where
  tree : Option DisplayTree
  diagnostics : List Diagnostic
  isCompiling : Bool
deriving DecidableEq, Repr

/-- The preview before anything is published. -/
def View.initial : View := ⟨none, [], false⟩

/-- The state of the scheduler. -/
structure Scheduler where
  latestSource : Text
  /-- A change has not been fired yet. -/
  pending : Bool
  phase : Phase
  /-- The latest generation that was stamped, zero before the first. -/
  issued : Nat
  /-- The latest generation that was published, zero before the first. -/
  lastPublished : Nat
  lastResult : Option Compilation
  lastError : Option Diagnostic
deriving DecidableEq, Repr

namespace Scheduler

/-- Before any change. -/
def new : Scheduler := ⟨[], false, .idle, 0, 0, none, none⟩

/-- The attempt of the latest generation has not completed. -/
def isCompiling (scheduler : Scheduler) : Bool := scheduler.lastPublished < scheduler.issued

/-- Takes note of a new source. -/
def change (scheduler : Scheduler) (source : Text) : Scheduler :=
  { scheduler with latestSource := source, pending := true, phase := .scheduled }

/-- The phase when nothing is pending. -/
def settledPhase (scheduler : Scheduler) : Phase :=
  if scheduler.isCompiling then .compiling
  else if 0 < scheduler.lastPublished then .published
  else .idle

/-- The diagnostic of a failure. -/
def diagnostic? : CompileOutcome → Option Diagnostic
  | .ok _ => none
  | .error error => some error.diagnostic

/-- Puts an outcome on show, whatever was shown before. -/
def publish (scheduler : Scheduler) (generation : Nat) (outcome : CompileOutcome) : Scheduler :=
  let shown : Scheduler :=
    match outcome with
    | .ok result => { scheduler with lastResult := some result, lastError := none }
    | .error error => { scheduler with lastError := some error.diagnostic }
  let stamped := { shown with lastPublished := generation }
  { stamped with
    phase :=
      if stamped.pending then .scheduled
      else if stamped.isCompiling then .compiling
      else .published }

/-- Starts an attempt at the latest source, if a change is pending. -/
def fire (scheduler : Scheduler) : Firing × Scheduler :=
  if !scheduler.pending then (.idle, scheduler)
  else
    let generation := scheduler.issued + 1
    let fired := { scheduler with pending := false, issued := generation }
    if scheduler.latestSource.isBlank then
      (.publishedEmpty, fired.publish generation (.ok .empty))
    else
      (.compile ⟨generation, scheduler.latestSource⟩, { fired with phase := .compiling })

/-- Takes the outcome of an attempt. One that is older than what is on show is
dropped. -/
def complete (scheduler : Scheduler) (generation : Nat) (outcome : CompileOutcome) :
    Publication × Scheduler :=
  if generation < scheduler.lastPublished then (.discarded, scheduler)
  else (.published, scheduler.publish generation outcome)

/-- Forgets a change that has not been fired. -/
def cancel (scheduler : Scheduler) : Scheduler :=
  if !scheduler.pending then scheduler
  else { scheduler with pending := false, phase := scheduler.settledPhase }

/-- What the preview should show: the last result, and the last error or else
the diagnostics of that result. -/
def view (scheduler : Scheduler) : View where
  tree := scheduler.lastResult.map (·.tree)
  diagnostics :=
    match scheduler.lastError, scheduler.lastResult with
    | some error, _ => [error]
    | none, some result => result.diagnostics
    | none, none => []
  isCompiling := scheduler.isCompiling

/-! ## Publishing -/

@[simp] theorem publish_latestSource (scheduler : Scheduler) (generation : Nat)
    (outcome : CompileOutcome) :
    (scheduler.publish generation outcome).latestSource = scheduler.latestSource := by
  cases outcome <;> rfl

@[simp] theorem publish_pending (scheduler : Scheduler) (generation : Nat)
    (outcome : CompileOutcome) :
    (scheduler.publish generation outcome).pending = scheduler.pending := by
  cases outcome <;> rfl

@[simp] theorem publish_issued (scheduler : Scheduler) (generation : Nat)
    (outcome : CompileOutcome) :
    (scheduler.publish generation outcome).issued = scheduler.issued := by
  cases outcome <;> rfl

@[simp] theorem publish_lastPublished (scheduler : Scheduler) (generation : Nat)
    (outcome : CompileOutcome) :
    (scheduler.publish generation outcome).lastPublished = generation := rfl

/-- A success is shown from now on, a failure leaves the last success. -/
@[simp] theorem publish_lastResult (scheduler : Scheduler) (generation : Nat)
    (outcome : CompileOutcome) :
    (scheduler.publish generation outcome).lastResult =
      outcome.toOption.or scheduler.lastResult := by
  cases outcome <;> rfl

/-- A success takes the last error off. -/
@[simp] theorem publish_lastError (scheduler : Scheduler) (generation : Nat)
    (outcome : CompileOutcome) :
    (scheduler.publish generation outcome).lastError = diagnostic? outcome := by
  cases outcome <;> rfl

theorem publish_phase (scheduler : Scheduler) (generation : Nat) (outcome : CompileOutcome) :
    (scheduler.publish generation outcome).phase =
      if scheduler.pending then .scheduled
      else if generation < scheduler.issued then .compiling
      else .published := by
  cases outcome <;> simp [publish, isCompiling]

/-! ## What is asked of a scheduler, case by case -/

theorem cancel_eq (scheduler : Scheduler) :
    scheduler.cancel =
      { scheduler with
        pending := false
        phase := if scheduler.pending then scheduler.settledPhase else scheduler.phase } := by
  cases h : scheduler.pending with
  | false =>
      cases scheduler
      simp_all [cancel]
  | true => simp [cancel, h]

/-- What is on show does not depend on what is pending. -/
@[simp] theorem view_change (scheduler : Scheduler) (source : Text) :
    (scheduler.change source).view = scheduler.view := rfl

@[simp] theorem view_cancel (scheduler : Scheduler) : scheduler.cancel.view = scheduler.view := by
  rw [cancel_eq]
  rfl

theorem complete_stale {scheduler : Scheduler} {generation : Nat} {outcome : CompileOutcome}
    (h : generation < scheduler.lastPublished) :
    scheduler.complete generation outcome = (.discarded, scheduler) := by
  simp [complete, h]

theorem complete_current {scheduler : Scheduler} {generation : Nat} {outcome : CompileOutcome}
    (h : scheduler.lastPublished ≤ generation) :
    scheduler.complete generation outcome =
      (.published, scheduler.publish generation outcome) := by
  simp [complete, Nat.not_lt.mpr h]

theorem fire_idle {scheduler : Scheduler} (h : scheduler.pending = false) :
    scheduler.fire = (.idle, scheduler) := by
  simp [fire, h]

theorem fire_blank {scheduler : Scheduler} (h : scheduler.pending = true)
    (hblank : scheduler.latestSource.isBlank = true) :
    scheduler.fire =
      (.publishedEmpty,
        { scheduler with pending := false, issued := scheduler.issued + 1 }.publish
          (scheduler.issued + 1) (.ok .empty)) := by
  simp [fire, h, hblank]

theorem fire_compile {scheduler : Scheduler} (h : scheduler.pending = true)
    (hblank : scheduler.latestSource.isBlank = false) :
    scheduler.fire =
      (.compile ⟨scheduler.issued + 1, scheduler.latestSource⟩,
        { scheduler with
          pending := false, issued := scheduler.issued + 1, phase := .compiling }) := by
  simp [fire, h, hblank]

end Scheduler

end MarkupPreview
