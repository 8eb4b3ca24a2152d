import MarkupPreview.Proofs.SessionCourse

/-!
# Exact debounce

What a session calls its compiler with, and when, is decided by its debounce timer
and the latest source alone. `Dial` is that part of a session. Attempts under way
do not touch it, so neither how long they take nor what they come to can add, drop
or move a call; and letting time pass is one step of the dial, whether or not
attempts end in the meantime.

`debounced` reads the calls off the steps of the user: each edit counts if the
sleeps that come before any other edit or shutdown last until its timer runs out,
and its source is not blank.

## Main results

* `dial_handle_job`, `Sound.dial_handle_timer` — what a thing that is due does to the
  dial.
* `Sound.dial_advance` — what the passing of time does to it.
* `calls_eq_debounced` — the calls of a session are those of its steps.
-/

namespace MarkupPreview.Session

/-! ## The calls that the steps ask for -/

/-- The call of a firing. A blank source is not compiled. -/
def callAt (time : Nat) (source : Text) : List Call :=
  if source.isBlank then [] else [⟨time, source⟩]

/-- Whether the sleeps at the front of some steps last until a deadline. -/
def sleepsTo (deadline : Nat) : Nat → List SessionStep → Bool
  | now, .sleep duration :: rest =>
      deadline ≤ now + duration || sleepsTo deadline (now + duration) rest
  | _, _ => false

/-- The call of a timer that is set for the deadline when the steps begin. -/
def callBy (deadline : Nat) (source : Text) (now : Nat) (steps : List SessionStep) :
    List Call :=
  if sleepsTo deadline now steps then callAt deadline source else []

/-- The calls that steps ask for which begin at the given time, with no timer set
before: each edit with a call of its own. -/
def debounced (debounce : Nat) : Nat → List SessionStep → List Call
  | _, [] => []
  | now, .edit source :: rest =>
      callBy (now + debounce) source now rest ++ debounced debounce now rest
  | now, .shutdown :: rest => debounced debounce now rest
  | now, .sleep duration :: rest => debounced debounce (now + duration) rest

/-! ## The part of a session that decides -/

/-- The debounce timer, the source it is set for, and the calls so far. -/
structure Dial where
  debounce : Nat
  timer : Option Nat
  source : Text
  calls : List Call
deriving DecidableEq, Repr

/-- The dial of a session. -/
def dial (session : Session) : Dial where
  debounce := session.debounce
  timer := session.timer
  source := session.scheduler.latestSource
  calls := session.calls

/-- The timer runs out at the given time. -/
def Dial.ring (dial : Dial) (time : Nat) : Dial :=
  { dial with timer := none, calls := dial.calls ++ callAt time dial.source }

/-- Time passes up to the given time. -/
def Dial.turn (dial : Dial) (limit : Nat) : Dial :=
  match dial.timer with
  | none => dial
  | some time => if time ≤ limit then dial.ring time else dial

theorem Dial.turn_of_none {dial : Dial} (h : dial.timer = none) (limit : Nat) :
    dial.turn limit = dial := by
  simp [turn, h]

theorem Dial.turn_of_due {dial : Dial} {time limit : Nat} (h : dial.timer = some time)
    (hle : time ≤ limit) : dial.turn limit = dial.ring time := by
  simp [turn, h, hle]

theorem Dial.turn_of_not_due {dial : Dial} {limit : Nat}
    (h : ∀ time, dial.timer = some time → limit < time) : dial.turn limit = dial := by
  unfold turn
  split
  · rfl
  · rename_i time htimer
    have hlt := h time htimer
    rw [if_neg (by omega)]

/-! ## What is due, and the dial -/

/-- The end of an attempt leaves the dial alone. -/
theorem dial_handle_job (session : Session) (job : Job) (others : List Job) :
    (session.handle (.job job others)).dial = session.dial := by
  by_cases hstale : job.ticket.generation < session.scheduler.lastPublished
  · rw [handle_job_stale hstale]
    rfl
  · have hcurrent : session.scheduler.lastPublished ≤ job.ticket.generation := by omega
    rw [handle_job_current hcurrent]
    simp [dial]

variable {base : Style} {script : Nat → Attempt} {session : Session}

/-- When the timer runs out the latest source is compiled, unless it is blank. -/
theorem Sound.dial_handle_timer (h : Sound base script session) {time : Nat}
    (htimer : session.timer = some time) :
    (session.handle (.timer time)).dial = session.dial.ring time := by
  have hpending := h.pending_of_timer htimer
  by_cases hblank : session.scheduler.latestSource.isBlank = true
  · rw [handle_timer_blank hpending hblank, Scheduler.fire_blank hpending hblank]
    simp [dial, Dial.ring, callAt, hblank]
  · rw [Bool.not_eq_true] at hblank
    rw [handle_timer_compile hpending hblank, Scheduler.fire_compile hpending hblank]
    simp [dial, Dial.ring, callAt, hblank]

/-- A timer that comes up next has run out by then. -/
theorem le_of_due?_timer {limit time : Nat} (h : session.due? limit = some (.timer time)) :
    time ≤ limit := by
  unfold due? at h
  grind

/-- If nothing is due, the timer has not run out. -/
theorem lt_of_due?_eq_none {limit : Nat} (h : session.due? limit = none) (time : Nat)
    (htimer : session.timer = some time) : limit < time := by
  unfold due? at h
  grind

/-- Letting time pass turns the dial, once: on the way the timer runs out at most
once, and attempts that end do not count. -/
theorem Sound.dial_advance (h : Sound base script session) (limit : Nat) :
    (session.advance limit).dial = session.dial.turn limit := by
  fun_induction advance session limit with
  | case1 session hnone => exact (Dial.turn_of_not_due (lt_of_due?_eq_none hnone)).symm
  | case2 session due hdue ih =>
      rw [ih (h.after (admits_due hdue))]
      rcases due?_cases hdue with ⟨time, rfl, htimer⟩ | ⟨job, others, rfl, -⟩
      · have hle := le_of_due?_timer hdue
        have hturned : session.dial.turn limit = session.dial.ring time :=
          Dial.turn_of_due htimer hle
        rw [h.dial_handle_timer htimer, hturned]
        exact Dial.turn_of_none rfl limit
      · rw [dial_handle_job]

theorem now_advance (session : Session) (limit : Nat) : (session.advance limit).now = limit := by
  fun_induction advance session limit with
  | case1 session hnone => rfl
  | case2 session due hdue ih => exact ih

/-! ## The law -/

/-- The call that the timer of a dial makes during some steps. -/
def Dial.outstanding (dial : Dial) (now : Nat) (steps : List SessionStep) : List Call :=
  match dial.timer with
  | none => []
  | some deadline => callBy deadline dial.source now steps

/-- A timer makes no call if an edit or a shutdown comes first, or nothing does. -/
theorem Dial.outstanding_eq_nil (dial : Dial) {now : Nat} {steps : List SessionStep}
    (h : ∀ deadline, sleepsTo deadline now steps = false) : dial.outstanding now steps = [] := by
  unfold outstanding
  split
  · rfl
  · rename_i deadline htimer
    simp [callBy, h deadline]

/-- Over a sleep the timer either makes its call or goes on waiting. -/
theorem Dial.turn_outstanding (dial : Dial) (now duration : Nat) (rest : List SessionStep) :
    (dial.turn (now + duration)).calls ++
        (dial.turn (now + duration)).outstanding (now + duration) rest =
      dial.calls ++ dial.outstanding now (.sleep duration :: rest) := by
  cases htimer : dial.timer with
  | none => simp [turn_of_none htimer, outstanding, htimer]
  | some deadline =>
      by_cases hdue : deadline ≤ now + duration
      · simp [turn_of_due htimer hdue, ring, outstanding, htimer, callBy, sleepsTo, hdue]
      · have hwaits : dial.turn (now + duration) = dial := by
          simp [turn, htimer, hdue]
        simp [hwaits, outstanding, htimer, callBy, sleepsTo, hdue]

theorem Dial.turn_debounce (dial : Dial) (limit : Nat) :
    (dial.turn limit).debounce = dial.debounce := by
  unfold turn ring
  split
  · rfl
  · split <;> rfl

/-- The calls of a session after some steps: those before, the one its timer still
owes, and those of the steps. -/
theorem Sound.calls_foldl_step (h : Sound base script session) (steps : List SessionStep) :
    (steps.foldl step session).calls =
      session.calls ++ session.dial.outstanding session.now steps ++
        debounced session.debounce session.now steps := by
  induction steps generalizing session with
  | nil =>
      rw [Dial.outstanding_eq_nil session.dial fun _ => rfl]
      simp [debounced]
  | cons step rest ih =>
      have hnext : Sound base script (session.step step) := by
        rw [← follow_stepEvents]
        exact h.follow (possible_stepEvents session step)
      rw [List.foldl_cons, ih hnext]
      cases step with
      | edit source =>
          -- A timer that was set before goes with the edit, and the new one is the edit's own.
          rw [Dial.outstanding_eq_nil session.dial fun _ => rfl, debounced, List.append_nil,
            ← List.append_assoc]
          rfl
      | shutdown =>
          rw [Dial.outstanding_eq_nil session.dial fun _ => rfl, debounced]
          rfl
      | sleep duration =>
          have hdial : (session.step (.sleep duration)).dial =
              session.dial.turn (session.now + duration) := h.dial_advance _
          have hnow : (session.step (.sleep duration)).now = session.now + duration :=
            now_advance session _
          have hcalls : (session.step (.sleep duration)).calls =
              (session.dial.turn (session.now + duration)).calls := congrArg Dial.calls hdial
          have hdebounce : (session.step (.sleep duration)).debounce = session.debounce :=
            (congrArg Dial.debounce hdial).trans (Dial.turn_debounce ..)
          rw [hcalls, hdebounce, hdial, hnow, Dial.turn_outstanding, debounced]
          rfl

/-- The calls of a session, in order and with their times, are those that the steps
of its user ask for: one for each edit whose source is not blank and which no other
edit and no shutdown follows before the sleep that reaches its deadline. What the
attempts do does not enter. -/
theorem calls_eq_debounced (debounce : Nat) (base : Style) (script : Nat → Attempt)
    (steps : List SessionStep) :
    (steps.foldl step (new debounce base script)).calls = debounced debounce 0 steps :=
  (sound_new debounce base script).calls_foldl_step steps

/-- Of two edits in a row the later is called, a blank one is not, and the last
timer is stopped. -/
example : debounced 5 0
    [.edit ['a'], .sleep 3, .edit ['b'], .sleep 5, .edit [' '], .sleep 9, .edit ['c'],
      .sleep 2, .sleep 4, .edit ['d'], .sleep 4, .shutdown, .sleep 9] =
    [⟨8, ['b']⟩, ⟨22, ['c']⟩] := by decide

end MarkupPreview.Session
