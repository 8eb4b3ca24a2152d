import MarkupPreview.Proofs.LatestWins

/-!
# The phase and the counters

The phase of a scheduler is stored. It is written by changes, firings, cancellations
and publications, each in its own way, while the facts it sums up, the pending flag and
two counters, change on their own. It never drifts from them, and the counters say
what they are meant to say: the one counts the stamps, which leave no gap, and it is
ahead of the other exactly while the latest stamp awaits its outcome.

## Main results

* `stamped?_cases` — an action stamps the next generation or leaves the counter alone.
* `Recorded.isCompiling_iff` — the compiling flag is about the latest generation alone.
* `phaseFollows_run` — phase, flag and stamps after any run.
-/

namespace MarkupPreview

namespace Scheduler

namespace History

/-! ## Stamps -/

/-- The generation that an action stamps, if it does: the ticket of a firing bears it,
and for a blank source the empty result is published under it. -/
def stamped? (history : History) : Action → Option Nat
  | .fire =>
      match history.scheduler.fire with
      | (.compile ticket, _) => some ticket.generation
      | (.publishedEmpty, next) => some next.lastPublished
      | (.idle, _) => none
  | .change _ => none
  | .cancel => none
  | .complete _ _ => none

/-- The generations that are stamped along some actions, in their order. -/
def stamps : History → List Action → List Nat
  | _, [] => []
  | history, action :: rest =>
      (history.stamped? action).toList ++ (history.act action).stamps rest

/-- An action leaves the counter of stamps alone, or it stamps the next generation. -/
theorem stamped?_cases (history : History) (action : Action) :
    (history.stamped? action = none ∧
      (history.act action).scheduler.issued = history.scheduler.issued) ∨
    (history.stamped? action = some (history.scheduler.issued + 1) ∧
      (history.act action).scheduler.issued = history.scheduler.issued + 1) := by
  cases action with
  | change source => exact .inl ⟨rfl, rfl⟩
  | cancel =>
      refine .inl ⟨rfl, ?_⟩
      rw [act, cancel_eq]
  | complete generation outcome =>
      refine .inl ⟨rfl, ?_⟩
      rcases Nat.lt_or_ge generation history.scheduler.lastPublished with hstale | hcurrent
      · rw [act_complete_stale hstale]
      · rw [act_complete_current hcurrent, publish_issued]
  | fire =>
      cases hpending : history.scheduler.pending with
      | false =>
          refine .inl ⟨?_, ?_⟩
          · simp [stamped?, fire_idle hpending]
          · rw [act_fire_idle hpending]
      | true =>
          cases hblank : history.scheduler.latestSource.isBlank with
          | true =>
              refine .inr ⟨?_, ?_⟩
              · simp [stamped?, fire_blank hpending hblank]
              · rw [act_fire_blank hpending hblank, publish_issued]
          | false =>
              refine .inr ⟨?_, ?_⟩
              · simp [stamped?, fire_compile hpending hblank]
              · rw [act_fire_compile hpending hblank]

/-- Along a run the stamps count on from the counter, and the counter goes with
them. -/
theorem exists_stamps_eq (history : History) (actions : List Action) :
    ∃ count, history.stamps actions = List.range' (history.scheduler.issued + 1) count ∧
      (history.run actions).scheduler.issued = history.scheduler.issued + count := by
  induction actions generalizing history with
  | nil => exact ⟨0, rfl, rfl⟩
  | cons action rest ih =>
      obtain ⟨count, hstamps, hissued⟩ := ih (history.act action)
      rcases history.stamped?_cases action with ⟨hstamp, hnext⟩ | ⟨hstamp, hnext⟩
      · refine ⟨count, ?_, ?_⟩
        · rw [stamps, hstamp, hstamps, hnext]
          rfl
        · rw [← hnext]
          exact hissued
      · refine ⟨count + 1, ?_, ?_⟩
        · rw [stamps, hstamp, hstamps, hnext]
          rfl
        · have hrun : (history.run (action :: rest)).scheduler.issued =
              (history.act action).scheduler.issued + count := hissued
          omega

theorem stamps_new (actions : List Action) :
    new.stamps actions = List.range' 1 (new.run actions).scheduler.issued := by
  obtain ⟨count, hstamps, hissued⟩ := exists_stamps_eq new actions
  have hstart : new.scheduler.issued = 0 := rfl
  rw [hstamps, hissued, hstart, Nat.zero_add, Nat.zero_add]

/-! ## The compiling flag -/

/-- The flag is up exactly while the latest generation has not completed. -/
theorem Recorded.isCompiling_iff {history : History} (h : Recorded history) :
    history.scheduler.isCompiling = true ↔
      0 < history.scheduler.issued ∧
        ∀ completion ∈ history.completed, completion.generation ≠ history.scheduler.issued := by
  have hle := h.lastPublished_le
  rw [isCompiling, decide_eq_true_iff]
  constructor
  · intro hlt
    refine ⟨by omega, fun completion hmem => ?_⟩
    have hpublished := h.shown.le_lastPublished completion hmem
    omega
  · rintro ⟨hpos, hawaited⟩
    by_contra hnot
    -- Otherwise the counters are equal, and some completion is beyond all earlier stamps.
    have hbefore : history.scheduler.issued - 1 < history.scheduler.lastPublished := by omega
    obtain ⟨completion, hmem, hlt⟩ := (h.lt_lastPublished_iff _).mp hbefore
    have hissued := (h.booked.completed_le completion hmem).2
    exact hawaited completion hmem (by omega)

/-! ## The law -/

/-- What the phase, the compiling flag and the stamps say about the attempts so
far. -/
structure PhaseFollows (stamped : List Nat) (history : History) : Prop where
  lastPublished_le : history.scheduler.lastPublished ≤ history.scheduler.issued
  /-- The stamps are 1, 2, 3 and so on. -/
  stamped_eq : stamped = List.range' 1 history.scheduler.issued
  /-- The phase can be told from the pending flag and the counters. -/
  phase_eq : history.scheduler.phase =
    if history.scheduler.pending then .scheduled
    else if history.scheduler.lastPublished < history.scheduler.issued then .compiling
    else if 0 < history.scheduler.lastPublished then .published
    else .idle
  /-- Something was stamped, and the latest stamp has not completed. -/
  isCompiling_iff : history.scheduler.isCompiling = true ↔
    ∃ generation, stamped.getLast? = some generation ∧
      ∀ completion ∈ history.completed, completion.generation ≠ generation

/-- After any run the phase and the compiling flag follow the counters, and the
counters the attempts. -/
theorem phaseFollows_run {actions : List Action} (h : new.Lawful actions) :
    PhaseFollows (new.stamps actions) (new.run actions) := by
  have hrecorded := recorded_run h
  have hphase := phaseAgrees_run h
  have hstamps := stamps_new actions
  generalize new.run actions = history at hrecorded hphase hstamps ⊢
  refine
    { lastPublished_le := hrecorded.lastPublished_le
      stamped_eq := hstamps
      phase_eq := ?_
      isCompiling_iff := ?_ }
  · simpa only [PhaseAgrees, settledPhase, isCompiling, decide_eq_true_eq] using hphase
  · rw [hrecorded.isCompiling_iff, hstamps, List.getLast?_range']
    cases history.scheduler.issued with
    | zero => simp
    | succ issued => simp

/-- A change that is cancelled during a compile, a blank source that is published over
it, and the compile that comes too late. -/
theorem phaseFollows_run_cancelled :
    let actions : List Action :=
      [.fire, .change ['a'], .fire, .change ['b'], .cancel, .change [' '], .fire,
        .change ['c'], .fire, .complete 1 (.ok .empty)]
    new.Lawful actions ∧ (new.run actions).scheduler.phase = .compiling ∧
      new.stamps actions = [1, 2, 3] ∧ PhaseFollows (new.stamps actions) (new.run actions) := by
  refine ⟨by decide, by decide, by decide, phaseFollows_run ?_⟩
  decide

end History

end Scheduler

end MarkupPreview
