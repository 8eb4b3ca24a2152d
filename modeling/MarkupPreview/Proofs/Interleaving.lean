import MarkupPreview.Proofs.LatestWins

/-!
# Completions commute with all else

Attempts run beside the author, so the same edits and firings meet the same
outcomes in many orders. Taking the reports out of a run leaves its *inputs*. A
run and its inputs alone agree on everything that a report does not touch, and
the completions of the run are those of its inputs, made by blank sources, with
the reports added. So two runs with the same inputs and the same reports have
the same completions as a set, and with that the same latest one.

The result on show is the one thing that can differ: a success that a later
failure overtakes is shown if it comes first, and dropped if it comes second.

## Main results

* `mem_completed_run` — the completions of a run, without its order.
* `agree_of_same_reports` — runs that differ in the order of reports agree.
-/

namespace MarkupPreview

namespace Scheduler

/-- An action that does not report an outcome. -/
def Action.isInput : Action → Bool
  | change _ => true
  | fire => true
  | cancel => true
  | complete _ _ => false

/-- Two schedulers that took the same inputs. -/
structure SameInputs (one other : Scheduler) : Prop where
  latestSource_eq : one.latestSource = other.latestSource
  pending_eq : one.pending = other.pending
  issued_eq : one.issued = other.issued

theorem SameInputs.symm {one other : Scheduler} (h : SameInputs one other) :
    SameInputs other one :=
  ⟨h.latestSource_eq.symm, h.pending_eq.symm, h.issued_eq.symm⟩

theorem SameInputs.trans {one other third : Scheduler} (h : SameInputs one other)
    (hnext : SameInputs other third) : SameInputs one third :=
  ⟨h.latestSource_eq.trans hnext.latestSource_eq, h.pending_eq.trans hnext.pending_eq,
    h.issued_eq.trans hnext.issued_eq⟩

namespace History

/-- The completions that an action adds. -/
def added (scheduler : Scheduler) : Action → List Completion
  | .fire =>
      if scheduler.pending && scheduler.latestSource.isBlank then
        [⟨scheduler.issued + 1, .ok .empty⟩]
      else []
  | .complete generation outcome => [⟨generation, outcome⟩]
  | .change _ => []
  | .cancel => []

theorem completed_act (history : History) (action : Action) :
    (history.act action).completed = added history.scheduler action ++ history.completed := by
  cases action with
  | change source => rfl
  | fire =>
      cases hpending : history.scheduler.pending with
      | false => simp [act_fire_idle hpending, added, hpending]
      | true =>
          cases hblank : history.scheduler.latestSource.isBlank with
          | true => simp [act_fire_blank hpending hblank, added, hpending, hblank]
          | false => simp [act_fire_compile hpending hblank, added, hblank]
  | cancel => rfl
  | complete generation outcome =>
      rcases Nat.lt_or_ge generation history.scheduler.lastPublished with hstale | hcurrent
      · rw [act_complete_stale hstale]
        rfl
      · rw [act_complete_current hcurrent]
        rfl

/-- A report leaves the inputs alone. -/
theorem sameInputs_act_complete (history : History) (generation : Nat)
    (outcome : CompileOutcome) :
    SameInputs history.scheduler (history.act (.complete generation outcome)).scheduler := by
  rcases Nat.lt_or_ge generation history.scheduler.lastPublished with hstale | hcurrent
  · rw [act_complete_stale hstale]
    exact ⟨rfl, rfl, rfl⟩
  · rw [act_complete_current hcurrent]
    exact ⟨by simp, by simp, by simp⟩

theorem added_congr {one other : Scheduler} (h : SameInputs one other) (action : Action) :
    added one action = added other action := by
  cases action with
  | fire => simp only [added, h.latestSource_eq, h.pending_eq, h.issued_eq]
  | change source => rfl
  | cancel => rfl
  | complete generation outcome => rfl

/-- What an input does to the inputs depends on the inputs alone. -/
theorem sameInputs_act {one other : History} (h : SameInputs one.scheduler other.scheduler)
    {action : Action} (hinput : action.isInput = true) :
    SameInputs (one.act action).scheduler (other.act action).scheduler := by
  have hissued := h.issued_eq
  cases action with
  | change source => exact ⟨rfl, rfl, hissued⟩
  | fire =>
      cases hpending : other.scheduler.pending with
      | false =>
          rw [act_fire_idle hpending, act_fire_idle (h.pending_eq.trans hpending)]
          exact h
      | true =>
          have hpending' := h.pending_eq.trans hpending
          cases hblank : other.scheduler.latestSource.isBlank with
          | true =>
              have hblank' : one.scheduler.latestSource.isBlank = true := by
                rw [h.latestSource_eq, hblank]
              rw [act_fire_blank hpending hblank, act_fire_blank hpending' hblank']
              exact ⟨by simpa using h.latestSource_eq, by simp, by simpa using hissued⟩
          | false =>
              have hblank' : one.scheduler.latestSource.isBlank = false := by
                rw [h.latestSource_eq, hblank]
              rw [act_fire_compile hpending hblank, act_fire_compile hpending' hblank']
              exact ⟨h.latestSource_eq, rfl, by simpa using hissued⟩
  | cancel =>
      rw [act, act, cancel_eq, cancel_eq]
      exact ⟨h.latestSource_eq, rfl, hissued⟩
  | complete generation outcome => simp [Action.isInput] at hinput

/-! ## Runs without their reports -/

/-- A run without its reports. -/
def inputs (actions : List Action) : List Action := actions.filter (·.isInput)

theorem inputs_append_input (front : List Action) {last : Action} (h : last.isInput = true) :
    inputs (front ++ [last]) = inputs front ++ [last] := by
  simp [inputs, h]

theorem inputs_append_complete (front : List Action) (generation : Nat)
    (outcome : CompileOutcome) :
    inputs (front ++ [.complete generation outcome]) = inputs front := by
  simp [inputs, Action.isInput]

theorem isInput_or_complete (action : Action) :
    action.isInput = true ∨ ∃ generation outcome, action = .complete generation outcome := by
  cases action with
  | complete generation outcome => exact .inr ⟨generation, outcome, rfl⟩
  | change source => exact .inl rfl
  | fire => exact .inl rfl
  | cancel => exact .inl rfl

theorem sameInputs_run (actions : List Action) :
    SameInputs (new.run (inputs actions)).scheduler (new.run actions).scheduler := by
  induction actions using List.reverseRecOn with
  | nil => exact ⟨rfl, rfl, rfl⟩
  | append_singleton front last ih =>
      rcases isInput_or_complete last with hinput | ⟨generation, outcome, rfl⟩
      · rw [inputs_append_input front hinput, run_append, run_append]
        exact sameInputs_act ih hinput
      · rw [inputs_append_complete, run_append]
        exact ih.trans (sameInputs_act_complete (new.run front) generation outcome)

theorem completed_run_append (actions : List Action) (last : Action) :
    (new.run (actions ++ [last])).completed =
      added (new.run actions).scheduler last ++ (new.run actions).completed := by
  rw [run_append]
  exact completed_act (new.run actions) last

/-- A completion of a run is one of a blank source, which the inputs decide, or
one that was reported. -/
theorem mem_completed_run (actions : List Action) (completion : Completion) :
    completion ∈ (new.run actions).completed ↔
      completion ∈ (new.run (inputs actions)).completed ∨
        .complete completion.generation completion.outcome ∈ actions := by
  induction actions using List.reverseRecOn with
  | nil => simp [inputs, run, new]
  | append_singleton front last ih =>
      rw [completed_run_append, List.mem_append, ih, List.mem_append, List.mem_singleton]
      rcases isInput_or_complete last with hinput | ⟨generation, outcome, rfl⟩
      · -- An input adds the same completions to both runs, and reports nothing.
        have hne : .complete completion.generation completion.outcome ≠ last := by
          rintro rfl
          simp [Action.isInput] at hinput
        rw [inputs_append_input front hinput, completed_run_append, List.mem_append,
          added_congr (sameInputs_run front)]
        simp only [hne, or_false, or_assoc]
      · have hreport : completion ∈ added (new.run front).scheduler
              (.complete generation outcome) ↔
            Action.complete completion.generation completion.outcome =
              .complete generation outcome := by
          obtain ⟨completed, reported⟩ := completion
          simp [added]
        rw [inputs_append_complete, hreport]
        tauto

/-! ## The law -/

theorem Recorded.lastResult_of_latest {history : History} (h : Recorded history)
    (hok : ∀ completion, IsLatest completion history.completed → completion.outcome.isOk) :
    history.scheduler.lastResult = history.published.head?.bind (·.outcome.toOption) := by
  rw [h.shown.lastResult_eq]
  cases hpublished : history.published with
  | nil => rfl
  | cons first rest =>
      have hlatest := hok first ((h.isLatest_iff first).mpr (by simp [hpublished]))
      obtain ⟨generation, outcome⟩ := first
      cases outcome with
      | ok result => rfl
      | error error => simp [Except.isOk, Except.toBool] at hlatest

/-- How far two histories agree: in everything but the result, and in the result
and all that is on show unless the latest generation has failed. -/
structure Agree (one other : History) : Prop where
  latestSource_eq : one.scheduler.latestSource = other.scheduler.latestSource
  pending_eq : one.scheduler.pending = other.scheduler.pending
  phase_eq : one.scheduler.phase = other.scheduler.phase
  issued_eq : one.scheduler.issued = other.scheduler.issued
  lastPublished_eq : one.scheduler.lastPublished = other.scheduler.lastPublished
  lastError_eq : one.scheduler.lastError = other.scheduler.lastError
  lastResult_eq :
    (∀ completion, IsLatest completion one.completed → completion.outcome.isOk) →
      one.scheduler.lastResult = other.scheduler.lastResult
  view_eq :
    (∀ completion, IsLatest completion one.completed → completion.outcome.isOk) →
      one.scheduler.view = other.scheduler.view

/-- Runs with the same inputs in the same order and the same reports, in whatever
order and wherever they come, end in agreement. -/
theorem agree_of_same_reports {first second : List Action}
    (hfirst : new.Lawful first) (hsecond : new.Lawful second)
    (hinputs : inputs first = inputs second)
    (hreports : ∀ generation outcome,
      .complete generation outcome ∈ first ↔ .complete generation outcome ∈ second) :
    Agree (new.run first) (new.run second) := by
  have hone := recorded_run hfirst
  have hother := recorded_run hsecond
  have hsame : SameInputs (new.run first).scheduler (new.run second).scheduler := by
    have hbare := sameInputs_run first
    rw [hinputs] at hbare
    exact hbare.symm.trans (sameInputs_run second)
  have hcompleted : ∀ completion, completion ∈ (new.run first).completed ↔
      completion ∈ (new.run second).completed := by
    intro completion
    rw [mem_completed_run first, mem_completed_run second, hinputs, hreports]
  have hlatest : ∀ completion, IsLatest completion (new.run first).completed ↔
      IsLatest completion (new.run second).completed := by
    intro completion
    simp only [IsLatest, hcompleted]
  have hhead : (new.run first).published.head? = (new.run second).published.head? := by
    apply Option.ext
    intro completion
    rw [← hone.isLatest_iff, ← hother.isLatest_iff, hlatest]
  have hpublished : (new.run first).scheduler.lastPublished =
      (new.run second).scheduler.lastPublished := by
    rw [hone.shown.lastPublished_eq, hother.shown.lastPublished_eq, hhead]
  have herror : (new.run first).scheduler.lastError = (new.run second).scheduler.lastError := by
    rw [hone.shown.lastError_eq, hother.shown.lastError_eq, hhead]
  have hresult : (∀ completion, IsLatest completion (new.run first).completed →
        completion.outcome.isOk) →
      (new.run first).scheduler.lastResult = (new.run second).scheduler.lastResult := by
    intro hok
    rw [hone.lastResult_of_latest hok, hhead,
      hother.lastResult_of_latest fun completion h => hok completion ((hlatest completion).mpr h)]
  refine
    { latestSource_eq := hsame.latestSource_eq
      pending_eq := hsame.pending_eq
      phase_eq := ?_
      issued_eq := hsame.issued_eq
      lastPublished_eq := hpublished
      lastError_eq := herror
      lastResult_eq := hresult
      view_eq := ?_ }
  · rw [phaseAgrees_run hfirst, phaseAgrees_run hsecond, settledPhase, settledPhase,
      isCompiling, isCompiling, hsame.pending_eq, hsame.issued_eq, hpublished]
  · intro hok
    rw [view, view, hresult hok, herror, isCompiling, isCompiling, hpublished, hsame.issued_eq]

/-- Two attempts under way, a blank source and a pending change: the reports come
once late and in order, once early and the other way round. -/
theorem agree_of_same_reports_swapped :
    let first : List Action :=
      [.change ['a'], .fire, .change ['b'], .fire, .change [' '], .fire, .change ['c'],
        .fire, .change ['d'],
        .complete 1 (.ok .empty), .complete 2 (.error (.aborted ['!'])),
        .complete 4 (.ok .empty)]
    let second : List Action :=
      [.change ['a'], .fire, .change ['b'], .fire, .complete 2 (.error (.aborted ['!'])),
        .change [' '], .fire, .complete 1 (.ok .empty), .change ['c'], .fire,
        .complete 4 (.ok .empty), .change ['d']]
    new.Lawful first ∧ new.Lawful second ∧ inputs first = inputs second ∧
      (∀ generation outcome,
        .complete generation outcome ∈ first ↔ .complete generation outcome ∈ second) ∧
      Agree (new.run first) (new.run second) := by
  intro first second
  have hfirst : new.Lawful first := by decide
  have hsecond : new.Lawful second := by decide
  have hinputs : inputs first = inputs second := rfl
  have hreports : ∀ generation outcome,
      .complete generation outcome ∈ first ↔ .complete generation outcome ∈ second := by
    intro generation outcome
    simp only [first, second, List.mem_cons, List.not_mem_nil, reduceCtorEq, false_or, or_false]
    tauto
  exact ⟨hfirst, hsecond, hinputs, hreports,
    agree_of_same_reports hfirst hsecond hinputs hreports⟩

/-- The condition on the result is needed: the success is on show only if it comes
before the failure that overtakes it. -/
example :
    let early := new.run [.change ['a'], .fire, .change ['b'], .fire,
      .complete 1 (.ok .empty), .complete 2 (.error (.aborted ['!']))]
    let late := new.run [.change ['a'], .fire, .change ['b'], .fire,
      .complete 2 (.error (.aborted ['!'])), .complete 1 (.ok .empty)]
    early.scheduler.lastResult = some .empty ∧ late.scheduler.lastResult = none :=
  ⟨rfl, rfl⟩

end History

end Scheduler

end MarkupPreview
