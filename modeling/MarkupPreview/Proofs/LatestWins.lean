import MarkupPreview.Proofs.SchedulerHistory

/-!
# The latest generation wins

Attempts complete in any order, between edits, cancellations and blank sources
that complete on the spot. What the scheduler shows depends on generations alone:
its error is that of the greatest completed generation, and its result is the
best success among the completions that were not overtaken.

The record keeps the published completions sorted, so "greatest generation" and
"head of the list" are the same thing; that is the bridge used throughout.

## Main results

* `Recorded.isLatest_iff` — the head of the published completions is the
  completion of the greatest generation.
* `latestWins_run` — what a scheduler shows after any run.
-/

namespace MarkupPreview

namespace Scheduler

namespace History

/-! ## Latest completions -/

theorem isLatest_iff_head? {completions : List Completion}
    (hsorted : completions.Pairwise fun later earlier => earlier.generation < later.generation)
    (completion : Completion) :
    IsLatest completion completions ↔ completions.head? = some completion := by
  cases completions with
  | nil => simp [IsLatest]
  | cons first rest =>
      rw [List.pairwise_cons] at hsorted
      rw [List.head?_cons, Option.some_inj]
      constructor
      · rintro ⟨hmem, hgreatest⟩
        rcases List.mem_cons.mp hmem with heq | hmem
        · exact heq.symm
        · have hlt := hsorted.1 completion hmem
          have hle := hgreatest first List.mem_cons_self
          omega
      · rintro rfl
        refine ⟨List.mem_cons_self, ?_⟩
        rintro other (_ | ⟨_, hmem⟩)
        · exact Nat.le_refl _
        · exact Nat.le_of_lt (hsorted.1 other hmem)

/-- The first success is the first of the successes. -/
theorem findSome?_toOption (completions : List Completion) :
    completions.findSome? (·.outcome.toOption) =
      (completions.filter (·.outcome.isOk)).head?.bind (·.outcome.toOption) := by
  induction completions with
  | nil => rfl
  | cons first rest ih =>
      obtain ⟨generation, outcome⟩ := first
      cases outcome with
      | ok result => rfl
      | error error => exact ih

variable {history : History}

theorem Recorded.completed_eq_nil (h : Recorded history) (hpublished : history.published = []) :
    history.completed = [] := by
  apply List.eq_nil_iff_forall_not_mem.mpr
  intro completion hmem
  have hle := h.shown.le_lastPublished completion hmem
  have hpos := (h.booked.completed_le completion hmem).1
  rw [h.shown.lastPublished_eq, hpublished, List.head?_nil, Option.map_none,
    Option.getD_none] at hle
  omega

theorem Recorded.eq_of_generation_eq (h : Recorded history) {first second : Completion}
    (hfirst : first ∈ history.completed) (hsecond : second ∈ history.completed)
    (heq : first.generation = second.generation) : first = second :=
  List.inj_on_of_nodup_map h.booked.completed_nodup hfirst hsecond heq

theorem Recorded.isLatest_iff (h : Recorded history) (completion : Completion) :
    IsLatest completion history.completed ↔ history.published.head? = some completion := by
  cases hpublished : history.published with
  | nil => simp [h.completed_eq_nil hpublished, IsLatest]
  | cons first rest =>
      have hmem : first ∈ history.completed := h.shown.subset (by simp [hpublished])
      have hgreatest : ∀ other ∈ history.completed, other.generation ≤ first.generation := by
        intro other hother
        have hle := h.shown.le_lastPublished other hother
        rwa [h.shown.lastPublished_eq, hpublished] at hle
      rw [List.head?_cons, Option.some_inj]
      constructor
      · rintro ⟨hcompletion, hbest⟩
        apply h.eq_of_generation_eq hmem hcompletion
        exact Nat.le_antisymm (hbest first hmem) (hgreatest completion hcompletion)
      · rintro rfl
        exact ⟨hmem, hgreatest⟩

/-! ## What is on show -/

theorem Recorded.lastPublished_eq_max (h : Recorded history) :
    history.scheduler.lastPublished =
      (history.completed.map (·.generation)).max?.getD 0 := by
  rw [h.shown.lastPublished_eq]
  cases hhead : history.published.head? with
  | none =>
      rw [h.completed_eq_nil (List.head?_eq_none_iff.mp hhead)]
      rfl
  | some first =>
      obtain ⟨hmem, hgreatest⟩ := (h.isLatest_iff first).mpr hhead
      have hmax : (history.completed.map (·.generation)).max? = some first.generation := by
        rw [List.max?_eq_some_iff]
        refine ⟨List.mem_map_of_mem hmem, ?_⟩
        intro generation hgeneration
        obtain ⟨other, hother, rfl⟩ := List.mem_map.mp hgeneration
        exact hgreatest other hother
      rw [hmax]
      rfl

theorem Recorded.lastError_iff (h : Recorded history) (diagnostic : Diagnostic) :
    history.scheduler.lastError = some diagnostic ↔
      ∃ completion error, IsLatest completion history.completed ∧
        completion.outcome = .error error ∧ error.diagnostic = diagnostic := by
  rw [h.shown.lastError_eq, Option.bind_eq_some_iff]
  apply exists_congr
  intro completion
  rw [h.isLatest_iff]
  cases completion.outcome <;> simp [diagnostic?]

theorem Recorded.lastResult_iff (h : Recorded history) (result : Compilation) :
    history.scheduler.lastResult = some result ↔
      ∃ completion, IsLatest completion (history.published.filter (·.outcome.isOk)) ∧
        completion.outcome = .ok result := by
  rw [h.shown.lastResult_eq, findSome?_toOption, Option.bind_eq_some_iff]
  apply exists_congr
  intro completion
  rw [isLatest_iff_head? (h.shown.sorted.filter _)]
  cases completion.outcome <;> simp [Except.toOption]

theorem Recorded.lt_lastPublished_iff (h : Recorded history) (generation : Nat) :
    generation < history.scheduler.lastPublished ↔
      ∃ completion ∈ history.completed, generation < completion.generation := by
  constructor
  · intro hlt
    rw [h.shown.lastPublished_eq] at hlt
    cases hhead : history.published.head? with
    | none => simp [hhead] at hlt
    | some first =>
        rw [hhead] at hlt
        exact ⟨first, ((h.isLatest_iff first).mpr hhead).1, hlt⟩
  · rintro ⟨completion, hmem, hlt⟩
    exact Nat.lt_of_lt_of_le hlt (h.shown.le_lastPublished completion hmem)

theorem discarded_iff (scheduler : Scheduler) (generation : Nat) (outcome : CompileOutcome) :
    (scheduler.complete generation outcome).1 = .discarded ↔
      generation < scheduler.lastPublished := by
  rcases Nat.lt_or_ge generation scheduler.lastPublished with hstale | hcurrent
  · simp [complete_stale hstale, hstale]
  · simp [complete_current hcurrent, Nat.not_lt.mpr hcurrent]

/-- Nothing takes a result off, whether the action is lawful or not. -/
theorem isSome_lastResult_act (action : Action) (h : history.scheduler.lastResult.isSome) :
    (history.act action).scheduler.lastResult.isSome := by
  cases action with
  | change source => exact h
  | fire =>
      cases hpending : history.scheduler.pending with
      | false => rwa [act_fire_idle hpending]
      | true =>
          cases hblank : history.scheduler.latestSource.isBlank with
          | true => simp [act_fire_blank hpending hblank, Except.toOption]
          | false => rwa [act_fire_compile hpending hblank]
  | cancel => rwa [act, cancel_eq]
  | complete generation outcome =>
      rcases Nat.lt_or_ge generation history.scheduler.lastPublished with hstale | hcurrent
      · rwa [act_complete_stale hstale]
      · simp [act_complete_current hcurrent, h]

theorem isSome_lastResult_run (actions : List Action) (h : history.scheduler.lastResult.isSome) :
    (history.run actions).scheduler.lastResult.isSome := by
  induction actions generalizing history with
  | nil => exact h
  | cons action rest ih => exact ih (isSome_lastResult_act action h)

/-! ## The law -/

/-- What a scheduler shows, in terms of the completions so far. -/
structure LatestWins (history : History) : Prop where
  /-- An outcome is dropped exactly when a later generation has completed. -/
  discarded_iff : ∀ generation ∈ history.awaited, ∀ outcome,
    (history.scheduler.complete generation outcome).1 = .discarded ↔
      ∃ completion ∈ history.completed, generation < completion.generation
  /-- A dropped outcome changes nothing. -/
  discarded_eq : ∀ generation ∈ history.awaited, ∀ outcome,
    (history.scheduler.complete generation outcome).1 = .discarded →
      (history.scheduler.complete generation outcome).2 = history.scheduler
  /-- The greatest completed generation was published last. -/
  lastPublished_eq : history.scheduler.lastPublished =
    (history.completed.map (·.generation)).max?.getD 0
  /-- The error on show is that of the greatest completed generation. -/
  lastError_iff : ∀ diagnostic, history.scheduler.lastError = some diagnostic ↔
    ∃ completion error, IsLatest completion history.completed ∧
      completion.outcome = .error error ∧ error.diagnostic = diagnostic
  /-- The result on show is the success of the greatest generation that was not
  dropped. -/
  lastResult_iff : ∀ result, history.scheduler.lastResult = some result ↔
    ∃ completion, IsLatest completion (history.published.filter (·.outcome.isOk)) ∧
      completion.outcome = .ok result
  /-- A tree that is on show is never taken off. -/
  tree_kept : ∀ actions, history.Lawful actions → history.scheduler.view.tree.isSome →
    (history.run actions).scheduler.view.tree.isSome

/-- After any run the scheduler shows what the latest generations gave. -/
theorem latestWins_run {actions : List Action} (h : new.Lawful actions) :
    LatestWins (new.run actions) := by
  have hrecorded := recorded_run h
  refine
    { discarded_iff := ?_
      discarded_eq := ?_
      lastPublished_eq := hrecorded.lastPublished_eq_max
      lastError_iff := hrecorded.lastError_iff
      lastResult_iff := hrecorded.lastResult_iff
      tree_kept := ?_ }
  · intro generation _ outcome
    rw [History.discarded_iff, hrecorded.lt_lastPublished_iff]
  · intro generation _ outcome hdiscarded
    rw [History.discarded_iff] at hdiscarded
    rw [complete_stale hdiscarded]
  · intro more _ htree
    simp only [view, Option.isSome_map] at htree ⊢
    exact isSome_lastResult_run more htree

/-- A failure overtakes an attempt that is still under way, and a blank source a
failure. -/
theorem latestWins_run_overtaken :
    let actions : List Action :=
      [.change ['a'], .fire, .change ['b'], .cancel, .change ['c'], .fire,
        .complete 2 (.error (.aborted ['!'])), .complete 1 (.ok .empty),
        .change ['d'], .fire, .change [' '], .fire, .complete 3 (.error (.aborted ['?']))]
    new.Lawful actions ∧ LatestWins (new.run actions) := by
  refine ⟨by decide, latestWins_run ?_⟩
  decide

end History

end Scheduler

end MarkupPreview
