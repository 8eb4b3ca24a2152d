import Mathlib.Data.List.Induction
import Mathlib.Data.List.Nodup
import MarkupPreview.Preview.Scheduler

/-!
# Runs of the scheduler, with their history

The scheduler forgets: of the attempts it has asked for it keeps two numbers, of
the outcomes at most one result and one error. To say what it shows at the end of
a run, a `History` goes along with it and keeps the generations that are still
awaited, every completion, and those completions that were published. A blank
source completes its own generation at the firing.

`Recorded` is what every action keeps. Its core is that the published
completions, latest first, fall in generation: the first of them is the greatest
completed generation, and what is on show can be read off the list.

## Main results

* `Recorded.act`, `recorded_run` — one action and a whole run keep the record.
* `phaseAgrees_run` — the phase is a function of the pending flag and the two
  counters.
-/

namespace MarkupPreview

namespace Scheduler

/-- What is done to a scheduler. -/
inductive Action where
  | change (source : Text)
  | fire
  | cancel
  | complete (generation : Nat) (outcome : CompileOutcome)
deriving DecidableEq, Repr

/-- The end of an attempt. -/
structure Completion where
  generation : Nat
  outcome : CompileOutcome
deriving DecidableEq, Repr

/-- A scheduler and what has become of its attempts. -/
structure History where
  scheduler : Scheduler
  /-- The generations of the tickets whose outcome is still to come. -/
  awaited : List Nat
  /-- All completions, the latest first. -/
  completed : List Completion
  /-- The completions that were not discarded, the latest first. -/
  published : List Completion
deriving DecidableEq, Repr

namespace History

/-- A new scheduler. -/
def new : History := ⟨.new, [], [], []⟩

/-- Takes down a completion and what became of it. -/
def record (history : History) (completion : Completion) (publication : Publication) :
    History :=
  { history with
    completed := completion :: history.completed
    published :=
      match publication with
      | .published => completion :: history.published
      | .discarded => history.published }

/-- The history after an action. -/
def act (history : History) : Action → History
  | .change source => { history with scheduler := history.scheduler.change source }
  | .cancel => { history with scheduler := history.scheduler.cancel }
  | .fire =>
      let (firing, scheduler) := history.scheduler.fire
      match firing with
      | .compile ticket =>
          { history with scheduler, awaited := ticket.generation :: history.awaited }
      | .publishedEmpty =>
          { history with scheduler }.record ⟨scheduler.issued, .ok .empty⟩ .published
      | .idle => { history with scheduler }
  | .complete generation outcome =>
      let (publication, scheduler) := history.scheduler.complete generation outcome
      { history with scheduler, awaited := history.awaited.erase generation }.record
        ⟨generation, outcome⟩ publication

/-- Only the outcome of an awaited ticket can be reported. -/
def Allows (history : History) : Action → Prop
  | .complete generation _ => generation ∈ history.awaited
  | .change _ => True
  | .fire => True
  | .cancel => True

instance (history : History) : DecidablePred history.Allows
  | .complete generation _ => inferInstanceAs (Decidable (generation ∈ history.awaited))
  | .change _ => inferInstanceAs (Decidable True)
  | .fire => inferInstanceAs (Decidable True)
  | .cancel => inferInstanceAs (Decidable True)

/-- The history after some actions. -/
def run (history : History) (actions : List Action) : History := actions.foldl act history

/-- Actions that may follow one another: every outcome is that of a ticket given
out before, and no ticket is reported twice. -/
def Lawful : History → List Action → Prop
  | _, [] => True
  | history, action :: rest => history.Allows action ∧ (history.act action).Lawful rest

instance decidableLawful : (history : History) → (actions : List Action) →
    Decidable (history.Lawful actions)
  | _, [] => inferInstanceAs (Decidable True)
  | history, action :: rest =>
      have := decidableLawful (history.act action) rest
      inferInstanceAs (Decidable (_ ∧ _))

theorem run_append (history : History) (front back : List Action) :
    history.run (front ++ back) = (history.run front).run back :=
  List.foldl_append

theorem lawful_append (history : History) (front back : List Action) :
    history.Lawful (front ++ back) ↔
      history.Lawful front ∧ (history.run front).Lawful back := by
  induction front generalizing history with
  | nil => simp [Lawful, run]
  | cons action rest ih => simp [Lawful, ih, run, and_assoc]

/-! ## The record -/

/-- The given completion has the greatest generation of some. -/
def IsLatest (completion : Completion) (completions : List Completion) : Prop :=
  completion ∈ completions ∧ ∀ other ∈ completions, other.generation ≤ completion.generation

/-- The books on attempts: every stamped generation is awaited or completed at
most once, and none is beyond the last stamp. -/
structure Booked (issued : Nat) (awaited : List Nat) (completed : List Completion) : Prop where
  awaited_nodup : awaited.Nodup
  awaited_le : ∀ generation ∈ awaited, 0 < generation ∧ generation ≤ issued
  completed_le : ∀ completion ∈ completed,
    0 < completion.generation ∧ completion.generation ≤ issued
  notMem_awaited : ∀ completion ∈ completed, completion.generation ∉ awaited
  completed_nodup : (completed.map (·.generation)).Nodup

/-- The order in which tickets are awaited is of no account. -/
theorem Booked.perm {issued : Nat} {awaited others : List Nat} {completed : List Completion}
    (h : Booked issued awaited completed) (hperm : awaited.Perm others) :
    Booked issued others completed where
  awaited_nodup := hperm.nodup_iff.mp h.awaited_nodup
  awaited_le generation hmem := h.awaited_le generation (hperm.mem_iff.mpr hmem)
  completed_le := h.completed_le
  notMem_awaited completion hmem hother :=
    h.notMem_awaited completion hmem (hperm.mem_iff.mpr hother)
  completed_nodup := h.completed_nodup

theorem Booked.await {issued : Nat} {awaited : List Nat} {completed : List Completion}
    (h : Booked issued awaited completed) :
    Booked (issued + 1) ((issued + 1) :: awaited) completed where
  awaited_nodup := by
    rw [List.nodup_cons]
    refine ⟨fun hmem => ?_, h.awaited_nodup⟩
    have hle := (h.awaited_le (issued + 1) hmem).2
    omega
  awaited_le generation hmem := by
    rcases List.mem_cons.mp hmem with rfl | hmem
    · exact ⟨Nat.succ_pos _, Nat.le_refl _⟩
    · have hle := h.awaited_le generation hmem
      exact ⟨hle.1, Nat.le_succ_of_le hle.2⟩
  completed_le completion hmem := by
    have hle := h.completed_le completion hmem
    exact ⟨hle.1, Nat.le_succ_of_le hle.2⟩
  notMem_awaited completion hmem := by
    rw [List.mem_cons, not_or]
    have hle := (h.completed_le completion hmem).2
    exact ⟨by omega, h.notMem_awaited completion hmem⟩
  completed_nodup := h.completed_nodup

theorem Booked.complete {issued : Nat} {awaited : List Nat} {completed : List Completion}
    (h : Booked issued awaited completed) {generation : Nat} (hmem : generation ∈ awaited)
    (outcome : CompileOutcome) :
    Booked issued (awaited.erase generation) (⟨generation, outcome⟩ :: completed) where
  awaited_nodup := h.awaited_nodup.erase generation
  awaited_le other hother := h.awaited_le other (List.mem_of_mem_erase hother)
  completed_le := by
    rintro completion (_ | ⟨_, hcompletion⟩)
    · exact h.awaited_le generation hmem
    · exact h.completed_le completion hcompletion
  notMem_awaited := by
    rintro completion (_ | ⟨_, hcompletion⟩) herase
    · exact h.awaited_nodup.not_mem_erase herase
    · exact h.notMem_awaited completion hcompletion (List.mem_of_mem_erase herase)
  completed_nodup := by
    rw [List.map_cons, List.nodup_cons]
    refine ⟨fun hagain => ?_, h.completed_nodup⟩
    obtain ⟨completion, hcompletion, heq⟩ := List.mem_map.mp hagain
    exact h.notMem_awaited completion hcompletion (heq ▸ hmem)

/-- A generation that is stamped and completed at once. -/
theorem Booked.completeNext {issued : Nat} {awaited : List Nat} {completed : List Completion}
    (h : Booked issued awaited completed) (outcome : CompileOutcome) :
    Booked (issued + 1) awaited (⟨issued + 1, outcome⟩ :: completed) := by
  have hcomplete := h.await.complete List.mem_cons_self outcome
  rwa [List.erase_cons_head] at hcomplete

/-- What is on show is what the published completions leave. -/
structure Shown (scheduler : Scheduler) (completed published : List Completion) : Prop where
  subset : published ⊆ completed
  sorted : published.Pairwise fun later earlier => earlier.generation < later.generation
  le_lastPublished : ∀ completion ∈ completed,
    completion.generation ≤ scheduler.lastPublished
  lastPublished_eq : scheduler.lastPublished =
    (published.head?.map (·.generation)).getD 0
  lastError_eq : scheduler.lastError = published.head?.bind (diagnostic? ·.outcome)
  lastResult_eq : scheduler.lastResult = published.findSome? (·.outcome.toOption)

theorem Shown.congr {scheduler next : Scheduler} {completed published : List Completion}
    (h : Shown scheduler completed published)
    (hpublished : next.lastPublished = scheduler.lastPublished)
    (hresult : next.lastResult = scheduler.lastResult)
    (herror : next.lastError = scheduler.lastError) : Shown next completed published where
  subset := h.subset
  sorted := h.sorted
  le_lastPublished := by
    rw [hpublished]
    exact h.le_lastPublished
  lastPublished_eq := hpublished.trans h.lastPublished_eq
  lastError_eq := herror.trans h.lastError_eq
  lastResult_eq := hresult.trans h.lastResult_eq

/-- An outcome beyond all completed ones goes on show. -/
theorem Shown.publish {scheduler : Scheduler} {completed published : List Completion}
    (h : Shown scheduler completed published) {generation : Nat} (outcome : CompileOutcome)
    (hfresh : ∀ completion ∈ completed, completion.generation < generation) :
    Shown (scheduler.publish generation outcome) (⟨generation, outcome⟩ :: completed)
      (⟨generation, outcome⟩ :: published) where
  subset := List.cons_subset_cons _ h.subset
  sorted := by
    refine List.Pairwise.cons (fun earlier hmem => ?_) h.sorted
    exact hfresh earlier (h.subset hmem)
  le_lastPublished := by
    rintro completion (_ | ⟨_, hmem⟩)
    · exact Nat.le_refl _
    · exact Nat.le_of_lt (hfresh completion hmem)
  lastPublished_eq := rfl
  lastError_eq := publish_lastError ..
  lastResult_eq := by
    rw [publish_lastResult, List.findSome?_cons, h.lastResult_eq]
    cases outcome <;> rfl

/-- An outcome that comes too late leaves what is on show. -/
theorem Shown.discard {scheduler : Scheduler} {completed published : List Completion}
    (h : Shown scheduler completed published) {generation : Nat} (outcome : CompileOutcome)
    (hstale : generation < scheduler.lastPublished) :
    Shown scheduler (⟨generation, outcome⟩ :: completed) published where
  subset := List.subset_cons_of_subset _ h.subset
  sorted := h.sorted
  le_lastPublished := by
    rintro completion (_ | ⟨_, hmem⟩)
    · exact Nat.le_of_lt hstale
    · exact h.le_lastPublished completion hmem
  lastPublished_eq := h.lastPublished_eq
  lastError_eq := h.lastError_eq
  lastResult_eq := h.lastResult_eq

/-- What every action keeps. -/
structure Recorded (history : History) : Prop where
  booked : Booked history.scheduler.issued history.awaited history.completed
  shown : Shown history.scheduler history.completed history.published

theorem recorded_new : Recorded new where
  booked :=
    { awaited_nodup := List.nodup_nil
      awaited_le := by simp [new]
      completed_le := by simp [new]
      notMem_awaited := by simp [new]
      completed_nodup := List.nodup_nil }
  shown :=
    { subset := List.nil_subset _
      sorted := List.Pairwise.nil
      le_lastPublished := by simp [new]
      lastPublished_eq := rfl
      lastError_eq := rfl
      lastResult_eq := rfl }

theorem Recorded.perm {history : History} (h : Recorded history) {awaited : List Nat}
    (hperm : history.awaited.Perm awaited) : Recorded { history with awaited } :=
  ⟨h.booked.perm hperm, h.shown⟩

/-- The generation on show was stamped. -/
theorem Recorded.lastPublished_le {history : History} (h : Recorded history) :
    history.scheduler.lastPublished ≤ history.scheduler.issued := by
  rw [h.shown.lastPublished_eq]
  cases hpublished : history.published with
  | nil => exact Nat.zero_le _
  | cons first rest =>
      have hmem : first ∈ history.completed := h.shown.subset (by simp [hpublished])
      exact (h.booked.completed_le first hmem).2

/-- The generation on show is not awaited. -/
theorem Recorded.ne_lastPublished {history : History} (h : Recorded history) {generation : Nat}
    (hawaited : generation ∈ history.awaited) :
    generation ≠ history.scheduler.lastPublished := by
  rintro rfl
  have hpos := (h.booked.awaited_le _ hawaited).1
  rw [h.shown.lastPublished_eq] at hawaited hpos
  cases hpublished : history.published with
  | nil => simp [hpublished] at hpos
  | cons first rest =>
      have hmem : first ∈ history.completed := h.shown.subset (by simp [hpublished])
      rw [hpublished] at hawaited
      exact h.booked.notMem_awaited first hmem hawaited

/-- An awaited generation that is not stale is beyond all completed ones. -/
theorem Recorded.lt_of_awaited {history : History} (h : Recorded history) {generation : Nat}
    (hawaited : generation ∈ history.awaited)
    (hcurrent : history.scheduler.lastPublished ≤ generation) :
    ∀ completion ∈ history.completed, completion.generation < generation := by
  intro completion hmem
  have hle := h.shown.le_lastPublished completion hmem
  have hne : completion.generation ≠ generation := by
    rintro rfl
    exact h.booked.notMem_awaited completion hmem hawaited
  omega

/-! ## Actions, case by case -/

theorem act_fire_idle {history : History} (h : history.scheduler.pending = false) :
    history.act .fire = history := by
  simp [act, fire_idle h]

theorem act_fire_blank {history : History} (h : history.scheduler.pending = true)
    (hblank : history.scheduler.latestSource.isBlank = true) :
    history.act .fire =
      { history with
        scheduler := { history.scheduler with
            pending := false, issued := history.scheduler.issued + 1 }.publish
          (history.scheduler.issued + 1) (.ok .empty)
        completed := ⟨history.scheduler.issued + 1, .ok .empty⟩ :: history.completed
        published := ⟨history.scheduler.issued + 1, .ok .empty⟩ :: history.published } := by
  simp [act, fire_blank h hblank, record]

theorem act_fire_compile {history : History} (h : history.scheduler.pending = true)
    (hblank : history.scheduler.latestSource.isBlank = false) :
    history.act .fire =
      { history with
        scheduler := { history.scheduler with
          pending := false, issued := history.scheduler.issued + 1, phase := .compiling }
        awaited := (history.scheduler.issued + 1) :: history.awaited } := by
  simp [act, fire_compile h hblank]

theorem act_complete_current {history : History} {generation : Nat} {outcome : CompileOutcome}
    (h : history.scheduler.lastPublished ≤ generation) :
    history.act (.complete generation outcome) =
      { scheduler := history.scheduler.publish generation outcome
        awaited := history.awaited.erase generation
        completed := ⟨generation, outcome⟩ :: history.completed
        published := ⟨generation, outcome⟩ :: history.published } := by
  simp [act, complete_current h, record]

theorem act_complete_stale {history : History} {generation : Nat} {outcome : CompileOutcome}
    (h : generation < history.scheduler.lastPublished) :
    history.act (.complete generation outcome) =
      { history with
        awaited := history.awaited.erase generation
        completed := ⟨generation, outcome⟩ :: history.completed } := by
  simp [act, complete_stale h, record]

/-! ## One action and whole runs -/

theorem Recorded.fire {history : History} (h : Recorded history) :
    Recorded (history.act .fire) := by
  cases hpending : history.scheduler.pending with
  | false =>
      rw [act_fire_idle hpending]
      exact h
  | true =>
      cases hblank : history.scheduler.latestSource.isBlank with
      | true =>
          rw [act_fire_blank hpending hblank]
          refine ⟨?_, ?_⟩
          · simpa using h.booked.completeNext (.ok .empty)
          · have hshown : Shown
                { history.scheduler with
                  pending := false, issued := history.scheduler.issued + 1 }
                history.completed history.published := h.shown.congr rfl rfl rfl
            have hfresh : ∀ completion ∈ history.completed,
                completion.generation < history.scheduler.issued + 1 := fun completion hmem =>
              Nat.lt_succ_of_le (h.booked.completed_le completion hmem).2
            exact hshown.publish (.ok .empty) hfresh
      | false =>
          rw [act_fire_compile hpending hblank]
          exact ⟨h.booked.await, h.shown.congr rfl rfl rfl⟩

theorem Recorded.complete {history : History} (h : Recorded history) {generation : Nat}
    (hawaited : generation ∈ history.awaited) (outcome : CompileOutcome) :
    Recorded (history.act (.complete generation outcome)) := by
  have hbooked := h.booked.complete hawaited outcome
  rcases Nat.lt_or_ge generation history.scheduler.lastPublished with hstale | hcurrent
  · rw [act_complete_stale hstale]
    exact ⟨hbooked, h.shown.discard outcome hstale⟩
  · rw [act_complete_current hcurrent]
    refine ⟨?_, h.shown.publish outcome (h.lt_of_awaited hawaited hcurrent)⟩
    rw [publish_issued]
    exact hbooked

theorem Recorded.act {history : History} (h : Recorded history) {action : Action}
    (hallowed : history.Allows action) : Recorded (history.act action) := by
  cases action with
  | change source => exact ⟨h.booked, h.shown.congr rfl rfl rfl⟩
  | fire => exact h.fire
  | cancel =>
      rw [History.act, cancel_eq]
      exact ⟨h.booked, h.shown.congr rfl rfl rfl⟩
  | complete generation outcome => exact h.complete hallowed outcome

theorem Recorded.run {history : History} (h : Recorded history) {actions : List Action}
    (hlawful : history.Lawful actions) : Recorded (history.run actions) := by
  induction actions generalizing history with
  | nil => exact h
  | cons action rest ih => exact ih (h.act hlawful.1) hlawful.2

theorem recorded_run {actions : List Action} (h : new.Lawful actions) :
    Recorded (new.run actions) :=
  recorded_new.run h

/-- The phase says no more than the flag and the two counters. -/
def PhaseAgrees (scheduler : Scheduler) : Prop :=
  scheduler.phase = if scheduler.pending then .scheduled else scheduler.settledPhase

theorem phaseAgrees_publish (scheduler : Scheduler) {generation : Nat} (hpos : 0 < generation)
    (outcome : CompileOutcome) : PhaseAgrees (scheduler.publish generation outcome) := by
  rw [PhaseAgrees, publish_phase]
  simp [settledPhase, isCompiling, hpos]

theorem PhaseAgrees.act {history : History} (h : PhaseAgrees history.scheduler)
    (hrecorded : Recorded history) {action : Action} (hallowed : history.Allows action) :
    PhaseAgrees (history.act action).scheduler := by
  cases action with
  | change source => rfl
  | fire =>
      cases hpending : history.scheduler.pending with
      | false =>
          rw [act_fire_idle hpending]
          exact h
      | true =>
          cases hblank : history.scheduler.latestSource.isBlank with
          | true =>
              rw [act_fire_blank hpending hblank]
              exact phaseAgrees_publish _ (Nat.succ_pos _) _
          | false =>
              rw [act_fire_compile hpending hblank]
              have hle := hrecorded.lastPublished_le
              simp [PhaseAgrees, settledPhase, isCompiling, Nat.lt_succ_of_le hle]
  | cancel =>
      rw [History.act, cancel_eq]
      cases hpending : history.scheduler.pending with
      | false => simpa [PhaseAgrees, settledPhase, isCompiling, hpending] using h
      | true => simp [PhaseAgrees, settledPhase, isCompiling]
  | complete generation outcome =>
      rcases Nat.lt_or_ge generation history.scheduler.lastPublished with hstale | hcurrent
      · rw [act_complete_stale hstale]
        exact h
      · rw [act_complete_current hcurrent]
        have hpos := (hrecorded.booked.awaited_le generation hallowed).1
        exact phaseAgrees_publish _ hpos _

theorem phaseAgrees_run {actions : List Action} (h : new.Lawful actions) :
    PhaseAgrees (new.run actions).scheduler := by
  induction actions using List.reverseRecOn with
  | nil => rfl
  | append_singleton front last ih =>
      rw [lawful_append] at h
      rw [run_append]
      exact (ih h.1).act (recorded_run h.1) h.2.1

end History

end Scheduler

end MarkupPreview
