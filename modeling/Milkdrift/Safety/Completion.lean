/-
Purpose: When a workflow is completed, and when a start is computed from a waiting record.
Trusted boundary: Codec, Contracts
-/
import Milkdrift.Deployment
import Milkdrift.Safety.Coherence

variable {id : TaskId}

namespace Milkdrift

open SortedMap List

section

/-- What completion means: it was asked for, no question is open, all work is settled, every obligation is
met by its own task or by an adopted correction, and no model response waits for a decision. -/
structure WorkflowRecord.Finished (record : WorkflowRecord) : Prop where
  requested : record.finishWhenSettled = true
  unasked : record.waitQuestion = none
  settled : ∀ id task, record.tasks.get? id = some task → task.removed = false → task.state.isSettled = true
  obligations : ∀ id task, record.tasks.get? id = some task → task.removed = false →
    task.definition.required = true → task.state = .completed ∨
      ∃ correction done, task.adoptedCorrection = some correction ∧
        record.tasks.get? correction = some done ∧ done.state = .completed
  admitted : ∀ source admission, record.admissions.get? source = some admission →
    admission.status ≠ .pending ∧ admission.status ≠ .rejected

variable {record : WorkflowRecord} {task : TaskRecord}

theorem isAdopted_iff : Policy.isAdopted record task = true ↔ ∃ correction done,
      task.adoptedCorrection = some correction ∧ record.tasks.get? correction = some done ∧
        done.state = .completed := by
  simp only [Policy.isAdopted, Option.any_eq_true, Option.bind_eq_some_iff, decide_eq_true_iff]
  constructor
  · rintro ⟨done, ⟨correction, adopted, found⟩, completed⟩
    exact ⟨correction, done, adopted, found, completed⟩
  · rintro ⟨correction, done, adopted, found, completed⟩
    exact ⟨done, ⟨correction, adopted, found⟩, completed⟩

theorem finished_of_completed (completed : aggregateState record = .completed) : record.Finished := by
  unfold aggregateState at completed
  simp only at completed
  split at completed
  · cases completed
  · split at completed
    next conditions =>
      simp only [Bool.and_eq_true, Bool.not_eq_true', all_eq_true, Option.isNone_iff_eq_none]
        at conditions
      obtain ⟨⟨⟨⟨settled, met⟩, requested⟩, unasked⟩, decided⟩ := conditions
      refine ⟨requested, unasked, fun id task found _ => ?_, fun id task found kept required => ?_,
        fun source admission found => ?_⟩
      · exact settled task ((mem_values_iff _).mpr ⟨id, found⟩)
      · have member : task ∈ record.tasks.values.filter fun task =>
            task.definition.required && !task.removed :=
          mem_filter.mpr ⟨(mem_values_iff _).mpr ⟨id, found⟩, by simp [required, kept]⟩
        have obliged := all_eq_true.mp met task member
        rw [Bool.or_eq_true, decide_eq_true_iff] at obliged
        exact obliged.imp_right isAdopted_iff.mp
      · have open_ := any_eq_false.mp decided admission ((mem_values_iff _).mpr ⟨source, found⟩)
        constructor <;>
        · intro status
          rw [status] at open_
          exact open_ rfl
    · split at completed
      · cases completed
      · split at completed <;> cases completed

/-! ### The stored state -/

def WorkflowRecord.Derived (record : WorkflowRecord) : Prop :=
  record.state = aggregateState record

theorem aggregateState_queued (found : record.tasks.get? id = some task)
    (queued : ∀ task ∈ record.tasks.values, task.state = .queued) :
    aggregateState record = .waiting := by
  have member := (mem_values_iff _).mpr ⟨id, found⟩
  have absent : ∀ state, state ≠ TaskState.queued →
      record.tasks.values.any (fun task => task.state = state) = false := fun state other =>
    any_eq_false.mpr fun task inside => by simp [queued task inside, other.symm]
  have unsettled : record.tasks.values.all (fun task => task.state.isSettled) = false :=
    all_eq_false.mpr ⟨task, member, by simp [queued task member, TaskState.isSettled]⟩
  have unstopped : record.tasks.values.all (fun task => task.state = .stopped) = false :=
    all_eq_false.mpr ⟨task, member, by simp [queued task member]⟩
  simp [aggregateState, absent .running (by simp), absent .uncertain (by simp),
    absent .failed (by simp), unsettled, unstopped]

theorem createdTasks_nonempty {aliases : SortedMap TaskId TaskId} {now : TimestampMillis}
    {added : List NewTask} {tasks created : SortedMap TaskId TaskRecord}
    (done : Admission.createdTasks aliases now added tasks = .ok created)
    (named : added ≠ [] ∨ ∃ id task, tasks.get? id = some task) :
    ∃ id task, created.get? id = some task := by
  induction added generalizing tasks with
  | nil =>
    cases done
    exact named.resolve_left fun absent => absent rfl
  | cons task rest ih =>
    simp only [Admission.createdTasks, except_bind_eq_ok] at done
    obtain ⟨id, _, done⟩ := done
    exact ih done (.inr ⟨id, _, by rw [get?_insert, if_pos rfl]⟩)

variable [Codec]

/-- A new workflow waits, and that is what its queued tasks say. -/
theorem Created.derived (created : Created record) : record.Derived := by
  have queued : ∀ task ∈ record.tasks.values, task.state = .queued := by
    intro task member
    obtain ⟨id, found⟩ := (mem_values_iff _).mp member
    obtain ⟨_, _, rfl⟩ := created.queued found
    rfl
  obtain ⟨_, _, _, _, _, _, _, _, named, done, _, rfl⟩ := created
  obtain ⟨id, task, found⟩ := createdTasks_nonempty done (.inl named)
  exact (aggregateState_queued found queued).symm

/-- Every save derives the state after everything else it changes. -/
theorem Transition.derived {base next : WorkflowRecord} {cause : Cause}
    (transition : Transition base cause next) : next.Derived := by
  obtain ⟨now, reason, body, _, _, _, rfl⟩ := transition
  unfold WorkflowRecord.Derived transitioned
  simp only
  split <;> rfl

/-! ### Every run -/

variable [Contracts] {settings : RuntimeSettings} {config : (daemon settings).Config}

/-- In every saved record the stored state is the derived one, and a completed workflow is finished. -/
theorem completion_sound (reached : Reached settings config) {workflow : WorkflowId} {save : Save}
    (member : save ∈ config.shared.history workflow) :
    save.record.state = aggregateState save.record ∧
      (save.record.state = .completed → save.record.Finished) := by
  have derived : save.record.Derived := by
    rcases reached.history workflow with none | ⟨_, _, _, history⟩
    · rw [none] at member
      cases member
    · exact history.invariant_mem (fun _ => True) WorkflowRecord.Derived (fun _ => Created.derived)
        (fun _ _ _ _ _ transition => transition.derived) (fun _ _ => trivial) member
  exact ⟨derived, fun completed => finished_of_completed (derived.symm.trans completed)⟩

end

open Deployment

/-- A workflow whose only task succeeded is completed, and finished. -/
theorem completion_of_success : ∃ config, Reached Deployment.settings config ∧
    ∃ save ∈ config.shared.history created, save.record.state = .completed ∧ save.record.Finished := by
  obtain ⟨config, reached, save, member, completed⟩ : ∃ config, Reached Deployment.settings config ∧
      ∃ save ∈ config.shared.history created, save.record.state = .completed :=
    Deployment.reached _ oneSuccess (by decide +kernel)
  exact ⟨config, reached, save, member, completed, (completion_sound reached member).2 completed⟩

end Milkdrift

namespace Milkdrift

section

variable [Codec] {base next : WorkflowRecord} {cause : Cause}

/-! ### Starts, read off the records -/

structure Save.Starts (save : Save) (base : WorkflowRecord) (id : TaskId) : Prop where
  prior : save.prior = some base
  queued : ∃ task, base.tasks.get? id = some task ∧ task.state = .queued ∧ task.frozen = none
  running : ∃ task, save.record.tasks.get? id = some task ∧ task.state = .running

omit [Codec] in
theorem Save.starts_iff {save : Save} {base : WorkflowRecord} :
    save.Starts base id ↔ save.prior = some base ∧
      (base.tasks.get? id).any (fun task => task.state = .queued ∧ task.frozen = none) = true ∧
      (save.record.tasks.get? id).any (fun task => task.state = .running) = true := by
  simp only [Option.any_eq_true, decide_eq_true_eq]
  exact ⟨fun starts => ⟨starts.1, starts.2, starts.3⟩, fun ⟨prior, queued, running⟩ =>
    ⟨prior, queued, running⟩⟩

instance (save : Save) (base : WorkflowRecord) (id : TaskId) : Decidable (save.Starts base id) :=
  decidable_of_iff _ Save.starts_iff.symm

theorem Move.idle {guard : TaskRecord → Prop} {charge : Nat} {old new : TaskRecord}
    (move : Move guard cause id charge old new) (other : cause ≠ .start id)
    (idle : old.frozen = none ∧ old.state ≠ .running) : new.frozen = none ∧ new.state ≠ .running := by
  refine ⟨move.frozen_by_start other idle.1, ?_⟩
  obtain ⟨future, still⟩ := idle
  cases move with
  | start => exact absurd rfl other
  | note | redefine => exact still
  | remove | refuse | requeue | defer => exact TaskState.noConfusion
  | stop _ unsettled => simp [Admission.stoppedTask, unsettled, future]
  | finish state _ _ _ _ _ final =>
    rintro rfl
    cases final
  | charge _ frozen | resume _ frozen | enter _ _ _ frozen | report _ _ _ frozen =>
    rw [future] at frozen
    cases frozen
  | doubt _ _ _ done =>
    obtain ⟨_, _, frozen, _⟩ := uncertainTask_ok done
    rw [future] at frozen
    cases frozen

theorem Transition.cause_of_starts (transition : Transition base cause next)
    (starts : Save.Starts ⟨some base, cause, next⟩ base id) : cause = .start id := by
  by_contra other
  obtain ⟨_, ⟨task, found, queued, future⟩, task', found', running⟩ := starts
  obtain ⟨_, _, evolution⟩ := transition.effect_always.tasks
  obtain ⟨_, reached, present, path⟩ := evolution.lookup found
  have same : reached = task' := Option.some.inj (present.symm.trans found')
  have still : reached.frozen = none ∧ reached.state ≠ .running :=
    path.preserves (fun _ _ _ move idle => move.idle other idle)
      ⟨future, by rw [queued]; exact TaskState.noConfusion⟩
  exact still.2 (same ▸ running)

/-! ### The wait a failed preparation raises -/

theorem Transition.exhausted (transition : Transition base cause next)
    (exhausts : Policy.lineageStop next ≠ .ok none) : next.waitQuestion.isSome = true := by
  obtain ⟨now, reason, body, step, stop, _, rfl⟩ := transition
  rw [lineageStop_transitioned] at exhausts
  have raised : reason.isSome = true := by
    unfold Policy.stopReason at stop
    split at stop
    · cases stop
      rfl
    · cases reason with
      | none => exact absurd stop exhausts
      | some => rfl
  have waits : (transitioned cause now reason body).waitQuestion = policyWait reason body.waitQuestion := by
    rw [transitioned_eq]
  rw [waits]
  cases asked : body.waitQuestion <;> simp [policyWait, raised]

def ExhaustionAnswered (before : List Save) : Prop :=
  ∀ front failed back, before = front ++ failed :: back → failed.Exhausts →
    ∃ later ∈ back, later.cause.isEdit = true

/-- In one history, a start is computed from a record without a wait exactly when every exhausted lineage
before it was answered. -/
theorem History.unpaused_iff {before : List Save} (history : History before base)
    (rule : Rule before base (.start id)) : base.waitQuestion = none ↔ ExhaustionAnswered before := by
  constructor
  · rintro unpaused front failed back located exhausts
    by_contra unanswered
    have plain : ∀ save ∈ back, save.cause.isEdit = false := fun save member => by
      by_contra edit
      exact unanswered ⟨save, member, by simpa using edit⟩
    have raised : failed.record.waitQuestion.isSome = true := by
      obtain ⟨_, ⟨_, _, cause, _⟩ | ⟨_, _, _, transition, _⟩⟩ := history.split located
      · obtain ⟨⟨task, cause'⟩, _⟩ := exhausts
        rw [cause'] at cause
        cases cause
      · exact transition.exhausted exhausts.2
    -- the wait stands through every save that is no edit
    have waiting := (history.onward (fun save => save.cause.isEdit = false)
      (fun record => record.waitQuestion.isSome = true)
      (fun _ _ _ standing other transition => transition.effect_always.wait other standing)
      located plain raised).1
    rw [unpaused] at waiting
    cases waiting
  · intro answered
    rcases rule.start id rfl with unpaused | ⟨failed, member, exhausts, unanswered⟩
    · exact unpaused
    · obtain ⟨front, back, located⟩ := List.append_of_mem member
      obtain ⟨later, inside, edit⟩ := answered front failed back located exhausts
      have ordered := history.sorted
      rw [located, List.pairwise_append, List.pairwise_cons] at ordered
      have after := ordered.2.1.1 later inside
      rw [unanswered later (by rw [located]; simp [inside]) after] at edit
      cases edit

/-! ### Every run -/

variable [Contracts] {settings : RuntimeSettings} {config : (daemon settings).Config}

/-- In every run, a save that starts a task is computed from a record without a wait exactly when every
failed preparation that used up its lineage before was answered by an accepted edit. -/
theorem start_unpaused_iff (reached : Reached settings config) {workflow : WorkflowId}
    {before after : List Save} {save : Save} {id : TaskId}
    (located : config.shared.history workflow = before ++ save :: after) (starts : save.Starts base id) :
    base.waitQuestion = none ↔ ExhaustionAnswered before := by
  obtain ⟨_, _, _, history⟩ := reached.recorded located
  obtain ⟨_, ⟨_, absent, _⟩ | ⟨base', prior, earlier, transition, rule⟩⟩ := history.split located
  · exact absurd (absent.symm.trans starts.prior) (by simp)
  · obtain rfl : base' = base := Option.some.inj (prior.symm.trans starts.prior)
    have cause : save.cause = .start id := transition.cause_of_starts { starts with prior := rfl }
    rw [cause] at rule
    exact earlier.unpaused_iff rule

end

open Deployment

/-- A start from a record that does not wait: nothing had failed before. -/
theorem start_unpaused_oneStart : ∃ (config : (daemon Deployment.settings).Config)
    (before after : List Save) (save : Save) (base : WorkflowRecord) (id : TaskId),
    Reached Deployment.settings config ∧ config.shared.history created = before ++ save :: after ∧
      save.Starts base id ∧ base.waitQuestion = none ∧ ExhaustionAnswered before := by
  obtain ⟨config, reached, save, member, base, _, id, _, starts, unpaused⟩ :
      ∃ config, Reached Deployment.settings config ∧
      ∃ save ∈ config.shared.history created, ∃ base ∈ save.prior.toList, ∃ id ∈ base.tasks.keys,
        save.Starts base id ∧ base.waitQuestion = none :=
    Deployment.reached _ oneStart (by decide +kernel)
  obtain ⟨before, after, located⟩ := List.append_of_mem member
  exact ⟨config, before, after, save, base, id, reached, located, starts, unpaused,
    (start_unpaused_iff reached located starts).mp unpaused⟩

/-! ### A start while the workflow waits -/

/-- Two tasks in a workflow that tolerates no failure. The tick cannot prepare the first for good; the
save of that failure raises the wait, and the same tick starts the second. -/
def failingTick : List (daemon Deployment.settings).Act :=
  call 0 (create { WorkflowLimits.default with correctiveFailures := 1 }
      [⟨firstTask, definition []⟩, ⟨secondTask, definition []⟩]) (granting 5 "task" 10) ++
    [.spawn tick, .serve 1 (apartFrom unselected (granting 6 "id" 10))
        (commits fun cause => cause matches .prepareFailed _) 100,
      .serve 1 (granting 6 "id" 10) never 100]

/-- A tick starts a task of a workflow that waits. -/
theorem start_while_waiting : ¬ ∀ config, Reached Deployment.settings config →
    ∀ save ∈ config.shared.history created, ∀ base id, save.Starts base id → base.waitQuestion = none := by
  intro unpaused
  obtain ⟨config, reached, save, member, base, _, id, _, starts, waits⟩ :
      ∃ config, Reached Deployment.settings config ∧
      ∃ save ∈ config.shared.history created, ∃ base ∈ save.prior.toList, ∃ id ∈ base.tasks.keys,
        save.Starts base id ∧ base.waitQuestion ≠ none :=
    Deployment.reached _ failingTick (by decide +kernel)
  exact waits (unpaused config reached save member base id starts)

end Milkdrift
