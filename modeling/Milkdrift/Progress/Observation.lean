/-
Purpose: Charging the clocks of a record up to a time, run alone.
Trusted boundary: Codec
-/
import Milkdrift.Progress.Alone
import Milkdrift.Progress.Pages
import Milkdrift.Safety.Readability

namespace Milkdrift

open Action Duration SortedMap Option

/-! ### Charging the clocks -/

inductive Charged (now : TimestampMillis) : TaskRecord → TaskRecord → Prop
  | idle {task : TaskRecord} (still : task.state.isSettled = true ∨ task.duration = none) :
      Charged now task task
  | clocked {task : TaskRecord} {start : FrozenTaskStart} {duration : TaskExecutionDuration}
      (unsettled : task.state.isSettled = false) (frozen : task.frozen = some start)
      (clock : start.executionDuration = some duration) (passed : duration.accountedAt ≤ now) :
      Charged now task { task with frozen := some { start with
        executionDuration := some { duration with accountedAt := now } } }

theorem accrueTask_charged {now : TimestampMillis} {task task' : TaskRecord} {account account' : Nat × Bool}
    (done : accrueTask now task account = .ok (task', account')) : Charged now task task' := by
  rcases accrueTask_cases done with ⟨rfl, _, still⟩ |
    ⟨start, duration, elapsed, unsettled, frozen, clock, passed, rfl, _⟩
  · exact .idle still
  · exact .clocked unsettled frozen clock (Nat.le.intro passed.symm)

theorem accrue_charged {record accrued : WorkflowRecord} {now : TimestampMillis} {changed : Bool}
    (done : accrue record now = .ok (accrued, changed)) (id : TaskId) :
    Option.Rel (Charged now) (record.tasks.get? id) (accrued.tasks.get? id) := by
  obtain ⟨tasks, ledger, rfl, traversed⟩ := accrue_ok done
  have visited := get?_mapFoldM traversed id
  simp only
  generalize record.tasks.get? id = old at visited
  generalize tasks.get? id = new at visited
  cases visited with
  | none => exact .none
  | some visit =>
    obtain ⟨_, _, visit⟩ := visit
    exact .some (accrueTask_charged visit)

/-! ### Observation, run alone -/

variable [Codec]

structure ObservedAt (read : WorkflowRecord) (at_ : TimestampMillis) (observed : WorkflowRecord) where
  accrued : WorkflowRecord
  changed : Bool
  reason : Option String
  charged : Duration.accrue read at_ = .ok (accrued, changed)
  policy : reason = none ∨ Policy.stopReason read = .ok reason
  limits : observed.limits = read.limits
  ledger : observed.activeExecutionMs = accrued.activeExecutionMs
  tasks : ∀ id, observed.tasks.get? id = (accrued.tasks.get? id).map fun task =>
    policyStop reason (Duration.requestStop (Duration.mustStop (Duration.remaining accrued == 0)) task)

variable {read observed : WorkflowRecord} {at_ : TimestampMillis}

/-- Whether the observation was saved or nothing had changed, it left an observed record. -/
theorem observedAt [Contracts] {settings : RuntimeSettings} {thread : Nat} {shared final : Shared}
    (ended : (daemon settings).Alone thread (observeDuration read at_) shared (.ok observed) final) :
    Nonempty (ObservedAt read at_ observed) := by
  obtain ⟨accrued, changed, charged, ⟨_, _, rfl⟩ | ⟨_, saved⟩⟩ := alone_observeDuration_iff.mp ended
  · obtain ⟨_, limits, _⟩ := accrue_lineage charged
    refine ⟨accrued, changed, none, charged, .inl rfl, limits, rfl, fun id => ?_⟩
    simp only [requestLimitStop, get?_mapValues, policyStop_none]
  · obtain ⟨now, _, advanced, _⟩ := alone_advanceAndSave_iff.mp saved
    obtain ⟨reason, found, _, rfl⟩ := advanceAt_ok advanced
    obtain ⟨same, limits, rejected, _⟩ := accrue_lineage charged
    obtain ⟨same', limits', rejected', _⟩ := durationStop_lineage accrued
    refine ⟨accrued, changed, reason, charged, .inr ?_, limits, rfl, fun id => ?_⟩
    · rw [← stopReason_view (same'.trans same) (limits'.trans limits) (rejected'.trans rejected)]
      exact found
    · simp only [boundary, requestLimitStop, get?_mapValues, map_map]
      rfl

namespace ObservedAt

variable {read observed : WorkflowRecord} {at_ : TimestampMillis}

section
omit [Codec]

theorem stop_duration (must : TaskRecord → Bool) (task : TaskRecord) :
    (requestStop must task).duration = task.duration ∧ (requestStop must task).frozen = task.frozen ∧
      (requestStop must task).state = task.state ∧
      ((requestStop must task).stopRequested = true → task.stopRequested = true ∨ must task = true) := by
  unfold requestStop
  split
  · exact ⟨rfl, rfl, rfl, fun _ => .inr (by assumption)⟩
  · exact ⟨rfl, rfl, rfl, .inl⟩

/-- An open execution when it is observed: its clock stands at the time of the observation, and a stop
request was there before, or the ledger is exhausted, or its own maximum has passed, or the policy
asks for it. -/
theorem clocked (observation : ObservedAt read at_ observed) {id : TaskId} {task : TaskRecord}
    {start : FrozenTaskStart} {duration : TaskExecutionDuration}
    (found : read.tasks.get? id = some task) (unsettled : task.state.isSettled = false)
    (frozen : task.frozen = some start) (clock : start.executionDuration = some duration) :
    ∃ task', observed.tasks.get? id = some task' ∧ task'.state = task.state ∧
      task'.frozen = some { start with
        executionDuration := some { duration with accountedAt := at_ } } ∧
      duration.accountedAt ≤ at_ ∧
      (task'.stopRequested = true → task.stopRequested = true ∨ remaining observed = 0 ∨
        duration.startedAt + duration.maximumMs ≤ at_ ∨
        ∃ reason, Policy.stopReason read = .ok (some reason)) := by
  have related := accrue_charged observation.charged id
  have here := observation.tasks id
  rw [found] at related
  cases charged : observation.accrued.tasks.get? id with
  | none =>
    rw [charged] at related
    cases related
  | some middle =>
    rw [charged] at related here
    cases related with
    | some visit =>
      cases visit with
      | idle still =>
        rcases still with settled | none
        · rw [settled] at unsettled
          cases unsettled
        · simp [TaskRecord.duration, frozen, clock] at none
      | @clocked start' duration' _ frozen' clock' passed =>
        rw [frozen] at frozen'
        cases frozen'
        rw [clock] at clock'
        cases clock'
        obtain ⟨_, kept, state, asked⟩ := stop_duration (fun task =>
          observation.reason.isSome && Policy.mustStop task) (requestStop
            (mustStop (remaining observation.accrued == 0)) { task with
              frozen := some { start with
                executionDuration := some { duration with accountedAt := at_ } } })
        obtain ⟨_, kept', state', asked'⟩ := stop_duration
          (mustStop (remaining observation.accrued == 0)) { task with
              frozen := some { start with
                executionDuration := some { duration with accountedAt := at_ } } }
        refine ⟨_, here, state.trans state', kept.trans kept', passed, fun stopped => ?_⟩
        rcases asked stopped with earlier | policy
        · rcases asked' earlier with before | limit
          · exact .inl before
          · right
            simp only [mustStop, Bool.and_eq_true, Bool.or_eq_true, beq_iff_eq] at limit
            rcases limit.1.1.1 with spent | elapsed
            · left
              rw [remaining, observation.limits, observation.ledger]
              obtain ⟨_, limits, _⟩ := accrue_lineage observation.charged
              rw [← limits]
              exact spent
            · right
              left
              simp only [elapsedLimit, TaskRecord.duration, bind_some,
                any_some, Bool.and_eq_true, any_eq_true,
                checkedSub_eq_some_iff, decide_eq_true_eq] at elapsed
              obtain ⟨_, shown, passed, spent⟩ := elapsed
              rw [passed]
              exact Nat.add_le_add_left spent _
        · right
          right
          right
          simp only [Bool.and_eq_true] at policy
          obtain ⟨reason, given⟩ := isSome_iff_exists.mp policy.1
          rcases observation.policy with none | reasoned
          · rw [given] at none
            cases none
          · exact ⟨reason, given ▸ reasoned⟩

end

end ObservedAt

variable [Contracts] {settings : RuntimeSettings} {thread : Nat} {shared final : Shared}

theorem stored_of_observed {id : WorkflowId} {row : WorkflowSnapshot}
    (ended : (daemon settings).Alone thread (observeDuration read at_) shared (.ok observed) final)
    (keyed : shared.store.Keyed) (stored : shared.store.rows.get? id = some row)
    (readable : readRow row = .ok read) :
    ∃ row', final.store.rows.get? id = some row' ∧ row'.document = observed := by
  obtain ⟨same, named, _⟩ := readRow_ok readable
  obtain ⟨accrued, changed, charged, ⟨quiet, rfl, rfl⟩ | ⟨_, saved⟩⟩ :=
    alone_observeDuration_iff.mp ended
  · rw [Bool.or_eq_false_iff] at quiet
    obtain ⟨quiet, rfl⟩ := quiet
    rw [durationStop_unchanged quiet, accrue_unchanged charged]
    exact ⟨row, stored, same.symm⟩
  · obtain ⟨now, _, advanced, ⟨saves⟩⟩ := alone_advanceAndSave_iff.mp saved
    obtain ⟨reason, _, _, rfl⟩ := advanceAt_ok advanced
    obtain ⟨tasks, ledger, rfl, _⟩ := accrue_ok charged
    obtain ⟨document, rows⟩ := saves.stored
    refine ⟨saves.snapshot, ?_, document⟩
    have put : read.id = id := named.trans (keyed id row stored)
    rw [rows, get?_insert]
    exact if_pos put.symm

omit [Codec] [Contracts] in
theorem respond_clock {shared next : Shared} {op : Request} {reply : Reply} {answer : op.Answer}
    (answered : respond shared thread op reply = some (answer, next)) (told : at_ ∈ shared.clock) :
    at_ ∈ next.clock := by
  cases sort : op.timeless with
  | true =>
    rw [(respond_timeless sort answered).2.1]
    exact told
  | false =>
    cases op with
    | now =>
      rcases respond_now answered with ⟨_, _, rfl⟩ | ⟨_, _, rfl⟩
      · exact told
      · exact List.mem_cons_of_mem _ told
    | readWorkflow id =>
      cases reply <;> cases answered <;> exact told
    | commit commit =>
      rcases respondCommit_cases answered with ⟨rfl, _⟩ | ⟨_, rfl, _⟩ <;> exact told
    | _ => cases sort

end Milkdrift
