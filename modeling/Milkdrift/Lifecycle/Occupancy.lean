/-
Purpose: How saves change a workflow's open starts, and its running or uncertain tasks.
Trusted boundary: Codec
-/
import Milkdrift.Lifecycle.Refinement

namespace Milkdrift

open Scheduling SortedMap Duration TaskRecord

def TaskRecord.isOpen (task : TaskRecord) : Bool := task.frozen.isSome && !task.state.isSettled

def TaskRecord.occupies (task : TaskRecord) : Bool :=
  task.state = .running || task.state = .uncertain

theorem length_filter_eq_sum {α : Type} (keep : α → Bool) (members : List α) :
    (members.filter keep).length = (members.map fun member => (keep member).toNat).sum := by
  induction members with
  | nil => rfl
  | cons member rest ih =>
    cases kept : keep member <;> simp [kept, ih, Nat.add_comm]

theorem activeStarts_eq (record : WorkflowRecord) :
    activeStarts record = record.tasks.sumOf fun task => task.isOpen.toNat :=
  length_filter_eq_sum _ _

theorem occupying_eq (record : WorkflowRecord) :
    occupying record = record.tasks.sumOf fun task => task.occupies.toNat :=
  length_filter_eq_sum _ _

/-! ### Saved records -/

theorem policyStop_same (reason : Option String) (task : TaskRecord) :
    (policyStop reason task).isOpen = task.isOpen ∧ (policyStop reason task).occupies = task.occupies := by
  unfold policyStop requestStop
  split <;> exact ⟨rfl, rfl⟩

section

variable (cause : Cause) (now : TimestampMillis) (reason : Option String) (body : WorkflowRecord)

/-- The boundary of a save changes neither count. -/
theorem activeStarts_transitioned :
    activeStarts (transitioned cause now reason body) = activeStarts body := by
  rw [activeStarts_eq, activeStarts_eq, transitioned_tasks, sumOf_mapValues]
  exact sumOf_congr _ fun _ task _ => by rw [(policyStop_same reason task).1]

theorem occupying_transitioned : occupying (transitioned cause now reason body) = occupying body := by
  rw [occupying_eq, occupying_eq, transitioned_tasks, sumOf_mapValues]
  exact sumOf_congr _ fun _ task _ => by rw [(policyStop_same reason task).2]

end

variable {record : WorkflowRecord} {task : TaskRecord} (change : TaskRecord → TaskRecord)
  {id : TaskId}

theorem activeStarts_modifyTask (found : record.tasks.get? id = some task) :
    activeStarts (record.modifyTask id change) + task.isOpen.toNat =
      activeStarts record + (change task).isOpen.toNat := by
  rw [activeStarts_eq, activeStarts_eq]
  exact sumOf_modify _ change (fun task => task.isOpen.toNat) found

theorem occupying_modifyTask (found : record.tasks.get? id = some task) :
    occupying (record.modifyTask id change) + task.occupies.toNat =
      occupying record + (change task).occupies.toNat := by
  rw [occupying_eq, occupying_eq]
  exact sumOf_modify _ change (fun task => task.occupies.toNat) found

theorem occupying_modifyTask_le (record : WorkflowRecord) (id : TaskId) (change : TaskRecord → TaskRecord) :
    occupying (record.modifyTask id change) ≤ occupying record + 1 ∧
      ((∀ task, (change task).occupies = true → task.occupies = true) →
        occupying (record.modifyTask id change) ≤ occupying record) := by
  cases found : record.tasks.get? id with
  | none =>
    have same : record.tasks.modify id change = record.tasks := ext_get? fun other => by
      rw [get?_modify]
      split
      next here =>
        rw [here, found]
        rfl
      · rfl
    have unchanged : occupying (record.modifyTask id change) = occupying record := by
      rw [occupying_eq, occupying_eq, WorkflowRecord.modifyTask, same]
    exact ⟨by omega, fun _ => Nat.le_of_eq unchanged⟩
  | some task =>
    have counted := occupying_modifyTask change found
    have most := Bool.toNat_le (change task).occupies
    refine ⟨by omega, fun keeps => ?_⟩
    have least : (change task).occupies.toNat ≤ task.occupies.toNat := by
      cases changed : (change task).occupies with
      | false => exact Nat.zero_le _
      | true => rw [keeps task changed]
    omega

/-! ### Charging the clocks -/

/-- A charge leaves the state of a task, and whether it has a start. -/
theorem accrueTask_same {now : TimestampMillis} {task' : TaskRecord} {account account' : Nat × Bool}
    (done : accrueTask now task account = .ok (task', account')) :
    task'.isOpen = task.isOpen ∧ task'.occupies = task.occupies := by
  rcases accrueTask_cases done with ⟨rfl, _, _⟩ | ⟨start, duration, _, _, frozen, _, _, rfl, _⟩
  · exact ⟨rfl, rfl⟩
  · exact ⟨by simp [isOpen, frozen], rfl⟩

theorem accrue_counts {accrued : WorkflowRecord} {now : TimestampMillis} {changed : Bool}
    (done : accrue record now = .ok (accrued, changed)) :
    activeStarts (requestLimitStop accrued).1 = activeStarts record ∧
      occupying (requestLimitStop accrued).1 = occupying record := by
  obtain ⟨tasks, ledger, rfl, traversed⟩ := accrue_ok done
  have counts : ∀ view : TaskRecord → Bool,
      (∀ task task' account account', accrueTask now task account = .ok (task', account') →
        view task' = view task) →
      (∀ must task, view (requestStop must task) = view task) →
      (tasks.mapValues (requestStop (mustStop
          (remaining { record with tasks, activeExecutionMs := ledger } == 0)))).sumOf
            (fun task => (view task).toNat) = record.tasks.sumOf fun task => (view task).toNat := by
    intro view charged stopped
    rw [sumOf_mapValues]
    simp only [stopped]
    have same : tasks.mapValues view = record.tasks.mapValues view := by
      refine ext_get? fun id => ?_
      have related := get?_mapFoldM traversed id
      rw [get?_mapValues, get?_mapValues]
      generalize record.tasks.get? id = old at related
      generalize tasks.get? id = new at related
      cases related with
      | none => rfl
      | some visited =>
        obtain ⟨_, _, visited⟩ := visited
        exact congrArg some (charged _ _ _ _ visited)
    rw [← sumOf_mapValues tasks view Bool.toNat, same, sumOf_mapValues]
  have asked : ∀ must (task : TaskRecord), (requestStop must task).isOpen = task.isOpen ∧
      (requestStop must task).occupies = task.occupies := by
    intro must task
    unfold requestStop
    split <;> exact ⟨rfl, rfl⟩
  rw [activeStarts_eq, activeStarts_eq, occupying_eq, occupying_eq]
  exact ⟨counts isOpen (fun _ _ _ _ done => (accrueTask_same done).1)
      fun must task => (asked must task).1,
    counts occupies (fun _ _ _ _ done => (accrueTask_same done).2) fun must task => (asked must task).2⟩

/-! ### Open starts along a save -/

section

variable [Codec] {base next : WorkflowRecord} {cause : Cause} {old : TaskRecord}

theorem Move.isOpen_by_start {charge : Nat} {new : TaskRecord}
    (move : Move (fun task => task.state.isSettled = false) cause id charge old new)
    (other : cause ≠ .start id) (opened : new.isOpen = true) : old.isOpen = true := by
  simp only [isOpen, Bool.and_eq_true, Bool.not_eq_true'] at opened ⊢
  obtain ⟨frozen, unsettled⟩ := opened
  constructor
  · by_contra future
    rw [move.frozen_by_start other (by simpa using future)] at frozen
    cases frozen
  · by_contra settled
    have kept := move.settlement (fun _ guarded => guarded) (by simpa using settled)
    have same : new.state = old.state := congrArg Prod.fst kept
    rw [same] at unsettled
    exact settled unsettled

theorem Path.isOpen_by_start {spent : Nat} {new : TaskRecord}
    (path : Path (Move (fun task => task.state.isSettled = false) cause id) old spent new)
    (other : cause ≠ .start id) (opened : new.isOpen = true) : old.isOpen = true := by
  induction path with
  | refl => exact opened
  | tail _ taken ih => exact ih (taken.isOpen_by_start other opened)

theorem Effect.isOpen_of {task : TaskRecord}
    (effect : Effect (fun task => task.state.isSettled = false) cause base next)
    (other : cause ≠ .start id) (found : next.tasks.get? id = some task) (opened : task.isOpen = true) :
    ∃ old, base.tasks.get? id = some old ∧ old.isOpen = true := by
  obtain ⟨_, _, evolution⟩ := effect.tasks
  cases known : base.tasks.get? id with
  | some old =>
    obtain ⟨_, new, present, path⟩ := evolution.lookup known
    rw [found] at present
    cases present
    exact ⟨old, rfl, path.isOpen_by_start other opened⟩
  | none =>
    obtain ⟨_, first, ⟨_, definition, now, rfl⟩, path⟩ := evolution.lookup_new known found
    cases path.isOpen_by_start other opened

def Cause.scheduled : Cause → Bool
  | .observe | .policyStop | .redispatch _ | .explain _ | .start _ | .prepareFailed _ => true
  | _ => false

theorem Transition.activeStarts_le (transition : Transition base cause next)
    (retained : ∀ id, cause ≠ .requeue id) :
    activeStarts next ≤ activeStarts base ∨
      (∃ id, cause = .start id) ∧ activeStarts next = activeStarts base + 1 := by
  by_cases starts : ∃ id, cause = .start id
  · obtain ⟨id, rfl⟩ := starts
    obtain ⟨now, reason, body, step, _, _, rfl⟩ := transition
    rw [activeStarts_transitioned]
    cases step with
    | @start _ task inputs dispatch at_ found queued future =>
      have counted := activeStarts_modifyTask
        (startedTask task.definition inputs dispatch (base.generation + 1) at_) found
      refine .inr ⟨⟨id, rfl⟩, ?_⟩
      simpa [isOpen, future, startedTask, TaskState.isSettled] using counted
  · refine .inl ?_
    have effect : Effect (fun task => task.state.isSettled = false) cause base next :=
      transition.effect fun id _ same => absurd same (retained id)
    rw [activeStarts_eq, activeStarts_eq]
    refine sumOf_le fun id task found => ?_
    cases opened : task.isOpen with
    | false => exact .inl rfl
    | true =>
      obtain ⟨old, present, open_⟩ :=
        effect.isOpen_of (fun same => starts ⟨id, same⟩) found opened
      exact .inr ⟨old, present, by simp [open_]⟩

/-- What a tick saves leaves the bound of the workflow, and only a dispatch occupies it further. -/
theorem Transition.occupying_le (transition : Transition base cause next)
    (scheduled : cause.scheduled = true) :
    concurrencyLimit next = concurrencyLimit base ∧ (occupying next ≤ occupying base ∨
        (∃ id, cause = .start id ∨ cause = .redispatch id) ∧ occupying next = occupying base + 1) := by
  obtain ⟨now, reason, body, step, _, _, rfl⟩ := transition
  have edits : cause.isEdit = false := by cases cause <;> first | rfl | cases scheduled
  have bound : concurrencyLimit (transitioned cause now reason body) = concurrencyLimit base := by
    obtain ⟨_, _, _, _, _, _, _, _, rfl⟩ := step.shape edits
    rw [transitioned_eq]
    rfl
  refine ⟨bound, ?_⟩
  rw [occupying_transitioned]
  cases step with
  | observe charged => exact .inl (Nat.le_of_eq (accrue_counts charged).2)
  | policyStop done =>
    obtain ⟨reason, _, rfl, _⟩ := requestLimitStop_ok done
    refine .inl (Nat.le_of_eq ?_)
    rw [occupying_eq, occupying_eq]
    simp only [sumOf_mapValues, (policyStop_same reason _).2]
  | redispatch found queued =>
    have counted := occupying_modifyTask resumedTask found
    refine .inr ⟨⟨_, .inr rfl⟩, ?_⟩
    simpa [occupies, queued, resumedTask] using counted
  | explain reason found =>
    have counted := occupying_modifyTask (explainedTask reason) found
    exact .inl (Nat.le_of_eq (Nat.add_right_cancel counted))
  | @start _ task inputs dispatch at_ found queued =>
    have counted := occupying_modifyTask
      (startedTask task.definition inputs dispatch (base.generation + 1) at_) found
    refine .inr ⟨⟨_, .inl rfl⟩, ?_⟩
    simpa [occupies, queued, startedTask] using counted
  | prepareFailed reason at_ found queued =>
    have counted := occupying_modifyTask (refusedTask reason at_) found
    refine .inl (Nat.le_of_eq ?_)
    simpa [occupies, queued, refusedTask] using counted
  | entry | defer | finishWithoutEntry | markUncertain | requeue | cancellationSent | report | edit
  | rejectBatch | refuseRepair => cases scheduled

end

end Milkdrift
