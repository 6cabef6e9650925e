/-
Purpose: A record is punctual up to a time when the reader then accepts its starts and clocks.
Trusted boundary: Codec
-/
import Milkdrift.Lifecycle.Refinement

namespace Milkdrift

open SortedMap Scheduling Duration Admission

/-- The times of one task up to `now`: an accepted start has its time, and the reader accepts the
clock. -/
structure TaskRecord.Punctual (now : TimestampMillis) (task : TaskRecord) : Prop where
  started : task.frozen.isSome = true → ∃ at_, task.startedAt = some at_ ∧ at_ ≤ now
  read : Duration.readTask now task = .ok ()

structure WorkflowRecord.Punctual (now : TimestampMillis) (record : WorkflowRecord) : Prop where
  schema : record.schemaVersion = Duration.schemaVersion
  tasks : ∀ id task, record.tasks.get? id = some task → task.Punctual now

variable {now : TimestampMillis}

theorem readTask_iff {task : TaskRecord} :
    readTask now task = .ok () ↔ ∀ start, task.frozen = some start →
      ((start.entered = true ∨ task.state = .uncertain) → start.executionDuration ≠ none) ∧
      ∀ duration, start.executionDuration = some duration →
        (∃ at_, task.startedAt = some at_ ∧ at_ ≤ duration.startedAt) ∧
          duration.startedAt ≤ duration.accountedAt ∧ duration.accountedAt ≤ now := by
  unfold readTask
  cases task.frozen with
  | none => simp
  | some start =>
    cases clock : start.executionDuration with
    | none => simp [clock]
    | some duration => simp [clock, Option.any_eq_true]

theorem readVersion_of_punctual {record : WorkflowRecord} (punctual : record.Punctual record.updatedAt) :
    readVersion record = .ok () := by
  simp only [readVersion, checked_eq_ok_iff, forEach_eq_ok_iff]
  refine ⟨(), punctual.schema, fun task member => ?_⟩
  obtain ⟨id, found⟩ := (mem_values_iff _).mp member
  exact (punctual.tasks id task found).read

namespace TaskRecord.Punctual

variable {now later : TimestampMillis} {task task' : TaskRecord}

theorem mono (punctual : task.Punctual now) (after : now ≤ later) : task.Punctual later := by
  refine ⟨fun frozen => ?_, readTask_iff.mpr fun start frozen => ?_⟩
  · obtain ⟨at_, started, before⟩ := punctual.started frozen
    exact ⟨at_, started, before.trans after⟩
  · obtain ⟨clocked, ordered⟩ := readTask_iff.mp punctual.read start frozen
    refine ⟨clocked, fun duration clock => ?_⟩
    obtain ⟨begun, forward, accounted⟩ := ordered duration clock
    exact ⟨begun, forward, accounted.trans after⟩

/-- Changes that leave the start and its time alone, and introduce no doubt. -/
theorem kept (punctual : task.Punctual now) (frozen : task'.frozen = task.frozen)
    (started : task'.startedAt = task.startedAt)
    (sure : task'.state = .uncertain → task.state = .uncertain) : task'.Punctual now := by
  refine ⟨fun some => ?_, readTask_iff.mpr fun start some => ?_⟩
  · rw [started]
    exact punctual.started (frozen ▸ some)
  · obtain ⟨clocked, ordered⟩ := readTask_iff.mp punctual.read start (frozen ▸ some)
    refine ⟨fun open_ => clocked (open_.imp_right sure), fun duration clock => ?_⟩
    rw [started]
    exact ordered duration clock

theorem unstarted (frozen : task.frozen = none) : task.Punctual now :=
  ⟨fun started => (by rw [frozen] at started; cases started),
    readTask_iff.mpr fun start started => (by rw [frozen] at started; cases started)⟩

theorem requestStop (must : TaskRecord → Bool) (punctual : task.Punctual now) :
    (Duration.requestStop must task).Punctual now := by
  unfold Duration.requestStop
  split
  · exact punctual.kept rfl rfl fun same => same
  · exact punctual

variable (reason : String) (at_ : TimestampMillis)

theorem finishedTask {state : TaskState} (final : state.isSettled = true)
    (punctual : task.Punctual now) : (Effects.finishedTask state reason at_ task).Punctual now :=
  punctual.kept rfl rfl fun doubt => by
    have certain : state = .uncertain := doubt
    rw [certain] at final
    cases final

theorem startedTask (definition : TaskDefinition) (inputs : SortedMap String TaskInputValue)
    (dispatch : ExecutionDispatch) (generation : Nat) (before : now ≤ later) :
    (startedTask definition inputs dispatch generation now task).Punctual later := by
  refine ⟨fun _ => ⟨now, rfl, before⟩, readTask_iff.mpr fun start frozen => ?_⟩
  cases frozen
  refine ⟨fun open_ => ?_, fun _ clock => by cases clock⟩
  rcases open_ with entered | uncertain
  · cases entered
  · cases uncertain

variable {start : FrozenTaskStart}

theorem enteredTask (exact_ : ExecutionDispatch) (maximumMs : Nat) (punctual : task.Punctual now)
    (frozen : task.frozen = some start) :
    (Effects.enteredTask exact_ maximumMs now start task).Punctual now := by
  obtain ⟨at_, started, before⟩ := punctual.started (by rw [frozen]; rfl)
  refine ⟨fun _ => ⟨at_, started, before⟩, readTask_iff.mpr fun entered same => ?_⟩
  cases same
  refine ⟨fun _ => nofun, fun duration clock => ?_⟩
  cases clock
  exact ⟨⟨at_, started, before⟩, Nat.le_refl _, Nat.le_refl _⟩

/-- A doubted start runs its clock from the accepted start. -/
theorem uncertainTask {limit : Nat} {reason : String} (punctual : task.Punctual now)
    (done : Effects.uncertainTask limit reason task = .ok task') : task'.Punctual now := by
  simp only [Effects.uncertainTask, checked_eq_ok_iff] at done
  obtain ⟨start, frozen, done⟩ := done
  have begun := punctual.started (by rw [frozen]; rfl)
  cases known : start.executionDuration with
  | some old =>
    simp only [known, except_bind_eq_ok] at done
    obtain ⟨_, kept, same⟩ := done
    cases kept
    cases same
    refine ⟨fun _ => begun, readTask_iff.mpr fun other same => ?_⟩
    cases same
    refine ⟨fun _ => by simp, fun other clock => ?_⟩
    cases clock
    exact (readTask_iff.mp punctual.read start frozen).2 old known
  | none =>
    simp only [known, checked_eq_ok_iff] at done
    obtain ⟨startedAt, started, _, kept, same⟩ := done
    cases kept
    cases same
    refine ⟨fun _ => begun, readTask_iff.mpr fun other same => ?_⟩
    cases same
    refine ⟨fun _ => by simp, fun other clock => ?_⟩
    cases clock
    obtain ⟨at_, started', before⟩ := begun
    rw [started] at started'
    cases started'
    exact ⟨⟨startedAt, started, Nat.le_refl _⟩, Nat.le_refl _, before⟩

theorem accrueTask {account account' : Nat × Bool} (punctual : task.Punctual now)
    (done : Duration.accrueTask now task account = .ok (task', account')) : task'.Punctual now := by
  rcases accrueTask_cases done with ⟨rfl, _, _⟩ |
    ⟨start, duration, elapsed, _, frozen, clocked, advanced, rfl, _⟩
  · exact punctual
  · obtain ⟨begun, forward, _⟩ := (readTask_iff.mp punctual.read start frozen).2 duration clocked
    have ordered : duration.startedAt ≤ now := forward.trans (Nat.le.intro advanced.symm)
    refine ⟨fun _ => punctual.started (by rw [frozen]; rfl), readTask_iff.mpr fun other same => ?_⟩
    cases same
    refine ⟨fun _ => by simp, fun other clock => ?_⟩
    cases clock
    exact ⟨begun, ordered, Nat.le_refl _⟩

variable [Codec]

theorem reportedTask (event : InvocationEvent) (at_ : TimestampMillis) (punctual : task.Punctual now)
    (frozen : task.frozen = some start) (entered : start.entered = true) :
    (Report.reportedTask event start at_ task).Punctual now := by
  obtain ⟨clocked, ordered⟩ := readTask_iff.mp punctual.read start frozen
  have retained : (Report.reportedTask event start at_ task).frozen =
      some { start with reports := start.reports ++ [event] } := by
    unfold Report.reportedTask
    simp only
    split <;> rfl
  have started : (Report.reportedTask event start at_ task).startedAt = task.startedAt := by
    unfold Report.reportedTask
    simp only
    split <;> rfl
  refine ⟨fun _ => ?_, readTask_iff.mpr fun other same => ?_⟩
  · rw [started]
    exact punctual.started (by rw [frozen]; rfl)
  · rw [retained] at same
    cases same
    rw [started]
    exact ⟨fun _ => clocked (.inl entered), ordered⟩

end TaskRecord.Punctual

namespace WorkflowRecord.Punctual

variable {now later : TimestampMillis} {record : WorkflowRecord}

theorem mono (punctual : record.Punctual now) (after : now ≤ later) : record.Punctual later :=
  ⟨punctual.schema, fun id task found => (punctual.tasks id task found).mono after⟩

theorem modifyTask (punctual : record.Punctual now) {id : TaskId} {change : TaskRecord → TaskRecord}
    (keeps : ∀ task, record.tasks.get? id = some task → task.Punctual now → (change task).Punctual now) :
    (record.modifyTask id change).Punctual now := by
  refine ⟨punctual.schema, fun other task found => ?_⟩
  simp only [WorkflowRecord.modifyTask, get?_modify] at found
  split at found
  · obtain ⟨old, present, rfl⟩ := Option.map_eq_some_iff.mp found
    exact keeps old present (punctual.tasks id old present)
  · exact punctual.tasks other task found

variable {next : WorkflowRecord} {changed : Bool} {reason : String}

section

variable (punctual : record.Punctual now)
include punctual

theorem mapTasks {change : TaskRecord → TaskRecord}
    (keeps : ∀ task, task.Punctual now → (change task).Punctual now)
    (schema : next.schemaVersion = record.schemaVersion)
    (tasks : next.tasks = record.tasks.mapValues change) : next.Punctual now := by
  refine ⟨schema.trans punctual.schema, fun id task found => ?_⟩
  rw [tasks, get?_mapValues] at found
  obtain ⟨old, present, rfl⟩ := Option.map_eq_some_iff.mp found
  exact keeps old (punctual.tasks id old present)

theorem durationStop : (requestLimitStop record).1.Punctual now :=
  punctual.mapTasks (fun _ kept => kept.requestStop _) rfl rfl

theorem policyStop {stopped : WorkflowRecord}
    (done : Policy.requestLimitStop record = .ok (stopped, changed)) : stopped.Punctual now := by
  obtain ⟨reason, _, rfl, _⟩ := requestLimitStop_ok done
  exact punctual.mapTasks (fun _ kept => kept.requestStop _) rfl rfl

theorem accrue {accrued : WorkflowRecord}
    (done : Duration.accrue record now = .ok (accrued, changed)) : accrued.Punctual now := by
  obtain ⟨tasks, ledger, rfl, charged⟩ := accrue_ok done
  refine ⟨punctual.schema, fun id task found => ?_⟩
  have related := get?_mapFoldM charged id
  rw [show tasks.get? id = some task from found] at related
  cases known : record.tasks.get? id with
  | none =>
    rw [known] at related
    cases related
  | some old =>
    rw [known] at related
    cases related with
    | some visited =>
      obtain ⟨_, _, visited⟩ := visited
      exact (punctual.tasks id old known).accrueTask visited

/-- The boundary of a save keeps the times of the tasks. -/
theorem advanceAt (done : Milkdrift.advanceAt later record = .ok next) :
    next.Punctual now ∧ next.updatedAt = later := by
  obtain ⟨reason, _, _, rfl⟩ := advanceAt_ok done
  exact ⟨punctual.mapTasks (fun _ kept => kept.requestStop _) rfl rfl, rfl⟩

theorem sameTasks (schema : next.schemaVersion = record.schemaVersion)
    (tasks : next.tasks = record.tasks) : next.Punctual now :=
  ⟨schema.trans punctual.schema, tasks ▸ punctual.tasks⟩

end

theorem decided (generation : Nat) (punctual : record.Punctual now) :
    ({ record with decisionGeneration := generation } : WorkflowRecord).Punctual now :=
  punctual.sameTasks rfl rfl

theorem applyReport [Codec] {id : TaskId} {dispatch : ExecutionDispatch} {at_ : TimestampMillis}
    {event : InvocationEvent} (punctual : record.Punctual now)
    (done : Report.applyReport record id dispatch at_ event = .ok (some next)) : next.Punctual now := by
  obtain ⟨task, start, found, frozen, entered, _, _, rfl⟩ := applyReport_ok done
  refine durationStop ((punctual.modifyTask fun old present kept => ?_).sameTasks rfl rfl)
  rw [found] at present
  cases present
  exact kept.reportedTask event at_ frozen entered

end WorkflowRecord.Punctual

/-! ### Edits -/

structure Dated (base next : WorkflowRecord) : Prop where
  schema : next.schemaVersion = base.schemaVersion
  tasks : ∀ id task, next.tasks.get? id = some task → task.frozen = none ∨
    ∃ old, base.tasks.get? id = some old ∧ task.frozen = old.frozen ∧
      task.startedAt = old.startedAt ∧ (task.state = .uncertain → old.state = .uncertain)

namespace Dated

theorem refl (base : WorkflowRecord) : Dated base base :=
  ⟨rfl, fun _ task found => .inr ⟨task, found, rfl, rfl, fun same => same⟩⟩

theorem trans {first second third : WorkflowRecord} (early : Dated first second)
    (late : Dated second third) : Dated first third := by
  refine ⟨late.schema.trans early.schema, fun id task found => ?_⟩
  rcases late.tasks id task found with none | ⟨middle, found', frozen, started, sure⟩
  · exact .inl none
  · rcases early.tasks id middle found' with none | ⟨old, found'', frozen', started', sure'⟩
    · exact .inl (frozen.trans none)
    · exact .inr ⟨old, found'', frozen.trans frozen', started.trans started', sure' ∘ sure⟩

theorem punctual {base next : WorkflowRecord} (dated : Dated base next)
    (punctual : base.Punctual now) : next.Punctual now := by
  refine ⟨dated.schema.trans punctual.schema, fun id task found => ?_⟩
  rcases dated.tasks id task found with none | ⟨old, found', frozen, started, sure⟩
  · exact .unstarted none
  · exact (punctual.tasks id old found').kept frozen started sure

end Dated

variable [Codec] {guard : TaskRecord → Prop} {batch : TaskBatch} {aliases : SortedMap TaskId TaskId}
  {source : Option (TaskId × Bool)} {fresh : TaskId → TaskRecord → Prop}

theorem Move.dated {id : TaskId} {old new : TaskRecord}
    (move : Move guard (.edit batch aliases source) id 0 old new) :
    new.frozen = none ∨ new.frozen = old.frozen ∧ new.startedAt = old.startedAt ∧
      (new.state = .uncertain → old.state = .uncertain) := by
  generalize free : (0 : Nat) = charge at move
  cases move with
  | note => exact .inr ⟨rfl, rfl, fun same => same⟩
  | @charge _ _ _ start duration now unsettled frozen clocked later =>
    have same : now = duration.accountedAt :=
      Nat.le_antisymm (Nat.le_of_sub_eq_zero free.symm) later
    refine .inr ⟨?_, rfl, fun same => same⟩
    rw [frozen, same, ← clocked]
  | redefine => exact .inr ⟨rfl, rfl, fun same => same⟩
  | remove _ _ future => exact .inl future
  | stop now unsettled future =>
    refine .inl ?_
    simp [stoppedTask, unsettled, future]

variable {base next : WorkflowRecord}

theorem Edited.dated (edited : Edited guard (.edit batch aliases source) fresh base next)
    (unstarted : ∀ id task, fresh id task → task.frozen = none) : Dated base next := by
  refine ⟨edited.schemaVersion, ?_⟩
  have evolution := edited.tasks
  generalize free : (0 : Nat) = spent at evolution
  generalize final : next.tasks = tasks at evolution
  clear edited final
  induction evolution with
  | refl => exact (Dated.refl base).tasks
  | @tail spent charge middle last _ taken ih =>
    obtain ⟨rfl, rfl⟩ : spent = 0 ∧ charge = 0 := by omega
    have earlier := ih rfl
    intro id task found
    cases taken with
    | change bound moved =>
      rename_i old _
      rw [get?_insert] at found
      split at found
      next same =>
        cases found
        subst same
        rcases moved.dated with none | ⟨frozen, started, sure⟩
        · exact .inl none
        · rcases earlier _ old bound with none | ⟨first, found', frozen', started', sure'⟩
          · exact .inl (frozen.trans none)
          · exact .inr ⟨first, found', frozen.trans frozen', started.trans started', sure' ∘ sure⟩
      · exact earlier id task found
    | add unbound born =>
      exact forall_insert earlier (.inl (unstarted _ _ born)) id task found

theorem applyChange_dated {change : TaskChange}
    (done : applyChange aliases now base change = .ok next) : Dated base next := by
  cases isAdd : change.addedAlias with
  | none =>
    have edited : Edited (fun _ => True) (.edit ⟨0, [change]⟩ aliases none)
        (Added aliases now change) base next :=
      applyChange_edited (List.mem_singleton.mpr rfl)
        (fun _ _ same => by rw [isAdd] at same; cases same) done
    refine edited.dated fun id task born => ?_
    obtain ⟨_, _, _, _, rfl⟩ := born
    rfl
  | some taskAlias =>
    cases change with
    | add =>
      simp only [applyChange, addTask, except_bind_eq_ok] at done
      obtain ⟨id, _, _, _, _, _, same⟩ := done
      cases same
      refine ⟨rfl, forall_insert (fun _ task found => ?_) (.inl rfl)⟩
      exact .inr ⟨task, found, rfl, rfl, fun same => same⟩
    | _ => cases isAdd

end Milkdrift
