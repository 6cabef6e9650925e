/-
Purpose: The changes of an accepted batch move tasks only as their life allows.
Trusted boundary: Codec
-/
import Milkdrift.Lifecycle.Transition

namespace Milkdrift

open Admission ModelActions SortedMap List

variable [Codec] {guard : TaskRecord → Prop} {cause : Cause} {fresh : TaskId → TaskRecord → Prop}

def AdmissionsKept (base next : WorkflowRecord) : Prop :=
  ∀ task admission, next.admissions.get? task = some admission →
    ∃ earlier, base.admissions.get? task = some earlier ∧
      earlier.expectedGeneration = admission.expectedGeneration

structure Edited (guard : TaskRecord → Prop) (cause : Cause) (fresh : TaskId → TaskRecord → Prop)
    (base next : WorkflowRecord) : Prop where
  tasks : Evolution (Move guard cause) fresh base.tasks 0 next.tasks
  id : next.id = base.id
  generation : next.generation = base.generation
  decisionGeneration : next.decisionGeneration = base.decisionGeneration
  allowance : next.allowance = base.allowance
  committedAllowance : next.committedAllowance = base.committedAllowance
  spendingCurrency : next.spendingCurrency = base.spendingCurrency
  activeExecutionMs : next.activeExecutionMs = base.activeExecutionMs
  schemaVersion : next.schemaVersion = base.schemaVersion
  admissions : AdmissionsKept base next

namespace Edited

theorem trans {first second third : WorkflowRecord} (early : Edited guard cause fresh first second)
    (late : Edited guard cause fresh second third) : Edited guard cause fresh first third where
  tasks := early.tasks.trans late.tasks
  id := late.id.trans early.id
  generation := late.generation.trans early.generation
  decisionGeneration := late.decisionGeneration.trans early.decisionGeneration
  allowance := late.allowance.trans early.allowance
  committedAllowance := late.committedAllowance.trans early.committedAllowance
  spendingCurrency := late.spendingCurrency.trans early.spendingCurrency
  activeExecutionMs := late.activeExecutionMs.trans early.activeExecutionMs
  schemaVersion := late.schemaVersion.trans early.schemaVersion
  admissions task admission found := by
    obtain ⟨middle, here, same⟩ := late.admissions task admission found
    obtain ⟨earlier, there, same'⟩ := early.admissions task middle here
    exact ⟨earlier, there, same'.trans same⟩

variable {base next : WorkflowRecord}

theorem mono {fresh' : TaskId → TaskRecord → Prop} (edited : Edited guard cause fresh base next)
    (weaken : ∀ id task, fresh id task → fresh' id task) : Edited guard cause fresh' base next :=
  { edited with tasks := edited.tasks.mono_fresh weaken }

/-- A change that leaves the tasks, the clocks and the accounts alone. -/
theorem quiet (admissions : AdmissionsKept base next) (same : next = { next with
      id := base.id, generation := base.generation, decisionGeneration := base.decisionGeneration
      allowance := base.allowance, committedAllowance := base.committedAllowance
      spendingCurrency := base.spendingCurrency, activeExecutionMs := base.activeExecutionMs
      schemaVersion := base.schemaVersion, tasks := base.tasks }) :
    Edited guard cause fresh base next where
  tasks := by
    rw [same]
    exact .refl
  id := by rw [same]
  generation := by rw [same]
  decisionGeneration := by rw [same]
  allowance := by rw [same]
  committedAllowance := by rw [same]
  spendingCurrency := by rw [same]
  activeExecutionMs := by rw [same]
  schemaVersion := by rw [same]
  admissions

omit [Codec] in
theorem admissionsKept_refl (same : next.admissions = base.admissions) : AdmissionsKept base next :=
  fun _ admission found => ⟨admission, same ▸ found, rfl⟩

theorem refl (base : WorkflowRecord) : Edited guard cause fresh base base :=
  quiet (admissionsKept_refl rfl) rfl

theorem retask {tasks : SortedMap TaskId TaskRecord} {admitted : Nat}
    (evolution : Evolution (Move guard cause) fresh base.tasks 0 tasks) :
    Edited guard cause fresh base { base with tasks, admittedTasks := admitted } where
  tasks := evolution
  id := rfl
  generation := rfl
  decisionGeneration := rfl
  allowance := rfl
  committedAllowance := rfl
  spendingCurrency := rfl
  activeExecutionMs := rfl
  schemaVersion := rfl
  admissions := admissionsKept_refl rfl

theorem moved {id : TaskId} {task : TaskRecord} {change : TaskRecord → TaskRecord}
    (found : base.tasks.get? id = some task) (path : Path (Move guard cause id) task 0 (change task)) :
    Edited guard cause fresh base (base.modifyTask id change) :=
  retask (Evolution.modify change found path)

end Edited

/-! ### Single changes -/

variable {task : TaskRecord} {base next : WorkflowRecord} {source original : TaskId}
  {batch : TaskBatch} {repair : Bool} {key : String} {aliases : SortedMap TaskId TaskId}
  {redirects : List TaskBindingRedirect}

omit [Codec] in
theorem futureTask_ok {workflow : WorkflowRecord} {id : TaskId} {version : Nat}
    (done : futureTask workflow id version = .ok task) :
    workflow.tasks.get? id = some task ∧ task.frozen = none ∧ task.state = .queued := by
  simp only [futureTask, checked_eq_ok_iff] at done
  obtain ⟨record, found, _, ⟨_, future, queued⟩, same⟩ := done
  cases same
  exact ⟨found, future, queued⟩

/-- A task that edits may still redefine. -/
def Future (workflow : WorkflowRecord) (id : TaskId) : Prop :=
  ∃ task, workflow.tasks.get? id = some task ∧ task.frozen = none ∧ task.state = .queued

section
omit [Codec]

theorem Future.modifyTask {id other : TaskId} {change : TaskRecord → TaskRecord}
    (future : Future base other) (found : base.tasks.get? id = some task)
    (unstarted : (change task).frozen = none) (queued : (change task).state = .queued) :
    Future (base.modifyTask id change) other := by
  by_cases here : other = id
  · exact ⟨change task, by simp [WorkflowRecord.modifyTask, here, found], unstarted, queued⟩
  · obtain ⟨kept, present, rest⟩ := future
    exact ⟨kept, by simp [WorkflowRecord.modifyTask, here, present], rest⟩

theorem admissionsKept_insert {admission replaced : ModelAdmission}
    (found : base.admissions.get? source = some admission)
    (inserted : next.admissions = base.admissions.insert source replaced)
    (same : admission.expectedGeneration = replaced.expectedGeneration) : AdmissionsKept base next := by
  unfold AdmissionsKept
  rw [inserted]
  exact forall_insert (fun _ current present => ⟨current, present, rfl⟩) ⟨admission, found, same⟩

end

theorem clearOwnedWait_edited (base : WorkflowRecord) (source : TaskId) :
    Edited guard cause fresh base (clearOwnedWait base source) := by
  unfold clearOwnedWait
  split
  · exact .quiet (Edited.admissionsKept_refl rfl) rfl
  · exact .refl base

variable {now : TimestampMillis} {change : TaskChange} {adoption : Admission.Correction}
    {seen : List (TaskId × String)} {consumers changed' : List TaskId}

section Batch

variable {batch : TaskBatch} {aliases : SortedMap TaskId TaskId} {source : Option (TaskId × Bool)}
  {redirects : List TaskBindingRedirect} {base next : WorkflowRecord} {original : TaskId}
  {changes : List TaskChange}

/-- The consumers a correction redirects have not started, so that each of them may be closed with a new
version. -/
theorem applyRedirects_edited {changed : List TaskId} (future : ∀ id ∈ changed, Future base id)
    (done : applyRedirects adoption redirects base changed seen = .ok (next, changed')) :
    Edited guard (.edit batch aliases source) fresh base next ∧ ∀ id ∈ changed', Future next id := by
  induction redirects generalizing base changed seen with
  | nil =>
    cases done
    exact ⟨.refl _, future⟩
  | cons redirect rest ih =>
    simp only [applyRedirects, checked_eq_ok_iff] at done
    obtain ⟨_, _, consumer, checked, done⟩ := done
    obtain ⟨found, unstarted, queued⟩ := futureTask_ok checked
    split at done
    · simp only [checked_eq_ok_iff] at done
      obtain ⟨_, _, _, _, _, _, _, _, done⟩ := done
      obtain ⟨later, closed⟩ := ih (by
        intro id member
        refine Future.modifyTask ?_ found unstarted queued
        by_cases here : id = redirect.consumer
        · exact ⟨consumer, here ▸ found, unstarted, queued⟩
        · refine future id ?_
          split at member
          · exact member
          · exact (mem_cons.mp member).resolve_left here) done
      refine ⟨.trans (.moved found (.single ?_)) later, closed⟩
      exact .redefine _ _ consumer.version consumer.reason queued unstarted (.inl rfl)
    · cases done

theorem closeRedirects_edited (future : ∀ id ∈ consumers, Future base id)
    (done : closeRedirects original consumers base = .ok next) :
    Edited guard (.edit batch aliases source) fresh base next := by
  induction consumers generalizing base with
  | nil =>
    cases done
    exact .refl _
  | cons id rest ih =>
    simp only [closeRedirects, checked_eq_ok_iff] at done
    obtain ⟨consumer, found, version, _, done⟩ := done
    obtain ⟨task, present, unstarted, queued⟩ := future id mem_cons_self
    rw [found] at present
    cases present
    have later := ih (fun other member =>
      Future.modifyTask (future other (mem_cons_of_mem _ member)) found unstarted queued) done
    refine .trans (.moved found (.single ?_)) later
    refine .redefine _ consumer.previousDefinitions version none queued unstarted (.inl ?_)
    split <;> rfl

theorem adoptCorrection_edited {correction : TaskId}
    (done : adoptCorrection base original correction redirects = .ok next) :
    Edited guard (.edit batch aliases source) fresh base next := by
  simp only [adoptCorrection, checked_eq_ok_iff] at done
  obtain ⟨_, _, corrected, _, _, _, _, _, _, _, _, _, done⟩ := done
  split at done
  · cases done
  · simp only [except_bind_eq_ok] at done
    obtain ⟨⟨redirected, changed⟩, applied, closed, closing, same⟩ := done
    cases same
    obtain ⟨first, future⟩ := applyRedirects_edited (by simp) applied
    refine .trans (first.trans (closeRedirects_edited future closing)) ?_
    cases found : closed.tasks.get? original with
    | some task => exact .moved found (.single (.note task _ _ _ _ fun asked => asked))
    | none =>
      have unchanged : closed.modifyTask original (fun task =>
          { task with adoptedCorrection := some correction }) = closed := by
        have same : closed.tasks.modify original (fun task =>
            { task with adoptedCorrection := some correction }) = closed.tasks :=
          ext_get? fun id => by
            rw [get?_modify]
            split
            next here =>
              rw [here, found]
              rfl
            · rfl
        simp [WorkflowRecord.modifyTask, same]
      rw [unchanged]
      exact .refl closed

def Added (aliases : SortedMap TaskId TaskId) (now : TimestampMillis) (change : TaskChange)
    (id : TaskId) (task : TaskRecord) : Prop :=
  ∃ taskAlias definition, change = .add taskAlias definition ∧ aliases.get? taskAlias = some id ∧
    task = TaskRecord.queued id (Admission.remapDefinition definition aliases) now

theorem applyChange_edited (member : change ∈ batch.changes)
    (unused : ∀ taskAlias id, change.addedAlias = some taskAlias → aliases.get? taskAlias = some id →
      base.tasks.get? id = none) (done : applyChange aliases now base change = .ok next) :
    Edited guard (.edit batch aliases source) (Added aliases now change) base next := by
  cases change with
  | dismissAdmission task =>
    simp only [applyChange, checked_eq_ok_iff] at done
    obtain ⟨admission, found, _, _, same⟩ := done
    cases same
    refine .trans ?_ (clearOwnedWait_edited _ task)
    exact .quiet (admissionsKept_insert found rfl rfl) rfl
  | setLimits limits =>
    simp only [applyChange, Policy.changeLimits, except_bind_eq_ok] at done
    obtain ⟨_, _, _, _, same⟩ := done
    cases same
    exact .quiet (Edited.admissionsKept_refl rfl) rfl
  | add taskAlias definition =>
    simp only [applyChange, addTask, checked_eq_ok_iff] at done
    obtain ⟨id, allocated, admitted, _, _, _, same⟩ := done
    cases same
    exact .retask (.single (.add (unused taskAlias id rfl allocated)
      ⟨taskAlias, definition, rfl, allocated, rfl⟩))
  | revise task version definition =>
    simp only [applyChange, checked_eq_ok_iff] at done
    obtain ⟨record, checked, _, _, _, _, same⟩ := done
    cases same
    obtain ⟨found, future, queued⟩ := futureTask_ok checked
    exact .moved found (.single (.redefine _ _ _ _ queued future (.inr ⟨_, _, member⟩)))
  | remove task version =>
    simp only [applyChange, except_bind_eq_ok] at done
    obtain ⟨record, checked, same⟩ := done
    cases same
    obtain ⟨found, future, queued⟩ := futureTask_ok checked
    exact .moved found (.single (.remove now queued future ⟨_, member⟩))
  | bindInput name value =>
    simp only [applyChange, except_bind_eq_ok] at done
    obtain ⟨_, _, _, _, same⟩ := done
    cases same
    exact .quiet (Edited.admissionsKept_refl rfl) rfl
  | stop task =>
    simp only [applyChange, checked_eq_ok_iff] at done
    obtain ⟨record, found, same⟩ := done
    cases same
    refine .moved found ?_
    -- a settled task is left alone, a start is only asked to stop
    cases settled : record.state.isSettled with
    | true =>
      rw [show stoppedTask now record = record by simp [stoppedTask, settled]]
      exact .refl
    | false =>
      cases frozen : record.frozen with
      | none => exact .single (.stop now settled frozen)
      | some start =>
        rw [show stoppedTask now record = { record with stopRequested := true } by
          simp [stoppedTask, settled, frozen]]
        exact .single (.note record _ _ _ _ fun _ => rfl)
  | adoptCorrection task correction redirects => exact adoptCorrection_edited done
  | continueRun =>
    simp only [applyChange, Policy.resume, except_bind_eq_ok] at done
    obtain ⟨_, _, _, _, reason, _, done⟩ := done
    cases reason with
    | some reason => cases done
    | none =>
      cases done
      exact .quiet (Edited.admissionsKept_refl rfl) rfl
  | wait question =>
    simp only [applyChange, except_bind_eq_ok] at done
    obtain ⟨_, _, same⟩ := done
    cases same
    exact .quiet (Edited.admissionsKept_refl rfl) rfl
  | finish =>
    cases done
    exact .quiet (Edited.admissionsKept_refl rfl) rfl

/-- The tasks a whole batch brings in. -/
def AddedBy (aliases : SortedMap TaskId TaskId) (now : TimestampMillis) (changes : List TaskChange)
    (id : TaskId) (task : TaskRecord) : Prop :=
  ∃ change ∈ changes, Added aliases now change id task

inductive Batched (aliases : SortedMap TaskId TaskId) (now : TimestampMillis) :
    List TaskChange → WorkflowRecord → WorkflowRecord → Prop
  | nil (record : WorkflowRecord) : Batched aliases now [] record record
  | cons {change : TaskChange} {rest : List TaskChange} {base middle next : WorkflowRecord}
      (done : Admission.applyChange aliases now base change = .ok middle)
      (unused : ∀ taskAlias id, change.addedAlias = some taskAlias →
        aliases.get? taskAlias = some id → base.tasks.get? id = none)
      (later : Batched aliases now rest middle next) :
      Batched aliases now (change :: rest) base next

theorem applyChanges_batched
    (unused : ∀ change ∈ changes, ∀ taskAlias id, change.addedAlias = some taskAlias → aliases.get?
      taskAlias = some id → base.tasks.get? id = none)
    (injective : ∀ first second id, aliases.get? first = some id → aliases.get? second = some id → first
      = second) (distinct : (changes.filterMap TaskChange.addedAlias).Nodup)
    (done : changes.foldlM (applyChange aliases now) base = .ok next) :
    Batched aliases now changes base next := by
  induction changes generalizing base with
  | nil =>
    cases done
    exact .nil _
  | cons change rest ih =>
    simp only [foldlM_cons, except_bind_eq_ok] at done
    obtain ⟨middle, first, later⟩ := done
    have one : Edited (fun _ => True) (.edit ⟨0, [change]⟩ aliases none) (Added aliases now change)
        base middle :=
      applyChange_edited mem_cons_self (unused change mem_cons_self) first
    refine .cons first (unused change mem_cons_self) (ih ?_ ?_ later)
    · intro other member taskAlias id added known
      -- a task that appeared meanwhile has the alias of this change, and aliases are distinct
      cases present : middle.tasks.get? id with
      | none => rfl
      | some task =>
        have absent := unused other (mem_cons_of_mem _ member) taskAlias id added known
        obtain ⟨_, _, ⟨first, _, same, allocated, _⟩, _⟩ := one.tasks.lookup_new absent present
        cases injective first taskAlias id allocated known
        rw [same, filterMap_cons, TaskChange.addedAlias] at distinct
        exact absurd (mem_filterMap.mpr ⟨other, member, added⟩) (nodup_cons.mp distinct).1
    · rw [filterMap_cons] at distinct
      split at distinct
      · exact distinct
      · exact (nodup_cons.mp distinct).2

/-- A whole batch brings its additions in and moves the tasks that were there. -/
theorem Batched.edited (batched : Batched aliases now changes base next) (part : changes ⊆ batch.changes) :
    Edited guard (.edit batch aliases source) (AddedBy aliases now changes) base next := by
  induction batched with
  | nil => exact .refl _
  | @cons change rest base middle next done unused later ih =>
    have one : Edited guard (.edit batch aliases source) (Added aliases now change) base middle :=
      applyChange_edited (part mem_cons_self) unused done
    exact .trans (one.mono fun _ _ added => ⟨change, mem_cons_self, added⟩)
      ((ih (cons_subset.mp part).2).mono fun _ _ ⟨other, member, added⟩ =>
        ⟨other, mem_cons_of_mem _ member, added⟩)

end Batch

/-! ### Accepted model batches -/

/-- A model batch that its source's admission allows: there is room for it, it changes no policy, and the
admission is pending on the authoring snapshot or rejected and open to repair. -/
structure Admissible (base : WorkflowRecord) (source : TaskId) (batch : TaskBatch) (repair : Bool) :
    Prop where
  room : base.admittedModelBatches < base.limits.modelBatches
  plain : ∀ change ∈ batch.changes, ModelActions.isPolicyChange change = false
  status : ∃ admission, base.admissions.get? source = some admission ∧
    admission.status = if repair then .rejected else .pending

omit [Codec] in
theorem checkAdmission_admissible (checked : checkAdmission base source batch repair = .ok ()) :
    Admissible base source batch repair := by
  simp only [checkAdmission, checked_eq_ok_iff] at checked
  obtain ⟨admission, found, _, room, checked⟩ := checked
  cases repair with
  | true =>
    simp only [if_true, checked_eq_ok_iff] at checked
    obtain ⟨_, ⟨rejected, _⟩, plain⟩ := checked
    refine ⟨room, fun change member => ?_, admission, found, rejected⟩
    simpa using any_eq_false.mp plain change member
  | false =>
    simp only [Bool.false_eq_true, if_false, checked_eq_ok_iff] at checked
    obtain ⟨_, ⟨pending, _⟩, plain⟩ := checked
    refine ⟨room, fun change member => ?_, admission, found, pending⟩
    simpa using any_eq_false.mp plain change member

/-- What accepting a model batch leaves of the record: its admission carries the receipt, one more batch is
counted, the rejection account and the wait are settled. Only a repair releases a wait, its own. -/
structure Accepts (base : WorkflowRecord) (source : TaskId) (key : String)
    (aliases : SortedMap TaskId TaskId) (repair : Bool) (next : WorkflowRecord) : Prop where
  shape : ∃ admission waitQuestion modelAdmissionWait rejectedResponses,
    base.admissions.get? source = some admission ∧
    next = { base with
      admittedModelBatches := base.admittedModelBatches + 1
      admissions := base.admissions.insert source { admission with
        status := if repair then .repaired else .accepted
        receiptKey := some key
        aliases }
      waitQuestion, modelAdmissionWait, rejectedResponses }
  response : next.rejectedResponses ≤ base.rejectedResponses + 1
  wait : next.waitQuestion = none → base.waitQuestion = none ∨
    repair = true ∧ base.modelAdmissionWait = some source

omit [Codec] in
theorem acceptAdmission_accepts (done : acceptAdmission base source key aliases repair = .ok next) :
    Accepts base source key aliases repair next := by
  simp only [acceptAdmission, checked_eq_ok_iff, checkedAdd_eq_some_iff] at done
  obtain ⟨batches, ⟨rfl, _⟩, admission, found, done⟩ := done
  cases repair with
  | true =>
    cases done
    by_cases owned : base.modelAdmissionWait = some source
    · simp only [clearOwnedWait, if_true, if_pos owned]
      exact ⟨⟨admission, _, _, _, found, rfl⟩, Nat.le_succ _, fun _ => .inr ⟨rfl, owned⟩⟩
    · simp only [clearOwnedWait, if_true, if_neg owned]
      exact ⟨⟨admission, _, _, _, found, rfl⟩, Nat.le_succ _, .inl⟩
  | false =>
    simp only [Bool.false_eq_true, if_false] at done
    split at done
    · cases done
      exact ⟨⟨admission, _, _, _, found, rfl⟩, Nat.zero_le _, .inl⟩
    split at done
    · simp only [countNoProgress, checked_eq_ok_iff, checkedAdd_eq_some_iff] at done
      obtain ⟨rejected, ⟨rfl, _⟩, done⟩ := done
      split at done
      · cases done
        exact ⟨⟨admission, _, _, _, found, rfl⟩, Nat.le_refl _, fun absent => by cases absent⟩
      · cases done
        exact ⟨⟨admission, _, _, _, found, rfl⟩, Nat.le_refl _, .inl⟩
    · cases done
      exact ⟨⟨admission, _, _, _, found, rfl⟩, Nat.le_succ _, .inl⟩

/-- The admission bookkeeping of a model batch touches no task. -/
theorem acceptSource_edited {source : Option (TaskId × Bool)}
    (done : acceptSource base key aliases source = .ok next) :
    Edited guard cause fresh base next ∧ next.tasks = base.tasks := by
  cases source with
  | none =>
    cases done
    exact ⟨.refl _, rfl⟩
  | some source =>
    obtain ⟨⟨admission, _, _, _, found, rfl⟩, _, _⟩ := acceptAdmission_accepts done
    exact ⟨.quiet (admissionsKept_insert found rfl rfl) rfl, rfl⟩

/-! ### Changes one by one -/

/-- Changes that touch tasks of the record and nothing else. -/
def TaskChange.retasks : TaskChange → Bool
  | .revise _ _ _ | .remove _ _ | .stop _ | .adoptCorrection _ _ _ => true
  | _ => false

section
omit [Codec]

theorem applyRedirects_tasks {changed : List TaskId}
    (done : applyRedirects adoption redirects base changed seen = .ok (next, changed')) :
    ∃ tasks, next = { base with tasks } := by
  induction redirects generalizing base changed seen with
  | nil =>
    cases done
    exact ⟨_, rfl⟩
  | cons redirect rest ih =>
    simp only [applyRedirects, except_bind_eq_ok] at done
    obtain ⟨_, _, _, _, done⟩ := done
    split at done
    · simp only [except_bind_eq_ok] at done
      obtain ⟨_, _, _, _, _, _, _, _, done⟩ := done
      obtain ⟨tasks, same⟩ := ih done
      exact ⟨tasks, same⟩
    · cases done

theorem closeRedirects_tasks (done : closeRedirects original consumers base = .ok next) :
    ∃ tasks, next = { base with tasks } := by
  induction consumers generalizing base with
  | nil =>
    cases done
    exact ⟨_, rfl⟩
  | cons id rest ih =>
    simp only [closeRedirects, except_bind_eq_ok] at done
    obtain ⟨_, _, _, _, done⟩ := done
    obtain ⟨tasks, same⟩ := ih done
    exact ⟨tasks, same⟩

theorem adoptCorrection_tasks {correction : TaskId}
    (done : adoptCorrection base original correction redirects = .ok next) :
    ∃ tasks, next = { base with tasks } := by
  simp only [adoptCorrection, except_bind_eq_ok] at done
  obtain ⟨_, _, _, _, _, _, _, _, _, _, _, _, done⟩ := done
  split at done
  · cases done
  · simp only [except_bind_eq_ok] at done
    obtain ⟨⟨redirected, changed⟩, applied, closed, closing, same⟩ := done
    obtain ⟨_, rfl⟩ := applyRedirects_tasks applied
    obtain ⟨_, rfl⟩ := closeRedirects_tasks closing
    cases same
    exact ⟨_, rfl⟩

end

inductive Applied (aliases : SortedMap TaskId TaskId) (now : TimestampMillis) (base : WorkflowRecord) :
    TaskChange → WorkflowRecord → Prop
  | dismissed {task : TaskId} {admission : ModelAdmission} {waitQuestion : Option String}
      {modelAdmissionWait : Option TaskId} (found : base.admissions.get? task = some admission)
      (rejected : admission.status = .rejected)
      (released : waitQuestion = base.waitQuestion ∧ modelAdmissionWait = base.modelAdmissionWait ∨
        base.modelAdmissionWait = some task ∧ modelAdmissionWait = none) :
      Applied aliases now base (.dismissAdmission task)
        { base with
          admissions := base.admissions.insert task { admission with status := .dismissed }
          waitQuestion, modelAdmissionWait }
  | limited {limits : WorkflowLimits} (valid : limits.validate = .ok ())
      (tasks : base.admittedTasks ≤ limits.tasks) (batches : base.admittedModelBatches ≤ limits.modelBatches)
      (time : base.activeExecutionMs ≤ limits.activeExecutionMs) :
      Applied aliases now base (.setLimits limits) { base with limits }
  | added {taskAlias id : TaskId} {definition : TaskDefinition}
      (allocated : aliases.get? taskAlias = some id)
      (room : base.admittedTasks + 1 ≤ base.limits.tasks) :
      Applied aliases now base (.add taskAlias definition)
        { base with
          admittedTasks := base.admittedTasks + 1
          tasks := base.tasks.insert id
            (TaskRecord.queued id (Admission.remapDefinition definition aliases) now) }
  | retasked {change : TaskChange} {tasks : SortedMap TaskId TaskRecord}
      (plain : change.retasks = true) (keys : tasks.keys = base.tasks.keys) :
      Applied aliases now base change { base with tasks }
  | bound {name : String} {value : TaskInputValue} {inputs : SortedMap String TaskInputValue} :
      Applied aliases now base (.bindInput name value)
        { base with inputs, waitQuestion := none, modelAdmissionWait := none }
  | resumed (time : Duration.remaining base ≠ 0)
      (responses : base.rejectedResponses < base.limits.rejectedResponses)
      (lineages : Policy.lineageStop base = .ok none) :
      Applied aliases now base .continueRun
        { base with waitQuestion := none, modelAdmissionWait := none }
  | asked (question : String) : Applied aliases now base (.wait question)
        { base with waitQuestion := some question, modelAdmissionWait := none }
  | finishing : Applied aliases now base .finish { base with finishWhenSettled := true }

theorem applyChange_applied
    (done : applyChange aliases now base change = .ok next) : Applied aliases now base change next := by
  cases change with
  | setLimits limits =>
    simp only [applyChange, Policy.changeLimits, checked_eq_ok_iff, withRefusal_eq_ok_iff] at done
    obtain ⟨_, valid, _, ⟨tasks, batches, time⟩, same⟩ := done
    cases same
    exact .limited valid tasks batches time
  | dismissAdmission task =>
    simp only [applyChange, checked_eq_ok_iff] at done
    obtain ⟨admission, found, _, rejected, same⟩ := done
    cases same
    by_cases owned : base.modelAdmissionWait = some task
    · simp only [clearOwnedWait, if_pos owned]
      exact .dismissed found rejected (.inr ⟨owned, rfl⟩)
    · simp only [clearOwnedWait, if_neg owned]
      exact .dismissed found rejected (.inl ⟨rfl, rfl⟩)
  | add taskAlias definition =>
    simp only [applyChange, addTask, checked_eq_ok_iff, checkedAdd_eq_some_iff] at done
    obtain ⟨id, allocated, _, ⟨rfl, _⟩, _, room, same⟩ := done
    cases same
    exact .added allocated room
  | revise task version definition =>
    simp only [applyChange, except_bind_eq_ok] at done
    obtain ⟨_, _, _, _, _, _, same⟩ := done
    cases same
    exact .retasked rfl (keys_modify ..)
  | remove task version =>
    simp only [applyChange, except_bind_eq_ok] at done
    obtain ⟨_, _, same⟩ := done
    cases same
    exact .retasked rfl (keys_modify ..)
  | bindInput name value =>
    simp only [applyChange, except_bind_eq_ok] at done
    obtain ⟨_, _, _, _, same⟩ := done
    cases same
    exact .bound
  | stop task =>
    simp only [applyChange, except_bind_eq_ok] at done
    obtain ⟨_, _, same⟩ := done
    cases same
    exact .retasked rfl (keys_modify ..)
  | adoptCorrection task correction redirects =>
    have edited : Edited (fun _ => True) (.edit ⟨0, []⟩ aliases none) (fun _ _ => False) base next :=
      adoptCorrection_edited done
    obtain ⟨tasks, rfl⟩ := adoptCorrection_tasks done
    exact .retasked rfl (edited.tasks.keys_eq fun _ _ impossible => impossible)
  | continueRun =>
    simp only [applyChange, Policy.resume, checked_eq_ok_iff] at done
    obtain ⟨_, time, _, responses, reason, lineages, done⟩ := done
    cases reason with
    | some reason => cases done
    | none =>
      cases done
      exact .resumed time responses lineages
  | wait question =>
    simp only [applyChange, except_bind_eq_ok] at done
    obtain ⟨_, _, same⟩ := done
    cases same
    exact .asked question
  | finish =>
    cases done
    exact .finishing

/-- What the policy counts and what it counts against. -/
def WorkflowRecord.rejection (record : WorkflowRecord) : WorkflowLimits × Nat :=
  (record.limits, record.rejectedResponses)

theorem applyChange_rejection (plain : ∀ limits, change ≠ .setLimits limits)
    (done : applyChange aliases now base change = .ok next) : next.rejection = base.rejection := by
  cases applyChange_applied done with
  | limited => exact absurd rfl (plain _)
  | dismissed | added | retasked | bound | resumed | asked | finishing => rfl

theorem applyChanges_rejection {changes : List TaskChange} (plain : ∀ limits, .setLimits limits ∉ changes)
    (done : changes.foldlM (applyChange aliases now) base = .ok next) :
    next.rejection = base.rejection := by
  induction changes generalizing base with
  | nil =>
    cases done
    rfl
  | cons change rest ih =>
    simp only [foldlM_cons, except_bind_eq_ok] at done
    obtain ⟨middle, first, later⟩ := done
    have one : middle.rejection = base.rejection := applyChange_rejection
      (fun limits same => plain limits (by rw [same]; exact mem_cons_self)) first
    exact (ih (fun limits member =>
      plain limits (mem_cons_of_mem _ member)) later).trans one

omit [Codec] in
theorem acceptSource_rejection {source : Option (TaskId × Bool)}
    (done : acceptSource base key aliases source = .ok next) :
    next.limits = base.limits ∧ next.rejectedResponses ≤ base.rejectedResponses + 1 := by
  cases source with
  | none =>
    cases done
    exact ⟨rfl, Nat.le_succ _⟩
  | some source =>
    obtain ⟨⟨_, _, _, _, _, rfl⟩, response, _⟩ := acceptAdmission_accepts done
    exact ⟨rfl, response⟩

variable {edited : WorkflowRecord}

theorem Allocated.batched (allocated : Allocated base batch.changes aliases)
    (applied : batch.changes.foldlM (applyChange aliases now) base = .ok edited) :
    Batched aliases now batch.changes base edited :=
  applyChanges_batched (fun _ _ taskAlias id _ known => allocated.unused taskAlias id known)
    allocated.injective allocated.distinct applied

theorem batch_edited (guard : TaskRecord → Prop) (source : Option (TaskId × Bool))
    {accepted : WorkflowRecord} (allocated : Allocated base batch.changes aliases)
    (applied : batch.changes.foldlM (applyChange aliases now) base = .ok edited)
    (done : acceptSource edited key aliases source = .ok accepted) :
    Edited guard (.edit batch aliases source) (AddedBy aliases now batch.changes) base accepted :=
  .trans ((allocated.batched applied).edited (List.Subset.refl _)) (acceptSource_edited done).1

end Milkdrift
