/-
Purpose: What policy and readiness read of the tasks: their lineage view and their outcomes.
Trusted boundary: Codec
-/
import Milkdrift.Lifecycle.Transition

namespace Milkdrift

open Policy SortedMap Option

structure LineageView where
  id : TaskId
  correctiveOf : Option TaskId
  required : Bool
  removed : Bool
  adoptedCorrection : Option TaskId
  failed : Bool
  settled : Bool
  completed : Bool
deriving DecidableEq

def lineageView (task : TaskRecord) : LineageView where
  id := task.id
  correctiveOf := task.definition.correctiveOf
  required := task.definition.required
  removed := task.removed
  adoptedCorrection := task.adoptedCorrection
  failed := task.state = .failed
  settled := task.state.isSettled
  completed := task.state = .completed

def SameLineage (first second : SortedMap TaskId TaskRecord) : Prop :=
  first.mapValues lineageView = second.mapValues lineageView

namespace SameLineage

variable {first second : SortedMap TaskId TaskRecord}

theorem trans {third : SortedMap TaskId TaskRecord} (early : SameLineage first second)
    (late : SameLineage second third) : SameLineage first third := Eq.trans early late

theorem get? (same : SameLineage first second) (id : TaskId) :
    (first.get? id).map lineageView = (second.get? id).map lineageView := by
  rw [← get?_mapValues, ← get?_mapValues, same]

theorem of_get? (same : ∀ id, (first.get? id).map lineageView = (second.get? id).map lineageView) :
    SameLineage first second :=
  ext_get? fun id => by
    rw [get?_mapValues, get?_mapValues, same]

section

variable (same : SameLineage first second)
include same

theorem size : first.size = second.size := by
  have lengths := congrArg SortedMap.size same
  simpa [SortedMap.size, SortedMap.mapValues] using lengths

theorem values :
    first.values.map lineageView = second.values.map lineageView := by
  have listed := congrArg SortedMap.values same
  rwa [values_mapValues, values_mapValues] at listed

theorem walkLineage (steps : Nat) (visited : List TaskId) (current : TaskId) :
    Policy.walkLineage first steps visited current = Policy.walkLineage second steps visited current := by
  induction steps generalizing visited current with
  | zero => rfl
  | succ steps ih =>
    have here := same.get? current
    unfold Policy.walkLineage
    cases one : first.get? current <;> cases two : second.get? current <;>
      simp only [one, two, map_none, map_some, reduceCtorEq, Option.some.injEq] at here
    · rfl
    · have origin := congrArg LineageView.correctiveOf here
      simp only [lineageView] at origin
      simp only [origin, ih]

end

end SameLineage

variable {first second : WorkflowRecord}

theorem lineageRoot_view (same : SameLineage first.tasks second.tasks) (id : TaskId) :
    lineageRoot first id = lineageRoot second id := by
  unfold lineageRoot
  rw [same.size, same.walkLineage]

variable {one two : TaskRecord} {tasks : SortedMap TaskId TaskRecord}

section

variable (same : SameLineage first.tasks second.tasks)
include same

theorem isAdopted_view (viewed : lineageView one = lineageView two) :
    isAdopted first one = isAdopted second two := by
  have adopted := congrArg LineageView.adoptedCorrection viewed
  simp only [lineageView] at adopted
  unfold isAdopted
  rw [adopted]
  cases two.adoptedCorrection with
  | none => rfl
  | some correction =>
    have here := same.get? correction
    simp only [bind_some]
    cases one : first.tasks.get? correction <;> cases two : second.tasks.get? correction <;>
      simp only [one, two, map_none, map_some, reduceCtorEq, Option.some.injEq] at here
    · rfl
    · have completed := congrArg LineageView.completed here
      simpa [lineageView] using completed

theorem isOutstanding_view (viewed : lineageView one = lineageView two) :
    isOutstanding first one = isOutstanding second two := by
  have removed := congrArg LineageView.removed viewed
  have settled := congrArg LineageView.settled viewed
  have required := congrArg LineageView.required viewed
  have completed := congrArg LineageView.completed viewed
  simp only [lineageView] at removed settled required completed
  have unfinished : (one.state != .completed) = (two.state != .completed) := by
    simp only [bne, beq_eq_decide, completed]
  simp only [isOutstanding, removed, settled, required, unfinished, isAdopted_view same viewed]

theorem lineages_view {members members' : List TaskRecord}
    (viewed : members.map lineageView = members'.map lineageView)
    (counted : SortedMap TaskId (Nat × Bool)) :
    lineages first members counted = lineages second members' counted := by
  induction members generalizing members' counted with
  | nil =>
    cases members' with
    | nil => rfl
    | cons => simp at viewed
  | cons one rest ih =>
    cases members' with
    | nil => simp at viewed
    | cons two rest' =>
      simp only [List.map_cons, List.cons.injEq] at viewed
      obtain ⟨head, tail⟩ := viewed
      have named := congrArg LineageView.id head
      have failed := congrArg LineageView.failed head
      simp only [lineageView, decide_eq_decide] at named failed
      simp only [lineages, named, lineageRoot_view same, isOutstanding_view same head, failed, ih tail]

theorem lineageStop_view
    (limits : first.limits = second.limits) : lineageStop first = lineageStop second := by
  unfold lineageStop
  rw [lineages_view same same.values, limits]

theorem stopReason_view (limits : first.limits = second.limits)
    (rejected : first.rejectedResponses = second.rejectedResponses) :
    stopReason first = stopReason second := by
  unfold stopReason
  rw [lineageStop_view same limits, limits, rejected]

end

/-! ### Saves that keep the view -/

variable {change : TaskRecord → TaskRecord}

theorem SameLineage.modify {id : TaskId} {task : TaskRecord} (found : tasks.get? id = some task)
    (viewed : lineageView (change task) = lineageView task) :
    SameLineage (tasks.modify id change) tasks := by
  refine .of_get? fun other => ?_
  rw [get?_modify]
  split
  next here =>
    rw [here, found]
    exact congrArg some viewed
  · rfl

theorem SameLineage.mapValues (viewed : ∀ task, lineageView (change task) = lineageView task) :
    SameLineage (tasks.mapValues change) tasks := by
  refine .of_get? fun other => ?_
  rw [get?_mapValues, map_map]
  exact congrArg (fun view => Option.map view (tasks.get? other)) (funext viewed)

theorem lineageView_requestStop (must : TaskRecord → Bool) (task : TaskRecord) :
    lineageView (Duration.requestStop must task) = lineageView task := by
  unfold Duration.requestStop
  split <;> rfl

variable (cause : Cause) (now : TimestampMillis) (reason : Option String) (body : WorkflowRecord)

theorem sameLineage_transitioned : SameLineage (transitioned cause now reason body).tasks body.tasks := by
  unfold transitioned
  simp only
  split <;> exact SameLineage.mapValues (lineageView_requestStop _)

theorem lineageStop_transitioned : lineageStop (transitioned cause now reason body) = lineageStop body := by
  refine lineageStop_view (sameLineage_transitioned cause now reason body) ?_
  rw [transitioned_eq]

theorem stopReason_transitioned : stopReason (transitioned cause now reason body) = stopReason body := by
  have kept : (transitioned cause now reason body).limits = body.limits ∧
      (transitioned cause now reason body).rejectedResponses = body.rejectedResponses := by
    rw [transitioned_eq]
    exact ⟨rfl, rfl⟩
  exact stopReason_view (sameLineage_transitioned cause now reason body) kept.1 kept.2

end Milkdrift

namespace Milkdrift

open WorkflowRecord

/-- What a dependent reads of a producer. -/
def TaskRecord.outcome (task : TaskRecord) : TaskState × Option TaskResult := (task.state, task.result)

def WorkflowRecord.outcome? (record : WorkflowRecord) (id : TaskId) :
    Option (TaskState × Option TaskResult) :=
  (record.tasks.get? id).map TaskRecord.outcome

def TaskInputBinding.producer? : TaskInputBinding → Option TaskId
  | .taskOutput task _ _ | .settledOutcome task => some task
  | .inline _ | .supplied _ _ => none

variable {first second : WorkflowRecord}

theorem WorkflowRecord.outcome?_cases {id : TaskId} (same : first.outcome? id = second.outcome? id) :
    (first.tasks.get? id = none ∧ second.tasks.get? id = none) ∨ ∃ task task',
      first.tasks.get? id = some task ∧ second.tasks.get? id = some task' ∧
      task.state = task'.state ∧ task.result = task'.result := by
  cases one : first.tasks.get? id <;> cases two : second.tasks.get? id <;>
    simp_all [outcome?, TaskRecord.outcome]

variable {definition : TaskDefinition}

theorem checkDependency_congr {id : TaskId} (same : first.outcome? id = second.outcome? id) :
    checkDependency first definition id = checkDependency second definition id := by
  rcases outcome?_cases same with ⟨one, two⟩ | ⟨_, _, one, two, state, _⟩
  · simp only [checkDependency, one, two]
  · simp only [checkDependency, one, two, require, bind, Except.bind, state]

theorem checkCorrective_congr
    (same : ∀ id, definition.correctiveOf = some id → first.outcome? id = second.outcome? id) :
    checkCorrective first definition = checkCorrective second definition := by
  unfold checkCorrective
  cases origin : definition.correctiveOf with
  | none => rfl
  | some id =>
    rcases outcome?_cases (same id origin) with
      ⟨one, two⟩ | ⟨_, _, one, two, state, _⟩
    · simp only [one, two]
    · simp only [one, two, Option.any_some, state]

variable [Codec]

theorem bindingValue_congr {binding : TaskInputBinding}
    (inputs : binding.producer? = none → first.inputs = second.inputs)
    (same : ∀ id, binding.producer? = some id → first.outcome? id = second.outcome? id) :
    bindingValue first binding = bindingValue second binding := by
  cases binding with
  | inline value => rfl
  | supplied name optional => simp only [bindingValue, inputs rfl]
  | taskOutput id | settledOutcome id =>
    rcases outcome?_cases (same id rfl) with
      ⟨one, two⟩ | ⟨_, _, one, two, state, result⟩
    · simp only [bindingValue, one, two]
    · simp only [bindingValue, one, two, require, bind, Except.bind, state, result]

variable {record : WorkflowRecord} {inputs : SortedMap String TaskInputValue}

theorem bindingValues_eq_ok_iff {bindings : List (String × TaskInputBinding)}
    {values : List (String × TaskInputValue)} :
    bindingValues record bindings = .ok values ↔ List.Forall₂ (fun binding value =>
        binding.1 = value.1 ∧ bindingValue record binding.2 = .ok value.2) bindings values := by
  induction bindings generalizing values with
  | nil =>
    simp only [bindingValues, List.forall₂_nil_left_iff, Except.ok.injEq]
    exact eq_comm
  | cons binding rest ih =>
    obtain ⟨name, binding⟩ := binding
    simp only [bindingValues, except_bind_eq_ok]
    constructor
    · rintro ⟨value, resolved, later, tail, same⟩
      cases same
      exact .cons ⟨rfl, resolved⟩ (ih.mp tail)
    · intro pairs
      cases pairs with
      | cons head tail =>
        rename_i value later
        obtain ⟨same, resolved⟩ := head
        obtain ⟨name', value⟩ := value
        cases same
        exact ⟨value, resolved, later, ih.mpr tail, rfl⟩

theorem resolveInputs_eq_ok_iff {task : TaskRecord} : resolveInputs record task = .ok inputs ↔
      checkCorrective record task.definition = .ok () ∧ (∀ id ∈ task.definition.dependencies.keys,
          checkDependency record task.definition id = .ok ()) ∧
        bindingValues record task.definition.inputs.entries = .ok inputs.entries := by
  simp only [resolveInputs, except_bind_eq_ok, forEach_eq_ok_iff]
  constructor
  · rintro ⟨_, corrective, _, dependencies, done⟩
    refine ⟨corrective, dependencies, ?_⟩
    split at done
    · cases done
    next values resolved =>
      cases done
      exact resolved
  · rintro ⟨corrective, dependencies, resolved⟩
    refine ⟨(), corrective, (), dependencies, ?_⟩
    split
    next failed =>
      rw [resolved] at failed
      cases failed
    next values found =>
      rw [resolved] at found
      cases found
      rfl

theorem resolveInputs_transfer {one two : TaskRecord} (supplied : first.inputs = second.inputs)
    (outcomes : ∀ id, first.outcome? id = second.outcome? id)
    (definition : one.definition = two.definition) (ready : resolveInputs first one = .ok inputs) :
    resolveInputs second two = .ok inputs := by
  rw [resolveInputs_eq_ok_iff] at ready ⊢
  obtain ⟨corrective, dependencies, values⟩ := ready
  rw [← definition]
  refine ⟨?_, fun id member => ?_, ?_⟩
  · rw [← checkCorrective_congr fun id _ => outcomes id]
    exact corrective
  · rw [← checkDependency_congr (outcomes id)]
    exact dependencies id member
  · rw [bindingValues_eq_ok_iff] at values ⊢
    refine values.imp fun binding value ⟨named, resolved⟩ => ⟨named, ?_⟩
    rw [← bindingValue_congr (fun _ => supplied) fun id _ => outcomes id]
    exact resolved

end Milkdrift
