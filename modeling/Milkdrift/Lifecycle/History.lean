/-
Purpose: Induction over the saves of one workflow, and the dispatch and definitions every save keeps.
Trusted boundary: Codec
-/
import Milkdrift.Lifecycle.Refinement

namespace Milkdrift

open List

variable [Codec] {saves : List Save} {record : WorkflowRecord}

omit [Codec] in
theorem createdTasks_queued {aliases : SortedMap TaskId TaskId} {now : TimestampMillis}
    {added : List NewTask} {tasks created : SortedMap TaskId TaskRecord}
    (done : Admission.createdTasks aliases now added tasks = .ok created)
    (start : ∀ id task, tasks.get? id = some task →
      ∃ definition, task = TaskRecord.queued id definition now) :
    ∀ id task, created.get? id = some task → ∃ definition, task = TaskRecord.queued id definition now := by
  induction added generalizing tasks with
  | nil =>
    cases done
    exact start
  | cons task rest ih =>
    simp only [Admission.createdTasks, except_bind_eq_ok] at done
    obtain ⟨id, _, done⟩ := done
    exact ih done (SortedMap.forall_insert start ⟨_, rfl⟩)

variable {task : TaskRecord} {base next : WorkflowRecord} {cause : Cause} {start : FrozenTaskStart}

theorem Created.queued (created : Created record) {id : TaskId} {task : TaskRecord}
    (found : record.tasks.get? id = some task) :
    ∃ definition now, task = TaskRecord.queued id definition now := by
  obtain ⟨_, _, _, _, _, _, now, _, _, done, _, rfl⟩ := created
  obtain ⟨definition, same⟩ :=
    createdTasks_queued done (fun _ _ present => nomatch present) id task found
  exact ⟨definition, now, same⟩

/-- A start that was accepted stays accepted through every save. -/
theorem Transition.retained (transition : Transition base cause next) {id : TaskId}
    (found : base.tasks.get? id = some task) (frozen : task.frozen = some start) :
    ∃ task' start', next.tasks.get? id = some task' ∧ task'.definition = task.definition ∧
      task'.frozen = some start' ∧ Retained start start' := by
  obtain ⟨_, _, evolution⟩ := transition.effect_always.tasks
  obtain ⟨_, task', found', path⟩ := evolution.lookup found
  obtain ⟨same, start', frozen', retained⟩ := path.frozen_retained frozen
  exact ⟨task', start', found', same, frozen', retained⟩

def WorkflowRecord.Keeps (id : TaskId) (start : FrozenTaskStart) (record : WorkflowRecord) : Prop :=
  ∃ task later, record.tasks.get? id = some task ∧ task.frozen = some later ∧ Retained start later

theorem Transition.keeps {id : TaskId} (transition : Transition base cause next)
    (kept : base.Keeps id start) : next.Keeps id start := by
  obtain ⟨task, later, found, frozen, retained⟩ := kept
  obtain ⟨task', later', found', _, frozen', retained'⟩ := transition.retained found frozen
  exact ⟨task', later', found', frozen', retained.trans retained'⟩

def Save.RequeuesStarted (save : Save) : Prop :=
  ∀ base, save.prior = some base → Guarded (fun task => task.frozen.isSome = true) base save.cause

namespace History

theorem last (history : History saves record) :
    ∃ before save, saves = before ++ [save] ∧ save.record = record := by
  cases history with
  | create => exact ⟨[], _, rfl, rfl⟩
  | step => exact ⟨_, _, rfl, rfl⟩

theorem last_mem (history : History saves record) : ∃ save ∈ saves, save.record = record := by
  obtain ⟨before, save, rfl, same⟩ := history.last
  exact ⟨save, by simp, same⟩

variable {before : List Save} {save : Save}

theorem split (history : History saves record) {after : List Save}
    (located : saves = before ++ save :: after) :
    History (before ++ [save]) save.record ∧
      (before = [] ∧ save.prior = none ∧ save.cause = .create ∧ Created save.record ∨
        ∃ base, save.prior = some base ∧ History before base ∧
          Transition base save.cause save.record ∧ Rule before base save.cause) := by
  induction history generalizing after with
  | create created =>
    cases before with
    | nil =>
      simp only [nil_append, cons.injEq] at located
      obtain ⟨rfl, _⟩ := located
      exact ⟨.create created, .inl ⟨rfl, rfl, rfl, created⟩⟩
    | cons => simp at located
  | @step saves base next cause earlier transition rule ih =>
    rcases eq_nil_or_concat after with rfl | ⟨after', final, rfl⟩
    · obtain ⟨rfl, same⟩ := append_inj' located rfl
      cases same
      exact ⟨.step earlier transition rule, .inr ⟨base, rfl, earlier, transition, rule⟩⟩
    · rw [concat_eq_append, ← cons_append, ← append_assoc] at located
      obtain ⟨rfl, _⟩ := append_inj' located rfl
      exact ih rfl

theorem of_mem (history : History saves record) (member : save ∈ saves) :
    ∃ before after, saves = before ++ save :: after ∧ History (before ++ [save]) save.record ∧
      (before = [] ∧ save.prior = none ∧ save.cause = .create ∧ Created save.record ∨
        ∃ base, save.prior = some base ∧ History before base ∧
          Transition base save.cause save.record ∧ Rule before base save.cause) := by
  obtain ⟨before, after, located⟩ := append_of_mem member
  exact ⟨before, after, located, history.split located⟩

section

variable (condition : Save → Prop) (holds : WorkflowRecord → Prop)
  (create : ∀ record, Created record → holds record)
  (step : ∀ base cause next, holds base → condition ⟨some base, cause, next⟩ →
    Transition base cause next → holds next)
include step

section

include create

/-- A property of records that creation establishes and saves keep. The saves may be assumed to meet a
condition. -/
theorem invariant (history : History saves record) (all : ∀ save ∈ saves, condition save) :
    holds record := by
  induction history with
  | create created => exact create _ created
  | step earlier transition _ ih =>
    refine step _ _ _ (ih fun save member => all save (by simp [member])) ?_
      transition
    exact all _ (by simp)

theorem invariant_mem (history : History saves record) (all : ∀ save ∈ saves, condition save)
    (member : save ∈ saves) : holds save.record := by
  obtain ⟨before, after, rfl, upTo, _⟩ := history.of_mem member
  refine invariant condition holds create step upTo fun other inside => all other ?_
  rcases mem_append.mp inside with early | here
  · exact mem_append_left _ early
  · rw [mem_singleton.mp here]
    simp

end

theorem onward (history : History saves record) {after : List Save} {early : Save}
    (located : saves = before ++ early :: after) (all : ∀ save ∈ after, condition save)
    (start : holds early.record) : holds record ∧ ∀ late ∈ after, holds late.record := by
  induction history generalizing after with
  | create created =>
    cases before with
    | nil =>
      simp only [nil_append, cons.injEq] at located
      obtain ⟨rfl, rfl⟩ := located
      exact ⟨start, fun _ member => nomatch member⟩
    | cons => simp at located
  | @step saves base next cause earlier transition rule ih =>
    rcases eq_nil_or_concat after with rfl | ⟨after', final, rfl⟩
    · obtain ⟨rfl, same⟩ := append_inj' located rfl
      cases same
      exact ⟨start, fun _ member => nomatch member⟩
    · have shape : before ++ early :: (after' ++ [final]) = (before ++ early :: after') ++ [final] := by
        simp
      rw [concat_eq_append, shape] at located
      obtain ⟨rfl, same⟩ := append_inj' located rfl
      cases same
      obtain ⟨current, others⟩ :=
        ih rfl fun save member => all save (by simp [member])
      have reached : holds next := step base cause next current (all _ (by simp)) transition
      refine ⟨reached, fun late member => ?_⟩
      rw [concat_eq_append, mem_append, mem_singleton] at member
      rcases member with earlier | rfl
      · exact others late earlier
      · exact reached

end

/-! ### Generations and identity -/

section

variable (history : History saves record)
include history

theorem generation_le (member : save ∈ saves) : save.record.generation ≤ record.generation := by
  induction history with
  | create => simp_all
  | step earlier transition _ ih =>
    rcases mem_append.mp member with early | last
    · have below := ih early
      rw [transition.generation]
      omega
    · rw [mem_singleton.mp last]

theorem sorted : saves.Pairwise fun early late => early.record.generation < late.record.generation := by
  induction history with
  | create => simp
  | step earlier transition _ ih =>
    rw [pairwise_append]
    refine ⟨ih, by simp, fun early member late same => ?_⟩
    rw [mem_singleton.mp same, transition.generation]
    exact Nat.lt_succ_of_le (earlier.generation_le member)

theorem unique {first second : Save} (one : first ∈ saves)
    (two : second ∈ saves) (same : first.record.generation = second.record.generation) :
    first = second := by
  have distinct : (saves.map fun save => save.record.generation).Nodup :=
    pairwise_map.mpr (history.sorted.imp Nat.ne_of_lt)
  exact inj_on_of_nodup_map distinct one two same

/-! ### Recovered tasks -/

/-- A task that recovery returns to the queue has a start: it was seen with one, and starts stay. -/
theorem guarded {cause : Cause} (rule : Rule saves record cause) :
    Guarded (fun task => task.frozen.isSome = true) record cause := by
  intro id task same found
  obtain ⟨seen, member, earlier, start, present, _, frozen, _⟩ := rule.requeue id same
  obtain ⟨before, after, located⟩ := append_of_mem member
  obtain ⟨task', start', found', frozen', _⟩ :=
    (history.onward (fun _ => True) (WorkflowRecord.Keeps id start)
      (fun _ _ _ kept _ transition => transition.keeps kept) located (fun _ _ => trivial)
      ⟨earlier, start, present, frozen, .refl start⟩).1
  rw [found] at found'
  cases found'
  rw [frozen']
  rfl

theorem requeuesStarted (member : save ∈ saves) : save.RequeuesStarted := by
  intro base prior
  obtain ⟨before, after, _, _, origin⟩ := history.of_mem member
  rcases origin with ⟨_, absent, _⟩ | ⟨base', prior', earlier, _, rule⟩
  · rw [absent] at prior
    cases prior
  · rw [prior] at prior'
    cases prior'
    exact earlier.guarded rule

end

end History

end Milkdrift

namespace Milkdrift

variable [Codec]

section

variable {guard : TaskRecord → Prop} {cause : Cause} {id : TaskId} {charge : Nat}
  {old new : TaskRecord}

theorem Move.id_kept (move : Move guard cause id charge old new) : new.id = old.id := by
  cases move with
  | doubt _ _ _ done =>
    obtain ⟨_, _, _, _, rfl⟩ := uncertainTask_ok done
    rfl
  | report event now =>
    unfold Report.reportedTask
    split <;> rfl
  | stop now unsettled future => simp [Admission.stoppedTask, unsettled, future]
  | note | charge | redefine | remove | start | resume | refuse | enter | defer | finish | requeue =>
    rfl

theorem Move.unentered (move : Move guard cause id charge old new) (other : cause ≠ .start id)
    {later : FrozenTaskStart} (frozen : new.frozen = some later) (unentered : later.entered = false) :
    ∃ start, old.frozen = some start ∧ start.entered = false ∧ later.dispatch = start.dispatch := by
  cases move with
  | start => exact absurd rfl other
  | note | redefine | remove | resume | refuse | defer | finish | requeue =>
    exact ⟨later, frozen, unentered, rfl⟩
  | stop _ unsettled future => simp [Admission.stoppedTask, unsettled, future] at frozen
  | charge _ known =>
    cases frozen
    exact ⟨_, known, unentered, rfl⟩
  | enter =>
    cases frozen
    cases unentered
  | doubt _ _ _ done =>
    obtain ⟨start, _, known, _, rfl⟩ := uncertainTask_ok done
    cases frozen
    exact ⟨start, known, unentered, rfl⟩
  | report event now _ known =>
    rw [reportedTask_frozen] at frozen
    cases frozen
    exact ⟨_, known, unentered, rfl⟩

end

def TaskRecord.StartsNamed (workflow : WorkflowId) (id : TaskId) (task : TaskRecord) : Prop :=
  ∀ start, task.frozen = some start → start.entered = false →
    start.dispatch.run.text = workflow.text ∧ start.dispatch.node.text = id.text

def WorkflowRecord.Placed (record : WorkflowRecord) : Prop :=
  ∀ id task, record.tasks.get? id = some task → task.id = id ∧ task.StartsNamed record.id id

variable {record : WorkflowRecord}

theorem Created.placed (created : Created record) : record.Placed := by
  intro id task found
  obtain ⟨definition, now, rfl⟩ := created.queued found
  exact ⟨rfl, fun start frozen => nomatch frozen⟩

/-- The start of a task freezes a dispatch that names it; no other save touches an unentered dispatch. -/
theorem Transition.placed {base next : WorkflowRecord} {cause : Cause}
    (transition : Transition base cause next) (placed : base.Placed) : next.Placed := by
  have named := transition.effect_always.id
  by_cases starts : ∃ id, cause = .start id
  · obtain ⟨id, rfl⟩ := starts
    obtain ⟨now, reason, body, step, _, _, rfl⟩ := transition
    cases step with
    | @start _ task inputs dispatch at_ found queued future ready shown here _ =>
      intro other task' found'
      rw [transitioned_tasks, SortedMap.get?_mapValues] at found'
      obtain ⟨changed, present, rfl⟩ := Option.map_eq_some_iff.mp found'
      obtain ⟨stopped, same⟩ : ∃ stopped, policyStop reason changed =
          { changed with stopRequested := stopped } := by
        unfold policyStop Duration.requestStop
        split <;> exact ⟨_, rfl⟩
      rw [same, named]
      simp only [WorkflowRecord.modifyTask, SortedMap.get?_modify] at present
      split at present
      next here' =>
        subst here'
        rw [found] at present
        cases present
        have own := (placed other task found).1
        refine ⟨own, fun start frozen _ => ?_⟩
        cases frozen
        exact ⟨here.1, own ▸ here.2⟩
      · exact placed other changed present
  · rw [WorkflowRecord.Placed, named]
    refine transition.effect_always.each (fun id task => task.id = id ∧ task.StartsNamed base.id id)
      (fun id charge old new move holds => ?_) (fun id definition now => ?_) placed
    · refine ⟨move.id_kept.trans holds.1, fun later frozen unentered => ?_⟩
      obtain ⟨start, known, unentered', same⟩ :=
        move.unentered (fun is => starts ⟨id, is⟩) frozen unentered
      rw [same]
      exact holds.2 start known unentered'
    · exact ⟨rfl, fun start frozen => by cases frozen⟩

theorem History.placed {saves : List Save} (history : History saves record) : record.Placed :=
  history.invariant (fun _ => True) WorkflowRecord.Placed (fun _ created => created.placed)
    (fun _ _ _ placed _ transition => transition.placed placed) fun _ _ => trivial

end Milkdrift

namespace Milkdrift

open Admission SortedMap

/-! ### The definitions of a record -/

theorem definitions_get?_iff {tasks : SortedMap TaskId TaskRecord} {id : TaskId}
    {definition : TaskDefinition} :
    (definitions tasks).get? id = some definition ↔
      ∃ task, tasks.get? id = some task ∧ task.removed = false ∧ task.definition = definition := by
  unfold definitions
  rw [get?_mapValues, Option.map_eq_some_iff]
  simp only [get?_filter_eq_some_iff, Bool.not_eq_true', and_assoc]

def TaskRecord.obligation (task : TaskRecord) : Bool × TaskDefinition :=
  (task.removed, task.definition)

theorem definitions_congr {first second : SortedMap TaskId TaskRecord}
    (same : ∀ id, (first.get? id).map TaskRecord.obligation = (second.get? id).map
      TaskRecord.obligation) : definitions first = definitions second := by
  have included : ∀ {one two : SortedMap TaskId TaskRecord} {id : TaskId} {definition : TaskDefinition},
      (one.get? id).map TaskRecord.obligation = (two.get? id).map TaskRecord.obligation →
      (definitions one).get? id = some definition →
      (definitions two).get? id = some definition := by
    intro one two id definition here found
    obtain ⟨task, present, kept, rfl⟩ := definitions_get?_iff.mp found
    rw [present] at here
    obtain ⟨task', present', obligation⟩ := Option.map_eq_some_iff.mp here.symm
    simp only [TaskRecord.obligation, Prod.mk.injEq] at obligation
    exact definitions_get?_iff.mpr ⟨task', present', obligation.1.trans kept, obligation.2⟩
  exact ext_get? fun id => Option.ext fun definition =>
    ⟨included (same id), included (same id).symm⟩

variable [Codec]

/-! ### Saves -/

def WorkflowRecord.ValidSet (record : WorkflowRecord) : Prop :=
  ∃ limits published, validateTaskSet (Admission.definitions record.tasks) limits published = .ok ()

variable {record base next : WorkflowRecord} {cause : Cause}

theorem Created.validSet (created : Created record) : record.ValidSet := by
  obtain ⟨_, _, request, tasks, _, _, _, _, _, _, valid, rfl⟩ := created
  simp only [validateCreated, except_bind_eq_ok, withRefusal_eq_ok_iff] at valid
  obtain ⟨_, checked, _⟩ := valid
  exact ⟨_, _, checked⟩

omit [Codec] in
theorem definitions_transitioned (cause : Cause) (now : TimestampMillis) (reason : Option String)
    (body : WorkflowRecord) : definitions (transitioned cause now reason body).tasks =
      definitions body.tasks := by
  refine definitions_congr fun id => ?_
  cases found : body.tasks.get? id with
  | none => rw [transitioned_tasks, get?_mapValues, found]; rfl
  | some task =>
    obtain ⟨_, found'⟩ := @transitioned_get? cause now reason body id task found
    rw [found']
    rfl

theorem Effect.obligation {guard : TaskRecord → Prop} (effect : Effect guard cause base next)
    (other : ∀ batch aliases source, cause ≠ .edit batch aliases source) (id : TaskId) :
    (next.tasks.get? id).map TaskRecord.obligation = (base.tasks.get? id).map TaskRecord.obligation := by
  obtain ⟨_, _, evolution⟩ := effect.tasks
  cases found : base.tasks.get? id with
  | some task =>
    obtain ⟨_, task', found', path⟩ := evolution.lookup found
    have kept : task'.obligation = task.obligation := path.constant fun _ _ _ move => by
      obtain ⟨removed, definition⟩ := move.definition_kept other
      simp only [TaskRecord.obligation, removed, definition]
    rw [found', Option.map_some, Option.map_some, kept]
  | none =>
    cases found' : next.tasks.get? id with
    | none => rfl
    | some task' =>
      obtain ⟨_, _, ⟨⟨batch, aliases, source, edit, _⟩, _⟩, _⟩ :=
        evolution.lookup_new found found'
      exact absurd edit (other batch aliases source)

/-- Edits check the set they leave, other bodies keep it. -/
theorem Body.validSet {body : WorkflowRecord} (step : Body base cause body) (valid : base.ValidSet) :
    body.ValidSet := by
  have effect : Effect (fun _ => True) cause base body := step.effect fun _ _ _ _ => trivial
  cases step with
  | @edit _ _ _ _ _ edited _ _ _ _ checked done =>
    have kept := (@acceptSource_edited _ (fun _ => True) .create (fun _ _ => False) _ _ _ _ _ done).2
    simp only [validateEdited, except_bind_eq_ok, withRefusal_eq_ok_iff] at checked
    obtain ⟨_, checked, _⟩ := checked
    refine ⟨edited.limits, publishedOutput edited, ?_⟩
    rw [kept]
    exact checked
  | _ =>
    obtain ⟨limits, published, checked⟩ := valid
    refine ⟨limits, published, ?_⟩
    rw [definitions_congr (effect.obligation fun _ _ _ => Cause.noConfusion)]
    exact checked

/-! ### Removed tasks -/

def TaskRecord.Retired (task : TaskRecord) : Prop :=
  task.removed = true → task.state = .stopped ∧ task.frozen = none

theorem Move.retired {id : TaskId} {charge : Nat} {old new : TaskRecord}
    (move : Move (fun task => task.frozen.isSome = true) cause id charge old new)
    (retired : old.Retired) : new.Retired := by
  intro removed
  cases before : old.removed with
  | true =>
    -- a stopped task without a start makes no move but a note
    obtain ⟨state, future⟩ := retired before
    cases move with
    | note => exact ⟨state, future⟩
    | requeue guarded => simp [future] at guarded
    | charge unsettled | stop _ unsettled | finish _ _ _ unsettled | doubt _ _ unsettled
    | report _ _ unsettled => simp [state, TaskState.isSettled] at unsettled
    | redefine _ _ _ _ queued | remove _ queued | start _ _ _ _ queued | resume queued
    | refuse _ _ queued =>
      rw [state] at queued
      cases queued
    | enter _ _ running | defer _ running =>
      rw [state] at running
      cases running
  | false =>
    by_cases edit : ∃ batch aliases source, cause = .edit batch aliases source
    · obtain ⟨_, _, _, rfl⟩ := edit
      -- among the moves of an edit, only a removal removes
      cases move with
      | remove now queued future asked => exact ⟨rfl, future⟩
      | stop now unsettled future =>
        simp [stoppedTask, unsettled, future, before] at removed
      | note | charge | redefine => exact absurd (before.symm.trans removed) Bool.false_ne_true
    · have kept := (move.definition_kept fun batch aliases source same =>
        edit ⟨batch, aliases, source, same⟩).1
      exact absurd (before.symm.trans (kept.symm.trans removed)) Bool.false_ne_true

def WorkflowRecord.Retired (record : WorkflowRecord) : Prop :=
  ∀ id task, record.tasks.get? id = some task → task.Retired

theorem Effect.retired (effect : Effect (fun task => task.frozen.isSome = true) cause base next)
    (retired : base.Retired) : next.Retired :=
  effect.each (fun _ task => task.Retired) (fun _ _ _ _ move => move.retired)
    (fun _ _ _ removed => nomatch removed) retired

theorem Created.retired (created : Created record) : record.Retired := by
  intro id task found removed
  obtain ⟨_, _, rfl⟩ := created.queued found
  cases removed

end Milkdrift
