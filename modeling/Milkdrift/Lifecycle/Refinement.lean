/-
Purpose: Every save refines the life of its tasks, and the ledger grows by what the moves charge.
Trusted boundary: Codec
-/
import Milkdrift.Lifecycle.Edit

namespace Milkdrift

open Duration ModelActions Evolution Report TaskRecord

def Cause.isEntry : Cause → Bool
  | .entry _ _ _ _ => true
  | _ => false

variable [Codec] {guard : TaskRecord → Prop} {cause : Cause}

/-- What a save does to the record it was computed from. -/
structure Effect (guard : TaskRecord → Prop) (cause : Cause) (base next : WorkflowRecord) : Prop where
  tasks : ∃ spent, next.activeExecutionMs = base.activeExecutionMs + spent ∧
    Evolution (Move guard cause) (Born cause) base.tasks spent next.tasks
  id : next.id = base.id
  allowance : next.allowance = base.allowance
  account : cause.isEntry = false → next.committedAllowance = base.committedAllowance ∧
    next.spendingCurrency = base.spendingCurrency
  admissions : ∀ task admission, next.admissions.get? task = some admission →
    (∃ earlier, base.admissions.get? task = some earlier ∧
      earlier.expectedGeneration = admission.expectedGeneration) ∨
    ∃ record start, next.tasks.get? task = some record ∧ record.frozen = some start ∧
      admission.expectedGeneration = start.acceptedGeneration
  wait : cause.isEdit = false → base.waitQuestion.isSome = true → next.waitQuestion.isSome = true

variable {base next accrued body : WorkflowRecord} {start : FrozenTaskStart} {task : TaskRecord}
  {changed repairAllowed : Bool} {dispatch : ExecutionDispatch} {event : InvocationEvent}
  {source : TaskId} {reason : String} {id : TaskId}

theorem Effect.each (holds : TaskId → TaskRecord → Prop) (effect : Effect guard cause base next)
    (moves : ∀ id charge old new, Move guard cause id charge old new → holds id old → holds id new)
    (queued : ∀ id definition now, holds id (queued id definition now))
    (start : ∀ id task, base.tasks.get? id = some task → holds id task) :
    ∀ id task, next.tasks.get? id = some task → holds id task := by
  obtain ⟨spent, _, evolution⟩ := effect.tasks
  intro id task found
  cases known : base.tasks.get? id with
  | some old =>
    obtain ⟨_, new, present, path⟩ := evolution.lookup known
    rw [found] at present
    cases present
    exact path.preserves (moves id) (start id old known)
  | none =>
    obtain ⟨_, first, born, path⟩ := evolution.lookup_new known found
    obtain ⟨_, definition, now, rfl⟩ := born
    exact path.preserves (moves id) (queued id definition now)

/-! ### Starts along moves -/

theorem Path.frozen_retained {spent : Nat} {old new : TaskRecord}
    (path : Path (Move guard cause id) old spent new) (frozen : old.frozen = some start) :
    new.definition = old.definition ∧ ∃ later, new.frozen = some later ∧ Retained start later := by
  induction path with
  | refl => exact ⟨rfl, start, frozen, .refl start⟩
  | tail _ taken ih =>
    obtain ⟨same, middle, kept, retained⟩ := ih
    obtain ⟨same', later, kept', retained'⟩ := taken.frozen_retained kept
    exact ⟨same'.trans same, later, kept', retained.trans retained'⟩

namespace Effect

theorem trans {first second third : WorkflowRecord} (early : Effect guard cause first second)
    (late : Effect guard cause second third) : Effect guard cause first third where
  tasks := by
    obtain ⟨spent, ledger, evolution⟩ := early.tasks
    obtain ⟨more, ledger', evolution'⟩ := late.tasks
    exact ⟨spent + more, by omega, evolution.trans evolution'⟩
  id := late.id.trans early.id
  allowance := late.allowance.trans early.allowance
  account other :=
    ⟨(late.account other).1.trans (early.account other).1,
      (late.account other).2.trans (early.account other).2⟩
  admissions task admission found := by
    rcases late.admissions task admission found with ⟨middle, here, same⟩ | opened
    · rcases early.admissions task middle here with ⟨earlier, there, same'⟩ | opened
      · exact .inl ⟨earlier, there, same'.trans same⟩
      · -- an admission opened by the first part: its start is still the accepted one
        obtain ⟨record, start, present, frozen, expected⟩ := opened
        obtain ⟨spent, _, evolution⟩ := late.tasks
        obtain ⟨_, later, present', path⟩ := evolution.lookup present
        obtain ⟨_, start', frozen', retained⟩ := path.frozen_retained frozen
        exact .inr ⟨later, start', present', frozen',
          same.symm.trans (expected.trans retained.acceptedGeneration.symm)⟩
    · exact .inr opened
  wait other standing := late.wait other (early.wait other standing)

variable {base next : WorkflowRecord}

theorem worked {spent : Nat} (ledger : next.activeExecutionMs = base.activeExecutionMs + spent)
    (tasks : Evolution (Move guard cause) (Born cause) base.tasks spent next.tasks)
    (wait : cause.isEdit = false → base.waitQuestion.isSome = true → next.waitQuestion.isSome = true)
    (rest : next.id = base.id ∧ next.allowance = base.allowance ∧ next.committedAllowance =
      base.committedAllowance ∧ next.spendingCurrency = base.spendingCurrency ∧ next.admissions =
      base.admissions) : Effect guard cause base next where
  tasks := ⟨spent, ledger, tasks⟩
  id := rest.1
  allowance := rest.2.1
  account _ := ⟨rest.2.2.1, rest.2.2.2.1⟩
  admissions _ admission found := .inl ⟨admission, rest.2.2.2.2 ▸ found, rfl⟩
  wait

theorem moved {task : TaskRecord} {change : TaskRecord → TaskRecord}
    (found : base.tasks.get? id = some task) (move : Move guard cause id 0 task (change task)) :
    Effect guard cause base (base.modifyTask id change) :=
  worked rfl (modify change found (.single move)) (fun _ standing => standing) ⟨rfl, rfl, rfl, rfl, rfl⟩

theorem ofEdited {fresh : TaskId → TaskRecord → Prop} (edited : Edited guard cause fresh base next)
    (edit : cause.isEdit = true) (born : ∀ id task, fresh id task → Born cause id task) :
    Effect guard cause base next where
  tasks := ⟨0, edited.activeExecutionMs, edited.tasks.mono_fresh born⟩
  id := edited.id
  allowance := edited.allowance
  account _ := ⟨edited.committedAllowance, edited.spendingCurrency⟩
  admissions task admission found := .inl (edited.admissions task admission found)
  wait other := by simp [edit] at other

end Effect

/-! ### The shared parts -/

variable {task' : TaskRecord} {account account' : Nat × Bool} {now : TimestampMillis}

omit [Codec] in
/-- A charge leaves a task whose clock is closed, and moves an open clock up to `now`. -/
theorem accrueTask_cases (done : accrueTask now task account = .ok (task', account')) :
    (task' = task ∧ account' = account ∧ (task.state.isSettled = true ∨ task.duration = none)) ∨
      ∃ start duration elapsed, task.state.isSettled = false ∧ task.frozen = some start ∧
        start.executionDuration = some duration ∧ now = duration.accountedAt + elapsed ∧
        task' = { task with frozen := some { start with
          executionDuration := some { duration with accountedAt := now } } } ∧
        account' = (account.1 + elapsed, account.2 || elapsed != 0) := by
  unfold accrueTask at done
  split at done
  next settled =>
    cases done
    exact .inl ⟨rfl, rfl, .inl settled⟩
  next unsettled =>
    split at done
    next frozen =>
      cases done
      exact .inl ⟨rfl, rfl, .inr (by simp [duration, frozen])⟩
    next start frozen =>
      split at done
      next clock =>
        cases done
        exact .inl ⟨rfl, rfl, .inr (by simp [duration, frozen, clock])⟩
      next duration clock =>
        simp only [checked_eq_ok_iff, checkedSub_eq_some_iff, checkedAdd_eq_some_iff] at done
        obtain ⟨elapsed, advanced, ledger, ⟨rfl, _⟩, same⟩ := done
        cases same
        exact .inr ⟨start, duration, elapsed, Bool.eq_false_of_not_eq_true unsettled, frozen, clock,
          advanced, rfl, rfl⟩

theorem accrueTask_path (id : TaskId) (done : accrueTask now task account = .ok (task', account')) :
    ∃ charge, account'.1 = account.1 + charge ∧ Path (Move guard cause id) task charge task' := by
  rcases accrueTask_cases done with ⟨rfl, rfl, _⟩ |
    ⟨start, duration, elapsed, unsettled, frozen, clocked, advanced, rfl, rfl⟩
  · exact ⟨0, rfl, .refl⟩
  · refine ⟨elapsed, rfl, .single ?_⟩
    have charged : now - duration.accountedAt = elapsed := Nat.sub_eq_of_eq_add' advanced
    rw [← charged]
    exact .charge unsettled frozen clocked (Nat.le.intro advanced.symm)

section
omit [Codec]

theorem accrue_ok (done : accrue base now = .ok (accrued, changed)) :
    ∃ tasks ledger, accrued = { base with tasks, activeExecutionMs := ledger } ∧
      base.tasks.mapFoldM (accrueTask now) (base.activeExecutionMs, false) =
        .ok (tasks, ledger, changed) := by
  simp only [accrue, except_bind_eq_ok] at done
  obtain ⟨⟨tasks, ledger, changed'⟩, charged, same⟩ := done
  cases same
  exact ⟨tasks, ledger, rfl, charged⟩

/-- Without a running clock there is nothing to charge. -/
theorem accrue_unclocked {record : WorkflowRecord}
    (unclocked : ∀ task ∈ record.tasks.values, task.state.isSettled = false → task.duration = none)
    (now : TimestampMillis) : accrue record now = .ok (record, false) := by
  have visit : ∀ task ∈ record.tasks.values, ∀ account,
      accrueTask now task account = .ok (task, account) := by
    intro task member account
    unfold accrueTask
    split
    · rfl
    next unsettled =>
      have none := unclocked task member (Bool.eq_false_of_not_eq_true unsettled)
      cases frozen : task.frozen with
      | none => rfl
      | some start =>
        simp only [duration, frozen, Option.bind_some] at none
        simp [none]
  rw [accrue, SortedMap.mapFoldM_unchanged visit]
  rfl

end

theorem accrue_effect (done : accrue base now = .ok (accrued, changed)) :
    Effect guard cause base accrued := by
  obtain ⟨tasks, ledger, rfl, charged⟩ := accrue_ok done
  obtain ⟨spent, total, evolution⟩ := mapFoldM Prod.fst
    (fun id _ _ _ _ visited => accrueTask_path id visited) charged
  exact .worked total evolution (fun _ standing => standing) ⟨rfl, rfl, rfl, rfl, rfl⟩

theorem requestStop_path (must : TaskRecord → Bool) (id : TaskId) (task : TaskRecord) :
    Path (Move guard cause id) task 0 (requestStop must task) := by
  unfold requestStop
  split
  · exact .single (.note task _ _ _ _ fun _ => rfl)
  · exact .refl

theorem durationStop_effect (base : WorkflowRecord) :
    Effect guard cause base (requestLimitStop base).1 := by
  refine .worked (Nat.add_zero _).symm (mapValues (requestStop_path _) _) ?_ ⟨rfl, rfl, rfl, rfl, rfl⟩
  intro _ standing
  simp only [requestLimitStop]
  split
  · rfl
  · exact standing

theorem policyStop_effect {stopped : WorkflowRecord}
    (done : Policy.requestLimitStop base = .ok (stopped, changed)) :
    Effect guard cause base stopped := by
  obtain ⟨reason, _, rfl, _⟩ := requestLimitStop_ok done
  refine .worked (Nat.add_zero _).symm (mapValues (requestStop_path _) _) ?_ ⟨rfl, rfl, rfl, rfl, rfl⟩
  intro _ standing
  simp [policyWait, standing]

theorem boundary_effect (now : TimestampMillis) (reason : Option String) (base : WorkflowRecord) :
    Effect guard cause base (transitioned cause now reason base) := by
  have waiting : ∀ question : Option String, question.isSome = true →
      (policyWait reason question).isSome = true := by
    intro question standing
    simp [policyWait, standing]
  rw [transitioned_eq]
  exact .worked (Nat.add_zero _).symm (mapValues (requestStop_path _) _)
    (fun _ => waiting _) ⟨rfl, rfl, rfl, rfl, rfl⟩

/-- What a new report is checked for against its task: it is the next one, there is room for it, and it
names no output again. -/
structure Report.Fresh (task : TaskRecord) (start : FrozenTaskStart) (event : InvocationEvent) : Prop where
  unsettled : task.state.isSettled = false
  unresolved : task.result = none
  next : event.sequence = start.reports.length + 1
  room : Capacity.validateReport start.reports event = .ok ()
  unnamed : ∀ output, event.kind.output? = some output →
    output.1 ∉ (start.reports.filterMap fun report => report.kind.output?).map Prod.fst

theorem applyReport_ok (done : applyReport base id dispatch now event = .ok (some next)) :
    ∃ task start, base.tasks.get? id = some task ∧ task.frozen = some start ∧
      start.entered = true ∧ start.dispatch = dispatch ∧ Report.Fresh task start event ∧
      next = (requestLimitStop { base with
        tasks := base.tasks.modify id fun _ => reportedTask event start now task
        admissions := reportedAdmissions id event start
          (reportedTask event start now task) base.admissions }).1 := by
  simp only [applyReport, checked_eq_ok_iff] at done
  obtain ⟨task, found, start, frozen, _, ⟨entered, owned⟩, done⟩ := done
  split at done
  · split at done <;> cases done
  · simp only [checked_eq_ok_iff] at done
    obtain ⟨_, ⟨unsettled, unresolved, _, next⟩, _, room, _, unnamed, same⟩ := done
    cases same
    refine ⟨task, start, found, frozen, entered, owned,
      ⟨unsettled, unresolved, next, room, fun output published => ?_⟩, rfl⟩
    rw [published, Option.any_some, List.any_eq_false] at unnamed
    intro again
    obtain ⟨earlier, member, same⟩ := List.mem_map.mp again
    obtain ⟨prior, inside, named⟩ := List.mem_filterMap.mp member
    exact unnamed prior inside (by simp [named, same])

variable {admission : ModelAdmission}

omit [Codec] in
theorem reportedAdmissions_opened {admissions : SortedMap TaskId ModelAdmission} {other : TaskId}
    (found : (reportedAdmissions id event start task admissions).get? other = some admission) :
    admissions.get? other = some admission ∨
      other = id ∧ admission.expectedGeneration = start.acceptedGeneration := by
  have inserted : ∀ response, (admissions.insert id
      (.pending response start.acceptedGeneration)).get? other = some admission →
      admissions.get? other = some admission ∨
        other = id ∧ admission.expectedGeneration = start.acceptedGeneration := by
    intro response present
    rw [SortedMap.get?_insert] at present
    split at present
    · cases present
      exact .inr ⟨by assumption, rfl⟩
    · exact .inl present
  unfold reportedAdmissions at found
  split at found
  · exact .inl found
  all_goals
    split at found
    · exact inserted _ found
    · exact .inl found

theorem report_effect (done : applyReport base id dispatch now event = .ok (some next)) :
    Effect guard (.report id event) base next := by
  obtain ⟨task, start, found, frozen, entered, _, fresh, rfl⟩ := applyReport_ok done
  refine .trans ?_ (durationStop_effect _)
  exact {
    tasks := ⟨0, rfl, modify (fun _ => reportedTask event start now task) found
      (.single (.report event now fresh.unsettled frozen entered))⟩
    id := rfl
    allowance := rfl
    account := fun _ => ⟨rfl, rfl⟩
    admissions := fun other admission present => by
      rcases reportedAdmissions_opened present with kept | ⟨rfl, expected⟩
      · exact .inl ⟨admission, kept, rfl⟩
      · exact .inr ⟨_, _, by simp [found]; rfl, reportedTask_frozen .., expected⟩
    wait := fun _ standing => standing }

/-! ### Model responses -/

section
omit [Codec]

theorem rejectModelBatch_ok (done : rejectModelBatch base source reason repairAllowed = .ok (some next)) :
    ∃ admission question modelAdmissionWait, base.admissions.get? source = some admission ∧
      admission.status = .pending ∧ next = { base with
        rejectedResponses := base.rejectedResponses + 1
        admissions := base.admissions.insert source { admission with
            status := .rejected, reason := some (truncateUtf8 reason 2048), repairAllowed }
        waitQuestion := some question
        modelAdmissionWait } := by
  simp only [rejectModelBatch, checked_eq_ok_iff] at done
  obtain ⟨admission, found, done⟩ := done
  split at done
  · cases done
  next pending =>
    simp only [checked_eq_ok_iff, checkedAdd_eq_some_iff] at done
    obtain ⟨rejected, ⟨rfl, _⟩, same⟩ := done
    cases same
    cases question : base.waitQuestion with
    | none => exact ⟨admission, _, _, found, not_not.mp pending, rfl⟩
    | some asked =>
      exact ⟨admission, asked, base.modelAdmissionWait, found, not_not.mp pending, by simp⟩

theorem refuseModelRepair_ok (done : refuseModelRepair base source reason = .ok (some next)) :
    ∃ admission question modelAdmissionWait, base.admissions.get? source = some admission ∧
      admission.status = .rejected ∧ next = { base with
        admissions := base.admissions.insert source
          { admission with repairAllowed := false, reason := some (truncateUtf8 reason 2048) }
        waitQuestion := some question
        modelAdmissionWait } := by
  simp only [refuseModelRepair, checked_eq_ok_iff] at done
  obtain ⟨admission, found, done⟩ := done
  split at done
  · cases done
  next eligible =>
    simp only [Bool.or_eq_true, decide_eq_true_iff, not_or, not_not] at eligible
    cases done
    split
    · exact ⟨admission, _, _, found, eligible.1, rfl⟩
    next standing =>
      simp only [Bool.or_eq_true, Option.isNone_iff_eq_none, not_or] at standing
      obtain ⟨question, asked⟩ := Option.ne_none_iff_exists'.mp standing.1
      exact ⟨admission, question, _, found, eligible.1, by rw [← asked]⟩

end

theorem response_effect {replaced : ModelAdmission} (found : base.admissions.get? source = some admission)
    (inserted : next.admissions = base.admissions.insert source replaced)
    (same : admission.expectedGeneration = replaced.expectedGeneration)
    (wait : next.waitQuestion.isSome = true)
    (rest : next.tasks = base.tasks ∧ next.activeExecutionMs = base.activeExecutionMs ∧ next.id =
      base.id ∧ next.allowance = base.allowance ∧ next.committedAllowance = base.committedAllowance ∧
      next.spendingCurrency = base.spendingCurrency) : Effect guard cause base next where
  tasks := ⟨0, rest.2.1, rest.1 ▸ .refl⟩
  id := rest.2.2.1
  allowance := rest.2.2.2.1
  account _ := ⟨rest.2.2.2.2.1, rest.2.2.2.2.2⟩
  admissions task current present :=
    .inl (admissionsKept_insert found inserted same task current present)
  wait _ _ := wait

/-! ### Bodies and transitions -/

def Guarded (guard : TaskRecord → Prop) (base : WorkflowRecord) (cause : Cause) : Prop :=
  ∀ id task, cause = .requeue id → base.tasks.get? id = some task → guard task

theorem Body.effect (step : Body base cause body) (guarded : Guarded guard base cause) :
    Effect guard cause base body := by
  cases step with
  | observe charged => exact (accrue_effect charged).trans (durationStop_effect _)
  | policyStop done => exact policyStop_effect done
  | redispatch found queued frozen unentered => exact .moved found (.resume queued frozen unentered)
  | explain reason found => exact .moved found (.note _ _ _ _ _ fun asked => asked)
  | start now found queued future => exact .moved found (.start _ _ _ now queued future)
  | prepareFailed reason now found queued future =>
    exact .moved found (.refuse reason now queued future)
  | @entry id task start dispatch exact envelope allowance currency maximumMs now found unpaused
      running frozen owned unentered wanted same reserved =>
      have moved : Move guard (.entry id dispatch exact envelope) id 0 task
          (Effects.enteredTask exact maximumMs now start task) :=
        .enter maximumMs now running frozen unentered (owned ▸ same)
      refine .trans (.moved found moved) ?_
      exact {
        tasks := ⟨0, rfl, .refl⟩
        id := rfl
        allowance := rfl
        account := fun other => by cases other
        admissions := fun _ admission present => .inl ⟨admission, present, rfl⟩
        wait := fun _ standing => standing }
  | defer reason charged found running frozen unentered =>
    exact (accrue_effect charged).trans (.moved found (.defer reason running frozen unentered))
  | @finishWithoutEntry id task state reason pause now found unsettled unentered unclocked final =>
    have paused : Effect guard (.finishWithoutEntry id) base
        (if pause then Effects.pausedBy reason base else base) := by
      split
      · exact .worked (Nat.add_zero _).symm .refl (fun _ _ => rfl) ⟨rfl, rfl, rfl, rfl, rfl⟩
      · exact .worked (Nat.add_zero _).symm .refl (fun _ standing => standing) ⟨rfl, rfl, rfl, rfl, rfl⟩
    refine paused.trans (.moved ?_ (.finish state reason now unsettled unentered unclocked final))
    split <;> exact found
  | markUncertain found unsettled done charged =>
    exact (Effect.moved found (.doubt _ _ unsettled done)).trans
      ((accrue_effect charged).trans (durationStop_effect _))
  | requeue found => exact .moved found (.requeue (guarded _ _ rfl found))
  | cancellationSent found => exact .moved found (.note _ _ _ _ _ fun asked => asked)
  | report charged done => exact (accrue_effect charged).trans (report_effect done)
  | edit checked allocated applied valid done =>
    exact .ofEdited (batch_edited guard _ allocated applied done) rfl
      fun _ _ ⟨_, member, taskAlias, definition, change, known, same⟩ =>
        ⟨⟨_, _, _, rfl, taskAlias, definition, change ▸ member, known⟩, _, _, same⟩
  | rejectBatch done =>
    obtain ⟨_, _, _, found, _, rfl⟩ := rejectModelBatch_ok done
    exact response_effect found rfl rfl rfl ⟨rfl, rfl, rfl, rfl, rfl, rfl⟩
  | refuseRepair done =>
    obtain ⟨_, _, _, found, _, rfl⟩ := refuseModelRepair_ok done
    exact response_effect found rfl rfl rfl ⟨rfl, rfl, rfl, rfl, rfl, rfl⟩

/-- Every save refines the life of its tasks. -/
theorem Transition.effect (transition : Transition base cause next) (guarded : Guarded guard base cause) :
    Effect guard cause base next := by
  obtain ⟨now, reason, body, step, _, _, rfl⟩ := transition
  exact (step.effect guarded).trans (boundary_effect now reason body)

/-! ### What a body leaves alone -/

theorem Body.shape (step : Body base cause body) (other : cause.isEdit = false) :
    ∃ tasks activeExecutionMs committedAllowance spendingCurrency admissions rejectedResponses
      waitQuestion modelAdmissionWait, body = { base with
        tasks, activeExecutionMs, committedAllowance, spendingCurrency, admissions,
        rejectedResponses, waitQuestion, modelAdmissionWait } := by
  cases step with
  | observe charged =>
    obtain ⟨_, _, rfl, _⟩ := accrue_ok charged
    exact ⟨_, _, _, _, _, _, _, _, rfl⟩
  | policyStop done =>
    obtain ⟨_, _, rfl, _⟩ := requestLimitStop_ok done
    exact ⟨_, _, _, _, _, _, _, _, rfl⟩
  | defer _ charged =>
    obtain ⟨_, _, rfl, _⟩ := accrue_ok charged
    exact ⟨_, _, _, _, _, _, _, _, rfl⟩
  | finishWithoutEntry _ _ pause =>
    cases pause
    · exact ⟨_, _, _, _, _, _, _, _, rfl⟩
    · exact ⟨_, _, _, _, _, _, _, _, rfl⟩
  | markUncertain _ _ _ charged =>
    obtain ⟨_, _, rfl, _⟩ := accrue_ok charged
    exact ⟨_, _, _, _, _, _, _, _, rfl⟩
  | report charged done =>
    obtain ⟨_, _, rfl, _⟩ := accrue_ok charged
    obtain ⟨_, _, _, _, _, _, _, rfl⟩ := applyReport_ok done
    exact ⟨_, _, _, _, _, _, _, _, rfl⟩
  | edit => cases other
  | rejectBatch done =>
    obtain ⟨_, _, _, _, _, rfl⟩ := rejectModelBatch_ok done
    exact ⟨_, _, _, _, _, _, _, _, rfl⟩
  | refuseRepair done =>
    obtain ⟨_, _, _, _, _, rfl⟩ := refuseModelRepair_ok done
    exact ⟨_, _, _, _, _, _, _, _, rfl⟩
  | redispatch | explain | start | prepareFailed | entry | requeue | cancellationSent =>
    exact ⟨_, _, _, _, _, _, _, _, rfl⟩

theorem Body.generations (step : Body base cause body) :
    body.generation = base.generation ∧ body.decisionGeneration = base.decisionGeneration := by
  cases edits : cause.isEdit with
  | false =>
    obtain ⟨_, _, _, _, _, _, _, _, rfl⟩ := step.shape edits
    exact ⟨rfl, rfl⟩
  | true =>
    cases step with
    | @edit _ _ source _ _ _ _ checked allocated applied valid done =>
      have edited := batch_edited (fun _ => True) source allocated applied done
      exact ⟨edited.generation, edited.decisionGeneration⟩
    | _ => cases edits

section

variable (transition : Transition base cause next)
include transition

theorem Transition.generation :
    next.generation = base.generation + 1 := by
  obtain ⟨now, reason, body, step, _, _, rfl⟩ := transition
  rw [← step.generations.1]
  unfold transitioned
  simp only
  split <;> rfl

/-- The authoring snapshot moves with edits, starts and renewed dispatches, and with nothing else. -/
theorem Transition.decisionGeneration : next.decisionGeneration =
      if cause.decides then base.generation + 1 else base.decisionGeneration := by
  obtain ⟨now, reason, body, step, _, _, rfl⟩ := transition
  rw [← step.generations.1, ← step.generations.2]
  unfold transitioned
  simp only
  split <;> rfl

/-- Without an assumption about recovery. -/
theorem Transition.effect_always :
    Effect (fun _ => True) cause base next :=
  transition.effect fun _ _ _ _ => trivial

end

end Milkdrift
