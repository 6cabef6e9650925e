/-
Purpose: The life of a model response's admission; accepted batches are exactly those counted.
Trusted boundary: Codec, Contracts
-/
import Milkdrift.Safety.Corrective
import Milkdrift.Safety.Counters

namespace Milkdrift

open ModelAdmission SortedMap Report List ModelAdmission Duration

section

/-! ### The machine -/

def ModelAdmissionStatus.isFinal : ModelAdmissionStatus → Bool
  | .accepted | .repaired | .dismissed => true
  | .pending | .rejected => false

def Cause.accepts (source : TaskId) : Cause → Bool
  | .edit _ _ (some (other, _)) => other = source
  | _ => false

def Cause.isModelBatch : Cause → Bool
  | .edit _ _ (some _) => true
  | _ => false

inductive AdmissionMove (cause : Cause) (source : TaskId) :
    Option ModelAdmission → Option ModelAdmission → Prop
  | kept (admission : Option ModelAdmission) (idle : cause.accepts source = false) :
      AdmissionMove cause source admission admission
  | opened {event : InvocationEvent} (response : Option ArtifactReference) (generation : Nat)
      (reported : cause = .report source event) :
      AdmissionMove cause source none (some (.pending response generation))
  | accepted {admission : ModelAdmission} {batch : TaskBatch} {aliases : SortedMap TaskId TaskId}
      {repair : Bool} (key : String) (asked : cause = .edit batch aliases (some (source, repair)))
      (eligible : admission.status = if repair then .rejected else .pending) :
      AdmissionMove cause source (some admission) (some { admission with
        status := if repair then .repaired else .accepted
        receiptKey := some key
        aliases })
  | rejected {admission : ModelAdmission} (reason : Option String) (repairAllowed : Bool)
      (asked : cause = .rejectBatch source) (pending : admission.status = .pending) :
      AdmissionMove cause source (some admission)
        (some { admission with status := .rejected, reason, repairAllowed })
  | refused {admission : ModelAdmission} (reason : Option String)
      (asked : cause = .refuseRepair source) (rejected : admission.status = .rejected) :
      AdmissionMove cause source (some admission)
        (some { admission with repairAllowed := false, reason })
  | dismissed {admission : ModelAdmission} {batch : TaskBatch} {aliases : SortedMap TaskId TaskId}
      (asked : cause = .edit batch aliases none) (rejected : admission.status = .rejected) :
      AdmissionMove cause source (some admission) (some { admission with status := .dismissed })

def ModelAdmission.taken (admission : Option ModelAdmission) : Nat :=
  if admission.any (fun known => known.status = .accepted ∨ known.status = .repaired) then 1 else 0

variable {source : TaskId} {old : Option ModelAdmission} {guard : TaskRecord → Prop}
  {body : WorkflowRecord} {event : InvocationEvent} {task : TaskRecord} {batch : TaskBatch}
  {aliases : SortedMap TaskId TaskId} {new : Option ModelAdmission} {cause : Cause}

theorem AdmissionMove.taken (move : AdmissionMove cause source old new) :
    taken new = taken old + if cause.accepts source then 1 else 0 := by
  cases move with
  | kept _ idle => simp [idle]
  | opened _ _ reported => simp [reported, taken, pending, Cause.accepts]
  | @accepted _ _ _ repair _ asked eligible =>
    cases repair <;> simp_all [taken, Cause.accepts]
  | rejected _ _ asked pending => simp [asked, pending, taken, Cause.accepts]
  | refused _ asked rejected => simp [asked, rejected, taken, Cause.accepts]
  | dismissed asked rejected => simp [asked, rejected, taken, Cause.accepts]

variable {admission : ModelAdmission}

theorem AdmissionMove.final (move : AdmissionMove cause source (some admission) new)
    (final : admission.status.isFinal = true) : new = some admission := by
  cases move with
  | kept => rfl
  | @accepted _ _ _ repair _ _ eligible =>
    rw [eligible] at final
    cases repair <;> cases final
  | rejected _ _ _ pending =>
    rw [pending] at final
    cases final
  | refused _ _ rejected =>
    rw [rejected] at final
    cases final
  | dismissed _ rejected =>
    rw [rejected] at final
    cases final

def ModelAdmission.Sealed (admission : Option ModelAdmission) : Prop :=
  ∀ known, admission = some known → known.receiptKey ≠ none → known.status.isFinal = true

theorem AdmissionMove.sealed (move : AdmissionMove cause source old new) (before : Sealed old) : Sealed new := by
  intro known same receipt
  cases move with
  | kept => exact before known same receipt
  | opened =>
    cases same
    exact absurd rfl receipt
  | @accepted _ _ _ repair =>
    cases same
    cases repair <;> rfl
  | rejected _ _ _ pending =>
    cases same
    have final := before _ rfl receipt
    rw [pending] at final
    cases final
  | @refused admission =>
    cases same
    exact before admission rfl receipt
  | dismissed =>
    cases same
    rfl

variable [Codec]

/-! ### Responses -/

def TaskRecord.Answered (task : TaskRecord) : Prop :=
  task.result ≠ none ∨ ∃ start, task.frozen = some start ∧
    "model_response" ∈ (start.reports.filterMap fun report => report.kind.output?).map Prod.fst

theorem Move.answered {id : TaskId} {charge : Nat} {old new : TaskRecord}
    (move : Move guard cause id charge old new) (answered : old.Answered) : new.Answered := by
  cases move with
  | note | redefine | remove | resume | refuse | defer | finish | requeue => exact answered
  | stop =>
    unfold Admission.stoppedTask
    split
    · exact answered
    · split <;> exact answered
  | charge unsettled frozen clocked =>
    refine answered.imp_right ?_
    rintro ⟨start, same, named⟩
    rw [frozen] at same
    cases same
    exact ⟨_, rfl, named⟩
  | start inputs dispatch generation now queued future =>
    refine answered.imp_right ?_
    rintro ⟨start, same, _⟩
    rw [future] at same
    cases same
  | enter maximumMs now running frozen unentered same =>
    refine answered.imp_right ?_
    rintro ⟨start, same, named⟩
    rw [frozen] at same
    cases same
    exact ⟨_, rfl, named⟩
  | doubt limit reason unsettled done =>
    obtain ⟨start, _, frozen, _, rfl⟩ := uncertainTask_ok done
    refine answered.imp_right ?_
    rintro ⟨start', same, named⟩
    rw [frozen] at same
    cases same
    exact ⟨_, rfl, named⟩
  | report event now unsettled frozen entered =>
    rcases answered with resolved | ⟨start, same, named⟩
    · refine .inl ?_
      unfold reportedTask
      split
      · exact resolved
      · exact Option.some_ne_none _
    · rw [frozen] at same
      cases same
      refine .inr ⟨_, reportedTask_frozen .., ?_⟩
      rw [filterMap_append, map_append]
      exact mem_append_left _ named

def WorkflowRecord.AdmitsAnswers (record : WorkflowRecord) : Prop :=
  ∀ id admission, record.admissions.get? id = some admission →
    ∃ task, record.tasks.get? id = some task ∧ task.Answered

theorem Effect.admitsAnswers {base next : WorkflowRecord}
    (effect : Effect guard cause base next) (answers : base.AdmitsAnswers)
    (kept : ∀ id, next.admissions.get? id ≠ none → base.admissions.get? id ≠ none) :
    next.AdmitsAnswers := by
  intro id admission found
  obtain ⟨earlier, known⟩ := Option.ne_none_iff_exists'.mp (kept id (by rw [found]; nofun))
  obtain ⟨task, present, answered⟩ := answers id earlier known
  obtain ⟨_, _, evolution⟩ := effect.tasks
  obtain ⟨_, task', present', path⟩ := evolution.lookup present
  exact ⟨task', present', path.preserves (fun _ _ _ move => move.answered) answered⟩

/-! ### Edits -/

section

variable {aliases : SortedMap TaskId TaskId} {now : TimestampMillis} {base next : WorkflowRecord}

def Dismisses (old new : Option ModelAdmission) : Prop :=
  new = old ∨ ∃ admission, old = some admission ∧ admission.status = .rejected ∧
    new = some { admission with status := .dismissed }

section
omit [Codec]

theorem Dismisses.trans {first second third : Option ModelAdmission} (early : Dismisses first second)
    (late : Dismisses second third) : Dismisses first third := by
  rcases early with rfl | ⟨admission, rfl, rejected, rfl⟩
  · exact late
  · rcases late with rfl | ⟨admission, same, again, _⟩
    · exact .inr ⟨_, rfl, rejected, rfl⟩
    · cases same
      cases again

theorem Applied.dismisses {change : TaskChange} (applied : Applied aliases now base change next)
    (source : TaskId) : Dismisses (base.admissions.get? source) (next.admissions.get? source) := by
  cases applied with
  | @dismissed task admission _ _ found rejected =>
    by_cases here : source = task
    · subst here
      exact .inr ⟨admission, found, rejected, by simp⟩
    · exact .inl (by simp [here])
  | limited | added | retasked | bound | resumed | asked | finishing => exact .inl rfl

end

variable {changes : List TaskChange}

theorem Batched.dismisses (batched : Batched aliases now changes base next) (source : TaskId) :
    Dismisses (base.admissions.get? source) (next.admissions.get? source) := by
  induction batched with
  | nil => exact .inl rfl
  | cons done _ _ ih =>
    exact ((applyChange_applied done).dismisses source).trans ih

theorem Batched.admissions_kept (batched : Batched aliases now changes base next)
    (plain : ∀ change ∈ changes, ModelActions.isPolicyChange change = false) :
    next.admissions = base.admissions := by
  induction batched with
  | nil => rfl
  | cons done _ _ ih =>
    rw [ih fun change member => plain change (mem_cons_of_mem _ member)]
    cases applyChange_applied done with
    | dismissed => cases plain _ mem_cons_self
    | limited | added | retasked | bound | resumed | asked | finishing => rfl

end

/-! ### Saves -/

variable {base next : WorkflowRecord} {cause : Cause}

theorem Body.admissions_kept (step : Body base cause body) (edits : cause.isEdit = false)
    (reports : cause.isReport = false) (rejects : ∀ source, cause ≠ .rejectBatch source)
    (refuses : ∀ source, cause ≠ .refuseRepair source) : body.admissions = base.admissions := by
  cases step with
  | observe charged =>
    obtain ⟨_, _, rfl, _⟩ := accrue_ok charged
    rfl
  | policyStop done =>
    obtain ⟨_, _, rfl, _⟩ := requestLimitStop_ok done
    rfl
  | defer _ charged =>
    obtain ⟨_, _, rfl, _⟩ := accrue_ok charged
    rfl
  | finishWithoutEntry _ _ pause => cases pause <;> rfl
  | markUncertain _ _ _ charged =>
    obtain ⟨_, _, rfl, _⟩ := accrue_ok charged
    rfl
  | report => cases reports
  | edit => cases edits
  | rejectBatch => exact absurd rfl (rejects _)
  | refuseRepair => exact absurd rfl (refuses _)
  | redispatch | explain | start | prepareFailed | entry | requeue | cancellationSent => rfl

theorem reportedAdmissions_get? {id : TaskId} {start : FrozenTaskStart} (now : TimestampMillis)
    {admissions : SortedMap TaskId ModelAdmission} (frozen : task.frozen = some start)
    (fresh : Report.Fresh task start event) (answers : admissions.get? id ≠ none → task.Answered)
    (source : TaskId) : (reportedAdmissions id event start (reportedTask event start now task)
        admissions).get? source = admissions.get? source ∨
      source = id ∧ admissions.get? id = none ∧ (reportedTask event start now task).Answered ∧
        ∃ response generation, (reportedAdmissions id event start (reportedTask event start now task)
            admissions).get? source = some (.pending response generation) := by
  unfold reportedAdmissions
  split
  · exact .inl rfl
  next name reference output =>
    split
    next named =>
      by_cases here : source = id
      · refine .inr ⟨here, ?_, .inr ⟨_, reportedTask_frozen .., ?_⟩, _, _, by rw [here]; simp; rfl⟩
        · -- the response was not named before, so nothing was admitted for it
          by_contra known
          rcases answers known with resolved | ⟨other, same, again⟩
          · exact resolved fresh.unresolved
          · rw [frozen] at same
            cases same
            exact fresh.unnamed (name, reference) (by rw [output]; rfl) (named.1 ▸ again)
        · rw [filterMap_append, map_append]
          refine mem_append_right _ ?_
          simp [output, InvocationEventKind.output?, named.1]
      · exact .inl (by simp [here])
    · exact .inl rfl
  next terminal ends =>
    split
    next completed =>
      by_cases here : source = id
      · refine .inr ⟨here, ?_, .inl ?_, _, _, by rw [here]; simp; rfl⟩
        · by_contra known
          obtain ⟨admission, found⟩ := Option.ne_none_iff_exists'.mp known
          have present := (contains_iff _).mpr ⟨admission, found⟩
          rw [completed.2.2] at present
          cases present
        · unfold reportedTask
          simp only [ends, InvocationEventKind.terminal?]
          exact Option.some_ne_none _
      · exact .inl (by simp [here])
    · exact .inl rfl

omit [Codec] in
theorem TaskRecord.Answered.requestStop (answered : task.Answered) (must : TaskRecord → Bool) :
    (Duration.requestStop must task).Answered := by
  unfold Duration.requestStop
  split <;> exact answered

def Disposes (cause : Cause) (base next : WorkflowRecord) (source : TaskId) : Prop :=
  AdmissionMove cause source (base.admissions.get? source) (next.admissions.get? source) ∧
    (next.admissions.get? source ≠ none → base.admissions.get? source = none →
      ∃ task, next.tasks.get? source = some task ∧ task.Answered)

section
omit [Codec]

/-- Where the admission stays, nothing new needs an answer. -/
theorem Disposes.kept (idle : cause.accepts source = false)
    (same : next.admissions.get? source = base.admissions.get? source) :
    Disposes cause base next source :=
  ⟨same ▸ .kept _ idle, fun present absent => absurd (same.trans absent) present⟩

theorem Disposes.moved (found : base.admissions.get? source = some admission)
    (move : AdmissionMove cause source (some admission) (next.admissions.get? source)) :
    Disposes cause base next source :=
  ⟨found ▸ move, fun _ absent => by rw [found] at absent; cases absent⟩

end

theorem Body.disposes_edit {asked : Option (TaskId × Bool)}
    (step : Body base (.edit batch aliases asked) body) (source : TaskId) :
    Disposes (.edit batch aliases asked) base body source := by
  cases step with
  | @edit _ _ _ _ key edited _ checked allocated applied _ done =>
    have batched := allocated.batched applied
    cases asked with
    | none =>
      cases done
      rcases batched.dismisses source with same | ⟨admission, found, rejected, dismissed⟩
      · exact .kept rfl same
      · exact .moved found (dismissed ▸ .dismissed rfl rejected)
    | some asked =>
      obtain ⟨owner, repair⟩ := asked
      obtain ⟨_, plain, known, found, eligible⟩ := checkAdmission_admissible checked
      have same := batched.admissions_kept plain
      obtain ⟨⟨admission, _, _, _, present, rfl⟩, _, _⟩ := acceptAdmission_accepts done
      rw [same, found] at present
      cases present
      by_cases here : source = owner
      · subst here
        refine .moved found ?_
        rw [get?_insert, if_pos rfl]
        exact .accepted key rfl eligible
      · refine .kept (decide_eq_false fun is => here is.symm) ?_
        rw [get?_insert, if_neg here, same]

theorem Body.disposes_report {id : TaskId} (step : Body base (.report id event) body)
    (answers : base.AdmitsAnswers) (source : TaskId) :
    Disposes (.report id event) base body source := by
  cases step with
  | @report _ dispatch _ now accrued _ _ charged done named =>
    have charging : Effect (fun _ => True) .observe base accrued := accrue_effect charged
    obtain ⟨_, _, sameBase, _⟩ := accrue_ok charged
    have admissions : accrued.admissions = base.admissions := by rw [sameBase]
    have answered := charging.admitsAnswers answers fun id present => by rwa [admissions] at present
    obtain ⟨task, start, found, frozen, _, _, fresh, rfl⟩ := applyReport_ok done
    have belongs : base.admissions.get? id ≠ none → task.Answered := by
      intro present
      obtain ⟨admission, known⟩ := Option.ne_none_iff_exists'.mp present
      obtain ⟨task', found', given⟩ := answered id admission (by rw [admissions, known])
      rw [found] at found'
      cases found'
      exact given
    rcases reportedAdmissions_get? now frozen fresh belongs source with
      same | ⟨rfl, absent, given, response, generation, opened⟩
    · refine .kept rfl ?_
      rw [← admissions] at same ⊢
      exact same
    · refine ⟨?_, fun _ _ => ?_⟩
      · have now_ : (requestLimitStop { accrued with
            tasks := accrued.tasks.modify source fun _ => reportedTask event start now task
            admissions := reportedAdmissions source event start
              (reportedTask event start now task) accrued.admissions }).1.admissions.get?
            source = some (.pending response generation) := by
          rw [← admissions] at opened
          exact opened
        rw [absent, now_]
        exact .opened response generation rfl
      · refine ⟨requestStop (mustStop (remaining accrued == 0)) _, ?_,
          given.requestStop _⟩
        simp only [requestLimitStop, get?_mapValues, get?_modify, if_true, found, Option.map_some]
        rfl

omit [Codec] in
theorem Disposes.inserted {owner : TaskId} {replaced : ModelAdmission}
    (idle : ∀ other, cause.accepts other = false)
    (found : base.admissions.get? owner = some admission)
    (inserted : next.admissions = base.admissions.insert owner replaced)
    (move : AdmissionMove cause owner (some admission) (some replaced)) :
    Disposes cause base next source := by
  by_cases here : source = owner
  · subst here
    refine .moved found ?_
    rw [inserted, get?_insert, if_pos rfl]
    exact move
  · refine .kept (idle source) ?_
    rw [inserted, get?_insert, if_neg here]

theorem Body.disposes (step : Body base cause body) (answers : base.AdmitsAnswers) (source : TaskId) :
    Disposes cause base body source := by
  cases cause with
  | edit => exact step.disposes_edit source
  | report => exact step.disposes_report answers source
  | rejectBatch owner =>
    cases step with
    | rejectBatch done =>
      obtain ⟨admission, _, _, found, pending, rfl⟩ := rejectModelBatch_ok done
      exact .inserted (fun _ => rfl) found rfl (.rejected _ _ rfl pending)
  | refuseRepair owner =>
    cases step with
    | refuseRepair done =>
      obtain ⟨admission, _, _, found, rejected, rfl⟩ := refuseModelRepair_ok done
      exact .inserted (fun _ => rfl) found rfl (.refused _ rfl rejected)
  | _ =>
    refine .kept rfl (congrArg (get? · source) (step.admissions_kept rfl rfl ?_ ?_))
    · exact nofun
    · exact nofun

theorem Transition.disposes (transition : Transition base cause next) (answers : base.AdmitsAnswers)
    (source : TaskId) : Disposes cause base next source := by
  obtain ⟨now, reason, body, step, _, _, rfl⟩ := transition
  obtain ⟨move, opened⟩ := step.disposes answers source
  rw [transitioned_eq]
  refine ⟨move, fun present absent => ?_⟩
  obtain ⟨task, found, answered⟩ := opened present absent
  refine ⟨policyStop reason task, by simp [found], ?_⟩
  exact answered.requestStop _

theorem Transition.admitsAnswers (transition : Transition base cause next)
    (answers : base.AdmitsAnswers) : next.AdmitsAnswers := by
  intro id admission found
  obtain ⟨_, opened⟩ := transition.disposes answers id
  cases known : base.admissions.get? id with
  | none => exact opened (by rw [found]; nofun) known
  | some earlier =>
    obtain ⟨task, present, answered⟩ := answers id earlier known
    obtain ⟨_, _, evolution⟩ := transition.effect_always.tasks
    obtain ⟨_, task', present', path⟩ := evolution.lookup present
    exact ⟨task', present', path.preserves (fun _ _ _ move => move.answered) answered⟩

theorem Created.admissions {record : WorkflowRecord} (created : Created record) :
    record.admissions = empty ∧ record.admittedModelBatches = 0 := by
  obtain ⟨_, _, _, _, _, _, _, _, _, _, _, rfl⟩ := created
  exact ⟨rfl, rfl⟩

theorem Created.admitsAnswers {record : WorkflowRecord} (created : Created record) :
    record.AdmitsAnswers := by
  intro id admission found
  rw [created.admissions.1] at found
  cases found

/-! ### Histories -/

variable {saves : List Save} {record : WorkflowRecord}

theorem History.admitsAnswers (history : History saves record) : record.AdmitsAnswers :=
  history.invariant (fun _ => True) WorkflowRecord.AdmitsAnswers (fun _ => Created.admitsAnswers)
    (fun _ _ _ answers _ transition => transition.admitsAnswers answers) fun _ _ => trivial

theorem History.taken (history : History saves record) (source : TaskId) :
    (saves.filter fun save => save.cause.accepts source).length =
      taken (record.admissions.get? source) := by
  induction history with
  | create created =>
    rw [created.admissions.1]
    rfl
  | @step saves base next cause earlier transition _ ih =>
    rw [(transition.disposes earlier.admitsAnswers source).1.taken, ← ih]
    cases accepts : cause.accepts source <;> simp [filter_append, accepts]

theorem Transition.batches (transition : Transition base cause next) :
    next.admittedModelBatches = base.admittedModelBatches + if cause.isModelBatch then 1 else 0 := by
  obtain ⟨now, reason, body, step, _, _, rfl⟩ := transition
  rw [transitioned_eq]
  cases edits : cause.isEdit with
  | false =>
    obtain ⟨_, _, _, _, _, _, _, _, rfl⟩ := step.shape edits
    cases cause <;> first | rfl | cases edits
  | true =>
    cases step with
    | @edit _ _ source _ _ edited _ checked allocated applied _ done =>
      have kept := (allocated.batched applied).charges.batches
      cases source with
      | none =>
        cases done
        exact kept
      | some source =>
        obtain ⟨⟨_, _, _, _, _, rfl⟩, _, _⟩ := acceptAdmission_accepts done
        exact congrArg (· + 1) kept
    | _ => cases edits

theorem History.batches (history : History saves record) :
    record.admittedModelBatches = (saves.filter fun save => save.cause.isModelBatch).length := by
  induction history with
  | create created =>
    rw [created.admissions.2]
    rfl
  | @step saves base next cause earlier transition _ ih =>
    rw [transition.batches, ih]
    cases batch : cause.isModelBatch <;> simp [filter_append, batch]

theorem History.sealed (history : History saves record) (source : TaskId) :
    Sealed (record.admissions.get? source) := by
  induction history with
  | create created =>
    rw [created.admissions.1]
    exact nofun
  | step earlier transition _ ih =>
    exact (transition.disposes earlier.admitsAnswers source).1.sealed ih

theorem Transition.decided_tasks (transition : Transition base cause next)
    (decides : cause = .rejectBatch source ∨ cause = .refuseRepair source) :
    ∃ reason, Policy.stopReason next = .ok reason ∧
      next.tasks = base.tasks.mapValues (policyStop reason) := by
  obtain ⟨now, reason, body, step, stop, _, rfl⟩ := transition
  refine ⟨reason, (stopReason_transitioned cause now reason body).trans stop, ?_⟩
  rw [transitioned_tasks]
  rcases decides with rfl | rfl
  · cases step with
    | rejectBatch done =>
      obtain ⟨_, _, _, _, _, rfl⟩ := rejectModelBatch_ok done
      rfl
  · cases step with
    | refuseRepair done =>
      obtain ⟨_, _, _, _, _, rfl⟩ := refuseModelRepair_ok done
      rfl

theorem Transition.admissible {repair : Bool}
    (transition : Transition base (.edit batch aliases (some (source, repair))) next) :
    Admissible base source batch repair := by
  obtain ⟨now, reason, body, step, _, _, rfl⟩ := transition
  cases step with
  | edit checked => exact checkAdmission_admissible checked

/-! ### Every run -/

variable [Contracts] {settings : RuntimeSettings} {config : (daemon settings).Config}

/-- The admission of every source follows its machine, in every run. A final or receipted admission never
changes; at most one batch of a source is ever accepted, each accepted batch was admissible and is
counted once, within the limit; a decision against a batch changes tasks only by the stop requests
of a policy reason that stands in the saved record. -/
theorem model_admission_machine (reached : Reached settings config) {workflow : WorkflowId}
    {before after : List Save} {save : Save}
    (located : config.shared.history workflow = before ++ save :: after) :
    (∀ base, save.prior = some base →
      (∀ source, AdmissionMove save.cause source (base.admissions.get? source)
        (save.record.admissions.get? source)) ∧
      (∀ batch aliases source repair, save.cause = .edit batch aliases (some (source, repair)) →
        Admissible base source batch repair) ∧
      ∀ source, save.cause = .rejectBatch source ∨ save.cause = .refuseRepair source →
        ∃ reason, Policy.stopReason save.record = .ok reason ∧
          save.record.tasks = base.tasks.mapValues (policyStop reason)) ∧
    (∀ source admission, save.record.admissions.get? source = some admission →
      admission.status.isFinal = true ∨ admission.receiptKey ≠ none →
      ∀ late ∈ after, late.record.admissions.get? source = some admission) ∧
    (∀ source, ((before ++ [save]).filter fun save => save.cause.accepts source).length ≤ 1) ∧
    save.record.admittedModelBatches =
        ((before ++ [save]).filter fun save => save.cause.isModelBatch).length ∧
      save.record.admittedModelBatches ≤ save.record.limits.modelBatches := by
  obtain ⟨_, _, _, history⟩ := reached.recorded located
  obtain ⟨upTo, origin⟩ := history.split located
  refine ⟨fun base prior => ?_, fun source admission found standing late member => ?_,
    fun source => ?_, upTo.batches, upTo.counted.batchLimit⟩
  · rcases origin with ⟨_, absent, _⟩ | ⟨base', prior', earlier, transition, _⟩
    · rw [absent] at prior
      cases prior
    · rw [prior'] at prior
      cases prior
      refine ⟨fun source => (transition.disposes earlier.admitsAnswers source).1,
        fun batch aliases source repair edits => ?_, fun source => transition.decided_tasks⟩
      rw [edits] at transition
      exact transition.admissible
  · have final : admission.status.isFinal = true :=
      standing.elim id (upTo.sealed source admission found)
    exact (history.onward (fun _ => True)
      (fun record => record.AdmitsAnswers ∧ record.admissions.get? source = some admission)
      (fun _ _ _ holds _ transition => by
        have move := (transition.disposes holds.1 source).1
        rw [holds.2] at move
        exact ⟨transition.admitsAnswers holds.1, move.final final⟩)
      located (fun _ _ => trivial) ⟨upTo.admitsAnswers, found⟩).2 late member |>.2
  · rw [upTo.taken source]
    unfold ModelAdmission.taken
    split
    · exact Nat.le_refl _
    · exact Nat.zero_le _

end

open Deployment

def admitFinish (config : (daemon Deployment.settings).Config) : Option Operation := do
  let row ← config.shared.store.rows.get? created
  let source ← row.document.tasks.values.find? fun task => task.definition.actions.isSome
  let admission ← row.document.admissions.get? source.id
  some (.admitModelBatch "actor" created source.id ⟨admission.expectedGeneration, [.finish]⟩ false)

def acceptedBatch : List (daemon Deployment.settings).Act :=
  modelStart WorkflowLimits.default [] ++ entrySuccess 1 2 ++ call 4 admitFinish (granting 10 "" 10)

/-- The accepted batch is the only one, and it is counted. -/
theorem model_admission_of_batch : ∃ (config : (daemon Deployment.settings).Config)
    (before after : List Save) (save : Save), Reached Deployment.settings config ∧
      config.shared.history created = before ++ save :: after ∧ save.cause.isModelBatch = true ∧
      save.record.admittedModelBatches = 1 ∧
      save.record.admittedModelBatches =
        ((before ++ [save]).filter fun save => save.cause.isModelBatch).length := by
  obtain ⟨config, reached, ⟨before, save, after⟩, listed, batch, one⟩ :=
    Deployment.reached (fun config =>
      ∃ split ∈ splits (config.shared.history created), split.2.1.cause.isModelBatch = true ∧
        split.2.1.record.admittedModelBatches = 1)
    acceptedBatch (by decide +kernel)
  have located := eq_of_mem_splits listed
  exact ⟨config, before, after, save, reached, located, batch, one,
    (model_admission_machine reached located).2.2.2.1⟩

def lastRejection : List (daemon Deployment.settings).Act :=
  modelStart { WorkflowLimits.default with rejectedResponses := 1 } [⟨secondTask, definition []⟩] ++
    [.spawn (execute 1 1), .serve 2 (granting 8 "" 10) awaitsOutcome 100] ++
    call 3 (report 0 success) (granting 9 "" 10) ++ call 4 rejectResponse (granting 10 "" 10)

/-- The rejected batch changes a task: the running one is asked to stop. -/
theorem rejection_changes_task : ∃ config, Reached Deployment.settings config ∧
    ∃ save ∈ config.shared.history created, ∃ source base id task task',
      save.cause = .rejectBatch source ∧ save.prior = some base ∧
        base.tasks.get? id = some task ∧ save.record.tasks.get? id = some task' ∧
        task.stopRequested = false ∧ task'.stopRequested = true := by
  obtain ⟨config, reached, save, member, base, prior, rejects, id, _, task, found, task', found', rest⟩ :=
    Deployment.reached (fun config =>
      ∃ save ∈ config.shared.history created, ∃ base ∈ save.prior.toList,
        (match save.cause with | .rejectBatch _ => true | _ => false) = true ∧
        ∃ id ∈ base.tasks.keys, ∃ task ∈ (base.tasks.get? id).toList,
          ∃ task' ∈ (save.record.tasks.get? id).toList,
            task.stopRequested = false ∧ task'.stopRequested = true)
    lastRejection (by decide +kernel)
  cases cause : save.cause with
  | rejectBatch source =>
    exact ⟨config, reached, save, member, source, base, id, task, task', cause,
      Option.mem_toList.mp prior, Option.mem_toList.mp found, Option.mem_toList.mp found', rest⟩
  | _ =>
    rw [cause] at rejects
    cases rejects

end Milkdrift
