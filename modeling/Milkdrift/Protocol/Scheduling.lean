/-
Purpose: The scheduler starts only ready tasks of records it knows.
Trusted boundary: Codec, Contracts
-/
import Milkdrift.Lifecycle.Lineage
import Milkdrift.Protocol.Saving

namespace Milkdrift

open Action Scheduling Meets SortedMap Policy List

variable [Codec] [Contracts] {knowledge : Knowledge}

/-! ### Occupancy -/

section
omit [Contracts]

theorem meets_countItems (items : List WorkflowSnapshot) (count : Nat) :
    Sound (countItems items count) knowledge := by
  induction items generalizing count knowledge with
  | nil => exact pure trivial
  | cons row rest ih =>
    refine bind (meets_requireWorkflow row.workflow) fun _ _ _ _ => ?_
    exact lift_bind fun next _ => ih next

variable (pages : Nat)

theorem meets_countPages (cursor : Option WorkflowId) (count : Nat) :
    Sound (countPages pages cursor count) knowledge := by
  induction pages generalizing cursor count knowledge with
  | zero => exact unfoldedFurther
  | succ pages ih =>
    refine (Silent.fallible (.request rfl)).bind fun page => ?_
    refine andThen (meets_countItems page.items count) fun next _ _ => ?_
    split
    · exact pure trivial
    · exact ih _ next

theorem meets_activeTaskCount : Sound (activeTaskCount pages) knowledge := by
  refine (Silent.request rfl).bind fun active => ?_
  cases active with
  | some count => exact pure trivial
  | none =>
    refine andThen (meets_countPages pages none 0) fun count _ _ => ?_
    exact (Silent.request rfl).bind fun _ => pure trivial

end

/-! ### What a dispatch shows its model -/

omit [Codec] in
theorem inputReference_value {name : String} {value : InvocationValueReference}
    {reference : InputReference} (done : inputReference name value = .ok reference) :
    reference.value = value := by
  simp only [inputReference, except_bind_eq_ok] at done
  obtain ⟨_, _, same⟩ := done
  cases same
  rfl

variable {content : String} {references : List InputReference}
  {record next base body stopped : WorkflowRecord} {task task' : TaskRecord} {generation : Nat}
  {inputs : SortedMap String TaskInputValue} {early late : Knowledge} {cause : Cause}
  {changed : Bool} {rest : List TaskId} {entries : List (String × TaskInputValue)}

omit [Codec] in
theorem modelInputs_shown {content' : String} {references' : List InputReference}
    (plain : ∀ reference ∈ references, reference.value.shown = none)
    (done : modelInputs entries content references = .ok (content', references')) :
    ∀ reference ∈ references', reference.value.shown = none := by
  induction entries generalizing content references with
  | nil =>
    cases done
    exact plain
  | cons entry rest ih =>
    obtain ⟨name, value⟩ := entry
    cases value with
    | artifact artifact =>
      simp only [modelInputs, except_bind_eq_ok] at done
      obtain ⟨input, named, done⟩ := done
      refine ih (fun reference member => ?_) done
      rcases mem_append.mp member with before | added
      · exact plain reference before
      · rw [mem_singleton.mp added, inputReference_value named]
        rfl
    | _ => exact ih plain done

theorem plainInputs_shown (done : plainInputs entries = .ok references) :
    ∀ reference ∈ references, reference.value.shown = none := by
  induction entries generalizing references with
  | nil =>
    cases done
    exact fun _ => nofun
  | cons entry rest ih =>
    simp only [plainInputs, except_bind_eq_ok] at done
    obtain ⟨first, named, others, tail, same⟩ := done
    cases same
    intro reference member
    rcases mem_cons.mp member with rfl | later
    · unfold plainInput at named
      split at named <;> rw [inputReference_value named] <;> rfl
    · exact ih tail reference later

omit [Contracts] in
theorem modelTask_shown {request : ModelTaskRequest} (done : modelTask record task content = .ok request)
    (shown : request.messages.findSome? Message.shown = some generation) :
    generation = record.generation + 1 := by
  unfold modelTask at done
  split at done
  · simp only [ModelActions.authoringContext, checked_eq_ok_iff, checkedAdd_eq_some_iff] at done
    obtain ⟨context, ⟨_, ⟨rfl, _⟩, _, _, built⟩, same⟩ := done
    cases built
    cases same
    exact (Option.some.inj shown).symm
  · cases done
    simp [Message.shown] at shown

theorem invocationInputs_shown {category : CapabilityCategory}
    (done : invocationInputs record task inputs category = .ok references)
    (shown : (references.findSome? fun input => input.value.shown) = some generation) :
    generation = record.generation + 1 := by
  obtain ⟨reference, member, here⟩ := exists_of_findSome?_eq_some shown
  unfold invocationInputs at done
  split at done
  · simp only [except_bind_eq_ok] at done
    obtain ⟨⟨content, artifacts⟩, collected, request, built, _, _, document, named, same⟩ := done
    cases same
    rcases mem_append.mp member with plain | last
    · rw [modelInputs_shown (by simp) collected reference plain] at here
      cases here
    · rw [mem_singleton.mp last, inputReference_value named] at here
      exact modelTask_shown built here
  · simp only [except_bind_eq_ok] at done
    obtain ⟨instructions, named, others, rest, same⟩ := done
    cases same
    rcases mem_cons.mp member with first | later
    · rw [first, inputReference_value named] at here
      cases here
    · rw [plainInputs_shown rest reference later] at here
      cases here

theorem meets_prepareDispatch (record : WorkflowRecord) (task : TaskRecord)
    (inputs : SortedMap String TaskInputValue) (at_ : TimestampMillis) :
    Meets (prepareDispatch record task inputs at_) knowledge fun dispatch _ =>
      (∀ generation, dispatch.shownGeneration = some generation → generation = record.generation + 1) ∧
      dispatch.run.text = record.id.text ∧ dispatch.node.text = task.id.text := by
  refine lift_bind fun _ _ => lift_bind fun node named => ?_
  refine lift_bind fun _ _ => ?_
  refine (Silent.nextId _).bind fun _ => lift_bind fun _ _ => ?_
  refine (Silent.fallible (.request rfl)).bind fun resolved => lift_bind fun _ _ => ?_
  refine (Silent.nextId _).bind fun _ => lift_bind fun _ _ => lift_bind fun _ _ => ?_
  refine lift_bind fun references collected => lift_bind fun _ _ => ?_
  refine (Silent.nextId _).bind fun _ => lift_bind fun _ _ => lift_bind fun _ _ => ?_
  refine (Silent.fallible (.request rfl)).bind fun _ => lift_bind fun _ _ => lift_bind fun _ _ => ?_
  refine lift_bind fun run placed => lift_bind fun _ _ => lift_bind fun _ _ => ?_
  rw [withRefusal_eq_ok_iff, Identity.new_eq_ok_iff] at named placed
  exact pure ⟨fun generation shown => invocationInputs_shown collected shown, placed, named⟩

/-! ### Observed records -/

variable {now : TimestampMillis} {id : TaskId}

omit [Codec] [Contracts] in
/-- A charge touches the clock of a start and nothing else. -/
theorem accrueTask_ok {account account' : Nat × Bool}
    (done : Duration.accrueTask now task account = .ok (task', account')) :
    ∃ frozen, task' = { task with frozen } ∧ (task.frozen = none → frozen = none) := by
  rcases accrueTask_cases done with ⟨rfl, _, _⟩ | ⟨start, duration, _, _, frozen, _, _, rfl, _⟩
  · exact ⟨task'.frozen, rfl, id⟩
  · exact ⟨_, rfl, fun none => by simp [frozen] at none⟩

def Clocked (task task' : TaskRecord) : Prop :=
  ∃ frozen stopRequested, task' = { task with frozen, stopRequested } ∧ (task.frozen = none → frozen = none)

section
omit [Codec] [Contracts]

theorem Clocked.requestStop (clocked : Clocked task task') (must : TaskRecord → Bool) :
    Clocked task (Duration.requestStop must task') := by
  obtain ⟨frozen, stopRequested, rfl, future⟩ := clocked
  unfold Duration.requestStop
  split
  · exact ⟨frozen, true, rfl, future⟩
  · exact ⟨frozen, stopRequested, rfl, future⟩

theorem Clocked.map_eq {α : Type} {view : TaskRecord → α} {old new : Option TaskRecord}
    (related : Option.Rel Clocked old new)
    (shared : ∀ task frozen stopRequested, view { task with frozen, stopRequested } = view task) :
    new.map view = old.map view := by
  cases related with
  | none => rfl
  | some clocked =>
    obtain ⟨frozen, stopRequested, rfl, _⟩ := clocked
    exact congrArg some (shared _ frozen stopRequested)

end

section
omit [Contracts]

theorem Observed.clocked (observed : Observed record next) (id : TaskId) :
    Option.Rel Clocked (record.tasks.get? id) (next.tasks.get? id) := by
  cases observed with
  | same =>
    cases record.tasks.get? id with
    | none => exact .none
    | some task => exact .some ⟨task.frozen, task.stopRequested, rfl, fun same => same⟩
  | saved charged advanced =>
    obtain ⟨now, reason, _, rfl⟩ := advanced.boundary
    obtain ⟨tasks, ledger, rfl, traversed⟩ := accrue_ok charged
    have charged_here := get?_mapFoldM traversed id
    simp only [transitioned, Cause.decides, boundary, Duration.requestLimitStop,
      get?_mapValues, Bool.false_eq_true, if_false]
    generalize record.tasks.get? id = old at charged_here
    generalize tasks.get? id = new at charged_here
    cases charged_here with
    | none => exact .none
    | @some before after visited =>
      obtain ⟨_, _, visited⟩ := visited
      obtain ⟨frozen, same, future⟩ := accrueTask_ok visited
      have clocked : Clocked before after := ⟨frozen, _, same, future⟩
      exact .some ((clocked.requestStop _).requestStop _)

/-- Observation keeps what the scheduler and the policy read besides the tasks. -/
theorem Observed.kept (observed : Observed record next) :
    next.inputs = record.inputs ∧ next.limits = record.limits ∧
      next.rejectedResponses = record.rejectedResponses := by
  cases observed with
  | same => exact ⟨rfl, rfl, rfl⟩
  | saved charged advanced =>
    obtain ⟨now, reason, _, rfl⟩ := advanced.boundary
    obtain ⟨tasks, ledger, rfl, _⟩ := accrue_ok charged
    exact ⟨rfl, rfl, rfl⟩

theorem Observed.outcome? (observed : Observed record next) (id : TaskId) :
    next.outcome? id = record.outcome? id :=
  Clocked.map_eq (observed.clocked id) fun _ _ _ => rfl

end

/-! ### The scan of one workflow -/

/-- A workflow whose candidates are being scanned: nothing holds it, or the scan itself exhausted one of
its lineages. -/
def Scanned (knowledge : Knowledge) (record : WorkflowRecord) : Prop :=
  record.waitQuestion = none ∧ Policy.stopReason record = .ok none ∨ FailedSince knowledge record

omit [Contracts] in
theorem FailedSince.step (since : FailedSince early base) (grows : early.Grows late)
    (saved : Saved cause next late) (advanced : Advanced base cause body next)
    (plain : cause.isEdit = false) : FailedSince late next := by
  obtain ⟨failed, member, failure, exhausted, here, own⟩ := since.mono grows
  have named : next.id = base.id := advanced.transition.effect_always.id
  have stepped := advanced.transition.generation
  refine ⟨failed, member, failure, exhausted, here.trans named.symm, fun generation after upTo => ?_⟩
  by_cases last : generation = next.generation
  · exact ⟨(cause, next), saved.saved, rfl, last.symm, plain⟩
  · obtain ⟨later, inside, there, rest⟩ := own generation after (by omega)
    exact ⟨later, inside, there.trans named.symm, rest⟩

omit [Codec] [Contracts] in
theorem waitQuestion_transitioned (cause : Cause) (now : TimestampMillis) (body : WorkflowRecord) :
    (transitioned cause now none body).waitQuestion = body.waitQuestion := by
  rw [transitioned_eq]
  simp [policyWait]

section
omit [Contracts]

/-- A save that keeps what the policy reads keeps the scan going. -/
theorem Scanned.saved (scanned : Scanned early base) (grows : early.Grows late)
    (saved : Saved cause next late) (advanced : Advanced base cause body next)
    (plain : cause.isEdit = false) (tasks : SameLineage body.tasks base.tasks)
    (limits : body.limits = base.limits) (rejected : body.rejectedResponses = base.rejectedResponses)
    (wait : body.waitQuestion = base.waitQuestion) : Scanned late next := by
  rcases scanned with ⟨free, quiet⟩ | since
  · obtain ⟨now, reason, found, rfl⟩ := advanced.boundary
    have same : stopReason body = .ok none :=
      (stopReason_view tasks limits rejected).trans quiet
    rw [same] at found
    cases found
    exact .inl ⟨(waitQuestion_transitioned cause now body).trans (wait.trans free),
      (stopReason_transitioned cause now none body).trans same⟩
  · exact .inr (since.step grows saved advanced plain)

/-- A failed preparation keeps the scan going; if it exhausts a lineage, the scan has itself to blame. -/
theorem Scanned.failed (scanned : Scanned early base) (grows : early.Grows late)
    (saved : Saved (.prepareFailed id) next late)
    (advanced : Advanced base (.prepareFailed id) body next) (limits : body.limits = base.limits)
    (rejected : body.rejectedResponses = base.rejectedResponses)
    (wait : body.waitQuestion = base.waitQuestion) : Scanned late next := by
  rcases scanned with ⟨free, quiet⟩ | since
  · obtain ⟨now, reason, found, rfl⟩ := advanced.boundary
    cases reason with
    | none =>
      exact .inl ⟨(waitQuestion_transitioned _ now body).trans (wait.trans free),
        (stopReason_transitioned _ now none body).trans found⟩
    | some reason =>
      -- the rejected-response stop does not apply, so the reason is a lineage's
      have allowed : ¬ body.limits.rejectedResponses ≤ body.rejectedResponses := by
        intro reached
        rw [limits, rejected] at reached
        simp [stopReason, reached] at quiet
      rw [stopReason, if_neg allowed] at found
      refine .inr ⟨_, saved.saved, ⟨id, rfl⟩, ?_, rfl, fun generation after upTo => ?_⟩
      · rw [lineageStop_transitioned, found]
        simp
      · exact absurd (Nat.lt_of_lt_of_le after upTo) (Nat.lt_irrefl _)
  · exact .inr (since.step grows saved advanced rfl)

end

section
omit [Codec] [Contracts]

/-- Charging the clocks keeps what the policy reads. -/
theorem accrue_lineage {accrued : WorkflowRecord}
    (charged : Duration.accrue base now = .ok (accrued, changed)) :
    SameLineage accrued.tasks base.tasks ∧ accrued.limits = base.limits ∧
      accrued.rejectedResponses = base.rejectedResponses ∧
      accrued.waitQuestion = base.waitQuestion := by
  obtain ⟨tasks, ledger, rfl, traversed⟩ := accrue_ok charged
  refine ⟨.of_get? fun id => ?_, rfl, rfl, rfl⟩
  have charged_here := get?_mapFoldM traversed id
  simp only
  generalize base.tasks.get? id = old at charged_here
  generalize tasks.get? id = new at charged_here
  cases charged_here with
  | none => rfl
  | some visited =>
    obtain ⟨_, _, visited⟩ := visited
    obtain ⟨frozen, rfl, _⟩ := accrueTask_ok visited
    rfl

theorem durationStop_lineage (accrued : WorkflowRecord) :
    SameLineage (Duration.requestLimitStop accrued).1.tasks accrued.tasks ∧
      (Duration.requestLimitStop accrued).1.limits = accrued.limits ∧
      (Duration.requestLimitStop accrued).1.rejectedResponses = accrued.rejectedResponses ∧
      (Duration.remaining accrued ≠ 0 →
        (Duration.requestLimitStop accrued).1.waitQuestion = accrued.waitQuestion) := by
  refine ⟨SameLineage.mapValues (lineageView_requestStop _), rfl, rfl, fun remaining => ?_⟩
  have unspent : (Duration.remaining accrued == 0) = false := by simpa using remaining
  simp only [Duration.requestLimitStop, unspent, Bool.false_and, Bool.false_eq_true, if_false]

theorem remaining_transitioned (cause : Cause) (now : TimestampMillis) (reason : Option String)
    (accrued : WorkflowRecord) :
    Duration.remaining (transitioned cause now reason (Duration.requestLimitStop accrued).1) =
      Duration.remaining accrued := by
  rw [transitioned_eq]
  rfl

end

omit [Contracts] in
theorem Scanned.observed (scanned : Scanned early base) (grows : early.Grows late)
    (observed : Observed base next) (own : next = base ∨ (Cause.observe, next) ∈ late.saved)
    (known : next ∈ late.known) (remaining : Duration.remaining next ≠ 0) : Scanned late next := by
  cases observed with
  | same => exact scanned.imp_right fun since => since.mono grows
  | saved charged advanced =>
    have saved : Saved .observe next late := by
      refine ⟨known, own.resolve_left fun same => ?_, fun _ _ _ _ other => by cases other⟩
      have stepped := advanced.transition.generation
      rw [same] at stepped
      omega
    obtain ⟨now, reason, _, same⟩ := advanced.boundary
    rw [same, remaining_transitioned] at remaining
    obtain ⟨tasks, limits, rejected, wait⟩ := accrue_lineage charged
    obtain ⟨tasks', limits', rejected', wait'⟩ := durationStop_lineage _
    exact scanned.saved grows saved advanced rfl (tasks'.trans tasks) (limits'.trans limits)
      (rejected'.trans rejected) ((wait' remaining).trans wait)

def Candidates (record : WorkflowRecord) (ids : List TaskId) : Prop :=
  ∀ id ∈ ids, ∃ task, record.tasks.get? id = some task ∧ task.state = .queued

omit [Codec] [Contracts] in
theorem Candidates.saved {change : TaskRecord → TaskRecord} {reason : Option String}
    (candidates : Candidates base (id :: rest)) (distinct : (id :: rest).Nodup)
    (same : next = transitioned cause now reason (base.modifyTask id change)) :
    Candidates next rest := by
  intro other member
  obtain ⟨task, found, queued⟩ := candidates other (mem_cons_of_mem _ member)
  have apart : other ≠ id := fun here => (nodup_cons.mp distinct).1 (here ▸ member)
  have tasks : next.tasks = (base.modifyTask id change).tasks.mapValues (policyStop reason) := by
    rw [same, transitioned_tasks]
  refine ⟨policyStop reason task, by simp [tasks, WorkflowRecord.modifyTask, apart, found], ?_⟩
  unfold policyStop Duration.requestStop
  split <;> exact queued

omit [Contracts] in
theorem Candidates.observed {ids : List TaskId} (candidates : Candidates base ids)
    (observed : Observed base next) : Candidates next ids := by
  intro id member
  obtain ⟨task, found, queued⟩ := candidates id member
  have clocked := observed.clocked id
  rw [found] at clocked
  generalize next.tasks.get? id = new at clocked
  cases clocked with
  | some clocked =>
    obtain ⟨_, _, rfl, _⟩ := clocked
    exact ⟨_, rfl, queued⟩

/-! ### The loops -/

omit [Contracts] in
theorem meets_explain (reason : String) (shownTask : TaskRecord)
    (known : record ∈ knowledge.known) (found : record.tasks.get? id = some task)
    (scanned : Scanned knowledge record) (candidates : Candidates record (id :: rest))
    (distinct : (id :: rest).Nodup) :
    Meets (explain record id shownTask reason) knowledge fun next final =>
      next ∈ final.known ∧ Scanned final next ∧ Candidates next rest := by
  unfold explain
  split
  · refine (meets_advanceAndSave known (.explain reason found) rfl (.other (by simp) (by simp))).mono ?_
    rintro next final grows ⟨saved, advanced⟩
    obtain ⟨now, reason', _, same⟩ := advanced.boundary
    exact ⟨saved.known, scanned.saved grows saved advanced rfl (.modify found rfl) rfl rfl rfl,
      candidates.saved distinct same⟩
  · exact pure ⟨known, scanned, fun other member =>
      candidates other (mem_cons_of_mem _ member)⟩

omit [Codec] [Contracts] in
/-- A wait that the scan did not raise itself keeps starts away. -/
theorem Scanned.knownRule (scanned : Scanned knowledge record) :
    KnownRule knowledge record (.start id) where
  start _ _ := scanned.imp_left And.left
  requeue _ same := by cases same

omit [Contracts] in
theorem meets_freeze {shownTask : TaskRecord} {dispatch : ExecutionDispatch}
    (at_ : TimestampMillis) (known : record ∈ knowledge.known)
    (found : record.tasks.get? id = some task) (queued : task.state = .queued)
    (future : task.frozen = none) (defined : shownTask.definition = task.definition)
    (ready : resolveInputs record task = .ok inputs)
    (shown : ∀ generation, dispatch.shownGeneration = some generation → generation = record.generation +
      1) (placed : dispatch.run.text = record.id.text ∧ dispatch.node.text = task.id.text)
    (timely : Duration.remaining record ≠ 0) (scanned : Scanned knowledge record)
    (candidates : Candidates record (id :: rest)) (distinct : (id :: rest).Nodup) :
    Meets (freeze record id shownTask inputs dispatch at_) knowledge fun next final =>
      next ∈ final.known ∧ Scanned final next ∧ Candidates next rest := by
  refine lift_bind fun generation numbered => ?_
  rw [require_eq_ok_iff, checkedAdd_eq_some_iff] at numbered
  obtain ⟨rfl, _⟩ := numbered
  rw [defined]
  refine (meets_advanceDecisionAndSave known
    (.start at_ found queued future ready shown placed timely) rfl scanned.knownRule).mono ?_
  rintro next final grows ⟨saved, advanced⟩
  obtain ⟨now, reason, _, same⟩ := advanced.boundary
  have viewed : lineageView (startedTask task.definition inputs dispatch
      (record.generation + 1) at_ task) = lineageView task := by
    simp [lineageView, startedTask, queued, TaskState.isSettled]
  exact ⟨saved.known, scanned.saved grows saved advanced rfl (.modify found viewed) rfl rfl rfl,
    candidates.saved distinct same⟩

variable (settings : RuntimeSettings)

theorem meets_scanCandidates (maximum pages : Nat) (ids : List TaskId) (record : WorkflowRecord)
    (active : Nat) (dispatches : List ExecutionDispatch) (known : record ∈ knowledge.known)
    (scanned : Scanned knowledge record) (candidates : Candidates record ids) (distinct : ids.Nodup) :
    Meets (scanCandidates settings maximum pages ids record active dispatches) knowledge
      fun _ _ => True := by
  induction ids generalizing record active dispatches knowledge with
  | nil => exact pure trivial
  | cons id rest ih =>
    have later := (nodup_cons.mp distinct).2
    have others : Candidates record rest := fun other member =>
      candidates other (mem_cons_of_mem _ member)
    unfold scanCandidates
    split
    · exact pure trivial
    refine lift_bind fun task found => ?_
    rw [require_eq_ok_iff] at found
    obtain ⟨same, found', queued⟩ := candidates id mem_cons_self
    rw [found] at found'
    cases found'
    split
    next start frozen =>
      split
      next retained =>
        refine bind (meets_advanceDecisionAndSave known
          (.redispatch found queued frozen retained.1) rfl (.other (by simp) (by simp)))
          fun next final grows saved => ?_
        obtain ⟨saved, advanced⟩ := saved
        obtain ⟨now, reason, _, same⟩ := advanced.boundary
        have viewed : lineageView (resumedTask task) = lineageView task := by
          simp [lineageView, resumedTask, queued, TaskState.isSettled]
        exact ih next _ _ saved.known
          (scanned.saved grows saved advanced rfl (.modify found viewed) rfl rfl rfl)
          (candidates.saved distinct same) later
      · exact ih record _ _ known scanned others later
    next future =>
      refine andThen (meets_activeTaskCount pages) fun occupied counted grows => ?_
      have known := grows.known known
      have scanned : Scanned counted record := scanned.imp_right fun since => since.mono grows
      split
      · exact pure trivial
      split
      · refine bind (meets_explain _ task known found scanned candidates distinct)
          fun next final _ explained => ?_
        exact ih next _ _ explained.1 explained.2.1 explained.2.2 later
      next inputs ready =>
        refine Silent.now.bind fun at_ => ?_
        refine bind (meets_observeDuration at_ known) fun current late grows' seen => ?_
        obtain ⟨member, observed, own⟩ := seen
        split
        · exact pure trivial
        next remaining =>
          have scanned := scanned.observed grows' observed own member remaining
          have candidates := candidates.observed observed
          -- the candidate as the observation left it
          have clocked := observed.clocked id
          rw [found] at clocked
          generalize present : current.tasks.get? id = new at clocked
          cases clocked with
          | some clocked =>
            obtain ⟨frozen, stopRequested, rfl, kept⟩ := clocked
            have ready' : resolveInputs current { task with frozen, stopRequested } = .ok inputs :=
              resolveInputs_transfer observed.kept.1.symm
                (fun other => (observed.outcome? other).symm) rfl ready
            refine bind (meets_prepareDispatch current task inputs at_).attempt
              fun prepared final grows'' shown => ?_
            have member := grows''.known member
            have scanned : Scanned final current :=
              scanned.imp_right fun since => since.mono grows''
            cases prepared with
            | ok dispatch =>
              refine bind (meets_freeze at_ member present queued (kept future) rfl ready'
                (shown dispatch rfl).1 (shown dispatch rfl).2 remaining scanned candidates
                distinct)
                fun next _ _ frozen => ?_
              exact ih next _ _ frozen.1 frozen.2.1 frozen.2.2 later
            | error error =>
              simp only
              split
              · refine bind (meets_explain _ task member present scanned candidates distinct)
                  fun next _ _ explained => ?_
                exact ih next _ _ explained.1 explained.2.1 explained.2.2 later
              · refine bind (meets_advanceAndSave member
                  (.prepareFailed _ at_ present queued (kept future)) rfl (.other (by simp) (by simp)))
                  fun next last grows saved => ?_
                obtain ⟨saved, advanced⟩ := saved
                obtain ⟨now, reason, _, same⟩ := advanced.boundary
                exact ih next _ _ saved.known (scanned.failed grows saved advanced rfl rfl rfl)
                  (candidates.saved distinct same) later

section
omit [Codec] [Contracts]

theorem queuedTasks_candidates (record : WorkflowRecord) : Candidates record (queuedTasks record) ∧
      (queuedTasks record).Nodup := by
  constructor
  · intro id member
    obtain ⟨entry, inside, rfl⟩ := mem_map.mp member
    obtain ⟨present, queued⟩ := mem_filter.mp inside
    exact ⟨entry.2, (get?_eq_some_iff _).mpr present, by simpa using queued⟩
  · have keys : (record.tasks.entries.map Prod.fst).Nodup :=
      record.tasks.sorted.imp fun less => less.ne
    exact keys.sublist (filter_sublist.map Prod.fst)

theorem policyStop_unchanged (done : requestLimitStop record = .ok (stopped, false)) :
    stopped = record := by
  obtain ⟨reason, _, same, quiet⟩ := requestLimitStop_ok done
  cases reason with
  | none =>
    have tasks : record.tasks.mapValues (policyStop none) = record.tasks :=
      ext_get? fun id => by
        rw [get?_mapValues, funext policyStop_none]
        exact Option.map_id'
    rw [same]
    simp [tasks, policyWait]
  | some reason =>
    simp only [Option.isSome_some, Bool.true_and, Bool.false_eq, Bool.or_eq_false_iff] at quiet
    have tasks : record.tasks.mapValues (policyStop (some reason)) = record.tasks := by
      refine ext_get? fun id => ?_
      rw [get?_mapValues]
      cases found : record.tasks.get? id with
      | none => rfl
      | some task =>
        have free := any_eq_false.mp quiet.2 task ((mem_values_iff _).mpr ⟨id, found⟩)
        simp [policyStop, Duration.requestStop, free]
    have standing : (policyWait (some reason) record.waitQuestion) = record.waitQuestion := by
      cases waiting : record.waitQuestion with
      | none => simp [waiting] at quiet
      | some question => rfl
    rw [same]
    simp [tasks, standing, quiet.1]

end

omit [Contracts] in
theorem meets_policyStop (known : record ∈ knowledge.known)
    (done : requestLimitStop record = .ok (stopped, changed)) :
    Meets (if changed then advanceAndSave stopped .policyStop else pure stopped) knowledge
      fun current final => current ∈ final.known ∧
        (current.waitQuestion = none → stopReason current = .ok none) := by
  obtain ⟨reason, found, same, moved⟩ := requestLimitStop_ok done
  have waits : reason.isSome = true → stopped.waitQuestion.isSome = true := by
    intro present
    rw [same]
    simp [policyWait, present]
  cases changed with
  | true =>
    refine (meets_advanceAndSave known (.policyStop done) rfl (.other (by simp) (by simp))).mono ?_
    rintro current final _ ⟨saved, advanced⟩
    refine ⟨saved.known, fun free => ?_⟩
    -- a change has a reason, and a reason raises or keeps a wait
    have present : reason.isSome = true := by
      cases reason with
      | none => simp at moved
      | some => rfl
    obtain ⟨now, reason', _, rfl⟩ := advanced.boundary
    have standing : (policyWait reason' stopped.waitQuestion).isSome = true := by
      simp [policyWait, waits present]
    rw [show (transitioned .policyStop now reason' stopped).waitQuestion =
      policyWait reason' stopped.waitQuestion from rfl] at free
    rw [free] at standing
    cases standing
  | false =>
    cases policyStop_unchanged done
    refine pure ⟨known, fun free => ?_⟩
    cases reason with
    | none => exact found
    | some reason =>
      rw [free] at waits
      exact absurd (waits rfl) (by simp)

theorem meets_scanWorkflows (maximum pages : Nat)
    (items : List WorkflowSnapshot) (dispatches : List ExecutionDispatch) :
    Sound (scanWorkflows settings maximum pages items dispatches) knowledge := by
  induction items generalizing dispatches knowledge with
  | nil => exact pure trivial
  | cons row rest ih =>
    refine bind (meets_requireWorkflow row.workflow) fun read middle _ known => ?_
    refine Silent.now.bind fun at_ => ?_
    refine bind (meets_observeDuration at_ known.1) fun observed late _ seen => ?_
    refine lift_bind fun stopping done => ?_
    obtain ⟨stopped, changed⟩ := stopping
    have stopping := meets_policyStop seen.1 done
    have scan : ∀ (current : WorkflowRecord) (final : Knowledge), late.Grows final →
        current ∈ final.known ∧ (current.waitQuestion = none → stopReason current = .ok none) →
        Meets (if current.waitQuestion.isSome = true then
            scanWorkflows settings maximum pages rest dispatches
          else do
            let started ← scanCandidates settings maximum pages
              (queuedTasks current) current (occupying current) dispatches
            scanWorkflows settings maximum pages rest started) final
          fun _ _ => True := by
      intro current final _ stopped
      split
      · exact ih dispatches
      next free =>
        have free : current.waitQuestion = none := by simpa using free
        obtain ⟨candidates, distinct⟩ := queuedTasks_candidates current
        refine andThen (meets_scanCandidates settings maximum pages _ current _ dispatches
          stopped.1 (.inl ⟨free, stopped.2 free⟩) candidates distinct) fun started _ _ => ?_
        exact ih started
    cases changed with
    | true =>
      simp only [if_true] at stopping
      exact stopping.bind scan
    | false =>
      simp only [Bool.false_eq_true, if_false] at stopping
      exact stopping.bind scan

theorem meets_tick (maximum pages : Nat) : Sound (tick settings maximum pages) knowledge := by
  unfold tick
  split
  · exact refuse _
  · refine withGate ((Silent.request rfl).bind fun closed => ?_)
    cases closed with
    | true => exact pure trivial
    | false =>
      refine (Silent.request rfl).bind fun cursor => (Silent.fallible (.request rfl)).bind fun page => ?_
      exact (Silent.request rfl).bind fun _ => meets_scanWorkflows _ _ _ _ _

end Milkdrift
