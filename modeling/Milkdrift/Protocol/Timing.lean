/-
Purpose: Under a steady clock, a thread commits only rows that the reader accepts.
Trusted boundary: Codec
-/
import Milkdrift.Lifecycle.History
import Milkdrift.Lifecycle.Timing
import Milkdrift.Protocol.Effects

namespace Milkdrift

open Action Program Upholds Scheduling Effects Admission Quiet

/-! ### The discipline -/

/-- A stored row that the reader accepts, with times up to the one it carries. -/
structure Legible (row : WorkflowSnapshot) : Prop where
  read : readRow row = .ok row.document
  punctual : row.document.Punctual row.document.updatedAt

/-- A commit that a thread may make once a time has passed. -/
def Timely (since : TimestampMillis) : Request → Prop
  | .commit commit => Legible commit.snapshot ∧ commit.snapshot.document.updatedAt ≤ since
  | _ => True

/-- What a thread may assume of an answer: the clock does not step back, and stored rows are legible. -/
def Steady (since : TimestampMillis) : (op : Request) → op.Answer → Prop
  | .now => fun answer => ∀ at_, answer = .ok at_ → since ≤ at_
  | .readWorkflow _ => fun answer => ∀ row, answer = .ok (some row) → Legible row
  | _ => fun _ => True

def passed (since : TimestampMillis) : (op : Request) → op.Answer → TimestampMillis
  | .now => fun answer =>
    match answer with
    | .ok at_ => at_
    | .error _ => since
  | .readWorkflow _ => fun answer =>
    match answer with
    | .ok (some row) => max since row.document.updatedAt
    | _ => since
  | _ => fun _ => since

/-- Requests that say nothing about time and change no row. -/
def Request.timeless : Request → Bool
  | .now | .readWorkflow _ | .commit _ => false
  | _ => true

abbrev clockProtocol : Protocol taskSignature where
  Ghost := TimestampMillis
  permits := Timely
  answers := Steady
  learn := passed

variable {α β : Type}

/-- The program keeps the clock discipline once a time has passed, and `post` holds of its value and of
the time that has passed then. -/
abbrev OnTime (program : Action α) (since : TimestampMillis) (post : α → TimestampMillis → Prop) : Prop :=
  program.Upholds clockProtocol (fun early late : TimestampMillis => early ≤ late) since post

/-- The saves of the program are punctual, whatever it yields. -/
abbrev Prompt (program : Action α) (since : TimestampMillis) : Prop :=
  OnTime program since fun _ _ => True

theorem quiet_request {op : Request} (timeless : op.timeless = true) :
    Quiet clockProtocol (Action.request op) := by
  refine ask (fun since => ?_) fun since answer => ?_
  · cases op <;> trivial
  · cases op <;> first | rfl | cases timeless

theorem LooksUp.quiet {program : Action α} (looks : LooksUp program) : Quiet clockProtocol program := by
  refine of_issues (fun op lookup _ => ?_) looks
  cases op <;> first | exact ⟨trivial, fun _ => rfl⟩ | cases lookup

variable {since : TimestampMillis} {next : α → Action β} {goal : β → TimestampMillis → Prop}

/-- After a reading of the clock, the time it said has passed. -/
theorem onTime_now {next : TimestampMillis → Action β}
    (rest : ∀ at_, since ≤ at_ → OnTime (next at_) at_ goal) : OnTime (now >>= next) since goal := by
  have told : OnTime now since fun at_ final => final = at_ := by
    refine ⟨trivial, fun answer steady => ?_⟩
    cases answer with
    | error error => exact ⟨Nat.le_refl _, fun _ same => by cases same⟩
    | ok at_ => exact ⟨steady at_ rfl, fun _ same => Except.ok.inj same⟩
  refine told.bind fun at_ final after same => ?_
  subst same
  exact rest final after

variable {post : α → TimestampMillis → Prop} {record : WorkflowRecord}

theorem onTime_withGate {unavailable : RuntimeError} {body : Action α} (onTime : OnTime body since post) :
    OnTime (withGate unavailable body) since post := by
  refine bind (quiet_request rfl) fun held => ?_
  cases held with
  | false => exact refuse unavailable
  | true =>
    refine onTime.attempt.bind fun result final _ holds => ?_
    exact bind (quiet_request rfl) fun _ => lift holds

theorem onTime_unfoldedFurther : OnTime (unfoldedFurther : Action α) since post :=
  ⟨trivial, fun never => never.elim⟩

/-! ### Reading -/

variable (id : WorkflowId)

theorem onTime_workflow : OnTime (workflow id) since fun found final => ∀ record, found = some record →
      record.Punctual final := by
  have read : OnTime (readWorkflow id) since fun found final => ∀ row, found = some row →
      Legible row ∧ row.document.updatedAt ≤ final := by
    refine ⟨trivial, fun answer steady => ?_⟩
    cases answer with
    | error error => exact ⟨Nat.le_refl _, fun _ same => by cases same⟩
    | ok found =>
      cases found with
      | none =>
        refine ⟨Nat.le_refl _, fun _ same row present => ?_⟩
        cases same
        cases present
      | some row =>
        refine ⟨Nat.le_max_left _ _, fun _ same other present => ?_⟩
        cases same
        cases present
        exact ⟨steady row rfl, Nat.le_max_right _ _⟩
  refine read.bind fun found final _ legible => ?_
  cases found with
  | none => exact pure fun _ present => by cases present
  | some row =>
    refine lift_bind fun record done => pure fun _ present => ?_
    cases present
    obtain ⟨clear, past⟩ := legible row rfl
    rw [(readRow_ok done).1]
    exact clear.punctual.mono past

theorem onTime_requireWorkflow :
    OnTime (requireWorkflow id) since fun record final => record.Punctual final := by
  refine (onTime_workflow id).bind fun found final _ punctual => ?_
  exact lift fun record done => punctual record (require_eq_ok_iff.mp done)

/-! ### Saving -/

variable [Codec]

theorem snapshotOf_legible {snapshot : WorkflowSnapshot} (punctual : record.Punctual record.updatedAt)
    (done : snapshotOf record = .ok snapshot) : Legible snapshot ∧ snapshot.document = record := by
  simp only [snapshotOf, except_bind_eq_ok] at done
  obtain ⟨_, _, _, _, _, _, _, _, same⟩ := done
  cases same
  refine ⟨⟨?_, punctual⟩, rfl⟩
  simp [readRow, readVersion_of_punctual punctual, ensure]

omit [Codec] in
theorem onTime_nextActive (record : WorkflowRecord) (count : Option Nat) :
    Prompt (nextActive record count) since := by
  cases count with
  | none => exact pure trivial
  | some count =>
    refine (onTime_workflow record.id).bind fun prior _ _ _ => ?_
    exact lift_bind fun _ _ => pure trivial

theorem onTime_save (expected : Option Nat) (command : Option WorkflowCommandAcceptance) (cause : Cause)
    (punctual : record.Punctual record.updatedAt) (past : record.updatedAt ≤ since) :
    Prompt (save record expected command cause) since := by
  refine lift_bind fun snapshot done => bind (quiet_request rfl) fun active => ?_
  obtain ⟨legible, same⟩ := snapshotOf_legible punctual done
  refine (onTime_nextActive record active).bind fun updated middle after _ => ?_
  have committed : OnTime (commitWorkflow ⟨expected, snapshot, command, cause⟩) middle
      fun _ _ => True := by
    refine ⟨⟨legible, same ▸ past.trans after⟩, fun answer _ => ?_⟩
    cases answer with
    | error error => exact ⟨Nat.le_refl _, fun _ _ => trivial⟩
    | ok outcome => exact ⟨Nat.le_refl _, fun _ _ => trivial⟩
  refine committed.bind fun outcome _ _ _ => ?_
  cases outcome with
  | replay receipt => exact pure trivial
  | applied receipt => exact bind (quiet_request rfl) fun _ => pure trivial

section Records

variable {record : WorkflowRecord} {past : TimestampMillis}

omit [Codec] in
theorem onTime_advance (punctual : record.Punctual past) (before : past ≤ since) :
    OnTime (advance record) since fun next final =>
      next.Punctual past ∧ past ≤ next.updatedAt ∧ next.updatedAt ≤ final := by
  refine lift_bind fun _ _ => onTime_now fun at_ after => lift fun next done => ?_
  obtain ⟨kept, same⟩ := punctual.advanceAt done
  exact ⟨kept, same ▸ before.trans after, Nat.le_of_eq same⟩

variable (cause : Cause)

theorem onTime_advanceAndSave (punctual : record.Punctual past) (before : past ≤ since) :
    OnTime (advanceAndSave record cause) since fun next _ => next.Punctual past := by
  refine (onTime_advance punctual before).bind fun next middle _ ⟨kept, later, passed⟩ => ?_
  refine (onTime_save _ _ _ (kept.mono later) passed).bind fun _ _ _ _ => ?_
  exact pure kept

theorem onTime_advanceDecisionAndSave (punctual : record.Punctual past) (before : past ≤ since) :
    OnTime (advanceDecisionAndSave record cause) since fun next _ => next.Punctual past := by
  refine (onTime_advance punctual before).bind fun next middle _ ⟨kept, later, passed⟩ => ?_
  have shown := kept.decided next.generation
  exact (onTime_save _ _ _ (shown.mono later) passed).bind fun _ _ _ _ => pure shown

theorem onTime_observeDuration {at_ : TimestampMillis} (punctual : record.Punctual at_)
    (before : at_ ≤ since) :
    OnTime (observeDuration record at_) since fun next _ => next.Punctual at_ := by
  refine lift_bind fun charged done => ?_
  have kept := (punctual.accrue done).durationStop
  simp only
  split
  · exact onTime_advanceAndSave _ kept before
  · exact pure kept

theorem onTime_modifyAndSave {id : TaskId} {change : TaskRecord → TaskRecord}
    (punctual : record.Punctual past) (before : past ≤ since)
    (keeps : ∀ task, task.Punctual past → (change task).Punctual past) :
    OnTime (advanceAndSave (record.modifyTask id change) cause) since fun next _ =>
      next.Punctual past :=
  onTime_advanceAndSave cause (punctual.modifyTask fun task _ kept => keeps task kept) before

end Records

/-! ### Execution -/

variable (workflowId : WorkflowId) (taskId : TaskId) (reason : String)

theorem onTime_finishWithoutEntryPolicy
    {state : TaskState} (pause : Bool) (final : state.isSettled = true) :
    Prompt (finishWithoutEntryPolicy workflowId taskId state reason pause) since := by
  refine andThen (onTime_withGate ?_) fun settled _ _ =>
    (LooksUp.settleStart settled).quiet.upholds fun _ => trivial
  refine (onTime_requireWorkflow workflowId).bind fun read middle _ punctual => ?_
  have paused : (if pause then pausedBy reason read else read).Punctual middle := by
    split
    · exact punctual.sameTasks rfl rfl
    · exact punctual
  refine lift_bind fun task found => ?_
  split
  · exact pure trivial
  · refine lift_bind fun _ _ => onTime_now fun at_ after => ?_
    refine (onTime_modifyAndSave _ paused after fun _ kept =>
      kept.finishedTask reason at_ final).bind fun _ _ _ _ => ?_
    exact (LooksUp.settleStart _).quiet.bind fun _ => pure trivial

theorem onTime_markUncertain : Prompt (markUncertain workflowId taskId reason) since := by
  refine onTime_withGate ?_
  refine (onTime_requireWorkflow workflowId).bind fun read middle _ punctual => ?_
  refine lift_bind fun task found => ?_
  rw [require_eq_ok_iff] at found
  split
  · exact pure trivial
  · refine lift_bind fun marked done => onTime_now fun at_ after => ?_
    refine lift_bind fun charged accrued => ?_
    have doubted : (read.modifyTask taskId fun _ => marked).Punctual middle :=
      punctual.modifyTask fun old present kept => by
        rw [found] at present
        cases present
        exact kept.uncertainTask done
    refine (onTime_advanceAndSave _ ((doubted.mono after).accrue accrued).durationStop
      (Nat.le_refl _)).bind fun _ _ _ _ => pure trivial

omit [Codec] in
theorem onTime_withClaim (invocation : InvocationId) {body : Action Bool} (onTime : Prompt body since) :
    Prompt (withClaim invocation body) since := by
  refine bind (quiet_request rfl) fun owned => ?_
  cases owned with
  | false => exact refuse _
  | true =>
    refine onTime.attempt.bind fun result _ _ _ => ?_
    cases result with
    | ok kept =>
      cases kept with
      | true => exact pure trivial
      | false => exact upholds (quiet_request rfl) fun _ => trivial
    | error error => exact bind (quiet_request rfl) fun _ => refuse error

variable (dispatch : ExecutionDispatch)

theorem onTime_deferBeforeEntry (reason : String) :
    Prompt (deferBeforeEntry workflowId taskId dispatch reason) since := by
  refine andThen (onTime_withGate ?_) fun deferral _ _ => ?_
  · refine (onTime_requireWorkflow workflowId).bind fun read middle _ punctual => ?_
    refine onTime_now fun at_ after => lift_bind fun charged accrued => ?_
    refine lift_bind fun task _ => ?_
    split
    · exact pure trivial
    · refine lift_bind fun start _ => lift_bind fun _ _ => ?_
      split
      · exact pure trivial
      · refine (onTime_modifyAndSave _ ((punctual.mono after).accrue accrued) (Nat.le_refl _)
          fun _ kept => by exact kept.kept rfl rfl (by rintro ⟨⟩)).bind fun _ _ _ _ => ?_
        exact bind (quiet_request rfl) fun _ => pure trivial
  · cases deferral with
    | released => exact pure trivial
    | settled => exact (quiet_request rfl).fallible.bind fun _ => pure trivial
    | stopped =>
      exact (onTime_finishWithoutEntryPolicy _ _ _ false rfl).bind fun _ _ _ _ =>
        pure trivial

theorem onTime_refusedPreparation (error : ExecutorError) :
    Prompt (refusedPreparation workflowId taskId dispatch error) since := by
  unfold refusedPreparation
  split
  · exact onTime_deferBeforeEntry _ _ _ _
  · split
    · exact (onTime_finishWithoutEntryPolicy _ _ _ false rfl).bind fun _ _ _ _ =>
        pure trivial
    · exact (onTime_markUncertain _ _ _).bind fun _ _ _ _ => pure trivial

def Effects.EntryDecision.Final : Effects.EntryDecision → Prop
  | .finish state _ _ => state.isSettled = true
  | _ => True

theorem onTime_decideEntry (envelope : InvocationAdmissionEnvelope) :
    OnTime (decideEntry workflowId taskId dispatch envelope) since fun decision _ =>
      decision.Final := by
  refine (onTime_requireWorkflow workflowId).bind fun read middle _ punctual => ?_
  refine onTime_now fun at_ after => ?_
  refine (onTime_observeDuration (punctual.mono after) (Nat.le_refl _)).bind
    fun record late later observed => ?_
  split
  · exact pure trivial
  split
  · exact pure rfl
  split
  · exact pure rfl
  next allowance currency maximumMs _ =>
    refine lift_bind fun owned done => ?_
    obtain ⟨task, start⟩ := owned
    obtain ⟨found, frozen, _⟩ := ownedTask_ok done
    simp only
    split
    · exact pure rfl
    refine (quiet_request rfl).fallible.bind fun decision => ?_
    split
    · exact pure rfl
    split
    · exact pure rfl
    refine lift_bind fun exact_ _ => ?_
    have entered : (record.modifyTask taskId (enteredTask exact_ maximumMs at_ start)).Punctual at_ :=
      observed.modifyTask fun old present kept => by
        rw [found] at present
        cases present
        exact kept.enteredTask exact_ maximumMs frozen
    refine (onTime_advanceAndSave _ (by exact entered.sameTasks rfl rfl) later).bind
      fun _ _ _ _ => pure trivial

theorem onTime_enterOnce (entry : Entry) : Prompt (enterOnce entry) since := by
  refine bind (quiet_request rfl) fun _ => bind (quiet_request rfl) fun outcome => ?_
  refine (onTime_requireWorkflow entry.workflow).bind fun record _ _ _ => ?_
  refine lift_bind fun task _ => ?_
  split
  · exact (quiet_request rfl).fallible.upholds fun _ => trivial
  split
  · exact pure trivial
  split
  · exact onTime_markUncertain _ _ _
  · exact onTime_markUncertain _ _ _

theorem onTime_execute : Prompt (execute dispatch) since := by
  refine onTime_withClaim _ ?_
  refine lift_bind fun workflowId _ => lift_bind fun taskId _ => ?_
  refine andThen (onTime_withGate ?_) fun stopRequested _ _ => ?_
  · refine (onTime_requireWorkflow workflowId).bind fun record _ _ _ => ?_
    exact lift_bind fun _ _ => pure trivial
  split
  · exact (onTime_finishWithoutEntryPolicy _ _ _ false rfl).bind fun _ _ _ _ =>
      pure trivial
  refine bind (quiet_request rfl) fun prepared => ?_
  split
  · exact onTime_refusedPreparation _ _ _ _
  refine bind (onTime_withGate (onTime_decideEntry _ _ _ _)) fun decision _ _ final => ?_
  cases decision with
  | settled => exact (quiet_request rfl).fallible.bind fun _ => pure trivial
  | finish state reason pause =>
    exact (onTime_finishWithoutEntryPolicy _ _ _ _ final).bind fun _ _ _ _ => pure trivial
  | enter exact_ => exact (onTime_enterOnce _).bind fun _ _ _ _ => pure trivial

/-! ### Recovery, cancellation and reports -/

theorem onTime_requeue : Prompt (requeue workflowId taskId) since := by
  refine onTime_withGate ?_
  refine (onTime_requireWorkflow workflowId).bind fun current _ _ punctual => ?_
  refine lift_bind fun _ _ => ?_
  exact (onTime_modifyAndSave _ punctual (Nat.le_refl _) fun _ kept =>
    by exact kept.kept rfl rfl (by rintro ⟨⟩)).bind fun _ _ _ _ => pure trivial

theorem onTime_recoverTasks (workflow : WorkflowRecord) (tasks : List (TaskId × TaskRecord))
    (ready : List ExecutionDispatch) :
    Prompt (recoverTasks workflow tasks ready) since := by
  induction tasks generalizing ready since with
  | nil => exact pure trivial
  | cons entry rest ih =>
    unfold recoverTasks
    split
    · exact (LooksUp.settleStart _).quiet.bind fun _ => ih _
    split
    · exact ih _
    refine lift_bind fun start _ => ?_
    split
    · exact (onTime_markUncertain _ _ _).bind fun _ _ _ _ => ih _
    split
    · exact (onTime_requeue _ _).bind fun _ _ _ _ => ih _
    split <;> exact ih _

variable (items : List WorkflowSnapshot)

theorem onTime_recoverItems (ready : List ExecutionDispatch) : Prompt (recoverItems items ready) since := by
  induction items generalizing ready since with
  | nil => exact pure trivial
  | cons row rest ih =>
    refine andThen (onTime_withGate ?_) fun observed _ _ => ?_
    · refine (onTime_requireWorkflow row.workflow).bind fun read _ _ punctual => ?_
      refine onTime_now fun at_ after => ?_
      exact (onTime_observeDuration (punctual.mono after) (Nat.le_refl _)).mono fun _ _ _ _ => trivial
    · exact (onTime_recoverTasks _ _ _).bind fun next _ _ _ => ih _

theorem onTime_recoverPages (pages : Nat) (cursor : Option WorkflowId) (ready : List ExecutionDispatch) :
    Prompt (recoverPages pages cursor ready) since := by
  induction pages generalizing cursor ready since with
  | zero => exact onTime_unfoldedFurther
  | succ pages ih =>
    refine (quiet_request rfl).fallible.bind fun page => ?_
    refine (onTime_recoverItems _ _).bind fun next _ _ _ => ?_
    split
    · exact pure trivial
    · exact ih _ _

theorem onTime_cancelEntered (start : FrozenTaskStart) :
    Prompt (cancelEntered workflowId taskId start) since := by
  refine bind (quiet_request rfl) fun outcome => ?_
  split
  · split
    · refine onTime_withGate ?_
      refine (onTime_requireWorkflow workflowId).bind fun current _ _ punctual => ?_
      refine lift_bind fun _ _ => ?_
      exact (onTime_modifyAndSave _ punctual (Nat.le_refl _) fun _ kept =>
        by exact kept.kept rfl rfl id).bind fun _ _ _ _ => pure trivial
    · exact onTime_markUncertain _ _ _
  · exact onTime_markUncertain _ _ _

theorem onTime_cancelTasks (dispatch : CancellationDispatch) (tasks : List (TaskId × TaskRecord)) :
    Prompt (cancelTasks workflowId dispatch tasks) since := by
  induction tasks generalizing since with
  | nil => exact pure trivial
  | cons entry rest ih =>
    unfold cancelTasks
    split
    · exact ih
    split
    · exact ih
    split
    · exact (onTime_finishWithoutEntryPolicy _ _ _ false rfl).bind fun _ _ _ _ =>
        ih
    · exact (onTime_cancelEntered _ _ _).bind fun _ _ _ _ => ih

theorem onTime_executeCancellation (dispatch : CancellationDispatch) :
    Prompt (executeCancellation dispatch) since := by
  refine lift_bind fun workflowId _ => ?_
  exact (onTime_requireWorkflow workflowId).bind fun _ _ _ _ => onTime_cancelTasks _ _ _

variable (maximum : Nat)

section
omit [Codec]

theorem onTime_claimItems (actions : List CancellationDispatch) :
    Prompt (claimItems maximum items actions) since := by
  induction items generalizing actions since with
  | nil => exact pure trivial
  | cons row rest ih =>
    refine (onTime_requireWorkflow row.workflow).bind fun record _ _ _ => ?_
    split
    · exact pure trivial
    · exact ih _

theorem onTime_cancellationActions : Prompt (cancellationActions maximum) since := by
  refine bind (quiet_request rfl) fun cursor => ?_
  refine (quiet_request rfl).fallible.bind fun page => ?_
  exact bind (quiet_request rfl) fun _ => onTime_claimItems _ _ _

end

variable (reporter : Effects.Reporter)

theorem onTime_checkContinuation : Prompt reporter.checkContinuation since := by
  refine onTime_withGate ?_
  refine (onTime_requireWorkflow reporter.workflow).bind fun read _ _ punctual => ?_
  refine onTime_now fun at_ after => ?_
  refine (onTime_observeDuration (punctual.mono after) (Nat.le_refl _)).bind fun _ _ _ _ => ?_
  refine lift_bind fun _ _ => lift_bind fun _ _ => ?_
  exact lift fun _ _ => trivial

theorem onTime_record (event : InvocationEvent) : Prompt (reporter.record event) since := by
  refine onTime_withGate (lift_bind fun _ _ => ?_)
  refine (onTime_requireWorkflow reporter.workflow).bind fun read _ _ punctual => ?_
  refine onTime_now fun at_ after => lift_bind fun charged accrued => ?_
  refine lift_bind fun reported done => ?_
  cases reported with
  | none => exact pure trivial
  | some record =>
    refine (onTime_advanceAndSave _ (((punctual.mono after).accrue accrued).applyReport done)
      (Nat.le_refl _)).bind fun _ _ _ _ => ?_
    exact lift fun _ _ => trivial

/-! ### Scheduling -/

section
omit [Codec]

theorem onTime_countItems (items : List WorkflowSnapshot) (count : Nat) :
    Prompt (countItems items count) since := by
  induction items generalizing count since with
  | nil => exact pure trivial
  | cons row rest ih =>
    refine (onTime_requireWorkflow row.workflow).bind fun _ _ _ _ => ?_
    exact lift_bind fun next _ => ih next

variable (pages : Nat)

theorem onTime_countPages (cursor : Option WorkflowId) (count : Nat) :
    Prompt (countPages pages cursor count) since := by
  induction pages generalizing cursor count since with
  | zero => exact onTime_unfoldedFurther
  | succ pages ih =>
    refine (quiet_request rfl).fallible.bind fun page => ?_
    refine (onTime_countItems _ _).bind fun next _ _ _ => ?_
    split
    · exact pure trivial
    · exact ih _ _

theorem onTime_activeTaskCount : Prompt (activeTaskCount pages) since := by
  refine bind (quiet_request rfl) fun active => ?_
  cases active with
  | some count => exact pure trivial
  | none =>
    refine (onTime_countPages pages none 0).bind fun count _ _ _ => ?_
    exact bind (quiet_request rfl) fun _ => pure trivial

end

section Scheduler

variable [Contracts] {record : WorkflowRecord} (id : TaskId) (task : TaskRecord)

section
omit [Contracts]

theorem onTime_explain {past : TimestampMillis} (reason : String)
    (punctual : record.Punctual past) (before : past ≤ since) :
    OnTime (explain record id task reason) since fun next _ => next.Punctual past := by
  unfold explain
  split
  · exact onTime_modifyAndSave _ punctual before fun _ kept => by exact kept.kept rfl rfl fun same => same
  · exact pure punctual

theorem onTime_freeze {at_ : TimestampMillis}
    (inputs : SortedMap String TaskInputValue) (dispatch : ExecutionDispatch)
    (punctual : record.Punctual at_) (before : at_ ≤ since) :
    OnTime (freeze record id task inputs dispatch at_) since fun next _ =>
      next.Punctual at_ := by
  refine lift_bind fun generation _ => onTime_advanceDecisionAndSave _ ?_ before
  exact punctual.modifyTask fun _ _ _ =>
    .startedTask task.definition inputs dispatch generation (Nat.le_refl _)

end

variable (settings : RuntimeSettings)

theorem onTime_scanCandidates (maximum pages : Nat) (candidates : List TaskId) (active : Nat)
    (dispatches : List ExecutionDispatch) (punctual : record.Punctual since) :
    Prompt (scanCandidates settings maximum pages candidates record active dispatches) since := by
  induction candidates generalizing record active dispatches since with
  | nil => exact pure trivial
  | cons id rest ih =>
    unfold scanCandidates
    split
    · exact pure trivial
    refine lift_bind fun task _ => ?_
    split
    · split
      · have resumed : (record.modifyTask id resumedTask).Punctual since :=
          punctual.modifyTask fun _ _ kept => by exact kept.kept rfl rfl (by rintro ⟨⟩)
        exact (onTime_advanceDecisionAndSave _ resumed (Nat.le_refl _)).bind fun _ _ after kept =>
          ih _ _ (kept.mono after)
      · exact ih _ _ punctual
    refine (onTime_activeTaskCount pages).bind fun _ _ passed _ => ?_
    split
    · exact pure trivial
    split
    · exact (onTime_explain id task _ punctual passed).bind fun _ _ after kept =>
        ih _ _ (kept.mono (passed.trans after))
    refine onTime_now fun at_ told => ?_
    refine (onTime_observeDuration (punctual.mono (passed.trans told)) (Nat.le_refl _)).bind
      fun observed _ late seen => ?_
    split
    · exact pure trivial
    refine bind (fun since => ?_) fun prepared => ?_
    · rw [conforms_attempt]
      exact (LooksUp.prepareDispatch _ _ _ _).quiet since
    split
    · exact (onTime_freeze id task _ _ seen late).bind fun _ _ after kept =>
        ih _ _ (kept.mono (late.trans after))
    split
    · exact (onTime_explain id task _ seen late).bind fun _ _ after kept =>
        ih _ _ (kept.mono (late.trans after))
    · exact (onTime_modifyAndSave _ seen late fun _ kept => by exact kept.kept rfl rfl (by rintro ⟨⟩)).bind
        fun _ _ after kept => ih _ _ (kept.mono (late.trans after))

theorem onTime_scanWorkflows (maximum pages : Nat)
    (items : List WorkflowSnapshot) (dispatches : List ExecutionDispatch) :
    Prompt (scanWorkflows settings maximum pages items dispatches) since := by
  induction items generalizing dispatches since with
  | nil => exact pure trivial
  | cons row rest ih =>
    refine (onTime_requireWorkflow row.workflow).bind fun read _ _ punctual => ?_
    refine onTime_now fun at_ told => ?_
    refine (onTime_observeDuration (punctual.mono told) (Nat.le_refl _)).bind
      fun observed _ late seen => ?_
    refine lift_bind fun stopped done => ?_
    obtain ⟨stopped, changed⟩ := stopped
    have asked := seen.policyStop done
    -- both branches go on with a record that is punctual by now
    have scanned : ∀ (current : WorkflowRecord) since, current.Punctual since → Prompt (do
        if current.waitQuestion.isSome then
          scanWorkflows settings maximum pages rest dispatches
        else do
          let started ← scanCandidates settings maximum pages
            (queuedTasks current) current (occupying current) dispatches
          scanWorkflows settings maximum pages rest started) since := by
      intro current since kept
      split
      · exact ih _
      · exact (onTime_scanCandidates settings maximum pages _ _ _ kept).bind fun _ _ _ _ =>
          ih _
    simp only
    split
    · exact (onTime_advanceAndSave _ asked late).bind fun current _ after kept =>
        scanned current _ (kept.mono (late.trans after))
    · exact scanned stopped _ (asked.mono late)

theorem onTime_tick (maximum pages : Nat) : Prompt (tick settings maximum pages) since := by
  unfold tick
  split
  · exact refuse _
  refine onTime_withGate (bind (quiet_request rfl) fun closed => ?_)
  split
  · exact pure trivial
  refine bind (quiet_request rfl) fun cursor => ?_
  refine (quiet_request rfl).fallible.bind fun page => ?_
  exact bind (quiet_request rfl) fun _ => onTime_scanWorkflows _ _ _ _ _

end Scheduler

/-! ### Admission -/

omit [Codec] in
theorem onTime_validateProcessTools (context : CapabilityResolutionContext) (tools : List TaskTool) :
    Prompt (validateFutureDefinition.validateProcessTools context tools) since := by
  induction tools generalizing since with
  | nil => exact pure trivial
  | cons tool rest ih =>
    cases tool with
    | readFile => exact ih
    | writeFile => exact ih
    | process capability =>
      refine onTime_now fun _ _ => (quiet_request rfl).fallible.bind fun _ => ?_
      exact lift_bind fun _ _ => ih

theorem onTime_validateFutureDefinition (record : WorkflowRecord) (definition : TaskDefinition) :
    Prompt (validateFutureDefinition record definition) since := by
  refine lift_bind fun _ _ => lift_bind fun _ _ => lift_bind fun _ _ => ?_
  refine lift_bind fun _ _ => onTime_now fun _ _ => ?_
  refine (quiet_request rfl).fallible.bind fun _ => lift_bind fun _ _ => ?_
  exact lift_bind fun _ _ => onTime_validateProcessTools _ _

theorem onTime_validateFutureDefinitions (record : WorkflowRecord) (definitions : List TaskDefinition) :
    Prompt (validateFutureDefinitions record definitions) since := by
  induction definitions generalizing since with
  | nil => exact pure trivial
  | cons definition rest ih =>
    exact (onTime_validateFutureDefinition record definition).bind fun _ _ _ _ =>
      ih

theorem onTime_createRequest (ownerActor key : String) (request : WorkflowCreate)
    (decision : AuthorityDecisionSnapshot) (transport : Option String) :
    Prompt (createRequest ownerActor key request decision transport) since := by
  refine onTime_withGate (lift_bind fun identity _ => ?_)
  refine (LooksUp.replay _ _ _).quiet.bind fun replayed => ?_
  cases replayed with
  | some receipt => exact pure trivial
  | none =>
    refine bind (quiet_request rfl) fun closed => ?_
    cases closed with
    | true => exact refuse _
    | false =>
      refine lift_bind fun _ _ => lift_bind fun _ _ => ?_
      refine lift_bind fun id _ => lift_bind fun run _ => ?_
      refine lift_bind fun basis _ => onTime_now fun at_ _ => ?_
      refine (LooksUp.allocateCreated _ _).quiet.bind fun aliases => lift_bind fun _ _ => ?_
      refine lift_bind fun tasks built => lift_bind fun _ _ => ?_
      refine (onTime_validateFutureDefinitions _ _).bind fun _ _ after _ => ?_
      refine (onTime_save _ _ _ ⟨rfl, fun other task found => ?_⟩ after).bind
        fun outcome _ _ _ => lift fun _ _ => trivial
      obtain ⟨_, rfl⟩ := createdTasks_queued built (fun _ _ present => nomatch present) other task found
      exact .unstarted rfl

theorem onTime_applyChanges (aliases : SortedMap TaskId TaskId) (at_ : TimestampMillis)
    (changes : List TaskChange) (record : WorkflowRecord) :
    OnTime (applyChanges aliases at_ changes record) since fun edited _ =>
      Dated record edited := by
  induction changes generalizing record since with
  | nil => exact pure (.refl record)
  | cons change rest ih =>
    have later : ∀ since, OnTime (do
        let next ← Program.lift (applyChange aliases at_ record change)
        applyChanges aliases at_ rest next) since fun edited _ =>
          Dated record edited := fun since =>
      lift_bind fun next done => (ih next).mono fun _ _ _ dated =>
        (applyChange_dated done).trans dated
    unfold applyChanges
    split
    · exact (onTime_validateFutureDefinition _ _).bind fun _ _ _ _ => later _
    · exact later _

theorem onTime_editRequest (ownerActor key : String) (workflowId : WorkflowId) (batch : TaskBatch)
    (transport : Option String) (source : Option (TaskId × Bool)) :
    Prompt (editRequest ownerActor key workflowId batch transport source) since := by
  refine onTime_withGate (lift_bind fun identity _ => ?_)
  refine (LooksUp.replay _ _ _).quiet.bind fun replayed => ?_
  cases replayed with
  | some receipt => exact pure trivial
  | none =>
    refine bind (quiet_request rfl) fun closed => lift_bind fun _ _ => ?_
    refine (onTime_requireWorkflow workflowId).bind fun record _ _ punctual => ?_
    refine lift_bind fun _ _ => lift_bind fun _ _ => ?_
    refine (LooksUp.allocateAdded _ _ _).quiet.bind fun aliases => onTime_now fun at_ after => ?_
    refine (onTime_applyChanges aliases at_ _ record).bind fun edited _ late dated => ?_
    refine lift_bind fun _ _ => lift_bind fun accepted done => ?_
    obtain ⟨kept, same⟩ : Edited (fun _ => True) .create (fun _ _ => True) edited accepted ∧
        accepted.tasks = edited.tasks := acceptSource_edited done
    have admitted : accepted.Punctual at_ :=
      (dated.punctual (punctual.mono after)).sameTasks kept.schemaVersion same
    refine (onTime_advance admitted late).bind fun advanced _ _ ⟨shown, later, past⟩ => ?_
    have visible := shown.decided advanced.generation
    refine (onTime_save _ _ _ (visible.mono later) past).bind
      fun outcome _ _ _ => lift fun _ _ => trivial

variable (source : TaskId)

theorem onTime_rejectModelBatch (reason : String) (repairAllowed : Bool) :
    Prompt (rejectModelBatch workflowId source reason repairAllowed) since := by
  refine onTime_withGate ?_
  refine (onTime_requireWorkflow workflowId).bind fun record _ _ punctual => ?_
  refine lift_bind fun rejected done => ?_
  cases rejected with
  | none => exact pure trivial
  | some next =>
    obtain ⟨_, _, _, _, _, rfl⟩ := rejectModelBatch_ok done
    exact (onTime_advanceAndSave _ (by exact punctual.sameTasks rfl rfl) (Nat.le_refl _)).bind
      fun _ _ _ _ => pure trivial

theorem onTime_refuseModelRepair (reason : String) :
    Prompt (refuseModelRepair workflowId source reason) since := by
  refine onTime_withGate ?_
  refine (onTime_requireWorkflow workflowId).bind fun record _ _ punctual => ?_
  refine lift_bind fun refused done => ?_
  cases refused with
  | none => exact pure trivial
  | some next =>
    obtain ⟨_, _, _, _, _, rfl⟩ := refuseModelRepair_ok done
    exact (onTime_advanceAndSave _ (by exact punctual.sameTasks rfl rfl) (Nat.le_refl _)).bind
      fun _ _ _ _ => pure trivial

/-! ### Operations -/

theorem operates_onTime [Contracts] (settings : RuntimeSettings) :
    Operates settings fun program => Prompt program since where
  returning _ onTime := onTime.andThen fun _ _ _ => pure trivial
  tick := onTime_tick settings
  execute := onTime_execute
  recover pages := onTime_recoverPages pages none []
  cancellationActions := onTime_cancellationActions
  executeCancellation := onTime_executeCancellation
  record := onTime_record
  checkContinuation := onTime_checkContinuation
  create := onTime_createRequest
  edit := onTime_editRequest
  rejectModelBatch := onTime_rejectModelBatch
  refuseModelRepair := onTime_refuseModelRepair
  closeAdmission := upholds (quiet_request rfl) fun _ => trivial

end Milkdrift
