/-
Purpose: Admission and execution keep the thread discipline: each saves only transitions.
Trusted boundary: Codec
-/
import Milkdrift.Protocol.Saving

namespace Milkdrift

open Action Meets Admission SortedMap

variable [Codec] {knowledge : Knowledge}

/-! ### Definitions and receipts -/

variable (record : WorkflowRecord)

/-! ### Creation -/

theorem meets_createRequest (ownerActor key : String) (request : WorkflowCreate)
    (decision : AuthorityDecisionSnapshot) (transport : Option String) :
    Sound (createRequest ownerActor key request decision transport) knowledge := by
  refine withGate (lift_bind fun identity _ => ?_)
  refine (LooksUp.replay _ _ _).consults.silent.bind fun replayed => ?_
  cases replayed with
  | some receipt => exact pure trivial
  | none =>
    refine (Silent.request rfl).bind fun closed => ?_
    cases closed with
    | true => exact refuse _
    | false =>
      refine lift_bind fun _ bounded => lift_bind fun _ _ => ?_
      rw [ensure_eq_ok_iff] at bounded
      refine lift_bind fun id _ => lift_bind fun run _ => ?_
      refine lift_bind fun basis _ => Silent.now.bind fun at_ => ?_
      refine (LooksUp.allocateCreated _ _).consults.silent.bind fun aliases => lift_bind fun _ _ => ?_
      refine lift_bind fun tasks built => lift_bind fun _ valid => ?_
      refine (Consults.validateFutureDefinitions _ _).silent.bind fun _ => ?_
      refine bind (meets_save fun snapshot stored => ?_) fun outcome _ _ _ =>
        lift fun _ _ => trivial
      obtain ⟨document, workflow, generation⟩ := snapshotOf_ok stored
      refine ⟨document ▸ workflow, document ▸ generation, fun _ => ⟨rfl, ?_⟩, nofun⟩
      exact ⟨id, ownerActor, request, tasks, basis, _, at_, aliases, bounded.2.2.2.2, built,
        valid, document⟩

/-! ### Edits -/

variable (aliases : SortedMap TaskId TaskId)

theorem meets_unusedTaskId (tries : Nat) : Meets (unusedTaskId record aliases tries) knowledge fun id _ =>
      record.tasks.get? id = none ∧ id ∉ aliases.values := by
  induction tries with
  | zero => exact refuse _
  | succ tries ih =>
    refine (Silent.nextId _).bind fun _ => lift_bind fun id _ => ?_
    split
    next unused =>
      refine pure ⟨?_, unused.2⟩
      simpa [contains] using unused.1
    · exact ih

theorem meets_allocateAdded (changes : List TaskChange) (aliases : SortedMap TaskId TaskId)
    (unused : ∀ taskAlias id, aliases.get? taskAlias = some id → record.tasks.get? id = none)
    (injective : ∀ first second id, aliases.get? first = some id → aliases.get? second = some id → first
      = second) :
    Meets (allocateAdded record changes aliases) knowledge fun allocated _ =>
      Allocated record changes allocated ∧
        ∀ taskAlias ∈ changes.filterMap TaskChange.addedAlias, aliases.get? taskAlias = none := by
  induction changes generalizing aliases knowledge with
  | nil => exact pure ⟨⟨unused, injective, List.nodup_nil⟩, fun _ => nofun⟩
  | cons change rest ih =>
    cases change with
    | add taskAlias definition =>
      refine bind (meets_unusedTaskId record aliases 4097) fun id middle _ free => ?_
      refine lift_bind fun _ fresh => ?_
      rw [ensure_eq_ok_iff] at fresh
      have absent : aliases.get? taskAlias = none := by
        simpa [contains] using fresh.1
      refine (ih (aliases.insert taskAlias id) ?_ ?_).mono
        fun allocated _ _ known => ⟨⟨known.1.unused, known.1.injective, ?_⟩, ?_⟩
      · exact forall_insert unused free.1
      · intro first second otherId found found'
        -- the new identity was no value before
        have new : ∀ name, aliases.get? name ≠ some id := fun name present =>
          free.2 ((mem_values_iff _).mpr ⟨name, present⟩)
        rw [get?_insert] at found found'
        split at found <;> split at found'
        · simp_all
        · cases found
          exact absurd found' (new second)
        · cases found'
          exact absurd found (new first)
        · exact injective first second otherId found found'
      · refine List.nodup_cons.mpr ⟨fun again => ?_, known.1.distinct⟩
        simpa using known.2 taskAlias again
      · intro other member
        rcases List.mem_cons.mp member with rfl | later
        · exact absent
        · have kept := known.2 other later
          rw [get?_insert] at kept
          split at kept
          · cases kept
          · exact kept
    | _ =>
      exact (ih aliases unused injective).mono fun allocated _ _ known =>
        ⟨⟨known.1.unused, known.1.injective, known.1.distinct⟩, known.2⟩

theorem meets_applyChanges (at_ : TimestampMillis) (changes : List TaskChange) (record : WorkflowRecord) :
    Meets (applyChanges aliases at_ changes record) knowledge fun edited _ =>
      changes.foldlM (applyChange aliases at_) record = .ok edited := by
  induction changes generalizing record knowledge with
  | nil => exact pure rfl
  | cons change rest ih =>
    have later : ∀ knowledge, Meets (do
        let next ← Program.lift (applyChange aliases at_ record change)
        applyChanges aliases at_ rest next) knowledge fun edited _ =>
          (change :: rest).foldlM (applyChange aliases at_) record = .ok edited := by
      intro knowledge
      refine lift_bind fun next done => (ih next).mono fun _ _ _ folded => ?_
      simp only [List.foldlM_cons, done]
      exact folded
    unfold applyChanges
    split
    · exact (Consults.validateFutureDefinition _ _).silent.bind fun _ => later _
    · exact later _

theorem meets_editRequest (ownerActor key : String) (workflowId : WorkflowId) (batch : TaskBatch)
    (transport : Option String) (source : Option (TaskId × Bool)) :
    Sound (editRequest ownerActor key workflowId batch transport source) knowledge := by
  refine withGate (lift_bind fun identity _ => ?_)
  refine (LooksUp.replay _ _ _).consults.silent.bind fun replayed => ?_
  cases replayed with
  | some receipt => exact pure trivial
  | none =>
    refine (Silent.request rfl).bind fun closed => lift_bind fun _ _ => ?_
    refine bind (meets_requireWorkflow workflowId) fun record middle _ known => ?_
    refine lift_bind fun _ checked => lift_bind fun _ _ => ?_
    refine bind (meets_allocateAdded record batch.changes empty nofun nofun)
      fun aliases second grows allocated => ?_
    refine Silent.now.bind fun at_ => ?_
    refine bind (meets_applyChanges aliases at_ batch.changes record)
      fun edited third grows' applied => ?_
    refine lift_bind fun _ valid => lift_bind fun accepted done => ?_
    have step : Body record (.edit batch aliases source) accepted :=
      .edit checked allocated.1 applied valid done
    refine bind (meets_advance accepted) fun advanced fourth _ reached => ?_
    obtain ⟨rfl, now, advancing⟩ := reached
    have moved := Advanced.of_advanceAt step advancing rfl
    refine bind (meets_save fun snapshot stored =>
      Permitted.transition (grows'.known (grows.known known.1)) step (.other (by simp) (by simp))
        moved.transition stored) fun outcome _ _ _ => lift fun _ _ => trivial

variable (workflowId : WorkflowId) (source : TaskId)

theorem meets_rejectModelBatch (reason : String) (repairAllowed : Bool) :
    Sound (rejectModelBatch workflowId source reason repairAllowed) knowledge := by
  refine withGate ?_
  refine bind (meets_requireWorkflow workflowId) fun record _ _ known => ?_
  refine lift_bind fun rejected done => ?_
  cases rejected with
  | none => exact pure trivial
  | some next =>
    exact bind (meets_advanceAndSave known.1 (.rejectBatch done) rfl (.other (by simp) (by simp)))
      fun _ _ _ _ => pure trivial

theorem meets_refuseModelRepair (reason : String) :
    Sound (refuseModelRepair workflowId source reason) knowledge := by
  refine withGate ?_
  refine bind (meets_requireWorkflow workflowId) fun record _ _ known => ?_
  refine lift_bind fun refused done => ?_
  cases refused with
  | none => exact pure trivial
  | some next =>
    exact bind (meets_advanceAndSave known.1 (.refuseRepair done) rfl (.other (by simp) (by simp)))
      fun _ _ _ _ => pure trivial

end Milkdrift

namespace Milkdrift

open Action Meets Effects

variable [Codec] {knowledge : Knowledge}

/-! ### Settlement and uncertainty -/

variable (workflowId : WorkflowId) (taskId : TaskId) (reason : String)

theorem meets_finishWithoutEntryPolicy {state : TaskState} (pause : Bool) (final : state.isSettled = true) :
    Meets (finishWithoutEntryPolicy workflowId taskId state reason pause) knowledge
      fun _ _ => True := by
  refine andThen (withGate ?_) fun settled last _ =>
    (LooksUp.settleStart settled).consults.silent.meets fun _ => trivial
  refine bind (meets_requireWorkflow workflowId) fun read middle _ known => ?_
  refine lift_bind fun task found => ?_
  rw [require_eq_ok_iff] at found
  have present : read.tasks.get? taskId = some task := by
    cases pause <;> exact found
  split
  · exact pure trivial
  next unsettled =>
    refine lift_bind fun _ clear => Silent.now.bind fun at_ => ?_
    rw [ensure_eq_ok_iff] at clear
    refine bind (meets_advanceAndSave known.1
      (.finishWithoutEntry state reason pause at_ present (by simpa using unsettled) clear.1 clear.2
        final) rfl (.other (by simp) (by simp))) fun _ last _ _ => ?_
    exact (LooksUp.settleStart _).consults.silent.bind fun _ => pure trivial

theorem meets_markUncertain : Sound (markUncertain workflowId taskId reason) knowledge := by
  refine withGate ?_
  refine bind (meets_requireWorkflow workflowId) fun read middle _ known => ?_
  refine lift_bind fun task found => ?_
  rw [require_eq_ok_iff] at found
  split
  · exact pure trivial
  next unsettled =>
    refine lift_bind fun marked done => Silent.now.bind fun at_ => ?_
    refine lift_bind fun charged accrued => ?_
    refine bind (meets_advanceAndSave known.1
      (.markUncertain found (by simpa using unsettled) done accrued) rfl (.other (by simp) (by simp)))
      fun _ _ _ _ => pure trivial

/-! ### Execution -/

theorem meets_withClaim (invocation : InvocationId) {body : Action Bool} (meets : Sound body knowledge) :
    Sound (withClaim invocation body) knowledge := by
  refine (Silent.request rfl).bind fun owned => ?_
  cases owned with
  | false => exact refuse _
  | true =>
    refine bind meets.attempt fun result final _ _ => ?_
    cases result with
    | ok kept =>
      cases kept with
      | true => exact pure trivial
      | false => exact (Silent.request rfl).meets fun _ => trivial
    | error error => exact (Silent.request rfl).bind fun _ => refuse error

variable {record : WorkflowRecord} {task : TaskRecord} {start : FrozenTaskStart}

omit [Codec] in
theorem ownedTask_ok {id : TaskId} {dispatch : ExecutionDispatch} {message : String}
    (done : ownedTask record id dispatch message = .ok (task, start)) :
    record.tasks.get? id = some task ∧ task.frozen = some start ∧ start.dispatch = dispatch ∧
      start.entered = false ∧ task.state = .running := by
  simp only [ownedTask, checked_eq_ok_iff] at done
  obtain ⟨_, found, _, frozen, _, ⟨owned, unentered, running⟩, same⟩ := done
  cases same
  exact ⟨found, frozen, owned, unentered, running⟩

variable (dispatch : ExecutionDispatch)

theorem meets_deferBeforeEntry (reason : String) :
    Sound (deferBeforeEntry workflowId taskId dispatch reason) knowledge := by
  refine andThen (withGate ?_) fun deferral final _ => ?_
  · refine bind (meets_requireWorkflow workflowId) fun read middle _ known => ?_
    refine Silent.now.bind fun at_ => lift_bind fun charged accrued => ?_
    refine lift_bind fun task found => ?_
    rw [require_eq_ok_iff] at found
    split
    · exact pure trivial
    · refine lift_bind fun start frozen => lift_bind fun _ owned => ?_
      rw [require_eq_ok_iff] at frozen
      rw [ensure_eq_ok_iff] at owned
      split
      · exact pure trivial
      · refine bind (meets_advanceAndSave known.1
          (.defer reason accrued found owned.2.2 frozen owned.2.1) rfl (.other (by simp) (by simp)))
          fun _ _ _ _ => ?_
        exact (Silent.request rfl).bind fun _ => pure trivial
  · cases deferral with
    | released => exact pure trivial
    | settled => exact (Silent.settle dispatch).bind fun _ => pure trivial
    | stopped =>
      exact bind (meets_finishWithoutEntryPolicy _ _ _ false rfl) fun _ _ _ _ => pure trivial

theorem meets_refusedPreparation (error : ExecutorError) :
    Sound (refusedPreparation workflowId taskId dispatch error) knowledge := by
  unfold refusedPreparation
  split
  · exact meets_deferBeforeEntry _ _ _ _
  · split
    · exact bind (meets_finishWithoutEntryPolicy _ _ _ false rfl) fun _ _ _ _ => pure trivial
    · exact bind (meets_markUncertain _ _ _) fun _ _ _ _ => pure trivial

/-- The last boundary hands out a token exactly when it decides to enter, and finishes only with settled
states. -/
def Effects.EntryDecision.Kept (workflowId : WorkflowId) (taskId : TaskId)
    (dispatch : ExecutionDispatch) (final : Knowledge) : Effects.EntryDecision → Prop
  | .settled => True
  | .finish state _ _ => state.isSettled = true
  | .enter exact => final.token = some ⟨workflowId, taskId, dispatch, exact⟩

theorem meets_decideEntry (envelope : InvocationAdmissionEnvelope) :
    Meets (decideEntry workflowId taskId dispatch envelope) knowledge
      fun decision final => decision.Kept workflowId taskId dispatch final := by
  refine bind (meets_requireWorkflow workflowId) fun read middle _ known => ?_
  refine Silent.now.bind fun at_ => ?_
  refine bind (meets_observeDuration at_ known.1) fun record late _ observed => ?_
  obtain ⟨member, seen, _⟩ := observed
  have named : record.id = workflowId := seen.id.trans known.2.1
  split
  · exact pure trivial
  split
  · exact pure rfl
  next unpaused =>
    split
    · exact pure rfl
    next allowance currency maximumMs reserved =>
      refine lift_bind fun owned done => ?_
      obtain ⟨task, start⟩ := owned
      obtain ⟨found, frozen, exactly, unentered, running⟩ := ownedTask_ok done
      simp only
      split
      · exact pure rfl
      next wanted =>
        refine (Silent.fallible (.request rfl)).bind fun decision => ?_
        split
        · exact pure rfl
        split
        · exact pure rfl
        · refine lift_bind fun exact_ bound => ?_
          rw [withRefusal_eq_ok_iff] at bound
          have same : exact_.request = dispatch.request := by
            rw [ExecutionDispatch.withEntryAuthorization_ok bound]
          refine bind (meets_advanceAndSave member
            (.entry at_ found unpaused running frozen exactly unentered (by simpa using wanted) same
              reserved) rfl (.other (by simp) (by simp))) fun next last _ saved => ?_
          refine pure ?_
          have token := saved.1.token _ _ _ _ rfl
          rwa [saved.2.transition.effect_always.id, named] at token

theorem meets_enterOnce {entry : Entry} (token : knowledge.token = some entry) :
    Sound (enterOnce entry) knowledge := by
  have entered : Sound (Action.enter entry) knowledge :=
    ⟨token, fun _ _ => ⟨⟨List.Subset.refl _, List.Subset.refl _⟩, fun _ _ => trivial⟩⟩
  refine bind entered fun _ middle _ _ => ?_
  refine (Silent.request rfl).bind fun outcome => ?_
  refine bind (meets_requireWorkflow entry.workflow) fun record late _ known => ?_
  refine lift_bind fun task _ => ?_
  split
  · exact (Silent.settle _).meets fun _ => trivial
  split
  · exact pure trivial
  · cases outcome with
    | ok => exact meets_markUncertain _ _ _
    | error => exact meets_markUncertain _ _ _

theorem meets_execute : Sound (execute dispatch) knowledge := by
  refine meets_withClaim _ ?_
  refine lift_bind fun workflowId _ => lift_bind fun taskId _ => ?_
  refine andThen (withGate ?_) fun stopRequested _ _ => ?_
  · refine bind (meets_requireWorkflow workflowId) fun _ _ _ _ => ?_
    exact lift_bind fun _ _ => pure trivial
  split
  · exact bind (meets_finishWithoutEntryPolicy _ _ _ false rfl) fun _ _ _ _ => pure trivial
  · refine (Silent.request rfl).bind fun prepared => ?_
    cases prepared with
    | error error => exact meets_refusedPreparation _ _ _ _
    | ok envelope =>
      refine bind (withGate (meets_decideEntry workflowId taskId dispatch envelope))
        fun decision final _ kept => ?_
      cases decision with
      | settled => exact (Silent.settle dispatch).bind fun _ => pure trivial
      | finish state reason pause =>
        exact bind (meets_finishWithoutEntryPolicy _ _ reason pause kept) fun _ _ _ _ => pure trivial
      | enter exact_ =>
        exact bind (meets_enterOnce kept) fun _ _ _ _ => pure trivial

/-! ### Recovery -/

theorem meets_requeue {seen : WorkflowRecord} {taskId : TaskId} (member : seen ∈ knowledge.known)
    (found : seen.tasks.get? taskId = some task) (running : task.state = .running)
    (frozen : task.frozen = some start) (unentered : start.entered = false) :
    Sound (requeue seen.id taskId) knowledge := by
  refine withGate ?_
  refine bind (meets_requireWorkflow seen.id) fun current middle grows known => ?_
  refine lift_bind fun _ present => ?_
  rw [require_eq_ok_iff] at present
  have rule : KnownRule middle current (.requeue taskId) := by
    refine ⟨nofun, fun id same => ?_⟩
    cases same
    exact ⟨seen, grows.known member, known.2.1.symm, task, start, found, running, frozen, unentered⟩
  exact bind (meets_advanceAndSave known.1 (.requeue present) rfl rule) fun _ _ _ _ => pure trivial

theorem meets_recoverTasks {entries : List (TaskId × TaskRecord)} (ready : List ExecutionDispatch)
    (member : record ∈ knowledge.known)
    (listed : ∀ entry ∈ entries, record.tasks.get? entry.1 = some entry.2) :
    Sound (recoverTasks record entries ready) knowledge := by
  induction entries generalizing ready knowledge with
  | nil => exact pure trivial
  | cons entry rest ih =>
    obtain ⟨id, task⟩ := entry
    have found := listed (id, task) List.mem_cons_self
    have others := fun entry inside => listed entry (List.mem_cons_of_mem _ inside)
    unfold recoverTasks
    split
    · exact (LooksUp.settleStart _).consults.silent.bind fun _ => ih ready member others
    split
    · exact ih ready member others
    next running =>
      refine lift_bind fun start frozen => ?_
      rw [require_eq_ok_iff] at frozen
      split
      · exact bind (meets_markUncertain _ _ _) fun _ _ grows _ =>
          ih ready (grows.known member) others
      next unentered =>
        split
        · exact bind (meets_requeue member found (not_not.mp running) frozen (by simpa using unentered))
            fun _ _ grows _ => ih ready (grows.known member) others
        split
        · exact ih _ member others
        · exact ih ready member others

theorem meets_observedRow (row : WorkflowSnapshot) : Meets (do
      let read ← requireWorkflow row.workflow
      let at_ ← now
      observeDuration read at_) knowledge fun record final => record ∈ final.known := by
  refine bind (meets_requireWorkflow row.workflow) fun read middle _ known => ?_
  refine Silent.now.bind fun at_ => ?_
  exact (meets_observeDuration at_ known.1).mono fun _ _ _ seen => seen.1

variable (items : List WorkflowSnapshot)

theorem meets_recoverItems (ready : List ExecutionDispatch) :
    Sound (recoverItems items ready) knowledge := by
  induction items generalizing ready knowledge with
  | nil => exact pure trivial
  | cons row rest ih =>
    refine bind (withGate (meets_observedRow row)) fun observed final _ member => ?_
    exact andThen (meets_recoverTasks ready member fun entry inside =>
      (SortedMap.get?_eq_some_iff _).mpr inside) fun next _ _ => ih next

theorem meets_recoverPages (pages : Nat) (cursor : Option WorkflowId) (ready : List ExecutionDispatch) :
    Sound (recoverPages pages cursor ready) knowledge := by
  induction pages generalizing cursor ready knowledge with
  | zero => exact unfoldedFurther
  | succ pages ih =>
    refine (Silent.fallible (.request rfl)).bind fun page => ?_
    refine bind (meets_recoverItems page.items ready) fun next _ _ _ => ?_
    split
    · exact pure trivial
    · exact ih _ next

/-! ### Cancellation -/

theorem meets_cancelEntered (start : FrozenTaskStart) :
    Sound (cancelEntered workflowId taskId start) knowledge := by
  refine (Silent.request rfl).bind fun outcome => ?_
  cases outcome with
  | error error => exact meets_markUncertain _ _ _
  | ok acknowledgement =>
    simp only
    split
    · refine withGate ?_
      refine bind (meets_requireWorkflow workflowId) fun current middle _ known => ?_
      refine lift_bind fun _ present => ?_
      rw [require_eq_ok_iff] at present
      exact bind (meets_advanceAndSave known.1 (.cancellationSent present) rfl
        (.other (by simp) (by simp))) fun _ _ _ _ => pure trivial
    · exact meets_markUncertain _ _ _

theorem meets_cancelTasks (dispatch : CancellationDispatch) (entries : List (TaskId × TaskRecord)) :
    Sound (cancelTasks workflowId dispatch entries) knowledge := by
  induction entries generalizing knowledge with
  | nil => exact pure trivial
  | cons entry rest ih =>
    obtain ⟨id, task⟩ := entry
    unfold cancelTasks
    split
    · exact ih
    split
    · exact ih
    split
    · exact bind (meets_finishWithoutEntryPolicy _ _ _ false rfl) fun _ _ _ _ => ih
    · exact bind (meets_cancelEntered _ _ _) fun _ _ _ _ => ih

theorem meets_executeCancellation (dispatch : CancellationDispatch) :
    Sound (executeCancellation dispatch) knowledge := by
  refine lift_bind fun workflowId _ => ?_
  refine bind (meets_requireWorkflow workflowId) fun record _ _ _ => ?_
  exact meets_cancelTasks _ _ _

variable (maximum : Nat)

theorem meets_claimItems (actions : List CancellationDispatch) :
    Sound (claimItems maximum items actions) knowledge := by
  induction items generalizing actions knowledge with
  | nil => exact pure trivial
  | cons row rest ih =>
    refine bind (meets_requireWorkflow row.workflow) fun record _ _ _ => ?_
    split
    · exact pure trivial
    · exact ih _

theorem meets_cancellationActions : Sound (cancellationActions maximum) knowledge := by
  refine (Silent.request rfl).bind fun cursor => ?_
  refine (Silent.fallible (.request rfl)).bind fun page => ?_
  exact (Silent.request rfl).bind fun _ => meets_claimItems _ maximum _

/-! ### Reports -/

variable (reporter : Effects.Reporter)

theorem meets_checkContinuation : Sound reporter.checkContinuation knowledge := by
  refine withGate ?_
  refine bind (meets_requireWorkflow _) fun read middle _ known => ?_
  refine Silent.now.bind fun at_ => ?_
  refine bind (meets_observeDuration at_ known.1) fun record late _ _ => ?_
  refine lift_bind fun task _ => lift_bind fun _ _ => ?_
  exact lift fun _ _ => trivial

theorem meets_record (event : InvocationEvent) : Sound (reporter.record event) knowledge := by
  refine withGate (lift_bind fun _ named => ?_)
  refine bind (meets_requireWorkflow _) fun read middle _ known => ?_
  refine Silent.now.bind fun at_ => ?_
  refine lift_bind fun charged accrued => lift_bind fun reported done => ?_
  cases reported with
  | none => exact pure trivial
  | some next =>
    refine bind (meets_advanceAndSave known.1 (.report accrued done (ensure_eq_ok_iff.mp named)) rfl
      (.other (by simp) (by simp))) fun _ _ _ _ => ?_
    exact lift fun _ _ => trivial

end Milkdrift
