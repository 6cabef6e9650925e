/-
Purpose: The workflow store, and the daemon as a system of threads over lock, caches and store.
Trusted boundary: byte and capacity accounting, and host-managed resources, may refuse any commit; the
  surroundings answer every request of the clock, the identity source, the authority and the executor freely
-/
import Milkdrift.Library.Interleaving
import Milkdrift.Runtime.Admission
import Milkdrift.Runtime.Effects
import Milkdrift.Runtime.Scheduling

namespace Milkdrift

structure Store where
  rows : SortedMap WorkflowId WorkflowSnapshot
  receipts : SortedMap String WorkflowCommandReceipt
  actionOwners : List String

namespace Store

def empty : Store := ⟨SortedMap.empty, SortedMap.empty, []⟩

def bounds (reason : String) : PersistenceError := .bounds reason

/-- Actor and key texts. -/
def identity (value : String) : Except PersistenceError Unit :=
  ensure (value ≠ "" ∧ value.utf8ByteSize ≤ 512 ∧ value.toList.all (fun character =>
        !(character.toNat < 32 || (127 ≤ character.toNat && character.toNat < 160))) = true)
    (bounds "task identity must contain 1..=512 bytes without control characters")

def receiptKey (actor key : String) : Except PersistenceError String := do
  identity actor
  identity key
  .ok s!"{actor.utf8ByteSize}:{actor}{key}"

def validate (commit : WorkflowCommit) : Except PersistenceError Unit := do
  ensure (commit.snapshot.enteredInvocations.length ≤ 4096 ∧ commit.snapshot.enteredInvocations.Nodup)
    (bounds "workflow entered invocation evidence must be unique and bounded")
  let expected ← require (checkedAdd 64 (commit.expectedGeneration.getD 0) 1)
    (bounds "workflow generation exhausted")
  ensure (commit.snapshot.generation = expected)
    (.invalidDocument "next workflow generation must increment exactly once")
  identity commit.snapshot.ownerActor
  ensure (commit.snapshot.title ≠ "" ∧ commit.snapshot.title.utf8ByteSize ≤ 512 ∧
      commit.snapshot.description.utf8ByteSize ≤ 65536)
    (bounds "workflow document or discovery text exceeds its bound")

def consumeReserved (store : Store) (old : Option WorkflowSnapshot) (commit : WorkflowCommit)
    (command : WorkflowCommandAcceptance) : Except PersistenceError (List String) :=
  match command.reservedAction with
  | none => .ok store.actionOwners
  | some action => do
    let pre := s!"stop:{commit.snapshot.workflow.text}:"
    ensure (action = command.key ∧ action.startsWith pre = true ∧ action.utf8ByteSize ≠ pre.utf8ByteSize)
      (bounds "mandatory action must use its exact workflow/task stop identity")
    ensure (action ∉ store.actionOwners)
      (bounds "mandatory action reservation was already consumed")
    ensure (old.any (fun row => commit.snapshot.reservedReceipts < row.reservedReceipts) = true)
      (bounds "mandatory action requires an available bounded control reservation")
    .ok (action :: store.actionOwners)

def validateReplaced (old : Option WorkflowSnapshot) (commit : WorkflowCommit) :
    Except PersistenceError Unit := do
  ensure (old.map WorkflowSnapshot.generation = commit.expectedGeneration)
    (.workflowGenerationConflict commit.snapshot.workflow commit.expectedGeneration
      (old.map WorkflowSnapshot.generation))
  ensure (old.all (fun row => row.ownerActor = commit.snapshot.ownerActor) = true)
    (.invalidDocument "workflow owner is immutable")
  ensure (old.all (fun row => row.enteredInvocations.all fun invocation =>
      decide (invocation ∈ commit.snapshot.enteredInvocations)) = true)
    (.invalidDocument "workflow entered invocation evidence cannot be removed")

/-- Put the row of a commit that passed its checks. -/
def apply (store : Store) (old : Option WorkflowSnapshot) (commit : WorkflowCommit) :
    Except PersistenceError (WorkflowCommitOutcome × Store) :=
  match commit.command with
  | none =>
    .ok (.applied none, { store with rows := store.rows.insert commit.snapshot.workflow commit.snapshot })
  | some command => do
    let key ← receiptKey command.actor command.key
    let actionOwners ← consumeReserved store old commit command
    let receipt : WorkflowCommandReceipt :=
      ⟨commit.snapshot.workflow, commit.snapshot.generation, command⟩
    .ok (.applied (some receipt), {
      rows := store.rows.insert commit.snapshot.workflow commit.snapshot
      receipts := store.receipts.insert key receipt
      actionOwners })

def replayed (store : Store) (command : Option WorkflowCommandAcceptance) :
    Except PersistenceError (Option WorkflowCommandReceipt) :=
  match command with
  | none => .ok none
  | some command => do
    let key ← receiptKey command.actor command.key
    match store.receipts.get? key with
    | none => .ok none
    | some receipt =>
      if receipt.acceptance.canonicalRequest ≠ command.canonicalRequest then
        .error (.workflowIdempotencyConflict command.actor command.key)
      else .ok (some receipt)

def commitWorkflow (store : Store) (commit : WorkflowCommit) :
    Except PersistenceError (WorkflowCommitOutcome × Store) := do
  match ← store.replayed commit.command with
  | some receipt => .ok (.replay receipt, store)
  | none => do
    validate commit
    let old := store.rows.get? commit.snapshot.workflow
    validateReplaced old commit
    store.apply old commit

def after (store : Store) (cursor : Option WorkflowId) : List WorkflowSnapshot :=
  ((store.rows.entries.filter fun entry => cursor.all (· < entry.1))).map Prod.snd

/-- A page of `count` rows after a cursor. The byte target of a page may end it at any row after the
first, so every count up to the limit is possible. -/
def page (store : Store) (cursor : Option WorkflowId) (limit count : Nat) : Option WorkflowPage :=
  let rest := store.after cursor
  if rest.isEmpty then some ⟨[], none⟩
  else if 1 ≤ count ∧ count ≤ limit then
    let items := rest.take count
    some ⟨items, if rest.length ≤ count then none
      else items.getLast?.map WorkflowSnapshot.workflow⟩
  else none

end Store

/-! ### Shared state -/

structure Save where
  prior : Option WorkflowRecord
  cause : Cause
  record : WorkflowRecord

/-- What a run leaves behind: committed records and external entries, in order. -/
inductive Event where
  | saved (save : Save)
  | entered (entry : Entry)

inductive Gate where
  | free
  | held (thread : Nat)
deriving DecidableEq

/-- The durable store, the volatile state of one process, and three ghosts: the journal, the answers of
the clock, newest first, and the receipts of the public commands that changed a workflow. -/
structure Shared where
  store : Store
  gate : Gate
  cursor : Option WorkflowId
  cancellationCursor : Option WorkflowId
  activeTasks : Option Nat
  executing : List InvocationId
  closed : Bool
  live : List Effects.Reporter
  journal : List Event
  clock : List TimestampMillis
  accepted : List WorkflowCommandReceipt

namespace Shared

def initial : Shared := ⟨Store.empty, .free, none, none, none, [], false, [], [], [], []⟩

/-- A new process keeps the store; the lock, the caches and the claims start over. -/
def restarted (shared : Shared) : Shared :=
  { Shared.initial with
    store := shared.store
    journal := shared.journal
    clock := shared.clock
    accepted := shared.accepted }

def history (shared : Shared) (workflow : WorkflowId) : List Save :=
  shared.journal.filterMap fun event =>
    match event with
    | .saved save => if save.record.id = workflow then some save else none
    | .entered _ => none

/-- The external entries of all workflows, oldest first. -/
def entries (shared : Shared) : List Entry :=
  shared.journal.filterMap fun event =>
    match event with
    | .entered entry => some entry
    | .saved _ => none

end Shared

/-! ### Answers of the surroundings -/

/-- How a request is answered. Local requests proceed; the others carry what the surroundings say. -/
inductive Reply where
  | proceed
  | unavailable
  | time (answer : Except RuntimeError TimestampMillis)
  | text (answer : Except RuntimeError String)
  | failed (error : PersistenceError)
  | page (count : Nat)
  | lost (error : PersistenceError)
  | resolved (answer : Except ExecutorError ResolvedCapability)
  | decided (answer : Except String AuthorityDecisionSnapshot)
  | prepared (answer : Except ExecutorError InvocationAdmissionEnvelope)
  | returned (answer : Except ExecutorError Unit)
  | settled (answer : Except ExecutorError Unit)
  | cancelled (answer : Except ExecutorError CancellationAcknowledgement)

def committed (shared : Shared) (commit : WorkflowCommit) (store : Store) : Shared :=
  { shared with
    store
    journal := shared.journal ++ [.saved
      ⟨(shared.store.rows.get? commit.snapshot.workflow).map WorkflowSnapshot.document,
        commit.cause, commit.snapshot.document⟩]
    accepted := shared.accepted ++ (commit.command.map fun command =>
      ⟨commit.snapshot.workflow, commit.snapshot.generation, command⟩).toList }

/-- The outcomes of a commit request: the store's own, a refusal before the transaction, or a commit
whose reply is lost. -/
def respondCommit (shared : Shared) (commit : WorkflowCommit) :
    Reply → Option (Except PersistenceError WorkflowCommitOutcome × Shared)
  | .proceed =>
    match shared.store.commitWorkflow commit with
    | .error error => some (.error error, shared)
    | .ok (.replay receipt, _) => some (.ok (.replay receipt), shared)
    | .ok (.applied receipt, store) =>
      some (.ok (.applied receipt), committed shared commit store)
  | .failed error => some (.error error, shared)
  | .lost error =>
    match shared.store.commitWorkflow commit with
    | .ok (.applied _, store) => some (.error error, committed shared commit store)
    | _ => none
  | _ => none

/-- The answer of each request and the shared state it leaves. A lock that another thread holds has no
answer yet. -/
def respond (shared : Shared) (thread : Nat) : (op : Request) → Reply → Option (op.Answer × Shared)
  | .lockGate, .proceed =>
    if shared.gate = .free then some (true, { shared with gate := .held thread }) else none
  | .lockGate, .unavailable => some (false, shared)
  | .unlockGate, .proceed => some ((), { shared with gate := .free })
  | .isClosed, .proceed => some (shared.closed, shared)
  | .beginShutdown, .proceed => some ((), { shared with closed := true })
  | .readCursor, .proceed => some (shared.cursor, shared)
  | .writeCursor cursor, .proceed => some ((), { shared with cursor })
  | .readCancellationCursor, .proceed => some (shared.cancellationCursor, shared)
  | .writeCancellationCursor cancellationCursor, .proceed =>
    some ((), { shared with cancellationCursor })
  | .readActive, .proceed => some (shared.activeTasks, shared)
  | .writeActive activeTasks, .proceed => some ((), { shared with activeTasks })
  | .claim invocation, .proceed =>
    if 65536 ≤ shared.executing.length ∨ invocation ∈ shared.executing then some (false, shared)
    else some (true, { shared with executing := invocation :: shared.executing })
  | .release invocation, .proceed =>
    some ((), { shared with executing := shared.executing.erase invocation })
  | .now, .time (.ok at_) =>
    if at_ < 2 ^ 64 then some (.ok at_, { shared with clock := at_ :: shared.clock }) else none
  | .now, .time (.error error) => some (.error error, shared)
  | .nextId _, .text answer => some (answer, shared)
  | .readWorkflow workflow, .proceed => some (.ok (shared.store.rows.get? workflow), shared)
  | .readWorkflow _, .failed error => some (.error error, shared)
  | .readPage cursor limit, .page count =>
    if limit = 0 ∨ 200 < limit then
      some (.error (Store.bounds "workflow page must contain 1..=200 records"), shared)
    else (shared.store.page cursor limit count).map fun page => (.ok page, shared)
  | .readPage _ _, .failed error => some (.error error, shared)
  | .readReceipt actor key, .proceed =>
    match Store.receiptKey actor key with
    | .error error => some (.error error, shared)
    | .ok row => some (.ok (shared.store.receipts.get? row), shared)
  | .readReceipt _ _, .failed error => some (.error error, shared)
  | .commit commit, reply => respondCommit shared commit reply
  | .resolve _ _ _, .resolved answer => some (answer, shared)
  | .evaluate _, .decided answer => some (answer, shared)
  | .prepare _, .prepared answer => some (answer, shared)
  | .enter entry, .proceed =>
    some ((), { shared with
      live := ⟨entry.workflow, entry.task, entry.exact⟩ :: shared.live
      journal := shared.journal ++ [.entered entry] })
  | .entryOutcome entry, .returned answer =>
    some (answer, { shared with
      live := shared.live.erase ⟨entry.workflow, entry.task, entry.exact⟩ })
  | .settle _, .settled answer => some (answer, shared)
  | .cancel _, .cancelled answer => some (answer, shared)
  | _, _ => none

structure Frame (op : Request) (shared shared' : Shared) : Prop where
  store : shared'.store = shared.store
  accepted : shared'.accepted = shared.accepted
  journal : (∀ entry, op ≠ .enter entry) → shared'.journal = shared.journal
  clock : op ≠ .now → shared'.clock = shared.clock
  gate : op ≠ .lockGate → op ≠ .unlockGate → shared'.gate = shared.gate
  active : (∀ tasks, op ≠ .writeActive tasks) → shared'.activeTasks = shared.activeTasks

theorem Frame.same {op : Request} {shared : Shared} : Frame op shared shared :=
  ⟨rfl, rfl, fun _ => rfl, fun _ => rfl, fun _ _ => rfl, fun _ => rfl⟩

theorem respond_frame {shared shared' : Shared} {thread : Nat} {op : Request} {reply : Reply}
    {answer : op.Answer} (uncommitted : ∀ commit, op ≠ .commit commit)
    (answered : respond shared thread op reply = some (answer, shared')) : Frame op shared shared' := by
  cases op with
  | commit commit => cases uncommitted commit rfl
  | now =>
    cases reply with
    | time told =>
      cases told with
      | ok at_ =>
        simp only [respond, Option.ite_none_right_eq_some] at answered
        cases answered.2
        constructor <;> simp
      | error error => cases answered; exact .same
    | _ => cases answered
  | lockGate | claim | readPage | readReceipt =>
    cases reply <;> simp only [respond] at answered
    all_goals try split at answered
    all_goals try simp only [Option.map_eq_some_iff] at answered
    all_goals first
      | (obtain ⟨_, _, same⟩ := answered; cases same; exact .same)
      | (cases answered; first | exact .same | constructor <;> simp)
      | cases answered
  | _ => cases reply <;> cases answered <;> first | exact .same | constructor <;> simp

/-! ### Operations -/

/-- What callers may start at any time, with any arguments. -/
inductive Operation where
  | tick (maximum pages : Nat)
  | execute (dispatch : ExecutionDispatch)
  | recover (pages : Nat)
  | cancellationActions (maximum : Nat)
  | executeCancellation (dispatch : CancellationDispatch)
  | report (reporter : Effects.Reporter) (event : InvocationEvent)
  | heartbeat (reporter : Effects.Reporter)
  | create (actor key : String) (request : WorkflowCreate) (decision : AuthorityDecisionSnapshot)
      (transport : Option String)
  | edit (actor key : String) (workflow : WorkflowId) (batch : TaskBatch)
      (transport : Option String)
  | admitModelBatch (actor : String) (workflow : WorkflowId) (source : TaskId) (batch : TaskBatch)
      (repair : Bool)
  | rejectModelBatch (workflow : WorkflowId) (source : TaskId) (reason : String)
      (repairAllowed : Bool)
  | refuseModelRepair (workflow : WorkflowId) (source : TaskId) (reason : String)
  | beginShutdown

/-- What an operation returns to its caller. -/
inductive Outcome where
  | finished
  | starts (dispatches : List ExecutionDispatch)
  | stops (dispatches : List CancellationDispatch)
  | accepted (receipt : WorkflowCommandReceipt)

variable [Codec] [Contracts]

def launch (settings : RuntimeSettings) (shared : Shared) : Operation → Option (Action Outcome)
  | .tick maximum pages => some ((Scheduling.tick settings maximum pages).returning .starts)
  | .execute dispatch => some ((Effects.execute dispatch).returning fun _ => .finished)
  | .recover pages => some ((Effects.recover pages).returning .starts)
  | .cancellationActions maximum => some ((Effects.cancellationActions maximum).returning .stops)
  | .executeCancellation dispatch =>
    some ((Effects.executeCancellation dispatch).returning fun _ => .finished)
  | .report reporter event =>
    if reporter ∈ shared.live then some ((reporter.record event).returning fun _ => .finished)
    else none
  | .heartbeat reporter =>
    if reporter ∈ shared.live then some (reporter.checkContinuation.returning fun _ => .finished)
    else none
  | .create actor key request decision transport =>
    some ((Admission.createRequest actor key request decision transport).returning .accepted)
  | .edit actor key workflow batch transport =>
    some ((Admission.editRequest actor key workflow batch transport none).returning .accepted)
  | .admitModelBatch actor workflow source batch repair =>
    some ((Admission.admitModelBatch actor workflow source batch repair).returning .accepted)
  | .rejectModelBatch workflow source reason repairAllowed =>
    some ((Admission.rejectModelBatch workflow source reason repairAllowed).returning
      fun _ => .finished)
  | .refuseModelRepair workflow source reason =>
    some ((Admission.refuseModelRepair workflow source reason).returning fun _ => .finished)
  | .beginShutdown => some (Action.closeAdmission.returning fun _ => .finished)

structure Operates (settings : RuntimeSettings) (keeps : ∀ {α : Type}, Action α → Prop) : Prop where
  returning : ∀ {α : Type} {program : Action α} (outcome : α → Outcome), keeps program →
    keeps (program.returning outcome)
  tick : ∀ maximum pages, keeps (Scheduling.tick settings maximum pages)
  execute : ∀ dispatch, keeps (Effects.execute dispatch)
  recover : ∀ pages, keeps (Effects.recover pages)
  cancellationActions : ∀ maximum, keeps (Effects.cancellationActions maximum)
  executeCancellation : ∀ dispatch, keeps (Effects.executeCancellation dispatch)
  record : ∀ (reporter : Effects.Reporter) event, keeps (reporter.record event)
  checkContinuation : ∀ reporter : Effects.Reporter, keeps reporter.checkContinuation
  create : ∀ actor key request decision transport,
    keeps (Admission.createRequest actor key request decision transport)
  edit : ∀ actor key workflow batch transport source,
    keeps (Admission.editRequest actor key workflow batch transport source)
  rejectModelBatch : ∀ workflow source reason repairAllowed,
    keeps (Admission.rejectModelBatch workflow source reason repairAllowed)
  refuseModelRepair : ∀ workflow source reason, keeps (Admission.refuseModelRepair workflow source reason)
  closeAdmission : keeps Action.closeAdmission

theorem Operates.launched {settings : RuntimeSettings} {keeps : ∀ {α : Type}, Action α → Prop}
    (operates : Operates settings keeps) {shared : Shared} {operation : Operation}
    {program : Action Outcome} (launched : launch settings shared operation = some program) :
    keeps program := by
  cases operation with
  | report reporter event | heartbeat reporter =>
    simp only [launch, Option.ite_none_right_eq_some] at launched
    cases launched.2
    apply operates.returning
    first | exact operates.record reporter event | exact operates.checkContinuation reporter
  | tick maximum pages => cases launched; exact operates.returning _ (operates.tick maximum pages)
  | execute dispatch => cases launched; exact operates.returning _ (operates.execute dispatch)
  | recover pages => cases launched; exact operates.returning _ (operates.recover pages)
  | cancellationActions => cases launched; exact operates.returning _ (operates.cancellationActions _)
  | executeCancellation => cases launched; exact operates.returning _ (operates.executeCancellation _)
  | create => cases launched; exact operates.returning _ (operates.create _ _ _ _ _)
  | edit | admitModelBatch => cases launched; exact operates.returning _ (operates.edit _ _ _ _ _ _)
  | rejectModelBatch => cases launched; exact operates.returning _ (operates.rejectModelBatch _ _ _ _)
  | refuseModelRepair => cases launched; exact operates.returning _ (operates.refuseModelRepair _ _ _)
  | beginShutdown => cases launched; exact operates.returning _ operates.closeAdmission

abbrev daemon (settings : RuntimeSettings) : System taskSignature RuntimeError where
  Shared := Shared
  Reply := Reply
  Operation := Operation
  Outcome := Outcome
  respond := respond
  launch := launch settings
  restart := Shared.restarted

def Reached (settings : RuntimeSettings) (config : (daemon settings).Config) : Prop :=
  @System.Reachable _ _ (daemon settings) Shared.initial config

end Milkdrift
