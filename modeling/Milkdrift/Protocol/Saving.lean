/-
Purpose: A thread commits only transitions of records it knows; lookups leave its knowledge alone.
Trusted boundary: Codec, Contracts
-/
import Milkdrift.Lifecycle.Refinement

namespace Milkdrift

open Action Program Issues

def Request.isLookup : Request → Bool
  | .nextId _ | .readReceipt _ _ | .resolve _ _ _ | .evaluate _ | .settle _ => true
  | _ => false

def Request.isConsultation (op : Request) : Bool :=
  op matches .now || op.isLookup

variable {α ε : Type} {allowed : Request → Prop}
  {asked : Action (Except ε α)} {change : ε → RuntimeError}

namespace Program.Issues

theorem request {op : Request} (permitted : allowed op) : Issues allowed (Action.request op) :=
  ⟨permitted, fun _ => trivial⟩

theorem lift (result : Except RuntimeError α) : Issues allowed (Program.lift result : Action α) := trivial

theorem fallible (issues : Issues allowed asked) : Issues allowed (Action.fallible change asked) :=
  bind issues fun _ => trivial

end Program.Issues

theorem Program.Quiet.fallible {protocol : Protocol taskSignature} (quiet : Quiet protocol asked) :
    Quiet protocol (Action.fallible change asked) :=
  quiet.seq fun _ => .lift _

abbrev LooksUp (program : Action α) : Prop := Issues (fun op : Request => op.isLookup = true) program

abbrev Consults (program : Action α) : Prop :=
  Issues (fun op : Request => op.isConsultation = true) program

theorem LooksUp.consults {program : Action α} (looks : LooksUp program) : Consults program :=
  looks.mono fun op lookup => by simp [Request.isConsultation, lookup]

namespace Consults

theorem validateProcessTools (context : CapabilityResolutionContext) (tools : List TaskTool) :
    Consults (Admission.validateFutureDefinition.validateProcessTools context tools) := by
  induction tools with
  | nil => trivial
  | cons tool rest ih =>
    cases tool with
    | readFile => exact ih
    | writeFile => exact ih
    | process capability =>
      refine bind (fallible (request rfl)) fun _ => bind (fallible (request rfl)) fun _ => ?_
      exact bind (lift _) fun _ => ih

variable [Codec] (record : WorkflowRecord)

theorem validateFutureDefinition (definition : TaskDefinition) :
    Consults (Admission.validateFutureDefinition record definition) := by
  refine bind (lift _) fun _ => bind (lift _) fun _ => bind (lift _) fun _ => bind (lift _) fun _ => ?_
  refine bind (fallible (request rfl)) fun _ => bind (fallible (request rfl)) fun _ => ?_
  exact bind (lift _) fun _ => bind (lift _) fun _ => validateProcessTools _ _

theorem validateFutureDefinitions (definitions : List TaskDefinition) :
    Consults (Admission.validateFutureDefinitions record definitions) := by
  induction definitions with
  | nil => trivial
  | cons definition rest ih => exact bind (validateFutureDefinition record definition) fun _ => ih

end Consults

namespace LooksUp

theorem replay (actor key request : String) : LooksUp (Admission.replay actor key request) := by
  refine bind (fallible (Issues.request rfl)) fun found => ?_
  cases found with
  | none => trivial
  | some receipt =>
    simp only
    split <;> trivial

theorem allocateCreated (tasks : List NewTask) (aliases : SortedMap TaskId TaskId) :
    LooksUp (Admission.allocateCreated tasks aliases) := by
  induction tasks generalizing aliases with
  | nil => trivial
  | cons task rest ih => exact bind (fallible (request rfl)) fun _ => bind (lift _) fun _ => ih _

theorem settleStart (dispatch : Option ExecutionDispatch) : LooksUp (Effects.settleStart dispatch) := by
  cases dispatch with
  | none => trivial
  | some dispatch => exact fallible (request rfl)

variable (record : WorkflowRecord)

theorem unusedTaskId (aliases : SortedMap TaskId TaskId) (tries : Nat) :
    LooksUp (Admission.unusedTaskId record aliases tries) := by
  induction tries with
  | zero => trivial
  | succ tries ih =>
    refine bind (fallible (request rfl)) fun _ => bind (lift _) fun id => ?_
    split
    · trivial
    · exact ih

theorem allocateAdded (changes : List TaskChange) (aliases : SortedMap TaskId TaskId) :
    LooksUp (Admission.allocateAdded record changes aliases) := by
  induction changes generalizing aliases with
  | nil => trivial
  | cons change rest ih =>
    cases change with
    | add taskAlias definition => exact bind (unusedTaskId _ _ _) fun _ => bind (lift _) fun _ => ih _
    | _ => exact ih _

theorem prepareDispatch [Codec] [Contracts] (task : TaskRecord) (inputs : SortedMap String TaskInputValue)
    (at_ : TimestampMillis) : LooksUp (Scheduling.prepareDispatch record task inputs at_) := by
  have nextId (kind : String) : LooksUp (nextId kind) := fallible (request rfl)
  refine bind (lift _) fun _ => bind (lift _) fun _ => bind (lift _) fun _ => ?_
  refine bind (nextId _) fun _ => bind (lift _) fun _ => ?_
  refine bind (fallible (request rfl)) fun _ => bind (lift _) fun _ => ?_
  refine bind (nextId _) fun _ => bind (lift _) fun _ => bind (lift _) fun _ => ?_
  refine bind (lift _) fun _ => bind (lift _) fun _ => ?_
  refine bind (nextId _) fun _ => bind (lift _) fun _ => bind (lift _) fun _ => ?_
  refine bind (fallible (request rfl)) fun _ => bind (lift _) fun _ => ?_
  refine bind (lift _) fun _ => bind (lift _) fun _ => bind (lift _) fun _ => ?_
  exact bind (lift _) fun _ => trivial

end LooksUp

end Milkdrift

variable {commit : WorkflowCommit}

namespace Milkdrift

open Action Program

/-- What a thread learned from its own requests. -/
structure Knowledge where
  known : List WorkflowRecord
  saved : List (Cause × WorkflowRecord)
  token : Option Entry

namespace Knowledge

/-- A thread that has made no request. -/
def nothing : Knowledge := ⟨[], [], none⟩

/-- Later knowledge; the token may have been used. -/
structure Grows (early late : Knowledge) : Prop where
  known : early.known ⊆ late.known
  saved : early.saved ⊆ late.saved

theorem Grows.refl (knowledge : Knowledge) : Grows knowledge knowledge :=
  ⟨List.Subset.refl _, List.Subset.refl _⟩

theorem Grows.trans {first second third : Knowledge} (early : Grows first second)
    (late : Grows second third) : Grows first third :=
  ⟨List.Subset.trans early.known late.known, List.Subset.trans early.saved late.saved⟩

instance : Std.Refl Grows := ⟨.refl⟩

instance : IsTrans Knowledge Grows := ⟨fun _ _ _ => .trans⟩

end Knowledge

section Permission

variable [Codec]

/-- The thread saved a failed preparation that exhausted a lineage, and every save of the workflow since
is its own and no edit. -/
def FailedSince (knowledge : Knowledge) (base : WorkflowRecord) : Prop :=
  ∃ failed ∈ knowledge.saved, (∃ task, failed.1 = .prepareFailed task) ∧
    Policy.lineageStop failed.2 ≠ .ok none ∧ failed.2.id = base.id ∧
    ∀ generation, failed.2.generation < generation → generation ≤ base.generation →
      ∃ later ∈ knowledge.saved, later.2.id = base.id ∧ later.2.generation = generation ∧
        later.1.isEdit = false

/-- The part of the history rule that a thread can see. -/
structure KnownRule (knowledge : Knowledge) (base : WorkflowRecord) (cause : Cause) : Prop where
  start : ∀ task, cause = .start task → base.waitQuestion = none ∨ FailedSince knowledge base
  requeue : ∀ task, cause = .requeue task → ∃ seen ∈ knowledge.known, seen.id = base.id ∧
    ∃ record start, seen.tasks.get? task = some record ∧ record.state = .running ∧
      record.frozen = some start ∧ start.entered = false

/-- What a thread may commit: a created record, or a transition of a record it knows over that record's
generation. -/
structure Permitted (knowledge : Knowledge) (commit : WorkflowCommit) : Prop where
  workflow : commit.snapshot.workflow = commit.snapshot.document.id
  generation : commit.snapshot.generation = commit.snapshot.document.generation
  created : commit.expectedGeneration = none → commit.cause = .create ∧ Created commit.snapshot.document
  replaced : ∀ expected, commit.expectedGeneration = some expected →
    ∃ base ∈ knowledge.known, base.generation = expected ∧ base.id = commit.snapshot.document.id ∧
      Transition base commit.cause commit.snapshot.document ∧
      KnownRule knowledge base commit.cause

variable {early late : Knowledge} {base : WorkflowRecord}

section
omit [Codec]

theorem FailedSince.mono (since : FailedSince early base) (grows : early.Grows late) :
    FailedSince late base := by
  obtain ⟨failed, member, failure, exhausted, here, own⟩ := since
  refine ⟨failed, grows.saved member, failure, exhausted, here, fun generation after upTo => ?_⟩
  obtain ⟨later, member', rest⟩ := own generation after upTo
  exact ⟨later, grows.saved member', rest⟩

theorem KnownRule.mono {cause : Cause} (rule : KnownRule early base cause) (grows : early.Grows late) :
    KnownRule late base cause where
  start task same := (rule.start task same).imp_right fun since => since.mono grows
  requeue task same := by
    obtain ⟨seen, member, rest⟩ := rule.requeue task same
    exact ⟨seen, grows.known member, rest⟩

end

theorem Permitted.mono (permitted : Permitted early commit)
    (grows : early.Grows late) : Permitted late commit where
  workflow := permitted.workflow
  generation := permitted.generation
  created := permitted.created
  replaced expected same := by
    obtain ⟨base, member, generation, id, transition, rule⟩ := permitted.replaced expected same
    exact ⟨base, grows.known member, generation, id, transition, rule.mono grows⟩

end Permission

def Cause.token (workflow : WorkflowId) : Cause → Option Entry → Option Entry
  | .entry task dispatch exact _, _ => some ⟨workflow, task, dispatch, exact⟩
  | _, token => token

def learn (knowledge : Knowledge) : (op : Request) → op.Answer → Knowledge
  | .readWorkflow _ => fun answer =>
    match answer with
    | .ok (some row) => { knowledge with known := row.document :: knowledge.known }
    | _ => knowledge
  | .commit commit => fun answer =>
    match answer with
    | .ok (.applied _) => {
        known := commit.snapshot.document :: knowledge.known
        saved := (commit.cause, commit.snapshot.document) :: knowledge.saved
        token := commit.cause.token commit.snapshot.document.id knowledge.token }
    | _ => knowledge
  | .enter _ => fun _ => { knowledge with token := none }
  | _ => fun _ => knowledge

/-- What a thread may assume of an answer: a row is the one it asked for, and a commit without a command
is not a replay. -/
def answers : (op : Request) → op.Answer → Prop
  | .readWorkflow workflow => fun answer => ∀ row, answer = .ok (some row) → row.workflow = workflow
  | .commit commit => fun answer =>
    ∀ receipt, answer = .ok (.replay receipt) → commit.command ≠ none
  | _ => fun _ => True

variable [Codec]

def permits (knowledge : Knowledge) : Request → Prop
  | .commit commit => Permitted knowledge commit
  | .enter entry => knowledge.token = some entry
  | _ => True

abbrev threadProtocol : Protocol taskSignature where
  Ghost := Knowledge
  permits := permits
  answers := fun _ => answers
  learn := learn

/-! ### Specifications -/

variable {α β : Type}

/-- The program keeps the discipline from this knowledge on, and `post` holds of its value and of what it
knows then. -/
def Meets (program : Action α) (knowledge : Knowledge) (post : α → Knowledge → Prop) : Prop :=
  program.Conforms threadProtocol knowledge fun result (final : Knowledge) =>
    knowledge.Grows final ∧ ∀ value, result = .ok value → post value final

/-- The program keeps the discipline, whatever it yields. -/
abbrev Sound (program : Action α) (knowledge : Knowledge) : Prop :=
  Meets program knowledge fun _ _ => True

namespace Meets

variable {knowledge : Knowledge} {post : α → Knowledge → Prop} {next : α → Action β}
  {goal : β → Knowledge → Prop}

theorem pure {value : α} (holds : post value knowledge) : Meets (pure value : Action α) knowledge post :=
  Upholds.pure holds

theorem refuse (refusal : RuntimeError) : Meets (Program.refuse refusal) knowledge post :=
  Upholds.refuse refusal

variable {result : Except RuntimeError α} {program : Action α}

theorem lift (holds : ∀ value, result = .ok value → post value knowledge) :
    Meets (Program.lift result) knowledge post :=
  Upholds.lift holds

theorem mono {weak : α → Knowledge → Prop} (meets : Meets program knowledge post)
    (weaken : ∀ value final, knowledge.Grows final → post value final → weak value final) :
    Meets program knowledge weak :=
  Upholds.mono meets weaken

theorem bind (first : Meets program knowledge post)
    (rest : ∀ value final, knowledge.Grows final → post value final → Meets (next value) final goal) :
    Meets (program >>= next) knowledge goal :=
  Upholds.bind first rest

/-- Sequencing after a part whose value does not matter. -/
theorem andThen (first : Sound program knowledge)
    (rest : ∀ value final, knowledge.Grows final → Meets (next value) final goal) :
    Meets (program >>= next) knowledge goal :=
  Upholds.andThen first rest

theorem lift_bind (rest : ∀ value, result = .ok value → Meets (next value) knowledge goal) :
    Meets (Program.lift result >>= next) knowledge goal :=
  Upholds.lift_bind rest

theorem attempt (meets : Meets program knowledge post) : Meets program.attempt knowledge fun result final =>
      ∀ value, result = .ok value → post value final :=
  Upholds.attempt meets

end Meets

/-- Requests that are always allowed and teach nothing. -/
def Request.isSilent : Request → Bool
  | .readWorkflow _ | .commit _ | .enter _ => false
  | _ => true

def Silent (program : Action α) : Prop :=
  ∀ knowledge, program.Conforms threadProtocol knowledge fun _ final => final = knowledge

namespace Silent

theorem request {op : Request} (silent : op.isSilent = true) : Silent (Action.request op) := by
  refine Quiet.ask (fun _ => ?_) fun _ _ => ?_ <;> cases op <;> trivial

theorem fallible {ε : Type} {change : ε → RuntimeError} {asked : Action (Except ε α)}
    (silent : Silent asked) : Silent (Action.fallible change asked) :=
  Quiet.fallible silent

variable {program : Action α} {knowledge : Knowledge} {next : α → Action β}

theorem meets (silent : Silent program) {post : α → Knowledge → Prop}
    (holds : ∀ value, post value knowledge) : Meets program knowledge post :=
  Quiet.upholds silent holds

theorem bind (silent : Silent program) {goal : β → Knowledge → Prop}
    (rest : ∀ value, Meets (next value) knowledge goal) : Meets (program >>= next) knowledge goal :=
  Quiet.bind silent rest

theorem now : Silent Action.now := fallible (request rfl)

theorem nextId (kind : String) : Silent (Action.nextId kind) := fallible (request rfl)

theorem settle (dispatch : ExecutionDispatch) : Silent (Action.settle dispatch) := fallible (request rfl)

end Silent

theorem Consults.silent {program : Action α} (consults : Consults program) : Silent program := by
  refine Quiet.of_issues (fun op consultation _ => ?_) consults
  cases op <;> first | exact ⟨trivial, fun _ => rfl⟩ | cases consultation

variable {knowledge : Knowledge} {post : α → Knowledge → Prop}

theorem Meets.unfoldedFurther : Meets (Action.unfoldedFurther : Action α) knowledge post :=
  ⟨trivial, fun never => never.elim⟩

/-- Holding the gate teaches nothing; the value is known when the gate is given back. -/
theorem Meets.withGate {unavailable : RuntimeError} {body : Action α}
    (meets : Meets body knowledge post) : Meets (Action.withGate unavailable body) knowledge post := by
  unfold Action.withGate
  refine (Silent.request rfl).bind fun held => ?_
  cases held with
  | false => exact Meets.refuse unavailable
  | true =>
    refine Meets.bind meets.attempt fun result final grows holds => ?_
    exact (Silent.request rfl).bind fun _ => Meets.lift holds

end Milkdrift

namespace Milkdrift

open Action Meets Duration SortedMap

variable [Codec] {knowledge : Knowledge}

/-! ### Reading -/

theorem meets_readWorkflow (id : WorkflowId) : Meets (readWorkflow id) knowledge fun found final =>
      ∀ row, found = some row → row.workflow = id ∧ row.document ∈ final.known := by
  refine ⟨trivial, fun answer possible => ?_⟩
  cases answer with
  | error error => exact ⟨.refl knowledge, fun _ same => by cases same⟩
  | ok found =>
    cases found with
    | none =>
      refine ⟨.refl knowledge, fun _ same row present => ?_⟩
      cases same
      cases present
    | some row =>
      refine ⟨⟨List.subset_cons_self _ _, List.Subset.refl _⟩, fun _ same other present => ?_⟩
      cases same
      cases present
      exact ⟨possible row rfl, List.mem_cons_self⟩

variable {record base body next : WorkflowRecord} {snapshot : WorkflowSnapshot}
  {command : Option WorkflowCommandAcceptance} {cause : Cause}

omit [Codec] in
theorem readRow_ok {row : WorkflowSnapshot} (done : readRow row = .ok record) :
    record = row.document ∧ record.id = row.workflow ∧ readVersion record = .ok () := by
  simp only [readRow, checked_eq_ok_iff] at done
  obtain ⟨_, version, _, envelope, same⟩ := done
  cases same
  exact ⟨rfl, envelope.1, version⟩

theorem meets_workflow (id : WorkflowId) : Meets (workflow id) knowledge fun found final =>
      ∀ record, found = some record → record ∈ final.known ∧ record.id = id ∧
        readVersion record = .ok () := by
  refine bind (meets_readWorkflow id) fun found final grows known => ?_
  cases found with
  | none => exact pure fun _ present => by cases present
  | some row =>
    refine lift_bind fun record done => pure fun _ present => ?_
    cases present
    obtain ⟨here, member⟩ := known row rfl
    obtain ⟨same, named, version⟩ := readRow_ok done
    exact ⟨same ▸ member, named.trans here, version⟩

theorem meets_requireWorkflow (id : WorkflowId) : Meets (requireWorkflow id) knowledge fun record final =>
      record ∈ final.known ∧ record.id = id ∧ readVersion record = .ok () := by
  refine bind (meets_workflow id) fun found final grows known => ?_
  exact lift fun record done => known record (require_eq_ok_iff.mp done)

/-! ### Saving -/

theorem snapshotOf_ok (done : snapshotOf record = .ok snapshot) :
    snapshot.document = record ∧ snapshot.workflow = record.id ∧
      snapshot.generation = record.generation := by
  simp only [snapshotOf, except_bind_eq_ok] at done
  obtain ⟨_, _, _, _, _, _, _, _, same⟩ := done
  cases same
  exact ⟨rfl, rfl, rfl⟩

structure Saved (cause : Cause) (record : WorkflowRecord) (final : Knowledge) : Prop where
  known : record ∈ final.known
  saved : (cause, record) ∈ final.saved
  token : ∀ task dispatch exact envelope, cause = .entry task dispatch exact envelope →
    final.token = some ⟨record.id, task, dispatch, exact⟩

theorem meets_commitWorkflow (permitted : Permitted knowledge commit) :
    Meets (commitWorkflow commit) knowledge fun outcome final =>
      (commit.command = none → ∃ receipt, outcome = .applied receipt) ∧
        ∀ receipt, outcome = .applied receipt → Saved commit.cause commit.snapshot.document final := by
  refine ⟨permitted, fun answer possible => ?_⟩
  cases answer with
  | error error => exact ⟨.refl knowledge, nofun⟩
  | ok outcome =>
    cases outcome with
    | replay receipt =>
      refine ⟨.refl knowledge, fun _ same => ?_⟩
      cases same
      exact ⟨fun silent => absurd silent (possible receipt rfl), nofun⟩
    | applied receipt =>
      refine ⟨⟨List.subset_cons_self _ _, List.subset_cons_self _ _⟩, fun _ same => ?_⟩
      cases same
      refine ⟨fun _ => ⟨receipt, rfl⟩, fun _ _ => ⟨List.mem_cons_self, List.mem_cons_self, ?_⟩⟩
      intro task dispatch exact_ envelope cause
      show commit.cause.token _ _ = _
      rw [cause]
      rfl

theorem meets_nextActive (record : WorkflowRecord) (count : Option Nat) :
    Sound (nextActive record count) knowledge := by
  cases count with
  | none => exact pure trivial
  | some count =>
    refine bind (meets_workflow record.id) fun prior final grows _ => ?_
    exact lift_bind fun _ _ => pure trivial

theorem meets_save {expected : Option Nat}
    (permitted : ∀ snapshot, snapshotOf record = .ok snapshot → Permitted knowledge ⟨expected, snapshot,
      command, cause⟩) :
    Meets (save record expected command cause) knowledge fun outcome final =>
      (command = none → ∃ receipt, outcome = .applied receipt) ∧
        ∀ receipt, outcome = .applied receipt → Saved cause record final := by
  refine lift_bind fun snapshot done => ?_
  refine (Silent.request rfl).bind fun active => ?_
  refine bind (meets_nextActive record active) fun updated middle grows _ => ?_
  refine bind (meets_commitWorkflow ((permitted snapshot done).mono grows))
    fun outcome final _ known => ?_
  have same := (snapshotOf_ok done).1
  cases outcome with
  | replay receipt => exact pure ⟨known.1, nofun⟩
  | applied receipt =>
    refine (Silent.request rfl).bind fun _ => pure ⟨known.1, fun _ _ => ?_⟩
    exact same ▸ known.2 receipt rfl

omit [Codec] in
/-- Causes whose permission does not depend on earlier saves. -/
theorem KnownRule.other (noStart : ∀ task, cause ≠ .start task)
    (noRequeue : ∀ task, cause ≠ .requeue task) : KnownRule knowledge base cause :=
  ⟨fun task same => absurd same (noStart task), fun task same => absurd same (noRequeue task)⟩

theorem meets_advance (record : WorkflowRecord) : Meets (advance record) knowledge fun next final =>
      final = knowledge ∧ ∃ now, advanceAt now record = .ok next := by
  refine lift_bind fun _ _ => Silent.now.bind fun at_ => ?_
  exact lift fun next done => ⟨rfl, at_, done⟩

theorem Permitted.transition (known : base ∈ knowledge.known) (step : Body base cause body)
    (rule : KnownRule knowledge base cause) (transition : Transition base cause next)
    (stored : snapshotOf next = .ok snapshot) :
    Permitted knowledge ⟨some body.generation, snapshot, command, cause⟩ := by
  obtain ⟨document, workflow, generation⟩ := snapshotOf_ok stored
  refine ⟨document ▸ workflow, document ▸ generation, nofun, ?_⟩
  intro expected same
  cases same
  exact ⟨base, known, step.generations.1.symm, by rw [document, transition.effect_always.id],
    document ▸ transition, rule⟩

structure Advanced (base : WorkflowRecord) (cause : Cause) (body next : WorkflowRecord) : Prop where
  boundary : ∃ now reason, Policy.stopReason body = .ok reason ∧ next = transitioned cause now reason body
  transition : Transition base cause next

variable {now : TimestampMillis}

theorem Advanced.of_advanceAt {advanced : WorkflowRecord} (step : Body base cause body)
    (done : advanceAt now body = .ok advanced) (same : next = if cause.decides then
      { advanced with decisionGeneration := advanced.generation } else advanced) :
    Advanced base cause body next := by
  obtain ⟨reason, found, bounded, rfl⟩ := advanceAt_ok done
  subst same
  exact ⟨⟨now, reason, found, rfl⟩, now, reason, body, step, found, bounded, rfl⟩

theorem meets_advanceAndSave (known : base ∈ knowledge.known) (step : Body base cause body)
    (plain : cause.decides = false) (rule : KnownRule knowledge base cause) :
    Meets (advanceAndSave body cause) knowledge fun next final =>
      Saved cause next final ∧ Advanced base cause body next := by
  refine bind (meets_advance body) fun next final _ advanced => ?_
  obtain ⟨rfl, now, done⟩ := advanced
  have moved : Advanced base cause body next := .of_advanceAt step done (by rw [plain]; rfl)
  refine bind (meets_save fun snapshot stored =>
    Permitted.transition known step rule moved.transition stored) fun outcome last _ saved => ?_
  obtain ⟨receipt, applied⟩ := saved.1 rfl
  exact pure ⟨saved.2 receipt applied, moved⟩

theorem meets_advanceDecisionAndSave (known : base ∈ knowledge.known) (step : Body base cause body)
    (decides : cause.decides = true) (rule : KnownRule knowledge base cause) :
    Meets (advanceDecisionAndSave body cause) knowledge fun next final =>
      Saved cause next final ∧ Advanced base cause body next := by
  refine bind (meets_advance body) fun advanced final _ reached => ?_
  obtain ⟨rfl, now, done⟩ := reached
  have moved : Advanced base cause body { advanced with decisionGeneration := advanced.generation } :=
    .of_advanceAt step done (by rw [decides]; rfl)
  refine bind (meets_save fun snapshot stored =>
    Permitted.transition known step rule moved.transition stored) fun outcome last _ saved => ?_
  obtain ⟨receipt, applied⟩ := saved.1 rfl
  exact pure ⟨saved.2 receipt applied, moved⟩

/-! ### Charging the clocks -/

section
omit [Codec]

/-- A clock that did not move is the clock it was. -/
theorem accrueTask_unchanged {task task' : TaskRecord} {account account' : Nat × Bool}
    (done : accrueTask now task account = .ok (task', account'))
    (still : account'.2 = false) : task' = task ∧ account' = account := by
  rcases accrueTask_cases done with ⟨rfl, rfl, _⟩ |
    ⟨start, duration, elapsed, _, frozen, clocked, advanced, rfl, rfl⟩
  · exact ⟨rfl, rfl⟩
  · simp only [Bool.or_eq_false_iff, bne_eq_false_iff_eq] at still
    obtain ⟨before, rfl⟩ := still
    refine ⟨?_, ?_⟩
    · have kept : { duration with accountedAt := now } = duration := by
        rw [advanced]
        rfl
      rw [kept]
      cases task
      cases start
      simp_all
    · cases account
      simp_all

theorem accrue_unchanged {accrued : WorkflowRecord}
    (done : accrue record now = .ok (accrued, false)) : accrued = record := by
  obtain ⟨tasks, ledger, rfl, charged⟩ := accrue_ok done
  have general : ∀ (entries entries' : List (TaskId × TaskRecord)) (account final : Nat × Bool),
      mapFoldEntries (accrueTask now) entries account = .ok (entries', final) →
        final.2 = false → entries' = entries ∧ final = account := by
    intro entries
    induction entries with
    | nil =>
      intro entries' account final traversed _
      cases traversed
      exact ⟨rfl, rfl⟩
    | cons entry rest ih =>
      intro entries' account final traversed still
      simp only [mapFoldEntries] at traversed
      split at traversed
      · cases traversed
      next new middle visited =>
        split at traversed
        · cases traversed
        next rest' last later =>
          cases traversed
          obtain ⟨rfl, rfl⟩ := ih rest' middle final later still
          obtain ⟨rfl, rfl⟩ := accrueTask_unchanged visited still
          exact ⟨rfl, rfl⟩
  obtain ⟨same, kept⟩ := general _ _ _ _ (mapFoldM_ok charged) rfl
  have tasks_same : tasks = record.tasks := by
    cases tasks
    cases hold : record.tasks
    simp_all
  cases kept
  rw [tasks_same]

theorem durationStop_unchanged (still : (requestLimitStop record).2 = false) :
    (requestLimitStop record).1 = record := by
  simp only [requestLimitStop, Bool.or_eq_false_iff] at still
  obtain ⟨quiet, none⟩ := still
  have same : record.tasks.mapValues (requestStop
      (mustStop (remaining record == 0))) = record.tasks := by
    refine ext_get? fun id => ?_
    rw [get?_mapValues]
    cases found : record.tasks.get? id with
    | none => rfl
    | some task =>
      have free := List.any_eq_false.mp none task ((mem_values_iff _).mpr ⟨id, found⟩)
      simp [requestStop, free]
  simp only [requestLimitStop, quiet, same, Bool.false_eq_true, if_false]

end

inductive Observed (record : WorkflowRecord) : WorkflowRecord → Prop
  | same : Observed record record
  | saved {now : TimestampMillis} {accrued next : WorkflowRecord} {changed : Bool}
      (charged : Duration.accrue record now = .ok (accrued, changed))
      (advanced : Advanced record .observe (Duration.requestLimitStop accrued).1 next) :
      Observed record next

theorem meets_observeDuration (at_ : TimestampMillis) (known : record ∈ knowledge.known) :
    Meets (observeDuration record at_) knowledge fun next final =>
      next ∈ final.known ∧ Observed record next ∧
        (next = record ∨ (Cause.observe, next) ∈ final.saved) := by
  refine lift_bind fun charged done => ?_
  obtain ⟨accrued, changed⟩ := charged
  simp only
  split
  · refine (meets_advanceAndSave known (.observe done) rfl (.other (by simp) (by simp))).mono ?_
    rintro next final _ ⟨saved, advanced⟩
    exact ⟨saved.known, .saved done advanced, .inr saved.saved⟩
  next still =>
    simp only [Bool.or_eq_true, not_or, Bool.not_eq_true] at still
    obtain ⟨quiet, rfl⟩ := still
    cases accrue_unchanged done
    rw [durationStop_unchanged quiet]
    exact pure ⟨known, .same, .inl rfl⟩

theorem Observed.id (observed : Observed record next) : next.id = record.id := by
  cases observed with
  | same => rfl
  | saved _ advanced => exact advanced.transition.effect_always.id

end Milkdrift
