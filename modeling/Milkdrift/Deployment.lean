/-
Purpose: A concrete deployment on which behaviours are exhibited, and scripts over it.
-/
import Milkdrift.System

namespace Milkdrift

namespace Deployment

/-- Encodings without content; a digest is the text it digests. -/
scoped instance codec : Codec where
  definition _ := ""
  inputValue _ := ""
  tool _ := ""
  string _ := ""
  record _ := ""
  reports _ := ""
  report _ := ""
  dispatch _ := ""
  outcome _ _ _ := ⟨""⟩
  create _ := ⟨""⟩
  batch _ := ⟨""⟩
  createRequest _ := ""
  editRequest _ _ := ""
  receiptResult _ _ _ := ⟨""⟩
  parse _ := .error ""
  actorKey _ key := key
  authoring _ _ := ""
  batchSchema := ⟨""⟩
  failureDebug _ := ""
  blake3 text := text

/-- Every value keeps its contract. -/
scoped instance contracts : Contracts where
  checkInput _ := .ok ()
  checkModelTask _ := .ok ()
  checkInvocation _ := .ok ()
  checkSnapshot _ _ := .ok ()

def settings : RuntimeSettings := ⟨1000, by decide, by decide⟩

/-! ### Requests -/

def definition (dependencies : List TaskId) : TaskDefinition where
  actions := none
  title := "task"
  description := ""
  instructions := "work"
  capability := ⟨""⟩
  inputs := SortedMap.empty
  outputs := SortedMap.empty
  dependencies := SortedMap.ofList (dependencies.map fun id => (id, ()))
  required := true
  correctiveOf := none
  paths := []
  tools := []

def authorityRequest (operation : AuthorityOperation) : AuthorityRequest where
  decision := "decision"
  actor := "actor"
  grant := "grant"
  grantRevision := 1
  grantDigest := ""
  revocationGeneration := 0
  operation
  resources := ⟨""⟩
  budget := AuthorityBudget.default
  evaluatedAt := 0
  provenance := ⟨""⟩

/-- An allowance of ten thousand invocations, sixty-four of them at once. -/
def allowance : AuthorityBudget := ⟨none, some 1000000, some 10000, none, none, some 64⟩

def allowed (operation : AuthorityOperation) : AuthorityDecisionSnapshot :=
  ⟨"policy", 1, authorityRequest operation, .allow, allowance, ""⟩

/-- The names tasks go by in a request. -/
def firstTask : TaskId := ⟨"first", by decide +kernel⟩
def secondTask : TaskId := ⟨"second", by decide +kernel⟩

def created : WorkflowId := ⟨"workflow_one", by decide +kernel⟩

def request (limits : WorkflowLimits) (tasks : List NewTask) : WorkflowCreate :=
  ⟨"workflow", "", tasks, SortedMap.empty, limits, true⟩

def success : InvocationEventKind :=
  .terminal ⟨.success, [], none, none, "", .refl false, .inl rfl⟩

/-! ### Surroundings -/

def capability : CapabilityId := ⟨"capability", .refl true⟩

def resolved (category : CapabilityCategory) : ResolvedCapability :=
  ⟨category, ⟨capability, 1, none, category, "operation", .unsupported, [], ""⟩,
    some (allowed .invokeCapability)⟩

def envelope (maximum : Nat) : InvocationAdmissionEnvelope :=
  ⟨none, .notApplicable, .notApplicable, .notApplicable, .notApplicable, .bounded maximum⟩

/-- Surroundings that grant every request: the clock stands at `now`, identities are numbered under a
label, pages are full, and a prepared entry may take `maximum`. -/
def granting (now : TimestampMillis) (label : String) (maximum : Nat) (step : Nat) : Request → Reply
  | .now => .time (.ok now)
  | .nextId _ => .text (.ok s!"{label}{step}")
  | .readPage _ limit => .page limit
  | .resolve _ _ _ => .resolved (.ok (resolved .process))
  | .evaluate asked => .decided (.ok ⟨"policy", 1, asked, .allow, AuthorityBudget.default, ""⟩)
  | .prepare _ => .prepared (.ok (envelope maximum))
  | .entryOutcome _ => .returned (.ok ())
  | .settle _ => .settled (.ok ())
  | .cancel asked => .cancelled (.ok ⟨asked.invocation, asked.requestSequence⟩)
  | _ => .proceed

def apartFrom (otherwise : Request → Option Reply) (surroundings : Nat → Request → Reply) (step : Nat)
    (request : Request) : Reply :=
  (otherwise request).getD (surroundings step request)

def unselected : Request → Option Reply
  | .resolve _ _ _ => some (.resolved (.error (.invalidDispatch "no such capability")))
  | _ => none

def modelled : Request → Option Reply
  | .resolve _ _ _ => some (.resolved (.ok (resolved .model)))
  | _ => none

/-- The executor has no room. -/
def crowded : Request → Option Reply
  | .prepare _ => some (.prepared (.error (.capacityUnavailable "full")))
  | _ => none

def never (_ : Request) : Bool := false

/-- About to hear how an entry ended. -/
def awaitsOutcome : Request → Bool
  | .entryOutcome _ => true
  | _ => false

def commits (awaited : Cause → Bool) : Request → Bool
  | .commit commit => awaited commit.cause
  | _ => false

/-! ### Scripts -/

def splits {α : Type} : List α → List (List α × α × List α)
  | [] => []
  | member :: rest => ([], member, rest) ::
      (splits rest).map fun split => (member :: split.1, split.2.1, split.2.2)

theorem eq_of_mem_splits {α : Type} {list : List α} {split : List α × α × List α}
    (listed : split ∈ splits list) : list = split.1 ++ split.2.1 :: split.2.2 := by
  induction list generalizing split with
  | nil => cases listed
  | cons member rest ih =>
    rcases List.mem_cons.mp listed with rfl | later
    · rfl
    · obtain ⟨earlier, known, rfl⟩ := List.mem_map.mp later
      simp [← ih known]

section

variable [Codec] [Contracts] {settings : RuntimeSettings}

def create (limits : WorkflowLimits) (tasks : List NewTask) (_ : (daemon settings).Config) :
    Option Operation :=
  some (.create "actor" "one" (request limits tasks) (allowed .startRun) none)

def tick (_ : (daemon settings).Config) : Option Operation := some (.tick 10 1)

def starts (config : (daemon settings).Config) (thread : Nat) : List ExecutionDispatch :=
  match config.threads[thread]? with
  | some (.done (.ok (.starts dispatches))) => dispatches
  | _ => []

def execute (thread position : Nat) (config : (daemon settings).Config) : Option Operation :=
  (starts config thread)[position]?.map .execute

def report (sequence : Nat) (kind : InvocationEventKind) (config : (daemon settings).Config) :
    Option Operation :=
  config.shared.live.head?.map fun reporter =>
    .report reporter ⟨reporter.dispatch.request.invocation, sequence + 1, kind, Nat.le_add_left 1 _⟩

def call (thread : Nat) (operation : (daemon settings).Config → Option Operation)
    (surroundings : Nat → Request → Reply) : List (daemon settings).Act :=
  [.spawn operation, .serve thread surroundings never 100]

def oneStart : List (daemon settings).Act :=
  call 0 (create WorkflowLimits.default [⟨firstTask, definition []⟩]) (granting 5 "task" 10) ++
    call 1 tick (granting 6 "id" 10)

def modelStart (limits : WorkflowLimits) (others : List NewTask) : List (daemon settings).Act :=
  call 0 (create limits (⟨firstTask, { definition [] with actions := some ⟨false⟩ }⟩ :: others))
      (apartFrom modelled (granting 5 "task" 10)) ++
    call 1 tick (apartFrom modelled (granting 6 "id" 10))

def entrySuccess (tick thread : Nat) : List (daemon settings).Act :=
  [.spawn (execute tick 0), .serve thread (granting 8 "" 10) awaitsOutcome 100] ++
    call (thread + 1) (report 0 success) (granting 9 "" 10)

def chain : List (daemon settings).Act :=
  call 0 (create WorkflowLimits.default
      [⟨firstTask, definition []⟩, ⟨secondTask, definition [firstTask]⟩]) (granting 5 "task" 10) ++
    call 1 tick (granting 6 "id" 10) ++ entrySuccess 1 2 ++ call 4 tick (granting 10 "next" 10)

def oneSuccess : List (daemon settings).Act := oneStart ++ entrySuccess 1 2

theorem reached (holds : (daemon settings).Config → Prop) [DecidablePred holds]
    (acts : List (daemon settings).Act)
    (performed : (System.perform acts ⟨Shared.initial, []⟩).any (fun config => holds config) = true) :
    ∃ config, Reached settings config ∧ holds config := by
  obtain ⟨config, ended, held⟩ := (Option.any_eq_true _ _).mp performed
  exact ⟨config, (System.Reachable.initial _).perform ended, of_decide_eq_true held⟩

end

end Deployment

end Milkdrift
