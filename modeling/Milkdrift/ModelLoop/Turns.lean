/-
Purpose: The model tool loop and its cancellation: when entries stop, and when an observed loop settles.
Trusted boundary: ConversationCodec
-/
import Milkdrift.Capability.Invocation
import Milkdrift.Library.Checked
import Milkdrift.Library.Machine

namespace Milkdrift.ModelLoop

/-! ### Conversation -/

structure ToolCall where
  id : String
  name : String
deriving DecidableEq

inductive Message where
  | given (text : String)
  | assistant (text : String) (calls : List ToolCall)
  | toolResult (call : String) (text : String)

def Message.text : Message → String
  | .given text | .assistant text _ | .toolResult _ text => text

class ConversationCodec where
  /-- Its serialized length. -/
  documentBytes : List Message → Nat
  /-- Its depth, keys and containers keep the document bounds. -/
  shaped : List Message → Bool
  /-- Its reader accepts it. -/
  readable : List Message → Bool

structure ModelResponse where
  text : String
  toolCalls : List ToolCall

def assistantMessage (response : ModelResponse) : Except String Message := do
  ensure (response.toolCalls.map ToolCall.id).Nodup "invalid assistant tool calls"
  return .assistant response.text response.toolCalls

def modelRequest [ConversationCodec] (messages : List Message) : Except String Unit := do
  ensure (messages.length ≤ 256) "model request exceeds count/unit bounds"
  ensure ((messages.map (·.text.utf8ByteSize)).sum ≤ 1048576) "aggregate text exceeds 1048576 bytes"
  ensure (ConversationCodec.shaped messages = true ∧
    ∀ message ∈ messages, message.text.utf8ByteSize ≤ 32768) "value exceeds its structural bounds"
  ensure (ConversationCodec.documentBytes messages ≤ 65536) "value exceeds 65536 serialized bytes"

/-! ### State -/

structure PreparedLoop where
  readFile : Bool
  writeFile : Bool
  processes : List String
  maximumCalls : Nat
  messages : List Message
  ceiling : 1 ≤ maximumCalls ∧ maximumCalls ≤ 16

/-- Where the loop is: its program counter with the calls still to be made. -/
inductive Phase where
  | round
  | authorize
  | enter
  | responding
  | call (rest : List ToolCall)
  | authorizeCall (call : ToolCall) (rest : List ToolCall)
  | tool (call : ToolCall) (rest : List ToolCall)
  | registered (call : ToolCall) (rest : List ToolCall)
  | running (call : ToolCall) (rest : List ToolCall)
  | ended (result : Except String Unit)

/-- Whether the loop is between a stop check that passed and the entry that check guards. -/
def Phase.pastCheck : Phase → Bool
  | .authorize | .enter | .authorizeCall _ _ | .tool _ _ | .registered _ _ => true
  | .round | .responding | .call _ | .running _ _ | .ended _ => false

def Phase.isRunning : Phase → Bool
  | .running _ _ => true
  | _ => false

/-- The loop and its cancellation: the stop mark and registered process of the active entry, what a
cancellation read there and still has to forward, and the entries made after one returned. -/
structure LoopState where
  phase : Phase
  calls : Nat
  messages : List Message
  files : Nat
  terminals : List TerminalStatus
  stopped : Bool
  process : Bool
  forwarding : Option Bool
  returned : Bool
  received : Bool
  late : Nat

/-- A nested model request: its terminal, whether its usage adds up with that of the earlier ones in one
currency, and its decoded response. -/
structure ObservedRound where
  status : TerminalStatus
  outputs : Nat
  counted : Except String Unit
  response : Except String ModelResponse

/-- How a tool ends: with a text, or refused, or with an outcome nobody observed. -/
inductive ToolResult where
  | feedback (text : String)
  | rejected (summary : String)
  | externalFailure (summary : String)

/-- Everything the loop's surroundings may answer at one step: the authority, the preparation of an entry
within its reservation, a nested request, a tool. -/
structure Answer where
  authority : Except String Unit
  prepared : Except String Unit
  observed : ObservedRound
  result : ToolResult

/-- The loop's next step, or one of the two moments of a cancellation. -/
inductive Label where
  | advance (answer : Answer)
  | cancel
  | forward

/-! ### Steps -/

def settle (state : LoopState) (status : TerminalStatus) : LoopState :=
  { state with phase := .ended (.ok ()), terminals := status :: state.terminals }

def abandon (state : LoopState) (text : String) : LoopState := { state with phase := .ended (.error text) }

def finalOutputs (state : LoopState) (observed : ObservedRound) : Nat :=
  observed.outputs + if observed.status = .success ∨ observed.status = .uncertain then state.files else 0

def finish (state : LoopState) (observed : ObservedRound) : LoopState :=
  if finalOutputs state observed ≤ 256 then settle state observed.status
  else abandon state "at most 256 output references are allowed"

/-- A nested entry, noted when a cancellation has already returned. -/
def entering (state : LoopState) (phase : Phase) : LoopState :=
  { state with phase, late := if state.returned then state.late + 1 else state.late }

def takeFeedback (state : LoopState) (call : ToolCall) (rest : List ToolCall) (answer : Answer) :
    LoopState :=
  match answer.result with
  | .externalFailure summary => abandon state summary
  | .rejected _ => settle state .failure
  | .feedback text =>
    if 32768 < text.utf8ByteSize then settle state .failure
    else { state with
      phase := .call rest
      files := state.files + if call.name = "write_file" then 1 else 0
      messages := state.messages ++ [.toolResult call.id text] }

def cancel (state : LoopState) : LoopState :=
  match state.phase with
  | .ended _ => state
  | _ => { state with stopped := true, forwarding := some state.process }

def forward (state : LoopState) : LoopState :=
  match state.forwarding with
  | none => state
  | some process =>
    { state with
      forwarding := none
      returned := true
      received := state.received || (process && state.phase.isRunning) }

section Steps
variable [ConversationCodec] (loop : PreparedLoop)

/-- A nested model request returned its terminal. -/
def respond (state : LoopState) (observed : ObservedRound) : LoopState :=
  match observed.counted with
  | .error text => abandon state text
  | .ok () =>
    if observed.status ≠ .success then finish state observed
    else match observed.response with
    | .error text => abandon state text
    | .ok response =>
      if response.toolCalls = [] then finish state observed
      else if loop.maximumCalls < state.calls + response.toolCalls.length then settle state .failure
      else if ConversationCodec.readable state.messages = false then
        abandon state "the model task document is refused"
      else match assistantMessage response with
      | .error text => abandon state text
      | .ok message =>
        { state with phase := .call response.toolCalls, messages := state.messages ++ [message] }

def prepareNext (state : LoopState) (answer : Answer) : LoopState :=
  match modelRequest state.messages with
  | .error text => abandon state text
  | .ok () =>
    match answer.prepared with
    | .error _ => settle state .failure
    | .ok () => { state with phase := .round }

def dispatch (state : LoopState) (call : ToolCall) (rest : List ToolCall) (answer : Answer) : LoopState :=
  if (call.name = "read_file" ∧ loop.readFile = true) ∨
      (call.name = "write_file" ∧ loop.writeFile = true) then
    takeFeedback (entering state state.phase) call rest answer
  else if call.name ∉ loop.processes then settle state .failure
  else match answer.prepared, answer.authority with
  | .ok (), .ok () => { state with phase := .registered call rest, process := true }
  | _, _ => settle state .failure

/-- One step of the loop's own thread. -/
def advance (state : LoopState) (answer : Answer) : LoopState :=
  match state.phase with
  | .round => if state.stopped then settle state .cancelled else { state with phase := .authorize }
  | .authorize => match answer.authority with
    | .error _ => settle state .failure
    | .ok () => { state with phase := .enter }
  | .enter => entering state .responding
  | .responding => respond loop state answer.observed
  | .call [] => prepareNext state answer
  | .call (call :: rest) => if state.stopped then settle state .cancelled
      else { state with phase := .authorizeCall call rest }
  | .authorizeCall call rest => match answer.authority with
    | .error _ => settle state .failure
    | .ok () => { state with phase := .tool call rest, calls := state.calls + 1 }
  | .tool call rest => dispatch loop state call rest answer
  | .registered call rest => { entering state (.running call rest) with received := false }
  | .running call rest => takeFeedback { state with process := false } call rest answer
  | .ended _ => state

def step (state : LoopState) : Label → LoopState
  | .advance answer => advance loop state answer
  | .cancel => cancel state
  | .forward => forward state

/-- A loop that has just become active, beside its cancellation. -/
def machine : Machine LoopState Label where
  initial :=
    { phase := .round, calls := 0, messages := loop.messages, files := 0, terminals := []
      stopped := false, process := false, forwarding := none, returned := false, received := false
      late := 0 }
  step := step loop

end Steps

open ModelLoop Phase

variable {state next mid : LoopState} {answer : Answer}

/-! ### One step -/

/-- A state that took a tool's answer, with no report made and the marks of the cancellation kept. -/
structure Beside (state mid : LoopState) : Prop where
  calls : mid.calls = state.calls
  terminals : mid.terminals = state.terminals
  stopped : mid.stopped = state.stopped
  forwarding : mid.forwarding = state.forwarding
  returned : mid.returned = state.returned
  late : state.returned = false ∨ state.phase.pastCheck = false → mid.late = state.late

theorem Beside.same : Beside state state := ⟨rfl, rfl, rfl, rfl, rfl, fun _ => rfl⟩

variable [ConversationCodec] {loop : PreparedLoop}

/-- The conversions between rounds accept what this step hands them, and no tool answers without its
outcome. -/
def Convertible (state : LoopState) (answer : Answer) : Prop :=
  match state.phase with
  | .responding =>
    answer.observed.counted = .ok () ∧ answer.observed.outputs + state.files ≤ 256 ∧
    (answer.observed.status = .success → ∃ response, answer.observed.response = .ok response ∧
      (response.toolCalls.map ToolCall.id).Nodup) ∧
    ConversationCodec.readable state.messages = true
  | .call [] =>
    state.messages.length ≤ 256 ∧ (state.messages.map (·.text.utf8ByteSize)).sum ≤ 1048576 ∧
    ConversationCodec.shaped state.messages = true ∧
    (∀ message ∈ state.messages, message.text.utf8ByteSize ≤ 32768) ∧
    ConversationCodec.documentBytes state.messages ≤ 65536
  | .tool _ _ | .running _ _ => ∀ summary, answer.result ≠ .externalFailure summary
  | _ => True

/-- Everything one step of the loop can do. -/
inductive Turn (loop : PreparedLoop) (state : LoopState) (answer : Answer) : LoopState → Prop where
  | ended {result : Except String Unit} (at_ : state.phase = .ended result) : Turn loop state answer state
  | settled {mid : LoopState} (beside : Beside state mid) (status : TerminalStatus) :
      Turn loop state answer (settle mid status)
  | abandoned {mid : LoopState} (beside : Beside state mid) (text : String)
      (refused : ¬ Convertible state answer) : Turn loop state answer (abandon mid text)
  | checked (at_ : state.phase = .round) (active : state.stopped = false) :
      Turn loop state answer { state with phase := .authorize }
  | authorized (at_ : state.phase = .authorize) : Turn loop state answer { state with phase := .enter }
  | model (at_ : state.phase = .enter) : Turn loop state answer (entering state .responding)
  | answered (at_ : state.phase = .responding) (calls : List ToolCall) (some : calls ≠ [])
      (few : state.calls + calls.length ≤ loop.maximumCalls) (messages : List Message) :
      Turn loop state answer { state with phase := .call calls, messages }
  | prepared (at_ : state.phase = .call []) : Turn loop state answer { state with phase := .round }
  | checkedCall {call : ToolCall} {rest : List ToolCall} (at_ : state.phase = .call (call :: rest))
      (active : state.stopped = false) :
      Turn loop state answer { state with phase := .authorizeCall call rest }
  | authorizedCall {call : ToolCall} {rest : List ToolCall}
      (at_ : state.phase = .authorizeCall call rest) :
      Turn loop state answer { state with phase := .tool call rest, calls := state.calls + 1 }
  | registered {call : ToolCall} {rest : List ToolCall} (at_ : state.phase = .tool call rest) :
      Turn loop state answer { state with phase := .registered call rest, process := true }
  | process {call : ToolCall} {rest : List ToolCall} (at_ : state.phase = .registered call rest) :
      Turn loop state answer { entering state (.running call rest) with received := false }
  | fed {mid : LoopState} {call : ToolCall} {rest : List ToolCall}
      (at_ : state.phase = .tool call rest ∨ state.phase = .running call rest)
      (beside : Beside state mid) (files : Nat) (messages : List Message) :
      Turn loop state answer { mid with phase := .call rest, files, messages }

variable {call : ToolCall} {rest : List ToolCall}

/-- The last request's outcome. -/
theorem finish_turn (at_ : state.phase = .responding) :
    Turn loop state answer (finish state answer.observed) := by
  unfold finish
  split
  · exact .settled .same _
  next excess =>
    refine .abandoned .same _ fun convertible => excess ?_
    simp only [Convertible, at_] at convertible
    obtain ⟨_, room, _⟩ := convertible
    unfold finalOutputs
    split <;> omega

theorem respond_turn (at_ : state.phase = .responding) :
    Turn loop state answer (respond loop state answer.observed) := by
  have decodes (convertible : Convertible state answer) := by
    simpa only [Convertible, at_] using convertible
  unfold respond
  split
  next text failed =>
    refine .abandoned .same text fun convertible => ?_
    rw [(decodes convertible).1] at failed
    cases failed
  split
  · exact finish_turn at_
  rename_i succeeded
  split
  next text failed =>
    refine .abandoned .same text fun convertible => ?_
    obtain ⟨response, decoded, _⟩ := (decodes convertible).2.2.1 (not_not.mp succeeded)
    rw [failed] at decoded
    cases decoded
  rename_i response decoded
  split
  · exact finish_turn at_
  split
  · exact .settled .same _
  split
  next unreadable =>
    refine .abandoned .same _ fun convertible => ?_
    rw [(decodes convertible).2.2.2] at unreadable
    cases unreadable
  rename_i some few _
  unfold assistantMessage ensure
  split
  next text failed =>
    refine .abandoned .same text fun convertible => ?_
    obtain ⟨other, same, distinct⟩ := (decodes convertible).2.2.1 (not_not.mp succeeded)
    rw [decoded] at same
    cases same
    simp [distinct, bind, Except.bind, pure, Except.pure] at failed
  · exact .answered at_ _ some (Nat.le_of_not_lt few) _

theorem takeFeedback_turn (at_ : state.phase = .tool call rest ∨ state.phase = .running call rest)
    (beside : Beside state mid) : Turn loop state answer (takeFeedback mid call rest answer) := by
  unfold takeFeedback
  split
  next summary failed =>
    refine .abandoned beside summary fun convertible => ?_
    rcases at_ with at_ | at_ <;> simp only [Convertible, at_] at convertible <;>
      exact convertible summary failed
  · exact .settled beside _
  · split
    · exact .settled beside _
    · exact .fed at_ beside _ _

theorem prepareNext_turn (at_ : state.phase = .call []) :
    Turn loop state answer (prepareNext state answer) := by
  unfold prepareNext
  split
  next text failed =>
    refine .abandoned .same text fun convertible => ?_
    simp only [Convertible, at_] at convertible
    obtain ⟨count, size, shape, texts, bytes⟩ := convertible
    have made : modelRequest state.messages = .ok () := by
      simp only [modelRequest, checked_eq_ok_iff]
      exact ⟨(), count, (), size, (), ⟨shape, texts⟩, bytes⟩
    rw [made] at failed
    cases failed
  · split
    · exact .settled .same _
    · exact .prepared at_

theorem dispatch_turn (at_ : state.phase = .tool call rest) :
    Turn loop state answer (dispatch loop state call rest answer) := by
  unfold dispatch
  split
  · refine takeFeedback_turn (.inl at_) ⟨rfl, rfl, rfl, rfl, rfl, fun quiet => ?_⟩
    have before : state.returned = false := by
      rcases quiet with before | outside
      · exact before
      · simp [at_, pastCheck] at outside
    simp [entering, before]
  · split
    · exact .settled .same _
    · split
      · exact .registered at_
      · exact .settled .same _

theorem advance_turn (loop : PreparedLoop) (state : LoopState) (answer : Answer) :
    Turn loop state answer (advance loop state answer) := by
  unfold advance
  split
  next at_ =>
    split
    · exact .settled .same _
    · exact .checked at_ (by simpa using ‹¬ state.stopped = true›)
  · split
    · exact .settled .same _
    · exact .authorized (by assumption)
  · exact .model (by assumption)
  · exact respond_turn (by assumption)
  · exact prepareNext_turn (by assumption)
  next at_ =>
    split
    · exact .settled .same _
    · exact .checkedCall at_ (by simpa using ‹¬ state.stopped = true›)
  · split
    · exact .settled .same _
    · exact .authorizedCall (by assumption)
  · exact dispatch_turn (by assumption)
  · exact .process (by assumption)
  · exact takeFeedback_turn (.inr (by assumption)) ⟨rfl, rfl, rfl, rfl, rfl, fun _ => rfl⟩
  · exact .ended (by assumption)

namespace Sample

/-- Documents as long as their texts. -/
@[reducible] def codec : ConversationCodec :=
  ⟨fun messages => (messages.map (·.text.utf8ByteSize)).sum, fun _ => true, fun _ => true⟩

def prepared : PreparedLoop := ⟨true, true, ["process_0"], 2, [.given "task"], by decide⟩

abbrev active : Machine LoopState Label := @machine codec prepared

def answering (calls : List ToolCall) : Answer :=
  ⟨.ok (), .ok (), ⟨.success, 1, .ok (), .ok ⟨"", calls⟩⟩, .feedback "done"⟩

def steps (count : Nat) (calls : List ToolCall) : List Label :=
  List.replicate count (.advance (answering calls))

end Sample

/-! ### Cancellation -/

def Phase.holdsProcess : Phase → Bool
  | .registered _ _ | .running _ _ => true
  | _ => false

omit [ConversationCodec] in
theorem Phase.holdsProcess_of_running {phase : Phase} (running : phase.isRunning = true) :
    phase.holdsProcess = true := by
  cases phase <;> first | rfl | cases running

/-- No cancellation takes the lock between a stop check that passed and the entry it guards. -/
def Unraced (state : LoopState) (label : Label) : Prop := label = .cancel → state.phase.pastCheck = false

/-- A stopped loop is past no stop check, and a cancellation that was forwarded reached the process that
runs. -/
structure Quiet (state : LoopState) : Prop where
  closed : state.stopped = true → state.phase.pastCheck = false
  late : state.late = 0
  registered : state.phase.holdsProcess = true → state.process = true
  forwarded : ∀ process, state.forwarding = some process →
    state.stopped = true ∧ (state.phase.isRunning = true → process = true)
  returned : state.returned = true →
    state.stopped = true ∧ (state.phase.isRunning = true → state.received = true)

section Quiet
omit [ConversationCodec]

theorem Quiet.active (quiet : Quiet state) (open_ : state.phase.pastCheck = true) :
    state.stopped = false := by
  by_contra stopped
  rw [quiet.closed (Bool.not_eq_false _ ▸ stopped)] at open_
  cases open_

theorem Quiet.unreturned (quiet : Quiet state) :
    state.returned = false ∨ state.phase.pastCheck = false := by
  cases returned : state.returned with
  | false => exact .inl rfl
  | true => exact .inr (quiet.closed (quiet.returned returned).1)

/-- A step of the loop leaves the marks of the cancellation, and goes past a check only when active. -/
theorem Quiet.carry (quiet : Quiet state) (stopped : next.stopped = state.stopped)
    (forwarding : next.forwarding = state.forwarding) (returned : next.returned = state.returned)
    (late : next.late = state.late) (registered : next.phase.holdsProcess = true → next.process = true)
    (guarded : state.stopped = false ∨ next.phase.pastCheck = false ∧ next.phase.isRunning = false) :
    Quiet next := by
  have halts (halted : state.stopped = true) :
      next.phase.pastCheck = false ∧ ¬ next.phase.isRunning = true := by
    simpa [halted] using guarded
  refine ⟨fun halted => (halts (stopped ▸ halted)).1, late.trans quiet.late, registered, ?_, ?_⟩
  · intro process pending
    obtain ⟨halted, _⟩ := quiet.forwarded process (forwarding ▸ pending)
    exact ⟨stopped.trans halted, fun running => absurd running (halts halted).2⟩
  · intro back
    obtain ⟨halted, _⟩ := quiet.returned (returned ▸ back)
    exact ⟨stopped.trans halted, fun running => absurd running (halts halted).2⟩

theorem Quiet.beside (quiet : Quiet state) (beside : Beside state mid) {phase : Phase}
    (outside : phase.pastCheck = false) (idle : phase.holdsProcess = false) (files : Nat)
    (terminals : List TerminalStatus) (messages : List Message) :
    Quiet { mid with phase, files, terminals, messages } := by
  have stands : phase.isRunning = false := by
    cases phase <;> first | rfl | cases idle
  refine quiet.carry ?_ ?_ ?_ ?_ ?_ (.inr ⟨outside, stands⟩)
  · exact beside.stopped
  · exact beside.forwarding
  · exact beside.returned
  · exact beside.late quiet.unreturned
  · intro holds
    rw [idle] at holds
    cases holds

end Quiet

theorem Quiet.turn (quiet : Quiet state) (turn : Turn loop state answer next) : Quiet next := by
  have entered (open_ : state.phase.pastCheck = true) (phase : Phase) :
      (entering state phase).late = state.late := by
    rcases quiet.unreturned with before | outside
    · simp [entering, before]
    · rw [outside] at open_
      cases open_
  cases turn with
  | ended => exact quiet
  | settled beside => exact quiet.beside beside rfl rfl _ _ _
  | abandoned beside => exact quiet.beside beside rfl rfl _ _ _
  | checked _ active => exact quiet.carry rfl rfl rfl rfl nofun (.inl active)
  | authorized at_ => exact quiet.carry rfl rfl rfl rfl nofun (.inl (quiet.active (by rw [at_]; rfl)))
  | model at_ =>
    exact quiet.carry rfl rfl rfl (entered (by rw [at_]; rfl) .responding) nofun (.inr ⟨rfl, rfl⟩)
  | answered => exact quiet.beside .same rfl rfl _ _ _
  | prepared => exact quiet.beside .same rfl rfl _ _ _
  | checkedCall _ active => exact quiet.carry rfl rfl rfl rfl nofun (.inl active)
  | authorizedCall at_ =>
    exact quiet.carry rfl rfl rfl rfl nofun (.inl (quiet.active (by rw [at_]; rfl)))
  | registered at_ =>
    exact quiet.carry rfl rfl rfl rfl (fun _ => rfl) (.inl (quiet.active (by rw [at_]; rfl)))
  | @process call rest at_ =>
    have open_ : state.phase.pastCheck = true := by rw [at_]; rfl
    have owned := quiet.registered (by rw [at_]; rfl)
    exact quiet.carry rfl rfl rfl (entered open_ (.running call rest)) (fun _ => owned)
      (.inl (quiet.active open_))
  | fed _ beside => exact quiet.beside beside rfl rfl _ _ _

variable {label : Label}

theorem Quiet.step (quiet : Quiet state) (unraced : Unraced state label) :
    Quiet (step loop state label) := by
  cases label with
  | advance answer => exact quiet.turn (advance_turn loop state answer)
  | cancel =>
    simp only [step, cancel]
    split
    · exact quiet
    · refine ⟨fun _ => unraced rfl, quiet.late, quiet.registered, ?_, ?_⟩
      · intro process read
        cases read
        exact ⟨rfl, fun running => quiet.registered (holdsProcess_of_running running)⟩
      · exact fun back => ⟨rfl, (quiet.returned back).2⟩
  | forward =>
    simp only [step, forward]
    split
    · exact quiet
    next process pending =>
      obtain ⟨stopped, known⟩ := quiet.forwarded process pending
      refine ⟨quiet.closed, quiet.late, quiet.registered, nofun, fun _ => ⟨stopped, ?_⟩⟩
      intro running
      simp [known running, running]

/-- In every interleaving whose cancellations stay out of the window between a stop check and the entry it
guards, nothing is entered after a cancellation returned, and a process that still runs then has
received it. -/
theorem cancelled_loop_enters_nothing (reached : (machine loop).Reached Unraced state) :
    state.late = 0 ∧ (state.returned = true → (∃ call rest, state.phase = .running call rest) →
      state.received = true) := by
  have quiet : Quiet state := by
    refine reached.invariant ?_ fun earlier label quiet unraced => quiet.step unraced
    constructor <;> simp [machine, Phase.holdsProcess]
  refine ⟨quiet.late, ?_⟩
  rintro back ⟨call, rest, at_⟩
  exact (quiet.returned back).2 (by rw [at_]; rfl)

section
omit [ConversationCodec]

/-- A process that runs when the loop is cancelled receives the cancellation. -/
theorem cancelled_loop_of_process : ∃ state, Sample.active.Reached Unraced state ∧
    state.returned = true ∧ state.phase.isRunning = true ∧ state.late = 0 ∧ state.received = true := by
  have reached : Sample.active.Reached Unraced (Sample.active.resume Sample.active.initial
      (Sample.steps 8 [⟨"a", "process_0"⟩] ++ [.cancel, .forward])) :=
    Machine.Reached.start.resume
      ⟨nofun, nofun, nofun, nofun, nofun, nofun, nofun, nofun, fun _ => rfl, nofun, trivial⟩
  obtain ⟨unentered, receives⟩ := @cancelled_loop_enters_nothing _ Sample.codec Sample.prepared reached
  exact ⟨_, reached, rfl, rfl, unentered, receives rfl ⟨_, _, rfl⟩⟩

/-- A cancellation that returns between a stop check and the entry behind it: the model request is entered
all the same. -/
theorem cancellation_overtaken : ¬ ∀ (loop : PreparedLoop) (state : LoopState),
    (@machine Sample.codec loop).Reached (fun _ _ => True) state →
      state.late = 0 ∧ (state.returned = true → (∃ call rest, state.phase = .running call rest) →
        state.received = true) := by
  intro stops
  have reached := Sample.active.reached_run
    (Sample.steps 1 [] ++ [.cancel, .forward] ++ Sample.steps 2 [])
  exact absurd (stops _ _ reached).1 (by decide)

end

/-! ### Settlement -/

/-- The calls a response asked for that are not yet counted. -/
def Phase.pending : Phase → Nat
  | .authorizeCall _ rest => rest.length + 1
  | .call rest | .tool _ rest | .registered _ rest | .running _ rest => rest.length
  | .round | .authorize | .enter | .responding | .ended _ => 0

/-- A bound on the steps the loop still takes. -/
def remaining (loop : PreparedLoop) (state : LoopState) : Nat :=
  let left := 10 * (loop.maximumCalls - state.calls)
  match state.phase with
  | .ended _ => 0
  | .call (_ :: _) => left
  | .authorizeCall _ _ => left - 1
  | .responding => left + 1
  | .enter => left + 2
  | .authorize => left + 3
  | .round => left + 4
  | .call [] => left + 5
  | .running _ _ => left + 6
  | .registered _ _ => left + 7
  | .tool _ _ => left + 8

/-- The calls asked for stay within the allowance. -/
def Counted (loop : PreparedLoop) (state : LoopState) : Prop :=
  state.calls + state.phase.pending ≤ loop.maximumCalls

theorem Turn.counted (turn : Turn loop state answer next) (counted : Counted loop state) :
    Counted loop next := by
  unfold Counted at *
  cases turn with
  | ended => exact counted
  | settled beside | abandoned beside =>
    simp only [settle, abandon, pending, beside.calls]
    omega
  | answered _ _ _ few => exact few
  | fed at_ beside =>
    simp only [pending, beside.calls]
    rcases at_ with at_ | at_ <;> simpa [at_, pending] using counted
  | _ =>
    simp_all [entering, pending]
    try omega

theorem Turn.remaining_lt (turn : Turn loop state answer next) (counted : Counted loop state)
    (active : ∀ result, state.phase ≠ .ended result) : remaining loop next < remaining loop state := by
  have positive : 0 < remaining loop state := by
    unfold Counted at counted
    unfold remaining
    split <;> simp_all [pending]
    all_goals omega
  unfold Counted at counted
  cases turn with
  | ended at_ => exact absurd at_ (active _)
  | settled | abandoned => exact positive
  | answered at_ calls some few =>
    obtain ⟨call, rest, rfl⟩ := List.exists_cons_of_ne_nil some
    simp only [remaining, at_]
    omega
  | @fed _ _ rest at_ beside =>
    rcases at_ with at_ | at_ <;> cases rest <;> simp only [remaining, at_, beside.calls] <;> omega
  | _ =>
    simp_all [remaining, entering, pending]
    try omega

def Settling (state : LoopState) : Prop :=
  match state.phase with
  | .ended result => result = .ok () ∧ state.terminals.length = 1
  | _ => state.terminals = []

theorem Turn.settling (turn : Turn loop state answer next) (silent : state.terminals = [])
    (active : ∀ result, state.phase ≠ .ended result) (convertible : Convertible state answer) :
    Settling next := by
  cases turn with
  | ended at_ => exact absurd at_ (active _)
  | settled beside => exact ⟨rfl, congrArg (List.length · + 1) (beside.terminals.trans silent)⟩
  | abandoned _ _ refused => exact absurd convertible refused
  | fed _ beside => exact beside.terminals.trans silent
  | _ => exact silent

def Converting (state : LoopState) (label : Label) : Prop :=
  ∀ answer, label = .advance answer → Convertible state answer

/-- The reports and the allowance together, over both threads. -/
theorem settling_step (holds : Settling state ∧ Counted loop state) (convertible : Converting state label) :
    Settling (step loop state label) ∧ Counted loop (step loop state label) := by
  obtain ⟨settling, counted⟩ := holds
  cases label with
  | advance answer =>
    have turn := advance_turn loop state answer
    refine ⟨?_, turn.counted counted⟩
    cases at_ : state.phase with
    | ended result => simpa only [step, advance, at_] using settling
    | _ =>
      apply turn.settling
      · simpa only [Settling, at_] using settling
      · simp [at_]
      · exact convertible answer rfl
  | cancel =>
    simp only [step, cancel]
    split
    · exact ⟨settling, counted⟩
    · exact ⟨settling, counted⟩
  | forward =>
    simp only [step, forward]
    split
    · exact ⟨settling, counted⟩
    · exact ⟨settling, counted⟩

/-- In every interleaving whose conversions all succeed, a loop that has ended has made exactly one terminal
report and returned success; until then it has made none, each of its steps brings its end nearer, and
no step of a cancellation puts it off. -/
theorem observed_loop_settles (reached : (machine loop).Reached Converting state) :
    (∀ result, state.phase = .ended result → result = .ok () ∧ state.terminals.length = 1) ∧
    ((∀ result, state.phase ≠ .ended result) → state.terminals = [] ∧
      ∀ answer, remaining loop (advance loop state answer) < remaining loop state) ∧
    remaining loop (cancel state) = remaining loop state ∧
    remaining loop (forward state) = remaining loop state := by
  obtain ⟨settling, counted⟩ : Settling state ∧ Counted loop state := by
    apply Machine.Reached.invariant _ _ reached
    · exact ⟨rfl, Nat.zero_le _⟩
    · exact fun _ _ holds convertible => settling_step holds convertible
  refine ⟨?_, ?_, ?_, ?_⟩
  · intro result at_
    simpa only [Settling, at_] using settling
  · intro active
    refine ⟨?_, fun answer => (advance_turn loop state answer).remaining_lt counted active⟩
    unfold Settling at settling
    split at settling
    · exact absurd ‹_› (active _)
    · exact settling
  · unfold cancel
    split <;> rfl
  · unfold forward
    split <;> rfl

omit [ConversationCodec] in
/-- A loop whose model answers without calls settles with its first request. -/
theorem observed_loop_of_answer : ∃ state, Sample.active.Reached (@Converting Sample.codec) state ∧
    state.phase = .ended (.ok ()) ∧ state.terminals.length = 1 := by
  have reached : Sample.active.Reached (@Converting Sample.codec)
      (Sample.active.resume Sample.active.initial (Sample.steps 4 [])) := by
    refine Machine.Reached.start.resume ⟨?_, ?_, ?_, ?_, trivial⟩
    all_goals rintro answer same; cases same
    · trivial
    · trivial
    · trivial
    · exact ⟨rfl, by decide, fun _ => ⟨_, rfl, List.nodup_nil⟩, rfl⟩
  have settles := (@observed_loop_settles _ Sample.codec Sample.prepared reached).1 (.ok ()) rfl
  exact ⟨_, reached, rfl, settles.2⟩

/-- Every nested request and tool of a step returned its outcome. -/
def Evident (_ : LoopState) (label : Label) : Prop :=
  ∀ answer, label = .advance answer → ∀ summary, answer.result ≠ .externalFailure summary

omit [ConversationCodec] in
/-- A model that repeats a call identity: the loop returns an error, with everything observed and no
terminal report. -/
theorem repeated_call_unsettled : ¬ ∀ (loop : PreparedLoop) (state : LoopState),
    (@machine Sample.codec loop).Reached Evident state →
      ∀ result, state.phase = .ended result → result = .ok () ∧ state.terminals.length = 1 := by
  intro settles
  have reached : Sample.active.Reached Evident (Sample.active.resume Sample.active.initial
        (Sample.steps 4 [⟨"a", "read_file"⟩, ⟨"a", "read_file"⟩])) := by
    refine Machine.Reached.start.resume ⟨?_, ?_, ?_, ?_, trivial⟩
    all_goals rintro answer same summary failed; cases same; cases failed
  exact absurd (settles _ _ reached _ rfl).2 (by decide)

/-! ### Termination -/

def Label.advances : Label → Bool
  | .advance _ => true
  | .cancel | .forward => false

/-- After so many of its own steps the loop has ended or is that much nearer its end. -/
def Winding (loop : PreparedLoop) (taken : Nat) (state : LoopState) : Prop :=
  Counted loop state ∧
    ((∃ result, state.phase = .ended result) ∨ remaining loop state + taken ≤ 10 * loop.maximumCalls + 4)

theorem Winding.step {taken : Nat} (winding : Winding loop taken state) (label : Label) :
    Winding loop (taken + label.advances.toNat) (step loop state label) := by
  obtain ⟨counted, nearer⟩ := winding
  cases label with
  | advance answer =>
    have turn := advance_turn loop state answer
    refine ⟨turn.counted counted, ?_⟩
    by_cases finished : ∃ result, state.phase = .ended result
    · obtain ⟨result, at_⟩ := finished
      exact .inl ⟨result, by simp only [ModelLoop.step, advance, at_]⟩
    · have less := turn.remaining_lt counted (not_exists.mp finished)
      have bound := nearer.resolve_left finished
      refine .inr ?_
      simp only [ModelLoop.step, Label.advances, Bool.toNat_true]
      omega
  | cancel =>
    simp only [ModelLoop.step, cancel]
    split <;> exact ⟨counted, nearer⟩
  | forward =>
    simp only [ModelLoop.step, forward]
    split <;> exact ⟨counted, nearer⟩

/-- Whatever model, tools and authority answer and whenever it is cancelled, a loop makes no more calls than
it was prepared for, and has ended after a bounded number of its own steps. -/
theorem loop_always_ends (loop : PreparedLoop) (labels : List Label) :
    let state := (machine loop).run labels
    state.calls ≤ loop.maximumCalls ∧
      (10 * loop.maximumCalls + 4 < labels.countP (·.advances) → ∃ result, state.phase = .ended result) := by
  have winding : Winding loop (labels.countP (·.advances)) ((machine loop).run labels) := by
    unfold Machine.run
    induction labels using List.reverseRecOn with
    | nil => exact ⟨Nat.zero_le _, .inr (Nat.le_refl _)⟩
    | append_singleton earlier label ih =>
      rw [List.foldl_append, List.countP_append, List.countP_singleton]
      have next := ih.step label
      cases label <;> exact next
  obtain ⟨counted, ended | bound⟩ := winding
  · exact ⟨Nat.le_of_add_right_le counted, fun _ => ended⟩
  · exact ⟨Nat.le_of_add_right_le counted, fun many => absurd bound (by omega)⟩

end Milkdrift.ModelLoop
