/-
Purpose: When a stop reaches the peer's execution, and when disconnection wins over concurrent connects.
-/
import Milkdrift.Library.Machine

namespace Milkdrift.Remote

/-- Where `execute_prepared` is: staging its inputs, submitting with so many attempts left before the lookup,
before it registers the accepted execution, at the head of the observation loop, at a page. -/
inductive Phase where
  | staging
  | submitting (attempts : Nat)
  | accepted
  | observing
  | asked
  | left

structure RemoteState where
  phase : Phase
  stopRequested : Bool
  active : Bool
  accepted : Bool
  ended : Bool
  sent : Bool
  recorded : Bool

/-- The peer's answer: a submission accepted or a page still open; a page closed with its terminal; the
archived history, with or without one; a transport failure; a refusal, an unknown execution or a page
closed without evidence. -/
inductive Reply where
  | ongoing
  | terminal
  | archived (terminal : Bool)
  | lost
  | gone

/-- What the surroundings answer at one step: whether lifecycle, clock, deadline, inputs, page order, output
imports and reports let it go on, whether lease and allowance let a heartbeat pass, and whether a
submission arrives and is accepted, whatever the reply. -/
structure Answer where
  proceeds : Bool
  renewed : Bool
  arrives : Bool
  reply : Reply

/-- A step of the adapter, the commit of a stop request, the cancellation worker's call, or the end of the
execution at the peer. -/
inductive Label where
  | advance (answer : Answer)
  | stop
  | cancel
  | finish

def goes (state : RemoteState) (answer : Answer) : Bool :=
  answer.proceeds && answer.renewed && !state.stopRequested

def leave (state : RemoteState) : RemoteState := { state with phase := .left, active := false }

def receive (state : RemoteState) (answer : Answer) : RemoteState :=
  match state.phase, answer.reply with
  | .staging, _ => { state with phase := .submitting 3 }
  | .submitting _, .ongoing => { state with phase := .accepted, accepted := true }
  | .submitting (left + 1), .lost =>
    { state with phase := .submitting left, accepted := state.accepted || answer.arrives }
  | .submitting (_ + 1), .gone => leave { state with accepted := state.accepted || answer.arrives }
  | .observing, _ => { state with phase := .asked }
  | .asked, .ongoing | .asked, .lost => { state with phase := .observing }
  | .asked, .terminal => leave { state with ended := true, recorded := true }
  | _, .archived terminal => leave { state with accepted := true, ended := state.ended || terminal }
  | _, _ => leave state

def advance (state : RemoteState) (answer : Answer) : RemoteState :=
  match state.phase with
  | .left => state
  | .accepted => { state with phase := .observing, active := true }
  | _ => if goes state answer then receive state answer else leave state

def step (state : RemoteState) : Label → RemoteState
  | .advance answer => advance state answer
  | .stop => { state with stopRequested := true }
  | .cancel => { state with sent := state.sent || (state.stopRequested && state.active) }
  | .finish => { state with ended := state.ended || state.accepted }

def machine : Machine RemoteState Label where
  initial := ⟨.staging, false, false, false, false, false, false⟩
  step := step

/-- Whether the adapter stays with the execution after a reply, or knows its end. -/
def keeps : Phase → Reply → Bool
  | .submitting 0, .lost | .submitting _, .terminal | _, .gone | _, .archived false => false
  | _, _ => true

/-- Until an accepted execution has ended or its cancellation was sent, no heartbeat is refused, and no
answer makes the adapter give up. -/
def Reaching (state : RemoteState) (label : Label) : Prop :=
  state.sent = false → state.ended = false → ∀ answer, label = .advance answer →
    (state.accepted = true → state.phase ≠ .accepted → goes state answer = true) ∧
      (state.accepted = true ∨ answer.arrives = true ∨ answer.reply = .archived false →
        keeps state.phase answer.reply = true)

/-- Nothing is accepted while the inputs are staged, and an accepted execution is left ended, cancelled or
with its evidence. -/
structure Answered (state : RemoteState) : Prop where
  staged : state.phase = .staging → state.accepted = false
  left : state.phase = .left → state.accepted = true →
    state.ended = true ∨ state.sent = true ∨ state.recorded = true

variable {state : RemoteState} {answer : Answer}

theorem Answered.advance (answered : Answered state) (reaching : Reaching state (.advance answer)) :
    Answered (advance state answer) := by
  have stays := fun unsent open_ => reaching unsent open_ answer rfl
  unfold Remote.advance
  split
  · exact answered
  · exact ⟨nofun, nofun⟩
  split
  · unfold receive
    rcases at_ : state.phase with _ | (_ | _) | _ | _ | _ | _ <;> cases told : answer.reply
    all_goals exact ⟨nofun, by grind [leave, keeps]⟩
  · exact ⟨nofun, by grind [leave]⟩

theorem Answered.marked (answered : Answered state) (sent ended : Bool) :
    Answered { state with sent := state.sent || sent, ended := state.ended || ended } := by
  refine ⟨answered.staged, fun at_ taken => ?_⟩
  have known := answered.left at_ taken
  simp only [Bool.or_eq_true]
  tauto

/-- Steps of an adapter whose submission is accepted and whose pages stay open. -/
def observed (count : Nat) : List Label := List.replicate count (.advance ⟨true, true, true, .ongoing⟩)

end Milkdrift.Remote

namespace Milkdrift.Remote

/-- Where a call of `connect_peer` is: past the check, with the generation of a catalog, or at its end. -/
inductive Stage where
  | checked
  | fetched (generation : Nat)
  | closed

/-- A connect, and how many calls had taken effect when it began. -/
structure Connect where
  stage : Stage
  begun : Nat

/-- The generation the peer publishes, the revocation mark, when the connects began that registered what is
active in the local registry, and all connects; then how many calls have taken effect, how many had after the
last disconnection, whether a revocation has returned, and the generation applied last. -/
structure PeerState where
  published : Nat
  revokedPeers : Bool
  active : List Nat
  connects : List Connect
  effects : Nat
  disconnected : Nat
  revoked : Bool
  latest : Nat

/-- `begin` is the check of `connect_peer`, and `fetch`, `apply` and `fail` are its rest; `mark` and `revoke`
are the last steps of `revoke_peer`. -/
inductive Event where
  | publish
  | begin
  | fetch (index : Nat)
  | apply (index : Nat) (kept : Bool)
  | fail (index : Nat)
  | disconnect
  | mark
  | revoke

namespace PeerState

def disconnect (state : PeerState) : PeerState :=
  { state with active := [], effects := state.effects + 1, disconnected := state.effects + 1 }

def moveTo (state : PeerState) (index begun : Nat) (stage : Stage) : PeerState :=
  { state with connects := state.connects.set index ⟨stage, begun⟩ }

def advance (state : PeerState) : Event → PeerState
  | .publish => { state with published := state.published + 1 }
  | .begin =>
    if state.revokedPeers then state
    else { state with connects := ⟨.checked, state.effects⟩ :: state.connects }
  | .fetch index =>
    match state.connects[index]? with
    | some ⟨.checked, begun⟩ => state.moveTo index begun (.fetched state.published)
    | _ => state
  | .apply index kept =>
    match state.connects[index]? with
    | some ⟨.fetched generation, begun⟩ =>
      -- what other catalogs registered stays where the entry is unchanged or another one is refused
      { state.moveTo index begun .closed with
        active := begun :: if kept then state.active else []
        effects := state.effects + 1
        latest := generation }
    | _ => state
  -- a connect that fails, at whatever point, drains what is registered
  | .fail index =>
    match state.connects[index]? with
    | some connect => { state.moveTo index connect.begun .closed with active := [] }
    | none => state
  | .disconnect => state.disconnect
  | .mark => { state with revokedPeers := true }
  | .revoke => if state.revokedPeers then { state.disconnect with revoked := true } else state

end PeerState

def connecting : Machine PeerState Event := ⟨⟨0, false, [], [], 0, 0, false, 0⟩, PeerState.advance⟩

/-- No catalog is applied by a connect since whose beginning another call has taken effect. -/
def Undisturbed (state : PeerState) : Event → Prop
  | .apply index _ => ∀ connect, state.connects[index]? = some connect → connect.begun = state.effects
  | _ => True

def Timely (state : PeerState) (connect : Connect) : Prop :=
  connect.begun ≤ state.effects ∧ (state.revoked = true → connect.begun < state.effects) ∧
    ∀ generation, connect.stage = .fetched generation → generation ≤ state.published ∧
      (connect.begun = state.effects → state.latest ≤ generation)

structure Orderly (state : PeerState) : Prop where
  shut : state.revoked = true → state.revokedPeers = true ∧ state.active = []
  connects : ∀ connect ∈ state.connects, Timely state connect
  active : ∀ begun ∈ state.active, state.disconnected ≤ begun
  disconnected : state.disconnected ≤ state.effects
  latest : state.latest ≤ state.published

variable {state : PeerState}

/-- Once another call has taken effect, a connect under way began too early. -/
theorem Timely.effect {connect : Connect} {state' : PeerState} (timely : Timely state connect)
    (later : state'.effects = state.effects + 1) (same : state'.published = state.published) :
    Timely state' connect := by
  obtain ⟨begun, -, fetched⟩ := timely
  refine ⟨by omega, fun _ => by omega, fun generation has => ⟨?_, fun now => by omega⟩⟩
  exact same ▸ (fetched generation has).1

theorem Orderly.disconnect (orderly : Orderly state) : Orderly state.disconnect where
  shut revoked := ⟨(orderly.shut revoked).1, rfl⟩
  connects connect member := (orderly.connects connect member).effect rfl rfl
  active := by simp [PeerState.disconnect]
  disconnected := Nat.le_refl _
  latest := orderly.latest

theorem Orderly.moveTo {index : Nat} {connect : Connect} {stage : Stage} (orderly : Orderly state)
    (located : state.connects[index]? = some connect)
    (newest : ∀ generation, stage = .fetched generation → generation = state.published) :
    Orderly (state.moveTo index connect.begun stage) := by
  refine { orderly with connects := fun other member => ?_ }
  rcases List.mem_or_eq_of_mem_set member with old | rfl
  · exact orderly.connects other old
  · obtain ⟨begun, early, -⟩ := orderly.connects connect (List.mem_of_getElem? located)
    refine ⟨begun, early, fun generation has => ?_⟩
    rw [newest generation has]
    exact ⟨Nat.le_refl _, fun _ => orderly.latest⟩

theorem Orderly.advance (event : Event) (orderly : Orderly state) (undisturbed : Undisturbed state event) :
    Orderly (state.advance event) ∧ state.latest ≤ (state.advance event).latest := by
  have same : Orderly state ∧ state.latest ≤ state.latest := ⟨orderly, Nat.le_refl _⟩
  cases event <;> simp only [PeerState.advance]
  case publish =>
    refine ⟨{ orderly with latest := Nat.le_succ_of_le orderly.latest, connects := ?_ }, Nat.le_refl _⟩
    intro connect member
    obtain ⟨begun, early, fetched⟩ := orderly.connects connect member
    exact ⟨begun, early, fun generation has => (fetched generation has).imp_left Nat.le_succ_of_le⟩
  case begin =>
    split
    · exact same
    next unmarked =>
      refine ⟨{ orderly with connects := fun connect member => ?_ }, Nat.le_refl _⟩
      rcases List.mem_cons.mp member with rfl | old
      · exact ⟨Nat.le_refl _, fun revoked => absurd (orderly.shut revoked).1 unmarked, by simp⟩
      · exact orderly.connects connect old
  case fetch index =>
    split
    next located =>
      exact ⟨orderly.moveTo located (by simp), Nat.le_refl _⟩
    · exact same
  case apply index kept =>
    split
    next generation begun located =>
      have now : begun = state.effects := undisturbed _ located
      obtain ⟨-, early, fetched⟩ := orderly.connects _ (List.mem_of_getElem? located)
      refine ⟨⟨fun revoked => ?_, fun connect member => ?_, ?_, ?_, (fetched generation rfl).1⟩,
        (fetched generation rfl).2 now⟩
      · -- a connect under way when the peer was revoked began before that
        exact absurd now (Nat.ne_of_lt (early revoked))
      · exact ((orderly.moveTo located (by simp)).connects connect member).effect rfl rfl
      · have late : state.disconnected ≤ begun := now ▸ orderly.disconnected
        cases kept
        · simpa [PeerState.moveTo] using late
        · simpa [PeerState.moveTo, late] using orderly.active
      · exact Nat.le_succ_of_le orderly.disconnected
    · exact same
  case fail index =>
    split
    next located =>
      exact ⟨{ orderly.moveTo located (by simp) with
        shut := fun revoked => ⟨(orderly.shut revoked).1, rfl⟩, active := by simp }, Nat.le_refl _⟩
    · exact same
  case disconnect => exact ⟨orderly.disconnect, Nat.le_refl _⟩
  case mark => exact ⟨{ orderly with shut := fun revoked => ⟨rfl, (orderly.shut revoked).2⟩ }, Nat.le_refl _⟩
  case revoke =>
    split
    next marked =>
      refine ⟨{ orderly.disconnect with shut := fun _ => ⟨marked, rfl⟩, connects := ?_ }, Nat.le_refl _⟩
      exact fun connect member => (orderly.connects connect member).effect rfl rfl
    · exact same

/-- In a run in which no catalog is applied by a connect that another call overtook, nothing of a revoked peer
is active, what is active was registered by connects begun after the last disconnection, and no older catalog
replaces a newer one. -/
theorem disconnection_wins (reached : connecting.Reached Undisturbed state) :
    (state.revoked = true → state.active = []) ∧ (∀ begun ∈ state.active, state.disconnected ≤ begun) ∧
      ∀ event, Undisturbed state event → state.latest ≤ (connecting.step state event).latest := by
  have orderly : Orderly state := by
    apply reached.invariant
    · constructor <;> simp [connecting]
    · exact fun state event orderly undisturbed => (orderly.advance event undisturbed).1
  exact ⟨fun revoked => (orderly.shut revoked).2, orderly.active,
    fun event undisturbed => (orderly.advance event undisturbed).2⟩

def reconnection : List Event := [.disconnect, .publish, .begin, .fetch 0, .apply 0 false]

theorem disconnection_wins_connected :
    (connecting.run reconnection).active = [1] ∧ (connecting.run reconnection).disconnected ≤ 1 := by
  have reached : connecting.Reached Undisturbed (connecting.run reconnection) := by
    apply Machine.Reached.start.resume
    simp [reconnection, Machine.Meets, Undisturbed, connecting, PeerState.advance, PeerState.moveTo,
      PeerState.disconnect]
  exact ⟨rfl, (disconnection_wins reached).2.1 1 (List.mem_singleton_self 1)⟩

/-- A connect that passed the check before the peer was revoked applies its catalog after the revocation has
returned. -/
theorem revoked_peer_active :
    ¬ ∀ events, (connecting.run events).revoked = true → (connecting.run events).active = [] := by
  intro always
  have inactive := always [.publish, .begin, .fetch 0, .mark, .revoke, .apply 0 false] rfl
  cases inactive

end Milkdrift.Remote
