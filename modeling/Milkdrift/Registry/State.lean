/-
Purpose: The live registry of capability generations, and the permits their owners hold.
Trusted boundary: adapter hooks and contract checks answer through the labels; a poisoned lock is not
  modelled
-/
import Milkdrift.Runtime.Dispatch
import Milkdrift.Library.Checked
import Milkdrift.Library.Machine
import Milkdrift.Library.Tally
import Mathlib.Data.Prod.Lex

namespace Milkdrift.Registry

/-- The largest value of a 32-bit counter. -/
def u32Max : Nat := 4294967295

structure HostConfig where
  maxRegistrations : Nat
  maxGenerationsPerCapability : Nat
  maxConcurrentPerGeneration : Nat
  observationStaleAfterMs : Nat
  nonzero : maxRegistrations ≠ 0 ∧ maxGenerationsPerCapability ≠ 0 ∧
    maxConcurrentPerGeneration ≠ 0 ∧ observationStaleAfterMs ≠ 0
  bounded : maxConcurrentPerGeneration ≤ u32Max

inductive HostError where
  | invalidConfig
  | registryBound (which : String)
  | registrationInProgress (count : Nat)
  | registrationClosed
  | conflictingRevision (capability : CapabilityId) (descriptorRevision : Nat)
  | generationUnavailable (capability : CapabilityId) (descriptorRevision : Nat)
  | observationMismatch
  | observationRegressed
  | inFlight (count : Nat)
  | descriptor (reason : String)
deriving DecidableEq

abbrev GenerationKey := CapabilityId ×ₗ Nat

structure CapabilityObservation where
  capability : CapabilityId
  observedAtUnixMs : Nat
  available : Bool
deriving DecidableEq

/-- One registered generation. `registration` numbers the registration that put it in, which in the
source is told apart by the adapter it holds. -/
structure Generation where
  descriptor : CapabilityDescriptor
  registration : Nat
  observation : Option CapabilityObservation
  draining : Bool
  active : Nat
  pending : Nat
  pendingLimit : Option Nat
  permitLimit : Nat
  lastFailure : Option String

structure RegistryState where
  admissionOpen : Bool
  shutdown : Bool
  starting : Finset GenerationKey
  generations : SortedMap GenerationKey Generation
  current : SortedMap CapabilityId Nat
  inFlight : SortedMap InvocationId GenerationKey
  pending : SortedMap InvocationId GenerationKey

def RegistryState.new : RegistryState where
  admissionOpen := true
  shutdown := false
  starting := ∅
  generations := .empty
  current := .empty
  inFlight := .empty
  pending := .empty

/-- Live capacity of one invocation, from preparation until it is dropped. -/
structure Permit where
  registration : Nat
  key : GenerationKey
  invocation : InvocationId
  failure : Option String

namespace RegistryState

/-! ### Registration -/

def updateCurrent (state : RegistryState) (capability : CapabilityId) : RegistryState :=
  let revisions := (state.generations.entries.filter fun entry =>
    (ofLex entry.1).1 = capability && !entry.2.draining).map fun entry => (ofLex entry.1).2
  { state with
    current :=
      match revisions.max? with
      | some revision => state.current.insert capability revision
      | none => state.current.erase capability }

variable (state : RegistryState) (capability : CapabilityId)

@[simp] theorem updateCurrent_generations :
    (state.updateCurrent capability).generations = state.generations := rfl

@[simp] theorem updateCurrent_inFlight : (state.updateCurrent capability).inFlight = state.inFlight := rfl

@[simp] theorem updateCurrent_pending : (state.updateCurrent capability).pending = state.pending := rfl

@[simp] theorem updateCurrent_starting : (state.updateCurrent capability).starting = state.starting := rfl

def validateRegistrationCapacity (config : HostConfig) (state : RegistryState) (key : GenerationKey) :
    Except HostError Unit := do
  ensure (state.generations.size + state.starting.card < config.maxRegistrations)
    (.registryBound "total registrations")
  let retained := (state.generations.keys.filter fun existing => (ofLex existing).1 = (ofLex key).1).length +
    (state.starting.filter fun existing => (ofLex existing).1 = (ofLex key).1).card
  ensure (retained < config.maxGenerationsPerCapability) (.registryBound "retained generations")

/-- The first half of a registration. An identical descriptor is already registered and nothing is
reserved; otherwise the key is reserved while the adapter starts. -/
def reserve (config : HostConfig) (state : RegistryState) (descriptor : CapabilityDescriptor)
    (observation : Option CapabilityObservation) : Except HostError (Option RegistryState) := do
  ensure (observation.all fun observed => decide (observed.capability = descriptor.identity))
    .observationMismatch
  let key : GenerationKey := toLex (descriptor.identity, descriptor.descriptorRevision)
  ensure (state.admissionOpen = true ∧ state.shutdown = false) .registrationClosed
  match state.generations.get? key with
  | some existing =>
    ensure (existing.descriptor = descriptor)
      (.conflictingRevision descriptor.identity descriptor.descriptorRevision)
    .ok none
  | none =>
    ensure (key ∉ state.starting) (.registrationInProgress state.starting.card)
    state.validateRegistrationCapacity config key
    .ok (some { state with starting := insert key state.starting })

/-- Give up a reservation, as its owner does on every failure after it. -/
def abandon (state : RegistryState) (key : GenerationKey) : RegistryState :=
  { state with starting := state.starting.erase key }

def complete (config : HostConfig) (state : RegistryState) (descriptor : CapabilityDescriptor)
    (observation : Option CapabilityObservation) (pendingLimit : Option Nat) (registration : Nat) :
    Except HostError RegistryState := do
  ensure (pendingLimit ≠ some 0) .invalidConfig
  ensure (state.admissionOpen = true ∧ state.shutdown = false) .registrationClosed
  let key : GenerationKey := toLex (descriptor.identity, descriptor.descriptorRevision)
  let generation : Generation := {
    descriptor
    registration
    observation
    draining := false
    active := 0
    pending := 0
    pendingLimit
    permitLimit := min descriptor.maxConcurrent config.maxConcurrentPerGeneration
    lastFailure := none }
  .ok ({ state with
    starting := state.starting.erase key
    generations := state.generations.insert key generation }.updateCurrent descriptor.identity)

def updateObservation (state : RegistryState) (capability : CapabilityId) (revision : Nat)
    (observation : CapabilityObservation) : Except HostError RegistryState := do
  ensure (observation.capability = capability) .observationMismatch
  let key : GenerationKey := toLex (capability, revision)
  let generation ← require (state.generations.get? key) (.generationUnavailable capability revision)
  ensure (generation.observation.all fun prior =>
    decide (prior.observedAtUnixMs ≤ observation.observedAtUnixMs)) .observationRegressed
  .ok { state with
    generations := state.generations.insert key { generation with observation := some observation } }

/-! ### Permits -/

/-- Take a permit of the exact generation an invocation is bound to. `validRequest` and `validAgainst`
are the answers of the snapshot's checks of the request and of the registered descriptor. -/
def acquire (state : RegistryState) (snapshot : ResolvedCapabilitySnapshot) (invocation : InvocationId)
    (validRequest validAgainst : Except String Unit) :
    Except ExecutorError (Permit × RegistryState) := do
  withRefusal .invalidDispatch validRequest
  let key : GenerationKey := toLex (snapshot.capability, snapshot.descriptorRevision)
  ensure (state.admissionOpen = true ∧ state.shutdown = false) .admissionClosed
  ensure (state.inFlight.contains invocation = false ∧ state.pending.contains invocation = false)
    (.overloaded "invocation already owns a generation permit")
  let generation ← require (state.generations.get? key)
    (.unavailableGeneration snapshot.capability snapshot.descriptorRevision)
  withRefusal .contract validAgainst
  ensure (generation.active < generation.permitLimit ∧ generation.pendingLimit.all fun limit =>
      decide (min (generation.active + generation.pending) u32Max < limit))
    (.capacityUnavailable s!"{snapshot.capability.text}/{snapshot.descriptorRevision}")
  .ok (⟨generation.registration, key, invocation, none⟩, { state with
      generations := state.generations.insert key
        { generation with active := min (generation.active + 1) u32Max }
      inFlight := state.inFlight.insert invocation key })

/-- The drop of a permit. A permit whose entry is gone or belongs to another key releases nothing, but
whatever entry its invocation has is removed. -/
def release (state : RegistryState) (permit : Permit) : RegistryState :=
  let removed := { state with inFlight := state.inFlight.erase permit.invocation }
  if state.inFlight.get? permit.invocation = some permit.key then
    { removed with
      generations := removed.generations.modify permit.key fun generation =>
        { generation with
          active := generation.active - 1
          lastFailure := (permit.failure.map (truncateUtf8 · 512)).or generation.lastFailure } }
  else removed

/-! ### Draining and shutdown -/

def beginDrain (state : RegistryState) (capability : CapabilityId) (revision : Nat) :
    Except HostError RegistryState := do
  let key : GenerationKey := toLex (capability, revision)
  let generation ← require (state.generations.get? key) (.generationUnavailable capability revision)
  .ok ({ state with
    generations := state.generations.insert key { generation with draining := true } }.updateCurrent
      capability)

def finishDrain (state : RegistryState) (capability : CapabilityId) (revision : Nat) :
    Except HostError RegistryState := do
  let key : GenerationKey := toLex (capability, revision)
  let generation ← require (state.generations.get? key) (.generationUnavailable capability revision)
  ensure (generation.draining = true) (.descriptor "generation must be draining before removal")
  ensure (generation.active = 0 ∧ generation.pending = 0)
    (.inFlight (min (generation.active + generation.pending) u32Max))
  .ok ({ state with generations := state.generations.erase key }.updateCurrent capability)

def forceRemove (state : RegistryState) (capability : CapabilityId) (revision : Nat) :
    Except HostError RegistryState := do
  let key : GenerationKey := toLex (capability, revision)
  let _ ← require (state.generations.get? key) (.generationUnavailable capability revision)
  .ok ({ state with
    generations := state.generations.erase key
    inFlight := state.inFlight.filter fun _ owner => decide (owner ≠ key)
    pending := state.pending.filter fun _ owner => decide (owner ≠ key) }.updateCurrent capability)

def beginShutdown (state : RegistryState) : RegistryState :=
  if state.shutdown then state
  else
    { state with
      admissionOpen := false
      shutdown := true
      current := .empty
      generations := state.generations.mapValues fun generation => { generation with draining := true } }

def finishShutdown (state : RegistryState) : Except HostError RegistryState := do
  ensure (state.starting = ∅) (.registrationInProgress state.starting.card)
  let active := state.generations.sumOf fun generation =>
    min (generation.active + generation.pending) u32Max
  ensure (active = 0) (.inFlight active)
  .ok { state with inFlight := .empty, pending := .empty, generations := .empty }

def forceShutdown (state : RegistryState) : Except HostError RegistryState := do
  ensure (state.starting = ∅) (.registrationInProgress state.starting.card)
  .ok { state with inFlight := .empty, pending := .empty, current := .empty, generations := .empty }

end RegistryState

/-! ### The machine -/

/-- A registration between its two halves. -/
structure Reservation where
  descriptor : CapabilityDescriptor
  observation : Option CapabilityObservation

/-- The registry together with what its clients hold: permits that were issued and not yet dropped, and
registrations whose adapter is starting. `issued` numbers permits and registrations. -/
structure Host where
  state : RegistryState
  permits : SortedMap Nat Permit
  reservations : SortedMap GenerationKey Reservation
  issued : Nat

/-- What a client does next. The answers of adapters and contract checks are part of the label. -/
inductive Operation where
  | reserve (descriptor : CapabilityDescriptor) (observation : Option CapabilityObservation)
  | complete (key : GenerationKey) (pendingLimit : Option Nat)
  | abandon (key : GenerationKey)
  | updateObservation (capability : CapabilityId) (revision : Nat) (observation : CapabilityObservation)
  | acquire (snapshot : ResolvedCapabilitySnapshot) (invocation : InvocationId)
      (validRequest validAgainst : Except String Unit)
  | markFailure (permit : Nat) (summary : String)
  | drop (permit : Nat)
  | settle
  | beginDrain (capability : CapabilityId) (revision : Nat)
  | finishDrain (capability : CapabilityId) (revision : Nat)
  | forceRemove (capability : CapabilityId) (revision : Nat)
  | beginShutdown
  | finishShutdown
  | forceShutdown

namespace Host

def commit (host : Host) (result : Except HostError RegistryState) : Host :=
  match result with
  | .ok state => { host with state }
  | .error _ => host

def grant (host : Host) (result : Except ExecutorError (Permit × RegistryState)) : Host :=
  match result with
  | .ok (permit, state) =>
    { host with
      state
      permits := host.permits.insert host.issued permit
      issued := host.issued + 1 }
  | .error _ => host

/-- One operation of a client. A permit or reservation that is not held cannot be used, and a shutdown
ends only after it has begun. -/
def step (config : HostConfig) (host : Host) : Operation → Host
  | .reserve descriptor observation =>
    match host.state.reserve config descriptor observation with
    | .ok (some state) =>
      { host with
        state
        reservations := host.reservations.insert
          (toLex (descriptor.identity, descriptor.descriptorRevision)) ⟨descriptor, observation⟩ }
    | _ => host
  | .complete key pendingLimit =>
    match host.reservations.get? key with
    | none => host
    | some ⟨descriptor, observation⟩ =>
      match host.state.complete config descriptor observation pendingLimit host.issued with
      | .ok state =>
        { host with
          state
          reservations := host.reservations.erase key
          issued := host.issued + 1 }
      | .error _ =>
        { host with
          state := host.state.abandon key
          reservations := host.reservations.erase key }
  | .abandon key =>
    match host.reservations.get? key with
    | none => host
    | some _ =>
      { host with
        state := host.state.abandon key
        reservations := host.reservations.erase key }
  | .updateObservation capability revision observation =>
    host.commit (host.state.updateObservation capability revision observation)
  | .acquire snapshot invocation validRequest validAgainst =>
    host.grant (host.state.acquire snapshot invocation validRequest validAgainst)
  | .markFailure permit summary =>
    { host with permits := host.permits.modify permit fun held =>
      { held with failure := some summary } }
  | .drop permit =>
    match host.permits.get? permit with
    | none => host
    | some held =>
      { host with
        state := host.state.release held
        permits := host.permits.erase permit }
  | .settle => host
  | .beginDrain capability revision => host.commit (host.state.beginDrain capability revision)
  | .finishDrain capability revision => host.commit (host.state.finishDrain capability revision)
  | .forceRemove capability revision => host.commit (host.state.forceRemove capability revision)
  | .beginShutdown => { host with state := host.state.beginShutdown }
  | .finishShutdown => if host.state.shutdown then host.commit host.state.finishShutdown else host
  | .forceShutdown => if host.state.shutdown then host.commit host.state.forceShutdown else host

end Host

def machine (config : HostConfig) : Machine Host Operation where
  initial := ⟨.new, .empty, .empty, 0⟩
  step := Host.step config

/-! ### A small host -/

def sampleOperation : OperationId := ⟨⟨"tool.run", by decide⟩, by decide⟩
def sampleContract : OperationContract := ⟨.unsupported, .readOnly, by decide⟩

def sampleDescriptor : CapabilityDescriptor where
  identity := ⟨"tool", by decide⟩
  descriptorRevision := 1
  providerProfile := none
  category := .process
  operations := .ofList [(sampleOperation, sampleContract)]
  maxConcurrent := 2
  locality := .local
  peer := none
  trustZones := ∅
  executionTrust := .unspecified
  resourceObservations := none
  revision_nonzero := by decide
  operations_bounded := by decide
  concurrent_nonzero := by decide
  peer_locality := by decide
  zones_bounded := by decide

def sampleConfig : HostConfig where
  maxRegistrations := 4
  maxGenerationsPerCapability := 2
  maxConcurrentPerGeneration := 2
  observationStaleAfterMs := 1000
  nonzero := by decide
  bounded := by decide

end Milkdrift.Registry
