/-
Purpose: When an accepted execution enters, what of its hold is there.
-/
import Milkdrift.Managed.Holds
import Milkdrift.Serving.Server

namespace Milkdrift.Managed

open ManagedExecution List

open Serving (PeerExecutionId)

section
variable [ManagedContracts] {ledger : Ledger} {store store' : ManagedStore}

/-- The holds are in order and every execution that may still enter has its own. -/
def Secured (store : ManagedStore) : Prop :=
  Holds store.ledger store ∧ Guarded store.ledger store

theorem reached_secured (reached : managing.Reached ReleasesEnded store) : Secured store := by
  refine reached.invariant ?_ ?_
  · refine ⟨Holds.initial, ?_⟩
    intro id acceptance known
    cases id <;> cases known
  · intro state operation ⟨holds, guarded⟩ met
    obtain ⟨holds, _, secures⟩ := commit_holds holds operation
    exact ⟨holds, (secures met guarded).1⟩

/-- In every run that releases a use only once its execution entered or ended, whenever the entry of an
execution with a binding becomes durable, its use is there, reserved, and owns its editing claims on
an open installation without a pending change. -/
theorem entry_commits_with_hold (reached : managing.Reached ReleasesEnded store) (operation : Operation)
    (met : ReleasesEnded store operation) {id : UseId} {acceptance : Acceptance}
    (accepted : store.ledger id = some acceptance) (unentered : acceptance.entered = false)
    {acceptance' : Acceptance} (durable : (commit store operation).ledger id = some acceptance')
    (bound : acceptance'.selection.binding ≠ none) (entered : acceptance'.entered = true) :
    ∃ record usage, (commit store operation).installations.get? record.name = some record ∧
      record.admissionOpen = true ∧ record.pending = none ∧ usage ∈ record.uses ∧ usage.id = id ∧
      usage.entryCommitted = true ∧ usage.phase = .reserved ∧ usage.ownsEditing = true := by
  obtain ⟨holds, guarded⟩ := reached_secured reached
  obtain ⟨record, usage, found, isOpen, member, same, committed, reserved, owns⟩ :=
    ((commit_holds holds operation).2.2 met guarded).2 id acceptance' durable bound entered (by
      intro known at_
      cases accepted.symm.trans at_
      exact unentered)
  have orderly := (commit_holds holds operation).1.orderly _ _ found
  exact ⟨record, usage, found, isOpen, orderly.exclusive (List.ne_nil_of_mem member), member, same,
    committed, reserved, owns⟩

end

/-! ### A sample installation -/

@[reducible] def lenientContracts : ManagedContracts where
  canonicalDigest := fun _ => true
  request := fun _ => .ok ()
  setup := fun _ => true
  validateAgainst := fun _ _ => .ok ()
  requirePass := fun _ _ _ => .ok ()

namespace Sample

def tools : ManagedName := ⟨"tools", by decide⟩
def database : ManagedName := ⟨"database", by decide⟩
def execution : PeerExecutionId := ⟨"execution", .refl true⟩
def capability : CapabilityId := ⟨"capability", .refl true⟩

def allows (operation : OperationId) : Authority.AuthorityDecisionSnapshot where
  __ := Serving.Sample.decision
  request := { Serving.Sample.decision.request with
    operation := .administerCapabilities
    resources := { Authority.RequestedResourceFacts.empty with
      capability := some ⟨"managed.tools", by decide⟩
      capabilityOperation := some operation } }

def setup : ApprovedSetup where
  protection := none
  recipe := "recipe"
  configuration := ⟨"null"⟩
  platformOwner := "root"
  ownership := "tools"
  resources := [⟨database, .service, "database.service", .owned⟩]
  capabilities := [⟨capability, 1, "descriptor"⟩]

def selection : ManagedSelection where
  capability
  descriptorRevision := 1
  digest := "selection"
  binding := some (.ok ⟨tools, 1, "recipe", [⟨database, false⟩]⟩)

/-- The installation is applied in one step, and its service runs. -/
def installed : List Operation :=
  [.beginChange 4 ⟨⟨"apply", by decide⟩, tools, 0, .apply "recipe"⟩
      (allows ⟨⟨"resource.apply", by decide⟩, by decide⟩) ⟨none, "change", setup, 1, [.configure], false, true⟩,
    .advanceChange tools "change" 0 ⟨"digest", "configured", true⟩]

def resolve (command : ManagedName) (version : Nat) (execution : PeerExecutionId) (claim : Nat) : Operation :=
  .resolve ⟨command, tools, version, .resolve (.serving execution) claim⟩
    (allows ⟨⟨"resource.resolve", by decide⟩, by decide⟩)

def accepted : List Operation :=
  installed ++ [.acceptServing execution selection]

def fenced : List Operation :=
  accepted ++ [resolve ⟨"resolve", by decide⟩ 3 execution 1,
    .quiesceUse (.serving execution) 2 ⟨"database.service", "digest", true⟩,
    .releaseUse (.serving execution) 2]

def managed (operations : List Operation) : ManagedStore :=
  (@managing lenientContracts).run operations

def hasEntered (store : ManagedStore) (execution : PeerExecutionId) : Option Bool :=
  (store.ledger (.serving execution)).map (·.entered)

end Sample

/-- The entry of the accepted sample execution has its hold. -/
theorem accepted_execution_enters_held :
    ∃ record usage, (@commit lenientContracts (Sample.managed Sample.accepted)
        (.enterServing Sample.execution)).installations.get? record.name = some record ∧
      record.admissionOpen = true ∧ record.pending = none ∧ usage ∈ record.uses ∧
      usage.id = .serving Sample.execution ∧ usage.entryCommitted = true ∧ usage.phase = .reserved ∧
      usage.ownsEditing = true := by
  have before : ((Sample.managed Sample.accepted).ledger (.serving Sample.execution)).map
      (·.entered) = some false := by decide +kernel
  have after : ((@commit lenientContracts (Sample.managed Sample.accepted)
      (.enterServing Sample.execution)).ledger (.serving Sample.execution)).map
        (fun acceptance => (acceptance.selection.binding.isSome, acceptance.entered)) =
          some (true, true) := by decide +kernel
  obtain ⟨acceptance, known, unentered⟩ := Option.map_eq_some_iff.mp before
  obtain ⟨acceptance', durable, facts⟩ := Option.map_eq_some_iff.mp after
  obtain ⟨bound, entered⟩ := Prod.mk.inj facts
  have reached : (@managing lenientContracts).Reached ReleasesEnded (Sample.managed Sample.accepted) :=
    .next (.next (.next .start _ trivial) _ trivial) _ trivial
  exact @entry_commits_with_hold lenientContracts _ reached (.enterServing Sample.execution) trivial _ _
    known unentered _ durable (Option.isSome_iff_ne_none.mp bound) entered

/-- A use that was fenced and released before its entry lets the entry through: the bound execution
enters without any hold. -/
theorem released_execution_enters : let store := Sample.managed Sample.fenced
    let store' := @commit lenientContracts store (.enterServing Sample.execution)
    (∃ acceptance, store.ledger (.serving Sample.execution) = some acceptance ∧
        acceptance.selection.binding ≠ none ∧ acceptance.entered = false) ∧
      (∃ acceptance, store'.ledger (.serving Sample.execution) = some acceptance ∧
        acceptance.entered = true) ∧
      ¬ Held store' (.serving Sample.execution) := by
  intro store store'
  have before : (store.ledger (.serving Sample.execution)).map
      (fun acceptance => (acceptance.selection.binding.isSome, acceptance.entered)) =
        some (true, false) := by decide +kernel
  have after : Sample.hasEntered store' Sample.execution = some true := by decide +kernel
  have absent : store'.uses.get? (.serving Sample.execution) = none := by decide +kernel
  refine ⟨?_, Option.map_eq_some_iff.mp after, ?_⟩
  · obtain ⟨acceptance, known, facts⟩ := Option.map_eq_some_iff.mp before
    obtain ⟨bound, unentered⟩ := Prod.mk.inj facts
    exact ⟨acceptance, known, Option.isSome_iff_ne_none.mp bound, unentered⟩
  · rintro ⟨record, usage, found, _, member, same, _⟩
    have holds := (@commit_holds lenientContracts _ (@managing_holds lenientContracts Sample.fenced)
      (.enterServing Sample.execution)).1
    have row := (holds.indexed (.serving Sample.execution) record.name).mpr
      ⟨record, usage, found, member, same⟩
    cases absent.symm.trans row

end Milkdrift.Managed
