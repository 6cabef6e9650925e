/-
Purpose: The ceilings of a peer execution are ordered by containment, and permissions follow the order.
-/
import Milkdrift.Capability.Invocation
import Milkdrift.Library.Checked

namespace Milkdrift.Remote

open Option

/-- Ceilings of one request. An absent optional ceiling refuses its resource; it is not unlimited. -/
structure ExecutionLimits where
  nestedInvocations : Option InvocationCounts
  artifactBytes : Nat
  durationMs : Nat
  costMicros : Nat
  costCurrency : Option String
  inputUnits : Option Nat
  outputUnits : Option Nat
  observations : Nat
deriving DecidableEq

structure NestedWorkUsage where
  invocations : InvocationCounts
  artifactBytes : Nat
deriving DecidableEq

structure UsageObservation where
  nestedWork : Option NestedWorkUsage
  inputUnits : Option Nat
  outputUnits : Option Nat
  durationMs : Option Nat
  costMicros : Option Nat
  currency : Option String
  paired : costMicros.isSome = currency.isSome
  coded : currency.all (fun code => code.length == 3 && code.all Char.isUpper) = true

inductive AdmissionUnit where
  | unknown
  | modelTokens
deriving DecidableEq

structure PreparedEnvelope extends InvocationAdmissionEnvelope where
  unit : AdmissionUnit

namespace ExecutionLimits

def unitsWithin (ceiling requested : Option Nat) : Bool :=
  requested.all fun value => ceiling.any fun maximum => decide (value ≤ maximum)

def entriesWithin (ceiling requested : Option InvocationCounts) : Bool :=
  requested.all fun counts => ceiling.any fun maximum =>
    decide (counts.process ≤ maximum.process ∧ counts.model ≤ maximum.model)

def contains (limits requested : ExecutionLimits) : Bool :=
  entriesWithin limits.nestedInvocations requested.nestedInvocations &&
  decide (requested.artifactBytes ≤ limits.artifactBytes) &&
  decide (requested.durationMs ≤ limits.durationMs) &&
  decide (requested.costMicros ≤ limits.costMicros) &&
  decide (requested.costCurrency = none ∨ requested.costCurrency = limits.costCurrency) &&
  unitsWithin limits.inputUnits requested.inputUnits &&
  unitsWithin limits.outputUnits requested.outputUnits &&
  decide (requested.observations ≤ limits.observations)

def permitsUsage (limits : ExecutionLimits) (usage : UsageObservation) : Bool :=
  usage.durationMs.all (fun value => decide (value ≤ limits.durationMs)) &&
  usage.costMicros.all (fun value =>
    decide (value ≤ limits.costMicros ∧ usage.currency = limits.costCurrency)) &&
  unitsWithin limits.inputUnits usage.inputUnits &&
  unitsWithin limits.outputUnits usage.outputUnits &&
  usage.nestedWork.all fun nested => entriesWithin limits.nestedInvocations (some nested.invocations) &&
    decide (nested.artifactBytes ≤ limits.artifactBytes)

/-- A dimension of a prepared envelope is inapplicable or has a permitted maximum; an unknown one is
refused. -/
def permitsBound {α : Type} (permitted : α → Bool) : AdmissionBound α → Bool
  | .notApplicable => true
  | .bounded value => permitted value
  | .unknown => false

def outputBytes : AdmissionBound Nat → Option Nat
  | .notApplicable => some 0
  | .bounded value => some value
  | .unknown => none

def permitsPrepared (limits : ExecutionLimits) (prepared : PreparedEnvelope)
    (inputArtifactBytes : Nat) : Bool :=
  let permitsUnits (ceiling : Option Nat) (value : Nat) : Bool :=
    decide (prepared.unit = .modelTokens) && unitsWithin ceiling (some value)
  entriesWithin limits.nestedInvocations prepared.nestedInvocations &&
  permitsBound (permitsUnits limits.inputUnits) prepared.inputUnits &&
  permitsBound (permitsUnits limits.outputUnits) prepared.outputUnits &&
  permitsBound (fun value => decide (0 < value ∧ value ≤ limits.durationMs)) prepared.executionDurationMs &&
  ((outputBytes prepared.artifactBytes).bind (checkedAdd 64 · inputArtifactBytes)).any
    (fun total => decide (total ≤ limits.artifactBytes)) &&
  permitsBound (fun cost => decide (limits.costCurrency = some cost.currency ∧
    cost.maximumMicros ≤ limits.costMicros)) prepared.monetaryCost

/-! ### The order -/

@[grind =]
theorem unitsWithin_iff {ceiling requested : Option Nat} : unitsWithin ceiling requested = true ↔
    ∀ value, requested = some value → ∃ maximum, ceiling = some maximum ∧ value ≤ maximum := by
  simp [unitsWithin, all_eq_true, any_eq_true]

@[grind =]
theorem entriesWithin_iff {ceiling requested : Option InvocationCounts} :
    entriesWithin ceiling requested = true ↔ ∀ counts, requested = some counts →
      ∃ maximum, ceiling = some maximum ∧ counts.process ≤ maximum.process ∧ counts.model ≤ maximum.model := by
  simp [entriesWithin, all_eq_true, any_eq_true]

theorem contains_refl (limits : ExecutionLimits) : limits.contains limits = true := by
  simp only [contains, Bool.and_eq_true, decide_eq_true_eq]
  grind

variable {large middle small : ExecutionLimits}

theorem contains_trans (upper : large.contains middle = true) (lower : middle.contains small = true) :
    large.contains small = true := by
  simp only [contains, Bool.and_eq_true, decide_eq_true_eq] at *
  grind

/-- A charged cost names its currency, so the two limit sets name the same one. -/
theorem permitsUsage_mono (within : large.contains small = true) (usage : UsageObservation)
    (permitted : small.permitsUsage usage = true) : large.permitsUsage usage = true := by
  have named : ∀ value, usage.costMicros = some value → usage.currency ≠ none := by
    intro value charged absent
    have paired := usage.paired
    rw [charged, absent] at paired
    cases paired
  simp only [contains, permitsUsage, Bool.and_eq_true, all_eq_true, decide_eq_true_eq] at *
  grind

theorem permitsBound_mono {α : Type} {strict loose : α → Bool}
    (weaker : ∀ value, strict value = true → loose value = true) {bound : AdmissionBound α}
    (permitted : permitsBound strict bound = true) : permitsBound loose bound = true := by
  cases bound with
  | bounded value => exact weaker value permitted
  | notApplicable => rfl
  | unknown => exact permitted

theorem permitsPrepared_mono (within : large.contains small = true) (prepared : PreparedEnvelope)
    (inputArtifactBytes : Nat) (permitted : small.permitsPrepared prepared inputArtifactBytes = true) :
    large.permitsPrepared prepared inputArtifactBytes = true := by
  simp only [contains, permitsPrepared, Bool.and_eq_true, any_eq_true, decide_eq_true_eq] at *
  obtain ⟨⟨⟨⟨⟨entries, input⟩, output⟩, duration⟩, bytes⟩, cost⟩ := permitted
  refine ⟨⟨⟨⟨⟨?_, permitsBound_mono ?_ input⟩, permitsBound_mono ?_ output⟩,
    permitsBound_mono ?_ duration⟩, ?_⟩, permitsBound_mono ?_ cost⟩
  all_goals grind

end ExecutionLimits

/-- Containment is reflexive and transitive, and the larger limit set permits every usage report and
every prepared envelope that the smaller one permits. -/
theorem containment_sound : (∀ limits : ExecutionLimits, limits.contains limits = true) ∧
    (∀ large middle small : ExecutionLimits, large.contains middle = true →
      middle.contains small = true → large.contains small = true) ∧
    ∀ large small : ExecutionLimits, large.contains small = true →
      (∀ usage, small.permitsUsage usage = true → large.permitsUsage usage = true) ∧
      ∀ prepared inputArtifactBytes, small.permitsPrepared prepared inputArtifactBytes = true →
        large.permitsPrepared prepared inputArtifactBytes = true := by
  refine ⟨ExecutionLimits.contains_refl, fun _ _ _ => ExecutionLimits.contains_trans, ?_⟩
  intro large small within
  exact ⟨ExecutionLimits.permitsUsage_mono within, ExecutionLimits.permitsPrepared_mono within⟩

end Milkdrift.Remote
