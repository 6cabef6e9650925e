/-
Purpose: The resource scopes of a grant and the containment tests applied to them.
-/
import Milkdrift.Runtime.Dispatch
import Mathlib.Data.List.Infix

namespace Milkdrift.Authority

inductive AuthorityError where
  | invalidIdentity (kind : String) (reason : String)
  | invalidContract (reason : String)
  | bounds (location : String) (reason : String)
  | json (reason : String)
deriving DecidableEq, Repr

abbrev ActorRef := Identity persistenceRule
abbrev GrantId := Identity persistenceRule
abbrev PolicyId := Identity persistenceRule
abbrev DecisionId := Identity persistenceRule
abbrev NetworkProfileRef := Identity persistenceRule
abbrev SecretRef := Identity persistenceRule
abbrev ScopeId := Identity contractRule
abbrev ArtifactId := Identity idempotencyRule

def maxScopeItems : Nat := 128

/-! ### Selectors -/

def maxSelectionItems : Nat := 128

/-- Every value, or a nonempty bounded set of exact ones. An empty set cannot be built, so it never
acquires the meaning of a wildcard. -/
inductive Selection (α : Type) where
  | any
  | only (values : Finset α) (bounded : 1 ≤ values.card ∧ values.card ≤ maxSelectionItems)
deriving DecidableEq

namespace Selection

variable {α : Type}

def onlyOne (value : α) : Selection α := .only {value} (by simp [maxSelectionItems])

/-- Whether this is the explicit wildcard. -/
def isAny : Selection α → Bool
  | .any => true
  | .only .. => false

variable [DecidableEq α]

def «matches» : Selection α → α → Bool
  | .any, _ => true
  | .only values _, value => value ∈ values

/-- Whether every value admitted here is admitted there. -/
def isSubsetOf : Selection α → Selection α → Bool
  | .any, .any | .only .., .any => true
  | .any, .only .. => false
  | .only requested _, .only allowed _ => requested ⊆ allowed

theorem isSubsetOf_refl (selection : Selection α) : selection.isSubsetOf selection = true := by
  cases selection <;> simp [isSubsetOf]

theorem isSubsetOf_trans {first second third : Selection α} (inner : first.isSubsetOf second = true)
    (outer : second.isSubsetOf third = true) : first.isSubsetOf third = true := by
  cases first <;> cases second <;> cases third <;> simp_all only [isSubsetOf, decide_eq_true_eq,
    reduceCtorEq]
  exact Finset.Subset.trans inner outer

variable {narrow wide : Selection α}

theorem matches_of_subset (inside : narrow.isSubsetOf wide = true) {value : α}
    (admitted : narrow.matches value = true) : wide.matches value = true := by
  cases narrow <;> cases wide <;> simp_all only [isSubsetOf, «matches», decide_eq_true_eq, reduceCtorEq]
  exact inside admitted

/-- A selector that contains the wildcard is the wildcard. -/
theorem isAny_of_subset (inside : narrow.isSubsetOf wide = true) (all : narrow.isAny = true) :
    wide.isAny = true := by
  cases narrow <;> cases wide <;> simp_all [isSubsetOf, isAny]

/-- The wildcard admits everything. -/
theorem matches_of_isAny {selection : Selection α} (all : selection.isAny = true) (value : α) :
    selection.matches value = true := by
  cases selection <;> simp_all [isAny, «matches»]

end Selection

/-! ### Capability scopes -/

structure CapabilityAuthorityAllowScope where
  identities : Selection CapabilityId
  categories : Selection CapabilityCategory
  operations : Selection OperationId
  providerProfiles : Selection ProviderProfileRef
  trustZones : Selection TrustZone
  executionTrustClasses : Selection ExecutionTrustClass
  localities : Selection Locality
  peers : Selection PeerId
  maximumSideEffect : SideEffectClass
deriving DecidableEq

/-- Capability-selection constraints of a grant. -/
inductive CapabilityAuthorityScope where
  | denyAll
  | allow (scope : CapabilityAuthorityAllowScope)
deriving DecidableEq

namespace CapabilityAuthorityScope

def deniesAll : CapabilityAuthorityScope → Bool
  | .denyAll => true
  | .allow _ => false

def selection {α : Type} (dimension : CapabilityAuthorityAllowScope → Selection α) :
    CapabilityAuthorityScope → Option (Selection α)
  | .denyAll => none
  | .allow scope => some (dimension scope)

def identitySelection := selection CapabilityAuthorityAllowScope.identities
def categorySelection := selection CapabilityAuthorityAllowScope.categories
def operationSelection := selection CapabilityAuthorityAllowScope.operations
def providerProfileSelection := selection CapabilityAuthorityAllowScope.providerProfiles
def trustZoneSelection := selection CapabilityAuthorityAllowScope.trustZones
def executionTrustClassSelection := selection CapabilityAuthorityAllowScope.executionTrustClasses
def localitySelection := selection CapabilityAuthorityAllowScope.localities
def peerSelection := selection CapabilityAuthorityAllowScope.peers

def maximumSideEffect : CapabilityAuthorityScope → SideEffectClass
  | .denyAll => .none
  | .allow scope => scope.maximumSideEffect

/-- Containment, dimension by dimension. -/
def isSubsetOf : CapabilityAuthorityScope → CapabilityAuthorityScope → Bool
  | .denyAll, _ => true
  | .allow _, .denyAll => false
  | .allow requested, .allow allowed =>
    requested.identities.isSubsetOf allowed.identities &&
      requested.categories.isSubsetOf allowed.categories &&
      requested.operations.isSubsetOf allowed.operations &&
      requested.providerProfiles.isSubsetOf allowed.providerProfiles &&
      requested.trustZones.isSubsetOf allowed.trustZones &&
      requested.executionTrustClasses.isSubsetOf allowed.executionTrustClasses &&
      requested.localities.isSubsetOf allowed.localities &&
      requested.peers.isSubsetOf allowed.peers &&
      decide (requested.maximumSideEffect ≤ allowed.maximumSideEffect)

structure Inside (narrow wide : CapabilityAuthorityAllowScope) : Prop where
  identities : narrow.identities.isSubsetOf wide.identities = true
  categories : narrow.categories.isSubsetOf wide.categories = true
  operations : narrow.operations.isSubsetOf wide.operations = true
  providerProfiles : narrow.providerProfiles.isSubsetOf wide.providerProfiles = true
  trustZones : narrow.trustZones.isSubsetOf wide.trustZones = true
  executionTrustClasses : narrow.executionTrustClasses.isSubsetOf wide.executionTrustClasses = true
  localities : narrow.localities.isSubsetOf wide.localities = true
  peers : narrow.peers.isSubsetOf wide.peers = true
  maximumSideEffect : narrow.maximumSideEffect ≤ wide.maximumSideEffect

theorem isSubsetOf_allow {narrow wide : CapabilityAuthorityAllowScope} :
    (allow narrow).isSubsetOf (allow wide) = true ↔ Inside narrow wide := by
  simp only [isSubsetOf, Bool.and_eq_true, decide_eq_true_eq]
  constructor
  · rintro ⟨⟨⟨⟨⟨⟨⟨⟨one, two⟩, three⟩, four⟩, five⟩, six⟩, seven⟩, eight⟩, nine⟩
    exact ⟨one, two, three, four, five, six, seven, eight, nine⟩
  · rintro ⟨one, two, three, four, five, six, seven, eight, nine⟩
    exact ⟨⟨⟨⟨⟨⟨⟨⟨one, two⟩, three⟩, four⟩, five⟩, six⟩, seven⟩, eight⟩, nine⟩

variable {narrow wide : CapabilityAuthorityScope}

/-- Either the narrower scope denies everything, or both allow and every dimension is contained. -/
theorem isSubsetOf_cases (inside : narrow.isSubsetOf wide = true) :
    narrow = .denyAll ∨ ∃ requested allowed, narrow = .allow requested ∧ wide = .allow allowed ∧
      Inside requested allowed := by
  cases narrow with
  | denyAll => exact .inl rfl
  | allow requested =>
    cases wide with
    | denyAll => simp [isSubsetOf] at inside
    | allow allowed => exact .inr ⟨requested, allowed, rfl, rfl, isSubsetOf_allow.mp inside⟩

theorem isSubsetOf_refl (scope : CapabilityAuthorityScope) : scope.isSubsetOf scope = true := by
  cases scope with
  | denyAll => rfl
  | allow scope =>
    apply isSubsetOf_allow.mpr
    constructor
    all_goals first | exact Selection.isSubsetOf_refl _ | exact le_rfl

theorem isSubsetOf_trans {first second third : CapabilityAuthorityScope}
    (inner : first.isSubsetOf second = true) (outer : second.isSubsetOf third = true) :
    first.isSubsetOf third = true := by
  obtain rfl | ⟨low, middle, rfl, rfl, below⟩ := isSubsetOf_cases inner
  · rfl
  obtain impossible | ⟨_, high, same, rfl, above⟩ := isSubsetOf_cases outer
  · cases impossible
  cases same
  exact isSubsetOf_allow.mpr ⟨Selection.isSubsetOf_trans below.identities above.identities,
      Selection.isSubsetOf_trans below.categories above.categories,
      Selection.isSubsetOf_trans below.operations above.operations,
      Selection.isSubsetOf_trans below.providerProfiles above.providerProfiles,
      Selection.isSubsetOf_trans below.trustZones above.trustZones,
      Selection.isSubsetOf_trans below.executionTrustClasses above.executionTrustClasses,
      Selection.isSubsetOf_trans below.localities above.localities,
      Selection.isSubsetOf_trans below.peers above.peers,
      below.maximumSideEffect.trans above.maximumSideEffect⟩

theorem maximumSideEffect_le (inside : narrow.isSubsetOf wide = true) :
    narrow.maximumSideEffect ≤ wide.maximumSideEffect := by
  obtain rfl | ⟨_, _, rfl, rfl, below⟩ := isSubsetOf_cases inside
  · exact SideEffectClass.none_le _
  · exact below.maximumSideEffect

theorem not_deniesAll_of_subset (inside : narrow.isSubsetOf wide = true)
    (allows : narrow.deniesAll = false) : wide.deniesAll = false := by
  obtain rfl | ⟨_, _, rfl, rfl, _⟩ := isSubsetOf_cases inside
  · cases allows
  · rfl

end CapabilityAuthorityScope

/-! ### Filesystem scopes -/

inductive AccessMode where
  | read
  | write
  | execute
deriving DecidableEq, Repr

inductive FilesystemRootFamily where
  | unix
  | windowsDrive (drive : Char)
deriving DecidableEq, Repr

structure CanonicalFilesystemRoot where
  text : String
  family : FilesystemRootFamily
  components : List String
deriving DecidableEq, Repr

def invalidFilesystemScope : AuthorityError :=
  .invalidContract
    "filesystem scope requires one canonical Unix or Windows drive-absolute root and a nonempty access set"

def isControl (character : Char) : Bool :=
  character.toNat < 0x20 || (0x7f ≤ character.toNat && character.toNat ≤ 0x9f)

def windowsReserved : List String :=
  ["CON", "PRN", "AUX", "NUL", "COM1", "COM2", "COM3", "COM4", "COM5", "COM6", "COM7", "COM8", "COM9",
    "LPT1", "LPT2", "LPT3", "LPT4", "LPT5", "LPT6", "LPT7", "LPT8", "LPT9",
    "COM¹", "COM²", "COM³", "LPT¹", "LPT²", "LPT³"]

def windowsComponentIsCanonical (component : List Char) : Bool :=
  component.getLast? ≠ some '.' && component.getLast? ≠ some ' ' &&
    !(component.any fun character => ['<', '>', '"', '|', '?', '*', ':'].contains character) &&
    !(windowsReserved.contains
      (String.ofList ((component.takeWhile (· ≠ '.')).map Char.toUpper)))

def canonicalComponent (family : FilesystemRootFamily) (component : List Char) :
    Except AuthorityError String :=
  if component.isEmpty || component = ['.'] || component = ['.', '.'] ||
      (family ≠ .unix && !windowsComponentIsCanonical component) then
    .error invalidFilesystemScope
  else .ok (String.ofList component)

def rootFamily : List Char → Except AuthorityError (FilesystemRootFamily × List Char)
  | '/' :: remainder => .ok (.unix, remainder)
  | drive :: ':' :: '/' :: remainder =>
    if drive.isUpper then .ok (.windowsDrive drive, remainder) else .error invalidFilesystemScope
  | _ => .error invalidFilesystemScope

def CanonicalFilesystemRoot.parse (text : String) : Except AuthorityError CanonicalFilesystemRoot :=
  if text.isEmpty || 4096 < text.utf8ByteSize || text.toList.contains '\\' || text.toList.any isControl then
    .error invalidFilesystemScope
  else do
    let (family, remainder) ← rootFamily text.toList
    if remainder.getLast? = some '/' || decide (['/', '/'] <:+: remainder) then
      .error invalidFilesystemScope
    else if remainder.isEmpty then .ok ⟨text, family, []⟩
    else
      let components ← (remainder.splitOn '/').mapM (canonicalComponent family)
      .ok ⟨text, family, components⟩

def FilesystemRootFamily.opening : FilesystemRootFamily → List Char
  | .unix => ['/']
  | .windowsDrive drive => [drive, ':', '/']

variable {family : FilesystemRootFamily}

theorem rootFamily_ok {text remainder : List Char}
    (found : rootFamily text = .ok (family, remainder)) : text = family.opening ++ remainder := by
  unfold rootFamily at found
  split at found
  · cases found
    rfl
  · split at found <;> cases found
    rfl
  · cases found

theorem canonicalComponent_ok {component : List Char} {text : String}
    (accepted : canonicalComponent family component = .ok text) :
    text.toList = component ∧ text ∉ ["", ".", ".."] := by
  unfold canonicalComponent at accepted
  split at accepted
  · cases accepted
  next sound =>
    cases accepted
    refine ⟨String.toList_ofList, fun listed => sound ?_⟩
    simp only [List.mem_cons, List.not_mem_nil, or_false] at listed
    rcases listed with same | same | same <;>
      simp [← String.toList_inj, String.toList_ofList] at same <;> simp [same]

theorem canonicalComponents_ok {split : List (List Char)}
    {components : List String} (accepted : split.mapM (canonicalComponent family) = .ok components) :
    components.map String.toList = split ∧ ∀ component ∈ components, component ∉ ["", ".", ".."] := by
  induction split generalizing components with
  | nil =>
    cases accepted
    exact ⟨rfl, by simp⟩
  | cons first rest ih =>
    simp only [List.mapM_cons, bind, Except.bind] at accepted
    split at accepted
    · cases accepted
    next text sound =>
      split at accepted
      · cases accepted
      next texts others =>
        cases accepted
        obtain ⟨same, proper⟩ := canonicalComponent_ok sound
        obtain ⟨spelled, rest⟩ := ih others
        exact ⟨by simp [same, spelled], List.forall_mem_cons.mpr ⟨proper, rest⟩⟩

theorem CanonicalFilesystemRoot.parse_ok {text : String} {root : CanonicalFilesystemRoot}
    (parsed : parse text = .ok root) : root.text = text ∧
      text.toList = root.family.opening ++ ['/'].intercalate (root.components.map String.toList) ∧
      ∀ component ∈ root.components, component ∉ ["", ".", ".."] := by
  unfold parse at parsed
  split at parsed
  · cases parsed
  · cases family : rootFamily text.toList with
    | error failure => simp [family, bind, Except.bind] at parsed
    | ok split =>
      have opened := rootFamily_ok family
      simp only [family, bind, Except.bind] at parsed
      split at parsed
      · cases parsed
      · split at parsed
        next empty =>
          cases parsed
          rw [List.isEmpty_iff] at empty
          rw [empty] at opened
          exact ⟨rfl, by simp [opened], by simp⟩
        · split at parsed <;> cases parsed
          next components accepted =>
            obtain ⟨spelled, proper⟩ := canonicalComponents_ok accepted
            refine ⟨rfl, ?_, proper⟩
            rw [opened, spelled, List.intercalate_splitOn]

theorem CanonicalFilesystemRoot.parse_text {text : String} {root : CanonicalFilesystemRoot}
    (parsed : parse text = .ok root) : root.text = text :=
  (parse_ok parsed).1

def CanonicalFilesystemRoot.contains (root requested : CanonicalFilesystemRoot) : Bool :=
  root.family = requested.family && root.components.isPrefixOf requested.components

open CanonicalFilesystemRoot in
/-- A text parses only as the one spelling of its family and components, none of them empty or a step
upwards, and containment of parsed roots is the order of components within a family. -/
theorem filesystem_roots_ordered : (∀ text root, parse text = .ok root →
      text.toList = root.family.opening ++ ['/'].intercalate (root.components.map String.toList) ∧
        ∀ component ∈ root.components, component ∉ ["", ".", ".."]) ∧
    (∀ text text' root root', parse text = .ok root → parse text' = .ok root' → root.family = root'.family →
      root.components = root'.components → text = text') ∧
    (∀ root : CanonicalFilesystemRoot, root.contains root = true) ∧
    (∀ first second third : CanonicalFilesystemRoot, first.contains second = true →
      second.contains third = true → first.contains third = true) ∧
    (∀ text text' root root', parse text = .ok root → parse text' = .ok root' → root.contains root' = true →
      root'.contains root = true → root = root') ∧
    ∀ root requested : CanonicalFilesystemRoot, root.contains requested = true ↔
      root.family = requested.family ∧ ∃ below, requested.components = root.components ++ below := by
  have extends_iff (root requested : CanonicalFilesystemRoot) : root.contains requested = true ↔
      root.family = requested.family ∧ root.components <+: requested.components := by
    simp [CanonicalFilesystemRoot.contains]
  have unique {text text' : String} {root root' : CanonicalFilesystemRoot}
      (parsed : parse text = .ok root)
      (parsed' : parse text' = .ok root') (family : root.family = root'.family)
      (components : root.components = root'.components) : text = text' := by
    rw [← String.toList_inj, (parse_ok parsed).2.1, (parse_ok parsed').2.1, family, components]
  refine ⟨fun _ _ parsed => (parse_ok parsed).2, fun _ _ _ _ => unique, ?_, ?_, ?_, ?_⟩
  · intro root
    exact (extends_iff ..).mpr ⟨rfl, List.prefix_rfl⟩
  · intro first second third outer inner
    rw [extends_iff] at outer inner ⊢
    exact ⟨outer.1.trans inner.1, outer.2.trans inner.2⟩
  · intro text text' root root' parsed parsed' below above
    rw [extends_iff] at below above
    have components := below.2.eq_of_length_le above.2.length_le
    have same : text = text' := unique parsed parsed' below.1 components
    rw [same, parsed'] at parsed
    cases parsed
    rfl
  · intro root requested
    rw [extends_iff]
    exact and_congr_right fun _ => exists_congr fun _ => eq_comm

structure FilesystemScope where
  root : CanonicalFilesystemRoot
  access : Finset AccessMode
  parsed : CanonicalFilesystemRoot.parse root.text = .ok root
  accessible : access.Nonempty
deriving DecidableEq

namespace FilesystemScope

/-- The checked constructor. -/
def new (text : String) (access : Finset AccessMode) : Except AuthorityError FilesystemScope :=
  if accessible : access.Nonempty then
    match parsed : CanonicalFilesystemRoot.parse text with
    | .error failure => .error failure
    | .ok root =>
      .ok ⟨root, access, by rw [CanonicalFilesystemRoot.parse_text parsed]; exact parsed, accessible⟩
  else .error invalidFilesystemScope

def contains (scope requested : FilesystemScope) : Bool :=
  scope.root.contains requested.root && decide (requested.access ⊆ scope.access)

theorem contains_iff {scope requested : FilesystemScope} :
    scope.contains requested = true ↔ scope.root.family = requested.root.family ∧
      scope.root.components <+: requested.root.components ∧ requested.access ⊆ scope.access := by
  simp [contains, CanonicalFilesystemRoot.contains, and_assoc]

theorem contains_trans {outer middle inner : FilesystemScope} (first : outer.contains middle = true)
    (second : middle.contains inner = true) : outer.contains inner = true := by
  rw [contains_iff] at first second ⊢
  exact ⟨first.1.trans second.1, first.2.1.trans second.2.1, second.2.2.trans first.2.2⟩

end FilesystemScope

/-! ### Network, artifact, peer, daemon and workspace scopes -/

/-- A destination without path, credentials or white space. -/
def destinationAllowed (destination : String) : Bool :=
  !destination.isEmpty && destination.utf8ByteSize ≤ 255 && destination.toList.all fun character =>
      character.toNat < 128 && !(['/', '@', ' ', '\t', '\n'].contains character)

def networkBounded (profiles : Finset NetworkProfileRef) (destinations : Finset String) : Bool :=
  profiles.card ≤ maxScopeItems && destinations.card ≤ maxScopeItems &&
    decide (∀ destination ∈ destinations, destinationAllowed destination = true)

structure NetworkScope where
  profiles : Finset NetworkProfileRef
  destinations : Finset String
  bounded : networkBounded profiles destinations = true
deriving DecidableEq

/-- The checked constructor. -/
def NetworkScope.new (profiles : Finset NetworkProfileRef) (destinations : Finset String) :
    Except AuthorityError NetworkScope :=
  if bounded : networkBounded profiles destinations = true then .ok ⟨profiles, destinations, bounded⟩
  else .error (.bounds "grant.network"
    "network scope exceeds bounds or contains a credential-like destination")

inductive ArtifactSensitivity where
  | restricted
  | internal
  | «public»
deriving DecidableEq, Repr

inductive ArtifactAuthorityScope where
  | denyAll
  | allow (identities : Selection ArtifactId) (sensitivities : Finset ArtifactSensitivity)
      (bounded : 1 ≤ sensitivities.card ∧ sensitivities.card ≤ 3)
deriving DecidableEq

def ArtifactAuthorityScope.matches (scope : ArtifactAuthorityScope) (artifact : ArtifactId)
    (sensitivity : ArtifactSensitivity) : Bool :=
  match scope with
  | .denyAll => false
  | .allow identities sensitivities _ =>
    decide (sensitivity ∈ sensitivities) && identities.matches artifact

/-- An allowlist, or an explicit wildcard with an empty one. -/
structure PeerAuthorityScope where
  identities : Finset PeerId
  allowAny : Bool
  bounded : identities.card ≤ maxScopeItems ∧ (allowAny = true → identities = ∅)
deriving DecidableEq

def PeerAuthorityScope.matches (scope : PeerAuthorityScope) (peer : PeerId) : Bool :=
  scope.allowAny || decide (peer ∈ scope.identities)

structure DaemonAuthorityScope where
  readiness : Bool
  detailedHealth : Bool
  ownAuthority : Bool
  configuration : Bool
  audit : Bool
deriving DecidableEq

structure WorkspaceAuthorityScope where
  scopes : Finset ScopeId
  allowAnyInRun : Bool
  bounded : scopes.card ≤ maxScopeItems ∧ (allowAnyInRun = true → scopes = ∅)
deriving DecidableEq

def WorkspaceAuthorityScope.matches (scope : WorkspaceAuthorityScope) (requested : ScopeId) : Bool :=
  scope.allowAnyInRun || decide (requested ∈ scope.scopes)

inductive WorkflowRunScope where
  | any
  | workflow (workflow : WorkflowId)
  | workflows (workflows : Finset WorkflowId)
      (bounded : 1 ≤ workflows.card ∧ workflows.card ≤ maxSelectionItems)
  | run (run : RunId) (workflow : Option WorkflowId)
deriving DecidableEq

/-- All typed resources to which a grant applies. -/
structure ResourceScope where
  workflowRun : WorkflowRunScope
  capability : CapabilityAuthorityScope
  filesystem : List FilesystemScope
  network : NetworkScope
  secrets : Finset SecretRef
  artifacts : ArtifactAuthorityScope
  peers : PeerAuthorityScope
  daemon : DaemonAuthorityScope
  workspace : WorkspaceAuthorityScope
deriving DecidableEq

/-! ### Ceilings -/

/-- A requested amount needs a ceiling that covers it; no amount needs nothing. -/
def within : Option Nat → Option Nat → Bool
  | some requested, some ceiling => requested ≤ ceiling
  | some _, none => false
  | none, _ => true

theorem within_trans {first second third : Option Nat} (inner : within first second = true)
    (outer : within second third = true) : within first third = true := by
  cases first <;> cases second <;> cases third <;> simp_all [within]
  omega

end Milkdrift.Authority

namespace Milkdrift

def AuthorityBudget.fitsWithin (budget ceiling : AuthorityBudget) : Bool :=
  Authority.within budget.costMinor ceiling.costMinor &&
    Authority.within budget.durationMs ceiling.durationMs &&
    Authority.within budget.invocations ceiling.invocations &&
    Authority.within budget.artifactBytes ceiling.artifactBytes &&
    Authority.within budget.units ceiling.units &&
    Authority.within budget.concurrency ceiling.concurrency

theorem AuthorityBudget.fitsWithin_trans {first second third : AuthorityBudget}
    (inner : first.fitsWithin second = true) (outer : second.fitsWithin third = true) :
    first.fitsWithin third = true := by
  simp only [fitsWithin, Bool.and_eq_true] at inner outer ⊢
  obtain ⟨⟨⟨⟨⟨one, two⟩, three⟩, four⟩, five⟩, six⟩ := inner
  obtain ⟨⟨⟨⟨⟨one', two'⟩, three'⟩, four'⟩, five'⟩, six'⟩ := outer
  exact ⟨⟨⟨⟨⟨Authority.within_trans one one', Authority.within_trans two two'⟩,
    Authority.within_trans three three'⟩, Authority.within_trans four four'⟩,
    Authority.within_trans five five'⟩, Authority.within_trans six six'⟩

end Milkdrift
