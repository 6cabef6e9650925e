/-
Purpose: Reading an observation history in pages, and when a closed one reopens.
Trusted boundary: the authorization of a reader and the texts of protocol failures
-/
import Milkdrift.Serving.Requests

namespace Milkdrift.Serving

open SortedMap List

/-! ### Pages of the store -/

structure PeerObservationPage where
  execution : PeerExecutionSnapshot
  observations : List PeerObservation

def pageRows (store : ServingStore) (execution : PeerExecutionId) (head : Nat) :
    (limit sequence : Nat) → Except PersistenceError (List PeerObservation)
  | 0, _ => .ok []
  | limit + 1, sequence =>
    if head < sequence then .ok []
    else do
      let key ← observationKey execution sequence
      let observation ← require (store.observations.get? key)
        (.corruption "peer observation head has a missing row")
      ensure (observation.execution = execution ∧ observation.sequence = sequence)
        (.corruption "peer observation key disagrees with its document")
      let later ← pageRows store execution head limit (sequence + 1)
      .ok (observation :: later)

section
variable [ServingContracts]

def peerObservations (store : ServingStore) (owner : ServingCaller) (execution : PeerExecutionId)
    (afterSequence limit : Nat) : Except PersistenceError PeerObservationPage := do
  let found ← readSnapshot store execution
  let snapshot ← require (found.filter fun record => decide (record.caller = owner))
    (.notFound "peer_execution" execution.text)
  ensure (afterSequence ≤ snapshot.lastObservationSequence)
    (.invalidCursor "peer observation cursor is beyond the durable head")
  match snapshot with
  | .archived _ => .ok ⟨snapshot, []⟩
  | .hot record => do
    let observations ← pageRows store execution record.lastObservationSequence limit
      (afterSequence + 1)
    .ok ⟨snapshot, observations⟩

end

/-! ### Pages of the protocol -/

inductive RemoteExecutionStatus where
  | accepted
  | running
  | terminal
  | outcomeUnknown
deriving DecidableEq, Repr

def publicStatus (record : PeerExecutionRecord) : RemoteExecutionStatus :=
  match record.phase with
  | .dispatchAvailable _ | .dispatchClaimed _ | .cancellationRequested _ none => .accepted
  | .entered .. | .cancellationRequested _ (some _) => .running
  | .terminal .. => .terminal
  | .uncertain .. => .outcomeUnknown

def snapshotStatus : PeerExecutionSnapshot → RemoteExecutionStatus
  | .hot record => publicStatus record
  | .archived tombstone =>
    match tombstone.disposition with
    | .terminal _ => .terminal
    | .uncertain .. => .outcomeUnknown

structure ArchivedExecutionSummary where
  outputObservations : List PeerObservation
  status : RemoteExecutionStatus
  lastSequence : Nat
  observationDigest : String
  archivedAt : TimestampMillis
  finalObservation : Option PeerObservation
  uncertaintyReason : Option String
deriving DecidableEq

def archivedSummary (tombstone : PeerExecutionTombstone) : ArchivedExecutionSummary where
  outputObservations := tombstone.outputObservations
  status := snapshotStatus (.archived tombstone)
  lastSequence := tombstone.lastObservationSequence
  observationDigest := tombstone.observationDigest
  archivedAt := tombstone.archivedAt
  finalObservation := tombstone.disposition.terminalObservation
  uncertaintyReason := match tombstone.disposition with
    | .terminal _ => none
    | .uncertain _ reason => some reason

inductive ObservationHistory where
  | hot
  | archived (summary : ArchivedExecutionSummary)
deriving DecidableEq

structure ObservationPage where
  status : RemoteExecutionStatus
  execution : PeerExecutionId
  afterSequence : Nat
  observations : List PeerObservation
  nextSequence : Nat
  terminal : Bool
  closed : Bool
  history : ObservationHistory
deriving DecidableEq

inductive ServingError where
  | bounds (location reason : String)
  | invalidContract (reason : String)
  | persistence (error : PersistenceError)
deriving DecidableEq

def validateSummaryOutputs (execution : PeerExecutionId) (lastSequence : Nat) :
    Nat → List PeerObservation → Except ServingError Unit
  | _, [] => .ok ()
  | prior, output :: rest => do
    withRefusal .invalidContract output.validate
    ensure (output.execution = execution ∧ prior < output.sequence ∧ output.sequence ≤ lastSequence ∧
        output.event.kind.output?.isSome = true)
      (.invalidContract "archived output identity or order is invalid")
    validateSummaryOutputs execution lastSequence output.sequence rest

def validateContiguous (execution : PeerExecutionId) : Nat → List PeerObservation → Except ServingError Unit
  | _, [] => .ok ()
  | previous, observation :: rest => do
    withRefusal .invalidContract observation.validate
    ensure (observation.execution = execution ∧ checkedAdd 64 previous 1 = some observation.sequence)
      (.invalidContract "observation page is not contiguous for one execution")
    validateContiguous execution observation.sequence rest

section
variable [ServingContracts]

def ArchivedExecutionSummary.validate (summary : ArchivedExecutionSummary) (execution : PeerExecutionId) :
    Except ServingError Unit := do
  ensure (summary.archivedAt ≠ 0 ∧ ServingContracts.canonicalDigest summary.observationDigest = true ∧
      ∀ reason ∈ summary.uncertaintyReason, reason ≠ "" ∧ reason.utf8ByteSize ≤ 2048)
    (.invalidContract "archived execution summary has invalid bounds or digest")
  ensure (summary.outputObservations.length ≤ 256)
    (.invalidContract "archived output count exceeds 256")
  validateSummaryOutputs execution summary.lastSequence 0 summary.outputObservations
  match summary.status, summary.finalObservation, summary.uncertaintyReason with
  | .terminal, some observation, none => do
    ensure (observation.execution = execution ∧ observation.sequence = summary.lastSequence ∧
        observation.event.kind.terminal?.isSome = true)
      (.invalidContract "archived execution disposition is inconsistent")
    withRefusal .invalidContract observation.validate
  | .outcomeUnknown, none, some _ => .ok ()
  | _, _, _ => .error (.invalidContract "archived execution disposition is inconsistent")

def maxObservationsPerPage : Nat := 256

def ObservationPage.validateHistory (page : ObservationPage) : Except ServingError Unit :=
  match page.history with
  | .hot =>
    ensure (page.closed = true → page.terminal = true ∨ page.status = .outcomeUnknown)
      (.invalidContract
        "hot observation history closes only with terminal evidence or durable uncertainty")
  | .archived summary => do
    summary.validate page.execution
    ensure (page.observations = [] ∧ page.status = summary.status ∧ page.closed = true ∧
        page.afterSequence ≤ summary.lastSequence ∧
        page.terminal = decide (summary.status = .terminal))
      (.invalidContract "archived observation page does not match its compacted summary")

def ObservationPage.validate (page : ObservationPage) (maximumItems : Nat) : Except ServingError Unit := do
  ensure (page.observations.length ≤ min maximumItems maxObservationsPerPage)
    (.bounds "observations" "observation page exceeds bounds")
  page.validateHistory
  ensure (page.terminal = true → page.closed = true ∧ page.status = .terminal)
    (.invalidContract "terminal observation page contradicts its durable status")
  validateContiguous page.execution page.afterSequence page.observations
  ensure (page.nextSequence =
      (page.observations.getLast?.map PeerObservation.sequence).getD page.afterSequence)
    (.invalidContract "observation resume cursor does not match page contents")

def projectPage (page : PeerObservationPage) (execution : PeerExecutionId) (afterSequence : Nat) :
    ObservationPage :=
  let status := snapshotStatus page.execution
  let nextSequence := (page.observations.getLast?.map PeerObservation.sequence).getD afterSequence
  let (archived, history) := match page.execution with
    | .hot _ => (false, ObservationHistory.hot)
    | .archived tombstone => (true, .archived (archivedSummary tombstone))
  let caughtUp : Bool := archived || page.execution.lastObservationSequence ≤ nextSequence
  { status, execution, afterSequence, nextSequence, history
    observations := page.observations
    terminal := caughtUp && status = .terminal
    closed := caughtUp && (status = .terminal || status = .outcomeUnknown) }

def observationPage (page : PeerObservationPage) (execution : PeerExecutionId)
    (afterSequence maximumItems : Nat) : Except ServingError ObservationPage := do
  let result := projectPage page execution afterSequence
  result.validate maximumItems
  .ok result

/-- The bound on the pages of the store. -/
def maxPageSize : Nat := 1000

def observations (store : ServingStore) (caller : ServingCaller) (execution : PeerExecutionId)
    (afterSequence maximum observationItems : Nat) : Except ServingError ObservationPage := do
  let limit := min maximum observationItems
  ensure (limit ≠ 0 ∧ limit ≤ maxPageSize) (.bounds "page_size" "must be between 1 and 1000")
  let page ← withRefusal .persistence (peerObservations store caller execution afterSequence limit)
  observationPage page execution afterSequence observationItems

def followPages (store : ServingStore) (caller : ServingCaller) (execution : PeerExecutionId)
    (maximum observationItems : Nat) :
    (pages afterSequence : Nat) → Except ServingError (Option (List PeerObservation))
  | 0, _ => .ok none
  | pages + 1, afterSequence => do
    let page ← observations store caller execution afterSequence maximum observationItems
    if page.observations.isEmpty then .ok (some [])
    else do
      let later ← followPages store caller execution maximum observationItems pages page.nextSequence
      .ok (later.map (page.observations ++ ·))

/-! ### Pages of a log -/

variable {store : ServingStore} {record : PeerExecutionRecord} {log : List PeerObservation}

section
omit [ServingContracts]

theorem pageRows_log {execution : PeerExecutionId}
    (rows : ∀ sequence, store.observations.get? (orderedKey sequence execution) = rowAt log sequence)
    (numbered : ∀ index observation, log[index]? = some observation → observation.sequence = index + 1 ∧
      observation.execution = execution ∧ observation.validate = .ok ()) (limit : Nat) :
    ∀ start, pageRows store execution log.length limit (start + 1) = .ok ((log.drop start).take limit) := by
  induction limit with
  | zero => exact fun _ => rfl
  | succ limit ih =>
    intro start
    rw [pageRows]
    split
    · rw [drop_eq_nil_of_le (by omega), take_nil]
    next reached =>
      have bound : start < log.length := by omega
      have row : store.observations.get? (orderedKey (start + 1) execution) = some log[start] := by
        rw [rows]
        simp [rowAt, bound]
      obtain ⟨sequence, named, _⟩ := numbered start _ (getElem?_eq_getElem bound)
      have later := ih (start + 1)
      rw [drop_eq_getElem_cons bound, take_succ_cons]
      simp [observationKey, row, named, sequence, later]

theorem nextSequence_log
    (numbered : ∀ index observation, log[index]? = some observation → observation.sequence = index + 1)
    (start limit : Nat) :
    ((((log.drop start).take limit).getLast?).map PeerObservation.sequence).getD start =
      start + ((log.drop start).take limit).length := by
  generalize length : ((log.drop start).take limit).length = count
  cases count with
  | zero =>
    rw [length_eq_zero_iff.mp length]
    rfl
  | succ count =>
    have bound : count < min limit (log.length - start) := by
      rw [length_take, length_drop] at length
      omega
    have last : ((log.drop start).take limit).getLast? = log[start + count]? := by
      rw [getLast?_eq_getElem?, length, Nat.add_sub_cancel, getElem?_take_of_lt (by omega), getElem?_drop]
    have inside : start + count < log.length := by omega
    rw [last, getElem?_eq_getElem inside]
    have sequence := numbered _ _ (getElem?_eq_getElem inside)
    simp only [Option.map_some, Option.getD_some]
    omega

theorem validateContiguous_log {execution : PeerExecutionId}
    (numbered : ∀ index observation, log[index]? = some observation → observation.sequence = index + 1 ∧
      observation.execution = execution ∧ observation.validate = .ok ()) (small : log.length < 2 ^ 64)
    (limit : Nat) :
    ∀ start, validateContiguous execution start ((log.drop start).take limit) = .ok () := by
  induction limit with
  | zero => exact fun _ => rfl
  | succ limit ih =>
    intro start
    rcases Nat.lt_or_ge start log.length with bound | done
    · obtain ⟨sequence, named, checked⟩ := numbered start _ (getElem?_eq_getElem bound)
      have next : checkedAdd 64 start 1 = some (start + 1) :=
        checkedAdd_eq_some_iff.mpr ⟨rfl, by omega⟩
      have later := ih (start + 1)
      rw [drop_eq_getElem_cons bound, take_succ_cons]
      simp [validateContiguous, checked, named, sequence, next, later]
    · rw [drop_eq_nil_of_le done, take_nil]
      rfl

end

variable {afterSequence maximum observationItems head : Nat} {store' : ServingStore}

theorem peerObservations_hot (exact : Exact store) (present : store.Stores record)
    (valid : validateRecord record = .ok ()) (history : Log store record log)
    (reached : afterSequence ≤ log.length) (limit : Nat) :
    peerObservations store record.caller record.execution afterSequence limit =
      .ok ⟨.hot record, (log.drop afterSequence).take limit⟩ := by
  have read : readSnapshot store record.execution = .ok (some (.hot record)) := by
    simp [readSnapshot, exact.isHot present, present, valid]
  have rows := pageRows_log history.rows history.numbered limit afterSequence
  rw [history.head] at rows reached
  simp [peerObservations, read, PeerExecutionSnapshot.caller,
    PeerExecutionSnapshot.lastObservationSequence, reached, rows]

theorem log_length_lt (valid : validateRecord record = .ok ()) (history : Log store record log) :
    log.length < 2 ^ 64 := by
  simp only [validateRecord, checked_eq_ok_iff, withRefusal_eq_ok_iff] at valid
  obtain ⟨_, requested, _, ⟨_, _, _, _, _, observations, _⟩, _⟩ := valid
  simp only [ServingInvocationRequest.validate, checked_eq_ok_iff] at requested
  obtain ⟨_, ⟨_, bounded⟩, _⟩ := requested
  rw [history.head]
  omega

variable (page : PeerObservationPage) (execution : PeerExecutionId)

section
omit [ServingContracts]

theorem projectPage_closed
    (afterSequence : Nat) (closed : (projectPage page execution afterSequence).closed = true) :
    (projectPage page execution afterSequence).terminal = true ∨
      (projectPage page execution afterSequence).status = .outcomeUnknown := by
  obtain ⟨caughtUp, ended⟩ := Bool.and_eq_true_iff.mp closed
  rcases Bool.or_eq_true_iff.mp ended with terminal | unknown
  · exact .inl (Bool.and_eq_true_iff.mpr ⟨caughtUp, terminal⟩)
  · exact .inr (of_decide_eq_true unknown)

theorem projectPage_terminal
    (afterSequence : Nat) (terminal : (projectPage page execution afterSequence).terminal = true) :
    (projectPage page execution afterSequence).closed = true ∧
      (projectPage page execution afterSequence).status = .terminal := by
  obtain ⟨caughtUp, ended⟩ := Bool.and_eq_true_iff.mp terminal
  exact ⟨Bool.and_eq_true_iff.mpr ⟨caughtUp, Bool.or_eq_true_iff.mpr (.inl ended)⟩, of_decide_eq_true ended⟩

end

theorem observations_hot (exact : Exact store) (present : store.Stores record)
    (valid : validateRecord record = .ok ()) (history : Log store record log)
    (reached : afterSequence ≤ log.length) (positive : min maximum observationItems ≠ 0)
    (paged : min maximum observationItems ≤ maxPageSize)
    (fits : ((log.drop afterSequence).take (min maximum observationItems)).length ≤
      maxObservationsPerPage) :
    observations store record.caller record.execution afterSequence maximum observationItems =
      .ok (projectPage ⟨.hot record, (log.drop afterSequence).take (min maximum observationItems)⟩
        record.execution afterSequence) := by
  have within : ((log.drop afterSequence).take (min maximum observationItems)).length ≤
      min observationItems maxObservationsPerPage := by
    have taken := length_take_le (min maximum observationItems) (log.drop afterSequence)
    omega
  have contiguous := validateContiguous_log history.numbered (log_length_lt valid history)
    (min maximum observationItems) afterSequence
  have checked : (projectPage ⟨.hot record, (log.drop afterSequence).take (min maximum observationItems)⟩
      record.execution afterSequence).validate observationItems = .ok () := by
    simp only [ObservationPage.validate, checked_eq_ok_iff]
    exact ⟨(), within, (), ensure_eq_ok_iff.mpr (projectPage_closed _ _ _), (),
      projectPage_terminal _ _ _, (), contiguous, rfl⟩
  simp [observations, positive, paged, peerObservations_hot exact present valid history reached,
    observationPage, checked]

theorem followPages_log (exact : Exact store) (present : store.Stores record)
    (valid : validateRecord record = .ok ()) (history : Log store record log)
    (positive : min maximum observationItems ≠ 0) (paged : min maximum observationItems ≤ maxPageSize)
    (fits : min maximum observationItems ≤ maxObservationsPerPage ∨ log.length ≤ maxObservationsPerPage)
    (pages : Nat) :
    ∀ start ≤ log.length, log.length - start < pages →
      followPages store record.caller record.execution maximum observationItems pages start =
        .ok (some (log.drop start)) := by
  induction pages with
  | zero => exact fun _ _ enough => absurd enough (Nat.not_lt_zero _)
  | succ pages ih =>
    intro start reached enough
    have fitsHere : ((log.drop start).take (min maximum observationItems)).length ≤
        maxObservationsPerPage := by
      rw [length_take, length_drop]
      omega
    have page := observations_hot exact present valid history reached positive paged fitsHere
    have next := nextSequence_log (fun index observation found =>
      (history.numbered index observation found).1) start (min maximum observationItems)
    rcases Nat.lt_or_ge start log.length with more | done
    · have length : 0 < ((log.drop start).take (min maximum observationItems)).length := by
        rw [length_take, length_drop]
        omega
      have within : start + ((log.drop start).take (min maximum observationItems)).length ≤ log.length := by
        rw [length_take, length_drop]
        omega
      have later := ih _ within (by omega)
      have nonempty : ((log.drop start).take (min maximum observationItems)).isEmpty = false := by
        rw [isEmpty_eq_false_iff]
        exact ne_nil_of_length_pos length
      have rest : (log.drop start).take (min maximum observationItems) ++
          log.drop (start + ((log.drop start).take (min maximum observationItems)).length) =
            log.drop start := by
        rw [← drop_drop, length_take]
        conv_rhs => rw [← take_append_drop (min maximum observationItems) (log.drop start)]
        congr 1
        rcases Nat.le_total (min maximum observationItems) (log.drop start).length with le | ge
        · rw [Nat.min_eq_left le]
        · rw [Nat.min_eq_right ge, drop_eq_nil_of_le le_rfl, drop_eq_nil_of_le ge]
      simp only [followPages, page, except_bind_eq_ok, Except.ok.injEq, exists_eq_left', projectPage]
      rw [if_neg (by simp [nonempty]), next]
      simp only [except_bind_eq_ok, later, Except.ok.injEq, exists_eq_left', Option.map_some, rest]
    · have empty : (log.drop start).take (min maximum observationItems) = [] := by
        rw [drop_eq_nil_of_le done, take_nil]
      rw [drop_eq_nil_of_le done]
      simp [followPages, page, projectPage, empty]

/-! ### Closed histories -/

def Ended (execution : PeerExecutionId) (head : Nat) (store : ServingStore) : Prop :=
  (∃ record, store.executions.get? execution = some record ∧ record.phase.isTerminal = true ∧
    record.lastObservationSequence = head) ∨
  ∃ tombstone, store.tombstones.get? execution = some tombstone ∧
    snapshotStatus (.archived tombstone) = .terminal

theorem Ended.step {entry : Option (PeerExecutionId × PeerEntryEvidence)} {execution : PeerExecutionId}
    (exact : Exact store) (ended : Ended execution head store) (step : StoreStep store entry store') :
    Ended execution head store' := by
  cases step with
  | @amend _ old new entry appended found change amends =>
    refine ended.imp ?_ ?_
    · rintro ⟨record, present, terminal, last⟩
      rw [amends.executions, get?_insert]
      split
      next here =>
        rw [here, found] at present
        cases present
        refine ⟨new, rfl, ?_⟩
        -- Nothing is appended to an ended record.
        cases change.log with
        | kept sameHead _ _ closed => exact ⟨closed.trans terminal, sameHead.trans last⟩
        | next _ _ _ _ _ accepting =>
          rw [isTerminal_of_accepting accepting] at terminal
          cases terminal
      · exact ⟨record, present, terminal, last⟩
    · rw [amends.tombstones]
      exact id
  | @retire _ retired tombstone found retires =>
    by_cases here : execution = retired.execution
    · rcases ended with ⟨record, present, terminal, _⟩ | ⟨archived, stored, _⟩
      · rw [here, found] at present
        cases present
        refine .inr ⟨tombstone, ?_, ?_⟩
        · rw [retires.tombstones, get?_insert, if_pos here]
        · have disposition := retires.disposition
          cases phase : retired.phase <;> rw [phase] at terminal <;> cases terminal
          simp only [archivedDisposition, phase, except_bind_eq_ok, Except.ok.injEq] at disposition
          obtain ⟨_, _, _, _, settled⟩ := disposition
          rw [snapshotStatus, ← settled]
      · rw [here, exact.exclusive found] at stored
        cases stored
    · unfold Ended
      rw [retires.executions, get?_erase, if_neg here, retires.tombstones, get?_insert, if_neg here]
      exact ended
  | tune tunes =>
    unfold Ended
    rw [tunes.executions, tunes.tombstones]
    exact ended

theorem Ended.enrol {accepted : PeerExecutionRecord} {execution : PeerExecutionId}
    (ended : Ended execution head store) (enrols : Enrols store store' accepted) :
    Ended execution head store' := by
  have elsewhere : execution ≠ accepted.execution := by
    rintro rfl
    rcases ended with ⟨_, present, _⟩ | ⟨_, stored, _⟩
    · rw [enrols.fresh] at present
      cases present
    · rw [enrols.unarchived] at stored
      cases stored
  unfold Ended
  rw [enrols.executions, get?_insert, if_neg elsewhere, enrols.tombstones]
  exact ended

omit [ServingContracts] in
theorem pageRows_le {execution : PeerExecutionId} {limit : Nat} :
    ∀ {sequence : Nat} {rows : List PeerObservation},
      pageRows store execution head limit sequence = .ok rows →
      ∀ observation ∈ rows, observation.sequence ≤ head := by
  induction limit with
  | zero =>
    intro sequence rows read
    cases read
    exact fun _ member => nomatch member
  | succ limit ih =>
    intro sequence rows read
    rw [pageRows] at read
    split at read
    · cases read
      exact fun _ member => nomatch member
    · simp only [checked_eq_ok_iff, Except.ok.injEq] at read
      obtain ⟨_, _, first, _, _, ⟨_, numbered⟩, later, rest, rfl⟩ := read
      intro observation member
      rcases mem_cons.mp member with rfl | among
      · omega
      · exact ih rest observation among

theorem observations_eq {caller : ServingCaller} {execution : PeerExecutionId} {page : ObservationPage}
    (read : observations store caller execution afterSequence maximum observationItems = .ok page) :
    ∃ raw : PeerObservationPage, page = projectPage raw execution afterSequence ∧
      readSnapshot store execution = .ok (some raw.execution) ∧
      (∀ tombstone, raw.execution = .archived tombstone → raw.observations = []) ∧
      ∀ record, raw.execution = .hot record → ∀ observation ∈ raw.observations,
        observation.sequence ≤ record.lastObservationSequence := by
  simp only [observations, observationPage, except_bind_eq_ok, withRefusal_eq_ok_iff,
    Except.ok.injEq] at read
  obtain ⟨_, _, raw, stored, _, _, rfl⟩ := read
  refine ⟨raw, rfl, ?_⟩
  simp only [peerObservations, checked_eq_ok_iff, Option.filter_eq_some_iff] at stored
  obtain ⟨_, found, snapshot, ⟨rfl, _⟩, _, _, paged⟩ := stored
  cases snapshot with
  | archived tombstone =>
    cases paged
    exact ⟨found, fun _ _ => rfl, fun _ hot => by cases hot⟩
  | hot record =>
    simp only [except_bind_eq_ok, Except.ok.injEq] at paged
    obtain ⟨rows, collected, rfl⟩ := paged
    refine ⟨found, fun _ archived => (by cases archived), ?_⟩
    rintro _ ⟨⟩
    exact pageRows_le collected

section
omit [ServingContracts]

theorem isTerminal_of_closed (certain : record.phase.isUncertain = false)
    (closed : (publicStatus record = .terminal || publicStatus record = .outcomeUnknown) = true) :
    record.phase.isTerminal = true := by
  unfold publicStatus at closed
  cases phase : record.phase with
  | terminal => rfl
  | uncertain =>
    rw [phase] at certain
    cases certain
  | dispatchAvailable | dispatchClaimed | entered =>
    rw [phase] at closed
    cases closed
  | cancellationRequested claim evidence =>
    rw [phase] at closed
    cases evidence <;> cases closed

theorem publicStatus_terminal (terminal : record.phase.isTerminal = true) :
    publicStatus record = .terminal := by
  unfold publicStatus
  cases phase : record.phase <;> rw [phase] at terminal <;> first | rfl | cases terminal

end

/-- Once a page closes the history of an execution that is not hot with an uncertain outcome, every later
page shows the same status and nothing new. Following the cursor through pages of at most 256 items
returns the retained observations in order, each once. -/
theorem closed_history_stays_closed (attempts later : List Attempt) :
    let store := (serving.run attempts).store
    let after := (serving.resume (serving.run attempts) later).store
    (∀ caller execution afterSequence maximum observationItems page,
      observations store caller execution afterSequence maximum observationItems = .ok page →
      page.closed = true →
      (∀ record, store.executions.get? execution = some record → record.phase.isUncertain = false) →
      ∀ caller' afterSequence' maximum' observationItems' page',
        observations after caller' execution afterSequence' maximum' observationItems' = .ok page' →
        page'.status = page.status ∧
          ∀ observation ∈ page'.observations, observation.sequence ≤ page.nextSequence) ∧
    ∀ execution record, store.executions.get? execution = some record →
      ∃ log, Log store record log ∧ ∀ maximum observationItems, min maximum observationItems ≠ 0 →
        min maximum observationItems ≤ maxPageSize →
        (min maximum observationItems ≤ maxObservationsPerPage ∨ log.length ≤ maxObservationsPerPage) →
        followPages store record.caller execution maximum observationItems (log.length + 1) 0 =
          .ok (some log) := by
  intro store after
  have exact : Exact store := serving_exact attempts
  have exactAfter : Exact after :=
    (serving_resume (fun _ => True) (fun _ _ _ _ _ _ => trivial) (fun _ _ _ _ _ _ => trivial) exact
      trivial later).1
  refine ⟨?_, ?_⟩
  · intro caller execution afterSequence maximum observationItems page read closed certain
      caller' afterSequence' maximum' observationItems' page' readAfter
    obtain ⟨raw, rfl, found, _, _⟩ := observations_eq read
    obtain ⟨raw', rfl, found', archivedRows, hotRows⟩ := observations_eq readAfter
    have stored := (delivers_iff.mp (readSnapshot_delivers exact execution)).1 _ found
    have storedAfter := (delivers_iff.mp (readSnapshot_delivers exactAfter execution)).1 _ found'
    obtain ⟨snapshot, rows⟩ := raw
    obtain ⟨snapshot', rows'⟩ := raw'
    cases snapshot with
    | archived tombstone =>
      have stored : store.tombstones.get? execution = some tombstone := stored
      have kept : after.tombstones.get? execution = some tombstone :=
        tombstones_permanent exact stored later
      cases snapshot' with
      | archived tombstone' =>
        have storedAfter : after.tombstones.get? execution = some tombstone' := storedAfter
        obtain rfl : tombstone = tombstone' := Option.some.inj (kept.symm.trans storedAfter)
        obtain rfl : rows' = [] := archivedRows tombstone rfl
        exact ⟨rfl, fun _ member => nomatch member⟩
      | hot record' =>
        have storedAfter : after.executions.get? execution = some record' := storedAfter
        rw [exactAfter.exclusive storedAfter] at kept
        cases kept
    | hot record =>
      have stored : store.executions.get? execution = some record := stored
      obtain ⟨caughtUp, closedStatus⟩ := Bool.and_eq_true_iff.mp closed
      have reached := of_decide_eq_true ((Bool.or_eq_true_iff.mp caughtUp).resolve_left (nomatch ·))
      have terminal : record.phase.isTerminal = true :=
        isTerminal_of_closed (certain record stored) closedStatus
      have ended : Ended execution record.lastObservationSequence store :=
        .inl ⟨record, stored, terminal, rfl⟩
      have endedAfter : Ended execution record.lastObservationSequence after :=
        (serving_resume (Ended execution record.lastObservationSequence)
          (fun _ _ _ exact ended step => ended.step exact step)
          (fun _ _ _ _ ended enrols => ended.enrol enrols) exact ended later).2
      have status : publicStatus record = .terminal := publicStatus_terminal terminal
      cases snapshot' with
      | archived tombstone' =>
        have storedAfter : after.tombstones.get? execution = some tombstone' := storedAfter
        obtain rfl : rows' = [] := archivedRows tombstone' rfl
        refine ⟨?_, fun _ member => nomatch member⟩
        rcases endedAfter with ⟨record', present, _⟩ | ⟨other, kept, ended⟩
        · rw [exactAfter.exclusive present] at storedAfter
          cases storedAfter
        · rw [storedAfter] at kept
          cases kept
          exact ended.trans status.symm
      | hot record' =>
        have storedAfter : after.executions.get? execution = some record' := storedAfter
        rcases endedAfter with ⟨other, present, stillTerminal, head⟩ | ⟨other, kept, _⟩
        · rw [storedAfter] at present
          cases present
          refine ⟨(publicStatus_terminal stillTerminal).trans status.symm, ?_⟩
          intro observation member
          exact ((hotRows record' rfl observation member).trans_eq head).trans reached
        · rw [exactAfter.exclusive storedAfter] at kept
          cases kept
  · intro execution record present
    obtain ⟨log, history⟩ := (serving_histories attempts).2 execution record present
    have valid := serving_valid attempts execution record present
    obtain rfl := exact.identified execution record present
    refine ⟨log, history, ?_⟩
    intro maximum observationItems positive paged fits
    have followed := followPages_log exact present valid history positive paged fits (log.length + 1) 0
      (Nat.zero_le _) (by omega)
    rwa [List.drop_zero] at followed

end

namespace Sample

def lost : List Attempt :=
  entered ++ [⟨.markUncertain caller execution worker 2 3 "lost", false⟩]

def lateTerminal : PeerObservation where
  execution
  sequence := 1
  category := .terminal
  event := ⟨request.request.invocation, 1, .terminal ⟨.cancelled, [], none, none, "none", rfl, .inl rfl⟩,
    le_rfl⟩
  observedAt := 4

def lateEvidence : List Attempt := [⟨.appendObservation caller execution lateTerminal, false⟩]

def pageFacts (store : ServingStore) : Option (RemoteExecutionStatus × Bool × Nat × Nat) :=
  (@observations lenientContracts store caller execution 0 8 8).toOption.map fun page =>
    (page.status, page.closed, page.nextSequence, page.observations.length)

theorem pageFacts_some {store : ServingStore} {status : RemoteExecutionStatus} {closed : Bool}
    {next length : Nat} (facts : pageFacts store = some (status, closed, next, length)) :
    ∃ page, @observations lenientContracts store caller execution 0 8 8 = .ok page ∧
      page.status = status ∧ page.closed = closed ∧ page.nextSequence = next ∧
      page.observations.length = length := by
  unfold pageFacts at facts
  cases read : @observations lenientContracts store caller execution 0 8 8 with
  | error refusal =>
    rw [read] at facts
    cases facts
  | ok page =>
    rw [read] at facts
    cases facts
    exact ⟨page, rfl, rfl, rfl, rfl, rfl⟩

example : pageFacts (served (entered ++ lateEvidence)).store = some (.terminal, true, 1, 1) := by
  decide +kernel

end Sample

/-- A closed history may be opened again: a page of a hot execution whose outcome is uncertain is closed,
and late terminal evidence then changes the status and adds an observation. -/
theorem late_terminal_reopens_history :
    ¬ ∀ (attempts later : List Attempt) (caller : ServingCaller) (execution : PeerExecutionId)
        (afterSequence maximum observationItems : Nat) (page page' : ObservationPage),
      @observations lenientContracts (Sample.served attempts).store caller execution afterSequence maximum
        observationItems = .ok page → page.closed = true →
      @observations lenientContracts (Sample.served (attempts ++ later)).store caller execution
        afterSequence maximum observationItems = .ok page' →
        page'.status = page.status ∧
          ∀ observation ∈ page'.observations, observation.sequence ≤ page.nextSequence := by
  intro permanent
  have before : Sample.pageFacts (Sample.served Sample.lost).store = some (.outcomeUnknown, true, 0, 0) := by
    decide +kernel
  have after : Sample.pageFacts (Sample.served (Sample.lost ++ Sample.lateEvidence)).store =
      some (.terminal, true, 1, 1) := by
    decide +kernel
  obtain ⟨page, read, status, closed, _⟩ := Sample.pageFacts_some before
  obtain ⟨page', readAfter, statusAfter, _⟩ := Sample.pageFacts_some after
  have same := (permanent _ _ _ _ _ _ _ page page' read closed readAfter).1
  rw [status, statusAfter] at same
  cases same

end Milkdrift.Serving
