/-
Purpose: The invariant of the daemon: journals are histories, threads know only their records.
Trusted boundary: Codec, Contracts
-/
import Milkdrift.Lifecycle.History
import Milkdrift.Protocol.Effects
import Milkdrift.Protocol.Scheduling

namespace Milkdrift

open WorkflowSnapshot Knowledge Shared List

/-! ### What a commit does -/

variable {commit : WorkflowCommit}

theorem Store.commitWorkflow_cases {store store' : Store} {outcome : WorkflowCommitOutcome}
    (done : store.commitWorkflow commit = .ok (outcome, store')) :
    (∃ receipt, outcome = .replay receipt ∧ commit.command ≠ none) ∨ ∃ receipt, outcome = .applied receipt ∧
        (store.rows.get? commit.snapshot.workflow).map generation = commit.expectedGeneration ∧
        store'.rows = store.rows.insert commit.snapshot.workflow commit.snapshot := by
  simp only [Store.commitWorkflow, except_bind_eq_ok] at done
  obtain ⟨replayed, looked, done⟩ := done
  cases replayed with
  | some receipt =>
    cases done
    refine .inl ⟨receipt, rfl, fun silent => ?_⟩
    rw [silent] at looked
    cases looked
  | none =>
    simp only [checked_eq_ok_iff, Store.validateReplaced] at done
    obtain ⟨_, _, _, ⟨_, expected, _⟩, applied⟩ := done
    unfold Store.apply at applied
    split at applied
    · cases applied
      exact .inr ⟨none, rfl, expected, rfl⟩
    · simp only [except_bind_eq_ok] at applied
      obtain ⟨_, _, _, _, same⟩ := applied
      cases same
      exact .inr ⟨_, rfl, expected, rfl⟩

/-! ### Histories in the journal -/

variable {entry : Entry} {save : Save}

namespace Shared

variable {shared shared' : Shared}

theorem history_saved (grown : shared'.journal = shared.journal ++ [.saved save]) (id : WorkflowId) :
    shared'.history id = shared.history id ++ (if save.record.id = id then [save] else []) := by
  unfold history
  rw [grown, filterMap_append]
  by_cases here : save.record.id = id <;> simp [here]

theorem history_entered (grown : shared'.journal = shared.journal ++ [.entered entry])
    (id : WorkflowId) : shared'.history id = shared.history id := by
  unfold history
  rw [grown, filterMap_append]
  exact append_nil _

theorem history_journal (journal : shared'.journal = shared.journal) (id : WorkflowId) :
    shared'.history id = shared.history id := by
  unfold history
  rw [journal]

theorem mem_history (shared : Shared) (id : WorkflowId) (save : Save) :
    save ∈ shared.history id ↔ .saved save ∈ shared.journal ∧ save.record.id = id := by
  unfold history
  rw [mem_filterMap]
  constructor
  · rintro ⟨event, member, found⟩
    cases event with
    | entered entry => cases found
    | saved other =>
      simp only [Option.ite_none_right_eq_some, Option.some.injEq] at found
      obtain ⟨here, rfl⟩ := found
      exact ⟨member, here⟩
  · rintro ⟨member, here⟩
    exact ⟨_, member, by simp [here]⟩

end Shared

variable [Codec]

structure Coherent (shared : Shared) (ghosts : List Knowledge) : Prop where
  row : ∀ id row, shared.store.rows.get? id = some row →
    row.workflow = id ∧ row.document.id = id ∧ row.generation = row.document.generation ∧
      History (shared.history id) row.document
  absent : ∀ id, shared.store.rows.get? id = none → shared.history id = []
  known : ∀ ghost ∈ ghosts, ∀ record ∈ ghost.known, ∃ save ∈ shared.history record.id, save.record = record
  saved : ∀ ghost ∈ ghosts, ∀ pair ∈ ghost.saved, ∃ save ∈ shared.history pair.2.id,
    save.cause = pair.1 ∧ save.record = pair.2

namespace Coherent

variable {shared shared' : Shared} {ghosts : List Knowledge}

theorem relabelled (coherent : Coherent shared ghosts) (store : shared'.store = shared.store)
    (same : ∀ id, shared'.history id = shared.history id) : Coherent shared' ghosts := by
  refine ⟨fun id row found => ?_, fun id missing => ?_, ?_, ?_⟩
  · rw [store] at found
    rw [same]
    exact coherent.row id row found
  · rw [store] at missing
    rw [same]
    exact coherent.absent id missing
  · simpa only [same] using coherent.known
  · simpa only [same] using coherent.saved

theorem forget (coherent : Coherent shared ghosts) {fewer : List Knowledge}
    (subset : fewer ⊆ ghosts) : Coherent shared fewer where
  row := coherent.row
  absent := coherent.absent
  known ghost member := coherent.known ghost (subset member)
  saved ghost member := coherent.saved ghost (subset member)

variable {ghost : Knowledge} {base : WorkflowRecord}

theorem informed {before after : List Knowledge} {wiser : Knowledge}
    (coherent : Coherent shared (before ++ ghost :: after))
    (known : ∀ record ∈ wiser.known, record ∈ ghost.known ∨ ∃ save ∈ shared.history record.id,
      save.record = record)
    (saved : ∀ pair ∈ wiser.saved, pair ∈ ghost.saved ∨ ∃ save ∈ shared.history pair.2.id, save.cause =
      pair.1 ∧ save.record = pair.2) : Coherent shared (before ++ wiser :: after) := by
  have others : ∀ other ∈ before ++ wiser :: after, other = wiser ∨ other ∈ before ++ ghost :: after := by
    intro other member
    simp only [mem_append, mem_cons] at member ⊢
    tauto
  refine ⟨coherent.row, coherent.absent, fun other member record inside => ?_,
    fun other member pair inside => ?_⟩
  · rcases others other member with rfl | old
    · rcases known record inside with earlier | new
      · exact coherent.known ghost (by simp) record earlier
      · exact new
    · exact coherent.known other old record inside
  · rcases others other member with rfl | old
    · rcases saved pair inside with earlier | new
      · exact coherent.saved ghost (by simp) pair earlier
      · exact new
    · exact coherent.saved other old pair inside

/-- The record a permitted commit was computed from is the stored one: a generation names one record of
the history. -/
theorem base_stored (coherent : Coherent shared ghosts) (member : ghost ∈ ghosts)
    (known : base ∈ ghost.known) {row : WorkflowSnapshot}
    (found : shared.store.rows.get? base.id = some row) (same : row.generation = base.generation) :
    row.document = base := by
  obtain ⟨_, _, generation, history⟩ := coherent.row base.id row found
  obtain ⟨save, inside, recorded⟩ := coherent.known ghost member base known
  obtain ⟨last, inside', latest⟩ := history.last_mem
  have one : save = last := history.unique inside inside' (by rw [recorded, latest, ← generation, same])
  rw [← latest, ← one, recorded]

theorem rule (coherent : Coherent shared ghosts) (member : ghost ∈ ghosts) {cause : Cause}
    (history : History (shared.history base.id) base) (known : KnownRule ghost base cause) :
    Rule (shared.history base.id) base cause where
  start task same := by
    refine (known.start task same).imp_right ?_
    rintro ⟨failed, inside, failure, exhausted, here, own⟩
    obtain ⟨save, recorded, cause_same, record_same⟩ := coherent.saved ghost member failed inside
    rw [here] at recorded
    refine ⟨save, recorded, ⟨by rw [cause_same]; exact failure, by rw [record_same]; exact exhausted⟩,
      fun later inside' after => ?_⟩
    obtain ⟨pair, mine, there, numbered, plain⟩ := own later.record.generation
      (by rw [← record_same]; exact after) (history.generation_le inside')
    obtain ⟨save', recorded', cause_same', record_same'⟩ := coherent.saved ghost member pair mine
    rw [there] at recorded'
    have one : save' = later := history.unique recorded' inside' (by rw [record_same', numbered])
    rw [← one, cause_same']
    exact plain
  requeue task same := by
    obtain ⟨seen, inside, here, rest⟩ := known.requeue task same
    obtain ⟨save, recorded, record_same⟩ := coherent.known ghost member seen inside
    rw [here] at recorded
    exact ⟨save, recorded, by rw [record_same]; exact rest⟩

theorem committed (coherent : Coherent shared ghosts) (member : ghost ∈ ghosts)
    (permitted : Permitted ghost commit) {store : Store}
    (expected : (shared.store.rows.get? commit.snapshot.workflow).map generation =
      commit.expectedGeneration)
    (rows : store.rows = shared.store.rows.insert commit.snapshot.workflow commit.snapshot) :
    Coherent (Milkdrift.committed shared commit store) ghosts ∧
      ∃ save ∈ (Milkdrift.committed shared commit store).history commit.snapshot.document.id,
        save.cause = commit.cause ∧ save.record = commit.snapshot.document := by
  have named := permitted.workflow
  have grown : ∀ id, (Milkdrift.committed shared commit store).history id = shared.history id ++
      (if commit.snapshot.document.id = id then
        [⟨(shared.store.rows.get? commit.snapshot.workflow).map document,
          commit.cause, commit.snapshot.document⟩] else []) := fun id =>
    @history_saved _ shared (Milkdrift.committed shared commit store) rfl id
  have monotone : ∀ id save, save ∈ shared.history id →
      save ∈ (Milkdrift.committed shared commit store).history id := by
    intro id save inside
    rw [grown]
    exact mem_append_left _ inside
  have continued : History ((Milkdrift.committed shared commit store).history
      commit.snapshot.document.id) commit.snapshot.document := by
    rw [grown, if_pos rfl, named]
    cases found : shared.store.rows.get? commit.snapshot.document.id with
    | none =>
      rw [named, found] at expected
      obtain ⟨cause, created⟩ := permitted.created expected.symm
      rw [coherent.absent _ found, cause]
      exact .create created
    | some row =>
      rw [named, found] at expected
      obtain ⟨base, known, numbered, same, transition, rule⟩ :=
        permitted.replaced row.generation expected.symm
      rw [← same] at found ⊢
      have stored : row.document = base := coherent.base_stored member known found numbered.symm
      obtain ⟨_, _, _, history⟩ := coherent.row _ row found
      rw [stored] at history
      simp only [Option.map_some, stored]
      exact .step history transition (coherent.rule member history rule)
  refine ⟨⟨fun id row found => ?_, fun id missing => ?_, fun other inside record known => ?_,
    fun other inside pair saved => ?_⟩, ?_⟩
  · simp only [Milkdrift.committed, rows, SortedMap.get?_insert] at found
    split at found
    next here =>
      cases found
      exact ⟨here.symm, named.symm.trans here.symm, permitted.generation,
        by rw [here, named]; exact continued⟩
    next apart =>
      have elsewhere : ¬ commit.snapshot.document.id = id := fun here =>
        apart (here.symm.trans named.symm)
      rw [grown, if_neg elsewhere, append_nil]
      exact coherent.row id row found
  · simp only [Milkdrift.committed, rows, SortedMap.get?_insert] at missing
    split at missing
    · cases missing
    next apart =>
      have elsewhere : ¬ commit.snapshot.document.id = id := fun here =>
        apart (here.symm.trans named.symm)
      rw [grown, if_neg elsewhere, append_nil]
      exact coherent.absent id missing
  · obtain ⟨save, recorded, rest⟩ := coherent.known other inside record known
    exact ⟨save, monotone _ _ recorded, rest⟩
  · obtain ⟨save, recorded, rest⟩ := coherent.saved other inside pair saved
    exact ⟨save, monotone _ _ recorded, rest⟩
  · refine ⟨⟨(shared.store.rows.get? commit.snapshot.workflow).map document,
      commit.cause, commit.snapshot.document⟩, ?_, rfl, rfl⟩
    rw [grown, if_pos rfl]
    exact mem_append_right _ (mem_singleton.mpr rfl)

end Coherent

/-! ### One answer -/

variable {shared shared' : Shared} {reply : Reply} {thread : Nat} {op : Request}
  {journal : List Event}

omit [Codec] in
/-- A commit request leaves the shared state alone, or it is an applied commit, of which the thread
learns unless the reply is lost. -/
theorem respondCommit_cases {answer : Except PersistenceError WorkflowCommitOutcome}
    (answered : respondCommit shared commit reply = some (answer, shared')) :
    (shared' = shared ∧ (∀ receipt, answer ≠ .ok (.applied receipt)) ∧
        ∀ receipt, answer = .ok (.replay receipt) → commit.command ≠ none) ∨
      ∃ store, shared' = committed shared commit store ∧
        (shared.store.rows.get? commit.snapshot.workflow).map generation = commit.expectedGeneration ∧
        store.rows = shared.store.rows.insert commit.snapshot.workflow commit.snapshot ∧
        ∀ receipt, answer ≠ .ok (.replay receipt) := by
  unfold respondCommit at answered
  split at answered
  · split at answered
    · cases answered
      exact .inl ⟨rfl, fun _ same => (by cases same), fun _ same => (by cases same)⟩
    next receipt _ done =>
      cases answered
      rcases Store.commitWorkflow_cases done with ⟨_, _, commanded⟩ | ⟨_, different, _⟩
      · exact .inl ⟨rfl, fun _ same => (by cases same), fun _ _ => commanded⟩
      · cases different
    next receipt store done =>
      cases answered
      rcases Store.commitWorkflow_cases done with ⟨_, different, _⟩ | ⟨_, _, expected, rows⟩
      · cases different
      · exact .inr ⟨store, rfl, expected, rows, fun _ same => (by cases same)⟩
  · cases answered
    exact .inl ⟨rfl, fun _ same => (by cases same), fun _ same => (by cases same)⟩
  · split at answered
    next receipt store done =>
      cases answered
      rcases Store.commitWorkflow_cases done with ⟨_, different, _⟩ | ⟨_, _, expected, rows⟩
      · cases different
      · exact .inr ⟨store, rfl, expected, rows, fun _ same => (by cases same)⟩
    · cases answered
  · cases answered

/-- The requests that touch neither the rows nor the journal, and teach nothing. -/
def Request.isQuiet : Request → Bool
  | .commit _ | .enter _ | .readWorkflow _ => false
  | _ => true

section
omit [Codec]

theorem respond_quiet {answer : op.Answer} (quiet : op.isQuiet = true)
    (answered : respond shared thread op reply = some (answer, shared')) :
    shared'.store = shared.store ∧ shared'.journal = shared.journal ∧ answers op answer ∧
      ∀ knowledge, learn knowledge op answer = knowledge := by
  have frame := respond_frame (by rintro _ rfl; cases quiet) answered
  refine ⟨frame.store, frame.journal (by rintro _ rfl; cases quiet), ?_⟩
  cases op with
  | commit | enter | readWorkflow => cases quiet
  | _ => exact ⟨trivial, fun _ => rfl⟩

theorem respond_enter {answer : Unit}
    (answered : respond shared thread (.enter entry) reply = some (answer, shared')) :
    shared'.store = shared.store ∧ shared'.journal = shared.journal ++ [.entered entry] := by
  cases reply <;> cases answered
  exact ⟨rfl, rfl⟩

theorem learn_commit (knowledge : Knowledge) (commit : WorkflowCommit)
    (answer : Except PersistenceError WorkflowCommitOutcome) :
    learn knowledge (.commit commit) answer = knowledge ∨
      ∃ receipt, answer = .ok (.applied receipt) ∧ learn knowledge (.commit commit) answer =
        { known := commit.snapshot.document :: knowledge.known
          saved := (commit.cause, commit.snapshot.document) :: knowledge.saved
          token := commit.cause.token commit.snapshot.document.id knowledge.token } := by
  cases answer with
  | error error => exact .inl rfl
  | ok outcome =>
    cases outcome with
    | replay receipt => exact .inl rfl
    | applied receipt => exact .inr ⟨receipt, rfl, rfl⟩

end

theorem Coherent.answer {before after : List Knowledge} {ghost : Knowledge} {answer : op.Answer}
    (coherent : Coherent shared (before ++ ghost :: after)) (permitted : permits ghost op)
    (answered : respond shared thread op reply = some (answer, shared')) :
    answers op answer ∧ Coherent shared' (before ++ learn ghost op answer :: after) := by
  cases sort : op.isQuiet with
  | true =>
    obtain ⟨store, journal, possible, same⟩ := respond_quiet sort answered
    rw [same]
    exact ⟨possible, coherent.relabelled store fun id => history_journal journal id⟩
  | false =>
    cases op with
    | enter entry =>
      obtain ⟨store, journal⟩ := respond_enter answered
      have kept := coherent.relabelled store fun id => history_entered journal id
      exact ⟨trivial, kept.informed (fun _ => .inl) fun _ => .inl⟩
    | readWorkflow id =>
      cases reply with
      | proceed =>
        cases answered
        cases found : shared.store.rows.get? id with
        | none => exact ⟨fun _ same => (by cases same), coherent⟩
        | some row =>
          obtain ⟨named, here, _, history⟩ := coherent.row id row found
          refine ⟨fun other same => ?_, coherent.informed (fun record inside => ?_) fun _ => .inl⟩
          · cases same
            exact named
          · rcases mem_cons.mp inside with rfl | old
            · obtain ⟨save, recorded, latest⟩ := history.last_mem
              exact .inr ⟨save, by rw [here]; exact recorded, latest⟩
            · exact .inl old
      | failed error =>
        cases answered
        exact ⟨fun _ same => (by cases same), coherent⟩
      | _ => cases answered
    | commit commit =>
      change respondCommit shared commit reply = some (answer, shared') at answered
      have inside : ghost ∈ before ++ ghost :: after := by simp
      rcases respondCommit_cases answered with ⟨rfl, unapplied, replayed⟩ |
        ⟨store, rfl, expected, rows, unreplayed⟩
      · refine ⟨replayed, ?_⟩
        rcases learn_commit ghost commit answer with same | ⟨receipt, applied, _⟩
        · rw [same]
          exact coherent
        · exact absurd applied (unapplied receipt)
      · refine ⟨fun receipt same => absurd same (unreplayed receipt), ?_⟩
        obtain ⟨coherent', save, recorded, cause, latest⟩ :=
          coherent.committed inside permitted expected rows
        rcases learn_commit ghost commit answer with same | ⟨receipt, applied, same⟩
        · rw [same]
          exact coherent'
        · rw [same]
          refine coherent'.informed (fun record known => ?_) fun pair saved => ?_
          · rcases mem_cons.mp known with rfl | old
            · exact .inr ⟨save, recorded, latest⟩
            · exact .inl old
          · rcases mem_cons.mp saved with rfl | old
            · exact .inr ⟨save, recorded, cause, latest⟩
            · exact .inl old
    | _ => cases sort

/-! ### Entry tokens -/

def EntrySaved (journal : List Event) (entry : Entry) : Prop :=
  ∃ save envelope, .saved save ∈ journal ∧ save.record.id = entry.workflow ∧
    save.cause = .entry entry.task entry.dispatch entry.exact envelope

def Cause.entryOf (task : TaskId) : Cause → Bool
  | .entry entered _ _ _ => decide (entered = task)
  | _ => false

def Event.commitsEntry (workflow : WorkflowId) (task : TaskId) : Event → Bool
  | .saved save => decide (save.record.id = workflow) && save.cause.entryOf task
  | .entered _ => false

def Event.enters (workflow : WorkflowId) (task : TaskId) : Event → Bool
  | .entered entry => decide (entry.workflow = workflow ∧ entry.task = task)
  | .saved _ => false

def Knowledge.mayEnter (workflow : WorkflowId) (task : TaskId) (knowledge : Knowledge) : Bool :=
  knowledge.token.any fun entry => decide (entry.workflow = workflow ∧ entry.task = task)

/-- Every token is backed by a committed entry, every external entry by an earlier one, and no committed
entry is used twice. -/
structure Ticketed (journal : List Event) (ghosts : List Knowledge) : Prop where
  token : ∀ ghost ∈ ghosts, ∀ entry, ghost.token = some entry → EntrySaved journal entry
  entered : ∀ before entry after, journal = before ++ .entered entry :: after → EntrySaved before entry
  count : ∀ workflow task, ghosts.countP (·.mayEnter workflow task) +
    journal.countP (·.enters workflow task) ≤ journal.countP (·.commitsEntry workflow task)

section
omit [Codec]

theorem EntrySaved.append (saved : EntrySaved journal entry) (later : List Event) :
    EntrySaved (journal ++ later) entry := by
  obtain ⟨save, envelope, inside, rest⟩ := saved
  exact ⟨save, envelope, mem_append_left _ inside, rest⟩

theorem entered_split {before after : List Event} {event : Event}
    (same : journal ++ [event] = before ++ .entered entry :: after) :
    (before = journal ∧ event = .entered entry) ∨
      ∃ shorter, journal = before ++ .entered entry :: shorter := by
  rcases eq_nil_or_concat after with rfl | ⟨shorter, last, rfl⟩
  · obtain ⟨rfl, final⟩ := append_inj' same rfl
    exact .inl ⟨rfl, (cons.inj final).1⟩
  · rw [concat_eq_append, ← cons_append, ← append_assoc] at same
    exact .inr ⟨shorter, (append_inj' same rfl).1⟩

end

namespace Ticketed

variable {journal : List Event} {before after : List Knowledge} {ghost wiser : Knowledge}

section
omit [Codec]

section

variable (ticketed : Ticketed journal (before ++ ghost :: after))
include ticketed

theorem saved
    (learned : wiser.token = ghost.token ∨ wiser.token = save.cause.token save.record.id ghost.token) :
    Ticketed (journal ++ [.saved save]) (before ++ wiser :: after) := by
  -- a token that is not the thread's old one is the token of this save
  have origin : ∀ entry, wiser.token = some entry → ghost.token = some entry ∨
      ∃ envelope, save.record.id = entry.workflow ∧
        save.cause = .entry entry.task entry.dispatch entry.exact envelope := by
    intro entry held
    rcases learned with same | same
    · exact .inl (same ▸ held)
    · rw [same] at held
      cases cause : save.cause with
      | entry task dispatch exact envelope =>
        rw [cause] at held
        cases held
        exact .inr ⟨envelope, rfl, rfl⟩
      | _ =>
        rw [cause] at held
        exact .inl held
  refine ⟨fun other member entry held => ?_, fun earlier entry later same => ?_, fun workflow task => ?_⟩
  · have old : ∀ g ∈ before ++ ghost :: after, g.token = some entry →
        EntrySaved (journal ++ [.saved save]) entry := fun g inside token =>
      (ticketed.token g inside entry token).append _
    have placed : other = wiser ∨ other ∈ before ++ ghost :: after := by
      simp only [mem_append, mem_cons] at member ⊢
      tauto
    rcases placed with rfl | inside
    · rcases origin entry held with token | ⟨envelope, here, cause⟩
      · exact old ghost (by simp) token
      · exact ⟨save, envelope, by simp, here, cause⟩
    · exact old other inside held
  · rcases entered_split same with ⟨_, different⟩ | ⟨shorter, split⟩
    · cases different
    · exact ticketed.entered earlier entry shorter split
  · have old := ticketed.count workflow task
    have step : wiser.mayEnter workflow task = true → ghost.mayEnter workflow task = true ∨
        Event.commitsEntry workflow task (.saved save) = true := by
      intro may
      obtain ⟨entry, held, matching⟩ := Option.any_eq_true _ _ |>.mp may
      rcases origin entry held with token | ⟨envelope, here, cause⟩
      · exact .inl (Option.any_eq_true _ _ |>.mpr ⟨entry, token, matching⟩)
      · refine .inr ?_
        simp only [decide_eq_true_eq] at matching
        simp [Event.commitsEntry, Cause.entryOf, here, cause, matching]
    have outside : Event.enters workflow task (.saved save) = false := rfl
    simp only [countP_append, countP_cons, countP_nil, outside, Bool.false_eq_true, if_false] at old ⊢
    cases may : wiser.mayEnter workflow task with
    | false =>
      rw [if_neg Bool.false_ne_true]
      omega
    | true =>
      rw [if_pos rfl]
      rcases step may with had | commits
      · rw [if_pos had] at old
        omega
      · rw [if_pos commits]
        omega

theorem enter (held : ghost.token = some entry) (spent : wiser.token = none) :
    Ticketed (journal ++ [.entered entry]) (before ++ wiser :: after) := by
  have inside : ghost ∈ before ++ ghost :: after := by simp
  refine ⟨fun other member found token => ?_, fun earlier found later same => ?_, fun workflow task => ?_⟩
  · refine (ticketed.token other ?_ found token).append _
    simp only [mem_append, mem_cons] at member ⊢
    rcases member with left | rfl | right
    · exact .inl left
    · rw [spent] at token
      cases token
    · exact .inr (.inr right)
  · rcases entered_split same with ⟨rfl, this⟩ | ⟨shorter, split⟩
    · cases this
      exact ticketed.token ghost inside entry held
    · exact ticketed.entered earlier found shorter split
  · have old := ticketed.count workflow task
    have had : ghost.mayEnter workflow task = Event.enters workflow task (.entered entry) := by
      simp [mayEnter, Event.enters, held]
    have has : wiser.mayEnter workflow task = false := by simp [mayEnter, spent]
    simp only [countP_append, countP_cons, countP_nil, had, has, Event.commitsEntry,
      Bool.false_eq_true, if_false] at old ⊢
    omega

theorem congr (same : wiser.token = ghost.token) : Ticketed journal (before ++ wiser :: after) := by
  have may : ∀ workflow task, wiser.mayEnter workflow task = ghost.mayEnter workflow task :=
    fun workflow task => by simp only [mayEnter, same]
  refine ⟨fun other member entry token => ?_, ticketed.entered, fun workflow task => ?_⟩
  · simp only [mem_append, mem_cons] at member
    rcases member with left | rfl | right
    · exact ticketed.token other (by simp [left]) entry token
    · exact ticketed.token ghost (by simp) entry (same ▸ token)
    · exact ticketed.token other (by simp [right]) entry token
  · have old := ticketed.count workflow task
    simpa only [countP_append, countP_cons, may] using old

end

end

theorem answer {shared shared' : Shared} {thread : Nat} {op : Request} {reply : Reply}
    {answer : op.Answer} (ticketed : Ticketed shared.journal (before ++ ghost :: after))
    (permitted : permits ghost op) (answered : respond shared thread op reply = some (answer, shared')) :
    Ticketed shared'.journal (before ++ learn ghost op answer :: after) := by
  cases sort : op.isQuiet with
  | true =>
    obtain ⟨_, journal, _, same⟩ := respond_quiet sort answered
    rw [same, journal]
    exact ticketed
  | false =>
    cases op with
    | enter entry =>
      rw [(respond_enter answered).2]
      exact ticketed.enter permitted rfl
    | readWorkflow id =>
      cases reply with
      | proceed =>
        cases answered
        cases found : shared.store.rows.get? id <;> exact ticketed.congr rfl
      | failed error =>
        cases answered
        exact ticketed
      | _ => cases answered
    | commit commit =>
      change respondCommit shared commit reply = some (answer, shared') at answered
      have told : (learn ghost (.commit commit) answer).token = ghost.token ∨
          (learn ghost (.commit commit) answer).token =
            commit.cause.token commit.snapshot.document.id ghost.token := by
        rcases learn_commit ghost commit answer with same | ⟨_, _, same⟩
        · exact .inl (by rw [same])
        · exact .inr (by rw [same])
      rcases respondCommit_cases answered with ⟨rfl, unapplied, _⟩ | ⟨store, rfl, _⟩
      · rcases learn_commit ghost commit answer with same | ⟨receipt, applied, _⟩
        · rw [same]
          exact ticketed
        · exact absurd applied (unapplied receipt)
      · exact ticketed.saved told
    | _ => cases sort

end Ticketed

/-! ### The daemon -/

variable [Contracts]

/-- Every operation keeps the discipline of a thread from the start. -/
theorem operates_meets (settings : RuntimeSettings) :
    Operates settings fun program => Meets program nothing fun _ _ => True where
  returning _ meets := Meets.andThen meets fun _ _ _ => Meets.pure trivial
  tick := meets_tick settings
  execute := meets_execute
  recover pages := meets_recoverPages pages none []
  cancellationActions := meets_cancellationActions
  executeCancellation := meets_executeCancellation
  record := meets_record
  checkContinuation := meets_checkContinuation
  create := meets_createRequest
  edit := meets_editRequest
  rejectModelBatch := meets_rejectModelBatch
  refuseModelRepair := meets_refuseModelRepair
  closeAdmission := (Silent.request rfl).meets fun _ => trivial

theorem daemon_invariant (settings : RuntimeSettings) :
    System.ThreadInvariant (daemon settings) threadProtocol
      (fun (shared : Shared) (ghosts : List Knowledge) =>
        Coherent shared ghosts ∧ Ticketed shared.journal ghosts) where
  spawn := by
    rintro shared ghosts operation program ⟨coherent, ticketed⟩ launched
    refine ⟨nothing, Program.Conforms.mono ((operates_meets settings).launched launched) fun _ _ _ => trivial,
      ⟨coherent.row, coherent.absent, fun ghost member => ?_, fun ghost member => ?_⟩,
      ⟨fun ghost member => ?_, ticketed.entered, fun workflow task => ?_⟩⟩
    · rcases mem_append.mp member with old | new
      · exact coherent.known ghost old
      · cases mem_singleton.mp new
        exact fun _ inside => nomatch inside
    · rcases mem_append.mp member with old | new
      · exact coherent.saved ghost old
      · cases mem_singleton.mp new
        exact fun _ inside => nomatch inside
    · rcases mem_append.mp member with old | new
      · exact ticketed.token ghost old
      · cases mem_singleton.mp new
        exact fun _ held => nomatch held
    · rw [countP_append]
      exact ticketed.count workflow task
  answer := by
    rintro shared before ghost after op reply answer shared' ⟨coherent, ticketed⟩ permitted answered
    have kept := coherent.answer permitted answered
    exact ⟨kept.1, kept.2, ticketed.answer permitted answered⟩
  restart := by
    rintro shared ghosts ⟨coherent, ticketed⟩
    refine ⟨(coherent.forget (nil_subset _)).relabelled rfl fun id => rfl, ?_⟩
    exact ⟨fun _ member => (nomatch member), ticketed.entered, fun workflow task =>
      Nat.le_trans (Nat.add_le_add_right (Nat.zero_le _) _) (ticketed.count workflow task)⟩

omit [Contracts] in
/-- The daemon starts without rows, history and threads. -/
theorem initial_coherent : Coherent initial [] ∧ Ticketed initial.journal [] := by
  refine ⟨⟨fun _ _ found => (nomatch found), fun _ _ => rfl, fun _ member => (nomatch member),
    fun _ member => (nomatch member)⟩, fun _ member => (nomatch member), fun before entry after same => ?_,
    fun _ _ => Nat.le_refl 0⟩
  exact absurd same (by simp [initial])

/-! ### Reachable configurations -/

variable {settings : RuntimeSettings} {config : (daemon settings).Config}

section

variable (reached : Reached settings config)
include reached

theorem Reached.consistent :
    ∃ ghosts, Coherent config.shared ghosts ∧ Ticketed config.shared.journal ghosts := by
  obtain ⟨ghosts, _, holds⟩ :=
    System.Reachable.invariant (daemon_invariant settings) initial_coherent reached
  exact ⟨ghosts, holds⟩

theorem Reached.history (workflow : WorkflowId) :
    config.shared.history workflow = [] ∨ ∃ row, config.shared.store.rows.get? workflow = some row ∧
      row.document.id = workflow ∧ History (config.shared.history workflow) row.document := by
  obtain ⟨_, coherent, _⟩ := reached.consistent
  cases found : config.shared.store.rows.get? workflow with
  | none => exact .inl (coherent.absent workflow found)
  | some row =>
    obtain ⟨_, here, _, history⟩ := coherent.row workflow row found
    exact .inr ⟨row, rfl, here, history⟩

theorem Reached.recorded {workflow : WorkflowId} {before after : List Save}
    (located : config.shared.history workflow = before ++ save :: after) :
    ∃ row, config.shared.store.rows.get? workflow = some row ∧ row.document.id = workflow ∧
      History (config.shared.history workflow) row.document := by
  rcases reached.history workflow with none | recorded
  · simp [none] at located
  · exact recorded

end

end Milkdrift
