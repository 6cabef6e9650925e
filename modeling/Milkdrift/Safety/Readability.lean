/-
Purpose: Under a steady clock, the reader accepts every row the runtime ever committed.
Trusted boundary: Codec, Contracts
-/
import Milkdrift.Deployment
import Milkdrift.Protocol.Timing
import Milkdrift.Safety.Coherence

namespace Milkdrift

open List Shared

section

/-- The clock never stepped back; its answers are kept newest first. -/
def Shared.SteadyClock (shared : Shared) : Prop := shared.clock.Pairwise fun later earlier => earlier ≤ later

def Shared.latest (shared : Shared) : TimestampMillis := shared.clock.headD 0

/-! ### Answers and the clock -/

variable {shared shared' : Shared} {thread : Nat} {op : Request} {reply : Reply}

theorem respond_timeless {answer : op.Answer} (timeless : op.timeless = true)
    (answered : respond shared thread op reply = some (answer, shared')) :
    shared'.store = shared.store ∧ shared'.clock = shared.clock ∧
      ∀ save, Event.saved save ∈ shared'.journal → Event.saved save ∈ shared.journal := by
  have frame := respond_frame (by rintro _ rfl; cases timeless) answered
  refine ⟨frame.store, frame.clock (by rintro rfl; cases timeless), ?_⟩
  by_cases entering : ∃ entry, op = .enter entry
  · obtain ⟨entry, rfl⟩ := entering
    cases reply <;> cases answered
    exact fun save inside => by simpa using inside
  · rw [frame.journal (not_exists.mp entering)]
    exact fun _ old => old

theorem respond_now {answer : Except RuntimeError TimestampMillis}
    (answered : respond shared thread .now reply = some (answer, shared')) :
    (∃ error, answer = .error error ∧ shared' = shared) ∨
      ∃ at_, answer = .ok at_ ∧ shared' = { shared with clock := at_ :: shared.clock } := by
  cases reply with
  | time told =>
    cases told with
    | ok at_ =>
      simp only [respond, Option.ite_none_right_eq_some] at answered
      cases answered.2
      exact .inr ⟨at_, rfl, rfl⟩
    | error error =>
      cases answered
      exact .inl ⟨error, rfl, rfl⟩
  | _ => cases answered

theorem respond_readWorkflow {id : WorkflowId} {answer : Except PersistenceError (Option WorkflowSnapshot)}
    (answered : respond shared thread (.readWorkflow id) reply = some (answer, shared')) :
    shared' = shared ∧ ∀ row, answer = .ok (some row) → shared.store.rows.get? id = some row := by
  cases reply with
  | proceed =>
    cases answered
    exact ⟨rfl, fun row same => Except.ok.inj same⟩
  | failed error =>
    cases answered
    exact ⟨rfl, fun row same => by cases same⟩
  | _ => cases answered

theorem Shared.SteadyClock.of_respond {answer : op.Answer}
    (answered : respond shared thread op reply = some (answer, shared')) (steady : shared'.SteadyClock) :
    shared.SteadyClock := by
  cases sort : op.timeless with
  | true =>
    rw [SteadyClock, (respond_timeless sort answered).2.1] at steady
    exact steady
  | false =>
    cases op with
    | now =>
      rcases respond_now answered with ⟨_, _, rfl⟩ | ⟨_, _, rfl⟩
      · exact steady
      · exact (pairwise_cons.mp steady).2
    | readWorkflow id =>
      rw [(respond_readWorkflow answered).1] at steady
      exact steady
    | commit commit =>
      rcases respondCommit_cases answered with ⟨rfl, _⟩ | ⟨store, rfl, _⟩
      · exact steady
      · exact steady
    | _ => cases sort

/-! ### The invariant -/

structure Legibility (shared : Shared) (ghosts : List TimestampMillis) : Prop where
  rows : ∀ id row, shared.store.rows.get? id = some row →
    Legible row ∧ row.document.updatedAt ≤ shared.latest
  saves : ∀ save, Event.saved save ∈ shared.journal → Duration.readVersion save.record = .ok ()
  told : ∀ ghost ∈ ghosts, ghost ≤ shared.latest

namespace Legibility

variable {shared shared' : Shared} {before after : List TimestampMillis} {ghost : TimestampMillis}

section

variable (legibility : Legibility shared (before ++ ghost :: after))
include legibility

/-- A thread that comes to know another time that has passed. -/
theorem informed {wiser : TimestampMillis}
    (passed : wiser ≤ shared.latest) : Legibility shared (before ++ wiser :: after) where
  rows := legibility.rows
  saves := legibility.saves
  told other member := by
    simp only [mem_append, mem_cons] at member
    rcases member with early | rfl | late
    · exact legibility.told other (by simp [early])
    · exact passed
    · exact legibility.told other (by simp [late])

theorem later {at_ : TimestampMillis}
    (steady : SteadyClock { shared with clock := at_ :: shared.clock }) :
    ghost ≤ at_ ∧ Legibility { shared with clock := at_ :: shared.clock } (before ++ at_ :: after) := by
  have forward : shared.latest ≤ at_ := by
    unfold latest
    cases told : shared.clock with
    | nil => exact Nat.zero_le _
    | cons last rest =>
      exact (pairwise_cons.mp steady).1 last (by rw [told]; exact mem_cons_self)
  have moved : Legibility { shared with clock := at_ :: shared.clock } (before ++ ghost :: after) := {
    rows := fun id row found =>
      ⟨(legibility.rows id row found).1, (legibility.rows id row found).2.trans forward⟩
    saves := legibility.saves
    told := fun other member => (legibility.told other member).trans forward }
  exact ⟨(legibility.told ghost (by simp)).trans forward, moved.informed (Nat.le_refl _)⟩

theorem committed {commit : WorkflowCommit} {store : Store} (timely : Timely ghost (.commit commit))
    (rows : store.rows = shared.store.rows.insert commit.snapshot.workflow commit.snapshot) :
    Legibility (committed shared commit store) (before ++ ghost :: after) where
  rows := by
    change ∀ id row, store.rows.get? id = some row → _
    rw [rows]
    exact SortedMap.forall_insert legibility.rows ⟨timely.1, timely.2.trans (legibility.told ghost (by simp))⟩
  saves save member := by
    rcases mem_append.mp member with old | new
    · exact legibility.saves save old
    · cases mem_singleton.mp new
      exact (readRow_ok timely.1.read).2.2
  told := legibility.told

theorem answer {thread : Nat} {op : Request} {reply : Reply} {answer : op.Answer} (timely : Timely ghost op)
    (answered : respond shared thread op reply = some (answer, shared')) (steady : shared'.SteadyClock) :
    Steady ghost op answer ∧ Legibility shared' (before ++ passed ghost op answer :: after) := by
  cases sort : op.timeless with
  | true =>
    obtain ⟨store, clock, saves⟩ := respond_timeless sort answered
    have kept : Legibility shared' (before ++ ghost :: after) := {
      rows := fun id row found => by
        rw [latest, clock]
        exact legibility.rows id row (store ▸ found)
      saves := fun save member => legibility.saves save (saves save member)
      told := fun other member => by
        rw [latest, clock]
        exact legibility.told other member }
    cases op <;> first | exact ⟨trivial, kept⟩ | cases sort
  | false =>
    cases op with
    | now =>
      rcases respond_now answered with ⟨error, rfl, rfl⟩ | ⟨at_, rfl, rfl⟩
      · exact ⟨fun _ same => (by cases same), legibility⟩
      · obtain ⟨forward, moved⟩ := legibility.later steady
        exact ⟨fun _ same => Except.ok.inj same ▸ forward, moved⟩
    | readWorkflow id =>
      obtain ⟨rfl, stored⟩ := respond_readWorkflow answered
      cases answer with
      | error error => exact ⟨fun _ same => (by cases same), legibility⟩
      | ok found =>
        cases found with
        | none => exact ⟨fun _ same => (by cases same), legibility⟩
        | some row =>
          obtain ⟨legible, past⟩ := legibility.rows id row (stored row rfl)
          refine ⟨fun _ same => ?_, legibility.informed ?_⟩
          · cases same
            exact legible
          · exact Nat.max_le.mpr ⟨legibility.told ghost (by simp), past⟩
    | commit commit =>
      rcases respondCommit_cases answered with ⟨rfl, _⟩ | ⟨store, rfl, _, rows, _⟩
      · exact ⟨trivial, legibility⟩
      · exact ⟨trivial, legibility.committed timely rows⟩
    | _ => cases sort

end

end Legibility

/-! ### Whole runs -/

variable [Codec] [Contracts] {settings : RuntimeSettings}

theorem steady_invariant (settings : RuntimeSettings) :
    System.ThreadInvariant ((daemon settings).restrict SteadyClock) clockProtocol
      (fun (shared : Shared) (ghosts : List TimestampMillis) => Legibility shared ghosts) where
  spawn := by
    intro shared ghosts operation program legibility launched
    refine ⟨(0 : Nat), Program.Conforms.mono ((operates_onTime settings).launched launched) fun _ _ _ => trivial,
      legibility.rows, legibility.saves, fun ghost member => ?_⟩
    rcases mem_append.mp member with old | new
    · exact legibility.told ghost old
    · cases mem_singleton.mp new
      exact Nat.zero_le _
  answer := by
    intro shared before ghost after op reply answer shared' legibility timely answered
    simp only [System.restrict, Option.filter_eq_some_iff, decide_eq_true_eq] at answered
    exact legibility.answer timely answered.1 answered.2
  restart := fun shared ghosts legibility =>
    ⟨legibility.rows, legibility.saves, nofun⟩

theorem Shared.SteadyClock.of_advance {config next : (daemon settings).Config}
    {choice : (daemon settings).Choice} (taken : System.advance config choice = some next)
    (steady : next.shared.SteadyClock) : config.shared.SteadyClock := by
  cases choice with
  | spawn operation =>
    simp only [System.advance, Option.map_eq_some_iff] at taken
    obtain ⟨_, _, rfl⟩ := taken
    exact steady
  | restart =>
    cases taken
    exact steady
  | step thread reply =>
    simp only [System.advance] at taken
    split at taken
    · simp only [Option.map_eq_some_iff] at taken
      obtain ⟨_, answered, rfl⟩ := taken
      exact of_respond answered steady
    · cases taken

/-- **The runtime reads back what it saves.** In every state that the daemon reaches under a clock that
does not step back, the reader accepts every stored row with its document, and the version check
accepts every record that was ever committed. -/
theorem saved_records_readable {config : (daemon settings).Config} (reached : Reached settings config)
    (steady : config.shared.SteadyClock) :
    (∀ workflow row, config.shared.store.rows.get? workflow = some row → readRow row = .ok row.document) ∧
    ∀ workflow, ∀ save ∈ config.shared.history workflow, Duration.readVersion save.record = .ok () := by
  have within := System.Reachable.restrict (fun _ _ _ taken => Shared.SteadyClock.of_advance taken)
    reached steady
  have start : Legibility Shared.initial [] :=
    ⟨fun _ _ found => (nomatch found), fun _ member => (nomatch member), nofun⟩
  obtain ⟨ghosts, _, legibility⟩ :=
    System.Reachable.invariant (steady_invariant settings) start within
  refine ⟨fun workflow row found => (legibility.rows workflow row found).1.read,
    fun workflow save member => ?_⟩
  exact legibility.saves save ((Shared.mem_history _ _ _).mp member).1

end

open Deployment

/-- A start that was entered and settled is read back. -/
theorem saved_records_of_success : ∃ config, Reached Deployment.settings config ∧
    config.shared.SteadyClock ∧ (config.shared.history created).length = 4 ∧
      ∀ save ∈ config.shared.history created, Duration.readVersion save.record = .ok () := by
  obtain ⟨config, reached, steady, four⟩ : ∃ config, Reached Deployment.settings config ∧
      config.shared.clock.Pairwise (fun later earlier => earlier ≤ later) ∧
      (config.shared.history created).length = 4 :=
    Deployment.reached _ oneSuccess (by decide +kernel)
  exact ⟨config, reached, steady, four, (saved_records_readable reached steady).2 created⟩

end Milkdrift
