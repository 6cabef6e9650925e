/-
Purpose: When the cached number of open starts agrees with the stored workflows.
Trusted boundary: Codec, Contracts
-/
import Milkdrift.Progress.Pages
import Milkdrift.Protocol.Ticking
import Milkdrift.Safety.Commands

namespace Milkdrift

open Program SortedMap CacheView Option Scheduling WorkflowSnapshot System

/-! ### What the cache should say -/

def Store.occupancy (store : Store) : Nat := store.rows.sumOf fun row => activeStarts row.document

/-- A cached count is the number of open starts. -/
def Shared.Exact (shared : Shared) : Prop :=
  ∀ count, shared.activeTasks = some count → count = shared.store.occupancy

variable {store : Store} {op : Request} {reply : Reply} {cursor : Option WorkflowId}
  {limit count : Nat} {commit : WorkflowCommit}

/-- A new row exchanges what the old one counted. -/
theorem Store.occupancy_insert {store' : Store}
    (rows : store'.rows = store.rows.insert commit.snapshot.workflow commit.snapshot) :
    store'.occupancy + starts
        ((store.rows.get? commit.snapshot.workflow).map document) =
      store.occupancy + activeStarts commit.snapshot.document := by
  have exchanged := sumOf_insert store.rows commit.snapshot.workflow commit.snapshot
    fun row => activeStarts row.document
  rw [Store.occupancy, Store.occupancy, rows, ← exchanged, starts, map_map]
  rfl

theorem Store.starts_le_occupancy (store : Store) (id : WorkflowId) :
    starts ((store.rows.get? id).map document) ≤ store.occupancy := by
  cases found : store.rows.get? id with
  | none => exact Nat.zero_le _
  | some row =>
    have member : row ∈ store.rows.values := (mem_values_iff _).mpr ⟨id, found⟩
    exact List.le_sum_of_mem (List.mem_map_of_mem member)

theorem Store.occupancy_eq (store : Store) : store.occupancy = pageStarts (store.after none) := by
  rw [Store.after_none]
  rfl

/-! ### What a thread knows is true -/

def Store.unscanned (store : Store) (cursor : Option WorkflowId) : List WorkflowSnapshot :=
  cursor.elim [] fun here => store.after (some here)

/-- What the holder of the gate knows agrees with the shared state. -/
structure Accurate (shared : Shared) (view : CacheView) : Prop where
  rows : ∀ id known, view.rows.get? id = some known →
    (shared.store.rows.get? id).map WorkflowSnapshot.document = known
  cache : ∀ known, view.cache = some known → shared.activeTasks = known
  scan : ∀ cursor count, view.scan = some (cursor, count) →
    count + pageStarts (shared.store.unscanned cursor) = shared.store.occupancy
  paid : view.due = none → shared.Exact
  due : ∀ count, view.due = some (some count) → count = shared.store.occupancy

def Placed (shared : Shared) (index : Nat) (view : CacheView) : Prop :=
  shared.gate = .held index ∧ view.held = true ∧ Accurate shared view ∨
    shared.gate ≠ .held index ∧ view = outside

structure Gated (shared : Shared) (views : List CacheView) : Prop where
  thread : ∀ index view, views[index]? = some view → Placed shared index view
  bound : ∀ index, shared.gate = .held index → index < views.length
  free : shared.gate = .free → shared.Exact
  keyed : shared.store.Keyed

structure SameCache (shared shared' : Shared) : Prop where
  store : shared'.store = shared.store
  gate : shared'.gate = shared.gate
  active : shared'.activeTasks = shared.activeTasks

variable {shared shared' : Shared} {before after : List CacheView} {view : CacheView}

theorem SameCache.refl (shared : Shared) : SameCache shared shared := ⟨rfl, rfl, rfl⟩

theorem SameCache.exact (same : SameCache shared shared') (exact_ : shared.Exact) : shared'.Exact := by
  unfold Shared.Exact
  rw [same.store, same.active]
  exact exact_

theorem SameCache.accurate (same : SameCache shared shared') (accurate : Accurate shared view) :
    Accurate shared' view := by
  refine ⟨?_, ?_, ?_, fun paid => same.exact (accurate.paid paid), ?_⟩
  · rw [same.store]
    exact accurate.rows
  · rw [same.active]
    exact accurate.cache
  · rw [same.store]
    exact accurate.scan
  · rw [same.store]
    exact accurate.due

namespace Gated

theorem placed (gated : Gated shared (before ++ view :: after)) : Placed shared before.length view :=
  gated.thread before.length view (by simp)

/-- What a thread knows is true, whether it holds the gate or not. -/
theorem accurate (gated : Gated shared (before ++ view :: after)) :
    (∀ id known, view.rows.get? id = some known →
      (shared.store.rows.get? id).map document = known) ∧
    ∀ known, view.cache = some known → shared.activeTasks = known := by
  rcases gated.placed with ⟨_, _, accurate⟩ | ⟨_, rfl⟩
  · exact ⟨accurate.rows, accurate.cache⟩
  · refine ⟨fun id known found => ?_, fun known found => ?_⟩
    · simp [outside] at found
    · cases found

variable {view' : CacheView}

section

variable (gated : Gated shared (before ++ view :: after))
include gated

theorem others {other : CacheView} {index : Nat}
    (apart : index ≠ before.length) (found : (before ++ view' :: after)[index]? = some other) :
    Placed shared index other := by
  have exchanged : before ++ view' :: after = (before ++ view :: after).set before.length view' := by
    simp
  rw [exchanged, List.getElem?_set_ne (Ne.symm apart)] at found
  exact gated.thread index other found

theorem owned
    (alone : ∀ other, other ≠ before.length → shared.gate ≠ .held other ∧ shared'.gate ≠ .held other)
    (placed : Placed shared' before.length view') (free : shared'.gate = .free → shared'.Exact)
    (keyed : shared'.store.Keyed) : Gated shared' (before ++ view' :: after) where
  thread index other found := by
    by_cases own : index = before.length
    · subst own
      simp only [List.getElem?_append_right (Nat.le_refl _), Nat.sub_self, List.getElem?_cons_zero,
        some.injEq] at found
      exact found ▸ placed
    · rcases gated.others own found with ⟨held, _⟩ | ⟨_, outside⟩
      · exact absurd held (alone index own).1
      · exact .inr ⟨(alone index own).2, outside⟩
  bound index held := by
    by_cases own : index = before.length
    · subst own
      simp
    · exact absurd held (alone index own).2
  free := free
  keyed := keyed

theorem learned (same : SameCache shared shared') (outside : view = outside → view' = outside)
    (inside : view.held = true → Accurate shared view → view'.held = true ∧ Accurate shared view') :
    Gated shared' (before ++ view' :: after) where
  thread index other found := by
    by_cases own : index = before.length
    · subst own
      simp only [List.getElem?_append_right (Nat.le_refl _), Nat.sub_self, List.getElem?_cons_zero,
        some.injEq] at found
      subst found
      rcases gated.placed with ⟨held, knows, accurate⟩ | ⟨free, idle⟩
      · obtain ⟨knows, accurate⟩ := inside knows accurate
        exact .inl ⟨same.gate.trans held, knows, same.accurate accurate⟩
      · exact .inr ⟨same.gate ▸ free, outside idle⟩
    · rcases gated.others own found with ⟨held, knows, accurate⟩ | ⟨free, idle⟩
      · exact .inl ⟨same.gate.trans held, knows, same.accurate accurate⟩
      · exact .inr ⟨same.gate ▸ free, idle⟩
  bound index held := by
    have inside := gated.bound index (same.gate ▸ held)
    simpa using inside
  free freed := same.exact (gated.free (same.gate ▸ freed))
  keyed := same.store ▸ gated.keyed

end

end Gated

/-! ### One answer -/

/-- Requests that teach nothing leave store, gate and cache. -/
theorem respond_still {thread : Nat} {answer : op.Answer} (still : op.isStill = true)
    (answered : respond shared thread op reply = some (answer, shared')) :
    SameCache shared shared' := by
  have frame := respond_frame (by rintro _ rfl; cases still) answered
  exact ⟨frame.store, frame.gate (by rintro rfl; cases still) (by rintro rfl; cases still),
    frame.active (by rintro _ rfl; cases still)⟩

theorem Store.page_rows (keyed : store.Keyed) {page : WorkflowPage}
    (found : store.page cursor limit count = some page) :
    (page.items.map WorkflowSnapshot.workflow).Nodup ∧
      ∀ row ∈ page.items, store.rows.get? row.workflow = some row := by
  obtain ⟨_, rest, cut⟩ := Store.page_cut keyed found
  have distinct := Store.after_nodup keyed cursor
  rw [cut.split, List.map_append] at distinct
  refine ⟨(List.nodup_append.mp distinct).1, fun row member => ?_⟩
  have coming : row ∈ store.after cursor := by
    rw [cut.split]
    exact List.mem_append_left _ member
  exact (Store.stored_of_mem_after keyed coming).1

theorem Accurate.page {page : WorkflowPage} (accurate : Accurate shared view)
    (keyed : shared.store.Keyed) (found : shared.store.page cursor limit count = some page)
    (total : Nat) (counted : view.counted cursor = some total) :
    total + pageStarts page.items +
      pageStarts (shared.store.unscanned page.next) = shared.store.occupancy := by
  obtain ⟨_, rest, cut⟩ := Store.page_cut keyed found
  -- what is left after the page is what the scan has not seen
  have left : pageStarts (shared.store.unscanned page.next) = pageStarts rest := by
    cases next : page.next with
    | none =>
      rw [cut.ended.mp next]
      rfl
    | some here =>
      rw [← cut.left (by simp [next]), next]
      rfl
  have split : pageStarts (shared.store.after cursor) = pageStarts page.items + pageStarts rest := by
    rw [cut.split]
    simp [pageStarts]
  have sum : total + pageStarts (shared.store.after cursor) = shared.store.occupancy := by
    cases cursor with
    | none =>
      cases counted
      rw [Store.occupancy_eq, Nat.zero_add]
    | some here =>
      obtain ⟨⟨next, sofar⟩, scanned, same⟩ := bind_eq_some_iff.mp counted
      obtain ⟨rfl, same⟩ := ite_none_right_eq_some.mp same
      cases same
      exact accurate.scan (some here) _ scanned
  omega

def Reply.told : Reply → Bool
  | .lost _ => false
  | _ => true

theorem respondCommit_told {answer : Except PersistenceError WorkflowCommitOutcome}
    (told : reply.told = true)
    (answered : respondCommit shared commit reply = some (answer, shared')) :
    (shared' = shared ∧ (∀ receipt, answer ≠ .ok (.applied receipt)) ∧
        ∀ receipt, answer = .ok (.replay receipt) → commit.command ≠ none) ∨
      ∃ store receipt, shared' = committed shared commit store ∧
        store.rows = shared.store.rows.insert commit.snapshot.workflow commit.snapshot ∧
        answer = .ok (.applied receipt) := by
  rcases respondCommit_cases answered with unchanged | ⟨store, same, _, rows, unreplayed⟩
  · exact .inl unchanged
  · cases reply with
    | proceed =>
      simp only [respondCommit] at answered
      split at answered
      · cases answered
        exact .inl ⟨rfl, nofun, nofun⟩
      · cases answered
        exact absurd rfl (unreplayed _)
      · cases answered
        exact .inr ⟨store, _, same, rows, rfl⟩
    | failed error =>
      cases answered
      exact .inl ⟨rfl, fun _ same => (by cases same), fun _ same => (by cases same)⟩
    | lost => cases told
    | _ => cases answered

theorem accurate_inside (exact_ : shared.Exact) : Accurate shared inside where
  rows id known found := by simp [inside] at found
  cache known found := by simp [inside] at found
  scan cursor count found := by simp [inside] at found
  paid _ := exact_
  due count found := by simp [inside] at found

namespace Gated

variable (gated : Gated shared (before ++ view :: after))

include gated

theorem locked (freed : shared.gate = .free) :
    Gated { shared with gate := .held before.length } (before ++ inside :: after) := by
  refine gated.owned (fun other apart => ⟨fun held => ?_, fun held => ?_⟩)
    (.inl ⟨rfl, rfl, accurate_inside (gated.free freed)⟩) (fun free => ?_) gated.keyed
  · rw [freed] at held
    cases held
  · cases held
    exact apart rfl
  · cases free

/-- A thread that holds the gate holds it alone. -/
theorem holder (knows : view.held = true) : (shared.gate = .held before.length ∧ Accurate shared view) ∧
      ∀ other, other ≠ before.length → shared.gate ≠ .held other := by
  rcases gated.placed with ⟨held, _, accurate⟩ | ⟨_, rfl⟩
  · refine ⟨⟨held, accurate⟩, fun other apart here => ?_⟩
    rw [held] at here
    cases here
    exact apart rfl
  · cases knows

theorem unlocked (ready : view.Ready) :
    Gated { shared with gate := .free } (before ++ outside :: after) := by
  obtain ⟨⟨held, accurate⟩, alone⟩ := gated.holder ready.held
  refine gated.owned (fun other apart => ⟨alone other apart, fun here => ?_⟩)
    (.inr ⟨fun here => ?_, rfl⟩) (fun _ => accurate.paid ready.paid) gated.keyed
  · cases here
  · cases here

theorem written {count : Option Nat} (knows : view.held = true) (counted : view.due = some count ∨
      view.due = none ∧ ∃ total, count = some total ∧ view.scan = some (none, total)) :
    Gated { shared with activeTasks := count }
      (before ++ { view with cache := some count, due := none } :: after) := by
  obtain ⟨⟨held, accurate⟩, alone⟩ := gated.holder knows
  have exact_ : ∀ total, count = some total → total = shared.store.occupancy := by
    rintro total rfl
    rcases counted with due | ⟨_, total', same, scanned⟩
    · exact accurate.due total due
    · cases same
      exact accurate.scan none total scanned
  refine gated.owned (fun other apart => ⟨alone other apart, alone other apart⟩)
    (.inl ⟨held, knows, accurate.rows, fun known same => ?_, accurate.scan, fun _ => exact_,
      fun _ same => ?_⟩) (fun freed => ?_) gated.keyed
  · cases same
    rfl
  · cases same
  · rw [held] at freed
    cases freed

theorem committed {store : Store} (ready : view.Ready) {cached : Option Nat}
    (known : view.cache = some cached)
    (stored : ∀ count, cached = some count → ∃ row, view.rows.get? commit.snapshot.workflow = some row)
    (rows : store.rows = shared.store.rows.insert commit.snapshot.workflow commit.snapshot) :
    Gated (Milkdrift.committed shared commit store) (before ++ { view with
        rows := view.rows.insert commit.snapshot.workflow (some commit.snapshot.document)
        scan := none
        due := some (view.updated commit) } :: after) := by
  obtain ⟨⟨held, accurate⟩, alone⟩ := gated.holder ready.held
  refine gated.owned (fun other apart => ⟨alone other apart, alone other apart⟩)
    (.inl ⟨held, ready.held, fun id row found => ?_, accurate.cache, fun _ _ same => ?_,
      fun same => ?_, fun count same => ?_⟩) (fun freed => ?_) fun id row found => ?_
  · show (store.rows.get? id).map document = row
    rw [rows, get?_insert]
    change (view.rows.insert commit.snapshot.workflow (some commit.snapshot.document)).get? id =
      some row at found
    rw [get?_insert] at found
    split
    next here =>
      rw [if_pos here] at found
      exact some.inj found
    next apart =>
      rw [if_neg apart] at found
      exact accurate.rows id row found
  · cases same
  · cases same
  · -- the cache was exact, and the commit exchanges the row that is known
    have exchanged := Store.occupancy_insert rows
    have least := Store.starts_le_occupancy shared.store commit.snapshot.workflow
    have total : view.updated commit = some count := some.inj same
    rw [updated, known, join_some] at total
    obtain ⟨before', rfl, rfl⟩ := map_eq_some_iff.mp total
    obtain ⟨row, found⟩ := stored before' rfl
    have exact_ := accurate.paid ready.paid before' (accurate.cache _ known)
    rw [accurate.rows _ _ found] at exchanged least
    rw [found, join_some]
    show _ = store.occupancy
    omega
  · rw [show (Milkdrift.committed shared commit store).gate = shared.gate from rfl, held] at freed
    cases freed
  · change store.rows.get? id = some row at found
    rw [rows] at found
    exact forall_insert gated.keyed rfl id row found

end Gated

theorem Gated.answer {maximum : Nat} {answer : op.Answer}
    (gated : Gated shared (before ++ view :: after)) (permitted : view.permits maximum op)
    (told : reply.told = true)
    (answered : respond shared before.length op reply = some (answer, shared')) :
    view.answers op answer ∧ Gated shared' (before ++ view.learn op answer :: after) := by
  cases op with
  | lockGate =>
    refine ⟨trivial, ?_⟩
    cases reply <;> simp only [respond, ite_none_right_eq_some] at answered
    · obtain ⟨freed, same⟩ := answered
      cases same
      exact gated.locked freed
    · cases answered
      exact gated
    all_goals cases answered
  | unlockGate =>
    cases reply <;> cases answered
    exact ⟨trivial, gated.unlocked permitted⟩
  | writeActive count =>
    cases reply <;> cases answered
    exact ⟨trivial, gated.written permitted.1 permitted.2⟩
  | readActive =>
    cases reply <;> cases answered
    refine ⟨gated.accurate.2, gated.learned (.refl _) (fun idle => ?_) fun held accurate => ?_⟩
    · subst idle
      rfl
    · simp only [CacheView.learn, held, if_true]
      refine ⟨trivial, accurate.rows, fun known same => ?_, accurate.scan, accurate.paid, accurate.due⟩
      cases same
      rfl
  | readWorkflow id =>
    cases reply <;> cases answered
    · refine ⟨fun row same => ?_, gated.learned (.refl _) (fun idle => ?_) fun held accurate => ?_⟩
      · cases same
        exact ⟨gated.accurate.1 id, fun stored found => gated.keyed id stored found⟩
      · subst idle
        rfl
      · simp only [CacheView.learn, held, if_true]
        refine ⟨trivial, fun other known found => ?_, accurate.cache, accurate.scan, accurate.paid,
          accurate.due⟩
        change (view.rows.insert id _).get? other = some known at found
        rw [get?_insert] at found
        split at found
        next here =>
          subst here
          exact some.inj found
        · exact accurate.rows other known found
    · exact ⟨fun _ same => (by cases same), gated⟩
  | readPage cursor limit =>
    cases reply <;> simp only [respond] at answered <;> try cases answered
    next refusal =>
      exact ⟨fun _ same => (by cases same), gated⟩
    next count =>
      split at answered
      · cases answered
        exact ⟨fun _ same => (by cases same), gated⟩
      obtain ⟨page, cut, same⟩ := map_eq_some_iff.mp answered
      cases same
      obtain ⟨distinct, listed⟩ := Store.page_rows gated.keyed cut
      refine ⟨fun _ same => ?_, gated.learned (.refl _) (fun idle => ?_) fun held accurate => ?_⟩
      · cases same
        refine ⟨distinct, fun row member known found => ?_⟩
        rw [← gated.accurate.1 _ _ found, listed row member]
        rfl
      · subst idle
        rfl
      · simp only [CacheView.learn, held, if_true]
        refine ⟨trivial, fun id known found => ?_, accurate.cache, fun next total scanned => ?_,
          accurate.paid, accurate.due⟩
        · change (noted view.rows page.items).get? id = some known at found
          by_cases member : id ∈ page.items.map WorkflowSnapshot.workflow
          · obtain ⟨row, inside, rfl⟩ := List.mem_map.mp member
            rw [noted_of_mem distinct inside] at found
            rw [listed row inside]
            exact some.inj found
          · rw [noted_of_not_mem member] at found
            exact accurate.rows id known found
        · obtain ⟨sofar, counted, same⟩ := map_eq_some_iff.mp scanned
          cases same
          exact accurate.page gated.keyed cut sofar counted
  | commit commit =>
    obtain ⟨ready, _, cached, known, stored⟩ := permitted
    change respondCommit shared commit reply = some (answer, shared') at answered
    rcases respondCommit_told told answered with
      ⟨rfl, unapplied, replayed⟩ | ⟨store, receipt, rfl, rows, rfl⟩
    · refine ⟨replayed, ?_⟩
      have nothing : view.learn (.commit commit) answer = view := by
        cases answer with
        | error => rfl
        | ok outcome =>
          cases outcome with
          | applied receipt => exact absurd rfl (unapplied receipt)
          | replay => rfl
      rw [nothing]
      exact gated
    · exact ⟨fun receipt same => (by cases same), gated.committed ready known stored rows⟩
  | _ =>
    exact ⟨trivial, gated.learned (respond_still rfl answered) (fun idle => idle)
      fun held accurate => ⟨held, accurate⟩⟩

/-! ### The daemon whose commits are always told -/

section Daemon

variable [Codec] [Contracts] {settings : RuntimeSettings}
  {maximum index : Nat} {program : Action Outcome} {store : Store}

theorem operates_apart (settings : RuntimeSettings) :
    Operates settings fun program => Apart settings.maximumActiveTasks program where
  returning _ apart := apart.bind fun _ => .pure _
  tick := apart_tick settings
  execute := apart_execute
  recover pages := apart_recoverPages pages none []
  cancellationActions := apart_cancellationActions
  executeCancellation := apart_executeCancellation
  record := apart_record
  checkContinuation := apart_checkContinuation
  create := apart_createRequest
  edit := apart_editRequest
  rejectModelBatch := apart_rejectModelBatch
  refuseModelRepair := apart_refuseModelRepair
  closeAdmission := Apart.request rfl

theorem gated_invariant (settings : RuntimeSettings) :
    ThreadInvariant ((daemon settings).answering Reply.told)
      (cacheProtocol settings.maximumActiveTasks) Gated where
  spawn := by
    intro shared views operation program gated launched
    refine ⟨outside, ((operates_apart settings).launched launched).mono fun _ _ _ => trivial,
      fun index view found => ?_, fun index held => ?_, gated.free, gated.keyed⟩
    · rcases Nat.lt_or_ge index views.length with old | new
      · rw [List.getElem?_append_left old] at found
        exact gated.thread index view found
      · rw [List.getElem?_append_right new, List.getElem?_singleton] at found
        obtain ⟨_, same⟩ := ite_none_right_eq_some.mp found
        cases same
        exact .inr ⟨fun held => absurd (gated.bound index held) (by omega), rfl⟩
    · have inside := gated.bound index held
      simp only [List.length_append, List.length_singleton]
      omega
  answer := by
    intro shared before view after op reply answer shared' gated permitted answered
    obtain ⟨told, answered⟩ := ite_none_right_eq_some.mp answered
    exact gated.answer permitted told answered
  restart := by
    intro shared views gated
    exact ⟨nofun, nofun, fun _ => nofun, gated.keyed⟩

omit [Codec] [Contracts] in
theorem initial_gated : Gated Shared.initial [] := by
  refine ⟨fun _ _ found => ?_, fun _ held => ?_, fun _ _ cached => ?_, fun _ _ found => ?_⟩
  · cases found
  · cases held
  · cases cached
  · simp [Shared.initial, Store.empty] at found

def Told (choices : List (daemon settings).Choice) : Prop :=
  ∀ thread reply, .step thread reply ∈ choices → reply.told = true

structure ReachedTold (settings : RuntimeSettings) (config : (daemon settings).Config) : Prop where
  reached : Reached settings config
  told : @System.Reachable _ _ ((daemon settings).answering Reply.told) Shared.initial
    ⟨config.shared, config.threads⟩

variable {config next final : (daemon settings).Config} {choices : List (daemon settings).Choice}

theorem ReachedTold.run (reached : ReachedTold settings config) (told : Told choices)
    (ran : System.run config choices = some final) : ReachedTold settings final :=
  ⟨reached.reached.extend ran, System.Reachable.answering told reached.told ran⟩

theorem ReachedTold.initial : ReachedTold settings ⟨Shared.initial, []⟩ :=
  ⟨.initial _, .initial _⟩

theorem ReachedTold.gated (reached : ReachedTold settings config) :
    ∃ views, List.Forall₂ (fun program view => program.Conforms
        (cacheProtocol settings.maximumActiveTasks) view fun _ _ => True) config.threads views ∧
      Gated config.shared views :=
  System.Reachable.invariant (gated_invariant settings) initial_gated reached.told

theorem ReachedTold.thread (reached : ReachedTold settings config)
    (selected : config.threads[index]? = some program) :
    ∃ view, program.Conforms (cacheProtocol settings.maximumActiveTasks) view (fun _ _ => True) ∧
      Placed config.shared index view := by
  obtain ⟨views, conform, gated⟩ := reached.gated
  obtain ⟨inside, same⟩ := List.getElem?_eq_some_iff.mp selected
  obtain ⟨lengths, each⟩ := List.forall₂_iff_get.mp conform
  have bound : index < views.length := lengths ▸ inside
  refine ⟨views[index], ?_, gated.thread index _ (List.getElem?_eq_getElem bound)⟩
  have conforms := each index inside bound
  rw [List.get_eq_getElem, same] at conforms
  exact conforms

/-! ### How far a tick goes -/

structure Contained (maximum : Nat) (before after : Store) : Prop where
  daemon : after.occupancy ≤ max before.occupancy maximum
  workflow : ∀ id row, after.rows.get? id = some row → ∃ old, before.rows.get? id = some old ∧
    concurrencyLimit row.document = concurrencyLimit old.document ∧
    occupying row.document ≤ max (occupying old.document) (concurrencyLimit old.document)

section
omit [Codec] [Contracts]

theorem Contained.refl (maximum : Nat) (store : Store) : Contained maximum store store :=
  ⟨Nat.le_max_left _ _, fun _ row found => ⟨row, found, rfl, Nat.le_max_left _ _⟩⟩

theorem Contained.trans {first second third : Store} (early : Contained maximum first second)
    (late : Contained maximum second third) : Contained maximum first third where
  daemon := by
    have one := early.daemon
    have two := late.daemon
    omega
  workflow id row found := by
    obtain ⟨middle, between, limit, most⟩ := late.workflow id row found
    obtain ⟨old, present, limit', most'⟩ := early.workflow id middle between
    exact ⟨old, present, limit.trans limit', by omega⟩

end

omit [Contracts] in
theorem contained_of_commit {store' : Store} {old : WorkflowSnapshot}
    (rows : store'.rows = store.rows.insert commit.snapshot.workflow commit.snapshot)
    (stored : store.rows.get? commit.snapshot.workflow = some old)
    (transition : Transition old.document commit.cause commit.snapshot.document)
    (scheduled : commit.cause.scheduled = true)
    (daemon : ∀ task, commit.cause = .start task → store.occupancy < maximum)
    (workflow : ∀ task, commit.cause = .start task ∨ commit.cause = .redispatch task →
      occupying old.document < concurrencyLimit old.document) : Contained maximum store store' where
  daemon := by
    have exchanged := Store.occupancy_insert rows
    rw [stored] at exchanged
    change store'.occupancy + activeStarts old.document = _ at exchanged
    have retained : ∀ id, commit.cause ≠ .requeue id := fun id same => by
      rw [same] at scheduled
      cases scheduled
    rcases transition.activeStarts_le retained with fewer | ⟨⟨task, starts⟩, more⟩
    · omega
    · have room := daemon task starts
      omega
  workflow id row found := by
    rw [rows, get?_insert] at found
    split at found
    next here =>
      cases found
      obtain ⟨limit, fewer | ⟨⟨task, dispatches⟩, more⟩⟩ := transition.occupying_le scheduled
      · exact ⟨old, here ▸ stored, limit, fewer.trans (Nat.le_max_left _ _)⟩
      · have room := workflow task dispatches
        exact ⟨old, here ▸ stored, limit, by omega⟩
    · exact ⟨row, found, rfl, Nat.le_max_left _ _⟩

theorem Reached.transition_of_commit (reached : Reached settings next)
    (same : next.shared = committed shared commit store)
    (rows : store.rows = shared.store.rows.insert commit.snapshot.workflow commit.snapshot)
    (later : commit.cause ≠ .create) :
    ∃ old, shared.store.rows.get? commit.snapshot.workflow = some old ∧
      Transition old.document commit.cause commit.snapshot.document := by
  obtain ⟨_, coherent, _⟩ := reached.consistent
  have stored : next.shared.store.rows.get? commit.snapshot.workflow = some commit.snapshot := by
    rw [same]
    show store.rows.get? _ = _
    rw [rows, get?_insert, if_pos rfl]
  obtain ⟨_, named, _, history⟩ := coherent.row _ _ stored
  have grown := @Shared.history_saved _ shared next.shared (by rw [same]; rfl)
    commit.snapshot.workflow
  rw [grown, if_pos named] at history
  obtain ⟨_, ⟨_, _, created, _⟩ | ⟨base, prior, _, transition, _⟩⟩ := history.split rfl
  · exact absurd created later
  · obtain ⟨old, found, rfl⟩ := map_eq_some_iff.mp prior
    exact ⟨old, found, transition⟩

theorem ReachedTold.contained {choice : (daemon settings).Choice}
    (reached : ReachedTold settings config) (held : config.shared.gate = .held index)
    (selected : config.threads[index]? = some program) (scheduled : Scheduled program)
    (told : Told [choice]) (taken : System.advance config choice = some next) :
    Contained settings.maximumActiveTasks config.shared.store next.shared.store := by
  have later : ReachedTold settings next := reached.run told (by simp [System.run, taken])
  cases choice with
  | restart =>
    cases taken
    exact .refl _ _
  | spawn operation =>
    simp only [System.advance, map_eq_some_iff] at taken
    obtain ⟨_, _, rfl⟩ := taken
    exact .refl _ _
  | step thread reply =>
    have told := told thread reply List.mem_cons_self
    simp only [System.advance] at taken
    split at taken
    case h_2 => cases taken
    rename_i op resume pending
    simp only [map_eq_some_iff, Prod.exists] at taken
    obtain ⟨answer, shared', answered, rfl⟩ := taken
    change respond config.shared thread op reply = some (answer, shared') at answered
    cases sort : op.isCommit with
    | false =>
      rw [show shared'.store = config.shared.store from (respond_uncommitted sort answered).1]
      exact .refl _ _
    | true =>
      cases op with
      | commit commit =>
        change respondCommit config.shared commit reply = some (answer, shared') at answered
        rcases respondCommit_told told answered with ⟨rfl, _⟩ | ⟨store, receipt, rfl, rows, _⟩
        · exact .refl _ _
        · obtain ⟨view, conforms, placed⟩ := reached.thread pending
          obtain ⟨ready, room, _⟩ := conforms.1
          rcases placed with ⟨owned, _, accurate⟩ | ⟨_, rfl⟩
          · -- the holder of the gate is the thread that schedules
            rw [held] at owned
            cases owned
            rw [selected] at pending
            cases pending
            have scheduled : commit.cause.scheduled = true := scheduled.1
            obtain ⟨old, stored, transition⟩ := later.reached.transition_of_commit rfl rows
              fun same => by rw [same] at scheduled; cases scheduled
            refine contained_of_commit rows stored transition scheduled (fun task starts => ?_)
              fun task dispatches => ?_
            · obtain ⟨count, cached, below⟩ := room.daemon task starts
              rw [← accurate.paid ready.paid count (accurate.cache _ cached)]
              exact below
            · obtain ⟨prior, known, below⟩ := room.workflow task dispatches
              have same := accurate.rows _ _ known
              rw [stored] at same
              cases same
              exact below
          · cases ready.held
      | _ => cases sort

theorem ReachedTold.contained_while (reached : ReachedTold settings config)
    (selected : config.threads[index]? = some program) (scheduled : Scheduled program)
    (told : Told choices)
    (ran : runWhile (fun shared : Shared => decide (shared.gate = .held index)) config choices =
      some final) : Contained settings.maximumActiveTasks config.shared.store final.shared.store := by
  let scheduling (config : (daemon settings).Config) : Prop := ReachedTold settings config ∧
    ∃ program, config.threads[index]? = some program ∧ Scheduled program
  let within (first second : Shared) : Prop :=
    Contained settings.maximumActiveTasks first.store second.store
  have : Std.Refl within := ⟨fun shared => .refl _ shared.store⟩
  have : IsTrans Shared within := ⟨fun _ _ _ => .trans⟩
  refine @System.runWhile_relates _ _ (daemon settings) choices _ (fun choice => Told [choice]) scheduling
    within _ _ (fun config choice next held told ⟨reached, program, selected, scheduled⟩ taken => ?_)
    config final (fun _ => ⟨reached, program, selected, scheduled⟩)
    (fun choice member => ?_) ran
  · refine ⟨reached.contained (of_decide_eq_true held) selected scheduled told taken, fun held => ?_⟩
    refine ⟨reached.run told (by simp [System.run, taken]), ?_⟩
    have alive : choice ≠ .restart := fun same => by
      subst same
      cases taken
      cases of_decide_eq_true held
    rcases advance_thread selected taken alive with
      ⟨waiting, _⟩ | ⟨op, resume, _, answer, rfl, _, _, resumed⟩
    · exact ⟨program, waiting, scheduled⟩
    · exact ⟨_, resumed, scheduled.2 answer⟩
  · intro thread reply same
    rw [List.mem_singleton] at same
    exact told thread reply (same ▸ member)

theorem scheduled_of_tick {pages : Nat} {waiting : List (daemon settings).Choice}
    {locked : (daemon settings).Config} (alive : .restart ∉ waiting)
    (ran : run config (.spawn (.tick maximum pages) :: waiting) = some locked) :
    ∃ program, locked.threads[config.threads.length]? = some program ∧ Scheduled program := by
  let whole : Action Outcome := (tick settings maximum pages).returning .starts
  change run ⟨config.shared, config.threads ++ [whole]⟩ waiting = some locked at ran
  have selected : (config.threads ++ [whole])[config.threads.length]? = some whole := by simp
  obtain ⟨program, present, left⟩ := run_residual selected .whole alive ran
  have scheduled : Scheduled whole :=
    Issues.bind (Scheduled.tick settings maximum pages) fun _ => (trivial : Scheduled (pure _))
  exact ⟨program, present, scheduled.residual left⟩

/-- As long as every commit is told, the cached count is exact whenever the gate is free, and a tick, from
when it takes the gate until it leaves it, raises neither the open starts beyond the bound of the
daemon nor the running and uncertain tasks of a workflow beyond the bound of the workflow. -/
theorem occupancy_exact_and_bounded (told : Told choices)
    (ran : System.run ⟨Shared.initial, []⟩ choices = some config) :
    (config.shared.gate = .free → ∀ count, config.shared.activeTasks = some count →
      count = config.shared.store.occupancy) ∧
    ∀ maximum pages waiting locked during final, .restart ∉ waiting → Told waiting → Told during →
      System.run config (.spawn (.tick maximum pages) :: waiting) = some locked →
      System.runWhile (fun shared : Shared => decide (shared.gate = .held config.threads.length))
        locked during = some final →
      Contained settings.maximumActiveTasks locked.shared.store final.shared.store := by
  have reached : ReachedTold settings config := ReachedTold.initial.run told ran
  constructor
  · intro free
    obtain ⟨views, _, gated⟩ := reached.gated
    exact gated.free free
  · intro maximum pages waiting locked during final alive waits schedules ran held
    have spawns : Told (.spawn (.tick maximum pages) :: waiting) := fun thread reply member => by
      rcases List.mem_cons.mp member with same | later
      · cases same
      · exact waits thread reply later
    have ready := reached.run spawns ran
    obtain ⟨program, selected, scheduled⟩ := scheduled_of_tick alive ran
    exact ready.contained_while selected scheduled schedules held

end Daemon

open Deployment

theorem granting_told (now : TimestampMillis) (label : String) (maximum step : Nat) (op : Request) :
    (granting now label maximum step op).told = true := by
  cases op <;> rfl

def hears (replies : List Reply) : List (daemon Deployment.settings).Choice := replies.map (.step 1)

theorem hears_told {replies : List Reply} (each : replies.all Reply.told = true) :
    Told (hears replies) := by
  intro thread reply member
  obtain ⟨heard, inside, same⟩ := List.mem_map.mp member
  cases same
  exact List.all_eq_true.mp each _ inside

/-- What a tick hears under the gate when it counts the open starts and starts the one queued task. -/
def startReplies : List Reply :=
  [.proceed, .proceed, .page 10, .proceed, .proceed, .time (.ok 6), .proceed, .page 200, .proceed,
    .proceed, .time (.ok 6), .text (.ok "attempt"), .resolved (.ok (resolved .process)),
    .text (.ok "invocation"), .text (.ok "lease"), .decided (.ok (allowed .invokeCapability)),
    .time (.ok 6), .proceed, .proceed, .proceed, .proceed, .proceed]

/-- A workflow of one task, created and started: one start is open, and the daemon stays in bounds. -/
theorem occupancy_of_start : ∃ config locked final : (daemon Deployment.settings).Config,
    Reached Deployment.settings config ∧ config.shared.gate = .free ∧
      (∀ count, config.shared.activeTasks = some count → count = config.shared.store.occupancy) ∧
      locked.shared.store.occupancy = 0 ∧ final.shared.store.occupancy = 1 ∧
      Contained Deployment.settings.maximumActiveTasks locked.shared.store final.shared.store := by
  let acts : List (daemon Deployment.settings).Act :=
    call 0 (create WorkflowLimits.default [⟨firstTask, definition []⟩]) (granting 5 "task" 10)
  let ticks : List (daemon Deployment.settings).Choice := .spawn (.tick 10 1) :: hears [.proceed]
  have performed : ((System.perform acts ⟨Shared.initial, []⟩).bind fun config =>
      (System.run config ticks).bind fun locked =>
        (System.runWhile (fun shared : Shared => decide (shared.gate = .held config.threads.length))
          locked (hears startReplies)).map fun final => (config, locked, final)).any (fun reached =>
            reached.1.shared.gate = .free ∧ reached.2.1.shared.store.occupancy = 0 ∧
              reached.2.2.shared.store.occupancy = 1) = true := by
    decide +kernel
  obtain ⟨⟨config, locked, final⟩, evaluated, ends⟩ := (any_eq_true _ _).mp performed
  obtain ⟨free, none, one⟩ := of_decide_eq_true ends
  obtain ⟨_, created, evaluated⟩ := bind_eq_some_iff.mp evaluated
  obtain ⟨_, spawned, evaluated⟩ := bind_eq_some_iff.mp evaluated
  obtain ⟨_, held, same⟩ := map_eq_some_iff.mp evaluated
  cases same
  have within : ∀ act ∈ acts, act.Replies fun reply : Reply => reply.told = true := by
    simp only [acts, call, List.forall_mem_cons]
    exact ⟨trivial, granting_told 5 "task" 10, nofun⟩
  obtain ⟨choices, ran, told⟩ := System.perform_run created within
  obtain ⟨counted, bounded⟩ := occupancy_exact_and_bounded told ran
  exact ⟨config, locked, final, ⟨choices, ran⟩, free, counted free, none, one,
    bounded 10 1 (hears [.proceed]) locked (hears startReplies) final (by simp [hears])
      (hears_told rfl) (hears_told rfl) spawned held⟩

def lostStart : Request → Option Reply
  | .commit commit =>
    if commit.cause matches .start _ then some (.lost (Store.bounds "reply lost")) else none
  | _ => none

/-- A start whose commit is applied while its reply is lost stays uncounted. -/
theorem lost_start_uncounted : ¬ ∀ config, Reached Deployment.settings config →
    config.shared.gate = .free → ∀ count, config.shared.activeTasks = some count →
      count = config.shared.store.occupancy := by
  intro exact_
  obtain ⟨config, reached, free, cached, occupied⟩ : ∃ config, Reached Deployment.settings config ∧
      config.shared.gate = .free ∧
      config.shared.activeTasks = some 0 ∧ config.shared.store.occupancy = 1 :=
    Deployment.reached _ (call 0 (create WorkflowLimits.default [⟨firstTask, definition []⟩])
        (granting 5 "task" 10) ++ call 1 tick (apartFrom lostStart (granting 6 "id" 10)))
      (by decide +kernel)
  have same := exact_ config reached free 0 cached
  rw [occupied] at same
  cases same

end Milkdrift
