/-
Purpose: The order of the catalogues published to one caller, over concurrent requests and restarts.
Trusted boundary: what a registry state shows a caller, the digests and the bounds of a snapshot; a rate or an
  authority that refuses a request ends it before it reads
-/
import Milkdrift.Library.Machine
import Milkdrift.Serving.Reporter

namespace Milkdrift.Serving

open List Function

variable {ρ ε : Type}

structure CatalogSnapshot (ε : Type) where
  generation : Nat
  issuedAt : TimestampMillis
  expiresAt : TimestampMillis
  entries : ε

/-- What a registry state shows a caller, and what is computed from it. A fingerprint leaves the
observations out. -/
structure Cataloguing (ρ ε : Type) where
  catalogEntries : ρ → ServingCaller → ε
  fingerprint : ε → String
  digest : CatalogSnapshot ε → String
  bounded : ε → Bool

/-- A request that has read the registry, at some version, and waits for the lock. -/
structure CatalogRequest (ε : Type) where
  caller : ServingCaller
  now : TimestampMillis
  entries : ε
  version : Nat

/-- A peer's time is read before its entries, a client's after them. -/
def CatalogRequest.time (request : CatalogRequest ε) (now : TimestampMillis) : TimestampMillis :=
  match request.caller.principal with
  | .peer _ => request.now
  | .client _ => now

/-- A snapshot given to a caller, with the version of the registry its entries were read from. -/
structure CatalogAnswer (ε : Type) where
  caller : ServingCaller
  snapshot : CatalogSnapshot ε
  version : Nat

/-- The registry, the durable generations, the cache of this process, the requests between reading and
locking, and every answer so far. -/
structure CatalogService (ρ ε : Type) where
  registry : ρ
  version : Nat
  store : ServingStore
  cached : ServingCaller → Option (CatalogAnswer ε)
  waiting : List (CatalogRequest ε)
  answers : List (CatalogAnswer ε)

/-- The generation after the durable one; a peer's is also after the cached one. -/
def nextGeneration (principal : ServingPrincipal) (durable cached : Option Nat) : Nat :=
  match principal with
  | .peer _ => saturatingAdd (max (cached.getD 0) (durable.getD 0)) 1
  | .client _ => durable.elim 1 (saturatingAdd · 1)

inductive CatalogStep (ρ : Type) where
  | change (registry : ρ)
  | configure (relationship : ServingCallerState)
  | read (caller : ServingCaller) (now : TimestampMillis)
  | publish (index : Nat) (now : TimestampMillis) (relationshipGeneration : Nat)
      (expiresAt : TimestampMillis)
  | restart

namespace CatalogService

variable [ServingContracts] (cataloguing : Cataloguing ρ ε)

/-- A snapshot of the entries that were read, under the next generation. It is durable before it is
cached. -/
def publishFresh (service : CatalogService ρ ε) (request : CatalogRequest ε) (now : TimestampMillis)
    (relationshipGeneration : Nat) (expiresAt : TimestampMillis) : CatalogService ρ ε :=
  let generation := nextGeneration request.caller.principal
    ((service.store.catalogs.get? request.caller).map (·.generation))
    ((service.cached request.caller).map (·.snapshot.generation))
  let answer : CatalogAnswer ε :=
    ⟨request.caller, ⟨generation, now, expiresAt, request.entries⟩, request.version⟩
  if generation ≠ 0 ∧ now < expiresAt ∧ cataloguing.bounded request.entries then
    match publishCatalog service.store
      ⟨request.caller, relationshipGeneration, generation, cataloguing.digest answer.snapshot, expiresAt⟩ with
    | .error _ => service
    | .ok (_, store) => { service with
      store, cached := Function.update service.cached request.caller (some answer)
      answers := service.answers ++ [answer] }
  else service

/-- Under the lock: the cached snapshot while it shows the same and lives, or a fresh one. -/
def publish (service : CatalogService ρ ε) (request : CatalogRequest ε) (now : TimestampMillis)
    (relationshipGeneration : Nat) (expiresAt : TimestampMillis) : CatalogService ρ ε :=
  match service.cached request.caller with
  | some cached =>
    if cataloguing.fingerprint cached.snapshot.entries = cataloguing.fingerprint request.entries ∧
        request.time now ≤ cached.snapshot.expiresAt then
      { service with answers := service.answers ++ [cached] }
    else service.publishFresh cataloguing request (request.time now) relationshipGeneration expiresAt
  | none => service.publishFresh cataloguing request (request.time now) relationshipGeneration expiresAt

def step (service : CatalogService ρ ε) : CatalogStep ρ → CatalogService ρ ε
  | .change registry => { service with registry, version := service.version + 1 }
  | .configure relationship =>
    match configureRelationship service.store relationship with
    | .error _ => service
    | .ok (_, store) => { service with store }
  | .read caller now => { service with
    waiting := service.waiting ++
      [⟨caller, now, cataloguing.catalogEntries service.registry caller, service.version⟩] }
  | .publish index now relationshipGeneration expiresAt =>
    match service.waiting[index]? with
    | none => service
    | some request =>
      { service with waiting := service.waiting.eraseIdx index }.publish cataloguing request now
        relationshipGeneration expiresAt
  | .restart => { service with cached := fun _ => none, waiting := [] }

/-- No change of the registry falls between the reading of a request and its publication. -/
def Prompt (service : CatalogService ρ ε) : CatalogStep ρ → Prop
  | .publish index _ _ _ => ∀ request, service.waiting[index]? = some request →
    request.version = service.version
  | _ => True

end CatalogService

def catalogues [ServingContracts] (cataloguing : Cataloguing ρ ε) (registry : ρ) :
    Machine (CatalogService ρ ε) (CatalogStep ρ) where
  initial := ⟨registry, 0, .empty, fun _ => none, [], []⟩
  step := CatalogService.step cataloguing

/-! ### Generations -/

section

variable [ServingContracts] {cataloguing : Cataloguing ρ ε} {service : CatalogService ρ ε}
  {store store' : ServingStore} {state : ServingCatalogState}

/-- The durable catalogue of a caller is this snapshot, or a later one. -/
def Durable (cataloguing : Cataloguing ρ ε) (store : ServingStore) (answer : CatalogAnswer ε) : Prop :=
  ∃ state, store.catalogs.get? answer.caller = some state ∧
    (answer.snapshot.generation < state.generation ∨
      answer.snapshot.generation = state.generation ∧ cataloguing.digest answer.snapshot = state.digest)

theorem publishCatalog_ok {done : Unit}
    (published : publishCatalog store state = .ok (done, store')) :
    store'.catalogs.get? state.caller = some state ∧
    (∀ caller, caller ≠ state.caller → store'.catalogs.get? caller = store.catalogs.get? caller) ∧
    ∀ existing, store.catalogs.get? state.caller = some existing →
      existing = state ∨ existing.generation < state.generation := by
  simp only [publishCatalog, except_bind_eq_ok] at published
  obtain ⟨_, _, _, _, _, _, published⟩ := published
  cases found : store.catalogs.get? state.caller with
  | none =>
    rw [found] at published
    cases published
    simp +contextual [SortedMap.get?_insert]
  | some existing =>
    simp only [found] at published
    split at published
    next same =>
      cases published
      simp [found, same]
    · simp only [except_bind_eq_ok, ensure_eq_ok_iff] at published
      obtain ⟨_, later, stored⟩ := published
      cases stored
      simp +contextual [SortedMap.get?_insert, later]

theorem Durable.publish {answer : CatalogAnswer ε} {done : Unit}
    (published : publishCatalog store state = .ok (done, store')) (durable : Durable cataloguing store answer) :
    Durable cataloguing store' answer := by
  obtain ⟨stored, others, replaces⟩ := publishCatalog_ok published
  obtain ⟨existing, found, before⟩ := durable
  by_cases here : answer.caller = state.caller
  · refine ⟨state, here ▸ stored, ?_⟩
    rcases replaces existing (here ▸ found) with rfl | later
    · exact before
    · rcases before with before | ⟨same, _⟩
      · exact .inl (before.trans later)
      · exact .inl (same ▸ later)
  · exact ⟨existing, (others _ here).trans found, before⟩

omit [ServingContracts] in
theorem configureRelationship_ok {relationship : ServingCallerState} {done : Unit}
    (configured : configureRelationship store relationship = .ok (done, store')) :
    store'.catalogs = store.catalogs := by
  simp only [configureRelationship, except_bind_eq_ok] at configured
  obtain ⟨_, _, bound, hosted, configured⟩ := configured
  obtain ⟨rfl, _⟩ := (delivers_iff.mp (bindHost_delivers store relationship.caller.host)).1 _ hosted
  split at configured
  · cases configured
    rfl
  · split at configured
    · cases configured
      rfl
    · simp only [except_bind_eq_ok] at configured
      obtain ⟨_, _, stored⟩ := configured
      cases stored
      rfl

/-- The answers to one caller ascend, and what is cached is durable. -/
structure Ordered (cataloguing : Cataloguing ρ ε) (service : CatalogService ρ ε) : Prop where
  durable : ∀ answer ∈ service.answers, Durable cataloguing service.store answer
  cached : ∀ caller answer, service.cached caller = some answer → answer.caller = caller ∧
    ∃ state, service.store.catalogs.get? caller = some state ∧
      answer.snapshot.generation = state.generation ∧ cataloguing.digest answer.snapshot = state.digest
  increasing : Function.Injective cataloguing.digest → service.answers.Pairwise fun earlier later =>
    earlier.caller = later.caller →
      earlier.snapshot.generation < later.snapshot.generation ∨ earlier.snapshot = later.snapshot

omit [ServingContracts] in
/-- Giving out what is durable. -/
theorem Ordered.answer (ordered : Ordered cataloguing service) {answer : CatalogAnswer ε}
    (found : service.store.catalogs.get? answer.caller = some state)
    (generation : answer.snapshot.generation = state.generation)
    (digest : cataloguing.digest answer.snapshot = state.digest) :
    Ordered cataloguing { service with answers := service.answers ++ [answer] } where
  durable := by
    simp only [mem_append, mem_singleton]
    rintro other (earlier | rfl)
    · exact ordered.durable other earlier
    · exact ⟨state, found, .inr ⟨generation, digest⟩⟩
  cached := ordered.cached
  increasing injective := by
    refine pairwise_append.mpr ⟨ordered.increasing injective, pairwise_singleton .., ?_⟩
    simp only [mem_singleton]
    rintro earlier given _ rfl same
    obtain ⟨state', found', before⟩ := ordered.durable earlier given
    rw [same, found] at found'
    cases found'
    rcases before with before | ⟨generation', digest'⟩
    · exact .inl (generation ▸ before)
    · exact .inr (injective (digest'.trans digest.symm))

theorem CatalogService.publish_cases {holds : CatalogService ρ ε → Prop} {request : CatalogRequest ε}
    {now : TimestampMillis} {relationshipGeneration : Nat} {expiresAt : TimestampMillis}
    (refused : holds service) (again : ∀ answer, service.cached request.caller = some answer →
      holds { service with answers := service.answers ++ [answer] })
    (fresh : ∀ store answer state, publishCatalog service.store state = .ok ((), store) →
      answer.caller = request.caller → answer.version = request.version → answer.caller = state.caller →
      answer.snapshot.generation = state.generation → cataloguing.digest answer.snapshot = state.digest →
      holds { service with
        store, cached := update service.cached answer.caller (some answer)
        answers := service.answers ++ [answer] }) :
    holds (service.publish cataloguing request now relationshipGeneration expiresAt) := by
  have published : holds
      (service.publishFresh cataloguing request (request.time now) relationshipGeneration expiresAt) := by
    unfold CatalogService.publishFresh
    dsimp only
    split
    · split
      · exact refused
      next store published =>
        exact fresh store ⟨_, ⟨_, request.time now, expiresAt, request.entries⟩, _⟩ _ published rfl rfl rfl
          rfl rfl
    · exact refused
  unfold CatalogService.publish
  split
  next cached found =>
    split
    · exact again cached found
    · exact published
  · exact published

theorem Ordered.step (ordered : Ordered cataloguing service) (step : CatalogStep ρ) :
    Ordered cataloguing (service.step cataloguing step) := by
  cases step with
  | change | read => exact ⟨ordered.durable, ordered.cached, ordered.increasing⟩
  | restart => exact ⟨ordered.durable, fun _ _ found => (by cases found), ordered.increasing⟩
  | configure relationship =>
    simp only [CatalogService.step]
    split
    · exact ordered
    next store configured =>
      have same := configureRelationship_ok configured
      refine ⟨fun answer given => ?_, fun caller answer found => ?_, ordered.increasing⟩
      · simpa only [Durable, same] using ordered.durable answer given
      · simpa only [same] using ordered.cached caller answer found
  | publish index now relationshipGeneration expiresAt =>
    simp only [CatalogService.step]
    split
    · exact ordered
    next request _ =>
      have taken : Ordered cataloguing { service with waiting := service.waiting.eraseIdx index } :=
        ⟨ordered.durable, ordered.cached, ordered.increasing⟩
      refine CatalogService.publish_cases taken (fun answer found => ?_) ?_
      · obtain ⟨named, state, known, generation, digest⟩ := taken.cached _ _ found
        exact taken.answer (named ▸ known) generation digest
      · intro store answer state published _ _ named generation digest
        obtain ⟨stored, others, _⟩ := publishCatalog_ok published
        rw [← named] at stored others
        suffices kept : Ordered cataloguing { service with
            waiting := service.waiting.eraseIdx index
            store, cached := update service.cached answer.caller (some answer) } from
          kept.answer stored generation digest
        refine ⟨fun answer given => (taken.durable answer given).publish published, ?_, taken.increasing⟩
        intro caller cached found
        by_cases here : caller = answer.caller
        · subst here
          simp only [update_self, Option.some.injEq] at found
          subst found
          exact ⟨rfl, state, stored, generation, digest⟩
        · simp only [update_of_ne here] at found
          obtain ⟨named, state, known, same⟩ := taken.cached caller cached found
          exact ⟨named, state, (others _ here).trans known, same⟩

/-- The versions behind the answers to one caller ascend up to the present. -/
structure Following (service : CatalogService ρ ε) : Prop where
  present : ∀ answer ∈ service.answers, answer.version ≤ service.version
  cached : ∀ caller answer, service.cached caller = some answer → answer.caller = caller ∧
    answer ∈ service.answers ∧
      ∀ earlier ∈ service.answers, earlier.caller = caller → earlier.version ≤ answer.version
  ascending : service.answers.Pairwise fun earlier later =>
    earlier.caller = later.caller → earlier.version ≤ later.version

omit [ServingContracts] in
/-- Giving out what is as new as everything the caller was given. -/
theorem Following.answer (following : Following service) (store : ServingStore) {answer : CatalogAnswer ε}
    (present : answer.version ≤ service.version)
    (latest : ∀ earlier ∈ service.answers, earlier.caller = answer.caller → earlier.version ≤ answer.version) :
    Following { service with
      store, cached := update service.cached answer.caller (some answer)
      answers := service.answers ++ [answer] } where
  present := by
    simp only [mem_append, mem_singleton]
    rintro other (earlier | rfl)
    · exact following.present other earlier
    · exact present
  cached caller other found := by
    simp only [mem_append, mem_singleton]
    by_cases here : caller = answer.caller
    · subst here
      simp only [update_self, Option.some.injEq] at found
      subst found
      refine ⟨rfl, .inr rfl, ?_⟩
      rintro earlier (given | rfl) same
      · exact latest earlier given same
      · exact le_rfl
    · simp only [update_of_ne here] at found
      obtain ⟨named, given, others⟩ := following.cached caller other found
      refine ⟨named, .inl given, ?_⟩
      rintro earlier (given | rfl) same
      · exact others earlier given same
      · exact absurd same.symm here
  ascending := by
    refine pairwise_append.mpr ⟨following.ascending, pairwise_singleton .., ?_⟩
    simp only [mem_singleton]
    rintro earlier given _ rfl same
    exact latest earlier given same

theorem Following.step (following : Following service) (step : CatalogStep ρ) (prompt : service.Prompt step) :
    Following (service.step cataloguing step) := by
  cases step with
  | change => exact ⟨fun answer given => (following.present answer given).trans (Nat.le_succ _),
      following.cached, following.ascending⟩
  | read => exact ⟨following.present, following.cached, following.ascending⟩
  | restart => exact ⟨following.present, fun _ _ found => (by cases found), following.ascending⟩
  | configure relationship =>
    simp only [CatalogService.step]
    split
    · exact following
    · exact ⟨following.present, following.cached, following.ascending⟩
  | publish index now relationshipGeneration expiresAt =>
    simp only [CatalogService.step]
    split
    · exact following
    next request waiting =>
      have taken : Following { service with waiting := service.waiting.eraseIdx index } :=
        ⟨following.present, following.cached, following.ascending⟩
      refine CatalogService.publish_cases taken (fun answer found => ?_) ?_
      · obtain ⟨named, given, latest⟩ := taken.cached _ _ found
        have answered := taken.answer service.store (taken.present answer given) (by rwa [named])
        rwa [named, update_eq_self_iff.mpr found.symm] at answered
      · intro store answer state _ _ version _ _ _
        have newest : answer.version = service.version := version.trans (prompt request waiting)
        exact taken.answer store newest.le fun earlier given _ => newest ▸ taken.present earlier given

end

/-- The generations published to one caller increase or give the same snapshot again, over every
interleaving and restart. While no change of the registry falls between the reading of a request and its
publication, later answers come from a registry state no older. -/
theorem catalogues_to_one_caller_ordered [ServingContracts] (cataloguing : Cataloguing ρ ε) (registry : ρ)
    (steps : List (CatalogStep ρ)) :
    (Function.Injective cataloguing.digest →
      ((catalogues cataloguing registry).run steps).answers.Pairwise fun earlier later =>
        earlier.caller = later.caller →
          earlier.snapshot.generation < later.snapshot.generation ∨ earlier.snapshot = later.snapshot) ∧
    ((catalogues cataloguing registry).Meets CatalogService.Prompt (catalogues cataloguing registry).initial
        steps →
      ((catalogues cataloguing registry).run steps).answers.Pairwise fun earlier later =>
        earlier.caller = later.caller → earlier.version ≤ later.version) := by
  constructor
  · have ordered : Ordered cataloguing ((catalogues cataloguing registry).run steps) :=
      ((catalogues cataloguing registry).reached_run steps).invariant
        ⟨fun _ given => (by cases given), fun _ _ found => (by cases found), fun _ => .nil⟩
        fun _ step ordered _ => ordered.step step
    exact ordered.increasing
  · intro prompt
    have following : Following ((catalogues cataloguing registry).run steps) :=
      (Machine.Reached.start.resume prompt).invariant
        ⟨fun _ given => (by cases given), fun _ _ found => (by cases found), .nil⟩
        fun _ step following met => following.step step met
    exact following.ascending

/-- A request reads the registry, the registry changes, a second request of the same caller reads and
publishes: the first then publishes what it read, which is older, under a later generation. -/
theorem an_older_catalogue_is_published_later :
    ¬ ∀ steps : List (CatalogStep Bool),
      ((@catalogues Bool Bool lenientContracts ⟨fun registry _ => registry, toString, fun _ => "", fun _ => true⟩
        false).run steps).answers.Pairwise fun earlier later =>
          earlier.caller = later.caller → earlier.version ≤ later.version := by
  intro ordered
  have answered := ordered [.configure ⟨Sample.caller, 1, true, 1000, 8⟩, .read Sample.caller 5, .change true,
    .read Sample.caller 5, .publish 1 5 1 100, .publish 0 5 1 100]
  revert answered
  decide +kernel

end Milkdrift.Serving
