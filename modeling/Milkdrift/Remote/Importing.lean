/-
Purpose: When an offered output is downloaded whole, and when its import is committed.
Trusted boundary: blake3, as `digest`; nothing else writes to the transfer during one import
-/
import Milkdrift.Authority.Scope
import Milkdrift.Library.Checked

namespace Milkdrift.Remote

structure DownloadLimits where
  maximumArtifactBytes : Nat
  artifactChunkBytes : Nat
  valid : maximumArtifactBytes ≠ 0 ∧ artifactChunkBytes ≠ 0

def maxArtifactChunkBytes : Nat := 1048576

def requireDownload (limits : DownloadLimits) (bytes : Nat) : Except String Unit :=
  ensure ({ AuthorityBudget.default with artifactBytes := some bytes }.fitsWithin
      { AuthorityBudget.default with artifactBytes := some limits.maximumArtifactBytes } = true)
    "peer authority denied the operation (budgetexcess)"

/-- The serving host authorizes the bytes asked for, whatever is left of the artifact. -/
def readArtifactChunk (limits : DownloadLimits) (content : List UInt8) (offset maximumBytes : Nat) :
    Except String (List UInt8) := do
  requireDownload limits maximumBytes
  .ok ((content.drop offset).take (min maximumBytes limits.artifactChunkBytes))

def readChunks (limits : DownloadLimits) (content : List UInt8) (chunkLimit : Nat) :
    Nat → List UInt8 → Except String (List UInt8)
  | rounds, received =>
    if content.length ≤ received.length then .ok received else match rounds with
    | 0 => .error "peer output transfer deadline elapsed"
    | rounds + 1 => do
      let bytes ← readArtifactChunk limits content received.length chunkLimit
      ensure (bytes ≠ []) "peer output transfer made no exact progress"
      readChunks limits content chunkLimit rounds (received ++ bytes)

/-- The offer, the negotiation and the chunks: both sides negotiate the largest chunk of the protocol. -/
def downloadOutput (limits : DownloadLimits) (content : List UInt8) : Except String (List UInt8) := do
  requireDownload limits content.length
  requireDownload limits content.length
  let chunkLimit := min (min maxArtifactChunkBytes maxArtifactChunkBytes) maxArtifactChunkBytes
  readChunks limits content chunkLimit content.length []

variable {limits : DownloadLimits} {content : List UInt8}

theorem requireDownload_eq_ok_iff {bytes : Nat} :
    requireDownload limits bytes = .ok () ↔ bytes ≤ limits.maximumArtifactBytes := by
  simp [requireDownload, AuthorityBudget.fitsWithin, AuthorityBudget.default, Authority.within]

theorem readChunks_complete {chunkLimit rounds : Nat} (positive : 0 < chunkLimit)
    (allowed : chunkLimit ≤ limits.maximumArtifactBytes) : ∀ received rest : List UInt8,
    rest.length ≤ rounds →
      readChunks limits (received ++ rest) chunkLimit rounds received = .ok (received ++ rest) := by
  induction rounds with
  | zero =>
    intro received rest enough
    obtain rfl : rest = [] := List.length_eq_zero_iff.mp (Nat.le_zero.mp enough)
    simp [readChunks]
  | succ rounds ih =>
    intro received rest enough
    cases rest with
    | nil => simp [readChunks]
    | cons byte rest =>
      have size : min chunkLimit limits.artifactChunkBytes ≠ 0 := by
        have valid := limits.valid
        omega
      obtain ⟨count, counted⟩ := Nat.exists_eq_succ_of_ne_zero size
      have granted := requireDownload_eq_ok_iff.mpr allowed
      have next := ih (received ++ byte :: rest.take count) (rest.drop count) (by simp at enough ⊢; omega)
      simpa [readChunks, readArtifactChunk, granted, counted, ensure, bind, Except.bind] using next

/-- An output within the maximum is delivered whole exactly when it is empty or the maximum covers a chunk of
the negotiated size, however few bytes the output has. -/
theorem offered_output_delivered_iff (offered : content.length ≤ limits.maximumArtifactBytes) :
    downloadOutput limits content = .ok content ↔
      content = [] ∨ maxArtifactChunkBytes ≤ limits.maximumArtifactBytes := by
  have granted := requireDownload_eq_ok_iff.mpr offered
  have started : downloadOutput limits content =
      readChunks limits content maxArtifactChunkBytes content.length [] := by
    simp [downloadOutput, granted, bind, Except.bind]
  rw [started]
  constructor
  · intro delivered
    by_contra refused
    obtain ⟨filled, short⟩ := not_or.mp refused
    cases content with
    | nil => exact filled rfl
    | cons byte rest =>
      simp only [List.length_cons, readChunks, List.length_nil, Nat.le_zero, reduceCtorEq, if_false,
        readArtifactChunk, except_bind_eq_ok] at delivered
      obtain ⟨_, ⟨_, allowed, _⟩, _⟩ := delivered
      exact short (requireDownload_eq_ok_iff.mp allowed)
  · rintro (rfl | allowed)
    · simp [readChunks]
    · exact readChunks_complete (by decide) allowed [] content le_rfl

def chunkLimits : DownloadLimits := ⟨maxArtifactChunkBytes, 1, by decide⟩

theorem offered_output_delivered_in_chunks : downloadOutput chunkLimits [1, 2] = .ok [1, 2] :=
  (offered_output_delivered_iff (by decide)).mpr (.inr le_rfl)

/-- One byte of a relationship that allows a thousand: the chunk asked for exceeds the grant. -/
theorem small_maximum_undelivered : ¬ ∀ (limits : DownloadLimits) (content : List UInt8),
    content.length ≤ limits.maximumArtifactBytes → downloadOutput limits content = .ok content := by
  intro delivered
  have refused := delivered ⟨1000, 1, by decide⟩ [1] (by decide)
  revert refused
  decide

end Milkdrift.Remote

namespace Milkdrift.Remote

structure Artifact where
  identity : String
  digest : List UInt8
  size : Nat
  mediaType : String
deriving DecidableEq

/-- An artifact with its sensitivity, retention and provenance. -/
structure Offer where
  artifact : Artifact
  terms : String
deriving DecidableEq

structure TransferState where
  offer : Offer
  nextOffset : Nat

/-- A writable publication of the core: its request, and the bytes staged so far. -/
structure Publication where
  offer : Offer
  bytes : List UInt8

variable (digest : List UInt8 → List UInt8)

structure Committed where
  metadata : Offer
  content : List UInt8
  exact : digest content = metadata.artifact.digest ∧ content.length = metadata.artifact.size

structure Local where
  committed : Option (Committed digest)
  publication : Option Publication
  transfer : Option TransferState

inductive Decision where
  | alreadyPresent
  | transfer (nextOffset : Nat)
deriving DecidableEq

/-- A chunk the peer sends, and whether shutdown, deadline, lease and storage let it through. -/
structure Chunk where
  offset : Nat
  bytes : List UInt8
  finalChunk : Bool
  proceeds : Bool

/-- The core commits what `verify_blob` accepts, unless the identity has other metadata. -/
def commitPublication (publication : Publication) (store : Local digest) : Except String (Local digest) :=
  if exact : digest publication.bytes = publication.offer.artifact.digest ∧
      publication.bytes.length = publication.offer.artifact.size then do
    ensure (∀ existing ∈ store.committed, existing.metadata = publication.offer) "artifact"
    .ok ⟨some ⟨publication.offer, publication.bytes, exact⟩, none, none⟩
  else .error "artifact content digest mismatch"

def negotiate (offer : Offer) (store : Local digest) : Except String (Decision × Local digest) :=
  match store.transfer, store.committed with
  | some state, _ => do
    ensure (state.offer = offer) "transfer identity was reused with different metadata"
    .ok (.transfer state.nextOffset, store)
  | none, some existing => do
    ensure (existing.metadata = offer) "artifact identity already has different immutable core metadata"
    .ok (.alreadyPresent, store)
  | none, none => do
    -- `begin_publication` answers `Writable`, or `Resumed` at the length staged
    let publication := store.publication.getD ⟨offer, []⟩
    ensure (publication.offer = offer) "artifact_publication"
    if offer.artifact.size = 0 then
      .ok (.alreadyPresent, ← commitPublication digest publication store)
    else
      let next := publication.bytes.length
      .ok (.transfer next, ⟨none, some publication, some ⟨offer, next⟩⟩)

def writeChunk (chunk : Chunk) (store : Local digest) : Except String (Decision × Local digest) := do
  let state ← require store.transfer "artifact transfer is not negotiated"
  ensure (chunk.offset = state.nextOffset) "artifact transfer offset mismatch"
  let resulting := chunk.offset + chunk.bytes.length
  let size := state.offer.artifact.size
  ensure (resulting ≤ size ∧ (chunk.finalChunk = true ↔ resulting = size))
    "chunk exceeds size or final flag does not match exact size"
  let publication ← require store.publication "upload has no core publication owner"
  ensure (publication.bytes.length = chunk.offset) "artifact_publication_offset"
  ensure (chunk.finalChunk = true ↔ resulting = publication.offer.artifact.size)
    "core publication progress disagrees with the transfer"
  let written : Publication := { publication with bytes := publication.bytes ++ chunk.bytes }
  if chunk.finalChunk then
    let committed ← commitPublication digest written store
    ensure (written.offer.artifact = state.offer.artifact)
      "core publication returned different artifact facts"
    .ok (.alreadyPresent, committed)
  else .ok (.transfer resulting, ⟨store.committed, some written, some ⟨state.offer, resulting⟩⟩)

def transferChunks (size : Nat) : List Chunk → Nat → Local digest → Except String (Local digest)
  | [], offset, store =>
    if size ≤ offset then .ok store else .error "peer output transfer deadline elapsed"
  | chunk :: rest, offset, store =>
    if size ≤ offset then .ok store else do
      ensure (chunk.proceeds = true ∧ chunk.offset = offset ∧ chunk.bytes ≠ [])
        "peer output transfer made no exact progress"
      let next := offset + chunk.bytes.length
      ensure (next ≤ size) "peer output chunk exceeds its exact size"
      ensure (chunk.finalChunk = true ↔ next = size) "peer output final marker contradicts its size"
      let (decision, written) ← writeChunk digest chunk store
      ensure (decision = if next = size then .alreadyPresent else .transfer next)
        "peer output publication did not accept the exact chunk"
      transferChunks size rest next written

def fetch (size : Nat) (chunks : List Chunk) : Decision × Local digest → Except String (Local digest)
  | (.alreadyPresent, store) => .ok store
  | (.transfer offset, store) => transferChunks digest size chunks offset store

/-- `import_output` of the observed `reference`; `offered` is the peer's offer, where the allowances, the
deadline and the peer let the import begin. -/
def importOutput (imported : List String) (reference : Artifact) (offered : Option Offer)
    (chunks : List Chunk) (store : Local digest) : Except String (Local digest) :=
  if reference.identity ∈ imported then .ok store else do
    let offer ← require offered "peer output download was refused"
    ensure (offer.artifact = reference)
      "peer output metadata contradicts the exact observation or transfer scope"
    let opened ← negotiate digest offer store
    let done ← fetch digest reference.size chunks opened
    -- `abort` releases what a transfer entry still owns
    .ok (if done.transfer.isSome then ⟨done.committed, none, none⟩ else done)

variable {digest} {reference : Artifact} {store after : Local digest}

def Local.Holds (store : Local digest) (reference : Artifact) : Prop :=
  ∃ committed, store.committed = some committed ∧ committed.metadata.artifact = reference

/-- Earlier transfers left every byte staged and nothing committed by this one: the loop has nothing to do. -/
def Local.Skips (store : Local digest) (reference : Artifact) : Prop :=
  match store.transfer with
  | some state => reference.size ≤ state.nextOffset
  | none => store.committed = none ∧ reference.size ≠ 0 ∧
      ∃ publication, store.publication = some publication ∧ reference.size ≤ publication.bytes.length

def Local.Serves (store : Local digest) (reference : Artifact) : Prop :=
  ∀ state, store.transfer = some state → state.offer.artifact = reference

theorem commitPublication_spec {publication : Publication}
    (done : commitPublication digest publication store = .ok after) :
    after.Holds publication.offer.artifact ∧ after.transfer = none := by
  unfold commitPublication at done
  split at done
  · simp only [except_bind_eq_ok, ensure_eq_ok_iff] at done
    obtain ⟨_, _, done⟩ := done
    cases done
    exact ⟨⟨_, rfl, rfl⟩, rfl⟩
  · cases done

/-- One accepted chunk commits the artifact, or leaves the transfer open. -/
theorem writeChunk_spec {chunk : Chunk} {decision : Decision} (serves : store.Serves reference)
    (written : writeChunk digest chunk store = .ok (decision, after)) :
    (decision = .alreadyPresent → after.Holds reference) ∧ after.Serves reference := by
  simp only [writeChunk, except_bind_eq_ok, require_eq_ok_iff, ensure_eq_ok_iff] at written
  obtain ⟨state, opened, _, _, _, _, publication, _, _, _, _, _, written⟩ := written
  have same := serves state opened
  split at written
  · simp only [except_bind_eq_ok, ensure_eq_ok_iff] at written
    obtain ⟨committed, done, _, exact_, written⟩ := written
    cases written
    obtain ⟨holds, closed⟩ := commitPublication_spec done
    exact ⟨fun _ => exact_.trans same ▸ holds, by simp [Local.Serves, closed]⟩
  · cases written
    exact ⟨by simp, by simp [Local.Serves, same]⟩

/-- A loop that has bytes to fetch ends with the artifact committed. -/
theorem transferChunks_holds {size : Nat} {chunks : List Chunk} : ∀ {offset : Nat} {store : Local digest},
    store.Serves reference → offset < size → transferChunks digest size chunks offset store = .ok after →
      after.Holds reference := by
  induction chunks with
  | nil =>
    intro offset store _ below done
    rw [transferChunks, if_neg (by omega)] at done
    cases done
  | cons chunk rest ih =>
    intro offset store serves below done
    rw [transferChunks, if_neg (by omega)] at done
    simp only [except_bind_eq_ok, ensure_eq_ok_iff] at done
    obtain ⟨_, _, _, bounded, _, _, ⟨decision, stored⟩, written, _, decided, done⟩ := done
    have spec := writeChunk_spec serves written
    by_cases last : offset + chunk.bytes.length = size
    · -- the final chunk was committed, and the loop stops at the next test
      rw [if_pos last] at decided
      have same : after = stored := by
        cases rest <;> simp_all [transferChunks]
      rw [same]
      exact spec.1 decided
    · exact ih spec.2 (by omega) done

theorem transferChunks_skips {size offset : Nat} {chunks : List Chunk} (complete : size ≤ offset) :
    transferChunks digest size chunks offset store = .ok store := by
  cases chunks <;> simp [transferChunks, complete]

theorem negotiate_spec {offer : Offer} {decision : Decision} (same : offer.artifact = reference)
    (negotiated : negotiate digest offer store = .ok (decision, after)) :
    after.Serves reference ∧ match decision with
      | .alreadyPresent => after.Holds reference ∧ ¬ store.Skips reference
      | .transfer offset =>
        after.committed = store.committed ∧ (store.Skips reference ↔ reference.size ≤ offset) := by
  subst same
  unfold negotiate at negotiated
  split at negotiated <;> simp only [except_bind_eq_ok, ensure_eq_ok_iff] at negotiated
  next state _ opened =>
    obtain ⟨_, rfl, answered⟩ := negotiated
    cases answered
    exact ⟨by simp [Local.Serves, opened], rfl, by simp [Local.Skips, opened]⟩
  next existing closed found =>
    obtain ⟨_, rfl, answered⟩ := negotiated
    cases answered
    exact ⟨by simp [Local.Serves, closed], ⟨existing, found, rfl⟩, by simp [Local.Skips, closed, found]⟩
  next closed missing =>
    obtain ⟨_, owned, negotiated⟩ := negotiated
    split at negotiated
    next empty =>
      simp only [except_bind_eq_ok] at negotiated
      obtain ⟨committed, done, negotiated⟩ := negotiated
      cases negotiated
      obtain ⟨holds, ended⟩ := commitPublication_spec done
      exact ⟨by simp [Local.Serves, ended], owned ▸ holds, by simp [Local.Skips, closed, empty]⟩
    next filled =>
      cases negotiated
      refine ⟨by simp [Local.Serves], missing.symm, ?_⟩
      cases staged : store.publication <;> simp [Local.Skips, closed, missing, filled, staged]

/-- A successful import leaves the observed artifact committed exactly when it was committed before, or its
identity was not imported yet and no earlier transfer left all its bytes staged. -/
theorem import_commits_iff {imported : List String} {offered : Option Offer} {chunks : List Chunk}
    (done : importOutput digest imported reference offered chunks store = .ok after) :
    after.Holds reference ↔
      store.Holds reference ∨ (reference.identity ∉ imported ∧ ¬ store.Skips reference) := by
  unfold importOutput at done
  split at done
  · cases done
    simp [*]
  rename_i fresh
  simp only [except_bind_eq_ok, require_eq_ok_iff, ensure_eq_ok_iff] at done
  obtain ⟨offer, _, _, same, ⟨decision, opened⟩, negotiated, final, fetched, done⟩ := done
  have kept : after.committed = final.committed := by
    cases done
    split <;> rfl
  obtain ⟨serves, decided⟩ := negotiate_spec same negotiated
  cases decision with
  | alreadyPresent =>
    cases fetched
    simp only [Local.Holds, kept]
    exact iff_of_true decided.1 (.inr ⟨fresh, decided.2⟩)
  | transfer offset =>
    obtain ⟨unchanged, skips⟩ := decided
    by_cases complete : reference.size ≤ offset
    · -- nothing is fetched, and nothing committed
      rw [fetch, transferChunks_skips complete] at fetched
      cases fetched
      simp [Local.Holds, kept, unchanged, skips.2 complete]
    · have holds := transferChunks_holds serves (by omega) fetched
      simp only [Local.Holds, kept]
      exact iff_of_true holds (.inr ⟨fresh, mt skips.1 complete⟩)

def sample : Offer := ⟨⟨"output", [1, 2], 2, "text/plain"⟩, "internal"⟩

/-- Fetched in two chunks from nothing, it is committed. -/
theorem import_commits_of_fetch : ∃ chunks, ∃ after : Local id,
    importOutput id [] sample.artifact (some sample) chunks ⟨none, none, none⟩ = .ok after ∧
      after.Holds sample.artifact := by
  have done : importOutput id [] sample.artifact (some sample)
      [⟨0, [1], false, true⟩, ⟨1, [2], true, true⟩] ⟨none, none, none⟩ =
        .ok ⟨some ⟨sample, [1, 2], rfl, rfl⟩, none, none⟩ := rfl
  exact ⟨_, _, done, (import_commits_iff done).2 (.inr ⟨by simp, by simp [Local.Skips]⟩)⟩

/-- Its bytes are staged and the commit was lost: the next import fetches and commits nothing, drops them,
and succeeds. -/
theorem staged_import_uncommitted : ¬ ∀ (reference : Artifact) (offered : Option Offer)
    (chunks : List Chunk) (store after : Local id),
    importOutput id [] reference offered chunks store = .ok after → after.Holds reference := by
  intro commits
  obtain ⟨_, missing, _⟩ := commits sample.artifact (some sample) [] ⟨none, some ⟨sample, [1, 2]⟩, none⟩ _ rfl
  cases missing

end Milkdrift.Remote
