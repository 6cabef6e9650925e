/-
Purpose: What a subscriber that resumes an observation stream of the daemon is shown.
Trusted boundary: digests and encodings of snapshots, credentials, authority and the framing of events;
  positions stay below 2^64, and a feed is that of one authority
-/
import Milkdrift.Library.Machine
import Mathlib.Algebra.GroupWithZero.Nat
import Mathlib.Logic.Function.Basic

namespace Milkdrift.Daemon

open List

variable {φ σ : Type}

/-- Where the snapshots of an observation stream get their positions, and what follows a position; none asks
the subscriber to resynchronise. -/
structure Feed (φ σ : Type) where
  initial : φ
  record : φ → σ → Option φ
  after : φ → Nat → Option (List (Nat × σ))

/-- A subscriber: the position of its connection, the positions delivered on it, every cursor issued so far
and the last snapshot received. -/
structure Subscriber (σ : Type) where
  position : Option Nat
  delivered : List Nat
  issued : List Nat
  received : Option (Nat × σ)

namespace Subscriber

def receive (subscriber : Subscriber σ) (entry : Nat × σ) : Subscriber σ :=
  ⟨some entry.1, subscriber.delivered ++ [entry.1], subscriber.issued ++ [entry.1], some entry⟩

/-- The end of a connection, with a closing or resynchronisation event if it can be framed. -/
def close (subscriber : Subscriber σ) (event : Option Nat) : Subscriber σ :=
  ⟨none, subscriber.delivered ++ event.toList, subscriber.issued ++ event.toList, subscriber.received⟩

/-- The entries in turn, as far as they are framed; the next one ends the connection. -/
def deliver (told : Bool) (subscriber : Subscriber σ) : List (Nat × σ) → Nat → Subscriber σ
  | [], _ => subscriber
  | entry :: _, 0 => subscriber.close (if told then some entry.1 else none)
  | entry :: rest, framed + 1 => (subscriber.receive entry).deliver told rest framed

/-- A connection begins where its cursor says; a cursor that was not issued is refused. -/
def connect (subscriber : Subscriber σ) (cursor : Option Nat) : Subscriber σ :=
  if ∀ position ∈ cursor, position ∈ subscriber.issued then
    { subscriber with position := some (cursor.getD 0), delivered := [] }
  else subscriber

end Subscriber

/-- What becomes of a poll: the credential is revoked or the daemon drains, another check fails, or it is
served. Fewer events than entries are framed when one exceeds its bounds or the client is gone. -/
inductive Poll where
  | closing
  | refused
  | served (framed : Nat) (told : Bool)

inductive StreamStep (σ : Type) where
  | change (snapshot : σ)
  | connect (index : Nat) (cursor : Option Nat)
  | disconnect (index : Nat)
  | poll (index : Nat) (snapshot : σ) (poll : Poll)

structure Streams (φ σ : Type) where
  feed : φ
  subscriber : Nat → Subscriber σ

namespace Streams

def put (streams : Streams φ σ) (feed : φ) (index : Nat) (subscriber : Subscriber σ) : Streams φ σ :=
  ⟨feed, Function.update streams.subscriber index subscriber⟩

/-- A poll at a position records the snapshot it has read and delivers what follows the position. -/
def poll (feed : Feed φ σ) (streams : Streams φ σ) (index position : Nat) (snapshot : σ) :
    Poll → Streams φ σ
  | .closing => streams.put streams.feed index ((streams.subscriber index).close (some (position + 1)))
  | .refused => streams.put streams.feed index ((streams.subscriber index).close none)
  | .served framed told =>
    match feed.record streams.feed snapshot with
    | none => streams.put streams.feed index ((streams.subscriber index).close (some (position + 1)))
    | some recorded =>
      match feed.after recorded position with
      | none => streams.put recorded index ((streams.subscriber index).close (some (position + 1)))
      | some entries => streams.put recorded index ((streams.subscriber index).deliver told entries framed)

def step (feed : Feed φ σ) (streams : Streams φ σ) : StreamStep σ → Streams φ σ
  | .change snapshot => { streams with feed := (feed.record streams.feed snapshot).getD streams.feed }
  | .connect index cursor => streams.put streams.feed index ((streams.subscriber index).connect cursor)
  | .disconnect index => streams.put streams.feed index ((streams.subscriber index).close none)
  | .poll index snapshot outcome =>
    match (streams.subscriber index).position with
    | none => streams
    | some position => streams.poll feed index position snapshot outcome

/-- A connection resumes at most from the last snapshot received. -/
def Acknowledged (streams : Streams φ σ) : StreamStep σ → Prop
  | .connect index (some cursor) => ∃ entry, (streams.subscriber index).received = some entry ∧ cursor ≤ entry.1
  | _ => True

end Streams

def streaming (feed : Feed φ σ) : Machine (Streams φ σ) (StreamStep σ) where
  initial := ⟨feed.initial, fun _ => ⟨none, [], [], none⟩⟩
  step := Streams.step feed

/-- Positions delivered on one connection increase, and a poll that leaves its subscriber connected leaves it
with the snapshot that was read. -/
def Feed.Presents (feed : Feed φ σ) (steps : List (StreamStep σ)) : Prop :=
  let streams := (streaming feed).run steps
  ∀ index, (streams.subscriber index).delivered.Pairwise (· < ·) ∧
    ∀ snapshot outcome, let polled := (streams.step feed (.poll index snapshot outcome)).subscriber index
      polled.position ≠ none → polled.received.map (·.2) = some snapshot

/-! ### The two feeds -/

def capabilityFeedItems : Nat := 256

def maxDocumentBytes : Nat := 1310720

/-- The entries hold a position, a snapshot and its encoded size. -/
structure CapabilityFeed (σ : Type) where
  lastSnapshotDigest : Option String
  nextPosition : Nat
  entries : List (Nat × σ × Nat)
  retainedBytes : Nat

namespace CapabilityFeed

/-- The oldest entries go while there are too many or they hold too many bytes. -/
def evict : List (Nat × σ × Nat) → Nat → List (Nat × σ × Nat) × Nat
  | [], retained => ([], retained)
  | oldest :: rest, retained =>
    if capabilityFeedItems < (oldest :: rest).length ∨ maxDocumentBytes < retained then
      evict rest (retained - oldest.2.2)
    else (oldest :: rest, retained)

/-- A snapshot whose encoding exceeds a document is not recorded, and one that is the last already needs no
position. -/
def recordCapabilitySnapshot (encode : σ → Option Nat) (digest : σ → String) (feed : CapabilityFeed σ)
    (snapshot : σ) : Option (CapabilityFeed σ) :=
  ((encode snapshot).filter (· ≤ maxDocumentBytes)).map fun bytes =>
    if feed.lastSnapshotDigest = some (digest snapshot) then feed
    else
      let (entries, retainedBytes) :=
        evict (feed.entries ++ [(feed.nextPosition, snapshot, bytes)]) (feed.retainedBytes + bytes)
      ⟨some (digest snapshot), feed.nextPosition + 1, entries, retainedBytes⟩

/-- A fresh reader gets the latest entry only. -/
def after (feed : CapabilityFeed σ) (position : Nat) : Option (List (Nat × σ)) :=
  let latest := feed.nextPosition - 1
  let oldest := (feed.entries.head?.map (·.1)).getD feed.nextPosition
  if latest < position ∨ position ≠ 0 ∧ position + 1 < oldest then none
  else some ((feed.entries.filter fun entry =>
    if position = 0 then entry.1 = latest else position < entry.1).map fun entry => (entry.1, entry.2.1))

end CapabilityFeed

def capabilityFeed (encode : σ → Option Nat) (digest : σ → String) : Feed (CapabilityFeed σ) σ :=
  ⟨⟨none, 1, [], 0⟩, CapabilityFeed.recordCapabilitySnapshot encode digest, CapabilityFeed.after⟩

/-- The generation of the daemon's health counts its changes. -/
def healthFeed [DecidableEq σ] (started : σ) : Feed (Nat × σ) σ where
  initial := (1, started)
  record health snapshot := some (if health.2 = snapshot then health else (health.1 + 1, snapshot))
  after health position := some (if position < health.1 then [health] else [])

/-! ### Any feed -/

/-- What both feeds keep: positions ascend, and what follows a position ends with the latest snapshot. -/
structure Lawful (feed : Feed φ σ) (latest : φ → Nat) (Shows : φ → σ → Prop) (Sound : φ → Prop) : Prop where
  initial : Sound feed.initial
  unique : ∀ {state first second}, Shows state first → Shows state second → first = second
  record : ∀ {state snapshot recorded}, Sound state → feed.record state snapshot = some recorded →
    Sound recorded ∧ Shows recorded snapshot ∧ (recorded = state ∨ latest state < latest recorded)
  after : ∀ {state snapshot position entries}, Sound state → Shows state snapshot →
    feed.after state position = some entries → 0 < latest state ∧ entries.Pairwise (·.1 < ·.1) ∧
      (∀ entry ∈ entries, position < entry.1) ∧
      ((∃ front, entries = front ++ [(latest state, snapshot)]) ∨ entries = [] ∧ latest state ≤ position)

section

variable {feed : Feed φ σ} {latest : φ → Nat} {Shows : φ → σ → Prop} {Sound : φ → Prop} {state recorded : φ}
  {subscriber : Subscriber σ} {entries : List (Nat × σ)} {position framed : Nat} {snapshot : σ} {told : Bool}

/-- A connection is at most where its subscriber is, who knows the feed up to there. -/
structure Abreast (latest : φ → Nat) (Shows : φ → σ → Prop) (state : φ) (subscriber : Subscriber σ) : Prop where
  increasing : subscriber.delivered.Pairwise (· < ·)
  below : ∀ position, subscriber.position = some position →
    (∀ earlier ∈ subscriber.delivered, earlier ≤ position) ∧
      position ≤ (subscriber.received.map Prod.fst).getD 0
  known : ∀ entry, subscriber.received = some entry →
    entry.1 ≤ latest state ∧ (entry.1 = latest state → Shows state entry.2)

section

variable (abreast : Abreast latest Shows state subscriber)
include abreast

theorem Abreast.record (grown : recorded = state ∨ latest state < latest recorded) :
    Abreast latest Shows recorded subscriber := by
  refine ⟨abreast.increasing, abreast.below, fun entry received => ?_⟩
  obtain ⟨within, shows⟩ := abreast.known entry received
  rcases grown with rfl | grown
  · exact ⟨within, shows⟩
  · exact ⟨by omega, by omega⟩

theorem Abreast.close {event : Option Nat}
    (later : ∀ next ∈ event, ∀ earlier ∈ subscriber.delivered, earlier < next) :
    Abreast latest Shows state (subscriber.close event) := by
  refine ⟨?_, fun _ ended => (by cases ended), abreast.known⟩
  refine pairwise_append.mpr ⟨abreast.increasing, by cases event <;> simp, fun earlier before next listed => ?_⟩
  exact later next (by simpa using listed) earlier before

theorem Abreast.closing (here : subscriber.position = some position) :
    Abreast latest Shows state (subscriber.close (some (position + 1))) := by
  apply abreast.close
  rintro next ⟨⟩ earlier before
  exact Nat.lt_succ_of_le ((abreast.below position here).1 earlier before)

theorem Abreast.deliver
    (here : subscriber.position = some position) (ascending : entries.Pairwise (·.1 < ·.1))
    (later : ∀ entry ∈ entries, position < entry.1)
    (known : ∀ entry ∈ entries, entry.1 ≤ latest state ∧ (entry.1 = latest state → Shows state entry.2)) :
    Abreast latest Shows state (subscriber.deliver told entries framed) := by
  fun_induction Subscriber.deliver told subscriber entries framed generalizing position with
  | case1 => exact abreast
  | case2 subscriber entry rest =>
    apply abreast.close
    intro next event earlier before
    have reached := (abreast.below position here).1 earlier before
    have behind := later entry (mem_cons_self ..)
    cases told <;> simp at event
    omega
  | case3 subscriber entry rest framed ih =>
    have behind := later entry (mem_cons_self ..)
    obtain ⟨first, ascending⟩ := pairwise_cons.mp ascending
    refine ih ⟨?_, ?_, ?_⟩ rfl ascending first fun other listed => known other (.tail _ listed)
    · refine pairwise_append.mpr ⟨abreast.increasing, pairwise_singleton .., ?_⟩
      simp only [mem_singleton]
      rintro earlier before _ rfl
      have reached := (abreast.below position here).1 earlier before
      omega
    · rintro _ ⟨⟩
      refine ⟨fun earlier before => ?_, Nat.le_refl _⟩
      rcases mem_append.mp before with before | same
      · have reached := (abreast.below position here).1 earlier before
        omega
      · simp_all
    · rintro _ ⟨⟩
      exact known entry (mem_cons_self ..)

end

theorem received_deliver (connected : (subscriber.deliver told entries framed).position ≠ none) :
    (subscriber.deliver told entries framed).received = entries.getLast?.or subscriber.received := by
  fun_induction Subscriber.deliver told subscriber entries framed with
  | case1 => rfl
  | case2 => exact absurd rfl connected
  | case3 subscriber entry rest framed ih =>
    rw [ih connected, getLast?_cons]
    cases rest.getLast? <;> rfl

structure Standing (latest : φ → Nat) (Shows : φ → σ → Prop) (Sound : φ → Prop) (streams : Streams φ σ) :
    Prop where
  sound : Sound streams.feed
  abreast : ∀ index, Abreast latest Shows streams.feed (streams.subscriber index)

variable {streams : Streams φ σ}

section

variable (standing : Standing latest Shows Sound streams)
include standing

theorem Standing.put (sound : Sound recorded)
    (grown : recorded = streams.feed ∨ latest streams.feed < latest recorded) {index : Nat}
    (here : Abreast latest Shows recorded subscriber) :
    Standing latest Shows Sound (streams.put recorded index subscriber) := by
  refine ⟨sound, fun other => ?_⟩
  by_cases same : other = index
  · subst same
    simpa [Streams.put] using here
  · simpa [Streams.put, same] using (standing.abreast other).record grown

theorem Standing.poll (lawful : Lawful feed latest Shows Sound)
    {index : Nat} (here : (streams.subscriber index).position = some position) (outcome : Poll) :
    Standing latest Shows Sound (streams.poll feed index position snapshot outcome) ∧
      (((streams.poll feed index position snapshot outcome).subscriber index).position ≠ none →
        ((streams.poll feed index position snapshot outcome).subscriber index).received.map (·.2) =
          some snapshot) := by
  have abreast := standing.abreast index
  have ended (state : φ) (event : Option Nat) :
      ((streams.put state index ((streams.subscriber index).close event)).subscriber index).position = none := by
    simp [Streams.put, Subscriber.close]
  cases outcome with
  | closing => exact ⟨standing.put standing.sound (.inl rfl) (abreast.closing here), absurd (ended ..)⟩
  | refused => exact ⟨standing.put standing.sound (.inl rfl) (abreast.close (by simp)), absurd (ended ..)⟩
  | served framed told =>
    simp only [Streams.poll]
    split
    · exact ⟨standing.put standing.sound (.inl rfl) (abreast.closing here), absurd (ended ..)⟩
    next recorded taken =>
      obtain ⟨sound, shows, grown⟩ := lawful.record standing.sound taken
      have abreast := abreast.record grown
      split
      · exact ⟨standing.put sound grown (abreast.closing here), absurd (ended ..)⟩
      next entries found =>
        obtain ⟨positive, ascending, later, ending⟩ := lawful.after sound shows found
        constructor
        · refine standing.put sound grown (abreast.deliver here ascending later fun entry listed => ?_)
          rcases ending with ⟨front, rfl⟩ | ⟨rfl, _⟩
          · rcases mem_append.mp listed with before | same
            · have less := (pairwise_append.mp ascending).2.2 entry before _ (mem_singleton_self _)
              exact ⟨Nat.le_of_lt less, fun same => absurd same (Nat.ne_of_lt less)⟩
            · cases mem_singleton.mp same
              exact ⟨Nat.le_refl _, fun _ => shows⟩
          · cases listed
        · intro connected
          simp only [Streams.put, Function.update_self] at connected ⊢
          rw [received_deliver connected]
          rcases ending with ⟨front, rfl⟩ | ⟨rfl, reached⟩
          · simp
          · -- nothing follows: the subscriber has received the latest snapshot
            have behind := (abreast.below position here).2
            cases received : (streams.subscriber index).received with
            | none =>
              rw [received] at behind
              simp at behind
              omega
            | some entry =>
              obtain ⟨within, same⟩ := abreast.known entry received
              simp only [received, Option.map_some, Option.getD_some] at behind
              have latest := same (by omega)
              simp [lawful.unique latest shows]

theorem Standing.step (lawful : Lawful feed latest Shows Sound)
    (step : StreamStep σ) (acknowledged : streams.Acknowledged step) :
    Standing latest Shows Sound (streams.step feed step) := by
  cases step with
  | change snapshot =>
    simp only [Streams.step]
    cases taken : feed.record streams.feed snapshot with
    | none => exact standing
    | some recorded =>
      obtain ⟨sound, _, grown⟩ := lawful.record standing.sound taken
      exact ⟨sound, fun index => (standing.abreast index).record grown⟩
  | connect index cursor =>
    refine standing.put standing.sound (.inl rfl) ?_
    have abreast := standing.abreast index
    unfold Subscriber.connect
    split
    · refine ⟨.nil, ?_, abreast.known⟩
      rintro _ ⟨⟩
      refine ⟨by simp, ?_⟩
      cases cursor with
      | none => exact Nat.zero_le _
      | some cursor =>
        obtain ⟨entry, received, reached⟩ := acknowledged
        simpa [received] using reached
    · exact abreast
  | disconnect index =>
    exact standing.put standing.sound (.inl rfl) ((standing.abreast index).close (by simp))
  | poll index snapshot outcome =>
    simp only [Streams.step]
    split
    · exact standing
    next position here => exact (standing.poll lawful here outcome).1

end

theorem Lawful.presents (lawful : Lawful feed latest Shows Sound) (steps : List (StreamStep σ))
    (acknowledged : (streaming feed).Meets Streams.Acknowledged (streaming feed).initial steps) :
    feed.Presents steps := by
  have standing : Standing latest Shows Sound ((streaming feed).run steps) :=
    (Machine.Reached.start.resume acknowledged).invariant
      ⟨lawful.initial, fun _ => ⟨.nil, fun _ ended => (by cases ended), fun _ none => (by cases none)⟩⟩
      fun _ step standing met => standing.step lawful step met
  refine fun index => ⟨(standing.abreast index).increasing, fun snapshot outcome connected => ?_⟩
  simp only [Streams.step] at connected ⊢
  split at connected
  next ended => exact absurd ended connected
  next position here => exact (standing.poll lawful here outcome).2 connected

end

/-! ### Both feeds are lawful -/

theorem healthFeed_lawful [DecidableEq σ] (started : σ) :
    Lawful (healthFeed started) Prod.fst (fun health snapshot => health.2 = snapshot) (0 < ·.1) where
  initial := Nat.one_pos
  unique first second := first.symm.trans second
  record {health snapshot _} positive recorded := by
    cases recorded
    by_cases same : health.2 = snapshot <;> simp [same, positive]
  after {health snapshot position _} positive same found := by
    cases found
    refine ⟨positive, ?_⟩
    by_cases later : position < health.1
    · simp [later, ← same]
    · simp [later, Nat.le_of_not_lt later]

namespace CapabilityFeed

variable {digest : σ → String} {feed : CapabilityFeed σ}

def Shows (feed : CapabilityFeed σ) (snapshot : σ) : Prop :=
  ∃ front bytes, feed.entries = front ++ [(feed.nextPosition - 1, snapshot, bytes)]

structure Sound (digest : σ → String) (feed : CapabilityFeed σ) : Prop where
  positive : 0 < feed.nextPosition
  retained : feed.retainedBytes = (feed.entries.map (·.2.2)).sum
  ascending : feed.entries.Pairwise (·.1 < ·.1)
  below : ∀ entry ∈ feed.entries, 0 < entry.1 ∧ entry.1 < feed.nextPosition
  newest : ∀ text, feed.lastSnapshotDigest = some text → ∃ snapshot, feed.Shows snapshot ∧ digest snapshot = text

theorem evict_append (front : List (Nat × σ × Nat)) {newest : Nat × σ × Nat}
    (fits : newest.2.2 ≤ maxDocumentBytes) {retained : Nat} (same : retained = ((front ++ [newest]).map (·.2.2)).sum) :
    ∃ kept, (evict (front ++ [newest]) retained).1 = kept ++ [newest] ∧ kept.Sublist front ∧
      (evict (front ++ [newest]) retained).2 = ((kept ++ [newest]).map (·.2.2)).sum := by
  induction front generalizing retained with
  | nil =>
    have small : ¬ (capabilityFeedItems < [newest].length ∨ maxDocumentBytes < retained) := by
      simp [capabilityFeedItems, same, fits]
    have kept : evict [newest] retained = ([newest], retained) := if_neg small
    exact ⟨[], congrArg Prod.fst kept, .slnil, (congrArg Prod.snd kept).trans same⟩
  | cons oldest front ih =>
    simp only [cons_append, evict]
    split
    · have rest : retained - oldest.2.2 = ((front ++ [newest]).map (·.2.2)).sum := by simp [same]
      obtain ⟨kept, entries, inside, bytes⟩ := ih rest
      exact ⟨kept, entries, inside.cons _, bytes⟩
    · exact ⟨oldest :: front, rfl, .refl _, same⟩

theorem Sound.record (sound : Sound digest feed) (injective : Function.Injective digest)
    {encode : σ → Option Nat} {snapshot : σ} {recorded : CapabilityFeed σ}
    (taken : feed.recordCapabilitySnapshot encode digest snapshot = some recorded) :
    Sound digest recorded ∧ recorded.Shows snapshot ∧
      (recorded = feed ∨ feed.nextPosition - 1 < recorded.nextPosition - 1) := by
  obtain ⟨bytes, encoded, rfl⟩ := Option.map_eq_some_iff.mp taken
  have fits : bytes ≤ maxDocumentBytes := by simpa using (Option.filter_eq_some_iff.mp encoded).2
  split
  next same =>
    obtain ⟨known, shows, named⟩ := sound.newest _ same
    exact ⟨sound, injective named ▸ shows, .inl rfl⟩
  · have total : feed.retainedBytes + bytes =
        ((feed.entries ++ [(feed.nextPosition, snapshot, bytes)]).map (·.2.2)).sum := by simp [sound.retained]
    obtain ⟨kept, entries, inside, retained⟩ := evict_append feed.entries (by exact fits) total
    generalize evict _ (feed.retainedBytes + bytes) = evicted at entries retained ⊢
    obtain ⟨left, bytes'⟩ := evicted
    subst entries
    have positive := sound.positive
    have shows : Shows ⟨some (digest snapshot), feed.nextPosition + 1,
        kept ++ [(feed.nextPosition, snapshot, bytes)], bytes'⟩ snapshot := ⟨kept, bytes, rfl⟩
    refine ⟨⟨Nat.succ_pos _, retained, ?_, ?_, ?_⟩, shows, .inr (by simp only; omega)⟩
    · refine pairwise_append.mpr ⟨sound.ascending.sublist inside, pairwise_singleton .., ?_⟩
      simp only [mem_singleton]
      rintro entry listed _ rfl
      exact (sound.below entry (inside.subset listed)).2
    · simp only [mem_append, mem_singleton]
      rintro entry (listed | rfl)
      · have below := sound.below entry (inside.subset listed)
        exact ⟨below.1, Nat.lt_succ_of_lt below.2⟩
      · exact ⟨positive, Nat.lt_succ_self _⟩
    · rintro _ ⟨⟩
      exact ⟨snapshot, shows, rfl⟩

theorem Sound.after (sound : Sound digest feed) {snapshot : σ} (shows : feed.Shows snapshot) {position : Nat}
    {entries : List (Nat × σ)} (found : feed.after position = some entries) :
    0 < feed.nextPosition - 1 ∧ entries.Pairwise (·.1 < ·.1) ∧ (∀ entry ∈ entries, position < entry.1) ∧
      ((∃ front, entries = front ++ [(feed.nextPosition - 1, snapshot)]) ∨
        entries = [] ∧ feed.nextPosition - 1 ≤ position) := by
  simp only [CapabilityFeed.after, Option.ite_none_left_eq_some, Option.some.injEq] at found
  obtain ⟨_, rfl⟩ := found
  obtain ⟨front, bytes, shown⟩ := shows
  have positive := (sound.below (feed.nextPosition - 1, snapshot, bytes) (by simp [shown])).1
  refine ⟨positive, ?_, ?_, ?_⟩
  · exact pairwise_map.mpr (sound.ascending.filter _)
  · simp only [mem_map, mem_filter]
    rintro _ ⟨entry, ⟨listed, chosen⟩, rfl⟩
    split at chosen <;> simp at chosen <;> omega
  · by_cases later : position < feed.nextPosition - 1
    · left
      rw [shown, filter_append, map_append]
      exact ⟨_, by congr 1; simp [later]⟩
    · refine .inr ⟨map_eq_nil_iff.mpr (filter_eq_nil_iff.mpr fun entry listed => ?_), by omega⟩
      have below := sound.below entry listed
      rw [if_neg (by omega : position ≠ 0)]
      simp
      omega

end CapabilityFeed

open CapabilityFeed in
theorem capabilityFeed_lawful (encode : σ → Option Nat) {digest : σ → String}
    (injective : Function.Injective digest) :
    Lawful (capabilityFeed encode digest) (·.nextPosition - 1) Shows (Sound digest) where
  initial := ⟨Nat.one_pos, rfl, .nil, by simp [capabilityFeed], by simp [capabilityFeed]⟩
  unique := by
    rintro state first second ⟨front, bytes, shown⟩ ⟨front', bytes', shown'⟩
    have same := (append_inj' (shown.symm.trans shown') rfl).2
    simp_all
  record sound taken := sound.record injective taken
  after sound shows found := sound.after shows found

/-- A stream resumed at most from the last snapshot received shows the present, on both feeds. -/
theorem resumed_streams_show_present [DecidableEq σ] (encode : σ → Option Nat) (digest : σ → String)
    (started : σ) (steps : List (StreamStep σ)) :
    (Function.Injective digest → (streaming (capabilityFeed encode digest)).Meets Streams.Acknowledged
      (streaming (capabilityFeed encode digest)).initial steps → (capabilityFeed encode digest).Presents steps) ∧
    ((streaming (healthFeed started)).Meets Streams.Acknowledged (streaming (healthFeed started)).initial steps →
      (healthFeed started).Presents steps) :=
  ⟨fun injective => (capabilityFeed_lawful encode injective).presents steps,
    (healthFeed_lawful started).presents steps⟩

/-- A subscriber at position 1 is sent a closing event with the cursor 2 while its credential is unreadable.
Another subscriber's snapshot then takes position 2, and the first resumes behind it. -/
theorem closing_cursor_hides_present :
    ¬ ∀ steps, (capabilityFeed (fun _ : Bool => some 4) toString).Presents steps := by
  intro presents
  have shown := (presents [.connect 0 none, .poll 0 false (.served 1 true), .poll 0 false .closing,
    .connect 1 none, .poll 1 true (.served 1 true), .connect 0 (some 2)] 0).2 true (.served 1 true)
  revert shown
  decide +kernel

end Milkdrift.Daemon
