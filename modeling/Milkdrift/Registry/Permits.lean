/-
Purpose: When every slot of the registry counts exactly its live permits.
-/
import Milkdrift.Registry.State

namespace Milkdrift.Registry

open SortedMap Generation RegistryState Option Host

/-! ### The ledger -/

structure Slot where
  registration : Nat
  active : Nat
  limit : Nat

/-- What a live permit stands for. -/
structure Ticket where
  registration : Nat
  key : GenerationKey
  invocation : InvocationId

structure Ledger where
  slots : SortedMap GenerationKey Slot
  entries : SortedMap InvocationId GenerationKey
  tickets : SortedMap Nat Ticket
  issued : Nat

namespace Ledger

def live (ledger : Ledger) (registration : Nat) : Nat :=
  ledger.tickets.countOf fun ticket => decide (ticket.registration = registration)

def inFlight (ledger : Ledger) (key : GenerationKey) : Nat :=
  ledger.entries.countOf fun owner => decide (owner = key)

/-- A permit whose slot is taken: the registration that issued it is still the registered one, and its
invocation is in flight there. -/
def Held (ledger : Ledger) (ticket : Ticket) : Prop :=
  ledger.entries.get? ticket.invocation = some ticket.key ∧
    ∃ slot, ledger.slots.get? ticket.key = some slot ∧ slot.registration = ticket.registration

/-- A registration opens a slot under a new number. -/
def enroll (ledger : Ledger) (key : GenerationKey) (limit : Nat) : Ledger :=
  { ledger with
    slots := ledger.slots.insert key ⟨ledger.issued, 0, limit⟩
    issued := ledger.issued + 1 }

def issue (ledger : Ledger) (key : GenerationKey) (slot : Slot) (invocation : InvocationId) : Ledger where
  slots := ledger.slots.insert key { slot with active := slot.active + 1 }
  entries := ledger.entries.insert invocation key
  tickets := ledger.tickets.insert ledger.issued ⟨slot.registration, key, invocation⟩
  issued := ledger.issued + 1

/-- A permit is dropped. -/
def retire (ledger : Ledger) (number : Nat) (ticket : Ticket) : Ledger where
  slots :=
    if ledger.entries.get? ticket.invocation = some ticket.key then
      ledger.slots.modify ticket.key fun slot => { slot with active := slot.active - 1 }
    else ledger.slots
  entries := ledger.entries.erase ticket.invocation
  tickets := ledger.tickets.erase number
  issued := ledger.issued

def close (ledger : Ledger) (key : GenerationKey) : Ledger :=
  { ledger with
    slots := ledger.slots.erase key
    entries := ledger.entries.filter fun _ owner => decide (owner ≠ key) }

/-- Every generation is removed. -/
def clear (ledger : Ledger) : Ledger :=
  { ledger with slots := .empty, entries := .empty }

end Ledger

structure Balanced (ledger : Ledger) : Prop where
  /-- A slot counts its live permits and its entries, within its limit. -/
  counted : ∀ key slot, ledger.slots.get? key = some slot →
    slot.active = ledger.live slot.registration ∧ slot.active = ledger.inFlight key ∧
      slot.active ≤ slot.limit
  /-- Registrations are numbered before the next number, each once. -/
  enrolled : ∀ key slot, ledger.slots.get? key = some slot → slot.registration < ledger.issued
  distinct : ∀ key key' slot slot', ledger.slots.get? key = some slot →
    ledger.slots.get? key' = some slot' → slot.registration = slot'.registration → key = key'
  numbered : ∀ number ticket, ledger.tickets.get? number = some ticket →
    number < ledger.issued ∧ ticket.registration < ledger.issued
  /-- A permit of a registered generation is in flight there. -/
  held : ∀ number ticket key slot, ledger.tickets.get? number = some ticket →
    ledger.slots.get? key = some slot → slot.registration = ticket.registration →
    ticket.key = key ∧ ledger.entries.get? ticket.invocation = some key
  /-- An entry is that of a permit of the registered generation. -/
  owned : ∀ invocation key, ledger.entries.get? invocation = some key →
    ∃ number ticket, ledger.tickets.get? number = some ticket ∧ ticket.invocation = invocation ∧
      ticket.key = key ∧ ledger.Held ticket
  /-- No two live permits name one invocation. -/
  single : ∀ number number' ticket ticket', ledger.tickets.get? number = some ticket →
    ledger.tickets.get? number' = some ticket' → ticket.invocation = ticket'.invocation →
    number = number'

namespace Balanced

variable {ledger : Ledger} {key : GenerationKey} {slot : Slot} {number : Nat} {ticket : Ticket}

section

variable (balanced : Balanced ledger)
include balanced

/-- A slot that counts nothing has no live permit and no entry. -/
theorem free (registered : ledger.slots.get? key = some slot) (idle : slot.active = 0) :
    (∀ number ticket, ledger.tickets.get? number = some ticket → ticket.registration ≠ slot.registration) ∧
    ∀ invocation, ledger.entries.get? invocation ≠ some key := by
  obtain ⟨permits, entries, _⟩ := balanced.counted key slot registered
  rw [idle] at permits entries
  constructor
  · intro number ticket live
    simpa using (countOf_eq_zero_iff _ _).mp permits.symm number ticket live
  · intro invocation entered
    simpa using (countOf_eq_zero_iff _ _).mp entries.symm invocation key entered

/-- A new registration starts without permits: its number is new and its key was not registered. -/
theorem enroll (vacant : ledger.slots.get? key = none) (limit : Nat) :
    Balanced (ledger.enroll key limit) := by
  have unissued : ∀ number ticket, ledger.tickets.get? number = some ticket →
      ticket.registration ≠ ledger.issued := fun number ticket live =>
    (balanced.numbered number ticket live).2.ne
  have unentered : ∀ invocation, ledger.entries.get? invocation ≠ some key := by
    intro invocation entered
    obtain ⟨_, ticket, _, _, same, _, slot, registered, _⟩ := balanced.owned invocation key entered
    rw [same, vacant] at registered
    cases registered
  refine ⟨?_, ?_, ?_, ?_, ?_, ?_, balanced.single⟩
  · intro other slot registered
    simp only [Ledger.enroll, get?_insert] at registered
    split at registered
    next same =>
      cases registered
      subst same
      refine ⟨?_, ?_, Nat.zero_le _⟩
      · exact ((countOf_eq_zero_iff _ _).mpr fun number ticket live => by
          simpa using unissued number ticket live).symm
      · refine ((countOf_eq_zero_iff _ _).mpr fun invocation owner entered => ?_).symm
        refine decide_eq_false fun same => unentered invocation ?_
        rw [← same]
        exact entered
    · exact balanced.counted other slot registered
  · exact forall_insert (fun other slot registered => Nat.lt_succ_of_lt (balanced.enrolled other slot registered))
      (Nat.lt_succ_self _)
  · intro first second slot slot' one two same
    simp only [Ledger.enroll, get?_insert] at one two
    split at one <;> split at two
    next left right =>
      rw [left, right]
    · cases one
      exact absurd same.symm (balanced.enrolled second slot' two).ne
    · cases two
      exact absurd same (balanced.enrolled first slot one).ne
    · exact balanced.distinct first second slot slot' one two same
  · intro number ticket live
    obtain ⟨one, two⟩ := balanced.numbered number ticket live
    exact ⟨Nat.lt_succ_of_lt one, Nat.lt_succ_of_lt two⟩
  · intro number ticket other slot live registered issuer
    simp only [Ledger.enroll, get?_insert] at registered
    split at registered
    · cases registered
      exact absurd issuer.symm (unissued number ticket live)
    · exact balanced.held number ticket other slot live registered issuer
  · intro invocation owner entered
    obtain ⟨number, ticket, live, named, same, entry, slot, registered, issuer⟩ :=
      balanced.owned invocation owner entered
    refine ⟨number, ticket, live, named, same, entry, slot, ?_, issuer⟩
    simp only [Ledger.enroll, get?_insert]
    rw [if_neg fun this => ?_, registered]
    rw [this, vacant] at registered
    cases registered

/-- A permit for an invocation that no live permit names takes exactly one unit. -/
theorem issue {invocation : InvocationId}
    (registered : ledger.slots.get? key = some slot) (room : slot.active < slot.limit)
    (unnamed : ∀ number ticket, ledger.tickets.get? number = some ticket → ticket.invocation ≠
      invocation) : Balanced (ledger.issue key slot invocation) := by
  have unentered : ledger.entries.get? invocation = none := by
    by_contra entered
    obtain ⟨owner, entered⟩ := ne_none_iff_exists'.mp entered
    obtain ⟨number, ticket, live, named, _⟩ := balanced.owned invocation owner entered
    exact unnamed number ticket live named
  have unnumbered : ledger.tickets.get? ledger.issued = none := by
    by_contra taken
    obtain ⟨ticket, live⟩ := ne_none_iff_exists'.mp taken
    exact absurd (balanced.numbered _ ticket live).1 (Nat.lt_irrefl _)
  -- the slots after the permit: the one that issues it counts one more
  have slots : ∀ other slot', (ledger.issue key slot invocation).slots.get? other = some slot' ↔
      ∃ earlier, ledger.slots.get? other = some earlier ∧ slot' = { earlier with
        active := earlier.active + (decide (key = other)).toNat } := by
    intro other slot'
    simp only [Ledger.issue, get?_insert]
    by_cases same : other = key
    · subst same
      simp [registered, eq_comm]
    · simp [same, Ne.symm same]
  refine ⟨?_, ?_, ?_, ?_, ?_, ?_, ?_⟩
  · intro other slot' found
    obtain ⟨earlier, known, rfl⟩ := (slots other slot').mp found
    simp only [Ledger.live, Ledger.inFlight, Ledger.issue,
      countOf_insert_new _ _ _ unentered, countOf_insert_new _ _ _ unnumbered]
    obtain ⟨permits, entries, limited⟩ := balanced.counted other earlier known
    by_cases same : key = other
    · subst same
      rw [registered] at known
      cases known
      simp only [decide_true, Bool.toNat_true]
      exact ⟨congrArg (· + 1) permits, congrArg (· + 1) entries, room⟩
    · have elsewhere : slot.registration ≠ earlier.registration := fun this =>
        same (balanced.distinct key other slot earlier registered known this)
      simp only [elsewhere, same, decide_false, Bool.toNat_false, Nat.add_zero]
      exact ⟨permits, entries, limited⟩
  · intro other slot' found
    obtain ⟨earlier, known, rfl⟩ := (slots other slot').mp found
    exact Nat.lt_succ_of_lt (balanced.enrolled other earlier known)
  · intro first second slot' slot'' one two same
    obtain ⟨_, known, rfl⟩ := (slots first slot').mp one
    obtain ⟨_, known', rfl⟩ := (slots second slot'').mp two
    exact balanced.distinct first second _ _ known known' same
  · intro number ticket found
    simp only [Ledger.issue, get?_insert] at found ⊢
    split at found
    next same =>
      cases found
      exact ⟨by omega, Nat.lt_succ_of_lt (balanced.enrolled key slot registered)⟩
    · obtain ⟨one, two⟩ := balanced.numbered number ticket found
      exact ⟨Nat.lt_succ_of_lt one, Nat.lt_succ_of_lt two⟩
  · intro number ticket other slot' live found issuer
    obtain ⟨earlier, known, rfl⟩ := (slots other slot').mp found
    simp only [Ledger.issue, get?_insert] at live ⊢
    split at live
    · cases live
      have key_same := balanced.distinct key other slot earlier registered known issuer.symm
      simp [key_same]
    · obtain ⟨named, entered⟩ := balanced.held number ticket other earlier live known issuer
      rw [if_neg (unnamed number ticket live)]
      exact ⟨named, entered⟩
  · intro invocation' owner entered
    simp only [Ledger.issue, get?_insert] at entered
    split at entered
    next same =>
      cases entered
      refine ⟨ledger.issued, ⟨slot.registration, key, invocation⟩, ?_, same.symm, rfl, ?_,
        { slot with active := slot.active + 1 }, ?_, rfl⟩ <;> simp [Ledger.issue]
    next apart =>
      obtain ⟨number, ticket, live, named, rfl, entry, slot', earlier, issuer⟩ :=
        balanced.owned invocation' owner entered
      refine ⟨number, ticket, ?_, named, rfl, ?_, _, (slots _ _).mpr ⟨slot', earlier, rfl⟩, issuer⟩
      · simp only [Ledger.issue, get?_insert]
        rw [if_neg (balanced.numbered number ticket live).1.ne, live]
      · simp only [Ledger.issue, get?_insert]
        rw [if_neg (named ▸ apart), entry]
  · intro number number' ticket ticket' one two same
    simp only [Ledger.issue, get?_insert] at one two
    split at one <;> split at two
    next left right =>
      rw [left, right]
    · cases one
      exact absurd same.symm (unnamed number' ticket' two)
    · cases two
      exact absurd same (unnamed number ticket one)
    · exact balanced.single number number' ticket ticket' one two same

section

variable (live : ledger.tickets.get? number = some ticket)
include live

theorem own_entry {owner : GenerationKey}
    (entered : ledger.entries.get? ticket.invocation = some owner) :
    owner = ticket.key ∧ ledger.Held ticket := by
  obtain ⟨number', ticket', live', named, same, held⟩ := balanced.owned _ owner entered
  have one := balanced.single number' number ticket' ticket live' live named
  rw [one, live] at live'
  cases live'
  exact ⟨same.symm, held⟩

/-- The slots after a drop: the one that issued the permit counts one less. -/
theorem slots_retire (key : GenerationKey) (slot : Slot) :
    (ledger.retire number ticket).slots.get? key = some slot ↔
      ∃ earlier, ledger.slots.get? key = some earlier ∧ slot = { earlier with
        active := earlier.active - (decide (ticket.registration = earlier.registration)).toNat } := by
  simp only [Ledger.retire]
  split
  next entered =>
    obtain ⟨_, _, issuer, registered, issued⟩ := balanced.own_entry live entered
    rw [get?_modify]
    split
    next same =>
      rw [same, registered]
      simp [issued, eq_comm]
    next apart =>
      have elsewhere : ∀ earlier, ledger.slots.get? key = some earlier →
          ticket.registration ≠ earlier.registration := fun earlier found same =>
        apart (balanced.distinct key ticket.key earlier issuer found registered
          (same.symm.trans issued.symm))
      constructor
      · intro found
        exact ⟨slot, found, by simp [elsewhere slot found]⟩
      · rintro ⟨earlier, found, rfl⟩
        simpa [elsewhere earlier found] using found
  next absent =>
    have elsewhere : ∀ earlier, ledger.slots.get? key = some earlier →
        ticket.registration ≠ earlier.registration := by
      intro earlier found same
      obtain ⟨named, entered⟩ := balanced.held number ticket key earlier live found same.symm
      exact absent (named ▸ entered)
    constructor
    · intro found
      exact ⟨slot, found, by simp [elsewhere slot found]⟩
    · rintro ⟨earlier, found, rfl⟩
      simpa [elsewhere earlier found] using found

/-- Dropping a permit gives back exactly the unit it took. -/
theorem retire :
    Balanced (ledger.retire number ticket) := by
  have kept : ∀ number' ticket', (ledger.retire number ticket).tickets.get? number' = some ticket' ↔
      number' ≠ number ∧ ledger.tickets.get? number' = some ticket' := by
    intro number' ticket'
    simp only [Ledger.retire, get?_erase]
    split <;> simp_all
  -- another live permit names another invocation, so its entry stays
  have other : ∀ number' ticket', number' ≠ number → ledger.tickets.get? number' = some ticket' →
      ticket'.invocation ≠ ticket.invocation := fun number' ticket' apart found same =>
    apart (balanced.single number' number ticket' ticket found live same)
  refine ⟨?_, ?_, ?_, ?_, ?_, ?_, ?_⟩
  · intro key slot found
    obtain ⟨earlier, registered, rfl⟩ := (balanced.slots_retire live key slot).mp found
    obtain ⟨permits, entries, limited⟩ := balanced.counted key earlier registered
    have fewer := countOf_erase ledger.tickets
      (fun ticket => decide (ticket.registration = earlier.registration)) live
    refine ⟨?_, ?_, ?_⟩
    · simp only [Ledger.live, Ledger.retire] at permits ⊢
      omega
    · simp only [Ledger.inFlight, Ledger.retire] at entries ⊢
      cases entered : ledger.entries.get? ticket.invocation with
      | none =>
        have elsewhere : ticket.registration ≠ earlier.registration := by
          intro same
          obtain ⟨_, present⟩ := balanced.held number ticket key earlier live registered same.symm
          rw [entered] at present
          cases present
        rw [erase_of_none _ entered]
        simpa [elsewhere] using entries
      | some owner =>
        obtain ⟨rfl, _, issuer, issued, same⟩ := balanced.own_entry live entered
        have removed := countOf_erase ledger.entries (fun owner => decide (owner = key)) entered
        have agree : (decide (ticket.registration = earlier.registration)) = decide (ticket.key = key) := by
          rw [decide_eq_decide]
          constructor
          · intro registration
            exact balanced.distinct ticket.key key issuer earlier issued registered
              (same.trans registration)
          · intro this
            rw [this, registered] at issued
            cases issued
            exact same.symm
        rw [agree]
        omega
    · exact Nat.le_trans (Nat.sub_le _ _) limited
  · intro key slot found
    obtain ⟨earlier, registered, rfl⟩ := (balanced.slots_retire live key slot).mp found
    exact balanced.enrolled key earlier registered
  · intro key key' slot slot' found found' same
    obtain ⟨earlier, registered, rfl⟩ := (balanced.slots_retire live key slot).mp found
    obtain ⟨earlier', registered', rfl⟩ := (balanced.slots_retire live key' slot').mp found'
    exact balanced.distinct key key' earlier earlier' registered registered' same
  · intro number' ticket' found
    exact balanced.numbered number' ticket' ((kept number' ticket').mp found).2
  · intro number' ticket' key slot found registered issuer
    obtain ⟨apart, earlier_live⟩ := (kept number' ticket').mp found
    obtain ⟨earlier, earlier_registered, rfl⟩ := (balanced.slots_retire live key slot).mp registered
    obtain ⟨same, entered⟩ :=
      balanced.held number' ticket' key earlier earlier_live earlier_registered issuer
    refine ⟨same, ?_⟩
    simp only [Ledger.retire, get?_erase]
    rw [if_neg (other number' ticket' apart earlier_live), entered]
  · intro invocation owner entered
    simp only [Ledger.retire, get?_erase] at entered
    split at entered
    · cases entered
    next apart =>
      obtain ⟨number', ticket', earlier_live, named, rfl, entry, slot, registered, issuer⟩ :=
        balanced.owned invocation owner entered
      have elsewhere : number' ≠ number := by
        rintro rfl
        rw [earlier_live] at live
        cases live
        exact apart named.symm
      refine ⟨number', ticket', (kept _ _).mpr ⟨elsewhere, earlier_live⟩, named, rfl, ?_, _,
        (balanced.slots_retire live _ _).mpr ⟨slot, registered, rfl⟩, issuer⟩
      simp only [Ledger.retire, get?_erase]
      rw [if_neg (other number' ticket' elsewhere earlier_live), entry]
  · intro number' number'' ticket' ticket'' one two
    exact balanced.single number' number'' ticket' ticket'' ((kept _ _).mp one).2 ((kept _ _).mp two).2

end

/-- Removing a generation takes its entries and leaves the other slots as they are. -/
theorem close (key : GenerationKey) : Balanced (ledger.close key) := by
  have found : ∀ other slot, (ledger.close key).slots.get? other = some slot ↔
      other ≠ key ∧ ledger.slots.get? other = some slot := by
    intro other slot
    simp only [Ledger.close, get?_erase]
    split <;> simp_all
  have entered : ∀ invocation owner, (ledger.close key).entries.get? invocation = some owner ↔
      ledger.entries.get? invocation = some owner ∧ owner ≠ key := by
    intro invocation owner
    simp [Ledger.close, get?_filter_eq_some_iff]
  refine ⟨?_, ?_, ?_, balanced.numbered, ?_, ?_, balanced.single⟩
  · intro other slot registered
    obtain ⟨apart, earlier⟩ := (found other slot).mp registered
    have kept : (ledger.close key).inFlight other = ledger.inFlight other := by
      simp only [Ledger.inFlight, Ledger.close, countOf_filter]
      refine countOf_congr _ fun _ owner _ => ?_
      by_cases same : owner = other <;> simp [same, apart]
    rw [kept]
    exact balanced.counted other slot earlier
  · intro other slot registered
    exact balanced.enrolled other slot ((found other slot).mp registered).2
  · intro first second slot slot' one two
    exact balanced.distinct first second slot slot' ((found _ _).mp one).2 ((found _ _).mp two).2
  · intro number ticket other slot live registered issuer
    obtain ⟨apart, earlier⟩ := (found other slot).mp registered
    obtain ⟨same, entry⟩ := balanced.held number ticket other slot live earlier issuer
    exact ⟨same, (entered _ _).mpr ⟨entry, apart⟩⟩
  · intro invocation owner entry
    obtain ⟨earlier, apart⟩ := (entered _ _).mp entry
    obtain ⟨number, ticket, live, named, rfl, held, slot, registered, issuer⟩ :=
      balanced.owned invocation owner earlier
    exact ⟨number, ticket, live, named, rfl, (entered _ _).mpr ⟨held, apart⟩, slot,
      (found _ _).mpr ⟨apart, registered⟩, issuer⟩

theorem clear : Balanced ledger.clear := by
  refine ⟨?_, ?_, ?_, balanced.numbered, ?_, ?_, balanced.single⟩
  · intro key slot registered
    cases registered
  · intro key slot registered
    cases registered
  · intro key key' slot slot' registered
    cases registered
  · intro number ticket key slot _ registered
    cases registered
  · intro invocation key entered
    cases entered

end

end Balanced

/-! ### The ledger of a host -/

def Generation.slot (generation : Generation) : Slot :=
  ⟨generation.registration, generation.active, generation.permitLimit⟩

def Permit.ticket (permit : Permit) : Ticket :=
  ⟨permit.registration, permit.key, permit.invocation⟩

def Host.ledger (host : Host) : Ledger where
  slots := host.state.generations.mapValues Generation.slot
  entries := host.state.inFlight
  tickets := host.permits.mapValues Permit.ticket
  issued := host.issued

/-- The ledger balances, counters stay within 32 bits, nothing waits without a permit, and a key that is
being registered is not registered yet. -/
structure Kept (host : Host) : Prop where
  balanced : Balanced host.ledger
  bounded : ∀ key generation, host.state.generations.get? key = some generation →
    generation.permitLimit ≤ u32Max ∧ generation.pending = 0
  waiting : host.state.pending = .empty
  starting : ∀ key reservation, host.reservations.get? key = some reservation →
    key = toLex (reservation.descriptor.identity, reservation.descriptor.descriptorRevision) ∧
      host.state.generations.get? key = none
  reserved : ∀ key, key ∈ host.state.starting ↔ ∃ reservation, host.reservations.get? key = some reservation

/-- A registry operation that touches neither capacity nor entries: the slots look the same, and what is
starting or waiting is as before. -/
structure Untouched (earlier later : RegistryState) : Prop where
  slots : later.generations.mapValues Generation.slot = earlier.generations.mapValues Generation.slot
  bounded : ∀ key generation, later.generations.get? key = some generation →
    ∃ generation', earlier.generations.get? key = some generation' ∧
      generation.permitLimit = generation'.permitLimit ∧ generation.pending = generation'.pending
  entries : later.inFlight = earlier.inFlight
  waiting : later.pending = earlier.pending
  starting : later.starting = earlier.starting

namespace Kept

variable {host : Host} {key : GenerationKey} {generation : Generation} {state : RegistryState}
  {config : HostConfig} {permit : Permit}

theorem slot_of (registered : host.state.generations.get? key = some generation) :
    host.ledger.slots.get? key = some generation.slot := by
  simp [Host.ledger, registered]

theorem rebuilt (kept : Kept host) {permits : SortedMap Nat Permit}
    (balanced : Balanced (Host.ledger { host with state, permits }))
    (traced : ∀ key generation, state.generations.get? key = some generation →
      ∃ earlier, host.state.generations.get? key = some earlier ∧
        generation.permitLimit = earlier.permitLimit ∧ generation.pending = earlier.pending)
    (waiting : state.pending = .empty) (starting : state.starting = host.state.starting) :
    Kept { host with state, permits } := by
  refine ⟨balanced, ?_, waiting, ?_, fun key => starting ▸ kept.reserved key⟩
  · intro key generation found
    obtain ⟨earlier, registered, limit, idle⟩ := traced key generation found
    obtain ⟨bounded, zero⟩ := kept.bounded key earlier registered
    exact ⟨limit ▸ bounded, idle.trans zero⟩
  · intro key reservation held
    obtain ⟨named, vacant⟩ := kept.starting key reservation held
    refine ⟨named, ?_⟩
    by_contra present
    obtain ⟨generation, found⟩ := ne_none_iff_exists'.mp present
    obtain ⟨earlier, registered, _⟩ := traced key generation found
    rw [vacant] at registered
    cases registered

/-- An operation that touches no capacity keeps everything. -/
theorem untouched (kept : Kept host) (same : Untouched host.state state) : Kept { host with state } := by
  have view : Host.ledger { host with state } = host.ledger := by
    simp [Host.ledger, same.slots, same.entries]
  exact kept.rebuilt (view ▸ kept.balanced) same.bounded (same.waiting.trans kept.waiting) same.starting

theorem untouched_insert {earlier : Generation} (registered : state.generations.get? key = some earlier)
    (later : Generation) (same : later.slot = earlier.slot) (idle : later.pending = earlier.pending)
    (current : SortedMap CapabilityId Nat) :
    Untouched state { state with generations := state.generations.insert key later, current } := by
  refine ⟨mapValues_insert_same _ _ registered same, forall_insert ?_ ?_, rfl, rfl, rfl⟩
  · exact fun _ generation found => ⟨generation, found, rfl, rfl⟩
  · exact ⟨earlier, registered, congrArg Slot.limit same, idle⟩

/-- A reservation is taken for a key that is neither registered nor starting. -/
theorem reserve (kept : Kept host) {descriptor : CapabilityDescriptor}
    {observation : Option CapabilityObservation}
    (done : host.state.reserve config descriptor observation = .ok (some state)) :
    Kept { host with
      state
      reservations := host.reservations.insert
        (toLex (descriptor.identity, descriptor.descriptorRevision)) ⟨descriptor, observation⟩ } := by
  simp only [RegistryState.reserve, checked_eq_ok_iff] at done
  obtain ⟨_, _, _, _, done⟩ := done
  cases vacant : host.state.generations.get? (toLex (descriptor.identity,
      descriptor.descriptorRevision)) with
  | some existing => simp [vacant] at done
  | none =>
    simp only [vacant, checked_eq_ok_iff, Except.ok.injEq, Option.some.injEq] at done
    obtain ⟨_, _, _, _, rfl⟩ := done
    refine ⟨kept.balanced, kept.bounded, kept.waiting, forall_insert kept.starting ⟨rfl, vacant⟩, ?_⟩
    · intro key
      simp only [Finset.mem_insert, get?_insert, kept.reserved]
      split <;> simp_all

theorem abandon (kept : Kept host) (key : GenerationKey) : Kept { host with
      state := host.state.abandon key
      reservations := host.reservations.erase key } := by
  refine ⟨kept.balanced, kept.bounded, kept.waiting, ?_, ?_⟩
  · intro other reservation held
    simp only [get?_erase] at held
    split at held
    · cases held
    · exact kept.starting other reservation held
  · intro other
    simp only [RegistryState.abandon, Finset.mem_erase, get?_erase, kept.reserved]
    split <;> simp_all

/-- The second half of a registration opens a slot under a key that had none. -/
theorem complete (kept : Kept host) {reservation : Reservation} {pendingLimit : Option Nat}
    (held : host.reservations.get? key = some reservation)
    (done : host.state.complete config reservation.descriptor reservation.observation pendingLimit
      host.issued = .ok state) : Kept { host with
      state
      reservations := host.reservations.erase key
      issued := host.issued + 1 } := by
  obtain ⟨named, vacant⟩ := kept.starting key reservation held
  simp only [RegistryState.complete, checked_eq_ok_iff, Except.ok.injEq, ← named] at done
  obtain ⟨_, _, _, _, rfl⟩ := done
  have free : host.ledger.slots.get? key = none := by simp [Host.ledger, vacant]
  refine ⟨?_, ?_, kept.waiting, ?_, ?_⟩
  · have view := kept.balanced.enroll free
      (min reservation.descriptor.maxConcurrent config.maxConcurrentPerGeneration)
    simpa [Host.ledger, Ledger.enroll, mapValues_insert, slot] using view
  · rw [updateCurrent_generations]
    exact forall_insert kept.bounded ⟨(Nat.min_le_right _ _).trans config.bounded, rfl⟩
  · intro other reservation' found
    simp only [get?_erase] at found
    split at found
    · cases found
    next apart =>
      simpa [apart] using kept.starting other reservation' found
  · intro other
    simp only [updateCurrent_starting, Finset.mem_erase, get?_erase, kept.reserved]
    split <;> simp_all

theorem acquire (kept : Kept host) {snapshot : ResolvedCapabilitySnapshot} {invocation : InvocationId}
    {validRequest validAgainst : Except String Unit}
    (unnamed : ∀ number permit, host.permits.get? number = some permit → permit.invocation ≠ invocation)
    (done : host.state.acquire snapshot invocation validRequest validAgainst = .ok (permit, state)) :
    Kept { host with
      state
      permits := host.permits.insert host.issued permit
      issued := host.issued + 1 } := by
  simp only [RegistryState.acquire, checked_eq_ok_iff, Except.ok.injEq, Prod.mk.injEq] at done
  obtain ⟨_, _, _, _, _, _, generation, registered, _, _, _, ⟨room, _⟩, rfl, rfl⟩ := done
  obtain ⟨bounded, idle⟩ := kept.bounded _ generation registered
  have exact_count : min (generation.active + 1) u32Max = generation.active + 1 :=
    Nat.min_eq_left (Nat.le_trans room bounded)
  refine ⟨?_, ?_, kept.waiting, ?_, kept.reserved⟩
  · have apart : ∀ number ticket, host.ledger.tickets.get? number = some ticket →
        ticket.invocation ≠ invocation := by
      intro number ticket live
      simp only [Host.ledger, get?_mapValues, map_eq_some_iff] at live
      obtain ⟨permit, found, rfl⟩ := live
      exact unnamed number permit found
    have view := kept.balanced.issue (slot_of registered) room apart
    simpa [Host.ledger, Ledger.issue, mapValues_insert, slot, Permit.ticket, exact_count] using view
  · exact forall_insert kept.bounded ⟨bounded, idle⟩
  · intro key reservation held
    obtain ⟨named, vacant⟩ := kept.starting key reservation held
    refine ⟨named, ?_⟩
    simp only [get?_insert]
    rw [if_neg fun same => ?_, vacant]
    rw [same, registered] at vacant
    cases vacant

theorem release_slots (state : RegistryState) (permit : Permit) :
    (state.release permit).generations.mapValues slot =
      if state.inFlight.get? permit.invocation = some permit.key then
        (state.generations.mapValues slot).modify permit.key fun slot =>
          { slot with active := slot.active - 1 }
      else state.generations.mapValues slot := by
  unfold release
  split
  · exact mapValues_modify slot _ _ fun _ => rfl
  · rfl

/-- A drop changes no limit and registers nothing. -/
theorem release_generation (found : (state.release permit).generations.get? key = some generation) :
    ∃ earlier, state.generations.get? key = some earlier ∧
      generation.permitLimit = earlier.permitLimit ∧ generation.pending = earlier.pending := by
  unfold release at found
  split at found
  · simp only [get?_modify] at found
    split at found
    next same =>
      obtain ⟨earlier, registered, rfl⟩ := map_eq_some_iff.mp found
      exact ⟨earlier, same ▸ registered, rfl, rfl⟩
    · exact ⟨generation, found, rfl, rfl⟩
  · exact ⟨generation, found, rfl, rfl⟩

theorem release_fields (state : RegistryState) (permit : Permit) :
    (state.release permit).inFlight = state.inFlight.erase permit.invocation ∧
      (state.release permit).pending = state.pending ∧
      (state.release permit).starting = state.starting := by
  unfold release
  split <;> exact ⟨rfl, rfl, rfl⟩

theorem ledger_drop (number : Nat) (permit : Permit) : Host.ledger { host with
      state := host.state.release permit
      permits := host.permits.erase number } = host.ledger.retire number permit.ticket := by
  simp only [Host.ledger, Ledger.retire, release_slots, (release_fields host.state permit).1,
    mapValues_erase]
  rfl

/-- Dropping a permit gives its unit back. -/
theorem drop (kept : Kept host) {number : Nat} (live : host.permits.get? number = some permit) :
    Kept { host with
      state := host.state.release permit
      permits := host.permits.erase number } := by
  obtain ⟨_, pending, starting⟩ := release_fields host.state permit
  have ticket : host.ledger.tickets.get? number = some permit.ticket := by simp [Host.ledger, live]
  refine kept.rebuilt ?_ (fun _ _ => release_generation) (pending.trans kept.waiting) starting
  rw [ledger_drop]
  exact kept.balanced.retire ticket

theorem remove (kept : Kept host) (generations : state.generations = host.state.generations.erase key)
    (entries : state.inFlight = host.state.inFlight.filter fun _ owner => decide (owner ≠ key))
    (waiting : state.pending = .empty) (starting : state.starting = host.state.starting) :
    Kept { host with state } := by
  refine kept.rebuilt ?_ (fun other generation present => ?_) waiting starting
  · have view := kept.balanced.close key
    simpa [Host.ledger, Ledger.close, generations, entries, mapValues_erase] using view
  · rw [generations, get?_erase] at present
    split at present
    · cases present
    · exact ⟨generation, present, rfl, rfl⟩

theorem removeAll (kept : Kept host) (generations : state.generations = .empty)
    (entries : state.inFlight = .empty) (waiting : state.pending = .empty)
    (starting : state.starting = host.state.starting) : Kept { host with state } := by
  refine kept.rebuilt ?_ (fun key generation found => ?_) waiting starting
  · simp only [Host.ledger, generations, entries]
    exact kept.balanced.clear
  · rw [generations] at found
    cases found

theorem drained (kept : Kept host) (registered : host.state.generations.get? key = some generation)
    (idle : generation.active = 0) :
    (∀ number permit, host.permits.get? number = some permit →
      permit.registration ≠ generation.registration) ∧
    ∀ invocation, host.state.inFlight.get? invocation ≠ some key := by
  obtain ⟨permits, entries⟩ := kept.balanced.free (slot_of registered) idle
  refine ⟨fun number permit live => ?_, entries⟩
  exact permits number permit.ticket (by simp [Host.ledger, live])

end Kept

/-! ### Every run -/

/-- No acquisition names an invocation that a live permit still names outside the in-flight entries, and
none names a draining generation while admission is open. -/
def Orderly (host : Host) : Operation → Prop
  | .acquire snapshot invocation _ _ =>
    (host.state.inFlight.get? invocation = none → ∀ number permit,
      host.permits.get? number = some permit → permit.invocation ≠ invocation) ∧
    ∀ generation, host.state.generations.get?
        (toLex (snapshot.capability, snapshot.descriptorRevision)) = some generation →
      generation.draining = true → host.state.shutdown = true
  | _ => True

variable {config : HostConfig}

theorem Kept.step {host : Host} (kept : Kept host) (operation : Operation)
    (orderly : Orderly host operation) : Kept (host.step config operation) := by
  cases operation with
  | reserve descriptor observation =>
    simp only [Host.step]
    split
    next done =>
      exact kept.reserve done
    · exact kept
  | complete key pendingLimit =>
    simp only [Host.step]
    split
    · exact kept
    next descriptor observation held =>
      split
      next done =>
        exact kept.complete held done
      · exact kept.abandon key
  | abandon key =>
    simp only [Host.step]
    split
    · exact kept
    · exact kept.abandon key
  | updateObservation capability revision observation =>
    simp only [Host.step, commit]
    split
    next state done =>
      simp only [updateObservation, checked_eq_ok_iff, Except.ok.injEq] at done
      obtain ⟨_, _, generation, registered, _, _, rfl⟩ := done
      exact kept.untouched (Kept.untouched_insert registered
        { generation with observation := some observation } rfl rfl _)
    · exact kept
  | acquire snapshot invocation validRequest validAgainst =>
    simp only [Host.step, grant]
    split
    next permit state done =>
      refine kept.acquire (orderly.1 ?_) done
      simp only [RegistryState.acquire, checked_eq_ok_iff] at done
      obtain ⟨_, _, _, _, _, ⟨absent, _⟩, _⟩ := done
      simpa [contains] using absent
    · exact kept
  | markFailure number summary =>
    have view : ({ host with permits := host.permits.modify number fun held =>
        { held with failure := some summary } } : Host).ledger = host.ledger := by
      have same : (host.permits.modify number fun held =>
          { held with failure := some summary }).mapValues Permit.ticket =
          host.permits.mapValues Permit.ticket := by
        refine ext_get? fun other => ?_
        simp only [get?_mapValues, get?_modify]
        split
        next equal =>
          rw [equal]
          cases host.permits.get? number <;> rfl
        · rfl
      simp [Host.ledger, same]
    exact ⟨view ▸ kept.balanced, kept.bounded, kept.waiting, kept.starting, kept.reserved⟩
  | drop number =>
    simp only [Host.step]
    split
    · exact kept
    next live =>
      exact kept.drop live
  | settle => exact kept
  | beginDrain capability revision =>
    simp only [Host.step, commit]
    split
    next state done =>
      simp only [beginDrain, checked_eq_ok_iff, Except.ok.injEq] at done
      obtain ⟨generation, registered, rfl⟩ := done
      exact kept.untouched (Kept.untouched_insert registered { generation with draining := true } rfl rfl _)
    · exact kept
  | finishDrain capability revision =>
    simp only [Host.step, commit]
    split
    next state done =>
      simp only [finishDrain, checked_eq_ok_iff, Except.ok.injEq] at done
      obtain ⟨generation, registered, _, _, _, ⟨idle, _⟩, rfl⟩ := done
      -- nothing is in flight there, so removing its entries would remove none
      refine kept.remove rfl (filter_of_all _ ?_).symm kept.waiting rfl
      intro invocation owner entered
      refine decide_eq_true fun same => ?_
      rw [same] at entered
      exact (kept.drained registered idle).2 invocation entered
    · exact kept
  | forceRemove capability revision =>
    simp only [Host.step, commit]
    split
    next state done =>
      simp only [forceRemove, checked_eq_ok_iff, Except.ok.injEq] at done
      obtain ⟨_, _, rfl⟩ := done
      refine kept.remove rfl rfl ?_ rfl
      simp only [updateCurrent_pending, kept.waiting]
      rfl
    · exact kept
  | beginShutdown =>
    simp only [Host.step, beginShutdown]
    split
    · exact kept
    · refine kept.untouched ⟨mapValues_same _ _ fun _ => rfl, ?_, rfl, rfl, rfl⟩
      intro key generation found
      simp only [get?_mapValues, map_eq_some_iff] at found
      obtain ⟨earlier, registered, rfl⟩ := found
      exact ⟨earlier, registered, rfl, rfl⟩
  | finishShutdown =>
    simp only [Host.step, commit]
    split
    · split
      next state done =>
        simp only [finishShutdown, checked_eq_ok_iff, Except.ok.injEq] at done
        obtain ⟨_, _, _, _, rfl⟩ := done
        exact kept.removeAll rfl rfl rfl rfl
      · exact kept
    · exact kept
  | forceShutdown =>
    simp only [Host.step, commit]
    split
    · split
      next state done =>
        simp only [forceShutdown, checked_eq_ok_iff, Except.ok.injEq] at done
        obtain ⟨_, _, rfl⟩ := done
        exact kept.removeAll rfl rfl rfl rfl
      · exact kept
    · exact kept

theorem kept_reached {host : Host} (reached : (machine config).Reached Orderly host) : Kept host := by
  refine reached.invariant ?_ fun earlier operation kept orderly => kept.step operation orderly
  refine ⟨⟨?_, ?_, ?_, ?_, ?_, ?_, ?_⟩, ?_, rfl, ?_, ?_⟩
  all_goals simp [machine, Host.ledger, new]

/-! ### Conservation -/

def Host.livePermits (host : Host) (registration : Nat) : Nat :=
  host.permits.countOf fun permit => decide (permit.registration = registration)

def Host.inFlightEntries (host : Host) (key : GenerationKey) : Nat :=
  host.state.inFlight.countOf fun owner => decide (owner = key)

/-- A permit whose slot is taken: the registration that issued it is still the registered one, and its
invocation is in flight there. -/
def Host.Holds (host : Host) (permit : Permit) : Prop :=
  host.state.inFlight.get? permit.invocation = some permit.key ∧
    ∃ generation, host.state.generations.get? permit.key = some generation ∧
      generation.registration = permit.registration

structure Conserves (config : HostConfig) (condition : Host → Operation → Prop) (host : Host) : Prop where
  /-- A registered generation counts exactly its live permits and its entries, within its limit. -/
  counted : ∀ key generation, host.state.generations.get? key = some generation →
    generation.active = host.livePermits generation.registration ∧
      generation.active = host.inFlightEntries key ∧
      host.livePermits generation.registration ≤ generation.permitLimit
  /-- A drop leaves every other permit its slot and every other registration as it is. -/
  dropped : ∀ number permit, host.permits.get? number = some permit →
    (∀ number' permit', number' ≠ number → host.permits.get? number' = some permit' →
      host.Holds permit' → (host.step config (.drop number)).Holds permit') ∧
    ∀ key generation, host.state.generations.get? key = some generation →
      generation.registration ≠ permit.registration →
      (host.step config (.drop number)).state.generations.get? key = some generation
  /-- A draining or removed generation grants nothing. -/
  refused : ∀ snapshot invocation validRequest validAgainst,
    condition host (.acquire snapshot invocation validRequest validAgainst) →
    (∀ generation, host.state.generations.get?
      (toLex (snapshot.capability, snapshot.descriptorRevision)) = some generation →
      generation.draining = true) →
    (host.step config (.acquire snapshot invocation validRequest validAgainst)).permits = host.permits
  /-- A drain that finishes leaves no live permit of its generation. -/
  drained : ∀ capability revision generation state,
    host.state.generations.get? (toLex (capability, revision)) = some generation →
    host.state.finishDrain capability revision = .ok state →
    (∀ number permit, host.permits.get? number = some permit →
      permit.registration ≠ generation.registration) ∧
    ∀ invocation, host.state.inFlight.get? invocation ≠ some (toLex (capability, revision))

namespace Kept

variable {host : Host}

theorem livePermits_eq (registration : Nat) :
    host.ledger.live registration = host.livePermits registration := by
  simp only [Ledger.live, livePermits, Host.ledger, countOf, sumOf_mapValues]
  rfl

theorem held_iff (permit : Permit) : host.ledger.Held permit.ticket ↔ host.Holds permit := by
  simp only [Ledger.Held, Host.Holds, Host.ledger, get?_mapValues, map_eq_some_iff, Permit.ticket]
  constructor
  · rintro ⟨entered, _, ⟨generation, registered, rfl⟩, issuer⟩
    exact ⟨entered, generation, registered, issuer⟩
  · rintro ⟨entered, generation, registered, issuer⟩
    exact ⟨entered, _, ⟨generation, registered, rfl⟩, issuer⟩

end Kept

/-! ### A capability with two permits -/

def sampleKey : GenerationKey := toLex (sampleDescriptor.identity, 1)

def sampleSnapshot : ResolvedCapabilitySnapshot where
  capability := sampleDescriptor.identity
  descriptorRevision := 1
  providerProfile := none
  category := .process
  operation := "tool.run"
  idempotency := .unsupported
  descriptorExtensions := []
  contract := ""

def sampleInvocation : InvocationId := ⟨"invocation", by decide⟩

/-- Registration, taken through both halves. -/
def sampleRegister : List Operation := [.reserve sampleDescriptor none, .complete sampleKey none]

def sampleAcquire : Operation := .acquire sampleSnapshot sampleInvocation (.ok ()) (.ok ())

/-- In every run whose acquisitions are orderly, permits are conserved. -/
theorem permits_conserved (config : HostConfig) (host : Host)
    (reached : (machine config).Reached Orderly host) : Conserves config Orderly host := by
  have kept := kept_reached reached
  refine ⟨?_, ?_, ?_, ?_⟩
  · intro key generation registered
    obtain ⟨permits, entries, limited⟩ := kept.balanced.counted key _ (Kept.slot_of registered)
    rw [Kept.livePermits_eq] at permits
    exact ⟨permits, entries, permits ▸ limited⟩
  · intro number permit live
    have after : host.step config (.drop number) = { host with
        state := host.state.release permit
        permits := host.permits.erase number } := by simp [Host.step, live]
    have later := kept.drop live
    have ticket : host.ledger.tickets.get? number = some permit.ticket := by simp [Host.ledger, live]
    rw [after]
    constructor
    · intro number' permit' apart live' holds
      have still : (host.permits.erase number).get? number' = some permit' := by simp [apart, live']
      obtain ⟨entered, generation, registered, issuer⟩ := holds
      obtain ⟨slot, issued⟩ : ∃ slot, (host.ledger.retire number permit.ticket).slots.get? permit'.key =
          some slot ∧ slot.registration = permit'.registration :=
        ⟨_, (kept.balanced.slots_retire ticket _ _).mpr ⟨_, Kept.slot_of registered, rfl⟩, issuer⟩
      rw [← Kept.ledger_drop] at issued
      have held := later.balanced.held number' permit'.ticket permit'.key slot
        (by simp [Host.ledger, still]) issued.1 issued.2
      exact (Kept.held_iff permit').mp ⟨held.2, slot, issued⟩
    · intro key generation registered elsewhere
      simp only [release]
      split
      · rename_i entered
        -- the entry is the permit's own, so the slot that changes is the one of its registration
        obtain ⟨_, held⟩ := kept.balanced.own_entry ticket entered
        obtain ⟨_, issuer, issued, same⟩ := (Kept.held_iff permit).mp held
        rw [SortedMap.get?_modify, if_neg fun equal => ?_, registered]
        rw [equal, issued] at registered
        cases registered
        exact elsewhere same
      · exact registered
  · intro snapshot invocation validRequest validAgainst orderly draining
    simp only [Host.step, Host.grant]
    split
    · rename_i permit state done
      simp only [acquire, checked_eq_ok_iff] at done
      obtain ⟨_, _, _, ⟨_, running⟩, _, _, generation, registered, _⟩ := done
      have stopped := orderly.2 generation registered (draining generation registered)
      rw [running] at stopped
      cases stopped
    · rfl
  · intro capability revision generation state registered done
    simp only [finishDrain, checked_eq_ok_iff, registered, Option.some.injEq] at done
    obtain ⟨_, rfl, _, _, _, ⟨idle, _⟩, _⟩ := done
    exact kept.drained registered idle

theorem permits_conserved_of_acquire :
    Conserves sampleConfig Orderly ((machine sampleConfig).run (sampleRegister ++ [sampleAcquire])) ∧
      ((machine sampleConfig).run (sampleRegister ++ [sampleAcquire])).livePermits 0 = 1 := by
  have started : (machine sampleConfig).Reached Orderly (machine sampleConfig).initial := .start
  have reserved := started.next (.reserve sampleDescriptor none) trivial
  have registered := reserved.next (.complete sampleKey none) trivial
  refine ⟨permits_conserved _ _ (registered.next sampleAcquire ⟨?_, ?_⟩), by decide +kernel⟩
  · intro _ number permit live
    cases live
  · intro generation registered draining
    have open_slot : (((machine sampleConfig).run sampleRegister).state.generations.get? sampleKey).map
        Generation.draining = some false := by decide +kernel
    have found : ((machine sampleConfig).run sampleRegister).state.generations.get? sampleKey =
        some generation := registered
    rw [found, Option.map_some, draining] at open_slot
    cases open_slot

/-- A permit outlives its registration, and the same invocation is then acquired from a new one; the drop
of the first permit takes the entry of the second. -/
def sampleReuse : List Operation :=
  sampleRegister ++ [sampleAcquire, .forceRemove sampleDescriptor.identity 1] ++ sampleRegister ++
    [sampleAcquire, .drop 1]

theorem reused_invocation_frees_live_slot :
    ¬ ∀ config host, (machine config).Reached (fun _ _ => True) host →
      Conserves config (fun _ _ => True) host := by
  intro conserved
  have host := conserved sampleConfig _ ((machine sampleConfig).reached_run sampleReuse)
  have counts : (((machine sampleConfig).run sampleReuse).state.generations.get? sampleKey).map
      (fun generation => (generation.active, generation.registration)) = some (0, 2) := by
    decide +kernel
  have live : ((machine sampleConfig).run sampleReuse).livePermits 2 = 1 := by decide +kernel
  obtain ⟨generation, registered, values⟩ := Option.map_eq_some_iff.mp counts
  have agree := (host.counted sampleKey generation registered).1
  simp only [Prod.mk.injEq] at values
  rw [values.1, values.2, live] at agree
  cases agree

end Milkdrift.Registry
