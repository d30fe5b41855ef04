import LiveServices.Proofs.Calm.Removals
import LiveServices.Proofs.Index.Correspondence
import LiveServices.Proofs.Sequence.Places

/-!
# Collections that take every service

A storage may refuse an entry. With entries that stand for their services, as references and
proxies do, it refuses one of a service of which it has none only if it is a sorted set with a
rival, an entry of the same rank (`Mode.exists_rival`). As the storage has just the entries of the
index (`Collection.Corresponds`), in which a service is not looked at twice, an open collection of
such entries takes each service that it is told of or has a rival of it
(`Collection.Stocked.takes`).

With most modes only entries of one service are rivals (`Mode.IsWelcoming`), and then an open
collection takes each service that it is told of (`Collection.Faithful.takes`). A sorted set with
an order of its own is not of this kind.
-/

namespace LiveServices

/-! ## Modes -/

/-- An entry that leaves no place for an entry of a service. -/
def Mode.Rivals (m : Mode Entry) (x : Entry) (r : ServiceReference) : Prop :=
  ∃ order, m = .sortedSet order ∧ ∃ entry : Entry, entry.service = r ∧ order x entry = .eq

/-- An entry of a service of which there is none has a place unless there is a rival. -/
theorem Mode.exists_rival {m : Mode Entry} {items : List Entry} {entry : Entry}
    (hnew : ∀ x ∈ items, x.service.id ≠ entry.service.id) (hp : m.place? items entry = none) :
    ∃ x ∈ items, m.Rivals x entry.service := by
  cases m with
  | list => cases hp
  | set =>
    have hnone : items.any (· == entry) = false := by
      refine List.any_eq_false.2 fun x hx heq => ?_
      exact hnew x hx (Entry.beq_iff.1 heq).2.2
    rw [place?, hnone] at hp
    cases hp
  | sortedList order => cases hp
  | sortedSet order =>
    cases hs : Sequence.search (fun existing => order existing entry) items with
    | taken index =>
      obtain ⟨x, hx, heq⟩ := Sequence.exists_of_search_taken hs
      exact ⟨x, hx, order, rfl, entry, rfl, heq⟩
    | free index =>
      rw [place?, hs] at hp
      cases hp

/-- A mode that refuses an entry only if there is one of the same service. -/
inductive Mode.IsWelcoming : Mode Entry → Prop where
  | list : IsWelcoming .list
  | set : IsWelcoming .set
  | sortedList (order : Entry → Entry → Ordering) : IsWelcoming (.sortedList order)
  | sortedSet {order : Entry → Entry → Ordering}
    (ho : ∀ a b, order a b = .eq → a.service.id = b.service.id) : IsWelcoming (.sortedSet order)

/-- Only entries of one service are rivals. -/
theorem Mode.IsWelcoming.id_of_rivals {m : Mode Entry} (hm : m.IsWelcoming) {x : Entry}
    {r : ServiceReference} (hr : m.Rivals x r) : x.service.id = r.id := by
  obtain ⟨order, rfl, entry, rfl, heq⟩ := hr
  cases hm with
  | sortedSet ho => exact ho x entry heq

/-- The natural order tells services apart. -/
theorem ServiceReference.id_of_naturalOrder {a b : ServiceReference}
    (ho : naturalOrder a b = .eq) : a.id = b.id := by
  have hid : compare a.id b.id = .eq := (Ordering.then_eq_eq.1 ho).2
  simpa using hid

/-- The order in which a collection keeps services if it is configured to be sorted. -/
def ImporterConfig.order (config : ImporterConfig) :
    ServiceReference → ServiceReference → Ordering :=
  match config.sortBy with
  | some key => ServiceReference.orderBy key
  | none => ServiceReference.naturalOrder

/-- A valid configuration makes one plan. -/
theorem Plan.ofConfig_eq_ok {config : ImporterConfig} {factory : Factory Entry}
    {plan : Plan Entry} : Plan.ofConfig config factory = .ok plan ↔
      config.validate = .ok () ∧ ∃ filter, config.parsedFilter = .ok filter ∧ plan = {
        hasRegistry := true
        factory := some factory
        filter := some filter
        beanName := config.beanName
        mandatory := config.mandatory
        mode := .ofKind config.collection fun a b => config.order a.service b.service } := by
  unfold Plan.ofConfig
  cases hv : config.validate with
  | error f =>
    constructor
    · intro hp
      cases hp
    · rintro ⟨hv, -⟩
      cases hv
  | ok _ =>
    cases hf : config.parsedFilter with
    | error f =>
      constructor
      · intro hp
        cases hp
      · rintro ⟨-, filter, hf, -⟩
        cases hf
    | ok filter =>
      constructor
      · intro hp
        exact ⟨rfl, filter, rfl, (Except.ok.inj hp).symm⟩
      · rintro ⟨-, filter, hf, rfl⟩
        cases hf
        rfl

/-- A collection that is configured is welcoming unless it is a sorted set with a sort key. -/
theorem Plan.isWelcoming_ofConfig {config : ImporterConfig} {factory : Factory Entry}
    {plan : Plan Entry} (hp : Plan.ofConfig config factory = .ok plan)
    (hkey : config.collection = .sortedSet → config.sortBy = none) : plan.mode.IsWelcoming := by
  obtain ⟨-, filter, -, rfl⟩ := ofConfig_eq_ok.1 hp
  show (Mode.ofKind config.collection _).IsWelcoming
  cases hkind : config.collection with
  | list => exact .list
  | set => exact .set
  | sortedList => exact .sortedList _
  | sortedSet =>
    refine .sortedSet fun a b heq => ServiceReference.id_of_naturalOrder ?_
    rwa [ImporterConfig.order, hkey hkind] at heq

/-! ## Factories -/

/-- References and proxies stand for their service. -/
theorem Factory.made_ofProxies {proxies : Bool} {serial : Nat} {r : ServiceReference}
    {entry : Entry} {release : Option (Release Entry)}
    (hm : (ofProxies proxies).create serial r = .made entry release) :
    entry.service = r ∧ entry.isGhost = false := by
  cases proxies <;> (cases hm; exact ⟨rfl, rfl⟩)

theorem Factory.exists_made_ofProxies (proxies : Bool) (serial : Nat) (r : ServiceReference) :
    ∃ entry release, (ofProxies proxies).create serial r = .made entry release := by
  cases proxies <;> exact ⟨_, _, rfl⟩

theorem Factory.entriesEquivalent_ofProxies (proxies : Bool) :
    (ofProxies proxies).EntriesEquivalent := by
  refine entriesEquivalent_of_no_ghost ?_
  rintro e ⟨serial, r, release, hm⟩
  exact (made_ofProxies hm).2

/-! ## Collections -/

namespace Collection

/-- A collection of references or of proxies. -/
structure Stocked (k : Collection Entry) : Prop where
  sound : k.Sound
  factory : ∃ proxies, k.factory = .ofProxies proxies
  entry : ∀ holding ∈ k.index, holding.entry.service.id = holding.id
  rising : k.index.Pairwise (Holding.id · < Holding.id ·)

/-- A collection of references or of proxies with a welcoming mode. -/
structure Faithful (k : Collection Entry) : Prop where
  sound : k.Sound
  mode : k.mode.IsWelcoming
  factory : ∃ proxies, k.factory = .ofProxies proxies
  entry : ∀ holding ∈ k.index, holding.entry.service.id = holding.id
  rising : k.index.Pairwise (Holding.id · < Holding.id ·)

/-- A collection has an entry of another service that leaves no place for this one. -/
def HasRival (k : Collection Entry) (r : ServiceReference) : Prop :=
  ∃ x ∈ k.storage.items, x.service.id ≠ r.id ∧ k.mode.Rivals x r

variable {k k' : Collection Entry} {r : ServiceReference} {id : UInt64}
  {services : List ServiceReference} {filter : ServiceFilter} {event : ServiceEvent}

namespace Stocked

/-- What is stored is of the services in the index. -/
theorem mem_of_item (hk : k.Stocked) {x : Entry} (hx : x ∈ k.storage.items) :
    x.service.id ∈ k.identities := by
  obtain ⟨proxies, hfactory⟩ := hk.factory
  have heq := hk.sound.corresponds (hfactory ▸ Factory.entriesEquivalent_ofProxies proxies)
  have hx : x ∈ (k.storage.items : Multiset Entry) := hx
  obtain ⟨e, he, hxe⟩ := Multiset.exists_mem_of_rel_of_mem heq hx
  obtain ⟨holding, hmem, rfl⟩ := List.mem_map.1 he
  have hid := (Entry.beq_iff.1 hxe).2.2
  rw [hid, hk.entry holding hmem]
  exact List.mem_map_of_mem hmem

/-- The storage refuses the entry of a new service only because of a rival. -/
theorem hasRival (hk : k.Stocked) {entry : Entry} (hn : k.hasIdentity entry.service.id = false)
    (ht : (k.storage.append k.mode entry).1 = false) : k.HasRival entry.service := by
  have hnew : ∀ x ∈ k.storage.items, x.service.id ≠ entry.service.id := fun x hx heq => by
    have hmem := hk.mem_of_item hx
    rw [heq, ← hasIdentity_iff, hn] at hmem
    cases hmem
  have hplace : k.mode.place? k.storage.items entry = none := by
    rw [LiveSequence.append] at ht
    split at ht
    · cases ht
    · next hp => exact hp
  obtain ⟨x, hx, hrival⟩ := Mode.exists_rival hnew hplace
  exact ⟨x, hx, hnew x hx, hrival⟩

/-- **Taking.** An open collection takes the service that it is told of, or it has a rival. -/
theorem takes (hk : k.Stocked) (ho : k.closed = false) (ht : k.Takes r k') :
    k'.Stocked ∧ ((∀ x, x ∈ k'.identities ↔ x ∈ k.identities ∨ x = r.id) ∨
      k' = k ∧ k.HasRival r) := by
  obtain ⟨proxies, hfactory⟩ := hk.factory
  cases ht with
  | passed hpassed =>
    have hhas : r.id ∈ k.identities := by
      rcases hpassed with hclosed | hhas
      · rw [ho] at hclosed
        cases hclosed
      · exact hasIdentity_iff.1 hhas
    refine ⟨hk, .inl fun x => ⟨.inl, ?_⟩⟩
    rintro (hx | rfl)
    · exact hx
    · exact hhas
  | @unmade serial _ _ hf =>
    obtain ⟨entry, release, hm⟩ := Factory.exists_made_ofProxies proxies serial r
    exact absurd (hfactory ▸ hm) (hf entry release)
  | refused _ hn hm ht =>
    obtain ⟨rfl, -⟩ := Factory.made_ofProxies (hfactory ▸ hm)
    exact ⟨hk, .inr ⟨rfl, hk.hasRival hn ht⟩⟩
  | @admitted serial entry release _ hn hm ht =>
    have hself := (Factory.made_ofProxies (hfactory ▸ hm)).1
    refine ⟨⟨hk.sound.enter hn ⟨serial, r, release, hm⟩ ht, hk.factory, ?_, ?_⟩, .inl ?_⟩
    · intro holding hmem
      rcases Roster.mem_insert hmem with rfl | hmem
      · exact congrArg ServiceReference.id hself
      · exact hk.entry holding hmem
    · exact Roster.rising_insert hk.rising
    · intro x
      have hperm : (k.enter ⟨serial, entry, r, release⟩).identities.Perm (r.id :: k.identities) :=
        identities_enter hn
      rw [hperm.mem_iff, List.mem_cons, or_comm]

theorem drops (hk : k.Stocked) (hd : k.Drops id k') : k'.Stocked := by
  cases hd with
  | absent => exact hk
  | @found holding hf =>
    refine ⟨hk.sound.leave hf, hk.factory, fun other hmem => ?_, ?_⟩
    · exact hk.entry other (List.mem_filter.1 hmem).1
    · exact hk.rising.filter _

/-- A collection with the same entries is stocked too. -/
theorem of_sameEntries (hk : k.Stocked) (hs : k.SameEntries k') : k'.Stocked where
  sound := .of_sameEntries hs hk.sound
  factory := hs.factory ▸ hk.factory
  entry := hs.index ▸ hk.entry
  rising := hs.index ▸ hk.rising

theorem faithful (hk : k.Stocked) (hm : k.mode.IsWelcoming) : k.Faithful :=
  ⟨hk.sound, hm, hk.factory, hk.entry, hk.rising⟩

end Stocked

namespace Faithful

theorem stocked (hk : k.Faithful) : k.Stocked := ⟨hk.sound, hk.factory, hk.entry, hk.rising⟩

/-- No service has a rival. -/
theorem not_hasRival (hk : k.Faithful) : ¬ k.HasRival r := fun ⟨_, _, hne, hrival⟩ =>
  hne (hk.mode.id_of_rivals hrival)

/-- The storage takes the entry of a new service. -/
theorem append_eq_true (hk : k.Faithful) {entry : Entry}
    (hn : k.hasIdentity entry.service.id = false) :
    (k.storage.append k.mode entry).1 = true := by
  cases ht : (k.storage.append k.mode entry).1 with
  | true => rfl
  | false => exact absurd (hk.stocked.hasRival hn ht) hk.not_hasRival

/-- **Taking.** An open collection takes the service that it is told of. -/
theorem takes (hk : k.Faithful) (ho : k.closed = false) (ht : k.Takes r k') :
    k'.Faithful ∧ ∀ x, x ∈ k'.identities ↔ x ∈ k.identities ∨ x = r.id := by
  obtain ⟨hk', hmem | ⟨-, hrival⟩⟩ := hk.stocked.takes ho ht
  · obtain ⟨index, storage, rfl⟩ := ht.gains.frame
    exact ⟨hk'.faithful hk.mode, hmem⟩
  · exact absurd hrival hk.not_hasRival

/-- All services that it is told of are taken. -/
theorem takesAll (hk : k.Faithful) (ho : k.closed = false) (ht : TakesAll services k k') :
    k'.Faithful ∧
    ∀ x, x ∈ k'.identities ↔ x ∈ k.identities ∨ x ∈ services.map ServiceReference.id := by
  induction ht with
  | nil k => exact ⟨hk, fun x => by simp⟩
  | cons ht hs ih =>
    obtain ⟨hk₁, hmem₁⟩ := hk.takes ho ht
    have ho₁ := ho
    obtain ⟨index, storage, rfl⟩ := ht.gains.frame
    obtain ⟨hk', hmem'⟩ := ih hk₁ ho₁
    refine ⟨hk', fun x => ?_⟩
    rw [hmem', hmem₁, List.map_cons, List.mem_cons, or_assoc]

theorem drops (hk : k.Faithful) (hd : k.Drops id k') : k'.Faithful := by
  refine (hk.stocked.drops hd).faithful ?_
  cases hd with
  | absent | found => exact hk.mode

/-- A collection with the same entries and the same mode is faithful too. -/
theorem of_sameEntries (hk : k.Faithful) (hs : k.SameEntries k') (hm : k'.mode = k.mode) :
    k'.Faithful := (hk.stocked.of_sameEntries hs).faithful (hm ▸ hk.mode)

theorem of_sameShelf (hk : k.Faithful) (hs : k.SameShelf k') : k'.Faithful :=
  hk.of_sameEntries ⟨hs.factory, hs.index, congrArg LiveSequence.items hs.storage⟩ hs.mode

/-- A service that appears or is updated is in the collection then, if the filter accepts it. -/
theorem hears_put (hk : k.Faithful) (ho : k.closed = false)
    (hevent : event = .registered r ∨ event = .modified r)
    (hh : k.Hears? (some filter) (·.accepts r.properties) event k') :
    k'.Faithful ∧ ∀ x, x ∈ k'.identities ↔
      x ∈ k.identities ∨ x = r.id ∧ filter.accepts r.properties = true := by
  unfold Hears? at hh
  split at hh
  · next hw =>
    have hw : filter.accepts r.properties = true := hw
    have ht : k.Takes r k' := by
      rcases hevent with rfl | rfl
      · exact hh
      · exact hh
    simpa [hw] using hk.takes ho ht
  · next hw =>
    have hw : filter.accepts r.properties = false := Bool.eq_false_iff.2 hw
    rw [hh]
    exact ⟨hk, fun x => by simp [hw]⟩

/-- A service that disappears is in the collection no more, if the filter accepts it. -/
theorem hears_unregistering (hk : k.Faithful)
    (hh : k.Hears? (some filter) (·.accepts r.properties) (.unregistering r) k') :
    k'.Faithful := by
  unfold Hears? at hh
  split at hh
  · exact hk.drops hh
  · exact hh ▸ hk

end Faithful

/-- An event changes the index and the storage of a collection only. -/
theorem Hears?.frame {link : Option ServiceFilter} {wants : ServiceFilter → Bool}
    (hh : k.Hears? link wants event k') :
    ∃ index storage, k' = { k with index := index, storage := storage } := by
  have hstay : ∃ index storage, k = { k with index := index, storage := storage } :=
    ⟨k.index, k.storage, rfl⟩
  unfold Hears? at hh
  split at hh
  · unfold Hears at hh
    split at hh
    · exact hh.gains.frame
    · exact hh.gains.frame
    · cases hh with
      | absent => exact hstay
      | found => exact ⟨_, _, rfl⟩
    · exact hh ▸ hstay
  · exact hh ▸ hstay

end Collection

end LiveServices
