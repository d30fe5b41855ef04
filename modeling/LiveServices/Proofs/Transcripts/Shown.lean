import LiveServices.Proofs.Releases.Serials
import LiveServices.Proofs.Replays.Stages
import LiveServices.Proofs.Transcripts.Consistent

/-!
# Collections that show a transcript

The importer's collection shows the services that are bound in a transcript
(`Collection.Shows`): its index and its storage have just these, each with the name of its bind,
and a storage that is not sorted has them in the order of binding. A service that enters is one
that is not bound (`Shows.enter`), one that leaves is bound under the name that it entered with
(`Shows.leave`), and a read tells what a transcript has to tell then (`Shows.read`).
-/

namespace LiveServices

/-! ## What changes of a sequence do to its items -/

/-- Where at most one item passes a test, taking it out takes all of these out. -/
theorem eraseP_eq_filter {α : Type} {p : α → Bool} {l : List α}
    (hl : l.Pairwise fun a b => p a = true → p b = false) : l.eraseP p = l.filter (!p ·) := by
  induction l with
  | nil => rfl
  | cons a l ih =>
    obtain ⟨ha, hl⟩ := List.pairwise_cons.1 hl
    by_cases hp : p a = true
    · have hrest : l.filter (!p ·) = l := List.filter_eq_self.2 fun b hb => by simp [ha b hb hp]
      rw [List.eraseP_cons_of_pos hp, List.filter_cons_of_neg (by simp [hp]), hrest]
    · rw [List.eraseP_cons_of_neg hp, List.filter_cons_of_pos (by simpa using hp), ih hl]

namespace LiveSequence

variable {α : Type} [BEq α] {s : LiveSequence α} {item : α}

theorem items_removeOne (s : LiveSequence α) (item : α) :
    (s.removeOne item).2.items = s.items.eraseP (· == item) := by
  rw [List.eraseP_eq_eraseIdx, removeOne]
  cases s.items.findIdx? (· == item) <;> rfl

/-- Without an order an item that is taken goes to the end. -/
theorem items_append_of_unsorted {m : Mode α} (hm : m.kind.isSorted = false)
    (ht : (s.append m item).1 = true) : (s.append m item).2.items = s.items ++ [item] := by
  have hend (index : Nat) (hplace : m.place? s.items item = some index) :
      index = s.items.length := by
    cases m with
    | list => exact (Option.some.inj hplace).symm
    | set =>
      simp only [Mode.place?] at hplace
      split at hplace
      · cases hplace
      · exact (Option.some.inj hplace).symm
    | sortedList | sortedSet => cases hm
  unfold append at ht ⊢
  split
  · next index hplace =>
    rw [items_insertAt, hend index hplace, List.take_length, List.drop_length]
  · next hplace => simp [hplace] at ht

end LiveSequence

/-! ## Collections -/

/-- A service as a transcript names it. -/
def ServiceReference.shown (r : ServiceReference) : Transcript.Service := (r.id, r.name?)

open Transcript (Service)

namespace Collection

/-- The collection of this importer has the services that are bound. -/
structure Shows (config : ImporterConfig) (bound : List Service) (k : Collection Entry) :
    Prop where
  stocked : k.Stocked
  beanName : k.dependency.beanName = config.beanName
  mandatory : k.dependency.mandatory = config.mandatory
  kind : k.mode.kind = config.collection
  lifecycle : k.lifecycleListeners = [⟨0, 0, Replay.listener⟩]
  state : k.stateListeners = [⟨1, 0, Replay.listener⟩]
  indexed : (k.index.map fun x => x.reference.shown).Perm bound
  stored : (k.storage.items.map fun e => e.service.shown).Perm bound
  inOrder : config.collection.isSorted = false →
    k.storage.items.map (fun e => e.service.shown) = bound

namespace Shows

variable {config : ImporterConfig} {bound : List Service} {k k' : Collection Entry}
  {holding : Holding Entry} {id : UInt64}

theorem of_sameStock (hk : k.Shows config bound) (hs : k.SameStock k') :
    k'.Shows config bound where
  stocked := hk.stocked.of_sameEntries ⟨hs.factory, hs.index, hs.items⟩
  beanName := hs.dependency ▸ hk.beanName
  mandatory := hs.dependency ▸ hk.mandatory
  kind := hs.mode ▸ hk.kind
  lifecycle := hs.lifecycle ▸ hk.lifecycle
  state := hs.state ▸ hk.state
  indexed := hs.index ▸ hk.indexed
  stored := hs.items ▸ hk.stored
  inOrder := hs.items ▸ hk.inOrder

/-- A collection without services, as a scenario's importer has it at first. -/
theorem of_planOf {filter : ServiceFilter}
    (hb : (Replay.planOf config filter).build 0 0 = .ok k) : k.Shows config [] := by
  obtain rfl := Except.ok.inj hb
  refine ⟨⟨.nil rfl rfl, ⟨_, rfl⟩, by simp, .nil⟩, rfl, rfl, ?_, rfl, rfl, .nil, .nil, fun _ => rfl⟩
  exact Mode.kind_ofKind ..

theorem size_eq (hk : k.Shows config bound) : k.size = bound.length := by
  simpa [size] using hk.stored.length_eq

/-- What is stored is of services that are bound once. -/
theorem nodup (hk : k.Shows config bound) :
    (k.storage.items.map fun e => e.service.id).Nodup := by
  have hids : (k.index.map fun x => x.reference.shown).map Prod.fst = k.identities := by
    rw [List.map_map]
    rfl
  have hperm := (hk.stored.trans hk.indexed.symm).map Prod.fst
  rw [hids, List.map_map] at hperm
  exact hperm.nodup_iff.2 hk.stocked.sound.nodup

/-- An entry that the factory made is no ghost. -/
theorem isGhost_eq_false (hk : k.Shows config bound) {e : Entry} (he : k.factory.Makes e) :
    e.isGhost = false := by
  obtain ⟨proxies, hfactory⟩ := hk.stocked.factory
  obtain ⟨serial, r, release, hm⟩ := he
  exact (Factory.made_ofProxies (hfactory ▸ hm)).2

/-- A service that the collection does not have is not bound. -/
theorem filter_of_new (hk : k.Shows config bound) (hn : k.hasIdentity id = false) :
    bound.filter (·.1 == id) = [] := by
  refine List.filter_eq_nil_iff.2 fun s hs heq => ?_
  obtain ⟨x, hx, rfl⟩ := List.mem_map.1 (hk.indexed.mem_iff.2 hs)
  have hid : x.id = id := eq_of_beq heq
  rw [hasIdentity_iff.2 (hid ▸ List.mem_map_of_mem hx)] at hn
  cases hn

/-- **Entering.** A service that enters is bound from then on. -/
theorem enter (hk : k.Shows config bound) {serial : Nat} {r : ServiceReference} {entry : Entry}
    {release : Option (Release Entry)} (ho : k.closed = false) (hn : k.hasIdentity r.id = false)
    (hm : k.factory.create serial r = .made entry release)
    (ht : (k.storage.append k.mode entry).1 = true) :
    (k.enter ⟨serial, entry, r, release⟩).Shows config (bound ++ [r.shown]) := by
  obtain ⟨proxies, hfactory⟩ := hk.stocked.factory
  have hself : entry.service = r := (Factory.made_ofProxies (hfactory ▸ hm)).1
  have hindex : ((k.enter ⟨serial, entry, r, release⟩).index.map fun x => x.reference.shown).Perm
      (r.shown :: k.index.map fun x => x.reference.shown) := (index_enter hn).map _
  have hitems := (LiveSequence.items_append_perm ht).map fun e => e.service.shown
  rw [List.map_cons, hself] at hitems
  have hlast := (List.perm_append_singleton r.shown bound).symm
  refine ⟨(hk.stocked.takes ho (.admitted ho hn hm ht)).1, hk.beanName, hk.mandatory, hk.kind,
    hk.lifecycle, hk.state, ?_, ?_, fun hsorted => ?_⟩
  · exact hindex.trans ((hk.indexed.cons _).trans hlast)
  · exact hitems.trans ((hk.stored.cons _).trans hlast)
  · show (k.storage.append k.mode entry).2.items.map _ = _
    rw [LiveSequence.items_append_of_unsorted (hk.kind.symm ▸ hsorted) ht, List.map_append,
      hk.inOrder hsorted, List.map_singleton, hself]

/-- The storage loses the item of the service that leaves, and no other. -/
theorem items_leave (hk : k.Shows config bound) (hx : holding ∈ k.index) :
    (k.leave holding).storage.items =
      k.storage.items.filter fun e => e.service.id != holding.id := by
  have hentry : holding.entry.isGhost = false :=
    hk.isGhost_eq_false (hk.stocked.sound.held _ (List.mem_map_of_mem hx))
  have hequal : ∀ e ∈ k.storage.items, (e == holding.entry) = (e.service.id == holding.id) := by
    intro e he
    have hghost := hk.isGhost_eq_false (hk.stocked.sound.stored e he)
    rw [Bool.eq_iff_iff, Entry.beq_iff, hk.stocked.entry holding hx, beq_iff_eq]
    simp [hghost, hentry]
  have hunique : k.storage.items.Pairwise fun a b =>
      (a == holding.entry) = true → (b == holding.entry) = false := by
    refine (List.pairwise_map.1 hk.nodup).imp_of_mem fun {a b} ha hb hne heq => ?_
    rw [hequal a ha, beq_iff_eq] at heq
    rw [hequal b hb, beq_eq_false_iff_ne, ← heq]
    exact hne.symm
  show (k.storage.removeOne holding.entry).2.items = _
  rw [LiveSequence.items_removeOne, eraseP_eq_filter hunique]
  exact List.filter_congr fun e he => by rw [hequal e he]; rfl

/-- **Leaving.** A service that leaves is bound no more. -/
theorem leave (hk : k.Shows config bound)
    (hf : Roster.find? Holding.id id k.index = some holding) :
    (k.leave holding).Shows config (bound.filter (·.1 != holding.id)) := by
  have hindex : (k.leave holding).index.map (fun x => x.reference.shown) =
      (k.index.map fun x => x.reference.shown).filter (·.1 != holding.id) := by
    rw [List.filter_map]
    rfl
  have hitems : (k.leave holding).storage.items.map (fun e => e.service.shown) =
      (k.storage.items.map fun e => e.service.shown).filter (·.1 != holding.id) := by
    rw [hk.items_leave (List.mem_of_find?_eq_some hf), List.filter_map]
    rfl
  refine ⟨hk.stocked.drops (.found hf), hk.beanName, hk.mandatory, hk.kind, hk.lifecycle, hk.state,
    ?_, ?_, fun hsorted => ?_⟩
  · rw [hindex]
    exact hk.indexed.filter _
  · rw [hitems]
    exact hk.stored.filter _
  · rw [hitems, hk.inOrder hsorted]

/-- A service of the collection is bound, under the name that it entered with. -/
theorem filter_of_found (hk : k.Shows config bound)
    (hf : Roster.find? Holding.id id k.index = some holding) :
    bound.filter (·.1 == holding.id) = [holding.reference.shown] := by
  have hid := id_of_find? hf
  subst hid
  have hperm := ((index_leave hk.stocked.sound.nodup hf).map fun x => x.reference.shown).symm.trans
    hk.indexed
  refine List.perm_singleton.1 ((hperm.filter _).symm.trans (.of_eq ?_))
  have hrest : ((k.leave holding).index.map fun x => x.reference.shown).filter
      (·.1 == holding.id) = [] := by
    refine List.filter_eq_nil_iff.2 fun s hs heq => ?_
    obtain ⟨x, hx, rfl⟩ := List.mem_map.1 hs
    have hne : (x.id != holding.id) = true := (List.mem_filter.1 hx).2
    have hsame : x.id = holding.id := eq_of_beq heq
    simp [hsame] at hne
  have hself : (holding.reference.shown.1 == holding.id) = true := beq_self_eq_true _
  rw [List.map_cons, List.filter_cons, if_pos hself, hrest]

/-- The storage has an item for each service of the collection. -/
theorem removeOne_eq_true (hk : k.Shows config bound)
    (hf : Roster.find? Holding.id id k.index = some holding) :
    (k.storage.removeOne holding.entry).1 = true := by
  obtain ⟨proxies, hfactory⟩ := hk.stocked.factory
  exact hk.stocked.sound.removeOne_eq_true
    (hfactory ▸ Factory.entriesEquivalent_ofProxies proxies) (List.mem_of_find?_eq_some hf)

/-- **Reading.** A read tells what a transcript has to tell. -/
theorem read (hk : k.Shows config bound) : ∃ size services error,
    k.readRecord = .read size services error ∧
      Transcript.Reads config bound size services error := by
  have hlabels : (k.storage.items.map fun e => (ServiceEntry.reference e).label) =
      (k.storage.items.map fun e => e.service.shown).map Transcript.label := by
    rw [List.map_map]
    rfl
  unfold readRecord check Dependency.check Dependency.isSatisfied
  rw [hk.size_eq, hk.mandatory]
  split
  · next hcheck =>
    refine ⟨_, _, _, rfl, .listing (fun hm hb => ?_) ?_ fun hsorted => ?_⟩
    · simp [hm, hb] at hcheck
    · rw [hlabels]
      exact hk.stored.map _
    · rw [hlabels, hk.inOrder hsorted]
  · next f hcheck =>
    split at hcheck
    · cases hcheck
    · next hunmet =>
      obtain ⟨hm, hb⟩ : config.mandatory = true ∧ bound = [] := by simpa using hunmet
      exact ⟨_, _, _, rfl, .lacking hm hb f.message⟩

end Shows

end Collection

end LiveServices
