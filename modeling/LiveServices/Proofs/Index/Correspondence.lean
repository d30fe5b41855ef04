import LiveServices.Proofs.Run.Onward
import Mathlib.Data.List.Perm.Basic
import Mathlib.Data.Multiset.ZeroCons

/-!
# Index and storage

A collection keeps its entries twice: the index holds one for each service, and the storage
holds them in the order of its mode. The two are changed one after the other, and an entry
leaves the storage by value: the first item that equals it goes. So what holds between the two
is a correspondence of multisets up to equality of entries (`Collection.Corresponds`), and it
survives the removal of an equal item in place of the entry itself because equality of entries
is transitive (`rel_of_cons`).

`Collection.Sound` is the invariant of one collection. Entering and leaving keep it
(`Sound.enter`, `Sound.leave`); every section begins and ends in a sound state, and in between
its states are shielded by the lock of the index. `Hub.Coherent` says so of all states in which
collections ever were, and `index_corresponds_storage` reads off what others can rely on
whenever the lock of the index is free.

The entries of the index and of the storage all come from the factory, so equality has to be an
equivalence on what the factory makes and no more (`Factory.EntriesEquivalent`).
-/

namespace LiveServices

variable {E : Type}

/-! ## What changes of a sequence do to its items -/

namespace LiveSequence

variable {α : Type}

/-- A taken item comes to those that were there. -/
theorem items_append_perm [BEq α] {m : Mode α} {s : LiveSequence α} {item : α}
    (h : (s.append m item).1 = true) : (s.append m item).2.items.Perm (item :: s.items) := by
  unfold append at h ⊢
  split
  · next index hp =>
    rw [items_insertAt]
    exact List.perm_middle.trans (by rw [List.take_append_drop])
  · next hp => simp [hp] at h

/-- An item that equals a given one is removed whenever there is one, and nothing else is. -/
theorem removeOne_cases [BEq α] (s : LiveSequence α) (item : α) :
    ((s.removeOne item).1 = true ∧
      ∃ x, (x == item) = true ∧ s.items.Perm (x :: (s.removeOne item).2.items)) ∨
    ((s.removeOne item).1 = false ∧ (s.removeOne item).2 = s ∧
      ∀ x ∈ s.items, (x == item) = false) := by
  unfold removeOne
  split
  · next index hi =>
    obtain ⟨hlt, hx, -⟩ := List.findIdx?_eq_some_iff_getElem.1 hi
    exact .inl ⟨rfl, s.items[index], hx, (List.getElem_cons_eraseIdx_perm hlt).symm⟩
  · next hi => exact .inr ⟨rfl, rfl, List.findIdx?_eq_none_iff.1 hi⟩

end LiveSequence

/-! ## Multisets up to an equivalence -/

/-- Related multisets stay related when related members are taken out of them. -/
theorem rel_of_cons {α : Type} {r : α → α → Prop} {p : α → Prop}
    (symm : ∀ {a b}, p a → p b → r a b → r b a)
    (trans : ∀ {a b c}, p a → p b → p c → r a b → r b c → r a c) {s t : Multiset α} {a b : α}
    (hs : ∀ x ∈ a ::ₘ s, p x) (ht : ∀ x ∈ b ::ₘ t, p x) (hab : r a b)
    (h : Multiset.Rel r (a ::ₘ s) (b ::ₘ t)) : Multiset.Rel r s t := by
  obtain ⟨b', t', hab', hrel, heq⟩ := Multiset.rel_cons_left.1 h
  rcases Multiset.cons_eq_cons.1 heq with ⟨-, rfl⟩ | ⟨-, u, rfl, rfl⟩
  · exact hrel
  · -- `a` was matched with `b'`, and some `a'` with `b`: so `a'` can be matched with `b'`
    obtain ⟨a', s', ha'b, hrel', rfl⟩ := Multiset.rel_cons_right.1 hrel
    have pa : p a := hs a (Multiset.mem_cons_self ..)
    have pa' : p a' := hs a' (Multiset.mem_cons_of_mem (Multiset.mem_cons_self ..))
    have pb : p b := ht b (Multiset.mem_cons_self ..)
    have pb' : p b' := ht b' (Multiset.mem_cons_of_mem (Multiset.mem_cons_self ..))
    exact .cons (trans pa' pb pb' ha'b (trans pb pa pb' (symm pa pb hab) hab')) hrel'

/-! ## The invariant of a collection -/

variable [ServiceEntry E]

namespace Factory

/-- The factory may make this entry. -/
def Makes (f : Factory E) (e : E) : Prop := ∃ serial r release, f.create serial r = .made e release

/-- Equality is an equivalence on the entries that the factory makes. -/
structure EntriesEquivalent (f : Factory E) : Prop where
  refl : ∀ {a}, f.Makes a → (a == a) = true
  symm : ∀ {a b}, f.Makes a → f.Makes b → (a == b) = true → (b == a) = true
  trans : ∀ {a b c}, f.Makes a → f.Makes b → f.Makes c →
    (a == b) = true → (b == c) = true → (a == c) = true

end Factory

namespace Collection

variable {k k' : Collection E} {holding : Holding E}

/-- The entries that the index holds. -/
def entries (k : Collection E) : List E := k.index.map Holding.entry

/-- Up to equality and order, the items of the storage are the entries that the index holds. -/
def Corresponds (k : Collection E) : Prop :=
  Multiset.Rel (fun a b => (a == b) = true) (k.storage.items : Multiset E) (k.entries : Multiset E)

/-- What holds of a collection before and after every section. -/
structure Sound (k : Collection E) : Prop where
  nodup : k.identities.Nodup
  held : ∀ e ∈ k.entries, k.factory.Makes e
  stored : ∀ e ∈ k.storage.items, k.factory.Makes e
  corresponds : k.factory.EntriesEquivalent → k.Corresponds

/-- A new service brings its entry. -/
theorem entries_enter (hn : k.hasIdentity holding.id = false) :
    (k.enter holding).entries.Perm (holding.entry :: k.entries) := by
  refine (Roster.insert_perm fun b hb hid => ?_).map Holding.entry
  have hmem : holding.id ∈ k.identities := hid ▸ List.mem_map_of_mem hb
  rw [hasIdentity_iff.2 hmem] at hn
  cases hn

/-- A service that leaves takes its entry out of the index. -/
theorem entries_leave {id : UInt64} (hnodup : k.identities.Nodup)
    (hf : Roster.find? Holding.id id k.index = some holding) :
    k.entries.Perm (holding.entry :: (k.leave holding).entries) := by
  have hid := id_of_find? hf
  subst hid
  exact (Roster.perm_cons_erase hnodup hf).map Holding.entry

theorem size_enter (ht : (k.storage.append k.mode holding.entry).1 = true) :
    (k.enter holding).size = k.size + 1 := (LiveSequence.items_append_perm ht).length_eq

/-- The storage loses an item when a service leaves, if it has one that equals the entry. -/
theorem size_leave (k : Collection E) (holding : Holding E) :
    k.size = (k.leave holding).size +
      if (k.storage.removeOne holding.entry).1 = true then 1 else 0 := by
  rcases k.storage.removeOne_cases holding.entry with ⟨hfound, x, -, hperm⟩ | ⟨hlost, hsame, -⟩
  · rw [if_pos hfound]
    exact hperm.length_eq
  · rw [hlost, if_neg Bool.false_ne_true, Nat.add_zero, size, size]
    exact congrArg (fun s => s.items.length) hsame.symm

namespace Sound

theorem of_sameEntries (hs : k.SameEntries k') (hk : k.Sound) : k'.Sound := by
  have hen : k'.entries = k.entries := by rw [entries, hs.index, entries]
  refine ⟨?_, ?_, ?_, ?_⟩
  · rw [hs.identities]
    exact hk.nodup
  · rw [hen, hs.factory]
    exact hk.held
  · rw [hs.items, hs.factory]
    exact hk.stored
  · rw [hs.factory, Corresponds, hen, hs.items]
    exact hk.corresponds

theorem nil (hindex : k.index = []) (hitems : k.storage.items = []) : k.Sound := by
  refine ⟨?_, ?_, ?_, fun _ => ?_⟩
  · rw [identities, hindex]
    exact List.nodup_nil
  · simp [entries, hindex]
  · simp [hitems]
  · rw [Corresponds, entries, hindex, hitems]
    exact .zero

/-- **Entering.** A service whose entry the storage takes leaves the collection sound. -/
theorem enter (hk : k.Sound) (hn : k.hasIdentity holding.id = false)
    (hm : k.factory.Makes holding.entry)
    (ht : (k.storage.append k.mode holding.entry).1 = true) : (k.enter holding).Sound := by
  have hen := entries_enter hn
  have hit : (k.enter holding).storage.items.Perm (holding.entry :: k.storage.items) :=
    LiveSequence.items_append_perm ht
  refine ⟨?_, fun e he => ?_, fun e he => ?_, fun heq => ?_⟩
  · refine (identities_enter hn).nodup_iff.2 (List.nodup_cons.2 ⟨fun hmem => ?_, hk.nodup⟩)
    rw [hasIdentity_iff.2 hmem] at hn
    cases hn
  · rcases List.mem_cons.1 (hen.mem_iff.1 he) with rfl | he
    · exact hm
    · exact hk.held e he
  · rcases List.mem_cons.1 (hit.mem_iff.1 he) with rfl | he
    · exact hm
    · exact hk.stored e he
  · rw [Corresponds, Multiset.coe_eq_coe.2 hen, Multiset.coe_eq_coe.2 hit]
    exact .cons (r := fun a b => (a == b) = true) (heq.refl hm) (hk.corresponds heq)

/-- The storage has an item that equals the entry of a service in the index. -/
theorem removeOne_eq_true (hk : k.Sound) (heq : k.factory.EntriesEquivalent)
    (hf : holding ∈ k.index) : (k.storage.removeOne holding.entry).1 = true := by
  have hmem : holding.entry ∈ (k.entries : Multiset E) := List.mem_map_of_mem hf
  obtain ⟨x, hx, hxe⟩ :=
    Multiset.exists_mem_of_rel_of_mem (Multiset.rel_flip.2 (hk.corresponds heq)) hmem
  rcases k.storage.removeOne_cases holding.entry with ⟨hfound, -⟩ | ⟨-, -, hno⟩
  · exact hfound
  · have hxe : (x == holding.entry) = true := hxe
    rw [hno x hx] at hxe
    cases hxe

/-- **Leaving.** A service that leaves takes an item equal to its entry along, and leaves the
collection sound. -/
theorem leave {id : UInt64} (hk : k.Sound)
    (hf : Roster.find? Holding.id id k.index = some holding) : (k.leave holding).Sound := by
  have hen := entries_leave hk.nodup hf
  refine ⟨?_, fun e he => ?_, fun e he => ?_, fun heq => ?_⟩
  · rw [identities_leave]
    exact hk.nodup.filter _
  · exact hk.held e (hen.mem_iff.2 (List.mem_cons_of_mem _ he))
  · rcases k.storage.removeOne_cases holding.entry with ⟨-, x, -, hperm⟩ | ⟨-, hsame, -⟩
    · exact hk.stored e (hperm.mem_iff.2 (List.mem_cons_of_mem _ he))
    · have he : e ∈ (k.storage.removeOne holding.entry).2.items := he
      rw [hsame] at he
      exact hk.stored e he
  · -- the item that goes need not be the entry, but it equals it
    have hfound := hk.removeOne_eq_true heq (List.mem_of_find?_eq_some hf)
    rcases k.storage.removeOne_cases holding.entry with ⟨-, x, hx, hperm⟩ | ⟨hlost, -⟩
    · have hrel := hk.corresponds heq
      rw [Corresponds, Multiset.coe_eq_coe.2 hen, Multiset.coe_eq_coe.2 hperm] at hrel
      refine rel_of_cons (p := k.factory.Makes) heq.symm heq.trans ?_ ?_ hx hrel
      · exact fun e he => hk.stored e (hperm.mem_iff.2 he)
      · exact fun e he => hk.held e (hen.mem_iff.2 he)
    · rw [hlost] at hfound
      cases hfound

/-- A sound collection has as many items as services. -/
theorem size_eq (hk : k.Sound) (heq : k.factory.EntriesEquivalent) :
    k.size = k.identities.length := by
  have hcard := Multiset.card_eq_card_of_rel (hk.corresponds heq)
  simpa [size, identities, entries] using hcard

end Sound

end Collection

/-! ## All states of a hub -/

namespace Hub

/-- Every collection is sound, and so was every state in which one ever was with the lock of its
index free. -/
structure Coherent (h : Hub E) : Prop where
  now : ∀ c, (h.collection c).Sound
  past : ∀ p ∈ h.past, Lock.index ∈ p.2.locks ∨ p.2.Sound

namespace Coherent

variable {h h' : Hub E} {c : Nat}

instance : Stable (Coherent (E := E)) where
  aside ha hk := by
    refine ⟨fun c => ?_, fun p hp => ?_⟩
    · have hs := ha.stock c
      exact .of_sameEntries ⟨hs.factory, hs.index, hs.items⟩ (hk.now c)
    · obtain ⟨recent, hpast, hrecent⟩ := ha.past
      rw [hpast] at hp
      rcases List.mem_append.1 hp with hp | hp
      · have hs := hrecent p hp
        exact .inr (.of_sameEntries ⟨hs.factory, hs.index, hs.items⟩ (hk.now p.1))
      · exact hk.past p hp

/-- A section that ends in a sound state. -/
theorem of_section (hs : h.Section c h') (hend : (h.collection c).Sound → (h'.collection c).Sound)
    (hk : Coherent h) : Coherent h' := by
  refine ⟨fun d => ?_, fun p hp => ?_⟩
  · by_cases hd : d = c
    · subst hd
      exact hend (hk.now d)
    · rw [hs.others d hd]
      exact hk.now d
  · obtain ⟨recent, hpast, hshield⟩ := hs.past
    rw [hpast] at hp
    rcases List.mem_append.1 hp with hp | hp
    · -- the states of the section itself: under the lock, or the one that it found
      rcases hshield p hp with hlock | rfl
      · exact .inl hlock
      · exact .inr (hk.now c)
    · exact hk.past p hp

/-- The attachment of a listener. -/
theorem of_attached {k : Collection E} {recent : List (Nat × Collection E)} {n : Nat}
    (hrecent : ∀ p ∈ recent, p.1 = c ∧ (h.collection c).SameEntries p.2)
    (hend : (h.collection c).SameEntries k) (hk : Coherent h) :
    Coherent (({ h with listeners := n } : Hub E).setTo c k (recent ++ h.past)) := by
  refine ⟨fun d => ?_, fun p hp => ?_⟩
  · rw [collection_setTo]
    split
    · exact .of_sameEntries hend (hk.now c)
    · exact hk.now d
  · rcases List.mem_append.1 hp with hp | hp
    · exact .inr (.of_sameEntries (hrecent p hp).2 (hk.now c))
    · exact hk.past p hp

/-- The hub of some plans, in which nothing happened yet. -/
theorem ofPlans (plans : List (Plan E)) : Coherent (Hub.ofPlans plans) := by
  refine ofPlans_induction (I := Coherent) plans ⟨fun c => ?_, fun p hp => by cases hp⟩
    fun h plan _ hk => ?_
  · rw [collection_of_length_le c.zero_le]
    exact .nil rfl rfl
  · rcases addCollection_eq h plan with ⟨k, hb, hadd⟩ | hadd
    · obtain ⟨factory, filter, -, rfl⟩ := Plan.build_ok hb
      rw [hadd]
      refine ⟨fun c => ?_, hk.past⟩
      rw [collection_append rfl]
      split
      · exact .nil rfl rfl
      · exact hk.now c
    · rw [hadd]
      refine ⟨fun c => ?_, hk.past⟩
      rw [collection_append rfl]
      split
      · exact .nil rfl rfl
      · exact hk.now c

end Coherent

end Hub

namespace Run

/-- Every kind of step ends in a coherent hub if it began in one. -/
theorem steps_coherent : Steps (E := E) (Hub.Preserves Hub.Coherent) where
  considered c r h result h' hr := by
    have hc := consider_ok hr
    refine .of_section hc.toSection fun hk => ?_
    cases hc with
    | ignored | failed | panicked | refused => exact hk
    | admitted ho hn hm ht hs =>
      rw [Hub.collection_setTo]
      split
      · exact hk.enter hn ⟨_, _, _, hm⟩ ht
      · exact hk
  retracted c id h result h' hr := by
    have hc := retract_ok hr
    refine .of_section hc.toSection fun hk => ?_
    cases hc with
    | absent => exact hk
    | found hf hs =>
      rw [Hub.collection_setTo]
      split
      · exact hk.leave hf
      · exact hk
  cleared c h u h' hr := by
    refine .of_section (section_of_clear hr) fun hk => ?_
    obtain ⟨recent, -, rfl⟩ := clear_ok hr
    rw [Hub.collection_setTo]
    split
    · exact .nil rfl rfl
    · exact hk
  called _ _ _ _ hk := ⟨hk.now, hk.past⟩
  released _ _ _ _ _ _ hk := ⟨hk.now, hk.past⟩
  lifecycle c l h u h' hr := by
    obtain ⟨recent, hrecent, rfl⟩ := addLifecycleListener_ok hr
    exact .of_attached hrecent ⟨rfl, rfl, rfl⟩
  state c l h u h' hr := by
    obtain ⟨recent, hrecent, rfl⟩ := addStateListener_ok hr
    exact .of_attached hrecent ⟨rfl, rfl, rfl⟩

end Run

/-- Every hub that is reached from plans is coherent. -/
theorem Hub.coherent_runAll {plans : List (Plan E)} {depth : Nat} {commands : List (Command E)}
    {h : Hub E} {answers : List Answer}
    (hr : (Hub.ofPlans plans).runAll depth commands = .ok (answers, h)) : h.Coherent :=
  Run.keeps_runAll (Run.keeps_run (fun _ hn => Run.steps_coherent.course hn) depth) hr
    (.ofPlans plans)

/-- A service that disappears is reported as taken away exactly if the storage had its entry. -/
theorem Run.apply_disappeared_ok {nested : Nested E} {c : Nat} {r : ServiceReference} {h h' : Hub E}
    {outcome : Except Trouble Reconciled}
    (hr : apply nested c .disappeared r h = .ok (outcome, h')) :
    (∃ holding, Roster.find? Holding.id r.id (h.collection c).index = some holding ∧
      outcome = .ok (if ((h.collection c).storage.removeOne holding.entry).1 = true
        then .retracted else .unchanged)) ∨
    (h.collection c).hasIdentity r.id = false ∧ outcome = .ok .unchanged := by
  obtain ⟨result, h₁, hrem, hr⟩ := bind_eq_ok.1 hr
  obtain ⟨rfl, -⟩ := pure_eq_ok.1 hr
  obtain ⟨removal, h₂, hret, hrem⟩ := bind_eq_ok.1 hrem
  cases retract_ok hret with
  | absent hk =>
    obtain ⟨rfl, -⟩ := pure_eq_ok.1 hrem
    exact .inr ⟨hk, rfl⟩
  | found hf =>
    obtain ⟨_, h₃, -, hrem⟩ := bind_eq_ok.1 hrem
    obtain ⟨_, h₄, -, hrem⟩ := bind_eq_ok.1 hrem
    obtain ⟨rfl, -⟩ := pure_eq_ok.1 hrem
    exact .inl ⟨_, hf, rfl⟩

/-- **Correspondence.** Take any state in which a collection ever was, up to the end of a run,
with the lock of its index free, and let equality be an equivalence on what its factory makes.
Up to equality and order the storage then holds just the entries of the index, as many as there
are services; removing the entry of a service finds an item; and a service of the collection
that disappears is taken away, whatever the listeners then do. -/
theorem index_corresponds_storage {plans : List (Plan E)} {depth : Nat}
    {commands : List (Command E)} {answers : List Answer} {h : Hub E}
    (hr : (Hub.ofPlans plans).runAll depth commands = .ok (answers, h)) {c : Nat}
    {k : Collection E} (hk : k = h.collection c ∨ (c, k) ∈ h.past) (hfree : Lock.index ∉ k.locks)
    (heq : k.factory.EntriesEquivalent) :
    k.Corresponds ∧ k.size = k.identities.length ∧
    (∀ holding ∈ k.index, (k.storage.removeOne holding.entry).1 = true) ∧
    ∀ (nested : Nested E) (g g' : Hub E) (r : ServiceReference)
      (outcome : Except Trouble Reconciled), g.collection c = k → r.id ∈ k.identities →
      Run.apply nested c .disappeared r g = .ok (outcome, g') → outcome = .ok .retracted := by
  have hcoh := Hub.coherent_runAll hr
  have hsound : k.Sound := by
    rcases hk with rfl | hk
    · exact hcoh.now c
    · rcases hcoh.past _ hk with hlock | hsound
      · exact absurd hlock hfree
      · exact hsound
  refine ⟨hsound.corresponds heq, hsound.size_eq heq, fun holding hmem =>
    hsound.removeOne_eq_true heq hmem, ?_⟩
  rintro nested g g' r outcome rfl hid happly
  rcases Run.apply_disappeared_ok happly with ⟨holding, hf, rfl⟩ | ⟨hno, -⟩
  · rw [hsound.removeOne_eq_true heq (List.mem_of_find?_eq_some hf), if_pos rfl]
  · rw [Collection.hasIdentity_iff.2 hid] at hno
    cases hno

/-! ### Equal entries of different services -/

/-- Equality of entries is an equivalence for every factory that makes no ghosts. -/
theorem Factory.entriesEquivalent_of_no_ghost {f : Factory Entry}
    (hf : ∀ e, f.Makes e → e.isGhost = false) : f.EntriesEquivalent where
  refl ha := Entry.beq_iff.2 ⟨hf _ ha, hf _ ha, rfl⟩
  symm ha hb hab := Entry.beq_iff.2 ⟨hf _ hb, hf _ ha, (Entry.beq_iff.1 hab).2.2.symm⟩
  trans ha _ hc hab hbc := Entry.beq_iff.2
    ⟨hf _ ha, hf _ hc, (Entry.beq_iff.1 hab).2.2.trans (Entry.beq_iff.1 hbc).2.2⟩

/-- A list of entries that are all equal, with a listener that registers another service
whenever one was taken away. -/
def Plan.twins : Plan Entry where
  hasRegistry := true
  factory := some ⟨"twins", fun _ _ => .made (.reference (.new 7 .empty)) none⟩
  filter := some ⟨"", .and []⟩
  mandatory := false
  lifecycleListeners := [.mk "keeper" .silent fun _ callback =>
    match callback with
    | .unbind _ _ => .mk [.register .empty] .done
    | _ => .silent]

/-- The twins of the first service stand in for it when it goes. -/
theorem index_corresponds_storage_twins : ∃ answers h,
    (Hub.ofPlans [Plan.twins]).runAll 3
      [.start 0, .register .empty, .register .empty, .unregister 1] = .ok (answers, h) ∧
    Lock.index ∉ (h.collection 0).locks ∧ (h.collection 0).factory.EntriesEquivalent ∧
    (h.collection 0).identities = [2, 3] ∧ (h.collection 0).Corresponds ∧
    (h.collection 0).size = (h.collection 0).identities.length := by
  obtain ⟨⟨answers, h⟩, hr, hseen⟩ := Run.exists_of_map_eq_ok
    (f := fun p : List Answer × Hub Entry =>
      ((p.2.collection 0).identities, (p.2.collection 0).locks))
    (show ((Hub.ofPlans [Plan.twins]).runAll 3
      [.start 0, .register .empty, .register .empty, .unregister 1]).map _ = .ok ([2, 3], []) by
      decide +kernel)
  obtain ⟨hids, hlocks⟩ := Prod.mk.inj hseen
  have hfactory := ((Hub.onward_runAll hr).collection 0).factory
  have heq : (h.collection 0).factory.EntriesEquivalent := by
    rw [hfactory]
    refine Factory.entriesEquivalent_of_no_ghost ?_
    rintro e ⟨serial, r, release, hmade⟩
    cases hmade
    rfl
  have hfree : Lock.index ∉ (h.collection 0).locks := by
    rw [hlocks]
    exact List.not_mem_nil
  obtain ⟨hcorr, hsize, -⟩ := index_corresponds_storage hr (.inl rfl) hfree heq
  exact ⟨answers, h, hr, hfree, heq, hids, hcorr, hsize⟩

end LiveServices
