import LiveServices.Proofs.Index.Correspondence
import Mathlib.Data.List.Nodup

/-!
# Entries that are told apart by their services

The entries of the references themselves and of proxies carry the reference that they were made
for, and they are equal exactly if they stand for one service
(`Factory.EntriesIdentified`). For such a factory the correspondence of index and storage is
more than one up to equality: an entry that is removed by value is the one that the index held
(`Exact.leave`), because no other entry of its service is there. So at all times the storage
holds just the entries of the index (`Hub.matched_runAll`).
-/

namespace LiveServices

variable {E : Type} [ServiceEntry E]

namespace Factory

/-- The entries that the factory makes carry the reference they were made for, and they are equal
if and only if they stand for one service. -/
structure EntriesIdentified (f : Factory E) : Prop where
  carries : ∀ {serial r e release}, f.create serial r = .made e release →
    ServiceEntry.reference e = r
  equal : ∀ {a b}, f.Makes a → f.Makes b →
    ((a == b) = true ↔ (ServiceEntry.reference a).id = (ServiceEntry.reference b).id)

/-- Standing for one service is an equivalence. -/
theorem EntriesIdentified.equivalent {f : Factory E} (hf : f.EntriesIdentified) :
    f.EntriesEquivalent where
  refl ha := (hf.equal ha ha).2 rfl
  symm ha hb hab := (hf.equal hb ha).2 ((hf.equal ha hb).1 hab).symm
  trans ha hb hc hab hbc :=
    (hf.equal ha hc).2 (((hf.equal ha hb).1 hab).trans ((hf.equal hb hc).1 hbc))

/-- The factory of proxies. -/
theorem entriesIdentified_proxy : proxy.EntriesIdentified where
  carries hm := by
    cases hm
    rfl
  equal ha hb := by
    obtain ⟨n, r, release, hm⟩ := ha
    obtain ⟨n', r', release', hm'⟩ := hb
    cases hm
    cases hm'
    exact Entry.beq_iff.trans ⟨fun h => h.2.2, fun h => ⟨rfl, rfl, h⟩⟩

/-- The factory of plain references. -/
theorem entriesIdentified_reference : reference.EntriesIdentified where
  carries hm := by
    cases hm
    rfl
  equal ha hb := by
    obtain ⟨n, r, release, hm⟩ := ha
    obtain ⟨n', r', release', hm'⟩ := hb
    cases hm
    cases hm'
    exact Entry.beq_iff.trans ⟨fun h => h.2.2, fun h => ⟨rfl, rfl, h⟩⟩

end Factory

/-- Where identities are not repeated, a thing is found under its identity if it is there. -/
theorem Roster.find?_eq_some_iff_mem {α : Type} {key : α → UInt64} {items : List α} {a : α}
    (hn : (items.map key).Nodup) : find? key (key a) items = some a ↔ a ∈ items := by
  refine ⟨List.mem_of_find?_eq_some, fun ha => ?_⟩
  cases hf : find? key (key a) items with
  | none => simpa using List.find?_eq_none.1 hf a ha
  | some b =>
    rw [List.inj_on_of_nodup_map hn (List.mem_of_find?_eq_some hf) ha (key_of_find? hf)]

namespace Collection

variable {k k' : Collection E} {holding : Holding E}

omit [ServiceEntry E] in
/-- A holding is found under its identity. -/
theorem find?_of_mem (hk : k.identities.Nodup) (hx : holding ∈ k.index) :
    Roster.find? Holding.id holding.id k.index = some holding :=
  (Roster.find?_eq_some_iff_mem hk).2 hx

/-- The entries of the index carry the references that they were admitted with, and the storage
holds these entries and no others. -/
structure Exact (k : Collection E) : Prop where
  carried : ∀ x ∈ k.index, ServiceEntry.reference x.entry = x.reference
  stored : k.storage.items.Perm k.entries

namespace Exact

theorem of_sameEntries (hs : k.SameEntries k') (hk : k.Exact) : k'.Exact := by
  refine ⟨?_, ?_⟩
  · rw [hs.index]
    exact hk.carried
  · rw [hs.items, entries, hs.index]
    exact hk.stored

theorem nil (hindex : k.index = []) (hitems : k.storage.items = []) : k.Exact := by
  refine ⟨?_, ?_⟩
  · simp [hindex]
  · simp [hitems, entries, hindex]

/-- An item of the storage is the entry of a service in the index. -/
theorem of_mem_items (hk : k.Exact) {e : E} (he : e ∈ k.storage.items) :
    ∃ x ∈ k.index, x.entry = e ∧ ServiceEntry.reference e = x.reference := by
  obtain ⟨x, hx, rfl⟩ := List.mem_map.1 (hk.stored.mem_iff.1 he)
  exact ⟨x, hx, rfl, hk.carried x hx⟩

/-- **Entering.** A service whose entry the storage takes. -/
theorem enter (hk : k.Exact) (hn : k.hasIdentity holding.id = false)
    (hc : ServiceEntry.reference holding.entry = holding.reference)
    (ht : (k.storage.append k.mode holding.entry).1 = true) : (k.enter holding).Exact where
  carried x hx := by
    rcases Roster.mem_insert hx with rfl | hx
    · exact hc
    · exact hk.carried x hx
  stored :=
    (LiveSequence.items_append_perm ht).trans ((hk.stored.cons _).trans (entries_enter hn).symm)

/-- **Leaving.** The item that goes is the entry of the service that leaves. -/
theorem leave {id : UInt64} (hk : k.Exact) (hs : k.Sound) (hf : k.factory.EntriesIdentified)
    (hfind : Roster.find? Holding.id id k.index = some holding) : (k.leave holding).Exact := by
  have hmem : holding ∈ k.index := List.mem_of_find?_eq_some hfind
  refine ⟨fun x hx => hk.carried x (List.mem_filter.1 hx).1, ?_⟩
  rcases k.storage.removeOne_cases holding.entry with ⟨-, e, he, hperm⟩ | ⟨hlost, -⟩
  · -- what was removed equals the entry, so it is of the same service, so it is the entry
    obtain ⟨x, hx, rfl, hcarried⟩ := hk.of_mem_items (hperm.mem_iff.2 List.mem_cons_self)
    have hid : x.id = holding.id := by
      have hequal := (hf.equal (hs.held _ (List.mem_map_of_mem hx))
        (hs.held _ (List.mem_map_of_mem hmem))).1 he
      rwa [hcarried, hk.carried holding hmem] at hequal
    obtain rfl : x = holding := List.inj_on_of_nodup_map hs.nodup hx hmem hid
    exact (hperm.symm.trans (hk.stored.trans (entries_leave hs.nodup hfind))).cons_inv
  · rw [hs.removeOne_eq_true hf.equivalent hmem] at hlost
    cases hlost

/-- The storage has entries of the services in the index only. -/
theorem id_ne_of_not_hasIdentity (hk : k.Exact) {id : UInt64} (hn : k.hasIdentity id = false) :
    ∀ x ∈ k.storage.items, (ServiceEntry.reference x).id ≠ id := by
  rintro x hx rfl
  obtain ⟨y, hy, -, hcarried⟩ := hk.of_mem_items hx
  have hmem : y.reference.id ∈ k.identities := List.mem_map_of_mem hy
  rw [hcarried, hasIdentity_iff.2 hmem] at hn
  cases hn

/-- The storage has an item equal to a given entry only if it has the service. -/
theorem not_any_equal (hk : k.Exact) (hs : k.Sound) (hf : k.factory.EntriesIdentified) {e : E}
    (he : k.factory.Makes e) (hn : k.hasIdentity (ServiceEntry.reference e).id = false) :
    ∀ x ∈ k.storage.items, (x == e) = false := by
  intro x hx
  refine Bool.eq_false_iff.2 fun hequal => hk.id_ne_of_not_hasIdentity hn x hx ?_
  exact (hf.equal (hs.stored _ hx) he).1 hequal

end Exact

end Collection

/-! ## All runs -/

namespace Hub

/-- A hub is coherent, and the collections whose entries are told apart by their services are
exact. -/
structure Matched (h : Hub E) : Prop where
  coherent : h.Coherent
  exact : ∀ c, (h.collection c).factory.EntriesIdentified → (h.collection c).Exact

namespace Matched

variable {h h' : Hub E} {c : Nat}

/-- Where each collection keeps its entries. -/
theorem of_sameEntries (hc : h.Coherent → h'.Coherent)
    (hs : ∀ d, (h.collection d).SameEntries (h'.collection d)) (hm : Matched h) :
    Matched h' where
  coherent := hc hm.coherent
  exact d hf := (hm.exact d ((hs d).factory ▸ hf)).of_sameEntries (hs d)

instance : Stable (Matched (E := E)) where
  aside ha := .of_sameEntries (Stable.aside ha) fun d =>
    ⟨(ha.stock d).factory, (ha.stock d).index, (ha.stock d).items⟩

/-- A section after which its collection is exact. -/
theorem of_section (hc : h.Coherent → h'.Coherent) (hs : h.Section c h')
    (hend : (h.collection c).Sound → (h.collection c).factory.EntriesIdentified →
      (h.collection c).Exact → (h'.collection c).Exact) (hm : Matched h) : Matched h' where
  coherent := hc hm.coherent
  exact d hf := by
    by_cases hd : d = c
    · subst hd
      rw [hs.factory] at hf
      exact hend (hm.coherent.now d) hf (hm.exact d hf)
    · rw [hs.others d hd] at hf ⊢
      exact hm.exact d hf

/-- In the hub of some plans there are no entries. -/
theorem ofPlans (plans : List (Plan E)) : Matched (Hub.ofPlans plans) := by
  refine ⟨.ofPlans plans, fun c _ => ?_⟩
  have hnone : ∀ c, ((Hub.ofPlans plans).collection c).index = [] ∧
      ((Hub.ofPlans plans).collection c).storage.items = [] := by
    refine ofPlans_induction (I := fun h => ∀ c, (h.collection c).index = [] ∧
      (h.collection c).storage.items = []) plans (fun c => ?_) fun h plan _ hh c => ?_
    · rw [collection_of_length_le c.zero_le]
      exact ⟨rfl, rfl⟩
    · rcases addCollection_eq h plan with ⟨k, hb, hadd⟩ | hadd
      · obtain ⟨factory, filter, -, rfl⟩ := Plan.build_ok hb
        rw [hadd, collection_append rfl]
        split
        · exact ⟨rfl, rfl⟩
        · exact hh c
      · rw [hadd, collection_append rfl]
        split
        · exact ⟨rfl, rfl⟩
        · exact hh c
  exact .nil (hnone c).1 (hnone c).2

end Matched

end Hub

namespace Run

/-- Every kind of step keeps the collections exact. -/
theorem steps_matched : Steps (E := E) (Hub.Preserves Hub.Matched) where
  considered c r h result h' hr := by
    have hc := consider_ok hr
    refine .of_section (steps_coherent.considered c r hr) hc.toSection fun _ hf hk => ?_
    cases hc with
    | ignored | failed | panicked | refused => exact hk
    | admitted ho hn hm ht hs =>
      rw [Hub.collection_setTo]
      split
      · exact hk.enter hn (hf.carries hm) ht
      · exact hk
  retracted c id h result h' hr := by
    have hc := retract_ok hr
    refine .of_section (steps_coherent.retracted c id hr) hc.toSection fun hsound hf hk => ?_
    cases hc with
    | absent => exact hk
    | found hfind hs =>
      rw [Hub.collection_setTo]
      split
      · exact hk.leave hsound hf hfind
      · exact hk
  cleared c h u h' hr := by
    refine .of_section (steps_coherent.cleared c hr) (section_of_clear hr) fun _ _ hk => ?_
    obtain ⟨recent, -, rfl⟩ := clear_ok hr
    rw [Hub.collection_setTo]
    split
    · exact .nil rfl rfl
    · exact hk
  called h tag callback glimpse :=
    .of_sameEntries (steps_coherent.called h tag callback glimpse) fun _ => ⟨rfl, rfl, rfl⟩
  released h c serial service census announced :=
    .of_sameEntries (steps_coherent.released h c serial service census announced)
      fun _ => ⟨rfl, rfl, rfl⟩
  lifecycle c l _ _ _ hr :=
    .of_sameEntries (steps_coherent.lifecycle c l hr) (addLifecycleListener_same hr).1
  state c l _ _ _ hr := .of_sameEntries (steps_coherent.state c l hr) (addStateListener_same hr).1

end Run

/-- **Exactness.** In every hub that is reached from plans the storage of a collection whose
entries are told apart by their services holds just the entries of the index. -/
theorem Hub.matched_runAll {plans : List (Plan E)} {depth : Nat} {commands : List (Command E)}
    {h : Hub E} {answers : List Answer}
    (hr : (Hub.ofPlans plans).runAll depth commands = .ok (answers, h)) : h.Matched :=
  Run.keeps_runAll (Run.keeps_run (fun _ hn => Run.steps_matched.course hn) depth) hr
    (.ofPlans plans)

end LiveServices
