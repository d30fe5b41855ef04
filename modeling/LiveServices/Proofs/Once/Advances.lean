import LiveServices.Proofs.Calm.Refusals
import LiveServices.Proofs.Once.Lives
import Mathlib.Data.Multiset.MapFold

/-!
# What a collection knows

A service that a collection had once does not come to it again. Numbers of services are not given
out twice, so a service that was taken away from the registry does not come back to it; and a
collection that has a service does not take it a second time, nor does a collection that was closed
take any. In short, a collection knows the services that it has, those whose number was given out
and that are not in the registry any more, and, once it is closed, all of them (`Hub.Knows`).

What it knows it does not forget, and only services that it does not know come to it (`Hub.Minds`)
and come ahead of a cursor of its storage (`Hub.Advances`). One step on the collection is judged by
`Collection.Shifts`, and by this a call of the registry, a start and a destruction
(`Hub.Calls.advances`, `Hub.Joins.advances`, `Hub.Winds.advances`).
-/

namespace LiveServices

namespace Collection

variable {k k₁ k' : Collection Entry} {r : ServiceReference} {id : UInt64}
  {new lost : UInt64 → Prop}

/-! ## Ahead of a cursor -/

/-- The services of the entries that a cursor of the storage stands before. -/
def ahead (k : Collection Entry) (cursor : Nat) : List UInt64 :=
  (k.storage.ahead cursor).map fun e => e.service.id

/-- In the storage there is one entry of a service at most. -/
theorem Stocked.nodup_items (hk : k.Stocked) :
    (k.storage.items.map fun e => e.service.id).Nodup := by
  obtain ⟨proxies, hfactory⟩ := hk.factory
  have hrel := hk.sound.corresponds (hfactory ▸ Factory.entriesEquivalent_ofProxies proxies)
  -- what is stored equals what the index keeps, and equal entries stand for one service
  have hperm : (k.storage.items.map fun e => e.service.id).Perm
      (k.entries.map fun e => e.service.id) := by
    refine Multiset.coe_eq_coe.1 ?_
    rw [← Multiset.map_coe, ← Multiset.map_coe, ← Multiset.rel_eq, Multiset.rel_map]
    exact hrel.mono fun a _ b _ hab => (Entry.beq_iff.1 hab).2.2
  have hids : (k.entries.map fun e => e.service.id) = k.identities := by
    rw [entries, List.map_map]
    exact List.map_congr_left fun holding hmem => hk.entry holding hmem
  rw [hperm.nodup_iff, hids]
  exact hk.sound.nodup

theorem Stocked.nodup_ahead (hk : k.Stocked) (cursor : Nat) : (k.ahead cursor).Nodup :=
  ((LiveSequence.ahead_sublist _ _).map _).nodup hk.nodup_items

/-- What is ahead of a cursor is in the collection. -/
theorem Stocked.mem_of_ahead (hk : k.Stocked) {cursor : Nat} (hid : id ∈ k.ahead cursor) :
    id ∈ k.identities := by
  obtain ⟨e, he, rfl⟩ := List.mem_map.1 hid
  exact hk.mem_of_item ((LiveSequence.ahead_sublist _ _).subset he)

/-! ## Steps on one collection -/

/-- A collection that is open and does not have a service. -/
def Misses (k : Collection Entry) (id : UInt64) : Prop := k.closed = false ∧ id ∉ k.identities

/-- What becomes of a collection to which only these services come and from which only those go;
all may go from a collection that is closed then. -/
structure Shifts (new lost : UInt64 → Prop) (k k' : Collection Entry) : Prop where
  entered : ∀ id ∈ k'.identities, id ∈ k.identities ∨ k.Misses id ∧ new id
  ahead : ∀ cursor, ∀ id ∈ k'.ahead cursor, id ∈ k.ahead cursor ∨ k.Misses id ∧ new id
  stays : ∀ id ∈ k.identities, id ∈ k'.identities ∨ k'.closed = true ∨ lost id
  closed : k.closed = true → k'.closed = true
  opened : k'.storage.opened = k.storage.opened

namespace Shifts

theorem refl (k : Collection Entry) : Shifts new lost k k :=
  ⟨fun _ => .inl, fun _ _ => .inl, fun _ => .inl, id, rfl⟩

/-- What a collection misses it missed before, if nothing went from it. -/
theorem misses (hs : Shifts new (fun _ => False) k k') (hm : k'.Misses id) : k.Misses id := by
  obtain ⟨hopen, hno⟩ := hm
  have hstill : ¬ k'.closed = true := Bool.eq_false_iff.1 hopen
  refine ⟨Bool.eq_false_iff.2 fun hclosed => hstill (hs.closed hclosed), fun hid => ?_⟩
  rcases hs.stays id hid with hid | hclosed | hlost
  · exact hno hid
  · exact hstill hclosed
  · exact hlost

theorem trans {new' : UInt64 → Prop} (h₁₂ : Shifts new (fun _ => False) k k₁)
    (h₂₃ : Shifts new' (fun _ => False) k₁ k') :
    Shifts (fun id => new id ∨ new' id) (fun _ => False) k k' where
  entered id hid := by
    rcases h₂₃.entered id hid with hid | ⟨hm, hnew⟩
    · exact (h₁₂.entered id hid).imp_right fun hnew => ⟨hnew.1, .inl hnew.2⟩
    · exact .inr ⟨h₁₂.misses hm, .inr hnew⟩
  ahead cursor id hid := by
    rcases h₂₃.ahead cursor id hid with hid | ⟨hm, hnew⟩
    · exact (h₁₂.ahead cursor id hid).imp_right fun hnew => ⟨hnew.1, .inl hnew.2⟩
    · exact .inr ⟨h₁₂.misses hm, .inr hnew⟩
  stays id hid := by
    rcases h₁₂.stays id hid with hid | hclosed | hlost
    · exact h₂₃.stays id hid
    · exact .inr (.inl (h₂₃.closed hclosed))
    · exact .inr (.inr hlost)
  closed hk := h₂₃.closed (h₁₂.closed hk)
  opened := h₂₃.opened.trans h₁₂.opened

theorem mono {new' : UInt64 → Prop} (hs : Shifts new lost k k') (hn : ∀ id, new id → new' id) :
    Shifts new' lost k k' :=
  { hs with
    entered := fun id hid => (hs.entered id hid).imp_right fun hm => ⟨hm.1, hn id hm.2⟩
    ahead := fun cursor id hid =>
      (hs.ahead cursor id hid).imp_right fun hm => ⟨hm.1, hn id hm.2⟩ }

/-- A shift to a collection on the same shelf. -/
theorem of_sameShelf (hs : Shifts new lost k k₁) (hsame : k₁.SameShelf k') :
    Shifts new lost k k' := by
  have hids : k'.identities = k₁.identities := by rw [identities, hsame.index, identities]
  refine ⟨?_, ?_, ?_, ?_, ?_⟩
  · rw [hids]
    exact hs.entered
  · unfold Collection.ahead
    rw [hsame.storage]
    exact hs.ahead
  · rw [hids, hsame.closed]
    exact hs.stays
  · rw [hsame.closed]
    exact hs.closed
  · rw [hsame.storage]
    exact hs.opened

end Shifts

/-- A service that appears or is updated is the only one that comes. -/
theorem Takes.shifts (hk : k.Stocked) (ht : k.Takes r k') :
    k'.Stocked ∧ k.Shifts (· = r.id) (fun _ => False) k' := by
  cases ht with
  | passed | unmade | refused => exact ⟨hk, .refl k⟩
  | @admitted serial entry release ho hn hm ht =>
    obtain ⟨proxies, hfactory⟩ := hk.factory
    have hself : entry.service = r := (Factory.made_ofProxies (hfactory ▸ hm)).1
    have hmisses : k.Misses r.id := by
      refine ⟨ho, fun hmem => ?_⟩
      rw [hasIdentity_iff.2 hmem] at hn
      cases hn
    have hids : (k.enter ⟨serial, entry, r, release⟩).identities.Perm (r.id :: k.identities) :=
      identities_enter hn
    refine ⟨(hk.takes ho (.admitted ho hn hm ht)).1, fun id hid => ?_, fun cursor id hid => ?_,
      fun id hid => .inl (hids.mem_iff.2 (List.mem_cons_of_mem _ hid)), fun hclosed => hclosed,
      LiveSequence.opened_append ..⟩
    · rcases List.mem_cons.1 (hids.mem_iff.1 hid) with rfl | hid
      · exact .inr ⟨hmisses, rfl⟩
      · exact .inl hid
    · obtain ⟨e, he, rfl⟩ := List.mem_map.1 hid
      rcases LiveSequence.mem_ahead_append he with he | rfl
      · exact .inl (List.mem_map_of_mem he)
      · exact .inr ⟨hself ▸ hmisses, congrArg ServiceReference.id hself⟩

/-- So it is with services that come one after the other. -/
theorem TakesAll.shifts {services : List ServiceReference} (hk : k.Stocked)
    (ht : TakesAll services k k') :
    k'.Stocked ∧ k.Shifts (fun id => ∃ r ∈ services, r.id = id) (fun _ => False) k' := by
  induction ht with
  | nil k => exact ⟨hk, .refl k⟩
  | @cons r services k k₁ k' ht _ ih =>
    obtain ⟨hk₁, hs₁⟩ := ht.shifts hk
    obtain ⟨hk', hs'⟩ := ih hk₁
    refine ⟨hk', (hs₁.trans hs').mono fun id hid => ?_⟩
    rcases hid with rfl | ⟨s, hs, rfl⟩
    · exact ⟨r, List.mem_cons_self, rfl⟩
    · exact ⟨s, List.mem_cons_of_mem _ hs, rfl⟩

/-- A service that disappears is the only one that goes, and none comes. -/
theorem Drops.shifts (hk : k.Stocked) (hd : k.Drops id k') :
    k'.Stocked ∧ k.Shifts (fun _ => False) (· = id) k' := by
  refine ⟨hk.drops hd, ?_⟩
  cases hd with
  | absent => exact .refl k
  | @found holding hf =>
    refine ⟨fun x hx => .inl ?_, fun cursor x hx => .inl ?_, fun x hx => ?_, fun hclosed => hclosed,
      LiveSequence.opened_removeOne ..⟩
    · exact (((Drops.found hf).mem_identities x).1 hx).1
    · obtain ⟨e, he, rfl⟩ := List.mem_map.1 hx
      exact List.mem_map_of_mem (LiveSequence.ahead_removeOne_subset _ _ cursor he)
    · by_cases hself : x = id
      · exact .inr (.inr hself)
      · exact .inl (((Drops.found hf).mem_identities x).2 ⟨hx, hself⟩)

/-- What becomes of a collection that may have been told of an event. -/
theorem Hears?.shifts {link : Option ServiceFilter} {wants : ServiceFilter → Bool}
    {event : ServiceEvent} (hk : k.Stocked) (hh : k.Hears? link wants event k')
    (hs : k.Hears event k' → k'.Stocked ∧ k.Shifts new lost k') :
    k'.Stocked ∧ k.Shifts new lost k' := by
  unfold Hears? at hh
  split at hh
  · exact hs hh
  · rw [hh]
    exact ⟨hk, .refl k⟩

end Collection

/-! ## Numbers that are gone -/

namespace Registry

variable {E : Type} {n n' : Nat} {r r' : Registry E} {s : ServiceReference} {id : UInt64}

/-- A number that was given out to a service which is in the registry no more. -/
def Gone (n : Nat) (r : Registry E) (id : UInt64) : Prop := id.toNat ≤ n ∧ r.get? id = none

theorem not_gone_of_get? (hf : r.get? id = some s) : ¬ r.Gone n id := fun hgone => by
  rw [hgone.2] at hf
  cases hf

theorem not_gone_of_mem (hs : s ∈ r.services) : ¬ r.Gone n s.id := fun hgone =>
  List.find?_eq_none.1 hgone.2 s hs (beq_self_eq_true _)

theorem Gone.of_services (hg : r.Gone n id) (hn : n ≤ n') (hs : r'.services = r.services) :
    r'.Gone n' id := by
  refine ⟨hg.1.trans hn, ?_⟩
  rw [get?, hs]
  exact hg.2

/-- A number that is gone is not that of a service that is put into the registry. -/
theorem Gone.put (hg : r.Gone n id) (hn : n ≤ n') (hne : s.id ≠ id) :
    (r.put s).Gone n' id :=
  ⟨hg.1.trans hn, (Roster.find?_insert_of_ne hne).trans hg.2⟩

theorem Gone.remove (hg : r.Gone n id) (other : UInt64) : (r.remove other).Gone n id := by
  refine ⟨hg.1, ?_⟩
  by_cases hne : other = id
  · subst hne
    exact Roster.find?_erase_self
  · exact (Roster.find?_erase_of_ne hne).trans hg.2

/-- The number of a service that is taken away is gone. -/
theorem Issued.gone_remove (hi : r.Issued n) (hf : r.get? id = some s) :
    (r.remove id).Gone n id := by
  refine ⟨?_, Roster.find?_erase_self⟩
  have hle := hi.bound s (List.mem_of_find?_eq_some hf)
  rwa [Roster.key_of_find? hf] at hle

end Registry

/-! ## What a collection knows -/

namespace Hub

variable {c n n₁ n' : Nat} {h h₁ h' : Hub Entry} {id : UInt64} {new lost : UInt64 → Prop}

/-- A service that a collection has, or that will not be admitted to it any more. -/
def Knows (c n : Nat) (h : Hub Entry) (id : UInt64) : Prop :=
  id ∈ (h.collection c).identities ∨ (h.collection c).closed = true ∨ h.registry.Gone n id

theorem not_knows (hm : (h.collection c).Misses id) (hg : ¬ h.registry.Gone n id) :
    ¬ h.Knows c n id := by
  rintro (hid | hclosed | hgone)
  · exact hm.2 hid
  · rw [hm.1] at hclosed
    cases hclosed
  · exact hg hgone

/-- The second hub comes after the first; nothing was forgotten, and what came to the collection
was not known. -/
structure Minds (c n n' : Nat) (h h' : Hub Entry) : Prop where
  known : ∀ id, h.Knows c n id → h'.Knows c n' id
  entered : ∀ id ∈ (h'.collection c).identities,
    id ∈ (h.collection c).identities ∨ ¬ h.Knows c n id

namespace Minds

theorem refl (h : Hub Entry) : h.Minds c n n h := ⟨fun _ => id, fun _ => .inl⟩

theorem trans (h₁₂ : h.Minds c n n₁ h₁) (h₂₃ : h₁.Minds c n₁ n' h') : h.Minds c n n' h' where
  known id hid := h₂₃.known id (h₁₂.known id hid)
  entered id hid := by
    rcases h₂₃.entered id hid with hid | hnew
    · exact h₁₂.entered id hid
    · exact .inr fun hknown => hnew (h₁₂.known id hknown)

end Minds

/-- With the same cursors, what came ahead of one of them was not known either. -/
structure Advances (c n n' : Nat) (h h' : Hub Entry) : Prop extends Minds c n n' h h' where
  ahead : ∀ cursor, ∀ id ∈ (h'.collection c).ahead cursor,
    id ∈ (h.collection c).ahead cursor ∨ ¬ h.Knows c n id
  opened : (h'.collection c).storage.opened = (h.collection c).storage.opened

namespace Advances

/-- **Advancing.** It is enough that services that come were in the registry or had no number yet,
and that those that go are gone from the registry too. -/
theorem of_shifts (hs : (h.collection c).Shifts new lost (h'.collection c))
    (hnew : ∀ id, new id → ¬ h.registry.Gone n id)
    (hgone : ∀ id, h.registry.Gone n id → h'.registry.Gone n' id)
    (hlost : ∀ id, lost id → h'.registry.Gone n' id) : h.Advances c n n' h' where
  known id := by
    rintro (hid | hclosed | hg)
    · rcases hs.stays id hid with hid | hclosed | hid
      · exact .inl hid
      · exact .inr (.inl hclosed)
      · exact .inr (.inr (hlost id hid))
    · exact .inr (.inl (hs.closed hclosed))
    · exact .inr (.inr (hgone id hg))
  entered id hid := (hs.entered id hid).imp_right fun hm => not_knows hm.1 (hnew id hm.2)
  ahead cursor id hid :=
    (hs.ahead cursor id hid).imp_right fun hm => not_knows hm.1 (hnew id hm.2)
  opened := hs.opened

/-- The same collection with the same services in the registry. -/
theorem of_eq (hk : h'.collection c = h.collection c)
    (hs : h'.registry.services = h.registry.services) : h.Advances c n n h' := by
  have hstay : (h.collection c).Shifts (fun _ => False) (fun _ => False) (h'.collection c) :=
    hk ▸ .refl _
  exact of_shifts hstay (fun _ => False.elim) (fun _ hg => hg.of_services le_rfl hs)
    fun _ => False.elim

end Advances

/-- **A call.** What comes to a collection by a call of the registry is a service that was in the
registry or is new. -/
theorem Calls.advances {link : Option ServiceFilter} {command : Command Entry} {answer : Answer}
    (hcalls : h.Calls c link command answer h') (hk : (h.collection c).Stocked)
    (hi : h.registry.Issued n)
    (hn : n + (if command.isRegister = true then 1 else 0) < 2 ^ 64) :
    (h'.collection c).Stocked ∧
      h.Advances c n (n + if command.isRegister = true then 1 else 0) h' := by
  cases hcalls with
  | @registered properties r _ hr hh =>
    have hnumber : r.id.toNat = n + 1 := by
      rw [hr]
      exact hi.toNat_next hn
    have htakes (ht : (h.collection c).Takes r (h'.collection c)) := ht.shifts hk
    obtain ⟨hk', hs⟩ := Collection.Hears?.shifts hk hh.here htakes
    refine ⟨hk', .of_shifts hs ?_ (fun id hg => ?_) fun _ => False.elim⟩
    · rintro _ rfl hg
      have hle := hg.1
      omega
    · have hput : (h.registry.put r).Gone (n + 1) id := by
        refine hg.put n.le_succ ?_
        rintro rfl
        have hle := hg.1
        omega
      refine hput.of_services le_rfl (hh.registry.services.trans ?_)
      rw [hr]
      rfl
  | @modified id properties old r _ hf hr hh =>
    have hid : r.id = id := by rw [hr]; rfl
    have htakes (ht : (h.collection c).Takes r (h'.collection c)) := ht.shifts hk
    obtain ⟨hk', hs⟩ := Collection.Hears?.shifts hk hh.here htakes
    refine ⟨hk', .of_shifts hs ?_ (fun x hg => ?_) fun _ => False.elim⟩
    · rintro _ rfl
      rw [hid]
      exact Registry.not_gone_of_get? hf
    · have hput : (h.registry.put r).Gone n x := by
        refine hg.put le_rfl ?_
        rintro rfl
        rw [hid] at hg
        exact Registry.not_gone_of_get? hf hg
      exact hput.of_services le_rfl hh.registry.services
  | @unregistered id r _ hf hh =>
    have hid : r.id = id := Roster.key_of_find? hf
    have hdrops (hd : (h.collection c).Drops r.id (h'.collection c)) := hd.shifts hk
    obtain ⟨hk', hs⟩ := Collection.Hears?.shifts hk hh.here hdrops
    refine ⟨hk', .of_shifts hs (fun _ => False.elim) (fun x hg => ?_) ?_⟩
    · exact (hg.remove id).of_services le_rfl hh.registry.services
    · rintro _ rfl
      have hgone : (h.registry.remove r.id).Gone n r.id := hi.gone_remove (hid ▸ hf)
      exact hgone.of_services le_rfl (hh.registry.services.trans (by rw [hid]))
  | unknown _ hcommand hh =>
    rw [hh.here]
    refine ⟨hk, ?_⟩
    rcases hcommand with rfl | ⟨properties, rfl⟩
    · exact .of_eq hh.here hh.registry.services
    · exact .of_eq hh.here hh.registry.services

/-- **A start.** What comes to a collection then are services of the registry. -/
theorem Joins.advances (hj : h.Joins c h') (hk : (h.collection c).Stocked) :
    (h'.collection c).Stocked ∧ h.Advances c n n h' := by
  obtain ⟨k, htaken, hshelf⟩ := hj.here.taken
  obtain ⟨hk', hs⟩ := htaken.shifts hk
  refine ⟨hk'.of_sameEntries ⟨hshelf.factory, hshelf.index, congrArg LiveSequence.items
    hshelf.storage⟩, .of_shifts (hs.of_sameShelf hshelf) ?_ (fun id hg => ?_) fun _ => False.elim⟩
  · rintro _ ⟨r, hr, rfl⟩
    exact Registry.not_gone_of_mem (List.mem_filter.1 hr).1
  · exact hg.of_services le_rfl hj.registry.services

/-- **A destruction.** All services go, and none comes any more. -/
theorem Winds.advances (hw : h.Winds c h') (hs : (h'.collection c).Spent)
    (hk : (h.collection c).Stocked) : (h'.collection c).Stocked ∧ h.Advances c n n h' := by
  have hindex := hs.index
  have hstocked : (h'.collection c).Stocked := by
    refine ⟨.nil hindex hs.items, hw.here.factory ▸ hk.factory, ?_, ?_⟩
    · rw [hindex]
      exact fun _ hmem => absurd hmem List.not_mem_nil
    · rw [hindex]
      exact .nil
  have hnone : ∀ id, id ∉ (h'.collection c).identities := fun id hid => by
    rw [Collection.identities, hindex] at hid
    cases hid
  refine ⟨hstocked, ⟨fun _ _ => .inr (.inl hs.closed), fun id hid => absurd hid (hnone id)⟩, ?_,
    hw.here.opened⟩
  exact fun cursor id hid => absurd (hstocked.mem_of_ahead hid) (hnone id)

end Hub

end LiveServices
