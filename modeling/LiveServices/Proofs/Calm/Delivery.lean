import LiveServices.Proofs.Calm.Sections

/-!
# Delivery to a calm collection

What becomes of a collection when an event reaches it, if the hub is calm: it takes a service
that appeared or was updated, unless something stands in the way (`Collection.Takes`), it drops
one that disappeared (`Collection.Drops`), and an event that is no notification changes nothing
(`Collection.Hears`). The other collections stay as they are, and the registry counts a
delivery.

An event is delivered to whoever is subscribed and wants it. Where at most one subscription was
made, by the importer of the collection (`Registry.Linked`), a delivery reaches a result, and
the collection hears of the event exactly if the filter of the subscription lets it through
(`Run.deliverAll_total`, `Collection.Hears?`).
-/

namespace LiveServices

variable {E : Type}

/-! ## From state to state -/

/-- Two registries that differ in the number of deliveries at most. -/
structure Registry.SameBooks (r r' : Registry E) : Prop where
  services : r'.services = r.services
  subscriptions : r'.subscriptions = r.subscriptions
  nextService : r'.nextService = r.nextService
  nextSubscription : r'.nextSubscription = r.nextSubscription

namespace Registry.SameBooks

variable {r r₁ r₂ r₃ : Registry E}

theorem refl (r : Registry E) : SameBooks r r := ⟨rfl, rfl, rfl, rfl⟩

theorem trans (h₁₂ : SameBooks r₁ r₂) (h₂₃ : SameBooks r₂ r₃) : SameBooks r₁ r₃ :=
  ⟨h₂₃.services.trans h₁₂.services, h₂₃.subscriptions.trans h₁₂.subscriptions,
    h₂₃.nextService.trans h₁₂.nextService, h₂₃.nextSubscription.trans h₁₂.nextSubscription⟩

theorem get? (hs : SameBooks r r₁) (id : UInt64) : r₁.get? id = r.get? id := by
  rw [Registry.get?, hs.services, Registry.get?]

end Registry.SameBooks

/-- The second hub comes after the first by a change of one collection. -/
structure Hub.Changes (c : Nat) (R : Collection E → Collection E → Prop) (h h' : Hub E) :
    Prop where
  registry : h.registry.SameBooks h'.registry
  here : R (h.collection c) (h'.collection c)
  elsewhere : ∀ d, d ≠ c → h'.collection d = h.collection d

/-- A change after a change. -/
theorem Hub.Changes.trans {c : Nat} {R₁ R₂ R : Collection E → Collection E → Prop} {h g h' : Hub E}
    (h₁₂ : h.Changes c R₁ g) (h₂₃ : g.Changes c R₂ h')
    (hR : ∀ {k k₁ k'}, R₁ k k₁ → R₂ k₁ k' → R k k') : h.Changes c R h' where
  registry := h₁₂.registry.trans h₂₃.registry
  here := hR h₁₂.here h₂₃.here
  elsewhere d hd := by rw [h₂₃.elsewhere d hd, h₁₂.elsewhere d hd]

/-- A change that is followed by a hush. -/
theorem Hub.Changes.hush {c : Nat} {R : Collection E → Collection E → Prop} {h h₁ h' : Hub E}
    (hch : h.Changes c R h₁) (hh : h₁.Hush h') : h.Changes c R h' where
  registry := by
    rw [hh.registry]
    exact hch.registry
  here := by
    rw [hh.collection]
    exact hch.here
  elsewhere d hd := by rw [hh.collection, hch.elsewhere d hd]

variable [ServiceEntry E]

namespace Collection

/-- What becomes of a collection when a service appears or is updated. -/
inductive Takes (r : ServiceReference) (k : Collection E) : Collection E → Prop where
  | passed (hk : k.closed = true ∨ k.hasIdentity r.id = true) : Takes r k k
  | unmade {serial : Nat} (ho : k.closed = false) (hn : k.hasIdentity r.id = false)
    (hf : ∀ entry release, k.factory.create serial r ≠ .made entry release) : Takes r k k
  | refused {serial : Nat} {entry : E} {release : Option (Release E)} (ho : k.closed = false)
    (hn : k.hasIdentity r.id = false) (hm : k.factory.create serial r = .made entry release)
    (ht : (k.storage.append k.mode entry).1 = false) : Takes r k k
  | admitted {serial : Nat} {entry : E} {release : Option (Release E)} (ho : k.closed = false)
    (hn : k.hasIdentity r.id = false) (hm : k.factory.create serial r = .made entry release)
    (ht : (k.storage.append k.mode entry).1 = true) :
    Takes r k (k.enter ⟨serial, entry, r, release⟩)

/-- What becomes of a collection when a service disappears. -/
inductive Drops (id : UInt64) (k : Collection E) : Collection E → Prop where
  | absent (hn : k.hasIdentity id = false) : Drops id k k
  | found {holding : Holding E} (hf : Roster.find? Holding.id id k.index = some holding) :
    Drops id k (k.leave holding)

/-- What becomes of a collection when its importer processes an event. -/
def Hears (event : ServiceEvent) (k k' : Collection E) : Prop :=
  match Notification.ofKind? event.kind with
  | some .appeared | some .updated => Takes event.reference k k'
  | some .disappeared => Drops event.reference.id k k'
  | none => k' = k

variable {r : ServiceReference} {id : UInt64} {event : ServiceEvent} {k k' : Collection E}

theorem Takes.calm (ht : k.Takes r k') (hk : k.Calm) : k'.Calm := by
  cases ht with
  | passed | unmade | refused => exact hk
  | admitted ho hn hm ht =>
    -- the new holding has the release that the factory made, and the factory is passive
    refine ⟨hk.locks, hk.lifecycle, hk.state, hk.factory, fun holding hmem release hr => ?_⟩
    rcases Roster.mem_insert hmem with rfl | hmem
    · obtain rfl : _ = some release := hr
      exact hk.factory _ _ _ _ hm
    · exact hk.index holding hmem release hr

theorem Drops.calm (hd : k.Drops id k') (hk : k.Calm) : k'.Calm := by
  cases hd with
  | absent => exact hk
  | found hf =>
    refine ⟨hk.locks, hk.lifecycle, hk.state, hk.factory, fun holding hmem => ?_⟩
    exact hk.index holding (List.mem_filter.1 hmem).1

end Collection

namespace Run

variable (nested : Nested E) {c : Nat} {h h' : Hub E}

theorem takes_of_considered {r : ServiceReference} {result : Except Trouble (Admission E)}
    (hc : Considered c r h result h') : (h.collection c).Takes r (h'.collection c) := by
  cases hc with
  | ignored hk => exact .passed hk
  | failed ho hn hf => exact .unmade ho hn (fun _ _ hm => by rw [hf] at hm; cases hm)
  | panicked ho hn hf => exact .unmade ho hn (fun _ _ hm => by rw [hf] at hm; cases hm)
  | refused ho hn hm ht => exact .refused ho hn hm ht
  | @admitted recent entry release ho hn hm ht =>
    have hlen : c < (h.creation c r.id release.isSome).collections.length :=
      Hub.lt_length_of_open (h := h) ho
    rw [Hub.collection_setTo_self hlen]
    exact .admitted ho hn hm ht

theorem drops_of_retracted {id : UInt64} {result : Option (Removal E)}
    (hc : Retracted c id h result h') : (h.collection c).Drops id (h'.collection c) := by
  cases hc with
  | absent hk => exact .absent hk
  | found hf =>
    rw [Hub.collection_setTo_self]
    · exact .found hf
    · refine Hub.lt_length_of_index fun hnil => ?_
      rw [hnil] at hf
      cases hf

omit [ServiceEntry E] in
/-- A hub stays calm when one of its collections does. -/
theorem calm_of_section (hs : h.Section c h') (hc : h.Calm) (hk : (h'.collection c).Calm) :
    h'.Calm := fun d => by
  by_cases hd : d = c
  · rw [hd]
    exact hk
  · rw [hs.others d hd]
    exact hc d

omit [ServiceEntry E] in
/-- A hush after a section. -/
theorem changes_of_section {R : Collection E → Collection E → Prop} {h₁ : Hub E}
    (hs : h.Section c h₁) (hk : R (h.collection c) (h₁.collection c)) (hh : h₁.Hush h') :
    h.Changes c R h' :=
  .hush ⟨by rw [hs.registry]; exact .refl _, hk, fun d hd => hs.others d hd⟩ hh

/-- A service that appears or is updated. -/
theorem appeared_total (hc : h.Calm) (r : ServiceReference) : ∃ outcome h',
    apply nested c .appeared r h = .ok (outcome, h') ∧
    h.Changes c (Collection.Takes r) h' ∧ h'.Calm := by
  obtain ⟨result, h₁, hcons⟩ := consider_total (h := h) ((hc c).free .index (by decide))
    ((hc c).free .storage (by decide)) r
  have hcons' := consider_ok hcons
  have htakes := takes_of_considered hcons'
  have hcalm₁ := calm_of_section hcons'.toSection hc (htakes.calm (hc c))
  cases result with
  | error t =>
    refine ⟨.error t, h₁, bind_eq_ok.2 ⟨_, h₁, hcons, rfl⟩, ?_, hcalm₁⟩
    exact changes_of_section hcons'.toSection htakes (.refl h₁)
  | ok admission =>
    -- only a refused entry is released here, by what its factory made for it
    have hrelease : ∀ serial release, admission = .refused serial (some release) →
        release.IsPassive := by
      rintro serial release rfl
      cases hcons' with
      | refused ho hn hm => exact (hc c).factory _ _ _ _ hm
    obtain ⟨outcome, h₂, hafter, hh⟩ : Hushed (afterAdmission nested c r admission) h₁ :=
      hushed_afterAdmission (hcalm₁ c) r hrelease
    refine ⟨.ok outcome, h₂, ?_, changes_of_section hcons'.toSection htakes hh, hh.calm hcalm₁⟩
    exact bind_eq_ok.2 ⟨_, h₁, hcons, bind_eq_ok.2 ⟨_, h₂, hafter, rfl⟩⟩

/-- A service that disappears. -/
theorem disappeared_total (hc : h.Calm) (r : ServiceReference) : ∃ outcome h',
    apply nested c .disappeared r h = .ok (outcome, h') ∧
    h.Changes c (Collection.Drops r.id) h' ∧ h'.Calm := by
  obtain ⟨result, h₁, hret⟩ := retract_total (h := h) ((hc c).free .index (by decide))
    ((hc c).free .storage (by decide)) r.id
  have hret' := retract_ok hret
  have hdrops := drops_of_retracted hret'
  have hcalm₁ := calm_of_section hret'.toSection hc (hdrops.calm (hc c))
  cases result with
  | none =>
    refine ⟨.ok .unchanged, h₁, ?_, changes_of_section hret'.toSection hdrops (.refl h₁), hcalm₁⟩
    exact bind_eq_ok.2 ⟨_, h₁, bind_eq_ok.2 ⟨_, h₁, hret, rfl⟩, rfl⟩
  | some removal =>
    have hrelease : ∀ release ∈ removal.holding.release, release.IsPassive := by
      cases hret' with
      | found hf => exact (hc c).index _ (List.mem_of_find?_eq_some hf)
    obtain ⟨outcome, h₂, hafter, hh⟩ : Hushed (afterRemoval nested c removal) h₁ :=
      hushed_afterRemoval (hcalm₁ c) hrelease
    refine ⟨.ok outcome, h₂, ?_, changes_of_section hret'.toSection hdrops hh, hh.calm hcalm₁⟩
    exact bind_eq_ok.2 ⟨_, h₂, bind_eq_ok.2 ⟨_, h₁, hret, hafter⟩, rfl⟩

/-- The importer of a collection processes an event. -/
theorem serviceChanged_total (hc : h.Calm) (event : ServiceEvent) : ∃ h',
    serviceChanged nested c event h = .ok ((), h') ∧
    h.Changes c (Collection.Hears event) h' ∧ h'.Calm := by
  have hrec : ∃ outcome h', reconcile nested c event h = .ok (outcome, h') ∧
      h.Changes c (Collection.Hears event) h' ∧ h'.Calm := by
    unfold reconcile Collection.Hears
    cases Notification.ofKind? event.kind with
    | none => exact ⟨_, h, rfl, ⟨.refl _, rfl, fun _ _ => rfl⟩, hc⟩
    | some notification =>
      cases notification with
      | appeared => exact appeared_total nested hc event.reference
      | updated => exact appeared_total nested hc event.reference
      | disappeared => exact disappeared_total nested hc event.reference
  obtain ⟨outcome, h₁, hrec, hch, hcalm⟩ := hrec
  -- A failure or a panic is noted in the trace.
  have hnote : ∀ m, h.Changes c (Collection.Hears event) (h₁.record m) ∧ (h₁.record m).Calm :=
    fun m => ⟨hch.hush ⟨rfl, rfl⟩, hcalm⟩
  cases outcome with
  | ok _ => exact ⟨h₁, bind_eq_ok.2 ⟨_, h₁, hrec, rfl⟩, hch, hcalm⟩
  | error t => cases t <;> exact ⟨_, bind_eq_ok.2 ⟨_, h₁, hrec, rfl⟩, hnote _⟩

end Run

/-! ## Acts -/

namespace Run

omit [ServiceEntry E]

variable {α β : Type} {h g : Hub E}

/-- An act goes on from where its first part reached its result. -/
theorem act_bind {x : Act E α} {f : α → Act E β} {a : α} (hx : x.run h = .ok (.ok a, g)) :
    (x >>= f).run h = (f a).run g := by
  show (x.run h >>= fun p => _) = _
  rw [hx]
  rfl

/-- A run as an act. -/
theorem act_lift {x : Run E α} {a : α} (hx : x h = .ok (a, g)) :
    (liftM x : Act E α).run h = .ok (.ok a, g) :=
  (bind_eq_ok (f := fun a => pure (Except.ok a))).2 ⟨a, g, hx, rfl⟩

/-- What an act did first, and how it went on if that reached its result. -/
theorem act_bind_ok {x : Act E α} {f : α → Act E β} {b : Except Trouble β}
    (hr : (x >>= f).run h = .ok (b, g)) : ∃ a h₁, x.run h = .ok (a, h₁) ∧
      ∀ a', a = .ok a' → (f a').run h₁ = .ok (b, g) := by
  obtain ⟨a, h₁, hx, hf⟩ := bind_eq_ok.1 hr
  refine ⟨a, h₁, hx, ?_⟩
  rintro a' rfl
  exact hf

theorem act_lift_ok {x : Run E α} {a : Except Trouble α}
    (hr : (liftM x : Act E α).run h = .ok (a, g)) : ∃ b, x h = .ok (b, g) ∧ a = .ok b := by
  obtain ⟨b, h₁, hx, hdone⟩ := (bind_eq_ok (f := fun b => pure (Except.ok b))).1 hr
  obtain ⟨rfl, rfl⟩ := pure_eq_ok.1 hdone
  exact ⟨b, hx, rfl⟩

end Run

/-! ## Subscriptions -/

/-- Who is subscribed: nobody, or the importer of a collection to the services that a filter
accepts. -/
inductive Registry.Linked (c : Nat) (r : Registry E) : Option ServiceFilter → Prop where
  | unheard (hs : r.subscriptions = []) : Linked c r none
  | heard {id : UInt64} {filter : ServiceFilter}
    (hs : r.subscriptions = [⟨id, filter, .importer c⟩]) : Linked c r (some filter)

omit [ServiceEntry E] in
theorem Registry.Linked.of_eq {c : Nat} {r r' : Registry E} {link : Option ServiceFilter}
    (hl : r.Linked c link) (hs : r'.subscriptions = r.subscriptions) : r'.Linked c link := by
  cases hl with
  | unheard hr => exact .unheard (hs.trans hr)
  | heard hr => exact .heard (hs.trans hr)

/-- What becomes of a collection when those are told of an event who want it. -/
def Collection.Hears? (link : Option ServiceFilter) (wants : ServiceFilter → Bool)
    (event : ServiceEvent) (k k' : Collection E) : Prop :=
  if link.any wants = true then k.Hears event k' else k' = k

namespace Run

variable (nested : Nested E) {c : Nat} {h h' : Hub E}

/-- An event is delivered to the importer of a collection. -/
theorem deliver_total (hc : h.Calm) {s : Subscription E} (hs : s.target = .importer c)
    (event : ServiceEvent) : ∃ h', (deliver nested s event).run h = .ok (.ok (), h') ∧
    h.Changes c (Collection.Hears event) h' ∧ h'.Calm := by
  let h₁ : Hub E := { h with registry.delivered := h.registry.delivered + 1 }
  let h₂ : Hub E := h₁.record (.delivered s.id event)
  obtain ⟨h', hr, hch, hcalm⟩ := serviceChanged_total nested (c := c) (h := h₂) hc event
  refine ⟨h', ?_, ⟨⟨hch.registry.1, hch.registry.2, hch.registry.3, hch.registry.4⟩, hch.here,
    hch.elsewhere⟩, hcalm⟩
  have htell : (tell nested s.target event).run h₂ = .ok (.ok (), h') := by
    rw [hs]
    exact act_lift hr
  -- the delivery is counted, then noted, then carried out
  unfold deliver
  rw [act_bind (a := ()) (g := h₁) rfl, act_bind (a := ()) (g := h₂) rfl, htell]

/-- An event is delivered to whoever is subscribed and wants it. -/
theorem deliverAll_total (hc : h.Calm) {link : Option ServiceFilter}
    (hl : h.registry.Linked c link) (event : ServiceEvent) (wants : ServiceFilter → Bool) :
    ∃ h', (deliverAll nested event wants).run h = .ok (.ok (), h') ∧
    h.Changes c (Collection.Hears? link wants event) h' ∧ h'.Calm := by
  have hnobody : h.registry.subscriptions.filter (fun s => wants s.filter) = [] →
      (deliverAll nested event wants).run h = .ok (.ok (), h) := fun hnil => by
    unfold deliverAll
    rw [act_bind (a := h) (g := h) rfl, hnil]
    rfl
  have hstay : h.Changes c (fun k k' => k' = k) h := ⟨.refl _, rfl, fun _ _ => rfl⟩
  cases hl with
  | unheard hs => exact ⟨h, hnobody (by rw [hs]; rfl), hstay, hc⟩
  | @heard id filter hs =>
    unfold Collection.Hears?
    cases hw : wants filter with
    | false =>
      refine ⟨h, hnobody (by rw [hs]; simp [hw]), ?_, hc⟩
      simpa [hw] using hstay
    | true =>
      have hone : h.registry.subscriptions.filter (fun s => wants s.filter) =
          [⟨id, filter, .importer c⟩] := by
        rw [hs]
        simp [hw]
      obtain ⟨h', hr, hch, hcalm⟩ :=
        deliver_total nested (s := ⟨id, filter, .importer c⟩) hc rfl event
      refine ⟨h', ?_, by simpa [hw] using hch, hcalm⟩
      unfold deliverAll
      rw [act_bind (a := h) (g := h) rfl, hone]
      exact (act_bind hr).trans rfl

end Run

end LiveServices
