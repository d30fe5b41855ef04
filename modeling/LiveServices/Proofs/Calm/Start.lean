import LiveServices.Proofs.Calm.Calls

/-!
# Starting a calm collection

A start of a collection that was neither started nor destroyed reaches a result, whether or not
the collection then has what it needs (`Hub.join_total`). The collection is subscribed from then
on, and it was told of the services of the registry that its filter accepts, one after the other
(`Collection.Joins`). Each time it took what it was told of or nothing, so what it has then are
some of these services (`Collection.Starts`, `Hub.start_total`).
-/

namespace LiveServices

variable {E : Type}

/-! ## Changes of one collection -/

namespace Hub

variable {h : Hub E} {c : Nat} {f : Collection E → Collection E}

/-- A hub stays calm if the collection that is changed does. -/
theorem Calm.update (hc : h.Calm) (hf : (f (h.collection c)).Calm) : (h.update c f).Calm := by
  intro d
  rw [collection_update]
  split
  · next hd =>
    rw [hd.1]
    exact hf
  · exact hc d

/-- A change of a collection changes no other one. -/
theorem changes_update (hlen : c < h.collections.length) :
    h.Changes c (fun k k' => k' = f k) (h.update c f) where
  registry := .refl _
  here := collection_update_self hlen
  elsewhere _ hd := collection_update_of_ne (Ne.symm hd)

end Hub

/-! ## Being told of the services that are there -/

/-- What becomes of a collection that takes some of these services. -/
structure Collection.Gains (ids : List UInt64) (k k' : Collection E) : Prop where
  frame : ∃ index storage, k' = { k with index := index, storage := storage }
  identities : ∀ id ∈ k'.identities, id ∈ k.identities ∨ id ∈ ids

namespace Collection

variable {k k₁ k' : Collection E} {ids ids' : List UInt64}

theorem Gains.refl (k : Collection E) : k.Gains [] k := ⟨⟨k.index, k.storage, rfl⟩, fun _ => .inl⟩

/-- What is gained in two steps is gained in the first or in the second. -/
theorem Gains.trans (h₁ : k.Gains ids k₁) (h₂ : k₁.Gains ids' k') : k.Gains (ids ++ ids') k' := by
  obtain ⟨index, storage, rfl⟩ := h₁.frame
  obtain ⟨index', storage', rfl⟩ := h₂.frame
  refine ⟨⟨index', storage', rfl⟩, fun id hid => ?_⟩
  rcases h₂.identities id hid with hid | hid
  · exact (h₁.identities id hid).imp_right (List.mem_append_left _)
  · exact .inr (List.mem_append_right _ hid)

/-- What becomes of a collection that is subscribed and told of these services. -/
structure Starts (ids : List UInt64) (k k' : Collection E) : Prop where
  frame : ∃ index storage id,
    k' = { k with index := index, storage := storage, subscription := some id }
  identities : ∀ id ∈ k'.identities, id ∈ k.identities ∨ id ∈ ids

variable [ServiceEntry E] {r : ServiceReference}

/-- Of a service that appears or is updated a collection takes that one or nothing. -/
theorem Takes.gains (ht : k.Takes r k') : k.Gains [r.id] k' := by
  cases ht with
  | passed | unmade | refused => exact ⟨⟨k.index, k.storage, rfl⟩, fun _ => .inl⟩
  | admitted ho hn hm ht =>
    refine ⟨⟨_, _, rfl⟩, fun id hid => ?_⟩
    have hid := (identities_enter hn).mem_iff.1 hid
    exact (List.mem_cons.1 hid).symm.imp_right fun heq => List.mem_singleton.2 heq

/-- What becomes of a collection that is told of these services, one after the other. -/
inductive TakesAll : List ServiceReference → Collection E → Collection E → Prop where
  | nil (k : Collection E) : TakesAll [] k k
  | cons {r : ServiceReference} {services : List ServiceReference} {k k₁ k' : Collection E}
    (ht : k.Takes r k₁) (hs : TakesAll services k₁ k') : TakesAll (r :: services) k k'

/-- A collection that takes services gains no others. -/
theorem TakesAll.gains {services : List ServiceReference} (ht : TakesAll services k k') :
    k.Gains (services.map ServiceReference.id) k' := by
  induction ht with
  | nil k => exact .refl k
  | cons ht _ ih => exact ht.gains.trans ih

omit [ServiceEntry E] in
/-- Two collections that take the same services: they differ neither in what they have nor in
how they take more. -/
structure SameShelf (k j : Collection E) : Prop where
  closed : j.closed = k.closed
  mode : j.mode = k.mode
  factory : j.factory = k.factory
  index : j.index = k.index
  storage : j.storage = k.storage

omit [ServiceEntry E] in
theorem SameShelf.symm (hs : k.SameShelf k') : k'.SameShelf k :=
  ⟨hs.closed.symm, hs.mode.symm, hs.factory.symm, hs.index.symm, hs.storage.symm⟩

omit [ServiceEntry E] in
theorem SameShelf.trans (hs₁ : k.SameShelf k₁) (hs₂ : k₁.SameShelf k') : k.SameShelf k' :=
  ⟨hs₂.closed.trans hs₁.closed, hs₂.mode.trans hs₁.mode, hs₂.factory.trans hs₁.factory,
    hs₂.index.trans hs₁.index, hs₂.storage.trans hs₁.storage⟩

/-- What a collection takes depends on its shelf alone. -/
theorem Takes.congr {j : Collection E} (hs : k.SameShelf j) (ht : k.Takes r k') :
    ∃ j', j.Takes r j' ∧ k'.SameShelf j' := by
  have hid : j.hasIdentity r.id = k.hasIdentity r.id := by
    rw [hasIdentity, identities, hs.index, hasIdentity, identities]
  cases ht with
  | passed hk => exact ⟨j, .passed (by rwa [hs.closed, hid]), hs⟩
  | unmade ho hn hf =>
    exact ⟨j, .unmade (hs.closed ▸ ho) (hid ▸ hn) (by rwa [hs.factory]), hs⟩
  | refused ho hn hm ht =>
    exact ⟨j, .refused (hs.closed ▸ ho) (hid ▸ hn) (by rwa [hs.factory])
      (by rwa [hs.storage, hs.mode]), hs⟩
  | @admitted serial entry release ho hn hm ht =>
    refine ⟨j.enter ⟨serial, entry, r, release⟩, .admitted (hs.closed ▸ ho) (hid ▸ hn)
      (by rwa [hs.factory]) (by rwa [hs.storage, hs.mode]), hs.closed, hs.mode, hs.factory, ?_, ?_⟩
    · rw [enter, enter, hs.index]
    · rw [enter, enter, hs.storage, hs.mode]

/-- So it does for many services. -/
theorem TakesAll.congr {services : List ServiceReference} (ht : TakesAll services k k') :
    ∀ {j : Collection E}, k.SameShelf j → ∃ j', TakesAll services j j' ∧ k'.SameShelf j' := by
  induction ht with
  | nil k => exact fun hs => ⟨_, .nil _, hs⟩
  | cons ht _ ih =>
    intro j hs
    obtain ⟨j₁, ht₁, hs₁⟩ := ht.congr hs
    obtain ⟨j', ht', hs'⟩ := ih hs₁
    exact ⟨j', .cons ht₁ ht', hs'⟩

/-- What becomes of a collection that is subscribed and told of these services, one after the
other. -/
structure Joins (services : List ServiceReference) (k k' : Collection E) : Prop where
  frame : ∃ index storage id,
    k' = { k with index := index, storage := storage, subscription := some id }
  taken : ∃ k₁, TakesAll services k k₁ ∧ k₁.SameShelf k'

theorem TakesAll.joins {services : List ServiceReference} {id : UInt64}
    (ht : TakesAll services k k₁) (hk : k' = { k₁ with subscription := some id }) :
    k.Joins services k' := by
  obtain ⟨index, storage, hframe⟩ := ht.gains.frame
  subst hk
  exact ⟨⟨index, storage, id, by rw [hframe]⟩, k₁, ht, ⟨rfl, rfl, rfl, rfl, rfl⟩⟩

/-- What is taken does not depend on the rest of a collection. -/
theorem Joins.taken_of {services : List ServiceReference} {j j' : Collection E}
    (hj : k.Joins services k') (hk : k.SameShelf j) (hk' : k'.SameShelf j') :
    ∃ j₁, TakesAll services j j₁ ∧ j₁.SameShelf j' := by
  obtain ⟨k₁, ht, hs⟩ := hj.taken
  obtain ⟨j₁, ht', hs'⟩ := ht.congr hk
  exact ⟨j₁, ht', (hs'.symm.trans hs).trans hk'⟩

theorem Joins.starts {services : List ServiceReference} (hj : k.Joins services k') :
    k.Starts (services.map ServiceReference.id) k' := by
  obtain ⟨k₁, ht, hs⟩ := hj.taken
  refine ⟨hj.frame, ?_⟩
  rw [identities, hs.index]
  exact ht.gains.identities

end Collection

/-- The second hub comes after the first by a start of a collection. -/
def Hub.Starts (c : Nat) (h h' : Hub E) : Prop :=
  Hub.Changes c
    (Collection.Starts
      ((h.registry.references (h.collection c).dependency.filter).map ServiceReference.id))
    { h with
      registry := (h.registry.subscribe (h.collection c).dependency.filter (.importer c)).2 } h'

namespace Hub.Starts

variable {h h₁ : Hub E} {c : Nat}

/-- A start neither closes nor drops a collection. -/
theorem keeps (hs : h.Starts c h₁) : (h₁.collection c).closed = (h.collection c).closed ∧
    (h₁.collection c).dropped = (h.collection c).dropped := by
  obtain ⟨index, storage, id, hframe⟩ := hs.here.frame
  rw [hframe]
  exact ⟨rfl, rfl⟩

/-- Nobody but the importer of the collection is subscribed after a start. -/
theorem linked (hs : h.Starts c h₁) (hl : h.registry.Linked c none) :
    h₁.registry.Linked c (some (h.collection c).dependency.filter) := by
  cases hl with
  | unheard hnil =>
    have hone : h₁.registry.subscriptions =
        [⟨h.registry.nextSubscription, (h.collection c).dependency.filter, .importer c⟩] := by
      rw [hs.registry.subscriptions]
      show Roster.insert Subscription.id _ h.registry.subscriptions = _
      rw [hnil]
      rfl
    exact .heard hone

end Hub.Starts

variable [ServiceEntry E]

/-- The second hub comes after the first by a start in which the collection was told of each
service that its filter accepts. -/
def Hub.Joins (c : Nat) (h h' : Hub E) : Prop :=
  Hub.Changes c
    (Collection.Joins (h.registry.references (h.collection c).dependency.filter))
    { h with
      registry := (h.registry.subscribe (h.collection c).dependency.filter (.importer c)).2 } h'

namespace Hub.Joins

variable {h h₁ : Hub E} {c : Nat} {f g : Collection E → Collection E}

theorem starts (hj : h.Joins c h₁) : h.Starts c h₁ := ⟨hj.registry, hj.here.starts, hj.elsewhere⟩

/-- A start between two changes that undo each other, such as a section. -/
theorem between (ho : (h.collection c).closed = false) (hj : (h.update c f).Joins c h₁)
    (hdep : ∀ k, (f k).dependency = k.dependency) (hclosed : ∀ k, (f k).closed = k.closed)
    (hfg : ∀ {services k k'}, (f k).Joins services k' → k.Joins services (g k')) :
    h.Joins c (h₁.update c g) := by
  have hlen := lt_length_of_open ho
  have hk : (h.update c f).collection c = f (h.collection c) := collection_update_self hlen
  have hlen₁ : c < h₁.collections.length := by
    refine lt_length_of_open ?_
    rw [hj.starts.keeps.1, hk, hclosed]
    exact ho
  unfold Joins at hj
  rw [hk, hdep] at hj
  -- into the section, the start itself, and out of the section
  have hentered := (changes_update (h := { h with
      registry := (h.registry.subscribe (h.collection c).dependency.filter (.importer c)).2 })
    (f := f) hlen).trans hj fun heq hj => hfg (heq ▸ hj)
  exact hentered.trans (changes_update hlen₁) fun hj heq => heq ▸ hj

end Hub.Joins

namespace Run

variable (nested : Nested E) {c : Nat} {h : Hub E}

/-- A subscriber is told of the services that are there. -/
theorem replay_total (hc : h.Calm) {s : Subscription E} (hs : s.target = .importer c)
    (services : List ServiceReference) : ∃ h',
    (services.forM fun r => deliver nested s (.registered r)).run h = .ok (.ok (), h') ∧
    h.Changes c (Collection.TakesAll services) h' ∧ h'.Calm := by
  induction services generalizing h with
  | nil => exact ⟨h, rfl, ⟨.refl _, .nil _, fun _ _ => rfl⟩, hc⟩
  | cons r services ih =>
    obtain ⟨h₁, hr₁, hch₁, hcalm₁⟩ := deliver_total nested hc hs (.registered r)
    obtain ⟨h', hr, hch, hcalm⟩ := ih hcalm₁
    refine ⟨h', (act_bind hr₁).trans hr, ?_, hcalm⟩
    exact hch₁.trans hch .cons

/-- The importer of a collection subscribes to the services that a filter accepts. -/
theorem subscribe_total (hc : h.Calm) (filter : ServiceFilter) : ∃ h',
    (subscribe nested filter (.importer c)).run h = .ok (.ok h.registry.nextSubscription, h') ∧
    Hub.Changes c (Collection.TakesAll (h.registry.references filter))
      { h with registry := (h.registry.subscribe filter (.importer c)).2 } h' ∧ h'.Calm := by
  let s : Subscription E := ⟨h.registry.nextSubscription, filter, .importer c⟩
  let h₁ : Hub E := { h with registry := (h.registry.subscribe filter (.importer c)).2 }
  obtain ⟨h', hr, hch, hcalm⟩ := replay_total nested (h := h₁) (s := s) hc rfl
    (h.registry.references filter)
  refine ⟨h', ?_, hch, hcalm⟩
  unfold subscribe
  rw [act_bind (a := s) (g := h₁) rfl, act_bind (a := h₁) (g := h₁) rfl]
  exact (act_bind hr).trans rfl

/-! ## The start -/

/-- A collection that was neither started nor destroyed is subscribed. -/
theorem begin_total (hc : h.Calm) (hs : (h.collection c).subscription = none)
    (ho : (h.collection c).closed = false) :
    ∃ h', (begin nested c).run h = .ok (.ok (), h') ∧ h'.Calm ∧ h.Joins c h' := by
  have hi : .index ∉ (h.collection c).locks := (hc c).free .index (by decide)
  -- The question whether the collection is closed leaves no mark.
  obtain ⟨closed, h₁, hclosed, hh₁⟩ : Hushed (isClosed c) h := .look hi
  have hfalse : closed = false := by
    obtain ⟨-, rfl, -⟩ := locked_pure_eq_ok.1 hclosed
    rw [Hub.collection_update]
    split <;> exact ho
  obtain ⟨h₂, hsub, hch₂, hcalm₂⟩ := subscribe_total nested (c := c) (hh₁.calm hc)
    (h.collection c).dependency.filter
  rw [hh₁.registry] at hsub hch₂
  have hopen : (h₂.collection c).closed = false := by
    obtain ⟨index, storage, hframe⟩ := hch₂.here.gains.frame
    rw [hframe]
    exact (congrArg Collection.closed (hh₁.collection c)).trans ho
  refine ⟨h₂.update c fun k => { k with subscription := some h.registry.nextSubscription },
    ?_, ?_, ?_⟩
  · unfold begin
    rw [act_bind (a := h.collection c) (g := h) rfl, hs]
    show (_ >>= fun _ => _ : Act E _).run h = _
    rw [act_bind (act_lift hclosed), hfalse]
    exact (act_bind hsub).trans rfl
  · exact hcalm₂.update ((hcalm₂ c).of_eq (fun _ => .inr) rfl rfl rfl rfl)
  · refine Hub.Changes.trans (g := h₂) ⟨hch₂.registry, ?_, ?_⟩
      (Hub.changes_update (Hub.lt_length_of_open hopen)) Collection.TakesAll.joins
    · exact hh₁.collection c ▸ hch₂.here
    · intro d hd
      exact (hch₂.elsewhere d hd).trans (hh₁.collection d)

/-- A start reaches a result: it is done, or it fails because the collection lacks what it
needs. -/
theorem start_total (hc : h.Calm) (hl : .subscription ∉ (h.collection c).locks)
    (hs : (h.collection c).subscription = none) (ho : (h.collection c).closed = false) :
    ∃ ending h', (start nested c).run h = .ok (ending, h') ∧
    (∀ message, ending ≠ .error (.panicked message)) ∧ h'.Calm ∧ h.Joins c h' := by
  have hk := Hub.collection_update_self (h := h)
    (f := fun k => { k with locks := .subscription :: k.locks }) (Hub.lt_length_of_open ho)
  have hcalm₀ : (h.update c fun k => { k with locks := .subscription :: k.locks }).Calm :=
    hc.update ((hc c).of_eq (fun _ hmem => List.mem_cons.1 hmem) rfl rfl rfl rfl)
  obtain ⟨h₁, hbegin, hcalm₁, hj₁⟩ := begin_total nested hcalm₀
    (by rw [hk]; exact hs) (by rw [hk]; exact ho)
  -- The start of the subscription is a section, and the lock of the subscription is the one that
  -- a calm collection may have taken.
  let h₂ := h₁.update c fun k => { k with locks := k.locks.erase .subscription }
  have hlocked : (ExceptT.mk (locked c .subscription (begin nested c)) : Act E Unit).run h =
      .ok (.ok (), h₂) := locked_eq_ok.2 ⟨hl, h₁, hbegin, rfl⟩
  have hcalm₂ : h₂.Calm := hcalm₁.update
    ((hcalm₁ c).of_eq (fun _ hmem => .inr (List.mem_of_mem_erase hmem)) rfl rfl rfl rfl)
  have hj₂ : h.Joins c h₂ := by
    refine hj₁.between ho (fun _ => rfl) (fun _ => rfl) fun {services k k'} hj => ?_
    obtain ⟨index, storage, id, hframe⟩ := hj.frame
    exact ⟨⟨index, storage, id, by simp [hframe]⟩,
      hj.taken_of ⟨rfl, rfl, rfl, rfl, rfl⟩ ⟨rfl, rfl, rfl, rfl, rfl⟩⟩
  obtain ⟨checked, h', havail, hh⟩ : Hushed (available c) h₂ :=
    .look ((hcalm₂ c).free .storage (by decide))
  cases checked with
  | ok u =>
    refine ⟨.ok (), h', ?_, fun _ heq => (by cases heq), hh.calm hcalm₂, hj₂.hush hh⟩
    unfold start
    rw [act_bind hlocked, act_bind (act_lift havail)]
    rfl
  | error f =>
    refine ⟨.error (.failed f), h', ?_, fun _ heq => (by cases heq), hh.calm hcalm₂, hj₂.hush hh⟩
    unfold start
    rw [act_bind hlocked, act_bind (act_lift havail)]
    rfl

/-- The work of a command on a collection that is not dropped. -/
theorem workOn_ok {work : Run E α} {a : α} {h₁ : Hub E}
    (hw : work (h.update c fun k => { k with users := k.users + 1 }) = .ok (a, h₁))
    (hd : (h₁.collection c).dropped = false) :
    workOn nested c work h = .ok (a, h₁.update c fun k => { k with users := k.users - 1 }) := by
  have hd' :
      ((h₁.update c fun k => { k with users := k.users - 1 }).collection c).dropped = false := by
    rw [Hub.collection_update]
    split <;> exact hd
  -- a collection that is not dropped is not disposed of, even if this was its last user
  have hdispose : dispose nested c (h₁.update c fun k => { k with users := k.users - 1 }) =
      .ok ((), h₁.update c fun k => { k with users := k.users - 1 }) := by
    refine bind_eq_ok.2 ⟨_, _, rfl, ?_⟩
    rw [hd']
    rfl
  refine bind_eq_ok.2 ⟨(), _, rfl, bind_eq_ok.2 ⟨a, h₁, hw, bind_eq_ok.2 ⟨(), _, rfl, ?_⟩⟩⟩
  exact bind_eq_ok.2 ⟨(), _, hdispose, rfl⟩

end Run

/-- A collection that was neither started nor destroyed nor dropped, and at which nobody is at
work. -/
structure Collection.Fresh (k : Collection E) : Prop where
  locks : k.locks = []
  subscription : k.subscription = none
  closed : k.closed = false
  dropped : k.dropped = false

namespace Hub

variable {c : Nat} {h : Hub E}

/-- **A start.** The command that starts a calm collection, to which nobody else is subscribed,
reaches a result and leaves the collection subscribed and told of what is there. -/
theorem join_total (hc : h.Calm) (hl : h.registry.Linked c none) (hf : (h.collection c).Fresh)
    (depth : Nat) : ∃ answer h', h.run (depth + 1) (.start c) = .ok (answer, h') ∧ h'.Calm ∧
    h'.registry.Linked c (some (h.collection c).dependency.filter) ∧ h.Joins c h' := by
  have hk := collection_update_self (h := h)
    (f := fun k => { k with users := k.users + 1 }) (lt_length_of_open hf.closed)
  have hcalm₀ : (h.update c fun k => { k with users := k.users + 1 }).Calm :=
    hc.update ((hc c).of_eq (fun _ => .inr) rfl rfl rfl rfl)
  obtain ⟨ending, h₁, hstart, hend, hcalm₁, hj₁⟩ := Run.start_total (Run.run depth) hcalm₀
    (by rw [hk]; exact hf.locks ▸ List.not_mem_nil) (by rw [hk]; exact hf.subscription)
    (by rw [hk]; exact hf.closed)
  have hdropped : (h₁.collection c).dropped = false := by
    rw [hj₁.starts.keeps.2, hk]
    exact hf.dropped
  let h₂ := h₁.update c fun k => { k with users := k.users - 1 }
  have hcalm₂ : h₂.Calm := hcalm₁.update ((hcalm₁ c).of_eq (fun _ => .inr) rfl rfl rfl rfl)
  have hj₂ : h.Joins c h₂ := by
    refine hj₁.between hf.closed (fun _ => rfl) (fun _ => rfl) fun {services k k'} hj => ?_
    obtain ⟨index, storage, id, hframe⟩ := hj.frame
    exact ⟨⟨index, storage, id, by simp [hframe]⟩,
      hj.taken_of ⟨rfl, rfl, rfl, rfl, rfl⟩ ⟨rfl, rfl, rfl, rfl, rfl⟩⟩
  -- a start that fails has an answer too
  have hanswered : ∃ answer, Run.answered (fun _ => Answer.done) (Run.start (Run.run depth) c)
      (h.update c fun k => { k with users := k.users + 1 }) = .ok (answer, h₁) := by
    cases ending with
    | ok u => exact ⟨_, Run.answered_ok hstart⟩
    | error t =>
      cases t with
      | failed f => exact ⟨_, Run.answered_failed hstart⟩
      | panicked message => exact absurd rfl (hend message)
  obtain ⟨answer, hanswered⟩ := hanswered
  have hdone : Run.execute (Run.run depth) (.start c) h = .ok (answer, h₂) := by
    refine Run.bind_eq_ok.2 ⟨_, h, rfl, ?_⟩
    rw [hf.dropped]
    exact Run.workOn_ok _ hanswered hdropped
  exact ⟨answer, _, run_ok hdone, hcalm₂, (hj₂.starts.linked hl).of_eq rfl, hj₂.hush ⟨rfl, rfl⟩⟩

/-- After a start the collection has services of the registry only. -/
theorem start_total (hc : h.Calm) (hl : h.registry.Linked c none) (hf : (h.collection c).Fresh)
    (depth : Nat) : ∃ answer h', h.run (depth + 1) (.start c) = .ok (answer, h') ∧ h'.Calm ∧
    h'.registry.Linked c (some (h.collection c).dependency.filter) ∧ h.Starts c h' := by
  obtain ⟨answer, h', hrun, hcalm, hlinked, hj⟩ := join_total hc hl hf depth
  exact ⟨answer, h', hrun, hcalm, hlinked, hj.starts⟩

end Hub

end LiveServices
