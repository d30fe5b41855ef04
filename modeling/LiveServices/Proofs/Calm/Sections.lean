import LiveServices.Proofs.Run.Steps

/-!
# Calm hubs

A hub is calm (`Hub.Calm`) if nothing that is called in it gives commands, neither a listener of
a collection nor a release action, and if no lock is taken but that of a subscription. In a calm
hub every section reaches a result (`Run.consider_total`, `Run.retract_total`), and what follows
a section reaches one too and is hushed (`Run.Hushed`): listeners hear of it, and neither a
collection nor the registry is changed by it (`Run.hushed_afterAdmission`,
`Run.hushed_afterRemoval`).
-/

namespace LiveServices

variable {E : Type}

/-- Nobody who is called by a collection gives commands, and no lock of it is taken but that of
its subscription. -/
structure Collection.Calm (k : Collection E) : Prop where
  locks : ∀ lock ∈ k.locks, lock = .subscription
  lifecycle : ∀ a ∈ k.lifecycleListeners, a.listener.IsPassive
  state : ∀ a ∈ k.stateListeners, a.listener.IsPassive
  factory : k.factory.IsPassive
  index : ∀ holding ∈ k.index, ∀ release ∈ holding.release, release.IsPassive

/-- A lock that is not that of the subscription is free. -/
theorem Collection.Calm.free {k : Collection E} (hk : k.Calm) (lock : Lock)
    (hl : lock ≠ .subscription) : lock ∉ k.locks := by
  intro hmem
  exact hl (hk.locks lock hmem)

/-- Whether a collection is calm depends on its locks and on what it calls. -/
theorem Collection.Calm.of_eq {k k' : Collection E} (hk : k.Calm)
    (locks : ∀ lock ∈ k'.locks, lock = .subscription ∨ lock ∈ k.locks)
    (lifecycle : k'.lifecycleListeners = k.lifecycleListeners)
    (state : k'.stateListeners = k.stateListeners) (factory : k'.factory = k.factory)
    (index : k'.index = k.index) : k'.Calm where
  locks lock hl := (locks lock hl).elim id (hk.locks lock)
  lifecycle := lifecycle ▸ hk.lifecycle
  state := state ▸ hk.state
  factory := factory ▸ hk.factory
  index := index ▸ hk.index

/-- A collection that is not there is calm. -/
theorem Collection.calm_absent : (absent : Collection E).Calm where
  locks _ hl := absurd hl List.not_mem_nil
  lifecycle _ ha := absurd ha List.not_mem_nil
  state _ ha := absurd ha List.not_mem_nil
  factory _ _ _ _ hm := by cases hm
  index _ hmem := absurd hmem List.not_mem_nil

/-- All collections are calm. -/
def Hub.Calm (h : Hub E) : Prop := ∀ c, (h.collection c).Calm

/-- The second hub comes after the first, with the same collections and the same registry. -/
structure Hub.Hush (h h' : Hub E) : Prop where
  collections : h'.collections = h.collections
  registry : h'.registry = h.registry

namespace Hub.Hush

variable {h h₁ h₂ h₃ : Hub E}

theorem refl (h : Hub E) : Hush h h := ⟨rfl, rfl⟩

theorem trans (h₁₂ : Hush h₁ h₂) (h₂₃ : Hush h₂ h₃) : Hush h₁ h₃ :=
  ⟨h₂₃.collections.trans h₁₂.collections, h₂₃.registry.trans h₁₂.registry⟩

/-- Each collection is as it was. -/
theorem collection (hh : Hush h₁ h₂) (c : Nat) : h₂.collection c = h₁.collection c := by
  rw [Hub.collection, hh.collections, Hub.collection]

/-- What is heard only keeps all collections calm. -/
theorem calm (hh : Hush h₁ h₂) (hc : h₁.Calm) : h₂.Calm := fun c => by
  rw [hh.collection]
  exact hc c

end Hub.Hush

namespace Run

variable {α β : Type} {h h' : Hub E} {c : Nat}

/-! ## Reaching a result -/

/-- A run reaches a result from this hub. -/
def Total (x : Run E α) (h : Hub E) : Prop := ∃ a h', x h = .ok (a, h')

/-- A run reaches a result from this hub, and all that comes of it is heard only. -/
def Hushed (x : Run E α) (h : Hub E) : Prop := ∃ a h', x h = .ok (a, h') ∧ h.Hush h'

namespace Total

theorem pure (a : α) : Total (pure a) h := ⟨a, h, rfl⟩

/-- A sequence reaches a result if its parts do, one from where the other ended. -/
theorem bind {x : Run E α} {f : α → Run E β} (hx : Total x h)
    (hf : ∀ a h', x h = .ok (a, h') → Total (f a) h') : Total (x >>= f) h := by
  obtain ⟨a, h₁, h1⟩ := hx
  obtain ⟨b, h₂, h2⟩ := hf a h₁ h1
  exact ⟨b, h₂, bind_eq_ok.2 ⟨a, h₁, h1, h2⟩⟩

theorem collection {f : Collection E → Run E β} (hf : Total (f (h.collection c)) h) :
    Total (collection c >>= f) h := hf

theorem update {f : Collection E → Collection E} {g : Unit → Run E β}
    (hg : Total (g ()) (h.update c f)) : Total (update c f >>= g) h := hg

/-- A section reaches a result if its lock is free and its work reaches one. -/
theorem locked {lock : Lock} {body : Run E α} (hl : lock ∉ (h.collection c).locks)
    (hb : Total body (h.update c fun k => { k with locks := lock :: k.locks })) :
    Total (locked c lock body) h := by
  obtain ⟨a, h₁, hb⟩ := hb
  exact ⟨a, _, locked_eq_ok.2 ⟨hl, h₁, hb, rfl⟩⟩

end Total

namespace Hushed

theorem pure (a : α) : Hushed (pure a) h := ⟨a, h, rfl, .refl h⟩

/-- A moment is recorded for others to hear of. -/
theorem record (m : Moment E) : Hushed (record m) h := ⟨(), _, rfl, ⟨rfl, rfl⟩⟩

/-- What comes of a sequence is heard only if that holds of its parts. -/
theorem bind {x : Run E α} {f : α → Run E β} (hx : Hushed x h)
    (hf : ∀ a h', x h = .ok (a, h') → h.Hush h' → Hushed (f a) h') : Hushed (x >>= f) h := by
  obtain ⟨a, h₁, h1, hh₁⟩ := hx
  obtain ⟨b, h₂, h2, hh₂⟩ := hf a h₁ h1 hh₁
  exact ⟨b, h₂, bind_eq_ok.2 ⟨a, h₁, h1, h2⟩, hh₁.trans hh₂⟩

/-- A section that only looks at its collection. -/
theorem look {lock : Lock} {f : Collection E → α} (hl : lock ∉ (h.collection c).locks) :
    Hushed (locked c lock (do Pure.pure (f (← collection c)))) h := by
  refine ⟨_, _, locked_pure_eq_ok.2 ⟨hl, rfl, rfl⟩, ?_, rfl⟩
  -- the lock was taken and given back, so the past alone tells of it
  rw [Hub.update_update_of_inverse (fun k => by rw [List.erase_cons_head])]

end Hushed

variable [ServiceEntry E] {nested : Nested E}

/-! ## Sections -/

/-- An entry can be stored where no one holds the lock of the storage. -/
theorem store_total (hs : .storage ∉ (h.collection c).locks) (entry : E) :
    Total (store c entry) h := .locked hs ⟨_, _, rfl⟩

/-- An entry can be removed there. -/
theorem unstore_total (hs : .storage ∉ (h.collection c).locks) (entry : E) :
    Total (unstore c entry) h := .locked hs ⟨_, _, rfl⟩

omit [ServiceEntry E] in
theorem storedSize_total (hs : .storage ∉ (h.collection c).locks) : Total (storedSize c) h :=
  .locked hs ⟨_, _, rfl⟩

omit [ServiceEntry E] in
/-- A lock stays free when another one is taken. -/
theorem free_of_update {lock other : Lock} (hl : lock ∉ (h.collection c).locks)
    (hne : lock ≠ other) :
    lock ∉ ((h.update c fun k => { k with locks := other :: k.locks }).collection c).locks := by
  rw [Hub.collection_update]
  split
  · exact fun hmem => (List.mem_cons.1 hmem).elim hne hl
  · exact hl

/-- The storage gives its lock back. -/
theorem locks_of_store {entry : E} {taken : Bool} (hr : store c entry h = .ok (taken, h')) :
    (h'.collection c).locks = (h.collection c).locks := by
  simp only [store, locked_eq_ok, collection_bind, update_bind, pure_eq_ok] at hr
  obtain ⟨-, h₁, ⟨-, rfl⟩, rfl⟩ := hr
  by_cases hc : c < h.collections.length <;> simp [Hub.collection_update, hc]

/-- The lock of the storage is given back after a removal. -/
theorem locks_of_unstore {entry : E} {found : Bool} (hr : unstore c entry h = .ok (found, h')) :
    (h'.collection c).locks = (h.collection c).locks := by
  simp only [unstore, locked_eq_ok, collection_bind, update_bind, pure_eq_ok] at hr
  obtain ⟨-, h₁, ⟨-, rfl⟩, rfl⟩ := hr
  by_cases hc : c < h.collections.length <;> simp [Hub.collection_update, hc]

/-- A judgement reaches a result if the lock of the storage is free. -/
theorem judge_total (hs : .storage ∉ (h.collection c).locks) (r : ServiceReference) :
    Total (judge c r) h := by
  refine .collection ?_
  split
  · exact .pure _
  · refine .bind ⟨_, _, rfl⟩ fun serial h₁ hserial => .bind ⟨_, _, rfl⟩ fun _ h₂ hrecord => ?_
    cases hserial
    cases hrecord
    split
    · exact .pure _
    · exact .pure _
    · next entry release hm =>
      refine .bind ⟨_, _, rfl⟩ fun _ h₃ hrecord => ?_
      cases hrecord
      refine .bind (store_total (h := h.creation c r.id release.isSome) hs entry) ?_
      intro taken h₄ hstore
      split
      · have hs₄ : .storage ∉ (h₄.collection c).locks := by
          rw [locks_of_store hstore]
          exact hs
        exact .bind (storedSize_total hs₄) fun size h₅ _ => ⟨_, _, rfl⟩
      · exact .pure _

/-- An admission is decided if the locks of the index and of the storage are free. -/
theorem consider_total (hi : .index ∉ (h.collection c).locks)
    (hs : .storage ∉ (h.collection c).locks) (r : ServiceReference) : Total (consider c r) h :=
  .locked hi (judge_total (free_of_update hs (by decide)) r)

/-- A service can be taken out where the lock of the storage is free. -/
theorem takeOut_total (hs : .storage ∉ (h.collection c).locks) (id : UInt64) :
    Total (takeOut c id) h := by
  refine .collection ?_
  split
  · exact .pure _
  · next holding hf =>
    have hs₁ : .storage ∉ ((h.update c fun k =>
        { k with index := Roster.erase Holding.id id k.index }).collection c).locks := by
      rw [Hub.collection_update]
      split <;> exact hs
    refine .update (.bind (unstore_total hs₁ holding.entry) fun found h₁ hunstore => ?_)
    rw [← locks_of_unstore hunstore] at hs₁
    exact .bind (storedSize_total hs₁) fun size h₂ _ => ⟨_, _, rfl⟩

/-- A retraction is decided if the locks of the index and of the storage are free. -/
theorem retract_total (hi : .index ∉ (h.collection c).locks)
    (hs : .storage ∉ (h.collection c).locks) (id : UInt64) : Total (retract c id) h :=
  .locked hi (takeOut_total (free_of_update hs (by decide)) id)

omit [ServiceEntry E] in
/-- What is left is thrown away if the locks of the index and of the storage are free. -/
theorem clear_total (hi : .index ∉ (h.collection c).locks)
    (hs : .storage ∉ (h.collection c).locks) : Total (clear c) h := by
  refine .locked hi (.update (.locked ?_ ⟨_, _, rfl⟩))
  rw [Hub.collection_update]
  split
  · exact free_of_update hs (by decide)
  · exact free_of_update hs (by decide)

/-! ## What follows a section -/

/-- The call of a passive listener. -/
theorem hushed_call {a : Attached E} {callback : Callback E} (hp : a.listener.IsPassive) :
    Hushed (call nested a callback) h := by
  refine Hushed.bind ⟨_, _, rfl, .refl h⟩ fun h₀ h₁ hget hh₁ => ?_
  cases hget
  refine .bind ⟨_, _, rfl, .refl h⟩ fun glimpse h₂ hglimpse hh₂ => ?_
  cases hglimpse
  refine .bind (.record _) fun _ h₃ _ _ => ?_
  -- a passive listener has no commands to give
  show Hushed (give nested _ _ (a.listener.respond (h.history a.tag) callback).commands) _
  rw [hp]
  exact .pure _

omit [ServiceEntry E] in
/-- A guarded call that did not end well is noted. -/
theorem hushed_settle (what : Guarded) (name : String) (service : UInt64) (finish : Finish) :
    Hushed (settle what name service finish) h := by
  cases finish with
  | done => exact .pure _
  | fail f => exact .bind (.record _) fun _ _ _ _ => .pure _
  | panic message => exact .bind (.record _) fun _ _ _ _ => .pure _

/-- A round of calls of passive listeners. -/
theorem hushed_callAll {what : Guarded} {service : UInt64} {callback : Callback E}
    {listeners : List (Attached E)} (hp : ∀ a ∈ listeners, a.listener.IsPassive) :
    Hushed (callAll nested what service callback listeners) h := by
  induction listeners generalizing h with
  | nil => exact .pure _
  | cons a listeners ih =>
    -- how a listener finishes does not keep the others from being called
    refine .bind ?_ fun _ h₁ _ _ => ih fun b hb => hp b (List.mem_cons_of_mem _ hb)
    refine .bind (hushed_call (hp a List.mem_cons_self)) fun finish h₁ _ _ => ?_
    exact .bind (hushed_settle ..) fun _ _ _ _ => .pure _

/-- A round of passive lifecycle listeners is heard, and nothing comes of it. -/
theorem hushed_lifecycle {what : Guarded} {service : UInt64} {callback : Callback E}
    (hk : (h.collection c).Calm) :
    Hushed (lifecycleListeners c >>= callAll nested what service callback) h := by
  refine .bind (.look fun hl => ?_) fun listeners h₁ hread _ => hushed_callAll ?_
  · cases hk.locks _ hl
  · rw [lifecycleListeners_ok hread]
    exact hk.lifecycle

/-- Nor does anything come of a round of passive state listeners. -/
theorem hushed_state {what : Guarded} {service : UInt64} {callback : Callback E}
    (hk : (h.collection c).Calm) :
    Hushed (stateListeners c >>= callAll nested what service callback) h := by
  refine .bind (.look fun hl => ?_) fun listeners h₁ hread _ => hushed_callAll ?_
  · cases hk.locks _ hl
  · rw [stateListeners_ok hread]
    exact hk.state

/-- An admission is announced by rounds of calls, of which nothing comes. -/
theorem hushed_announceAdmission (hk : (h.collection c).Calm) (entry : E) (r : ServiceReference)
    (first : Bool) : Hushed (announceAdmission nested c entry r first) h := by
  refine .bind (hushed_lifecycle hk) fun _ h₁ _ hh₁ => ?_
  split
  · refine .bind ⟨_, _, rfl, .refl h₁⟩ fun k h₂ hread hh₂ => ?_
    cases hread
    rw [← hh₁.collection] at hk
    exact hushed_state hk
  · exact .pure _

/-- So is a removal. -/
theorem hushed_announceRemoval (hk : (h.collection c).Calm) (removal : Removal E) :
    Hushed (announceRemoval nested c removal) h := by
  unfold announceRemoval
  split
  · refine .bind (hushed_lifecycle hk) fun _ h₁ _ hh₁ => ?_
    split
    · refine .bind ⟨_, _, rfl, .refl h₁⟩ fun k h₂ hread hh₂ => ?_
      cases hread
      rw [← hh₁.collection] at hk
      exact hushed_state hk
    · exact .pure _
  · exact .pure _

omit [ServiceEntry E] in
/-- The run of a passive release action. -/
theorem hushed_runRelease {release : Release E} (hp : release.IsPassive) (serial : Nat)
    (service : UInt64) : Hushed (runRelease nested c serial service release) h := by
  refine .bind ⟨_, _, rfl, .refl h⟩ fun h₀ h₁ hget _ => ?_
  cases hget
  refine .bind (.record _) fun _ h₂ _ _ => ?_
  refine .bind ⟨_, _, rfl, ⟨rfl, rfl⟩⟩ fun _ h₃ _ _ => ?_
  rw [hp]
  exact .pure _

/-- A passive release action gives no commands. -/
theorem hushed_letGo {holding : Holding E} (hp : ∀ release ∈ holding.release, release.IsPassive) :
    Hushed (letGo nested c holding) h := by
  unfold letGo
  split
  · exact .pure _
  · next release hrelease =>
    refine .bind ⟨_, _, rfl, .refl h⟩ fun k h₁ _ _ => ?_
    refine .bind (hushed_runRelease (hp release (by rw [hrelease]; rfl)) ..) fun finish h₂ _ _ => ?_
    refine .bind (hushed_settle ..) fun done h₃ _ _ => ?_
    split
    · exact .pure _
    · exact .bind ⟨_, _, rfl, .refl h₃⟩ fun _ _ _ _ => .record _

/-- What follows an admission. -/
theorem hushed_afterAdmission (hk : (h.collection c).Calm) (r : ServiceReference)
    {admission : Admission E}
    (hp : ∀ serial release, admission = .refused serial (some release) → release.IsPassive) :
    Hushed (afterAdmission nested c r admission) h := by
  cases admission with
  | ignored => exact .pure _
  | refused serial release =>
    cases release with
    | none => exact .pure _
    | some release =>
      refine .bind ⟨_, _, rfl, .refl h⟩ fun k h₁ _ _ => ?_
      refine .bind (hushed_runRelease (hp serial release rfl) ..) fun finish h₂ _ _ => ?_
      exact .bind (hushed_settle ..) fun _ _ _ _ => .pure _
  | admitted entry first =>
    exact .bind (hushed_announceAdmission hk entry r first) fun _ _ _ _ => .pure _

/-- What follows a removal. -/
theorem hushed_afterRemoval (hk : (h.collection c).Calm) {removal : Removal E}
    (hp : ∀ release ∈ removal.holding.release, release.IsPassive) :
    Hushed (afterRemoval nested c removal) h := by
  refine .bind (hushed_announceRemoval hk removal) fun _ h₁ _ _ => ?_
  exact .bind (hushed_letGo hp) fun _ _ _ _ => .pure _

end Run

end LiveServices
