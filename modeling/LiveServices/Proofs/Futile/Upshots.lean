import LiveServices.Proofs.Index.Correspondence
import LiveServices.Proofs.Once.Lives

/-!
# What comes of an event

What the importer of a calm collection does about an event depends on the collection and on the
number of the next attempt only. `Collection.upshot` computes it: the outcome, the services and
entries that the collection has then, and who is called. `Hub.run_event` says that this is what
comes of the event, whatever else is in the hub.

Where equality is an equivalence on the entries that the factory makes, an event that is neither
answered with an admission nor with a retraction comes to nothing: the collection has the same
services and entries as before, its cursors stand where they stood, and nobody is called
(`Collection.upshot_of_futile`).
-/

namespace LiveServices

variable {E : Type}

/-! ## Calls -/

/-- The call of a listener that a moment notes. -/
def Moment.call? : Moment E → Option (ListenerTag × Callback E)
  | .called tag callback _ => some (tag, callback)
  | _ => none

/-- The calls of listeners, the latest first: who was called, and what for. -/
def Hub.calls (h : Hub E) : List (ListenerTag × Callback E) := h.trace.filterMap Moment.call?

/-- A round of calls, the latest first. -/
def Callback.round (callback : Callback E) (listeners : List (Attached E)) :
    List (ListenerTag × Callback E) := (listeners.map fun l => (l.tag, callback)).reverse

/-- Silent moments note no call. -/
theorem Hub.calls_eq {h h' : Hub E}
    (ht : ∃ recent, h'.trace = recent ++ h.trace ∧ ∀ m ∈ recent, m.IsSilent) :
    h'.calls = h.calls := by
  obtain ⟨recent, ht, hsilent⟩ := ht
  have hnone : recent.filterMap Moment.call? = [] := by
    refine List.filterMap_eq_nil_iff.2 fun m hm => ?_
    have := hsilent m hm
    cases m with
    | called | releasing => exact absurd this id
    | _ => rfl
  rw [calls, ht, List.filterMap_append, hnone, List.nil_append, calls]

/-- The second hub comes after the first by these calls, the latest first, and by nothing else that
collections or iterators show. -/
structure Hub.Announces (calls : List (ListenerTag × Callback E)) (h h' : Hub E) : Prop where
  collections : h'.collections = h.collections
  traversals : h'.traversals = h.traversals
  calls : h'.calls = calls ++ h.calls

namespace Hub.Announces

variable {calls later : List (ListenerTag × Callback E)} {h h₁ h' : Hub E}

theorem refl (h : Hub E) : Announces [] h h := ⟨rfl, rfl, rfl⟩

/-- The calls of two steps are those of the first and then those of the second, the latest of them
first. -/
theorem trans (h₁₂ : Announces calls h h₁) (h₂₃ : Announces later h₁ h') :
    Announces (later ++ calls) h h' where
  collections := h₂₃.collections.trans h₁₂.collections
  traversals := h₂₃.traversals.trans h₁₂.traversals
  calls := by rw [h₂₃.calls, h₁₂.calls, List.append_assoc]

theorem collection (ha : Announces calls h h') (c : Nat) : h'.collection c = h.collection c := by
  rw [Hub.collection, ha.collections, Hub.collection]

end Hub.Announces

namespace Run

variable {α β : Type} {calls later : List (ListenerTag × Callback E)} {h h' : Hub E} {c : Nat}

/-- A run reaches a result from this hub, and these calls are all that comes of it. -/
def Announced (calls : List (ListenerTag × Callback E)) (x : Run E α) (h : Hub E) : Prop :=
  ∃ a h', x h = .ok (a, h') ∧ h.Announces calls h'

namespace Announced

theorem pure (a : α) : Announced [] (pure a) h := ⟨a, h, rfl, .refl h⟩

theorem bind {x : Run E α} {f : α → Run E β} (hx : Announced calls x h)
    (hf : ∀ a h', x h = .ok (a, h') → h.Announces calls h' → Announced later (f a) h') :
    Announced (later ++ calls) (x >>= f) h := by
  obtain ⟨a, h₁, h1, ha₁⟩ := hx
  obtain ⟨b, h₂, h2, ha₂⟩ := hf a h₁ h1 ha₁
  exact ⟨b, h₂, bind_eq_ok.2 ⟨a, h₁, h1, h2⟩, ha₁.trans ha₂⟩

/-- What follows a run that calls nobody. -/
theorem after {x : Run E α} {f : α → Run E β} (hx : Announced [] x h)
    (hf : ∀ a h', x h = .ok (a, h') → h.Announces [] h' → Announced calls (f a) h') :
    Announced calls (x >>= f) h := List.append_nil calls ▸ hx.bind hf

/-- A moment that is no call announces nothing. -/
theorem record {m : Moment E} (hm : m.call? = none) : Announced [] (record m) h :=
  ⟨(), _, rfl, rfl, rfl, List.filterMap_cons_none hm⟩

/-- A section that only looks at its collection. -/
theorem look {lock : Lock} {f : Collection E → α} (hl : lock ∉ (h.collection c).locks) :
    Announced [] (locked c lock (do Pure.pure (f (← collection c)))) h := by
  refine ⟨_, _, locked_pure_eq_ok.2 ⟨hl, rfl, rfl⟩, ?_, rfl, rfl⟩
  rw [Hub.update_update_of_inverse (fun k => by rw [List.erase_cons_head])]

end Announced

/-- A guarded call that did not end well is noted, and that is no call. -/
theorem announced_settle (what : Guarded) (name : String) (service : UInt64) (finish : Finish) :
    Announced [] (settle what name service finish) h := by
  cases finish with
  | done => exact .pure _
  | fail f => exact .after (.record rfl) fun _ _ _ _ => .pure _
  | panic message => exact .after (.record rfl) fun _ _ _ _ => .pure _

section Calls

variable [ServiceEntry E] {nested : Nested E}

/-- The call of a passive listener. -/
theorem announced_call {l : Attached E} {callback : Callback E} (hp : l.listener.IsPassive) :
    Announced [(l.tag, callback)] (call nested l callback) h := by
  refine ⟨(l.listener.respond (h.history l.tag) callback).finish, h.calling l callback, ?_,
    rfl, rfl, rfl⟩
  rw [call_eq, hp]
  rfl

/-- A round of calls of passive listeners. -/
theorem announced_callAll {what : Guarded} {service : UInt64} {callback : Callback E}
    {listeners : List (Attached E)} (hp : ∀ l ∈ listeners, l.listener.IsPassive) :
    Announced (callback.round listeners) (callAll nested what service callback listeners) h := by
  induction listeners generalizing h with
  | nil => exact .pure _
  | cons l listeners ih =>
    have hone : Announced ([] ++ [(l.tag, callback)]) (do
        let finish ← call nested l callback
        let _ ← settle what l.listener.name service finish : Run E Unit) h :=
      (announced_call (hp l List.mem_cons_self)).bind fun _ _ _ _ =>
        .after (announced_settle ..) fun _ _ _ _ => .pure _
    have hround : callback.round (l :: listeners) =
        callback.round listeners ++ [(l.tag, callback)] := by simp [Callback.round]
    rw [hround]
    -- how a listener finishes does not keep the others from being called
    exact hone.bind fun _ _ _ _ => ih fun l hl => hp l (List.mem_cons_of_mem _ hl)

/-- A round announces its callback to each lifecycle listener. -/
theorem announced_lifecycle {what : Guarded} {service : UInt64} {callback : Callback E}
    (hk : (h.collection c).Calm) :
    Announced (callback.round (h.collection c).lifecycleListeners)
      (lifecycleListeners c >>= callAll nested what service callback) h := by
  refine .after (.look (hk.free _ (by decide))) fun listeners h₁ hread _ => ?_
  rw [lifecycleListeners_ok hread]
  exact announced_callAll hk.lifecycle

/-- A round announces what it makes of the dependency to each state listener. -/
theorem announced_state {what : Guarded} {service : UInt64} {notice : Dependency → Callback E}
    (hk : (h.collection c).Calm) :
    Announced ((notice (h.collection c).dependency).round (h.collection c).stateListeners)
      (collection c >>= fun k =>
        stateListeners c >>= callAll nested what service (notice k.dependency)) h := by
  refine .after ⟨_, _, rfl, .refl h⟩ fun k h₁ hread _ => ?_
  cases hread
  refine .after (.look (hk.free _ (by decide))) fun listeners h₂ hread _ => ?_
  rw [stateListeners_ok hread]
  exact announced_callAll hk.state

/-- An admission announces a binding, and that the dependency is met if the entry is the first. -/
theorem announced_announceAdmission (hk : (h.collection c).Calm) (entry : E)
    (r : ServiceReference) (first : Bool) :
    Announced
      ((if first then (Callback.satisfied (h.collection c).dependency).round
          (h.collection c).stateListeners else []) ++
        (Callback.bind entry r).round (h.collection c).lifecycleListeners)
      (announceAdmission nested c entry r first) h := by
  refine (announced_lifecycle hk).bind fun _ h₁ _ ha => ?_
  split
  · rw [← ha.collection] at hk ⊢
    exact announced_state hk
  · exact .pure _

/-- A removal announces an unbinding, and that the dependency is unmet if the entry was the last. -/
theorem announced_announceRemoval (hk : (h.collection c).Calm) (holding : Holding E)
    (isLast : Bool) :
    Announced
      ((if isLast then (Callback.unsatisfied (h.collection c).dependency).round
          (h.collection c).stateListeners else []) ++
        (Callback.unbind holding.entry holding.reference).round
          (h.collection c).lifecycleListeners)
      (announceRemoval nested c ⟨holding, true, isLast⟩) h := by
  refine (announced_lifecycle hk).bind fun _ h₁ _ ha => ?_
  split
  · rw [← ha.collection] at hk ⊢
    exact announced_state hk
  · exact .pure _

end Calls

/-- The run of a passive release action. -/
theorem announced_runRelease {nested : Nested E} {release : Release E} (hp : release.IsPassive)
    (serial : Nat) (service : UInt64) :
    Announced [] (runRelease nested c serial service release) h := by
  refine ⟨release.response.finish, h.letting c serial service release.announced, ?_, rfl, rfl, rfl⟩
  rw [runRelease_eq, hp]
  rfl

/-- A passive release action announces nothing. -/
theorem announced_letGo [ServiceEntry E] {nested : Nested E} {holding : Holding E}
    (hp : ∀ release ∈ holding.release, release.IsPassive) :
    Announced [] (letGo nested c holding) h := by
  unfold letGo
  split
  · exact .pure _
  · next release hrelease =>
    refine .after ⟨_, _, rfl, .refl h⟩ fun k h₁ _ _ => ?_
    refine .after (announced_runRelease (hp release (by rw [hrelease]; rfl)) ..) fun _ h₂ _ _ => ?_
    refine .after (announced_settle ..) fun done h₃ _ _ => ?_
    split
    · exact .pure _
    · exact .after ⟨_, _, rfl, .refl h₃⟩ fun _ _ _ _ => .record rfl

/-- A refused entry is released, and nobody is called. -/
theorem afterAdmission_refused [ServiceEntry E] {nested : Nested E} {serial : Nat}
    {r : ServiceReference} {release : Option (Release E)}
    (hp : ∀ release', release = some release' → release'.IsPassive) : ∃ h',
    afterAdmission nested c r (.refused serial release) h = .ok (.unchanged, h') ∧
    h.Announces [] h' := by
  cases release with
  | none => exact ⟨h, rfl, .refl h⟩
  | some release =>
    obtain ⟨finish, h₁, hrun, ha₁⟩ : Announced [] (runRelease nested c serial r.id release) h :=
      announced_runRelease (hp release rfl) serial r.id
    obtain ⟨done, h₂, hsettle, ha₂⟩ :
        Announced [] (settle .release (h.collection c).factory.name r.id finish) h₁ :=
      announced_settle ..
    refine ⟨h₂, ?_, ha₁.trans ha₂⟩
    rw [afterAdmission, collection_bind]
    exact bind_eq_ok.2 ⟨finish, h₁, hrun, bind_eq_ok.2 ⟨done, h₂, hsettle, rfl⟩⟩

section Announcements

variable [ServiceEntry E] (nested : Nested E) (hk : (h.collection c).Calm)
include hk

/-- What follows an admission comes to an end, with these calls. -/
theorem afterAdmission_admitted (entry : E) (r : ServiceReference) (first : Bool) : ∃ h',
    afterAdmission nested c r (.admitted entry first) h = .ok (.admitted, h') ∧
    h.Announces
      ((if first then (Callback.satisfied (h.collection c).dependency).round
          (h.collection c).stateListeners else []) ++
        (Callback.bind entry r).round (h.collection c).lifecycleListeners) h' := by
  obtain ⟨⟨⟩, h', hannounce, ha⟩ : Announced _ (announceAdmission nested c entry r first) h :=
    announced_announceAdmission hk entry r first
  exact ⟨h', bind_eq_ok.2 ⟨(), h', hannounce, rfl⟩, ha⟩

/-- What follows the removal of an entry that was stored comes to an end, with these calls. -/
theorem afterRemoval_stored {holding : Holding E}
    (hp : ∀ release ∈ holding.release, release.IsPassive) (isLast : Bool) : ∃ h',
    afterRemoval nested c ⟨holding, true, isLast⟩ h = .ok (.retracted, h') ∧
    h.Announces
      ((if isLast then (Callback.unsatisfied (h.collection c).dependency).round
          (h.collection c).stateListeners else []) ++
        (Callback.unbind holding.entry holding.reference).round
          (h.collection c).lifecycleListeners) h' := by
  obtain ⟨⟨⟩, h₁, hannounce, ha₁⟩ :
      Announced _ (announceRemoval nested c ⟨holding, true, isLast⟩) h :=
    announced_announceRemoval hk holding isLast
  obtain ⟨⟨⟩, h₂, hlet, ha₂⟩ : Announced [] (letGo nested c holding) h₁ := announced_letGo hp
  exact ⟨h₂, bind_eq_ok.2 ⟨(), h₁, hannounce, bind_eq_ok.2 ⟨(), h₂, hlet, rfl⟩⟩, ha₁.trans ha₂⟩

end Announcements

/-- An entry that the storage did not have is released, and nobody is called. -/
theorem afterRemoval_missing [ServiceEntry E] (nested : Nested E) {holding : Holding E}
    (hp : ∀ release ∈ holding.release, release.IsPassive) (isLast : Bool) : ∃ h',
    afterRemoval nested c ⟨holding, false, isLast⟩ h = .ok (.unchanged, h') ∧
    h.Announces [] h' := by
  obtain ⟨⟨⟩, h', hlet, ha⟩ : Announced [] (letGo nested c holding) h := announced_letGo hp
  exact ⟨h', bind_eq_ok.2 ⟨(), h, rfl, bind_eq_ok.2 ⟨(), h', hlet, rfl⟩⟩, ha⟩

end Run

/-! ## Upshots -/

/-- What comes of an event: the outcome, the services and entries afterwards, and the calls of
listeners, the latest first. -/
structure Upshot (E : Type) where
  result : Except Trouble Reconciled
  index : List (Holding E)
  storage : LiveSequence E
  calls : List (ListenerTag × Callback E)

namespace Upshot

/-- The answer to the event. -/
def answer (u : Upshot E) : Answer :=
  match u.result with
  | .ok outcome => .outcome outcome
  | .error (.failed failure) => .failed failure
  | .error (.panicked message) => .panicked message

/-- What comes of the event before anybody is called. -/
def unannounced (u : Upshot E) : Upshot E := { u with calls := [] }

end Upshot

/-- An answer that says that nothing came of an event: the collection is unchanged, the event was
not recognized, or there is no entry. -/
def Answer.isFutile : Answer → Bool
  | .outcome .unchanged | .failed (.unrecognizedEvent _) | .failed (.entryCreation _ _)
  | .panicked _ => true
  | _ => false

namespace Collection

/-- The collection after an event. -/
def after (k : Collection E) (u : Upshot E) : Collection E :=
  { k with index := u.index, storage := u.storage }

/-- An event after which all is as before. -/
def unmoved (k : Collection E) (result : Except Trouble Reconciled) : Upshot E :=
  ⟨result, k.index, k.storage, []⟩

theorem after_unmoved (k : Collection E) (result : Except Trouble Reconciled) :
    k.after (k.unmoved result) = k := rfl

variable [ServiceEntry E]

/-- What comes of an entry that was made for a service. -/
def joined (k : Collection E) (holding : Holding E) : Upshot E :=
  if (k.storage.append k.mode holding.entry).1 then {
    result := .ok .admitted
    index := (k.enter holding).index
    storage := (k.enter holding).storage
    calls :=
      (if k.dependency.mandatory && (k.enter holding).size == 1 then
        (Callback.satisfied k.dependency).round k.stateListeners else []) ++
      (Callback.bind holding.entry holding.reference).round k.lifecycleListeners }
  else k.unmoved (.ok .unchanged)

/-- What comes of an attempt to make an entry. -/
def received (k : Collection E) (serial : Nat) (r : ServiceReference) : Creation E → Upshot E
  | .failed f => k.unmoved (.error (.failed (.entryCreation r.id f.message)))
  | .panicked message => k.unmoved (.error (.panicked message))
  | .made entry release => k.joined ⟨serial, entry, r, release⟩

/-- What comes of a service that appears or is updated. -/
def offered (k : Collection E) (serial : Nat) (r : ServiceReference) : Upshot E :=
  if k.closed || k.hasIdentity r.id then k.unmoved (.ok .unchanged)
  else k.received serial r (k.factory.create serial r)

/-- What comes of it that a service is taken away. -/
def parted (k : Collection E) (holding : Holding E) : Upshot E :=
  if (k.storage.removeOne holding.entry).1 then {
    result := .ok .retracted
    index := (k.leave holding).index
    storage := (k.leave holding).storage
    calls :=
      (if k.dependency.mandatory && (k.leave holding).size == 0 then
        (Callback.unsatisfied k.dependency).round k.stateListeners else []) ++
      (Callback.unbind holding.entry holding.reference).round k.lifecycleListeners }
  else ⟨.ok .unchanged, (k.leave holding).index, (k.leave holding).storage, []⟩

/-- What comes of a service that disappears. -/
def withdrawn (k : Collection E) (id : UInt64) : Upshot E :=
  match Roster.find? Holding.id id k.index with
  | none => k.unmoved (.ok .unchanged)
  | some holding => k.parted holding

/-- What comes of an event, if this is the number of the next attempt. -/
def upshot (k : Collection E) (serial : Nat) (event : ServiceEvent) : Upshot E :=
  match Notification.ofKind? event.kind with
  | some .appeared | some .updated => k.offered serial event.reference
  | some .disappeared => k.withdrawn event.reference.id
  | none => k.unmoved (.error (.failed (.unrecognizedEvent event.display)))

variable {k : Collection E} {serial : Nat} {r : ServiceReference} {id : UInt64}

/-- A collection that is closed or has the service leaves an offer aside. -/
theorem offered_of_idle (hk : k.closed = true ∨ k.hasIdentity r.id = true) :
    k.offered serial r = k.unmoved (.ok .unchanged) := by
  rw [offered, if_pos (by simpa using hk)]

/-- A collection that is open and lacks the service has an entry made for it. -/
theorem offered_of_new (ho : k.closed = false) (hn : k.hasIdentity r.id = false) :
    k.offered serial r = k.received serial r (k.factory.create serial r) := by
  rw [offered, if_neg (by simp [ho, hn])]

/-- A service that is not there is not withdrawn. -/
theorem withdrawn_of_absent (hn : k.hasIdentity id = false) :
    k.withdrawn id = k.unmoved (.ok .unchanged) := by
  rw [withdrawn, find?_eq_none_iff.2 hn]

/-- One that is there is parted from. -/
theorem withdrawn_of_found {holding : Holding E}
    (hf : Roster.find? Holding.id id k.index = some holding) :
    k.withdrawn id = k.parted holding := by
  rw [withdrawn, hf]

/-! ### Futile events -/

/-- An offer whose answer says that it was futile left everything as it was. -/
theorem offered_of_futile (hf : (k.offered serial r).answer.isFutile = true) :
    ∃ result, k.offered serial r = k.unmoved result := by
  unfold offered at hf ⊢
  split
  · exact ⟨_, rfl⟩
  · next hnew =>
    rw [if_neg hnew] at hf
    cases hm : k.factory.create serial r with
    | failed f => exact ⟨_, rfl⟩
    | panicked message => exact ⟨_, rfl⟩
    | made entry release =>
      rw [hm] at hf
      have hf : (k.joined ⟨serial, entry, r, release⟩).answer.isFutile = true := hf
      show ∃ result, k.joined ⟨serial, entry, r, release⟩ = k.unmoved result
      unfold joined at hf ⊢
      split
      · next htaken =>
        rw [if_pos htaken] at hf
        cases hf
      · exact ⟨_, rfl⟩

/-- So did such a withdrawal, where the equality of entries is an equivalence. -/
theorem withdrawn_of_futile (hs : k.Sound) (heq : k.factory.EntriesEquivalent)
    (hf : (k.withdrawn id).answer.isFutile = true) :
    ∃ result, k.withdrawn id = k.unmoved result := by
  unfold withdrawn at hf ⊢
  split
  · exact ⟨_, rfl⟩
  · next holding hfound =>
    -- the storage has an entry of every service in the index, so this one was taken away
    have hstored := hs.removeOne_eq_true heq (List.mem_of_find?_eq_some hfound)
    simp only [hfound, parted, hstored, if_true] at hf
    cases hf

/-- **Futile events.** Nothing comes of an event that is answered neither with an admission nor
with a retraction. -/
theorem upshot_of_futile (hs : k.Sound) (heq : k.factory.EntriesEquivalent) {event : ServiceEvent}
    (hf : (k.upshot serial event).answer.isFutile = true) :
    ∃ result, k.upshot serial event = k.unmoved result := by
  unfold upshot at hf ⊢
  split
  · next hkind => exact offered_of_futile (by simpa only [hkind] using hf)
  · next hkind => exact offered_of_futile (by simpa only [hkind] using hf)
  · next hkind => exact withdrawn_of_futile hs heq (by simpa only [hkind] using hf)
  · exact ⟨_, rfl⟩

end Collection

/-! ## Events in a hub -/

/-- The second hub comes after the first by what came of an event in a collection. -/
structure Hub.Heeds (c : Nat) (u : Upshot E) (h h' : Hub E) : Prop where
  length : h'.collections.length = h.collections.length
  here : h'.collection c = (h.collection c).after u
  elsewhere : ∀ d, d ≠ c → h'.collection d = h.collection d
  traversals : h'.traversals = h.traversals
  calls : h'.calls = u.calls ++ h.calls

namespace Hub.Heeds

variable {c : Nat} {u : Upshot E} {h h₁ h' : Hub E}

/-- A section, before anybody is called. -/
theorem of_section (hs : h.Section c h₁) (ht : h₁.traversals = h.traversals)
    (here : h₁.collection c = (h.collection c).after u) : h.Heeds c u.unannounced h₁ :=
  ⟨hs.length, here, hs.others, ht, calls_eq hs.trace⟩

/-- Calls that follow. -/
theorem followed (hh : h.Heeds c u h₁) {later : List (ListenerTag × Callback E)}
    (ha : h₁.Announces later h') : h.Heeds c { u with calls := later ++ u.calls } h' where
  length := by rw [ha.collections, hh.length]
  here := (ha.collection c).trans hh.here
  elsewhere d hd := (ha.collection d).trans (hh.elsewhere d hd)
  traversals := ha.traversals.trans hh.traversals
  calls := by rw [ha.calls, hh.calls, List.append_assoc]

theorem announces (hh : h.Heeds c u.unannounced h₁) (ha : h₁.Announces u.calls h') :
    h.Heeds c u h' := by
  have hall := hh.followed ha
  rw [Upshot.unannounced, List.append_nil] at hall
  exact hall

theorem silently (hh : h.Heeds c u h₁) (ha : h₁.Announces [] h') : h.Heeds c u h' :=
  hh.followed ha

/-- What came of an event while a command was at work on the collection is all that came of the
command. -/
theorem of_work (hc : c < h.collections.length) (hh : (h.engaged c).Heeds c u h₁) :
    h.Heeds c u (h₁.update c fun k => { k with users := k.users - 1 }) := by
  have hlength : h₁.collections.length = h.collections.length :=
    hh.length.trans length_collections_update
  have hengaged : (h.engaged c).collection c =
      { h.collection c with users := (h.collection c).users + 1 } := collection_update_self hc
  refine ⟨length_collections_update.trans hlength, ?_, fun d hd => ?_, hh.traversals, hh.calls⟩
  · rw [collection_update_self (hlength ▸ hc), hh.here, hengaged]
    rfl
  · rw [collection_update_of_ne (Ne.symm hd), hh.elsewhere d hd, engaged,
      collection_update_of_ne (Ne.symm hd)]

end Hub.Heeds

namespace Run

variable [ServiceEntry E] {nested : Nested E} {c : Nat} {h : Hub E}

/-- A service that appears or is updated. -/
theorem apply_offered (hk : (h.collection c).Calm) (r : ServiceReference) : ∃ h',
    apply nested c .appeared r h = .ok (((h.collection c).offered (h.attempts + 1) r).result, h') ∧
    h.Heeds c ((h.collection c).offered (h.attempts + 1) r) h' := by
  obtain ⟨result, h₁, hcons⟩ := consider_total (h := h) (hk.free .index (by decide))
    (hk.free .storage (by decide)) r
  have hcons' := consider_ok hcons
  have hsection := hcons'.toSection
  -- after the section the collection is as it was, and nobody is called
  have hidle {result : Except Trouble Reconciled} {h' : Hub E}
      (hu : (h.collection c).offered (h.attempts + 1) r = (h.collection c).unmoved result)
      (hr : apply nested c .appeared r h = .ok (result, h')) (ht : h₁.traversals = h.traversals)
      (hself : h₁.collection c = h.collection c) (ha : h₁.Announces [] h') : ∃ h',
      apply nested c .appeared r h =
        .ok (((h.collection c).offered (h.attempts + 1) r).result, h') ∧
      h.Heeds c ((h.collection c).offered (h.attempts + 1) r) h' := by
    rw [hu]
    exact ⟨h', hr, .announces (.of_section hsection ht hself) ha⟩
  have hnew (ho : (h.collection c).closed = false)
      (hn : (h.collection c).hasIdentity r.id = false) :
      (h.collection c).offered (h.attempts + 1) r = (h.collection c).received (h.attempts + 1) r
        ((h.collection c).factory.create (h.attempts + 1) r) := Collection.offered_of_new ho hn
  cases hcons' with
  | ignored hin =>
    exact hidle (Collection.offered_of_idle hin) (bind_eq_ok.2 ⟨_, _, hcons, rfl⟩) rfl rfl
      (.refl _)
  | failed ho hn hf =>
    have hu := hnew ho hn
    rw [hf] at hu
    exact hidle hu (bind_eq_ok.2 ⟨_, _, hcons, rfl⟩) rfl rfl (.refl _)
  | panicked ho hn hf =>
    have hu := hnew ho hn
    rw [hf] at hu
    exact hidle hu (bind_eq_ok.2 ⟨_, _, hcons, rfl⟩) rfl rfl (.refl _)
  | @refused recent entry release ho hn hm ht =>
    have hu := hnew ho hn
    rw [hm, Collection.received, Collection.joined, if_neg (by simp [ht])] at hu
    have hp (release' : Release E) (hr : release = some release') : release'.IsPassive :=
      hk.factory _ _ _ _ (hr ▸ hm)
    obtain ⟨h₂, hafter, ha⟩ := afterAdmission_refused hp
    exact hidle hu (bind_eq_ok.2 ⟨_, _, hcons, bind_eq_ok.2 ⟨_, h₂, hafter, rfl⟩⟩) rfl rfl ha
  | @admitted recent entry release ho hn hm ht =>
    let k' := (h.collection c).enter ⟨h.attempts + 1, entry, r, release⟩
    have hu := hnew ho hn
    rw [hm, Collection.received, Collection.joined, if_pos ht] at hu
    have hlen : c < (h.creation c r.id release.isSome).collections.length :=
      Hub.lt_length_of_open (h := h) ho
    have hself : ((h.creation c r.id release.isSome).setTo c k' (recent ++ h.past)).collection c =
        k' := Hub.collection_setTo_self hlen
    have hcalm : k'.Calm := (Collection.Takes.admitted ho hn hm ht).calm hk
    rw [← hself] at hcalm
    obtain ⟨h₂, hafter, ha⟩ := afterAdmission_admitted nested hcalm entry r
      ((h.collection c).dependency.mandatory && k'.size == 1)
    rw [hself] at ha
    rw [hu]
    exact ⟨h₂, bind_eq_ok.2 ⟨_, _, hcons, bind_eq_ok.2 ⟨_, h₂, hafter, rfl⟩⟩,
      .announces (.of_section hsection rfl hself) ha⟩

/-- A service that disappears. -/
theorem apply_withdrawn (hk : (h.collection c).Calm) (r : ServiceReference) : ∃ h',
    apply nested c .disappeared r h = .ok (((h.collection c).withdrawn r.id).result, h') ∧
    h.Heeds c ((h.collection c).withdrawn r.id) h' := by
  obtain ⟨result, h₁, hret⟩ := retract_total (h := h) (hk.free .index (by decide))
    (hk.free .storage (by decide)) r.id
  have hret' := retract_ok hret
  have hsection := hret'.toSection
  cases hret' with
  | absent hn =>
    rw [Collection.withdrawn_of_absent hn]
    refine ⟨_, bind_eq_ok.2 ⟨_, _, bind_eq_ok.2 ⟨_, _, hret, rfl⟩, rfl⟩, ?_⟩
    exact .announces (.of_section hsection rfl rfl) (.refl _)
  | @found recent holding hf =>
    let k' := (h.collection c).leave holding
    have hlen : c < h.collections.length := Hub.lt_length_of_index fun hnil => by
      rw [hnil] at hf
      cases hf
    have hself : (h.setTo c k' (recent ++ h.past)).collection c = k' :=
      Hub.collection_setTo_self hlen
    have hp : ∀ release ∈ holding.release, release.IsPassive :=
      hk.index holding (List.mem_of_find?_eq_some hf)
    let isLast := (h.collection c).dependency.mandatory && k'.size == 0
    rw [Collection.withdrawn_of_found hf]
    by_cases hstored : ((h.collection c).storage.removeOne holding.entry).1 = true
    · rw [Collection.parted, if_pos hstored]
      rw [hstored] at hret
      have hcalm : k'.Calm := (Collection.Drops.found hf).calm hk
      rw [← hself] at hcalm
      obtain ⟨h₂, hafter, ha⟩ := afterRemoval_stored nested hcalm hp isLast
      rw [hself] at ha
      exact ⟨h₂, bind_eq_ok.2 ⟨_, h₂, bind_eq_ok.2 ⟨_, _, hret, hafter⟩, rfl⟩,
        .announces (.of_section hsection rfl hself) ha⟩
    · rw [Collection.parted, if_neg hstored]
      rw [Bool.eq_false_iff.2 hstored] at hret
      obtain ⟨h₂, hafter, ha⟩ := afterRemoval_missing nested hp isLast
      exact ⟨h₂, bind_eq_ok.2 ⟨_, h₂, bind_eq_ok.2 ⟨_, _, hret, hafter⟩, rfl⟩,
        .announces (.of_section hsection rfl hself) ha⟩

/-- **Events.** What the importer of a calm collection does about an event. -/
theorem reconcile_upshot (hk : (h.collection c).Calm) (event : ServiceEvent) : ∃ h',
    reconcile nested c event h =
      .ok (((h.collection c).upshot (h.attempts + 1) event).result, h') ∧
    h.Heeds c ((h.collection c).upshot (h.attempts + 1) event) h' := by
  rw [reconcile, Collection.upshot]
  cases Notification.ofKind? event.kind with
  | none => exact ⟨h, rfl, rfl, rfl, fun _ _ => rfl, rfl, rfl⟩
  | some notification =>
    cases notification with
    | appeared | updated => exact apply_offered hk event.reference
    | disappeared => exact apply_withdrawn hk event.reference

/-- The answer to an event. -/
theorem answered_upshot {u : Upshot E} {h' : Hub E} {event : ServiceEvent}
    (hr : reconcile nested c event h = .ok (u.result, h')) :
    answered .outcome (ExceptT.mk (reconcile nested c event)) h = .ok (u.answer, h') := by
  refine bind_eq_ok.2 ⟨u.result, h', hr, ?_⟩
  unfold Upshot.answer
  cases u.result with
  | ok outcome => rfl
  | error t => cases t <;> rfl

/-- A failure or a panic is noted where nobody waits for an answer. -/
theorem serviceChanged_upshot {u : Upshot E} {h' : Hub E} {event : ServiceEvent}
    (hr : reconcile nested c event h = .ok (u.result, h')) : ∃ h₁,
    serviceChanged nested c event h = .ok ((), h₁) ∧ h'.Announces [] h₁ := by
  obtain ⟨⟨⟩, h₁, hnote, ha⟩ : Announced [] (match u.result with
      | .ok _ => pure ()
      | .error (.failed f) => Run.record (.eventFailure f.message)
      | .error (.panicked _) => Run.record .eventPanic : Run E Unit) h' := by
    split
    · exact .pure _
    · exact .record rfl
    · exact .record rfl
  exact ⟨h₁, bind_eq_ok.2 ⟨_, h', hr, hnote⟩, ha⟩

end Run

namespace Hub

variable [ServiceEntry E] {c : Nat} {h : Hub E}

/-- **Commands.** What comes of a command to a calm collection to process an event. -/
theorem run_event (hk : (h.collection c).Calm) (hd : (h.collection c).dropped = false)
    (event : ServiceEvent) (depth : Nat) :
    (∃ h', h.run (depth + 1) (.reconcile c event) =
        .ok (((h.collection c).upshot (h.attempts + 1) event).answer, h') ∧
      h.Heeds c ((h.collection c).upshot (h.attempts + 1) event) h') ∧
    ∃ h', h.run (depth + 1) (.serviceChanged c event) = .ok (.done, h') ∧
      h.Heeds c ((h.collection c).upshot (h.attempts + 1) event) h' := by
  have hc : c < h.collections.length := Nat.lt_of_not_le fun hle => by
    rw [collection_of_length_le hle] at hd
    cases hd
  have hengaged : (h.engaged c).collection c =
      { h.collection c with users := (h.collection c).users + 1 } := collection_update_self hc
  -- how many commands are at work on a collection is of no concern to what comes of the event
  let u := (h.collection c).upshot (h.attempts + 1) event
  obtain ⟨h₁, hrun, hh⟩ : ∃ h₁, Run.reconcile (Run.run depth) c event (h.engaged c) =
      .ok (u.result, h₁) ∧ (h.engaged c).Heeds c u h₁ := by
    have hcalm : ((h.engaged c).collection c).Calm := by
      rw [hengaged]
      exact hk.of_eq (fun _ => .inr) rfl rfl rfl rfl
    have hu : ((h.engaged c).collection c).upshot ((h.engaged c).attempts + 1) event = u := by
      rw [hengaged]
      rfl
    exact hu ▸ Run.reconcile_upshot hcalm event
  have hstays {g : Hub E} (hg : (h.engaged c).Heeds c u g) : (g.collection c).dropped = false := by
    rw [hg.here, hengaged]
    exact hd
  have hended {g : Hub E} (hg : (h.engaged c).Heeds c u g) (m : Moment E) (hm : m.call? = none) :
      h.Heeds c u ((g.update c fun k => { k with users := k.users - 1 }).record m) :=
    (Heeds.of_work hc hg).silently ⟨rfl, rfl, List.filterMap_cons_none hm⟩
  constructor
  · have hdone : Run.execute (Run.run depth) (.reconcile c event) h = _ :=
      Run.onWork_ok hd (Run.answered_upshot hrun) (hstays hh)
    exact ⟨_, run_ok hdone, hended hh _ rfl⟩
  · obtain ⟨h₂, hchanged, ha⟩ := Run.serviceChanged_upshot hrun
    have hdone : Run.execute (Run.run depth) (.serviceChanged c event) h = _ :=
      Run.onWork_ok hd (Run.bind_eq_ok.2 ⟨(), h₂, hchanged, rfl⟩) (hstays (hh.silently ha))
    exact ⟨_, run_ok hdone, hended (hh.silently ha) _ rfl⟩

end Hub

end LiveServices
