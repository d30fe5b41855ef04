import LiveServices.Proofs.Calm.Calls
import LiveServices.Proofs.Calm.Welcome
import LiveServices.Proofs.Index.Identified
import LiveServices.Proofs.Interleaving.Turns
import LiveServices.Proofs.Registry.Matching
import LiveServices.Proofs.Run.Glimpses

/-!
# Services do not interfere

All services of a collection share its storage, which may refuse an entry, and which removes
entries by their value. If the entries are told apart by their services, and so does the mode
(`Mode.TellsApart`), then the storage refuses nothing of a service that is not there and gives
back what was stored for it, so no service can get in the way of another. What
`Run.reconcile_turned` says of one event is then a matter of its service alone: the collection
takes the turn that `Terms.turn` says, and for all other services nothing changes.
-/

namespace LiveServices

variable {E : Type} [ServiceEntry E]

/-! ## Terms on which services do not interfere -/

/-- A mode that refuses the entries of a service only where one of that service is. -/
inductive Mode.TellsApart : Mode E → Prop where
  | list : TellsApart .list
  | set : TellsApart .set
  | sortedList (order : E → E → Ordering) : TellsApart (.sortedList order)
  | sortedSet {order : E → E → Ordering}
    (ho : ∀ a b, order a b = .eq → (ServiceEntry.reference a).id = (ServiceEntry.reference b).id) :
    TellsApart (.sortedSet order)

/-- The natural order of services. -/
theorem Mode.TellsApart.natural : TellsApart (E := E)
    (.sortedSet fun a b =>
      ServiceReference.naturalOrder (ServiceEntry.reference a) (ServiceEntry.reference b)) :=
  .sortedSet fun _ _ => ServiceReference.id_of_naturalOrder

/-- An entry of a service of which there is none has a place. -/
theorem Mode.TellsApart.exists_place {m : Mode E} (hm : m.TellsApart) {items : List E} {entry : E}
    (hequal : ∀ x ∈ items, (x == entry) = false)
    (hid : ∀ x ∈ items, (ServiceEntry.reference x).id ≠ (ServiceEntry.reference entry).id) :
    ∃ index, m.place? items entry = some index := by
  cases hm with
  | list => exact ⟨_, rfl⟩
  | set =>
    have hnone : items.any (· == entry) = false :=
      List.any_eq_false.2 fun x hx => Bool.eq_false_iff.1 (hequal x hx)
    exact ⟨_, by rw [Mode.place?, hnone]; rfl⟩
  | sortedList order => exact ⟨_, rfl⟩
  | @sortedSet order ho =>
    cases hs : Sequence.search (fun existing => order existing entry) items with
    | taken index =>
      obtain ⟨x, hx, heq⟩ := Sequence.exists_of_search_taken hs
      exact absurd (ho x entry heq) (hid x hx)
    | free index => exact ⟨index, by rw [Mode.place?, hs]⟩

/-- Whether there is an entry for a service depends on the service only. -/
def Factory.SucceedsByService (f : Factory E) : Prop :=
  ∀ n m r, (f.create n r).product?.isSome = (f.create m r).product?.isSome

/-- Whether there is a release action for a service depends on the service only. -/
def Factory.ReleasesByService (f : Factory E) : Prop :=
  ∀ n m r, (f.create n r).release?.isSome = (f.create m r).release?.isSome

namespace Collection

/-- The terms on which a collection takes services, where releases are counted or not. -/
def terms (releases : Bool) (k : Collection E) : Terms where
  makes r := (k.factory.create 0 r).product?.isSome
  releases r := releases && (k.factory.create 0 r).release?.isSome
  listeners := k.lifecycleListeners.map Attached.tag

/-- The reference under which a service is in the collection. -/
def stay (k : Collection E) (id : UInt64) : Option ServiceReference :=
  (Roster.find? Holding.id id k.index).map Holding.reference

/-- A collection that is open and calm, and in which services do not interfere. -/
structure Receptive (k : Collection E) : Prop where
  calm : k.Calm
  isOpen : k.closed = false
  present : k.dropped = false
  sound : k.Sound
  exact : k.Exact
  rising : k.index.Pairwise (Holding.id · < Holding.id ·)
  made : ∀ x ∈ k.index, ∃ n, k.factory.create n x.reference = .made x.entry x.release
  mode : k.mode.TellsApart
  factory : k.factory.EntriesIdentified

end Collection

/-! ## What is done in a calm collection -/

namespace Hub

variable {h h' : Hub E} {releases : Bool} {id : UInt64}

/-- Silent moments do nothing about a service. -/
theorem dealings_eq
    (ht : ∃ recent, h'.trace = recent ++ h.trace ∧ ∀ m ∈ recent, m.IsSilent) :
    h'.dealings releases id = h.dealings releases id := by
  obtain ⟨recent, ht, hm⟩ := ht
  have hnone : recent.filterMap (Moment.dealing? releases id) = [] :=
    List.filterMap_eq_nil_iff.2 fun m hmem => by
      have := hm m hmem
      cases m with
      | called | releasing => exact absurd this fun hno => hno
      | _ => rfl
  rw [dealings, ht, List.filterMap_append, hnone, List.nil_append, dealings]

theorem Aside.dealings (ha : h.Aside h') : h'.dealings releases id = h.dealings releases id := by
  obtain ⟨recent, ht, hm⟩ := ha.trace
  exact dealings_eq ⟨recent, ht, fun m hmem => (hm m hmem).isSilent⟩

theorem dealings_calling (l : Attached E) (callback : Callback E) :
    (h.calling l callback).dealings releases id =
      (callback.dealing? l.tag id).toList ++ h.dealings releases id := by
  cases hd : callback.dealing? l.tag id with
  | none => exact List.filterMap_cons_none hd
  | some dealing => exact List.filterMap_cons_some hd

theorem dealings_letting (c serial : Nat) (service : UInt64) (announced : Bool) :
    (h.letting c serial service announced).dealings releases id =
      (if releases = true ∧ service = id then [.released] else []) ++ h.dealings releases id := by
  show List.filterMap _ (_ :: h.trace) = _
  split
  · next hd => exact List.filterMap_cons_some (if_pos hd)
  · next hd => exact List.filterMap_cons_none (if_neg hd)

end Hub

namespace Run

variable {nested : Nested E} {h h' : Hub E} {c : Nat} {releases : Bool} {id : UInt64}

/-- A round of calls of passive listeners. -/
theorem dealings_callAll {what : Guarded} {service : UInt64} {callback : Callback E}
    {listeners : List (Attached E)} {u : Unit} (hp : ∀ a ∈ listeners, a.listener.IsPassive)
    (hr : callAll nested what service callback listeners h = .ok (u, h')) :
    h'.dealings releases id =
      (listeners.filterMap fun a => callback.dealing? a.tag id).reverse ++
        h.dealings releases id := by
  induction listeners generalizing h with
  | nil =>
    obtain ⟨-, rfl⟩ := pure_eq_ok.1 hr
    rfl
  | cons a listeners ih =>
    obtain ⟨_, h₁, hone, hrest⟩ := bind_eq_ok.1 hr
    obtain ⟨finish, h₂, hcall, hsettle⟩ := bind_eq_ok.1 hone
    -- a passive listener gives no commands
    have hcalled : h₂ = h.calling a callback := by
      rw [call_eq, hp a List.mem_cons_self] at hcall
      exact (pure_eq_ok.1 hcall).2.symm
    have hsettled : h₂.Aside h₁ := Keeps.bind (.settle ..) (fun _ => .pure _) hsettle
    rw [ih (fun b hb => hp b (List.mem_cons_of_mem _ hb)) hrest, hsettled.dealings, hcalled,
      Hub.dealings_calling, List.filterMap_cons]
    cases callback.dealing? a.tag id <;> simp

/-- The lifecycle listeners are told. -/
theorem dealings_lifecycle {what : Guarded} {service : UInt64} {callback : Callback E} {u : Unit}
    (hk : (h.collection c).Calm)
    (hr : (lifecycleListeners c >>= callAll nested what service callback) h = .ok (u, h')) :
    h'.dealings releases id = ((h.collection c).lifecycleListeners.filterMap fun a =>
      callback.dealing? a.tag id).reverse ++ h.dealings releases id := by
  obtain ⟨listeners, h₁, hread, hcall⟩ := bind_eq_ok.1 hr
  have hlooked : h.Aside h₁ := Keeps.lifecycleListeners c hread
  obtain rfl := lifecycleListeners_ok hread
  rw [dealings_callAll hk.lifecycle hcall, hlooked.dealings]

/-- What the state listeners are told is about no service. -/
theorem dealings_state {what : Guarded} {service : UInt64} {callback : Callback E} {u : Unit}
    (hk : (h.collection c).Calm) (hc : ∀ tag, callback.dealing? tag id = none)
    (hr : (stateListeners c >>= callAll nested what service callback) h = .ok (u, h')) :
    h'.dealings releases id = h.dealings releases id := by
  obtain ⟨listeners, h₁, hread, hcall⟩ := bind_eq_ok.1 hr
  have hlooked : h.Aside h₁ := Keeps.stateListeners c hread
  obtain rfl := stateListeners_ok hread
  rw [dealings_callAll hk.state hcall, hlooked.dealings]
  simp [hc]

/-- What is done when an admission is announced. -/
theorem dealings_announceAdmission {entry : E} {r : ServiceReference} {first : Bool} {u : Unit}
    (hk : (h.collection c).Calm)
    (hr : announceAdmission nested c entry r first h = .ok (u, h')) :
    h'.dealings releases id = (if r.id = id then ((h.collection c).lifecycleListeners.map
      fun a => .bound a.tag (ServiceEntry.reference entry) r).reverse else []) ++
        h.dealings releases id := by
  obtain ⟨_, h₁, hbind, hrest⟩ := bind_eq_ok.1 hr
  have hbound : h₁.dealings releases id = (if r.id = id then
      ((h.collection c).lifecycleListeners.map
        fun a => .bound a.tag (ServiceEntry.reference entry) r).reverse else []) ++
        h.dealings releases id := by
    rw [dealings_lifecycle hk hbind]
    split
    · next hid => simp [Callback.dealing?, hid]
    · next hid => simp [Callback.dealing?, hid]
  rw [← hbound]
  cases first with
  | false =>
    obtain ⟨-, rfl⟩ := pure_eq_ok.1 hrest
    rfl
  | true =>
    obtain ⟨_, h₂, hok, hh⟩ : Hushed (bind nested c entry r) h := hushed_lifecycle hk
    obtain ⟨-, rfl⟩ := Prod.mk.inj (Except.ok.inj (hok.symm.trans hbind))
    rw [← hh.collection] at hk
    exact dealings_state hk (fun _ => rfl) hrest

/-- What is done when a removal is announced. -/
theorem dealings_announceRemoval {holding : Holding E} {isLast : Bool} {u : Unit}
    (hk : (h.collection c).Calm)
    (hr : announceRemoval nested c ⟨holding, true, isLast⟩ h = .ok (u, h')) :
    h'.dealings releases id = (if holding.id = id then ((h.collection c).lifecycleListeners.map
      fun a => .unbound a.tag (ServiceEntry.reference holding.entry) holding.reference).reverse
      else []) ++ h.dealings releases id := by
  obtain ⟨_, h₁, hunbind, hrest⟩ := bind_eq_ok.1 hr
  have hunbound : h₁.dealings releases id = (if holding.id = id then
      ((h.collection c).lifecycleListeners.map fun a =>
        .unbound a.tag (ServiceEntry.reference holding.entry) holding.reference).reverse
      else []) ++ h.dealings releases id := by
    rw [dealings_lifecycle hk hunbind]
    unfold Holding.id
    split
    · next hid => simp [Callback.dealing?, hid]
    · next hid => simp [Callback.dealing?, hid]
  rw [← hunbound]
  cases isLast with
  | false =>
    obtain ⟨-, rfl⟩ := pure_eq_ok.1 hrest
    rfl
  | true =>
    obtain ⟨_, h₂, hok, hh⟩ : Hushed (unbind nested c holding.entry holding.reference) h :=
      hushed_lifecycle hk
    obtain ⟨-, rfl⟩ := Prod.mk.inj (Except.ok.inj (hok.symm.trans hunbind))
    rw [← hh.collection] at hk
    exact dealings_state hk (fun _ => rfl) hrest

/-- What is done when an entry is let go. -/
theorem dealings_letGo {holding : Holding E} {u : Unit}
    (hp : ∀ release ∈ holding.release, release.IsPassive)
    (hr : letGo nested c holding h = .ok (u, h')) :
    h'.dealings releases id =
      (if releases = true ∧ holding.id = id ∧ holding.release.isSome = true then [.released]
        else []) ++ h.dealings releases id := by
  cases hrelease : holding.release with
  | none =>
    rw [letGo, hrelease] at hr
    obtain ⟨-, rfl⟩ := pure_eq_ok.1 hr
    simp
  | some release =>
    rw [letGo, hrelease] at hr
    simp only [collection_bind] at hr
    obtain ⟨finish, h₁, hrun, hr⟩ := bind_eq_ok.1 hr
    rw [runRelease_eq, hp release hrelease] at hrun
    obtain ⟨-, rfl⟩ := pure_eq_ok.1 hrun
    have hrest : (h.letting c holding.serial holding.id release.announced).Aside h' := by
      refine Keeps.bind (.settle ..) (fun done => ?_) hr
      split
      · exact .pure _
      · exact .bind .get fun _ => .record trivial
    rw [hrest.dealings, Hub.dealings_letting]
    simp

end Run

/-! ## One event -/

namespace Collection

variable {k k' : Collection E} {holding : Holding E}

omit [ServiceEntry E] in
/-- A service that is in the collection is there under its reference. -/
theorem stay_isSome {id : UInt64} : (k.stay id).isSome = k.hasIdentity id := by
  rw [stay, Option.isSome_map]
  cases hf : Roster.find? Holding.id id k.index with
  | none => exact (find?_eq_none_iff.1 hf).symm
  | some holding =>
    rw [hasIdentity_iff.2 (id_of_find? hf ▸ List.mem_map_of_mem (List.mem_of_find?_eq_some hf))]
    rfl

omit [ServiceEntry E] in
theorem stay_eq_none_iff {id : UInt64} : k.stay id = none ↔ k.hasIdentity id = false := by
  rw [← stay_isSome, Option.isSome_eq_false_iff, Option.isNone_iff_eq_none]

/-- The states of a service after one entered. -/
theorem stay_enter (id : UInt64) : (k.enter holding).stay id =
    if holding.id = id then some holding.reference else k.stay id := by
  split
  · next hid =>
    subst hid
    rw [stay, enter, Roster.find?_insert_self]
    rfl
  · next hid => rw [stay, enter, Roster.find?_insert_of_ne hid, stay]

/-- The states of a service after one left. -/
theorem stay_leave (id : UInt64) : (k.leave holding).stay id =
    if holding.id = id then none else k.stay id := by
  split
  · next hid =>
    subst hid
    rw [stay, leave, Roster.find?_erase_self]
    rfl
  · next hid => rw [stay, leave, Roster.find?_erase_of_ne hid, stay]

namespace Receptive

/-- A collection that keeps its entries and listeners is still receptive. -/
theorem of_eq (hk : k.Receptive) (locks : k'.locks = k.locks)
    (lifecycle : k'.lifecycleListeners = k.lifecycleListeners)
    (state : k'.stateListeners = k.stateListeners) (factory : k'.factory = k.factory)
    (index : k'.index = k.index) (storage : k'.storage = k.storage) (mode : k'.mode = k.mode)
    (closed : k'.closed = k.closed) (dropped : k'.dropped = k.dropped) : k'.Receptive where
  calm := hk.calm.of_eq (fun lock hl => .inr (locks ▸ hl)) lifecycle state factory index
  isOpen := closed.trans hk.isOpen
  present := dropped.trans hk.present
  sound := hk.sound.of_sameEntries ⟨factory, index, by rw [storage]⟩
  exact := hk.exact.of_sameEntries ⟨factory, index, by rw [storage]⟩
  rising := index ▸ hk.rising
  made := by
    rw [index, factory]
    exact hk.made
  mode := mode ▸ hk.mode
  factory := factory ▸ hk.factory

/-- The storage takes the entry of a service that is not there. -/
theorem takes (hk : k.Receptive) {n : Nat} {r : ServiceReference} {entry : E}
    {release : Option (Release E)} (hn : k.hasIdentity r.id = false)
    (hm : k.factory.create n r = .made entry release) :
    (k.storage.append k.mode entry).1 = true := by
  have hentry : ServiceEntry.reference entry = r := hk.factory.carries hm
  have hid : ∀ x ∈ k.storage.items,
      (ServiceEntry.reference x).id ≠ (ServiceEntry.reference entry).id :=
    hk.exact.id_ne_of_not_hasIdentity (hentry ▸ hn)
  have hequal := hk.exact.not_any_equal hk.sound hk.factory ⟨n, r, release, hm⟩ (hentry ▸ hn)
  obtain ⟨index, hplace⟩ := hk.mode.exists_place hequal hid
  rw [LiveSequence.append, hplace]

/-- A service that is admitted leaves the collection receptive. -/
theorem enter (hk : k.Receptive) {n : Nat} {r : ServiceReference} {entry : E}
    {release : Option (Release E)} (hn : k.hasIdentity r.id = false)
    (hm : k.factory.create n r = .made entry release) :
    (k.enter ⟨n, entry, r, release⟩).Receptive where
  calm := (Takes.admitted hk.isOpen hn hm (hk.takes hn hm)).calm hk.calm
  isOpen := hk.isOpen
  present := hk.present
  sound := hk.sound.enter hn ⟨n, r, release, hm⟩ (hk.takes hn hm)
  exact := hk.exact.enter hn (hk.factory.carries hm) (hk.takes hn hm)
  rising := Roster.rising_insert hk.rising
  made x hx := by
    rcases Roster.mem_insert hx with rfl | hx
    · exact ⟨n, hm⟩
    · exact hk.made x hx
  mode := hk.mode
  factory := hk.factory

/-- So does one that is taken away. -/
theorem leave (hk : k.Receptive) {id : UInt64}
    (hf : Roster.find? Holding.id id k.index = some holding) : (k.leave holding).Receptive where
  calm := (Drops.found hf).calm hk.calm
  isOpen := hk.isOpen
  present := hk.present
  sound := hk.sound.leave hf
  exact := hk.exact.leave hk.sound hk.factory hf
  rising := hk.rising.filter _
  made x hx := hk.made x (List.mem_filter.1 hx).1
  mode := hk.mode
  factory := hk.factory

end Receptive

end Collection

/-- What comes of an event that the importer of a collection processes now. -/
def Hub.turn (releases : Bool) (c : Nat) (event : ServiceEvent) (h : Hub E) : Turn :=
  ((h.collection c).terms releases).turn ((h.collection c).stay event.reference.id) event

/-- The importer of a collection processed an event: its service took its turn, and for all others
nothing changed. -/
structure Hub.Turned (releases : Bool) (c : Nat) (event : ServiceEvent) (h : Hub E)
    (outcome : Option Reconciled) (h' : Hub E) : Prop where
  receptive : (h'.collection c).Receptive
  factory : (h'.collection c).factory = (h.collection c).factory
  lifecycle : (h'.collection c).lifecycleListeners = (h.collection c).lifecycleListeners
  outcome : outcome = (h.turn releases c event).outcome
  stay : ∀ id, (h'.collection c).stay id =
    if event.reference.id = id then (h.turn releases c event).stay else (h.collection c).stay id
  dealings : ∀ id, h'.dealings releases id =
    (if event.reference.id = id then (h.turn releases c event).dealings.reverse else []) ++
      h.dealings releases id

namespace Hub.Turned

variable {h h' : Hub E} {c : Nat} {releases : Bool} {event : ServiceEvent}
  {outcome : Option Reconciled}

/-- An event after which all is as before. -/
theorem of_idle (hk : (h'.collection c).Receptive) (hc : h'.collection c = h.collection c)
    (ht : ∀ id, h'.dealings releases id = h.dealings releases id)
    (hturn : h.turn releases c event = ⟨outcome, (h.collection c).stay event.reference.id, []⟩) :
    h.Turned releases c event outcome h' where
  receptive := hk
  factory := by rw [hc]
  lifecycle := by rw [hc]
  outcome := by rw [hturn]
  stay id := by
    rw [hturn, hc]
    split
    · next hid => rw [hid]
    · rfl
  dealings id := by
    rw [hturn, ht]
    simp

end Hub.Turned

namespace Run

variable {nested : Nested E} {h : Hub E} {c : Nat} {releases : Bool} {event : ServiceEvent}

/-- The listeners are told of a service that was admitted. -/
theorem admitted_turned {h₁ : Hub E} {n : Nat} {entry : E} {release : Option (Release E)}
    (hk : (h.collection c).Receptive)
    (hn : (h.collection c).hasIdentity event.reference.id = false)
    (hm : (h.collection c).factory.create n event.reference = .made entry release)
    (hentered : h₁.collection c = (h.collection c).enter ⟨n, entry, event.reference, release⟩)
    (hsilent : ∀ id, h₁.dealings releases id = h.dealings releases id)
    (hturn : h.turn releases c event = ⟨some .admitted, some event.reference,
      ((h.collection c).terms releases).listeners.map
        (.bound · event.reference event.reference)⟩) (becameReady : Bool) :
    ∃ h₂, announceAdmission nested c entry event.reference becameReady h₁ = .ok ((), h₂) ∧
      h.Turned releases c event (some .admitted) h₂ := by
  have hk₁ := hk.enter hn hm
  obtain ⟨⟨⟩, h₂, hannounce, hh⟩ :
      Hushed (announceAdmission nested c entry event.reference becameReady) h₁ :=
    hushed_announceAdmission (hentered ▸ hk₁.calm) entry event.reference _
  have hafter := hh.collection c
  rw [hentered] at hafter
  refine ⟨h₂, hannounce, ?_, ?_, ?_, ?_, fun id => ?_, fun id => ?_⟩
  · rw [hafter]
    exact hk₁
  · rw [hafter]
    rfl
  · rw [hafter]
    rfl
  · rw [hturn]
  · rw [hafter, hturn, Collection.stay_enter]
    rfl
  · rw [dealings_announceAdmission (hentered ▸ hk₁.calm) hannounce, hsilent, hturn, hentered,
      hk.factory.carries hm]
    simp [Collection.terms, Collection.enter, Function.comp_def]

/-- A service that is offered. -/
theorem appeared_turned (hk : (h.collection c).Receptive)
    (hs : (h.collection c).factory.SucceedsByService) (ho : event.IsOffer) :
    ∃ result h', apply nested c .appeared event.reference h = .ok (result, h') ∧
      h.Turned releases c event result.toOption h' := by
  obtain ⟨result, h₁, hcons⟩ := consider_total (h := h) (hk.calm.free .index (by decide))
    (hk.calm.free .storage (by decide)) event.reference
  have hcons' := consider_ok hcons
  have hsilent (id : UInt64) : h₁.dealings releases id = h.dealings releases id :=
    Hub.dealings_eq hcons'.toSection.trace
  -- whether there is an entry does not depend on the number of the attempt
  have hmakes : ((h.collection c).terms releases).makes event.reference =
      ((h.collection c).factory.create (h.attempts + 1) event.reference).product?.isSome :=
    hs ..
  have hnone (hn : (h.collection c).hasIdentity event.reference.id = false) :
      (h.collection c).stay event.reference.id = none := Collection.stay_eq_none_iff.2 hn
  cases hcons' with
  | ignored hin =>
    have hin : (h.collection c).hasIdentity event.reference.id = true := by
      rcases hin with hclosed | hin
      · rw [hk.isOpen] at hclosed
        cases hclosed
      · exact hin
    obtain ⟨r, hr⟩ := Option.isSome_iff_exists.1 (Collection.stay_isSome.trans hin)
    refine ⟨.ok .unchanged, _, bind_eq_ok.2 ⟨_, _, hcons, rfl⟩, .of_idle hk rfl hsilent ?_⟩
    rw [Hub.turn, hr, Terms.turn_offer_some ho]
    rfl
  | failed _ hn hf =>
    refine ⟨_, _, bind_eq_ok.2 ⟨_, _, hcons, rfl⟩, .of_idle hk rfl hsilent ?_⟩
    rw [Hub.turn, hnone hn, Terms.turn_offer_none ho, hmakes, hf]
    rfl
  | panicked _ hn hf =>
    refine ⟨_, _, bind_eq_ok.2 ⟨_, _, hcons, rfl⟩, .of_idle hk rfl hsilent ?_⟩
    rw [Hub.turn, hnone hn, Terms.turn_offer_none ho, hmakes, hf]
    rfl
  | refused _ hn hm ht =>
    rw [hk.takes hn hm] at ht
    cases ht
  | @admitted recent entry release _ hn hm ht _ =>
    have hlen : c < (h.creation c event.reference.id release.isSome).collections.length :=
      Hub.lt_length_of_open (h := h) hk.isOpen
    have hentered : ((h.creation c event.reference.id release.isSome).setTo c
        ((h.collection c).enter ⟨h.attempts + 1, entry, event.reference, release⟩)
        (recent ++ h.past)).collection c =
        (h.collection c).enter ⟨h.attempts + 1, entry, event.reference, release⟩ :=
      Hub.collection_setTo_self hlen
    generalize ((h.creation c event.reference.id release.isSome).setTo c
      ((h.collection c).enter ⟨h.attempts + 1, entry, event.reference, release⟩)
      (recent ++ h.past)) = h₁ at hcons hsilent hentered
    have hturn : h.turn releases c event = ⟨some .admitted, some event.reference,
        ((h.collection c).terms releases).listeners.map
          (.bound · event.reference event.reference)⟩ := by
      rw [Hub.turn, hnone hn, Terms.turn_offer_none ho, hmakes, hm]
      rfl
    obtain ⟨h₂, hannounce, hturned⟩ := admitted_turned hk hn hm hentered hsilent hturn _
    exact ⟨.ok .admitted, h₂, bind_eq_ok.2 ⟨_, h₁, hcons, bind_eq_ok.2 ⟨_, h₂,
      bind_eq_ok.2 ⟨_, h₂, hannounce, rfl⟩, rfl⟩⟩, hturned⟩

/-- The listeners are told of an entry that was taken away, and it is released. -/
theorem retracted_turned {h₁ : Hub E} {holding : Holding E} (hk : (h.collection c).Receptive)
    (hs : releases = true → (h.collection c).factory.ReleasesByService)
    (hf : Roster.find? Holding.id event.reference.id (h.collection c).index = some holding)
    (hleft : h₁.collection c = (h.collection c).leave holding)
    (hsilent : ∀ id, h₁.dealings releases id = h.dealings releases id)
    (hturn : h.turn releases c event = ⟨some .retracted, none,
      ((h.collection c).terms releases).listeners.map
        (.unbound · holding.reference holding.reference) ++
        if ((h.collection c).terms releases).releases holding.reference then [.released]
        else []⟩) (becameUnmet : Bool) :
    ∃ h₂ h₃, announceRemoval nested c ⟨holding, true, becameUnmet⟩ h₁ = .ok ((), h₂) ∧
      letGo nested c holding h₂ = .ok ((), h₃) ∧
      h.Turned releases c event (some .retracted) h₃ := by
  have hmem : holding ∈ (h.collection c).index := List.mem_of_find?_eq_some hf
  have hid : holding.id = event.reference.id := Collection.id_of_find? hf
  have hk₁ := hk.leave hf
  obtain ⟨⟨⟩, h₂, hannounce, hh₂⟩ :
      Hushed (announceRemoval nested c ⟨holding, true, becameUnmet⟩) h₁ :=
    hushed_announceRemoval (hleft ▸ hk₁.calm) _
  obtain ⟨⟨⟩, h₃, hlet, hh₃⟩ : Hushed (letGo nested c holding) h₂ :=
    hushed_letGo (hk.calm.index holding hmem)
  have hafter := (hh₂.trans hh₃).collection c
  rw [hleft] at hafter
  -- whether there is a release action does not depend on the number of the attempt
  have hreleases : ((h.collection c).terms releases).releases holding.reference =
      (releases && holding.release.isSome) := by
    obtain ⟨n, hm⟩ := hk.made holding hmem
    cases hb : releases with
    | false => rfl
    | true =>
      have hsame := hs hb 0 n holding.reference
      rw [hm] at hsame
      exact hsame
  refine ⟨h₂, h₃, hannounce, hlet, ?_, ?_, ?_, ?_, fun id => ?_, fun id => ?_⟩
  · rw [hafter]
    exact hk₁
  · rw [hafter]
    rfl
  · rw [hafter]
    rfl
  · rw [hturn]
  · rw [hafter, hturn, Collection.stay_leave, hid]
  · rw [dealings_letGo (hk.calm.index holding hmem) hlet,
      dealings_announceRemoval (hleft ▸ hk₁.calm) hannounce, hsilent, hturn, hleft,
      hk.exact.carried holding hmem, hreleases, hid]
    by_cases hsame : event.reference.id = id
    · cases releases <;> cases holding.release <;>
        simp [hsame, Collection.terms, Collection.leave, Function.comp_def]
    · simp [hsame]

/-- A service that is taken away. -/
theorem disappeared_turned (hk : (h.collection c).Receptive)
    (hs : releases = true → (h.collection c).factory.ReleasesByService)
    (hw : event.kind = .unregistering) :
    ∃ result h', apply nested c .disappeared event.reference h = .ok (result, h') ∧
      h.Turned releases c event result.toOption h' := by
  obtain ⟨result, h₁, hret⟩ := retract_total (h := h) (hk.calm.free .index (by decide))
    (hk.calm.free .storage (by decide)) event.reference.id
  have hret' := retract_ok hret
  have hsilent (id : UInt64) : h₁.dealings releases id = h.dealings releases id :=
    Hub.dealings_eq hret'.toSection.trace
  cases hret' with
  | absent hn =>
    have hnone : (h.collection c).stay event.reference.id = none :=
      Collection.stay_eq_none_iff.2 hn
    refine ⟨.ok .unchanged, _, bind_eq_ok.2 ⟨_, _, bind_eq_ok.2 ⟨_, _, hret, rfl⟩, rfl⟩,
      .of_idle hk rfl hsilent ?_⟩
    rw [Hub.turn, hnone, Terms.turn_withdrawal_none hw]
    rfl
  | @found recent holding hf _ =>
    have hmem : holding ∈ (h.collection c).index := List.mem_of_find?_eq_some hf
    have hstay : (h.collection c).stay event.reference.id = some holding.reference := by
      rw [Collection.stay, hf]
      rfl
    -- the entry is given back, so the listeners are told
    have hstored := hk.sound.removeOne_eq_true hk.factory.equivalent hmem
    have hlen : c < h.collections.length :=
      Hub.lt_length_of_index fun hnil => List.not_mem_nil (hnil ▸ hmem)
    have hleft : (h.setTo c ((h.collection c).leave holding) (recent ++ h.past)).collection c =
        (h.collection c).leave holding := Hub.collection_setTo_self hlen
    generalize h.setTo c ((h.collection c).leave holding) (recent ++ h.past) = h₁
      at hret hsilent hleft
    rw [hstored] at hret
    have hturn : h.turn releases c event = ⟨some .retracted, none,
        ((h.collection c).terms releases).listeners.map
          (.unbound · holding.reference holding.reference) ++
          if ((h.collection c).terms releases).releases holding.reference then [.released]
          else []⟩ := by
      rw [Hub.turn, hstay, Terms.turn_withdrawal_some hw]
    obtain ⟨h₂, h₃, hannounce, hlet, hturned⟩ :=
      retracted_turned hk hs hf hleft hsilent hturn _
    exact ⟨.ok .retracted, h₃, bind_eq_ok.2 ⟨_, h₃, bind_eq_ok.2 ⟨_, h₁, hret,
      bind_eq_ok.2 ⟨_, h₂, hannounce, bind_eq_ok.2 ⟨_, h₃, hlet, rfl⟩⟩⟩, rfl⟩, hturned⟩

/-- **Turns.** The importer of a receptive collection processes an event: its service takes its
turn. -/
theorem reconcile_turned (hk : (h.collection c).Receptive)
    (hs : (h.collection c).factory.SucceedsByService)
    (hr : releases = true → (h.collection c).factory.ReleasesByService) (event : ServiceEvent) :
    ∃ result h', reconcile nested c event h = .ok (result, h') ∧
      h.Turned releases c event result.toOption h' := by
  rw [reconcile]
  cases hkind : event.kind with
  | registered => exact appeared_turned hk hs (.inl hkind)
  | modified => exact appeared_turned hk hs (.inr hkind)
  | unregistering => exact disappeared_turned hk hr hkind
  | modifiedEndmatch =>
    refine ⟨_, h, rfl, .of_idle hk rfl (fun _ => rfl) ?_⟩
    rw [Hub.turn, Terms.turn_endmatch hkind]
    rfl

end Run

/-! ## Sequences of events -/

/-- The outcome that an answer tells of. -/
def Answer.reconciled? : Answer → Option Reconciled
  | outcome o => some o
  | _ => none

namespace Hub

variable {h g h' : Hub E} {c : Nat} {releases : Bool} {event : ServiceEvent}
  {outcome : Option Reconciled}

/-- Two hubs in which a collection has the same entries and does the same with them, and in which
the same was done before. -/
structure Alike (releases : Bool) (c : Nat) (h h' : Hub E) : Prop where
  factory : (h'.collection c).factory = (h.collection c).factory
  lifecycle : (h'.collection c).lifecycleListeners = (h.collection c).lifecycleListeners
  index : (h'.collection c).index = (h.collection c).index
  trace : ∀ id, h'.dealings releases id = h.dealings releases id

/-- A turn that is taken between two hubs is taken between two that are like them. -/
theorem Turned.of_alike (ht : g.Turned releases c event outcome h') (hg : h.Alike releases c g)
    {g' : Hub E} (hg' : h'.Alike releases c g') (hk : (g'.collection c).Receptive) :
    h.Turned releases c event outcome g' := by
  have hstay (id : UInt64) : (g.collection c).stay id = (h.collection c).stay id := by
    rw [Collection.stay, hg.index, Collection.stay]
  have hturn : g.turn releases c event = h.turn releases c event := by
    rw [turn, hstay, Collection.terms, hg.factory, hg.lifecycle]
    rfl
  refine ⟨hk, ?_, ?_, ?_, fun id => ?_, fun id => ?_⟩
  · rw [hg'.factory, ht.factory, hg.factory]
  · rw [hg'.lifecycle, ht.lifecycle, hg.lifecycle]
  · rw [ht.outcome, hturn]
  · rw [Collection.stay, hg'.index, ← Collection.stay, ht.stay, hturn, hstay]
  · rw [hg'.trace, ht.dealings, hturn, hg.trace]

/-- A command to process an event reaches a result. -/
theorem run_reconcile (hk : (h.collection c).Receptive)
    (hs : (h.collection c).factory.SucceedsByService)
    (hr : releases = true → (h.collection c).factory.ReleasesByService) (event : ServiceEvent)
    (depth : Nat) : ∃ answer h', h.run (depth + 1) (.reconcile c event) = .ok (answer, h') ∧
      h.Turned releases c event answer.reconciled? h' := by
  have hlen : c < h.collections.length := lt_length_of_open hk.isOpen
  -- the collection counts who is at work on it, which is of no concern to its entries
  have hwork (g : Hub E) (f : Nat → Nat) (hlen : c < g.collections.length)
      (hk : (g.collection c).Receptive) :
      ((g.update c fun k => { k with users := f k.users }).collection c).Receptive ∧
      g.Alike releases c (g.update c fun k => { k with users := f k.users }) := by
    have hself := collection_update_self
      (f := fun k : Collection E => { k with users := f k.users }) hlen
    refine ⟨?_, ?_, ?_, ?_, fun _ => rfl⟩
    · rw [hself]
      exact hk.of_eq rfl rfl rfl rfl rfl rfl rfl rfl rfl
    all_goals rw [hself]
  obtain ⟨hkg, hg⟩ := hwork h (· + 1) hlen hk
  let g := h.update c fun k => { k with users := k.users + 1 }
  obtain ⟨result, h₁, hrun, hturned⟩ : ∃ result h₁, Run.reconcile (Run.run depth) c event g =
      .ok (result, h₁) ∧ g.Turned releases c event result.toOption h₁ :=
    Run.reconcile_turned hkg (hg.factory ▸ hs) (hg.factory ▸ hr) event
  obtain ⟨hkg', hg'⟩ := hwork h₁ (· - 1) (lt_length_of_open hturned.receptive.isOpen)
    hturned.receptive
  let h₂ := h₁.update c fun k => { k with users := k.users - 1 }
  -- a collection that is not dropped is not disposed of
  have hdispose : Run.dispose (Run.run depth) c h₂ = .ok ((), h₂) := by
    rw [Run.dispose, Run.collection_bind, hkg'.present]
    rfl
  have hworked (answer : Answer) (hanswer : Run.answered .outcome
      (ExceptT.mk (Run.reconcile (Run.run depth) c event))
      (h.update c fun k => { k with users := k.users + 1 }) = .ok (answer, h₁)) :
      h.run (depth + 1) (.reconcile c event) = .ok (answer, h₂.record (.ended h₂.census)) := by
    refine run_ok ?_
    show Run.onWork (Run.run depth) c _ h = _
    rw [Run.onWork, Run.onCollection, Run.collection_bind, hk.present]
    exact Run.bind_eq_ok.2 ⟨(), _, rfl, Run.bind_eq_ok.2 ⟨answer, h₁, hanswer,
      Run.bind_eq_ok.2 ⟨(), h₂, rfl, Run.bind_eq_ok.2 ⟨(), h₂, hdispose, rfl⟩⟩⟩⟩
  have hend : h₁.Alike releases c (h₂.record (.ended h₂.census)) :=
    ⟨hg'.factory, hg'.lifecycle, hg'.index, fun id =>
      (List.filterMap_cons_none rfl).trans (hg'.trace id)⟩
  cases result with
  | ok outcome =>
    refine ⟨.outcome outcome, _, hworked _ (Run.bind_eq_ok.2 ⟨_, h₁, hrun, rfl⟩), ?_⟩
    exact hturned.of_alike hg hend hkg'
  | error trouble =>
    cases trouble with
    | failed failure =>
      refine ⟨.failed failure, _, hworked _ (Run.bind_eq_ok.2 ⟨_, h₁, hrun, rfl⟩), ?_⟩
      exact hturned.of_alike hg hend hkg'
    | panicked message =>
      refine ⟨.panicked message, _, hworked _ (Run.bind_eq_ok.2 ⟨_, h₁, hrun, rfl⟩), ?_⟩
      exact hturned.of_alike hg hend hkg'

end Hub

/-- The outcomes of those of these events that are about a service, by the answers to all. -/
def outcomesAbout (id : UInt64) (events : List ServiceEvent) (answers : List Answer) :
    List (Option Reconciled) :=
  ((events.zip answers).filter fun p => p.1.isAbout id).map fun p => p.2.reconciled?

/-- The importer of a collection processed a sequence of events: each service took its turns. -/
structure Hub.Processed (releases : Bool) (c : Nat) (events : List ServiceEvent) (h : Hub E)
    (answers : List Answer) (h' : Hub E) : Prop where
  receptive : (h'.collection c).Receptive
  stay : ∀ id, (h'.collection c).stay id = ((h.collection c).terms releases).stay
    ((h.collection c).stay id) (events.filter (·.isAbout id))
  outcomes : ∀ id, outcomesAbout id events answers = (((h.collection c).terms releases).turns
    ((h.collection c).stay id) (events.filter (·.isAbout id))).map Turn.outcome
  dealings : ∀ id, h'.dealings releases id = ((((h.collection c).terms releases).turns
    ((h.collection c).stay id) (events.filter (·.isAbout id))).flatMap Turn.dealings).reverse ++
      h.dealings releases id

namespace Hub

variable {h h' : Hub E} {c : Nat} {releases : Bool}

/-- **Courses.** A receptive collection processes every sequence of events, and each service takes
the turns that the events about it make by themselves. -/
theorem runAll_processed (hk : (h.collection c).Receptive)
    (hs : (h.collection c).factory.SucceedsByService)
    (hr : releases = true → (h.collection c).factory.ReleasesByService)
    (events : List ServiceEvent) (depth : Nat) :
    ∃ answers h', h.runAll (depth + 1) (events.map (.reconcile c)) = .ok (answers, h') ∧
      h.Processed releases c events answers h' := by
  induction events generalizing h with
  | nil => exact ⟨[], h, rfl, hk, fun _ => rfl, fun _ => rfl, fun _ => rfl⟩
  | cons event events ih =>
    obtain ⟨answer, h₁, hrun, ht⟩ := run_reconcile hk hs hr event depth
    obtain ⟨answers, h', hrest, hp⟩ := ih ht.receptive (ht.factory ▸ hs) (ht.factory ▸ hr)
    have hterms : (h₁.collection c).terms releases = (h.collection c).terms releases := by
      rw [Collection.terms, ht.factory, ht.lifecycle, Collection.terms]
    refine ⟨answer :: answers, h', runAll_cons_eq_ok.2 ⟨answer, h₁, answers, hrun, hrest, rfl⟩,
      hp.receptive, fun id => ?_, fun id => ?_, fun id => ?_⟩
    · rw [hp.stay, ht.stay, hterms]
      by_cases hid : event.reference.id = id
      · simp [ServiceEvent.isAbout, hid, Terms.stay, turn]
      · simp [ServiceEvent.isAbout, hid]
    · have hp := hp.outcomes id
      rw [ht.stay, hterms] at hp
      by_cases hid : event.reference.id = id
      · simp_all [outcomesAbout, ServiceEvent.isAbout, Terms.turns, turn, ht.outcome]
      · simp_all [outcomesAbout, ServiceEvent.isAbout]
    · rw [hp.dealings, ht.stay, hterms, ht.dealings]
      by_cases hid : event.reference.id = id
      · simp [ServiceEvent.isAbout, hid, Terms.turns, turn]
      · simp [ServiceEvent.isAbout, hid]

end Hub

/-! ## Interleavings -/

namespace Collection

variable {k k' : Collection E}

/-- A collection that is open and calm, and in which there is no service. -/
structure Vacant (k : Collection E) : Prop where
  calm : k.Calm
  isOpen : k.closed = false
  present : k.dropped = false
  index : k.index = []
  items : k.storage.items = []

theorem Vacant.receptive (hk : k.Vacant) (hm : k.mode.TellsApart)
    (hf : k.factory.EntriesIdentified) : k.Receptive where
  calm := hk.calm
  isOpen := hk.isOpen
  present := hk.present
  sound := .nil hk.index hk.items
  exact := .nil hk.index hk.items
  rising := hk.index ▸ .nil
  made _ hx := absurd (hk.index ▸ hx) List.not_mem_nil
  mode := hm
  factory := hf

omit [ServiceEntry E] in
theorem Vacant.stay (hk : k.Vacant) (id : UInt64) : k.stay id = none := by
  rw [Collection.stay, hk.index]
  rfl

omit [ServiceEntry E] in
theorem stay_isSome_iff {id : UInt64} : (k.stay id).isSome = true ↔ id ∈ k.identities := by
  rw [stay_isSome, hasIdentity_iff]

/-- Collections with the same services list them in the same order. -/
theorem Receptive.identities_eq (hk : k.Receptive) (hk' : k'.Receptive)
    (hs : ∀ id, k.stay id = k'.stay id) : k.identities = k'.identities := by
  refine Registry.eq_of_rising (List.pairwise_map.2 hk.rising) (List.pairwise_map.2 hk'.rising) ?_
  intro id
  rw [← stay_isSome_iff, ← stay_isSome_iff, hs]

end Collection

/-- The same, one service after the other. -/
def ServiceEvent.sorted : List ServiceEvent :=
  [.registered ⟨3, .empty⟩, .registered ⟨2, .empty⟩, .unregistering ⟨2, .empty⟩,
    .registered ⟨1, .empty⟩, .modified ⟨1, .empty⟩, .unregistering ⟨1, .empty⟩,
    .registered ⟨1, .empty⟩]

end LiveServices
