import LiveServices.Proofs.Run.Keeps
import Mathlib.Data.List.Induction

/-!
# What becomes of one service

What a collection makes of an event about a service depends on the service only, as long as the
storage refuses nothing: on whether it is in the collection, and under which reference
(`Terms.turn`). So the events about one service have a course of their own (`Terms.stay`,
`Terms.turns`), and the service is in the collection in the end exactly if it was admitted after
it was taken away last (`Terms.stay_isSome_iff`).
-/

namespace LiveServices

/-- Something that is done about a service. -/
inductive Dealing where
  /-- A listener was told that an entry, which stands for a service, was added. -/
  | bound (listener : ListenerTag) (entry reference : ServiceReference)
  /-- A listener was told that an entry was taken away. -/
  | unbound (listener : ListenerTag) (entry reference : ServiceReference)
  /-- The release action of an entry began. -/
  | released

/-- What a call of a listener does about a service. -/
def Callback.dealing? [ServiceEntry E] (listener : ListenerTag) (id : UInt64) :
    Callback E → Option Dealing
  | .bind entry r =>
    if r.id = id then some (.bound listener (ServiceEntry.reference entry) r) else none
  | .unbind entry r =>
    if r.id = id then some (.unbound listener (ServiceEntry.reference entry) r) else none
  | _ => none

/-- What is done about a service at this moment; releases are counted or not. -/
def Moment.dealing? [ServiceEntry E] (releases : Bool) (id : UInt64) : Moment E → Option Dealing
  | .called listener callback _ => callback.dealing? listener id
  | .releasing _ _ service _ _ => if releases = true ∧ service = id then some .released else none
  | _ => none

/-- What was done about a service, the latest first; releases are counted or not. -/
def Hub.dealings [ServiceEntry E] (releases : Bool) (id : UInt64) (h : Hub E) : List Dealing :=
  h.trace.filterMap (Moment.dealing? releases id)

/-- Whether an event is about a service. -/
def ServiceEvent.isAbout (id : UInt64) (event : ServiceEvent) : Bool := event.reference.id == id

/-- An event on which a service is admitted if there is an entry for it. -/
def ServiceEvent.IsOffer (event : ServiceEvent) : Prop :=
  event.kind = .registered ∨ event.kind = .modified

/-- On which terms a collection takes services: for which there is an entry, and for which a
release action; and who is told. -/
structure Terms where
  makes : ServiceReference → Bool
  releases : ServiceReference → Bool
  listeners : List ListenerTag

/-- What comes of an event about a service: the outcome, absent if it is a failure; the reference
under which the service is in the collection afterwards, if it is; and what is done. -/
structure Turn where
  outcome : Option Reconciled
  stay : Option ServiceReference
  dealings : List Dealing

namespace Terms

variable (t : Terms)

/-- What comes of an event about a service that is in the collection under this reference. -/
def turn (stay : Option ServiceReference) (event : ServiceEvent) : Turn :=
  match Notification.ofKind? event.kind, stay with
  | none, _ => ⟨none, stay, []⟩
  | some .disappeared, none => ⟨some .unchanged, none, []⟩
  | some .disappeared, some r =>
    ⟨some .retracted, none,
      t.listeners.map (.unbound · r r) ++ if t.releases r then [.released] else []⟩
  | some _, some r => ⟨some .unchanged, some r, []⟩
  | some _, none =>
    if t.makes event.reference then
      ⟨some .admitted, some event.reference,
        t.listeners.map (.bound · event.reference event.reference)⟩
    else ⟨none, none, []⟩

/-- What comes of each of these events about a service. -/
def turns : Option ServiceReference → List ServiceEvent → List Turn
  | _, [] => []
  | stay, event :: events => t.turn stay event :: turns (t.turn stay event).stay events

/-- The reference under which a service is in the collection after these events about it. -/
def stay (stay : Option ServiceReference) (events : List ServiceEvent) : Option ServiceReference :=
  events.foldl (fun stay event => (t.turn stay event).stay) stay

variable {t} {stay : Option ServiceReference} {event : ServiceEvent}

/-- A service that is there is not offered again. -/
theorem turn_offer_some (ho : event.IsOffer) (r : ServiceReference) :
    t.turn (some r) event = ⟨some .unchanged, some r, []⟩ := by
  obtain ⟨kind, service⟩ := event
  rcases ho with rfl | rfl <;> rfl

/-- A service that is not there is admitted if there is an entry for it. -/
theorem turn_offer_none (ho : event.IsOffer) : t.turn none event =
    if t.makes event.reference then
      ⟨some .admitted, some event.reference,
        t.listeners.map (.bound · event.reference event.reference)⟩
    else ⟨none, none, []⟩ := by
  obtain ⟨kind, service⟩ := event
  rcases ho with rfl | rfl <;> rfl

/-- A service that is not there is not taken away. -/
theorem turn_withdrawal_none (hw : event.kind = .unregistering) :
    t.turn none event = ⟨some .unchanged, none, []⟩ := by
  obtain ⟨kind, service⟩ := event
  cases hw
  rfl

/-- A service that is there is taken away, and its entry released. -/
theorem turn_withdrawal_some (hw : event.kind = .unregistering) (r : ServiceReference) :
    t.turn (some r) event = ⟨some .retracted, none,
      t.listeners.map (.unbound · r r) ++ if t.releases r then [.released] else []⟩ := by
  obtain ⟨kind, service⟩ := event
  cases hw
  rfl

/-- An event that is no notification changes nothing. -/
theorem turn_endmatch (he : event.kind = .modifiedEndmatch) :
    t.turn stay event = ⟨none, stay, []⟩ := by
  obtain ⟨kind, service⟩ := event
  cases he
  rfl

/-- Whether a service is in the collection after an event about it. -/
theorem isSome_turn_stay : (t.turn stay event).stay.isSome = true ↔
    (event.IsOffer ∧ t.makes event.reference = true) ∨
      stay.isSome = true ∧ event.kind ≠ .unregistering := by
  obtain ⟨kind, r⟩ := event
  cases kind with
  | registered | modified =>
    cases stay with
    | none => cases hm : t.makes r <;> simp [turn, Notification.ofKind?, ServiceEvent.IsOffer, hm]
    | some r' => simp [turn, Notification.ofKind?]
  | modifiedEndmatch => simp [turn, Notification.ofKind?, ServiceEvent.IsOffer]
  | unregistering => cases stay <;> simp [turn, Notification.ofKind?, ServiceEvent.IsOffer]

/-- A service was offered, with an entry for it, after it was taken away last. -/
def IsOffered (t : Terms) (id : UInt64) (events : List ServiceEvent) : Prop :=
  ∃ early event late, events = early ++ event :: late ∧ event.reference.id = id ∧
    event.IsOffer ∧ t.makes event.reference = true ∧
    ∀ later ∈ late, later.reference.id = id → later.kind ≠ .unregistering

/-- The last event decides, or it leaves things as they were. -/
theorem isOffered_append_singleton {id : UInt64} {events : List ServiceEvent}
    {last : ServiceEvent} : t.IsOffered id (events ++ [last]) ↔
      (last.reference.id = id ∧ last.IsOffer ∧ t.makes last.reference = true) ∨
      t.IsOffered id events ∧ (last.reference.id = id → last.kind ≠ .unregistering) := by
  constructor
  · rintro ⟨early, event, late, heq, hid, hoffer, hmakes, hlate⟩
    rcases List.eq_nil_or_concat late with rfl | ⟨late, last', rfl⟩
    · obtain ⟨-, hone⟩ := List.append_inj' heq rfl
      obtain rfl := (List.cons.inj hone).1
      exact .inl ⟨hid, hoffer, hmakes⟩
    · rw [List.concat_eq_append] at heq hlate
      rw [← List.cons_append, ← List.append_assoc] at heq
      obtain ⟨hinit, hone⟩ := List.append_inj' heq rfl
      obtain rfl := (List.cons.inj hone).1
      exact .inr ⟨⟨early, event, late, hinit, hid, hoffer, hmakes,
        fun later hmem => hlate later (List.mem_append_left _ hmem)⟩,
        hlate last (List.mem_append_right _ List.mem_cons_self)⟩
  · rintro (⟨hid, hoffer, hmakes⟩ | ⟨⟨early, event, late, rfl, hid, hoffer, hmakes, hlate⟩, hno⟩)
    · exact ⟨events, last, [], rfl, hid, hoffer, hmakes, fun _ hmem =>
        absurd hmem List.not_mem_nil⟩
    · refine ⟨early, event, late ++ [last], by simp, hid, hoffer, hmakes, fun later hmem => ?_⟩
      rcases List.mem_append.1 hmem with hmem | hmem
      · exact hlate later hmem
      · obtain rfl := List.mem_singleton.1 hmem
        exact hno

/-- **Staying.** After events about several services one that was not in the collection is in it
exactly if it was offered, with an entry for it, after it was taken away last. -/
theorem stay_isSome_iff (id : UInt64) (events : List ServiceEvent) :
    (t.stay none (events.filter (·.isAbout id))).isSome = true ↔ t.IsOffered id events := by
  induction events using List.reverseRecOn with
  | nil => simp [Terms.stay, IsOffered]
  | append_singleton events last ih =>
    rw [isOffered_append_singleton, ← ih, List.filter_append]
    by_cases hid : last.reference.id = id
    · have habout : [last].filter (·.isAbout id) = [last] := by simp [ServiceEvent.isAbout, hid]
      rw [habout, Terms.stay, List.foldl_append]
      exact isSome_turn_stay.trans (by simp [hid, Terms.stay])
    · have hother : [last].filter (·.isAbout id) = [] := by simp [ServiceEvent.isAbout, hid]
      rw [hother, List.append_nil]
      simp [hid]

end Terms

end LiveServices
