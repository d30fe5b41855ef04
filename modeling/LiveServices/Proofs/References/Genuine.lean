import LiveServices.Proofs.Deliveries.Rounds
import LiveServices.Proofs.References.Identity

/-!
# References from a registry

A registry makes a reference for each service that is registered and for each one whose properties
are replaced, and it makes them by `ServiceReference.new`. It passes on no others: a hub stays
`Hub.Genuine`, where every service in the registry and every service that anyone was told of by an
event has a reference that was made so. Commands may bring references of their own; these reach
collections and their listeners, but not the registry and none of its events.

Most steps touch neither the services nor the events (`Hub.Tacit`). The others are the changes of
the registry, the deliveries, and the calls of observers. Every operation is gone through, the
listeners may give any commands, and the induction is on the depth to which these are nested
(`Run.guards_run`).
-/

namespace LiveServices

variable {E : Type}

/-- A reference that `ServiceReference.new` made. -/
def ServiceReference.IsMade (r : ServiceReference) : Prop := ∃ properties, r = .new r.id properties

/-- A new reference was made of the properties that it was given. -/
theorem ServiceReference.isMade_new (id : UInt64) (properties : Properties) :
    (new id properties).IsMade := ⟨properties, rfl⟩

/-- A reference that was made so finds its identity, for the properties do not get to say it. -/
theorem ServiceReference.IsMade.carriesIdentity {r : ServiceReference} (hr : r.IsMade) :
    r.CarriesIdentity := by
  obtain ⟨properties, heq⟩ := hr
  rw [heq]
  exact carriesIdentity_new r.id properties

/-- The event of which a listener is told. -/
def Callback.event? : Callback E → Option ServiceEvent
  | .event e => some e
  | _ => none

/-- The event of which someone is told at this moment. -/
def Moment.event? : Moment E → Option ServiceEvent
  | .delivered _ event => some event
  | .called _ callback _ => callback.event?
  | _ => none

/-- A plain moment at which no subscription is told of anything tells nobody of an event. -/
theorem Moment.event?_of_plain {m : Moment E} (hm : m.IsPlain)
    (hr : m.report? = none) : m.event? = none := by
  cases m with
  | delivered => cases hr
  | called => exact hm.elim
  | _ => rfl

namespace Hub

variable {h h' : Hub E}

/-- The events of which anyone was told, the latest first. -/
def events (h : Hub E) : List ServiceEvent := h.trace.filterMap Moment.event?

/-- In the second hub are the services of the first, and nobody was told of an event since. -/
structure Tacit (h h' : Hub E) : Prop where
  services : h'.registry.services = h.registry.services
  events : h'.events = h.events

/-- The references of the services in the registry, and of those of which anyone was told, were
made by `ServiceReference.new`. -/
structure Genuine (h : Hub E) : Prop where
  services : ∀ r ∈ h.registry.services, r.IsMade
  events : ∀ e ∈ h.events, e.reference.IsMade

/-- Where nothing was registered and nothing told, all references are as genuine as before. -/
theorem Tacit.genuine (ht : h.Tacit h') (hg : h.Genuine) : h'.Genuine :=
  ⟨ht.services.symm ▸ hg.services, ht.events.symm ▸ hg.events⟩

/-- A moment at which nobody is told of a service that was not made so. -/
theorem Genuine.record {m : Moment E} (hm : ∀ e ∈ m.event?, e.reference.IsMade)
    (hg : h.Genuine) : (h.record m).Genuine where
  services := hg.services
  events e he := by
    obtain ⟨m', hm', htold⟩ := List.mem_filterMap.1 he
    rcases List.mem_cons.1 hm' with rfl | hm'
    · exact hm e htold
    · exact hg.events e (List.mem_filterMap.2 ⟨m', hm', htold⟩)

/-- The services after one of them was put there as a reference says that was made so. -/
theorem Genuine.put {r : ServiceReference} (hg : h.Genuine) (hr : r.IsMade) :
    ∀ s ∈ (h.registry.put r).services, s.IsMade := by
  intro s hs
  rcases Roster.mem_insert hs with rfl | hs
  · exact hr
  · exact hg.services s hs

/-- The beginning of a release. -/
theorem preserves_released (h : Hub E) (c serial : Nat) (service : UInt64) (census : Census)
    (announced : Bool) : Preserves Genuine h
      { h.record (.releasing c serial service census announced) with
        released := serial :: h.released } :=
  fun hg => ⟨hg.services, hg.events⟩

/-- A step beside the registry is tacit: what it adds to the trace is plain and reports nothing. -/
theorem Beside.tacit (hb : h.Beside h') : h.Tacit h' := by
  obtain ⟨recent, htrace, hplain⟩ := hb.aside.trace
  have hreports := hb.reports
  refine ⟨by rw [hb.registry], ?_⟩
  rw [Hub.reports, htrace, List.filterMap_append] at hreports
  have hnone := List.filterMap_eq_nil_iff.1 (List.append_left_eq_self.1 hreports)
  rw [events, htrace, List.filterMap_append, events]
  refine (congrArg (· ++ _) (List.filterMap_eq_nil_iff.2 fun m hm => ?_)).trans (List.nil_append _)
  exact Moment.event?_of_plain (hplain m hm) (hnone m hm)

instance : Rule (Preserves (Genuine (E := E))) :=
  ⟨fun hb => hb.tacit.genuine, fun h₁₂ h₂₃ hg => h₂₃ (h₁₂ hg)⟩

end Hub

namespace Run

open Hub (Genuine Tacit Preserves)

variable {α β : Type}

/-- If the hub is genuine before the run then it is genuine after it. -/
abbrev Guards (x : Run E α) : Prop := Keeps (Preserves Genuine) x

/-- A change of the hub that leaves the services alone and tells nobody of an event. -/
theorem guards_tacit {f : Hub E → α × Hub E} (hf : ∀ h : Hub E, h.Tacit (f h).2) :
    Guards (modifyGet f : Run E α) := by
  intro h a h' hr
  have hfh : f h = (a, h') := Except.ok.inj hr
  have hquiet := hf h
  rw [hfh] at hquiet
  exact hquiet.genuine

/-- The same of a change without a result. -/
theorem guards_modify {f : Hub E → Hub E} (hf : ∀ h : Hub E, h.Tacit (f h)) :
    Guards (modify f : Run E Unit) := guards_tacit (f := fun h => ((), f h)) hf

/-- Collections may have any references, as neither the services nor the events are in them. -/
theorem guards_update (c : Nat) (f : Collection E → Collection E) : Guards (update c f) :=
  guards_modify fun _ => ⟨rfl, rfl⟩

/-- A moment is recorded that tells of no event, or of one with a reference that was made by
`ServiceReference.new`. -/
theorem guards_record {m : Moment E} (hm : ∀ e ∈ m.event?, e.reference.IsMade) :
    Guards (record m) := by
  rintro h _ h' ⟨⟩
  exact .record hm

/-- What is done after a look at the hub may rely on that the hub is genuine. -/
theorem guards_get_bind {f : Hub E → Act E α}
    (hf : ∀ h : Hub E, h.Genuine → Guards (f h).run) : Guards (get >>= f).run :=
  fun h _ _ hr hg => hf h hg hr hg

/-- A service is put into the registry as a reference says that was made by
`ServiceReference.new`. -/
theorem guards_put {r : ServiceReference} (hr : r.IsMade) :
    Guards (modify fun h : Hub E => { h with registry := h.registry.put r } : Run E Unit) := by
  rintro h _ h' ⟨⟩ hg
  exact ⟨hg.put hr, hg.events⟩

/-- A service is taken out of the registry. -/
theorem guards_taken (id : UInt64) :
    Guards (modify fun h : Hub E => { h with registry := h.registry.remove id } : Run E Unit) := by
  rintro h _ h' ⟨⟩ hg
  exact ⟨fun s hs => hg.services s (List.mem_filter.1 hs).1, hg.events⟩

/-- A loop is safe if each of its rounds is; the rounds may rely on what the list has. -/
theorem guards_forM {γ : Type} {f : γ → Act E PUnit} :
    ∀ (l : List γ), (∀ a ∈ l, Guards (f a).run) → Guards (l.forM f).run
  | [], _ => .act_pure _
  | a :: l, hf =>
    .act_bind (hf a List.mem_cons_self) fun _ =>
      guards_forM l fun b hb => hf b (List.mem_cons_of_mem _ hb)

theorem guards_answered {f : α → Answer} {act : Act E α} (ha : Guards act.run) :
    Guards (answered f act) := by
  refine .bind ha fun r => ?_
  split
  · exact .pure _
  · exact .pure _
  · exact .pure _

theorem guards_onCollection (c : Nat) {body : Run E Answer} (hb : Guards body) :
    Guards (onCollection c body) := by
  refine .bind (.collection c) fun k => ?_
  split
  · exact .pure _
  · exact hb

theorem guards_withFilter (text : String) {f : ServiceFilter → Run E Answer}
    (hf : ∀ filter, Guards (f filter)) : Guards (withFilter text f) := by
  unfold withFilter
  split
  · exact hf _
  · exact .pure _

/-! ## Collections -/

theorem guards_storedSize (c : Nat) : Guards (storedSize c : Run E Nat) :=
  .locked c _ (.bind (.collection c) fun _ => .pure _)

/-- A collection is closed, which the registry does not see. -/
theorem guards_close (c : Nat) : Guards (close c : Run E _) :=
  .locked c _ (.bind (guards_update c _) fun _ => .bind (.collection c) fun _ => .pure _)

/-- What a collection had is forgotten, and the registry has what it had. -/
theorem guards_clear (c : Nat) : Guards (clear c : Run E Unit) :=
  .locked c _ (.bind (guards_update c _) fun _ => .locked c _ (guards_update c _))

theorem guards_attach (home : Nat) (l : Listener E) : Guards (attach home l) :=
  guards_tacit fun _ => ⟨rfl, rfl⟩

/-- The end of a subscription takes no service away. -/
theorem guards_unsubscribe (id : UInt64) : Guards (unsubscribe id : Run E Bool) :=
  guards_tacit fun _ => ⟨rfl, rfl⟩

theorem guards_addLifecycleListener (c : Nat) (l : Listener E) :
    Guards (addLifecycleListener c l) :=
  .bind (guards_attach c l) fun _ => .locked c _ (guards_update c _)

theorem guards_addStateListener (c : Nat) (l : Listener E) : Guards (addStateListener c l) :=
  .bind (guards_attach c l) fun _ => .locked c _ (guards_update c _)

/-- A collection that has a subscription ends it. -/
theorem guards_endSubscription (c : Nat) : Guards (endSubscription c : Run E Unit) := by
  refine .locked c _ (.bind (.collection c) fun k => ?_)
  split
  · exact .pure _
  · exact .bind (guards_update c _) fun _ => .bind (guards_unsubscribe _) fun _ => .pure _

variable [ServiceEntry E]

/-- An entry is stored, whatever reference it carries. -/
theorem guards_store (c : Nat) (entry : E) : Guards (store c entry) :=
  .locked c _ (.bind (.collection c) fun _ => .bind (guards_update c _) fun _ => .pure _)

theorem guards_unstore (c : Nat) (entry : E) : Guards (unstore c entry) :=
  .locked c _ (.bind (.collection c) fun _ => .bind (guards_update c _) fun _ => .pure _)

/-- The attempts and creations that are noted on the way to an admission tell of no event. -/
theorem guards_consider (c : Nat) (r : ServiceReference) : Guards (consider c r : Run E _) := by
  refine .locked c _ (.bind (.collection c) fun k => ?_)
  split
  · exact .pure _
  · refine .bind (guards_tacit fun _ => ⟨rfl, rfl⟩) fun serial =>
      .bind (guards_record nofun) fun _ => ?_
    split
    · exact .pure _
    · exact .pure _
    · refine .bind (guards_record nofun) fun _ => .bind (guards_store c _) fun taken => ?_
      split
      · exact .bind (guards_storedSize c) fun _ => .bind (guards_update c _) fun _ => .pure _
      · exact .pure _

/-- A service that leaves a collection stays in the registry. -/
theorem guards_retract (c : Nat) (id : UInt64) : Guards (retract c id : Run E _) := by
  refine .locked c _ (.bind (.collection c) fun k => ?_)
  split
  · exact .pure _
  · refine .bind (guards_update c _) fun _ => .bind (guards_unstore c _) fun _ => ?_
    exact .bind (guards_storedSize c) fun _ => .bind (.collection c) fun _ => .pure _

/-! ## Reading -/

theorem guards_ask (c : Nat) (question : Question E) : Guards (ask c question) :=
  .bind (.forM _ fun lock _ => .locked c lock (.pure _)) fun _ => .bind .get fun _ => .pure _

omit [ServiceEntry E] in
theorem guards_dropIter (name : String) : Guards (dropIter name : Run E Bool) := by
  refine .bind (.bind .get fun _ => .pure _) fun t => ?_
  split
  · exact .pure _
  · refine .bind (guards_update _ _) fun _ => ?_
    exact .bind (guards_modify fun _ => ⟨rfl, rfl⟩) fun _ => .pure _

omit [ServiceEntry E] in
/-- Iterators are kept beside the registry. -/
theorem guards_iter (c : Nat) (name : String) : Guards (iter c name : Run E Answer) := by
  refine .bind (.available c) fun r => ?_
  split
  · exact .pure _
  · refine .bind (guards_dropIter name) fun _ => .bind (.collection c) fun k => ?_
    exact .bind (guards_update c _) fun _ =>
      .bind (guards_modify fun _ => ⟨rfl, rfl⟩) fun _ => .pure _

omit [ServiceEntry E] in
/-- An iterator moves within its collection. -/
theorem guards_step (t : Traversal) : Guards (step t : Run E _) := by
  refine .bind (.available _) fun r => ?_
  split
  · exact .pure _
  · exact .bind (.collection _) fun _ => .bind (guards_update _ _) fun _ => .pure _

omit [ServiceEntry E] in
theorem guards_drain (t : Traversal) : Guards (drain t : Run E _) := by
  refine .bind (.available _) fun r => ?_
  split
  · exact .pure _
  · exact .bind (.collection _) fun _ => .bind (guards_update _ _) fun _ => .pure _

omit [ServiceEntry E] in
theorem guards_hasNext (t : Traversal) : Guards (hasNext t : Run E _) := by
  refine .bind (.available _) fun r => ?_
  split
  · exact .pure _
  · exact .bind (.collection _) fun _ => .pure _

omit [ServiceEntry E] in
theorem guards_withTraversal (name : String) {f : Traversal → Run E Answer}
    (hf : ∀ t, Guards (f t)) : Guards (withTraversal name f) := by
  refine .bind (.bind .get fun _ => .pure _) fun t => ?_
  split
  · exact hf _
  · exact .pure _

theorem guards_view (entry : Option E) : Guards (view entry) := .bind .get fun _ => .pure _

/-- An entry that is kept under a name is kept beside the registry. -/
theorem guards_hold (c index : Nat) (name : String) : Guards (hold c index name : Run E Answer) := by
  refine .bind (.available c) fun r => ?_
  split
  · exact .pure _
  · refine .bind (.collection c) fun k => ?_
    cases k.storage.items[index]? with
    | none => exact guards_view _
    | some e => exact .bind (guards_modify fun _ => ⟨rfl, rfl⟩) fun _ => guards_view _

theorem guards_probe (name : String) : Guards (probe name : Run E Answer) := by
  refine .bind .get fun h => ?_
  split
  · exact .pure _
  · exact .pure _

/-! ## Calls -/

section Nested

variable {nested : Nested E} (hn : ∀ command, Guards (nested command))
include hn

/-- A call of a listener that is told of no event, or of one about a service whose reference was
made by `ServiceReference.new`. -/
theorem guards_call (l : Attached E) {callback : Callback E}
    (hc : ∀ e ∈ callback.event?, e.reference.IsMade) : Guards (call nested l callback) :=
  .call (fun _ command _ => hn command) fun _ _ => .record hc

/-- Lifecycle listeners are told of entries, which are no events. -/
theorem guards_bind (c : Nat) (entry : E) (r : ServiceReference) : Guards (bind nested c entry r) :=
  .bind (.lifecycleListeners c) fun _ => .callAll _ _ fun l _ => guards_call hn l nofun

theorem guards_unbind (c : Nat) (entry : E) (r : ServiceReference) :
    Guards (unbind nested c entry r) :=
  .bind (.lifecycleListeners c) fun _ => .callAll _ _ fun l _ => guards_call hn l nofun

/-- State listeners are told of the dependency, which is no event either. -/
theorem guards_satisfied (c : Nat) (service : UInt64) : Guards (satisfied nested c service) :=
  .bind (.collection c) fun _ => .bind (.stateListeners c) fun _ =>
    .callAll _ _ fun l _ => guards_call hn l nofun

theorem guards_unsatisfied (c : Nat) (service : UInt64) : Guards (unsatisfied nested c service) :=
  .bind (.collection c) fun _ => .bind (.stateListeners c) fun _ =>
    .callAll _ _ fun l _ => guards_call hn l nofun

/-- What was admitted is announced by rounds of callbacks, and what was refused is released. -/
theorem guards_afterAdmission (c : Nat) (r : ServiceReference) (admission : Admission E) :
    Guards (afterAdmission nested c r admission) := by
  cases admission with
  | ignored => exact .pure _
  | refused serial release =>
    cases release with
    | none => exact .pure _
    | some release =>
      refine .bind (.collection c) fun k => .bind ?_ fun finish =>
        .bind (.settle ..) fun _ => .pure _
      exact .runRelease (fun command _ => hn command) Hub.preserves_released ..
  | admitted entry first =>
    exact .bind (.announceAdmission_of_rounds (guards_bind hn ..) (guards_satisfied hn ..) _)
      fun _ => .pure _

/-- A service that is removed from a collection is announced by rounds of callbacks, and then its
entry is let go. -/
theorem guards_remove (c : Nat) (id : UInt64) : Guards (remove nested c id) := by
  refine .bind (guards_retract c id) fun removal => ?_
  cases removal with
  | none => exact .pure _
  | some removal =>
    refine .bind (.announceRemoval_of_rounds (guards_unbind hn ..) (guards_unsatisfied hn ..))
      fun _ => .bind ?_ fun _ => .pure _
    exact .letGo (fun _ _ command _ => hn command) Hub.preserves_released c

/-- A notification may carry any reference: it goes to a collection and its listeners, and no
further. -/
theorem guards_apply (c : Nat) (notification : Notification) (r : ServiceReference) :
    Guards (apply nested c notification r) := by
  have happeared : Guards (apply nested c .appeared r) := by
    refine .bind (guards_consider c r) fun result => ?_
    cases result with
    | error t => exact .pure _
    | ok admission => exact .bind (guards_afterAdmission hn c r admission) fun _ => .pure _
  cases notification with
  | appeared | updated => exact happeared
  | disappeared => exact .bind (guards_remove hn c r.id) fun _ => .pure _

/-- So may the event that the notification is read from. -/
theorem guards_reconcile (c : Nat) (event : ServiceEvent) : Guards (reconcile nested c event) := by
  unfold reconcile
  split
  · exact guards_apply hn ..
  · exact .pure _

/-- The importer notes a failure, which tells of no event. -/
theorem guards_serviceChanged (c : Nat) (event : ServiceEvent) :
    Guards (serviceChanged nested c event) := by
  refine .bind (guards_reconcile hn c event) fun outcome => ?_
  split
  · exact .pure _
  · exact guards_record nofun
  · exact guards_record nofun

/-- A collection is emptied by removals. -/
theorem guards_shutdown (c : Nat) : Guards (shutdown nested c) := by
  have hremoveAll (ids : List UInt64) : Guards (removeAll nested c ids) := by
    induction ids with
    | nil => exact .pure _
    | cons id ids ih => exact .bind (guards_remove hn c id) fun _ => .bind ih fun _ => .pure _
  refine .bind (guards_close c) fun live => .bind (hremoveAll live) fun count => ?_
  exact .bind (guards_clear c) fun _ => .pure _

/-! ## Deliveries -/

/-- The delivery of an event about a service whose reference was made by `ServiceReference.new`. -/
theorem guards_deliver (s : Subscription E) {event : ServiceEvent} (he : event.reference.IsMade) :
    Guards (deliver nested s event).run := by
  have hmade : ∀ e ∈ (Callback.event event : Callback E).event?, e.reference.IsMade :=
    fun e h => Option.some.inj h ▸ he
  refine .act_bind (.act_lift (guards_modify fun _ => ⟨rfl, rfl⟩)) fun _ =>
    .act_bind (.act_lift (guards_record hmade)) fun _ => ?_
  unfold tell
  split
  · exact .act_lift (guards_serviceChanged hn ..)
  · refine .act_bind (.act_lift (guards_call hn _ hmade)) fun finish => ?_
    split
    · exact .act_throw _
    · exact .act_pure _
    · exact .act_pure _

/-- So is its delivery to all subscriptions that want it. -/
theorem guards_deliverAll {event : ServiceEvent} (he : event.reference.IsMade)
    (wants : ServiceFilter → Bool) : Guards (deliverAll nested event wants).run :=
  guards_get_bind fun _ _ => guards_forM _ fun s _ => guards_deliver hn s he

/-- The registry makes the reference of a new service, puts it among the services, and tells of
it. -/
theorem guards_register (properties : Properties) : Guards (register nested properties).run := by
  intro h a h' hr hg
  have hmade : (ServiceReference.new h.registry.nextService properties).IsMade :=
    ServiceReference.isMade_new ..
  rw [register_eq] at hr
  exact Keeps.act_bind (guards_deliverAll hn hmade _) (fun _ => .act_pure _) hr
    ⟨hg.put hmade, hg.events⟩

/-- It makes another one when the properties are replaced, and tells of that one twice. -/
theorem guards_setProperties (id : UInt64) (properties : Properties) :
    Guards (setProperties nested id properties).run := by
  refine guards_get_bind fun h _ => ?_
  split
  · exact .act_throw _
  · have hmade : (ServiceReference.new id properties).IsMade := ServiceReference.isMade_new ..
    refine .act_bind (.act_lift (guards_put hmade)) fun _ => ?_
    exact .act_bind (guards_deliverAll hn hmade _) fun _ =>
      .act_bind (guards_deliverAll hn hmade _) fun _ => .act_pure _

/-- A service that is taken away is told of by the reference that the registry had, which was made
so. -/
theorem guards_unregister (id : UInt64) : Guards (unregister nested id).run := by
  refine guards_get_bind fun h hg => ?_
  split
  · exact .act_throw _
  · next service hfound =>
    have hmade : service.IsMade := hg.services service (List.mem_of_find?_eq_some hfound)
    exact .act_bind (.act_lift (guards_taken id)) fun _ => guards_deliverAll hn hmade _

/-- The services that a new subscription is told of are in the registry. -/
theorem guards_subscribe (filter : ServiceFilter) (target : Target E) :
    Guards (subscribe nested filter target).run := by
  refine .act_bind (.act_lift (guards_tacit fun _ => ⟨rfl, rfl⟩)) fun s =>
    guards_get_bind fun h hg => .act_bind (guards_forM _ fun r hr => ?_) fun _ => .act_pure _
  exact guards_deliver hn s (hg.services r (List.mem_filter.1 hr).1)

/-! ## The life of a collection -/

/-- A collection that is started subscribes to the registry, and so it is told of services there. -/
theorem guards_start (c : Nat) : Guards (start nested c).run := by
  have hbegin : Guards (begin nested c).run := by
    refine .act_bind (.act_lift (.collection c)) fun k => ?_
    split
    · exact .act_throw _
    · refine .act_bind (.act_lift (.isClosed c)) fun closed => ?_
      split
      · exact .act_throw _
      · exact .act_bind (guards_subscribe hn ..) fun _ => .act_lift (guards_update c _)
  refine .act_bind (.locked c _ hbegin) fun _ => .act_bind (.act_lift (.available c)) fun r => ?_
  split
  · exact .act_pure _
  · exact .act_throw _

theorem guards_destroy (c : Nat) : Guards (destroy nested c) :=
  .bind (guards_endSubscription c) fun _ => guards_shutdown hn c

/-- A collection that nobody uses any more may be destroyed. -/
theorem guards_dispose (c : Nat) : Guards (dispose nested c) := by
  refine .bind (.collection c) fun k => ?_
  split
  · exact .bind (guards_destroy hn c) fun _ => .pure _
  · exact .pure _

/-- A collection that is dropped is disposed of at once, or when the last work on it is done. -/
theorem guards_drop (c : Nat) : Guards (drop nested c) := by
  refine .bind (.collection c) fun k => ?_
  split
  · exact .pure _
  · exact .bind (guards_update c _) fun _ => .bind (guards_dispose hn c) fun _ => .pure _

/-- The work on a collection is counted outside of the registry. -/
theorem guards_onWork (c : Nat) {body : Run E Answer} (hb : Guards body) :
    Guards (onWork nested c body) :=
  guards_onCollection c (.bind (guards_update c _) fun _ => .bind hb fun _ =>
    .bind (guards_update c _) fun _ => .bind (guards_dispose hn c) fun _ => .pure _)

/-! ## Commands -/

/-- **Commands.** After any command the hub is genuine if it was before. -/
theorem guards_execute (command : Command E) : Guards (execute nested command) := by
  cases command with
  | register properties => exact guards_answered (guards_register hn properties)
  | setProperties id properties => exact guards_answered (guards_setProperties hn id properties)
  | unregister id => exact guards_answered (guards_unregister hn id)
  | getService id => exact .bind .get fun _ => .pure _
  | references text => exact guards_withFilter text fun filter => .bind .get fun _ => .pure _
  | registry => exact .bind .get fun _ => .pure _
  | addListener home text listener =>
    refine guards_withFilter text fun filter => .bind (guards_attach home listener) fun l => ?_
    exact guards_answered (guards_subscribe hn filter _)
  | removeListener id => exact .bind (guards_unsubscribe id) fun _ => .pure _
  | start c => exact guards_onWork hn c (guards_answered (guards_start hn c))
  | destroy c => exact guards_onWork hn c (.bind (guards_destroy hn c) fun _ => .pure _)
  | drop c => exact .bind (guards_drop hn c) fun _ => .pure _
  | ask c question => exact guards_onCollection c (guards_ask c question)
  | addLifecycleListener c l =>
    exact guards_onCollection c (.bind (guards_addLifecycleListener c l) fun _ => .pure _)
  | addStateListener c l =>
    exact guards_onCollection c (.bind (guards_addStateListener c l) fun _ => .pure _)
  | iter c name => exact guards_onCollection c (guards_iter c name)
  | tryNext name | next name =>
    refine guards_withTraversal name fun t => .bind (guards_step t) fun r => ?_
    split
    · exact guards_view _
    · exact .pure _
  | hasNext name =>
    exact guards_withTraversal name fun t => .bind (guards_hasNext t) fun _ => .pure _
  | drain name =>
    exact guards_withTraversal name fun t =>
      .bind (guards_drain t) fun _ => .bind .get fun _ => .pure _
  | iterRemove name => exact guards_withTraversal name fun _ => .pure _
  | dropIter name => exact .bind (guards_dropIter name) fun _ => .pure _
  | hold c index name => exact guards_onCollection c (guards_hold c index name)
  | probe name => exact guards_probe name
  | reconcile c event => exact guards_onWork hn c (guards_answered (guards_reconcile hn c event))
  | apply c notification r =>
    exact guards_onWork hn c (guards_answered (guards_apply hn c notification r))
  | serviceChanged c event =>
    exact guards_onWork hn c (.bind (guards_serviceChanged hn c event) fun _ => .pure _)
  | unreadable c name answer =>
    cases c with
    | none => exact .pure _
    | some c => exact guards_onCollection c (.pure _)

end Nested

/-- **Runs.** So it is at every depth to which listeners nest their commands. -/
theorem guards_run (depth : Nat) (command : Command E) : Guards (run depth command) := by
  induction depth generalizing command with
  -- without depth a command halts
  | zero => exact .throw _
  | succ depth ih =>
    refine .bind (guards_execute ih command) fun answer => .bind .get fun h => ?_
    exact .bind (guards_record nofun) fun _ => .pure _

end Run

namespace Hub

/-- A hub in which nothing happened yet is genuine. -/
theorem genuine_ofPlans (plans : List (Plan E)) : (ofPlans plans).Genuine := by
  refine ofPlans_induction (I := Genuine) plans ⟨nofun, nofun⟩ fun h plan _ hg => ?_
  rcases addCollection_eq h plan with ⟨k, -, hadd⟩ | hadd
  · rw [hadd]
    exact ⟨hg.services, hg.events⟩
  · rw [hadd]
    exact ⟨hg.services, hg.events⟩

/-- **Genuine references.** However commands come after one another, and whatever listeners do when
they are called, the registry has and passes on only references that were made by
`ServiceReference.new`. -/
theorem genuine_runAll [ServiceEntry E] {plans : List (Plan E)} {depth : Nat}
    {commands : List (Command E)} {answers : List Answer} {h : Hub E}
    (hr : (ofPlans plans).runAll depth commands = .ok (answers, h)) : h.Genuine :=
  Run.keeps_sequence (fun command _ => Run.guards_run depth command) hr (genuine_ofPlans plans)

end Hub

end LiveServices
