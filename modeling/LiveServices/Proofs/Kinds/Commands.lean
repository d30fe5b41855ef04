import LiveServices.Proofs.Kinds.Agreement

/-!
# Commands that agree

Every command agrees with itself in two hubs whose collections are akin, with its answer as the
command has it: only the question for an inspection text shows the kind (`Agree.execute`). What
reads a collection does not look at its mode; what calls listeners tells them the same and so is
given the same commands; and what admits a service was decided before in the same way
(`Agree.consider`).
-/

namespace LiveServices.Run.Agree

variable {E α : Type} [ServiceEntry E] {nested : Nested E}

/-! ## Changes outside of the collections -/

section Changes

/-- The same change is made to the registry. -/
theorem onRegistry (f : Registry E → α × Registry E) :
    Agree Hub.Akin Eq (onRegistry f) (onRegistry f) :=
  .changeGet fun _ _ hs =>
    ⟨by rw [hs.registry], { hs with registry := congrArg (fun r => (f r).2) hs.registry }⟩

theorem unsubscribe (id : UInt64) : Agree Hub.Akin Eq (unsubscribe (E := E) id) (unsubscribe id) :=
  .onRegistry fun r => r.unsubscribe id

/-- A listener that is attached gets the same number. -/
theorem attach (home : Nat) (l : Listener E) : Agree Hub.Akin Eq (attach home l) (attach home l) :=
  .changeGet fun _ _ hs =>
    ⟨by rw [hs.listeners], { hs with listeners := congrArg (· + 1) hs.listeners }⟩

/-- The subscription of a collection is ended whatever its mode is. -/
theorem endSubscription (c : Nat) :
    Agree Hub.Akin Eq (endSubscription (E := E) c) (endSubscription c) := by
  refine .locked c _ (.collection c fun k k' hk => ?_)
  rw [hk.subscription]
  split
  · exact .pure rfl
  · exact .next (.update c fun _ _ ⟨m, hm⟩ => .intro m hm) fun _ =>
      .next (.unsubscribe _) fun _ => .pure rfl

theorem addLifecycleListener (c : Nat) (l : Listener E) :
    Agree Hub.Akin Eq (addLifecycleListener c l) (addLifecycleListener c l) :=
  .next (.attach c l) fun _ => .locked c _ (.update c fun _ _ ⟨m, hm⟩ => .intro m hm)

theorem addStateListener (c : Nat) (l : Listener E) :
    Agree Hub.Akin Eq (addStateListener c l) (addStateListener c l) :=
  .next (.attach c l) fun _ => .locked c _ (.update c fun _ _ ⟨m, hm⟩ => .intro m hm)

end Changes

/-! ## Reading -/

section Reading

/-- A question is answered in the same way, but for the kind where it asks for it. -/
theorem ask (c : Nat) (question : Question E) :
    Agree Hub.Akin (Command.ask c question).Answers (ask c question) (ask c question) := by
  have hlocks : Agree Hub.Akin Eq
      (question.locks.forM fun lock => Run.locked (E := E) c lock (Pure.pure ()))
      (question.locks.forM fun lock => Run.locked c lock (Pure.pure ())) :=
    .forM _ fun lock => .locked c lock (.pure rfl)
  refine .next hlocks fun _ => .bind .get fun h h' hs => .pure ?_
  rw [hs.released]
  exact (hs.collection c).answers h.released c question

theorem traversal? (name : String) :
    Agree Hub.Akin Eq (traversal? (E := E) name) (traversal? name) :=
  .bind .get fun _ _ hs => .pure (by rw [hs.traversals])

/-- An iterator is forgotten in both hubs, and its cursor with it. -/
theorem dropIter (name : String) : Agree Hub.Akin Eq (dropIter (E := E) name) (dropIter name) := by
  refine .next (.traversal? name) fun t => ?_
  split
  · exact .pure rfl
  · refine .next (.update _ fun _ _ ⟨m, hm⟩ => .intro m hm) fun _ => ?_
    refine .next (.change fun h h' hs => ?_) fun _ => .pure rfl
    exact { hs with traversals := by rw [hs.traversals] }

/-- An iterator is opened over the same items. -/
theorem iter (c : Nat) (name : String) :
    Agree Hub.Akin Eq (iter (E := E) c name) (iter c name) := by
  refine .next (.available c) fun checked => ?_
  split
  · exact .pure rfl
  · have hname (cursor : Nat) : Agree Hub.Akin Eq
        (do
          modify fun h : Hub E => { h with traversals := (name, ⟨c, cursor⟩) :: h.traversals }
          Pure.pure Answer.done : Run E Answer)
        (do
          modify fun h : Hub E => { h with traversals := (name, ⟨c, cursor⟩) :: h.traversals }
          Pure.pure Answer.done) := by
      refine .next (.change fun h h' hs => ?_) fun _ => .pure rfl
      exact { hs with traversals := by rw [hs.traversals] }
    exact .next (.dropIter name) fun _ => .reading c LiveSequence.openCursor hname

/-- An iterator moves past the same entry. The storages are the same, so the cursors are. -/
theorem step (t : Traversal) : Agree Hub.Akin Eq (step (E := E) t) (step t) := by
  refine .next (.available t.collection) fun checked => ?_
  split
  · exact .pure rfl
  · exact .reading t.collection (fun s => s.next t.cursor) fun _ => .pure rfl

/-- What is left for an iterator is the same. -/
theorem drain (t : Traversal) : Agree Hub.Akin Eq (drain (E := E) t) (drain t) := by
  refine .next (.available t.collection) fun checked => ?_
  split
  · exact .pure rfl
  · exact .reading t.collection (fun s => s.drain t.cursor) fun _ => .pure rfl

theorem hasNext (t : Traversal) : Agree Hub.Akin Eq (hasNext (E := E) t) (hasNext t) := by
  refine .next (.available t.collection) fun checked => ?_
  split
  · exact .pure rfl
  · exact .collection t.collection fun k k' hk => .pure (by rw [hk.storage])

theorem withTraversal (name : String) {f : Traversal → Run E Answer}
    (hf : ∀ t, Agree Hub.Akin Eq (f t) (f t)) :
    Agree Hub.Akin Eq (withTraversal name f) (withTraversal name f) := by
  refine .next (.traversal? name) fun t => ?_
  split
  · exact hf _
  · exact .pure rfl

theorem view (entry : Option E) : Agree Hub.Akin Eq (view entry) (view entry) :=
  .bind .get fun _ _ hs => .pure (by rw [hs.released])

/-- The entry at an index is the same, and it is kept under the same name. -/
theorem hold (c index : Nat) (name : String) :
    Agree Hub.Akin Eq (hold (E := E) c index name) (hold c index name) := by
  refine .next (.available c) fun checked => ?_
  split
  · exact .pure rfl
  · refine .collection c fun k k' hk => ?_
    rw [hk.storage]
    cases k.storage.items[index]? with
    | none => exact .view _
    | some e =>
      refine .next (.change fun h h' hs => ?_) fun _ => .view _
      exact { hs with kept := by rw [hs.kept] }

/-- An entry that is kept was released in both hubs or in neither. -/
theorem probe (name : String) : Agree Hub.Akin Eq (probe (E := E) name) (probe name) := by
  refine .bind .get fun h h' hs => ?_
  rw [hs.kept, hs.released]
  split
  · exact .pure rfl
  · exact .pure rfl

end Reading

/-- A collection that was dropped is so in both hubs. -/
theorem onCollection {Q : Hub E → Hub E → Prop} [Hub.Likeness Q] {R : Answer → Answer → Prop}
    (c : Nat) (hR : R .noCollection .noCollection) {body : Run E Answer}
    (hb : Agree Q R body body) : Agree Q R (onCollection c body) (onCollection c body) := by
  refine .collection c fun k k' hk => ?_
  rw [hk.dropped]
  exact .ite (.pure hR) hb

omit [ServiceEntry E] in
theorem withFilter {Q : Hub E → Hub E → Prop} (text : String) {f : ServiceFilter → Run E Answer}
    (hf : ∀ filter, Agree Q Eq (f filter) (f filter)) :
    Agree Q Eq (withFilter text f) (withFilter text f) := by
  unfold Run.withFilter
  split
  · exact hf _
  · exact .pure rfl

/-! ## Callees -/

/-- A guarded call that did not end well is noted, and such a note changes no collection. -/
theorem settle (what : Guarded) (name : String) (service : UInt64) (finish : Finish) :
    Agree Hub.Peers Eq (settle (E := E) what name service finish)
      (settle what name service finish) := by
  cases finish with
  | done => exact .pure rfl
  | fail f => exact .next (.note trivial) fun _ => .pure rfl
  | panic message => exact .next (.note trivial) fun _ => .pure rfl

theorem lifecycleListeners (c : Nat) :
    Agree Hub.Peers Eq (lifecycleListeners (E := E) c) (lifecycleListeners c) :=
  (look c _ fun _ _ hk => hk.lifecycleListeners.symm).peers (.lifecycleListeners c)

theorem stateListeners (c : Nat) :
    Agree Hub.Peers Eq (stateListeners (E := E) c) (stateListeners c) :=
  (look c _ fun _ _ hk => hk.stateListeners.symm).peers (.stateListeners c)

section Operations

variable (hn : ∀ command : Command E,
  Agree Hub.Peers command.Answers (nested command) (nested command))
include hn

/-- The same commands are given. A panic in one of them is the end of both. -/
theorem give {note : Command E → Answer → Run E Unit}
    (hnote : ∀ command a a', a.Akin a' →
      Agree Hub.Peers Eq (note command a) (note command a'))
    (finish : Finish) (commands : List (Command E)) :
    Agree Hub.Peers Eq (give nested note finish commands) (give nested note finish commands) := by
  induction commands with
  | nil => exact .pure rfl
  | cons command commands ih =>
    refine .bind (hn command) fun a a' ha => ?_
    cases ha.akin with
    | same =>
      split
      · exact .pure rfl
      · exact .next (hnote _ _ _ (.same _)) fun _ => ih
    -- what shows a collection is no panic
    | shown => exact .next (hnote _ _ _ (.shown ..)) fun _ => ih

/-- A release action runs. -/
theorem runRelease (c serial : Nat) (service : UInt64) (release : Release E) :
    Agree Hub.Peers Eq (runRelease nested c serial service release)
      (runRelease nested c serial service release) := fun h h' hs => by
  rw [runRelease_eq, runRelease_eq]
  have hmatched : (h.letting c serial service release.announced).Matched :=
    steps_matched.released h c serial service h.census release.announced hs.matched
  refine give hn (fun _ _ _ _ => .pure rfl) _ _ ⟨?_, hmatched⟩
  rw [Hub.letting, Hub.letting, hs.akin.census, hs.akin.released]
  exact { hs.akin.record (.same _) with released := rfl }

/-- A listener is called. It was told the same before, and it sees the same. -/
theorem call (l : Attached E) (callback : Callback E) :
    Agree Hub.Peers Eq (call nested l callback) (call nested l callback) := fun h h' hs => by
  rw [call_eq, call_eq, Hub.history, Hub.history, hs.akin.told]
  have hmatched : (h.calling l callback).Matched :=
    steps_matched.called h l.tag callback (h.sight l.home callback) hs.matched
  refine give hn (fun command a a' ha => ?_) _ _ ⟨?_, hmatched⟩
  · exact (record (.commanded _ _ ha)).peers (.record trivial)
  · rw [Hub.calling, Hub.calling, hs.akin.sight]
    exact hs.akin.record (.same _)

/-- The listeners of a collection are called in the same order, each under guard. -/
theorem callAll (what : Guarded) (service : UInt64) (callback : Callback E)
    (listeners : List (Attached E)) :
    Agree Hub.Peers Eq (callAll nested what service callback listeners)
      (callAll nested what service callback listeners) :=
  .forM listeners fun l => .next (call hn l callback) fun _ => .next (.settle ..) fun _ => .pure rfl

/-- A round of the lifecycle listeners, of either kind. -/
theorem bind_round (c : Nat) (what : Guarded) (service : UInt64) (callback : Callback E) :
    Agree Hub.Peers Eq (do Run.callAll nested what service callback (← Run.lifecycleListeners c))
      (do Run.callAll nested what service callback (← Run.lifecycleListeners c)) :=
  .next (.lifecycleListeners c) fun _ => callAll hn ..

/-- A round of the state listeners, of either kind. They are told of the dependency, which is the
same. -/
theorem state_round (c : Nat) (what : Guarded) (service : UInt64)
    (callback : Dependency → Callback E) :
    Agree Hub.Peers Eq
      (do
        let dependency := (← Run.collection c).dependency
        Run.callAll nested what service (callback dependency) (← Run.stateListeners c))
      (do
        let dependency := (← Run.collection c).dependency
        Run.callAll nested what service (callback dependency) (← Run.stateListeners c)) := by
  refine .collection c fun k k' hk => ?_
  rw [hk.dependency]
  exact .next (.stateListeners c) fun _ => callAll hn ..

/-! ## Reconciling -/

/-- What was admitted is announced. Whether it is the first was decided before, from the same
storage. -/
theorem announceAdmission (c : Nat) (entry : E) (r : ServiceReference) (first : Bool) :
    Agree Hub.Peers Eq (announceAdmission nested c entry r first)
      (announceAdmission nested c entry r first) :=
  .next (bind_round hn c ..) fun _ => .ite (state_round hn c _ _ Callback.satisfied) (.pure rfl)

/-- What is refused is released, by the factory that both collections have. -/
theorem afterAdmission (c : Nat) (r : ServiceReference) (admission : Admission E) :
    Agree Hub.Peers Eq (afterAdmission nested c r admission)
      (afterAdmission nested c r admission) := by
  cases admission with
  | ignored => exact .pure rfl
  | refused serial release =>
    cases release with
    | none => exact .pure rfl
    | some release =>
      refine .collection c fun k k' hk => ?_
      rw [hk.factory]
      exact .next (runRelease hn ..) fun _ => .next (.settle ..) fun _ => .pure rfl
  | admitted entry first => exact .next (announceAdmission hn ..) fun _ => .pure rfl

/-- What was taken away is announced, if the storage had it. -/
theorem announceRemoval (c : Nat) (removal : Removal E) :
    Agree Hub.Peers Eq (announceRemoval nested c removal) (announceRemoval nested c removal) :=
  .ite (.next (bind_round hn c ..) fun _ =>
    .ite (state_round hn c _ _ Callback.unsatisfied) (.pure rfl)) (.pure rfl)

/-- An entry is let go. What is noted of a failed release shows the entry, and the same entries were
released before. -/
theorem letGo (c : Nat) (holding : Holding E) :
    Agree Hub.Peers Eq (letGo nested c holding) (letGo nested c holding) := by
  unfold Run.letGo
  split
  · exact .pure rfl
  · refine .collection c fun k k' hk => ?_
    rw [hk.factory]
    refine .next (runRelease hn ..) fun _ => .next (.settle ..) fun _ => .ite (.pure rfl) ?_
    exact .bind .get fun h h' hs => hs.akin.released ▸ .note trivial

/-- A service is taken away: first the index and the storage change, and then listeners are told. -/
theorem remove (c : Nat) (id : UInt64) :
    Agree Hub.Peers Eq (remove nested c id) (remove nested c id) := by
  refine .next ((retract c id).peers (steps_matched.retracted c id)) fun removal => ?_
  split
  · exact .next (announceRemoval hn ..) fun _ => .next (letGo hn ..) fun _ => .pure rfl
  · exact .pure rfl

/-- Services are taken away one by one, and the same of them are counted. -/
theorem removeAll (c : Nat) (ids : List UInt64) :
    Agree Hub.Peers Eq (removeAll nested c ids) (removeAll nested c ids) := by
  induction ids with
  | nil => exact .pure rfl
  | cons id ids ih => exact .next (remove hn c id) fun _ => .next ih fun _ => .pure rfl

/-- A collection is closed before it is emptied, so the services that it is emptied of are the
same. -/
theorem shutdown (c : Nat) : Agree Hub.Peers Eq (shutdown nested c) (shutdown nested c) :=
  .next ((close c).peers (.close c)) fun live => .next (removeAll hn c live) fun _ =>
    .next ((clear c).peers (steps_matched.cleared c)) fun _ => .pure rfl

/-- A notification is applied. -/
theorem apply (c : Nat) (notification : Notification) (r : ServiceReference) :
    Agree Hub.Peers Eq (apply nested c notification r) (apply nested c notification r) := by
  have happeared : Agree Hub.Peers Eq (Run.apply nested c .appeared r)
      (Run.apply nested c .appeared r) := by
    refine .next (.consider c r) fun result => ?_
    split
    · exact .next (afterAdmission hn ..) fun _ => .pure rfl
    · exact .pure rfl
  cases notification with
  | appeared | updated => exact happeared
  | disappeared => exact .next (remove hn c r.id) fun _ => .pure rfl

/-- An event that is no notification is refused before any collection is looked at. -/
theorem reconcile (c : Nat) (event : ServiceEvent) :
    Agree Hub.Peers Eq (reconcile nested c event) (reconcile nested c event) := by
  unfold Run.reconcile
  split
  · exact apply hn ..
  · exact .pure rfl

/-- The importer notes a failure of its own and goes on. -/
theorem serviceChanged (c : Nat) (event : ServiceEvent) :
    Agree Hub.Peers Eq (serviceChanged nested c event) (serviceChanged nested c event) := by
  refine .next (reconcile hn c event) fun outcome => ?_
  split
  · exact .pure rfl
  · exact .note trivial
  · exact .note trivial

/-! ## Delivery -/

/-- An observer is not called under guard, so its finish decides in both hubs whether the delivery
goes on. -/
theorem tell (target : Target E) (event : ServiceEvent) :
    Agree Hub.Peers Eq (tell nested target event).run (tell nested target event).run := by
  cases target with
  | importer c => exact act_lift (serviceChanged hn c event)
  | observer l =>
    refine act_bind (act_lift (call hn l (.event event))) fun finish => ?_
    split
    · exact .pure rfl
    · exact .pure rfl
    · exact .pure rfl

/-- An event is delivered: the registry counts the delivery, and the target of the subscription is
told. -/
theorem deliver (s : Subscription E) (event : ServiceEvent) :
    Agree Hub.Peers Eq (deliver nested s event).run (deliver nested s event).run := by
  refine act_bind (act_lift (leaf (.change fun h h' hs => ?_) (.modified fun _ => ?_))) fun _ => ?_
  · exact { hs with registry := by rw [hs.registry] }
  · exact .of_eq rfl rfl rfl rfl (Nat.le_refl _) (Nat.le_refl _)
  · exact act_bind (act_lift (.note trivial)) fun _ => tell hn ..

/-- An event goes to the same subscriptions, for the registries are the same. -/
theorem deliverAll (event : ServiceEvent) (wants : ServiceFilter → Bool) :
    Agree Hub.Peers Eq (deliverAll nested event wants).run (deliverAll nested event wants).run :=
  act_get fun h h' hs => by
    rw [hs.akin.registry]
    exact act_forM _ fun s => deliver hn s event

/-- A service is registered under the same number and announced. -/
theorem register (properties : Properties) :
    Agree Hub.Peers Eq (register nested properties).run (register nested properties).run :=
  act_bind (act_lift ((onRegistry _).peers (.onRegistry _))) fun _ =>
    act_bind (deliverAll hn ..) fun _ => .pure rfl

/-- A service has new properties in both registries, and the same subscriptions are told that it was
modified or ceased to match. -/
theorem setProperties (id : UInt64) (properties : Properties) :
    Agree Hub.Peers Eq (setProperties nested id properties).run
      (setProperties nested id properties).run := by
  refine act_get fun h h' hs => ?_
  rw [hs.akin.registry]
  split
  · exact .pure rfl
  · refine act_bind (act_lift (leaf (.change fun h h' hs => ?_) (.modified fun _ => ?_)))
      fun _ => ?_
    · exact { hs with registry := by rw [hs.registry] }
    · exact .of_eq rfl rfl rfl rfl (Nat.le_refl _) (Nat.le_refl _)
    · exact act_bind (deliverAll hn ..) fun _ => act_bind (deliverAll hn ..) fun _ => .pure rfl

/-- A service is taken out of both registries, and the same subscriptions are told. -/
theorem unregister (id : UInt64) :
    Agree Hub.Peers Eq (unregister nested id).run (unregister nested id).run := by
  refine act_get fun h h' hs => ?_
  rw [hs.akin.registry]
  split
  · exact .pure rfl
  · refine act_bind (act_lift (leaf (.change fun h h' hs => ?_) (.modified fun _ => ?_)))
      fun _ => deliverAll hn ..
    · exact { hs with registry := by rw [hs.registry] }
    · exact .of_eq rfl rfl rfl rfl (Nat.le_refl _) (Nat.le_refl _)

/-- A subscription gets the same number, and the same services are reported to it. -/
theorem subscribe (filter : ServiceFilter) (target : Target E) :
    Agree Hub.Peers Eq (subscribe nested filter target).run
      (subscribe nested filter target).run := by
  refine act_bind (act_lift ((onRegistry _).peers (.onRegistry _))) fun s => ?_
  refine act_get fun h h' hs => ?_
  rw [hs.akin.registry]
  exact act_bind (act_forM _ fun r => deliver hn s (.registered r)) fun _ => .pure rfl

/-! ## The life of a collection -/

/-- A collection is subscribed with the filter of its dependency, which is the same. -/
theorem begin (c : Nat) : Agree Hub.Peers Eq (begin nested c).run (begin nested c).run := by
  refine act_collection c fun k k' hk => ?_
  rw [hk.subscription, hk.dependency]
  -- both refusals go on, in the type, to what follows them, so the end is stated first
  have hend : Agree Hub.Peers Eq (do
      let id ← Run.subscribe nested k.dependency.filter (.importer c)
      Run.update (E := E) c fun k => { k with subscription := some id } : Act E Unit).run
      (do
      let id ← Run.subscribe nested k.dependency.filter (.importer c)
      Run.update (E := E) c fun k => { k with subscription := some id } : Act E Unit).run := by
    refine act_bind (subscribe hn k.dependency.filter (.importer c)) fun id => ?_
    refine act_lift (.adjust c (fun _ _ ⟨m, hm⟩ => .intro m hm) fun _ => ?_)
    exact ⟨rfl, rfl, rfl, rfl, rfl, rfl, rfl, fun hk => hk⟩
  split
  · exact .pure rfl
  · refine act_bind (act_lift ((isClosed c).peers (.isClosed c))) fun closed => ?_
    split
    · exact .pure rfl
    · exact hend

/-- A collection is subscribed under its lock. Whether it is available then is read off the
storage. -/
theorem start (c : Nat) : Agree Hub.Peers Eq (start nested c).run (start nested c).run := by
  have hbegin : Agree Hub.Peers Eq (Run.locked c .subscription (Run.begin nested c).run)
      (Run.locked c .subscription (Run.begin nested c).run) :=
    .next ((acquire c _).peers (.acquire c _)) fun _ => .next (begin hn c) fun _ =>
      .next ((giveBack c _).peers (.giveBack c _)) fun _ => .pure rfl
  refine act_bind hbegin fun _ => ?_
  refine act_bind (act_lift ((available c).peers (.available c))) fun checked => ?_
  split
  · exact .pure rfl
  · exact .pure rfl

theorem destroy (c : Nat) : Agree Hub.Peers Eq (destroy nested c) (destroy nested c) :=
  .next ((endSubscription c).peers (.endSubscription c)) fun _ => shutdown hn c

/-- A collection that was dropped is destroyed, if it is subscribed and no command is at work on
it. -/
theorem dispose (c : Nat) : Agree Hub.Peers Eq (dispose nested c) (dispose nested c) := by
  refine .collection c fun k k' hk => ?_
  obtain ⟨m, hm⟩ := hk
  exact .ite (.next (destroy hn c) fun _ => .pure rfl) (.pure rfl)

/-- A collection is dropped once. -/
theorem drop (c : Nat) : Agree Hub.Peers Eq (drop nested c) (drop nested c) := by
  refine .collection c fun k k' hk => ?_
  rw [hk.dropped]
  refine .ite (.pure rfl) (.next ?_ fun _ => ?_)
  · refine .adjust c (fun _ _ ⟨m, hm⟩ => .intro m hm) fun _ => ?_
    exact ⟨rfl, rfl, rfl, rfl, rfl, rfl, rfl, id⟩
  · exact .next (dispose hn c) fun _ => .pure rfl

/-- The work of a command is counted, so a collection that is dropped meanwhile is disposed of after
it. -/
theorem workOn (c : Nat) {work : Run E α} (hw : Agree Hub.Peers Eq work work) :
    Agree Hub.Peers Eq (workOn nested c work) (workOn nested c work) := by
  have husers (f : Nat → Nat) : Agree Hub.Peers Eq
      (Run.update (E := E) c fun k => { k with users := f k.users })
      (Run.update c fun k => { k with users := f k.users }) :=
    .adjust c (fun _ _ ⟨m, hm⟩ => .intro m hm) fun _ => ⟨rfl, rfl, rfl, rfl, rfl, rfl, rfl, id⟩
  exact .next (husers (· + 1)) fun _ => .next hw fun _ => .next (husers (· - 1)) fun _ =>
    .next (dispose hn c) fun _ => .pure rfl

theorem onWork (c : Nat) {body : Run E Answer} (hb : Agree Hub.Peers Eq body body) :
    Agree Hub.Peers Eq (onWork nested c body) (onWork nested c body) :=
  .onCollection c rfl (workOn hn c hb)

/-! ## Commands -/

/-- **Commands.** Every command agrees with itself. -/
theorem execute (command : Command E) :
    Agree Hub.Peers command.Answers (execute nested command) (execute nested command) := by
  cases command with
  | register properties => exact .answered (register hn properties)
  | setProperties id properties => exact .answered (setProperties hn id properties)
  | unregister id => exact .answered (unregister hn id)
  | getService id => exact .bind .get fun _ _ hs => .pure (by rw [hs.akin.registry]; rfl)
  | references text =>
    refine .withFilter text fun filter => .bind .get fun _ _ hs => .pure ?_
    rw [hs.akin.registry]
  | registry => exact .bind .get fun _ _ hs => .pure (by rw [hs.akin.registry]; rfl)
  | addListener home text listener =>
    refine .withFilter text fun filter => ?_
    refine .next (leaf (.attach home listener) (.change fun _ => ?_)) fun l => ?_
    · exact .of_eq rfl rfl rfl rfl (Nat.le_succ _) (Nat.le_refl _)
    · exact .answered (subscribe hn filter (.observer l))
  | removeListener id =>
    exact .next ((unsubscribe id).peers (.onRegistry _)) fun _ => .pure rfl
  | start c => exact onWork hn c (.answered (start hn c))
  | destroy c => exact onWork hn c (.next (destroy hn c) fun _ => .pure rfl)
  | drop c => exact .next (drop hn c) fun _ => .pure rfl
  | ask c question =>
    exact .onCollection c (.refl _ _) (leaf (ask c question) (.ask c question))
  | addLifecycleListener c l =>
    exact .onCollection c rfl (.next (leaf (.addLifecycleListener c l) (.lifecycle c l))
      fun _ => .pure rfl)
  | addStateListener c l =>
    exact .onCollection c rfl (.next (leaf (.addStateListener c l) (.state c l))
      fun _ => .pure rfl)
  | iter c name => exact .onCollection c rfl (leaf (.iter c name) (.iter c name))
  | tryNext name =>
    refine leaf (.withTraversal name fun t => .next (.step t) fun entry => ?_)
      (.execute (.tryNext name))
    split
    · exact .view _
    · exact .pure rfl
  | next name =>
    refine leaf (.withTraversal name fun t => .next (.step t) fun entry => ?_)
      (.execute (.next name))
    split
    · exact .view _
    · exact .pure rfl
  | hasNext name =>
    exact leaf (.withTraversal name fun t => .next (.hasNext t) fun _ => .pure rfl)
      (.execute (.hasNext name))
  | drain name =>
    refine leaf (.withTraversal name fun t => .next (.drain t) fun entries => ?_)
      (.execute (.drain name))
    exact .bind .get fun _ _ hs => .pure (by rw [hs.released])
  | iterRemove name =>
    exact leaf (.withTraversal name fun _ => .pure rfl) (.execute (.iterRemove name))
  | dropIter name =>
    exact leaf (.next (.dropIter name) fun _ => .pure rfl) (.execute (.dropIter name))
  | hold c index name => exact .onCollection c rfl (leaf (.hold c index name) (.hold c index name))
  | probe name => exact leaf (.probe name) (.probe name)
  | reconcile c event => exact onWork hn c (.answered (reconcile hn c event))
  | apply c notification r => exact onWork hn c (.answered (apply hn c notification r))
  | serviceChanged c event =>
    exact onWork hn c (.next (serviceChanged hn c event) fun _ => .pure rfl)
  | unreadable c name answer =>
    cases c with
    | none => exact .pure rfl
    | some c => exact .onCollection c rfl (.pure rfl)

end Operations

end LiveServices.Run.Agree
