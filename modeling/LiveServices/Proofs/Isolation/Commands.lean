import LiveServices.Proofs.Isolation.Operations

/-!
# Commands shadow each other

A delivery walks through the subscriptions of the registry, and whether it goes on after one of them
depends on observers alone, whose calls are not guarded (`Shadows.tell`). Readings do not see
listeners at all. `Shadows.execute` puts this together for each of the commands.
-/

namespace LiveServices

variable {E : Type}

namespace Registry

theorem get?_unfailing (r : Registry E) (id : UInt64) : r.unfailing.get? id = r.get? id := rfl

theorem references_unfailing (r : Registry E) (filter : ServiceFilter) :
    r.unfailing.references filter = r.references filter := rfl

/-- A subscription to the unfailing registry has the same number, and its target is unfailing. -/
theorem subscribe_unfailing (r : Registry E) (filter : ServiceFilter) (target : Target E) :
    r.unfailing.subscribe filter target.unfailing =
      ((r.subscribe filter target).1.unfailing, (r.subscribe filter target).2.unfailing) := by
  have hinsert := Roster.insert_map Subscription.id_unfailing
    ⟨r.nextSubscription, filter, target⟩ r.subscriptions
  simp only [subscribe, unfailing, ← hinsert]
  rfl

/-- Whether there was a subscription to end does not depend on what its target does. -/
theorem unsubscribe_unfailing (r : Registry E) (id : UInt64) :
    r.unfailing.unsubscribe id = ((r.unsubscribe id).1, (r.unsubscribe id).2.unfailing) := by
  have hfind := Roster.find?_map Subscription.id_unfailing id r.subscriptions
  have herase := Roster.erase_map Subscription.id_unfailing id r.subscriptions
  simp only [unsubscribe, unfailing, hfind, herase, Option.isSome_map]

end Registry

variable [ServiceEntry E]

namespace Run.Shadows

variable {α α' β β' γ : Type} {R : α → α' → Prop} {S : β → β' → Prop}
  {nested nested' : Nested E}

omit [ServiceEntry E] in
/-- The same change is made to the registry. -/
theorem onRegistry {f : Registry E → α × Registry E} {f' : Registry E → α' × Registry E}
    (hf : ∀ r, R (f r).1 (f' r.unfailing).1 ∧ (f' r.unfailing).2 = (f r).2.unfailing) :
    Shadows R (onRegistry f) (onRegistry f') := by
  refine .changeGet fun h h' hs => ?_
  obtain ⟨hR, hr⟩ := hf h.registry
  rw [hs.registry]
  exact ⟨hR, { hs with registry := hr }⟩

omit [ServiceEntry E] in
/-- A listener that is attached with all unfailing has the same number, and is unfailing. -/
theorem attach (home : Nat) (l : Listener E) :
    Shadows (fun a a' => a' = a.unfailing) (attach home l) (attach home l.unfailing) :=
  .changeGet fun _ _ hs =>
    ⟨by rw [hs.listeners]; rfl, { hs with listeners := by rw [hs.listeners] }⟩

/-! ## Operations that may end before their result -/

omit [ServiceEntry E] in
theorem act_pure {a : α} {b : α'} (hR : R a b) :
    Shadows (Outcomes R) (Pure.pure a : Act E α).run (Pure.pure b : Act E α').run := .pure hR

omit [ServiceEntry E] in
/-- The same trouble ends both operations. -/
theorem act_throw (t : Trouble) :
    Shadows (Outcomes R) (MonadExcept.throw t : Act E α).run (MonadExcept.throw t : Act E α').run :=
  .pure rfl

omit [ServiceEntry E] in
/-- Operations are compared step by step. Where the first of two steps ends in trouble, it is the
same trouble in both, and neither goes on. -/
theorem act_bind {x : Act E α} {x' : Act E α'} {f : α → Act E β} {f' : α' → Act E β'}
    (hx : Shadows (Outcomes R) x.run x'.run)
    (hf : ∀ a b, R a b → Shadows (Outcomes S) (f a).run (f' b).run) :
    Shadows (Outcomes S) (x >>= f).run (x' >>= f').run := by
  refine .bind hx fun r r' hr => ?_
  cases r with
  | ok a =>
    cases r' with
    | ok b => exact hf a b hr
    | error t => exact hr.elim
  | error t =>
    cases r' with
    | ok b => exact hr.elim
    | error t' => exact .pure hr

omit [ServiceEntry E] in
theorem act_lift {x : Run E α} {x' : Run E α'} (hx : Shadows R x x') :
    Shadows (Outcomes R) (liftM x : Act E α).run (liftM x' : Act E α').run := by
  show Shadows (Outcomes R) (x >>= fun a => Pure.pure (Except.ok a))
    (x' >>= fun b => Pure.pure (Except.ok b))
  exact .bind hx fun _ _ hR => .pure hR

omit [ServiceEntry E] in
/-- A loop over a list is compared with one over an image of the list. -/
theorem act_forM {e : γ → γ} {f f' : γ → Act E PUnit} :
    ∀ l : List γ, (∀ a, Shadows (Outcomes Eq) (f a).run (f' (e a)).run) →
      Shadows (Outcomes Eq) (l.forM f).run ((l.map e).forM f').run
  | [], _ => act_pure rfl
  | a :: l, hf => act_bind (hf a) fun _ _ _ => act_forM l hf

omit [ServiceEntry E] in
/-- Operations with the same outcome are answered in the same way. -/
theorem answered {f : α → Answer} {act act' : Act E α}
    (hact : Shadows (Outcomes Eq) act.run act'.run) :
    Shadows Eq (answered f act) (answered f act') := by
  refine .bind hact fun r r' hr => ?_
  obtain rfl := outcomes_eq_iff.1 hr
  split
  · exact .pure rfl
  · exact .pure rfl
  · exact .pure rfl

section Delivery

variable (hn : ∀ command, Shadows Eq (nested command) (nested' command.unfailing))
include hn

/-! ## Delivery -/

/-- A notification is applied. Only what calls listeners or releases entries needs the nested
commands to shadow each other. -/
theorem apply (c : Nat) (notification : Notification) (r : ServiceReference) :
    Shadows Eq (apply nested c notification r) (apply nested' c notification r) := by
  cases notification with
  | appeared | updated => exact appeared hn c r
  | disappeared =>
    exact .bind (remove hn c r.id) fun _ _ heq => .pure (congrArg Except.ok heq)

/-- An event is told from others by its kind, which both hubs see. -/
theorem reconcile (c : Nat) (event : ServiceEvent) :
    Shadows Eq (reconcile nested c event) (reconcile nested' c event) := by
  unfold Run.reconcile
  split
  · exact apply hn ..
  · exact .pure rfl

/-- The importer notes a failure of its own, and both notes are the same. -/
theorem serviceChanged (c : Nat) (event : ServiceEvent) :
    Shadows Eq (serviceChanged nested c event) (serviceChanged nested' c event) := by
  refine .bind (reconcile hn c event) fun outcome outcome' houtcome => ?_
  subst houtcome
  split
  · exact .pure rfl
  · exact .record _
  · exact .record _

/-- The target of a subscription is told. An observer is not called under guard, so its finish is
compared: a panic ends both deliveries. -/
theorem tell (target : Target E) (event : ServiceEvent) :
    Shadows (Outcomes Eq) (tell nested target event).run
      (tell nested' target.unfailing event).run := by
  cases target with
  | importer c => exact act_lift (serviceChanged hn c event)
  | observer l =>
    refine act_bind (act_lift (call hn l (.event event))) fun finish finish' heq => ?_
    obtain rfl := heq rfl
    split
    · exact act_throw _
    · exact act_pure rfl
    · exact act_pure rfl

/-- An event is delivered to a subscription, and with all unfailing to the same one. -/
theorem deliver (s : Subscription E) (event : ServiceEvent) :
    Shadows (Outcomes Eq) (deliver nested s event).run
      (deliver nested' s.unfailing event).run := by
  refine act_bind (R := Eq) (act_lift (.change fun h h' hs => ?_)) fun _ _ _ => ?_
  · exact { hs with registry := by rw [hs.registry]; rfl }
  · exact act_bind (act_lift (.record _)) fun _ _ _ => tell hn ..

/-- An event goes to the same subscriptions in the same order, since a filter does not see what is
subscribed with it. -/
theorem deliverAll (event : ServiceEvent) (wants : ServiceFilter → Bool) :
    Shadows (Outcomes Eq) (deliverAll nested event wants).run
      (deliverAll nested' event wants).run := by
  refine act_bind (act_lift .get) fun h h' hs => ?_
  have hsubs : h'.registry.subscriptions.filter (fun s => wants s.filter) =
      (h.registry.subscriptions.filter fun s => wants s.filter).map Subscription.unfailing := by
    rw [hs.registry, Registry.unfailing, List.filter_map]
    rfl
  rw [hsubs]
  exact act_forM _ fun s => deliver hn s event

/-- A service that is registered gets the same number and is announced to the same subscriptions. -/
theorem register (properties : Properties) :
    Shadows (Outcomes Eq) (register nested properties).run
      (register nested' properties).run := by
  refine act_bind (R := Eq) (act_lift (.onRegistry fun r => ⟨rfl, rfl⟩)) fun service _ hs => ?_
  subst hs
  exact act_bind (deliverAll hn ..) fun _ _ _ => act_pure rfl

/-- The filters that take the old properties or the new ones are the same in both registries, so the
same subscriptions are told. -/
theorem setProperties (id : UInt64) (properties : Properties) :
    Shadows (Outcomes Eq) (setProperties nested id properties).run
      (setProperties nested' id properties).run := by
  refine act_bind (act_lift .get) fun h h' hs => ?_
  rw [hs.registry, Registry.get?_unfailing]
  split
  · exact act_throw _
  · refine act_bind (R := Eq) (act_lift (.change fun h h' hs => ?_)) fun _ _ _ => ?_
    · exact { hs with registry := by rw [hs.registry]; rfl }
    · exact act_bind (deliverAll hn ..) fun _ _ _ => act_bind (deliverAll hn ..) fun _ _ _ =>
        act_pure rfl

/-- A service that is taken away is known to both registries, or to neither. -/
theorem unregister (id : UInt64) :
    Shadows (Outcomes Eq) (unregister nested id).run (unregister nested' id).run := by
  refine act_bind (act_lift .get) fun h h' hs => ?_
  rw [hs.registry, Registry.get?_unfailing]
  split
  · exact act_throw _
  · refine act_bind (R := Eq) (act_lift (.change fun h h' hs => ?_)) fun _ _ _ => deliverAll hn ..
    exact { hs with registry := by rw [hs.registry]; rfl }

/-- The services that are there are reported to a new subscription in the same order. -/
theorem subscribe (filter : ServiceFilter) (target : Target E) :
    Shadows (Outcomes Eq) (subscribe nested filter target).run
      (subscribe nested' filter target.unfailing).run := by
  refine act_bind (R := fun s s' => s' = s.unfailing) (act_lift (.onRegistry fun r => ?_))
    fun s s' hs => ?_
  · rw [Registry.subscribe_unfailing]
    exact ⟨rfl, rfl⟩
  · subst hs
    refine act_bind (act_lift .get) fun h h' hs => ?_
    rw [hs.registry, Registry.references_unfailing]
    -- the same references are looped over, so the image of the list is the list
    have hall : Shadows (Outcomes Eq)
        ((h.registry.references filter).forM fun r => Run.deliver nested s (.registered r)).run
        (((h.registry.references filter).map id).forM fun r =>
          Run.deliver nested' s.unfailing (.registered r)).run :=
      act_forM _ fun r => deliver hn s (.registered r)
    rw [List.map_id] at hall
    exact act_bind hall fun _ _ _ => act_pure rfl

omit [ServiceEntry E] hn in
theorem unsubscribe (id : UInt64) : Shadows Eq (unsubscribe (E := E) id) (unsubscribe id) :=
  .onRegistry fun r => by
    rw [Registry.unsubscribe_unfailing]
    exact ⟨rfl, rfl⟩

end Delivery

/-! ## The life of a collection -/

omit [ServiceEntry E] in
theorem available (c : Nat) : Shadows Eq (available (E := E) c) (available c) :=
  .look c _ fun _ => rfl

omit [ServiceEntry E] in
/-- The subscription of a collection is ended, if it has one, by its number. -/
theorem endSubscription (c : Nat) :
    Shadows Eq (endSubscription (E := E) c) (endSubscription c) := by
  refine .locked c _ (.bind (.collection c) fun k k' hk => ?_)
  subst hk
  rw [show k.unfailing.subscription = k.subscription from rfl]
  split
  · exact .pure rfl
  · exact .bind (.update c fun _ => rfl) fun _ _ _ =>
      .bind (.unsubscribe _) fun _ _ _ => .pure rfl

omit [ServiceEntry E] in
/-- A listener of entries is attached, with all unfailing as the unfailing listener. -/
theorem addLifecycleListener (c : Nat) (l : Listener E) :
    Shadows Eq (addLifecycleListener c l) (addLifecycleListener c l.unfailing) := by
  refine .bind (.attach c l) fun a a' ha => ?_
  subst ha
  refine .locked c _ (.update c fun k => ?_)
  simp [Collection.unfailing]

omit [ServiceEntry E] in
/-- A listener of the dependency is attached in the same way. -/
theorem addStateListener (c : Nat) (l : Listener E) :
    Shadows Eq (addStateListener c l) (addStateListener c l.unfailing) := by
  refine .bind (.attach c l) fun a a' ha => ?_
  subst ha
  refine .locked c _ (.update c fun k => ?_)
  simp [Collection.unfailing]

section Lives

variable (hn : ∀ command, Shadows Eq (nested command) (nested' command.unfailing))
include hn

/-- A collection that was subscribed or is closed refuses the start in both hubs; else it is
subscribed. -/
theorem begin (c : Nat) : Shadows (Outcomes Eq) (begin nested c).run (begin nested' c).run := by
  refine act_bind (act_lift (.collection c)) fun k k' hk => ?_
  subst hk
  -- both refusals go on, in the type, to what follows them, so the end is stated first
  have hend : Shadows (Outcomes Eq)
      (do
        let id ← Run.subscribe nested k.dependency.filter (.importer c)
        Run.update (E := E) c fun k => { k with subscription := some id } : Act E Unit).run
      (do
        let id ← Run.subscribe nested' k.dependency.filter (.importer c)
        Run.update (E := E) c fun k => { k with subscription := some id } : Act E Unit).run := by
    refine act_bind (subscribe hn k.dependency.filter (.importer c)) fun id id' hid => ?_
    subst hid
    exact act_lift (.update c fun _ => rfl)
  have hopen : Shadows (Outcomes Eq) (do
        if ← Run.isClosed (E := E) c then
          MonadExcept.throw (Trouble.failed (.illegalState "collection already destroyed"))
        let id ← Run.subscribe nested k.dependency.filter (.importer c)
        Run.update (E := E) c fun k => { k with subscription := some id } : Act E Unit).run
      (do
        if ← Run.isClosed (E := E) c then
          MonadExcept.throw (Trouble.failed (.illegalState "collection already destroyed"))
        let id ← Run.subscribe nested' k.dependency.filter (.importer c)
        Run.update (E := E) c fun k => { k with subscription := some id } : Act E Unit).run := by
    refine act_bind (R := Eq) (act_lift (.look c .index fun _ => rfl)) fun closed closed' hc => ?_
    subst hc
    exact .ite (act_bind (R := Eq) (act_throw _) fun _ _ _ => hend) hend
  exact .ite (act_bind (R := Eq) (act_throw _) fun _ _ _ => hopen) hopen

/-- Whether a collection is available after its start does not depend on failures. -/
theorem start (c : Nat) : Shadows (Outcomes Eq) (start nested c).run (start nested' c).run := by
  refine act_bind (R := Eq) (.locked c .subscription (begin hn c)) fun _ _ _ => ?_
  refine act_bind (act_lift (.available c)) fun checked checked' hc => ?_
  subst hc
  split
  · exact act_pure rfl
  · exact act_throw _

/-- A destruction takes away the same number of entries. -/
theorem destroy (c : Nat) : Shadows Eq (destroy nested c) (destroy nested' c) :=
  .bind (.endSubscription c) fun _ _ _ => shutdown hn c

/-- A collection is disposed of if it was dropped, is subscribed, and nobody works on it. -/
theorem dispose (c : Nat) : Shadows Eq (dispose nested c) (dispose nested' c) := by
  refine .bind (.collection c) fun k k' hk => ?_
  subst hk
  exact .ite (.bind (destroy hn c) fun _ _ _ => .pure rfl) (.pure rfl)

/-- A collection is dropped once. -/
theorem drop (c : Nat) : Shadows Eq (drop nested c) (drop nested' c) := by
  refine .bind (.collection c) fun k k' hk => ?_
  subst hk
  exact .ite (.pure rfl) (.bind (.update c fun _ => rfl) fun _ _ _ =>
    .bind (dispose hn c) fun _ _ _ => .pure rfl)

/-- The users of a collection are counted around the work on it. -/
theorem workOn (c : Nat) {work work' : Run E α} (hw : Shadows Eq work work') :
    Shadows Eq (workOn nested c work) (workOn nested' c work') := by
  refine .bind (.update c fun _ => rfl) fun _ _ _ => .bind hw fun a a' ha => ?_
  exact .bind (.update c fun _ => rfl) fun _ _ _ => .bind (dispose hn c) fun _ _ _ => .pure ha

omit [ServiceEntry E] hn in
/-- A collection that was dropped answers nothing but that it is gone. -/
theorem onCollection (c : Nat) {body body' : Run E Answer} (hb : Shadows Eq body body') :
    Shadows Eq (onCollection c body) (onCollection c body') := by
  refine .bind (.collection c) fun k k' hk => ?_
  subst hk
  exact .ite (.pure rfl) hb

theorem onWork (c : Nat) {body body' : Run E Answer} (hb : Shadows Eq body body') :
    Shadows Eq (onWork nested c body) (onWork nested' c body') :=
  .onCollection c (workOn hn c hb)

end Lives

/-! ## Reading -/

/-- A question is answered under its locks, by what both collections hold. -/
theorem ask (c : Nat) (question : Question E) : Shadows Eq (ask c question) (ask c question) := by
  have hlocks : Shadows Eq
      (question.locks.forM fun lock => Run.locked (E := E) c lock (Pure.pure ()))
      ((question.locks.map id).forM fun lock => Run.locked c lock (Pure.pure ())) :=
    .forM _ fun lock => .locked c lock (.pure rfl)
  rw [List.map_id] at hlocks
  refine .bind hlocks fun _ _ _ => .bind .get fun h h' hs => .pure ?_
  rw [hs.collection, hs.released, Collection.answer_unfailing]

omit [ServiceEntry E] in
theorem traversal? (name : String) :
    Shadows Eq (traversal? (E := E) name) (traversal? name) :=
  .bind .get fun _ _ hs => .pure (by rw [hs.traversals])

omit [ServiceEntry E] in
theorem dropIter (name : String) : Shadows Eq (dropIter (E := E) name) (dropIter name) := by
  refine .bind (.traversal? name) fun t t' ht => ?_
  subst ht
  split
  · exact .pure rfl
  · refine .bind (.update _ fun _ => rfl) fun _ _ _ => ?_
    refine .bind (R := Eq) (.change fun h h' hs => ?_) fun _ _ _ => .pure rfl
    exact { hs with traversals := by rw [hs.traversals] }

omit [ServiceEntry E] in
/-- An iterator is opened at the same place, in the stead of the one that has its name. -/
theorem iter (c : Nat) (name : String) : Shadows Eq (iter (E := E) c name) (iter c name) := by
  refine .bind (.available c) fun checked checked' hc => ?_
  subst hc
  split
  · exact .pure rfl
  · have hname (cursor : Nat) : Shadows Eq
        (do
          modify fun h : Hub E => { h with traversals := (name, ⟨c, cursor⟩) :: h.traversals }
          Pure.pure Answer.done : Run E Answer)
        (do
          modify fun h : Hub E => { h with traversals := (name, ⟨c, cursor⟩) :: h.traversals }
          Pure.pure Answer.done) := by
      refine .bind (R := Eq) (.change fun h h' hs => ?_) fun _ _ _ => .pure rfl
      exact { hs with traversals := by rw [hs.traversals] }
    refine .bind (.dropIter name) fun _ _ _ => ?_
    exact .reading (f := fun k => k.storage.openCursor) c (fun _ => rfl) hname

omit [ServiceEntry E] in
/-- An iterator moves over the same entries. -/
theorem step (t : Traversal) : Shadows Eq (step (E := E) t) (step t) := by
  refine .bind (.available t.collection) fun checked checked' hc => ?_
  subst hc
  split
  · exact .pure rfl
  · exact .reading (f := fun k => k.storage.next t.cursor) t.collection (fun _ => rfl)
      fun _ => .pure rfl

omit [ServiceEntry E] in
/-- What is left for an iterator is the same. -/
theorem drain (t : Traversal) : Shadows Eq (drain (E := E) t) (drain t) := by
  refine .bind (.available t.collection) fun checked checked' hc => ?_
  subst hc
  split
  · exact .pure rfl
  · exact .reading (f := fun k => k.storage.drain t.cursor) t.collection (fun _ => rfl)
      fun _ => .pure rfl

omit [ServiceEntry E] in
theorem hasNext (t : Traversal) : Shadows Eq (hasNext (E := E) t) (hasNext t) := by
  refine .bind (.available t.collection) fun checked checked' hc => ?_
  subst hc
  split
  · exact .pure rfl
  · refine .bind (.collection t.collection) fun k k' hk => ?_
    subst hk
    exact .pure rfl

omit [ServiceEntry E] in
theorem withTraversal (name : String) {f : Traversal → Run E Answer}
    (hf : ∀ t, Shadows Eq (f t) (f t)) :
    Shadows Eq (withTraversal name f) (withTraversal name f) := by
  refine .bind (.traversal? name) fun t t' ht => ?_
  subst ht
  split
  · exact hf _
  · exact .pure rfl

theorem view (entry : Option E) : Shadows Eq (view entry) (view entry) :=
  .bind .get fun _ _ hs => .pure (by rw [hs.released])

/-- The entry that is kept under a name is the same. -/
theorem hold (c index : Nat) (name : String) :
    Shadows Eq (hold (E := E) c index name) (hold c index name) := by
  refine .bind (.available c) fun checked checked' hc => ?_
  subst hc
  split
  · exact .pure rfl
  · refine .bind (.collection c) fun k k' hk => ?_
    subst hk
    rw [show k.unfailing.storage = k.storage from rfl]
    cases k.storage.items[index]? with
    | none => exact .view _
    | some e =>
      refine .bind (R := Eq) (.change fun h h' hs => ?_) fun _ _ _ => .view _
      exact { hs with kept := by rw [hs.kept] }

/-- An entry that is kept looks the same, valid or released. -/
theorem probe (name : String) : Shadows Eq (probe (E := E) name) (probe name) := by
  refine .bind .get fun h h' hs => ?_
  rw [hs.kept, hs.released]
  split
  · exact .pure rfl
  · exact .pure rfl

/-! ## Commands -/

omit [ServiceEntry E] in
/-- A text that is no filter is refused in the same way. -/
theorem withFilter (text : String) {f f' : ServiceFilter → Run E Answer}
    (hf : ∀ filter, Shadows Eq (f filter) (f' filter)) :
    Shadows Eq (withFilter text f) (withFilter text f') := by
  unfold Run.withFilter
  split
  · exact hf _
  · exact .pure rfl

variable (hn : ∀ command, Shadows Eq (nested command) (nested' command.unfailing))
include hn

/-- **Commands.** Every command shadows itself with its listener unfailing. -/
theorem execute (command : Command E) :
    Shadows Eq (execute nested command) (execute nested' command.unfailing) := by
  cases command with
  | register properties => exact .answered (register hn properties)
  | setProperties id properties => exact .answered (setProperties hn id properties)
  | unregister id => exact .answered (unregister hn id)
  | getService id =>
    exact .bind .get fun _ _ hs => .pure (by rw [hs.registry, Registry.get?_unfailing])
  | references text =>
    refine .withFilter text fun filter => .bind .get fun _ _ hs => .pure ?_
    rw [hs.registry, Registry.references_unfailing]
  | registry =>
    refine .bind .get fun h h' hs => .pure ?_
    rw [hs.registry]
    simp [Registry.unfailing]
  | addListener home text listener =>
    refine .withFilter text fun filter => .bind (.attach home listener) fun l l' hl => ?_
    subst hl
    exact .answered (subscribe hn filter (.observer l))
  | removeListener id =>
    exact .bind (.unsubscribe id) fun _ _ heq => .pure (by rw [heq])
  | start c => exact onWork hn c (.answered (start hn c))
  | destroy c =>
    exact onWork hn c (.bind (destroy hn c) fun _ _ heq => .pure (by rw [heq]))
  | drop c => exact .bind (drop hn c) fun _ _ heq => .pure (by rw [heq])
  | ask c question => exact .onCollection c (.ask c question)
  | addLifecycleListener c l =>
    exact .onCollection c (.bind (.addLifecycleListener c l) fun _ _ _ => .pure rfl)
  | addStateListener c l =>
    exact .onCollection c (.bind (.addStateListener c l) fun _ _ _ => .pure rfl)
  | iter c name => exact .onCollection c (.iter c name)
  | tryNext name | next name =>
    refine .withTraversal name fun t => .bind (.step t) fun entry entry' heq => ?_
    subst heq
    split
    · exact .view _
    · exact .pure rfl
  | hasNext name =>
    exact .withTraversal name fun t => .bind (.hasNext t) fun _ _ heq => .pure (by rw [heq])
  | drain name =>
    refine .withTraversal name fun t => .bind (.drain t) fun entries entries' heq => ?_
    subst heq
    exact .bind .get fun _ _ hs => .pure (by rw [hs.released])
  | iterRemove name => exact .withTraversal name fun _ => .pure rfl
  | dropIter name => exact .bind (.dropIter name) fun _ _ heq => .pure (by rw [heq])
  | hold c index name => exact .onCollection c (.hold c index name)
  | probe name => exact .probe name
  | reconcile c event =>
    refine onWork hn c (.answered ?_)
    exact (reconcile hn c event).mono fun _ _ => outcomes_eq_iff.2
  | apply c notification r =>
    refine onWork hn c (.answered ?_)
    exact (apply hn c notification r).mono fun _ _ => outcomes_eq_iff.2
  | serviceChanged c event =>
    exact onWork hn c (.bind (serviceChanged hn c event) fun _ _ _ => .pure rfl)
  | unreadable c name answer =>
    cases c with
    | none => exact .pure rfl
    | some c => exact .onCollection c (.pure rfl)

end Run.Shadows

end LiveServices
