import LiveServices.Proofs.Run.Locked

/-!
# What commands are built of

A command does nothing but these: it reads and changes the hub in ways that no one can tell
(`Hub.Quiet`), it looks at a collection under a lock, and it carries out one of seven operations
(`Run.Built`). Two of them are larger than what they do to the entries: the begin of a
subscription under its lock, and the whole of a destruction. `Built.execute` says so of every
command; what follows for a judgement of runs is an induction on how the run is built.

The judgement here is `Ends`. It speaks of halts too, which `Keeps` does not: `Ends S x` says that
`S` holds between the hub before a run and what the run ends in, the hub after it or the reason
why it halted. A relation is kept so by all commands if it is a `Hub.Regime` and the seven
operations respect it (`ends_runAll`).
-/

namespace LiveServices

variable {E : Type}

/-! ## Quiet steps -/

/-- A moment that tells of no call of a listener or a factory, of no entry made, of no release, and
of no end of a command. -/
def Moment.IsQuiet : Moment E → Prop
  | .called _ _ _ | .attempted _ _ _ | .created _ _ _ _ | .releasing _ _ _ _ _ | .ended _ => False
  | _ => True

/-- The second hub comes after the first by steps aside that left the locks and the subscriptions
alone and closed no collection, and in which no command ended. -/
structure Hub.Quiet (h h' : Hub E) : Prop where
  aside : h.Aside h'
  trace : ∃ recent, h'.trace = recent ++ h.trace ∧ ∀ m ∈ recent, m.IsQuiet
  locks : ∀ c, (h'.collection c).locks = (h.collection c).locks
  closed : ∀ c, (h'.collection c).closed = (h.collection c).closed
  subscription : ∀ c, (h'.collection c).subscription = (h.collection c).subscription

namespace Hub.Quiet

variable {h h' : Hub E}

theorem refl (h : Hub E) : Quiet h h :=
  ⟨.refl h, ⟨[], rfl, by simp⟩, fun _ => rfl, fun _ => rfl, fun _ => rfl⟩

/-- A change of a collection that leaves its entries, its locks and its standing alone. -/
theorem update_here (c : Nat) {f : Collection E → Collection E}
    (hs : (h.collection c).SameStock (f (h.collection c)))
    (locks : (f (h.collection c)).locks = (h.collection c).locks)
    (closed : (f (h.collection c)).closed = (h.collection c).closed)
    (subscription : (f (h.collection c)).subscription = (h.collection c).subscription) :
    Quiet h (h.update c f) := by
  refine ⟨.update_here c hs, ⟨[], rfl, by simp⟩, fun d => ?_, fun d => ?_, fun d => ?_⟩
  all_goals
    rw [collection_update]
    split
    · next hd =>
      rw [hd.1]
      assumption
    · rfl

/-- A quiet moment is added to the trace, and the hub is otherwise as it was. -/
theorem record {m : Moment E} (hm : m.IsQuiet) : Quiet h (h.record m) := by
  have hplain : m.IsPlain := by
    cases m with
    | called | attempted | created | releasing | ended => exact absurd hm fun hno => hno
    | _ => trivial
  exact ⟨.record hplain, ⟨[m], rfl, by simpa using hm⟩, fun _ => rfl, fun _ => rfl, fun _ => rfl⟩

/-- What happens outside of the collections and the trace. -/
theorem of_eq (hc : h'.collections = h.collections) (ht : h'.trace = h.trace)
    (hp : h'.past = h.past) (hr : h'.released = h.released) (hl : h.listeners ≤ h'.listeners)
    (ha : h.attempts ≤ h'.attempts) : Quiet h h' := by
  have hsame (c : Nat) : h'.collection c = h.collection c := by
    rw [collection, hc, collection]
  exact ⟨.of_eq hc ht hp hr hl ha, ⟨[], by simpa using ht, by simp⟩, fun c => by rw [hsame],
    fun c => by rw [hsame], fun c => by rw [hsame]⟩

end Hub.Quiet

namespace Run

variable {α β : Type}

/-! ## Built runs -/

section Building

variable [ServiceEntry E]

/-- Runs that are built of quiet steps, looks under a lock, and the operations that deliver events;
and of the operations on the life of a collection, if these are allowed. -/
inductive Built (nested : Nested E) : Bool → ∀ {α : Type}, Run E α → Prop where
  | pure {whole : Bool} {α : Type} (a : α) : Built nested whole (Pure.pure a : Run E α)
  | bind {whole : Bool} {α β : Type} {x : Run E α} {f : α → Run E β} (hx : Built nested whole x)
    (hf : ∀ a, Built nested whole (f a)) : Built nested whole (x >>= f)
  | change {whole : Bool} {α : Type} {f : Hub E → α × Hub E} (hf : ∀ h : Hub E, h.Quiet (f h).2) :
    Built nested whole (modifyGet f : Run E α)
  | look {whole : Bool} {α : Type} (c : Nat) (lock : Lock) (f : Collection E → α) :
    Built nested whole (locked c lock do Pure.pure (f (← Run.collection c)))
  | observed {whole : Bool} (l : Attached E) (event : ServiceEvent) :
    Built nested whole (call nested l (.event event))
  | appeared {whole : Bool} (c : Nat) (r : ServiceReference) :
    Built nested whole (apply nested c .appeared r)
  | removed {whole : Bool} (c : Nat) (id : UInt64) : Built nested whole (remove nested c id)
  | begun (c : Nat) : Built nested true (locked c .subscription (begin nested c).run)
  | destroyed (c : Nat) : Built nested true (destroy nested c)
  | lifecycle (c : Nat) (l : Listener E) : Built nested true (addLifecycleListener c l)
  | state (c : Nat) (l : Listener E) : Built nested true (addStateListener c l)

namespace Built

variable {nested : Nested E} {whole : Bool}

/-- A look at the hub changes nothing. -/
theorem get : Built nested whole (MonadState.get : Run E (Hub E)) :=
  .change (f := fun h => (h, h)) fun h => .refl h

theorem collection (c : Nat) : Built nested whole (Run.collection c) := .bind .get fun _ => .pure _

theorem modified {f : Hub E → Hub E} (hf : ∀ h : Hub E, h.Quiet (f h)) :
    Built nested whole (modify f : Run E Unit) := .change (f := fun h => ((), f h)) hf

theorem record {m : Moment E} (hm : m.IsQuiet) : Built nested whole (Run.record m) :=
  .modified fun _ => .record hm

/-- What is done to the registry leaves the collections, the trace and the releases alone. -/
theorem onRegistry (f : Registry E → α × Registry E) : Built nested whole (Run.onRegistry f) :=
  .change fun _ => .of_eq rfl rfl rfl rfl (Nat.le_refl _) (Nat.le_refl _)

theorem forM {γ : Type} {f : γ → Run E PUnit} :
    ∀ (l : List γ), (∀ a ∈ l, Built nested whole (f a)) → Built nested whole (l.forM f)
  | [], _ => .pure _
  | a :: l, hf =>
    .bind (hf a List.mem_cons_self) fun _ => forM l fun b hb => hf b (List.mem_cons_of_mem _ hb)

/-! ### Operations that may end before their result -/

theorem act_pure (a : α) : Built nested whole (Pure.pure a : Act E α).run := .pure _

theorem act_throw (t : Trouble) : Built nested whole (MonadExcept.throw t : Act E α).run := .pure _

/-- An operation that ended in trouble does nothing more. -/
theorem act_bind {x : Act E α} {f : α → Act E β} (hx : Built nested whole x.run)
    (hf : ∀ a, Built nested whole (f a).run) : Built nested whole (x >>= f).run := by
  refine .bind hx fun a => ?_
  cases a with
  | ok a => exact hf a
  | error t => exact .pure _

theorem act_lift {x : Run E α} (hx : Built nested whole x) :
    Built nested whole (liftM x : Act E α).run := .bind hx fun _ => .pure _

/-- A loop of operations does nothing more after the first of them that ended in trouble. -/
theorem act_forM {γ : Type} {f : γ → Act E PUnit} :
    ∀ (l : List γ), (∀ a ∈ l, Built nested whole (f a).run) → Built nested whole (l.forM f).run
  | [], _ => act_pure _
  | a :: l, hf =>
    act_bind (hf a List.mem_cons_self) fun _ =>
      act_forM l fun b hb => hf b (List.mem_cons_of_mem _ hb)

/-- The answer to an operation is worked out without the hub. -/
theorem answered {f : α → Answer} {act : Act E α} (ha : Built nested whole act.run) :
    Built nested whole (Run.answered f act) := by
  refine .bind ha fun r => ?_
  split
  · exact .pure _
  · exact .pure _
  · exact .pure _

/-! ### Reading -/

theorem available (c : Nat) : Built nested whole (Run.available c) :=
  .look c .storage Collection.check

/-- A question takes and gives back its locks before it is answered. -/
theorem ask (c : Nat) (question : Question E) : Built nested whole (Run.ask c question) :=
  .bind (.forM _ fun lock _ => .look c lock fun _ => ()) fun _ => .bind .get fun _ => .pure _

/-- A reading of a storage that may move its cursors. -/
theorem reading (c : Nat) {f : LiveSequence E → β × LiveSequence E}
    (hf : ∀ s, (f s).2.items = s.items) {g : β → Run E α} (hg : ∀ b, Built nested whole (g b)) :
    Built nested whole (do
      let (b, storage) := f (← Run.collection c).storage
      Run.update c fun k => { k with storage := storage }
      g b) := by
  refine .bind (x := modifyGet fun h : Hub E => ((f (h.collection c).storage).1,
    h.update c fun k => { k with storage := (f (h.collection c).storage).2 }))
    (.change fun h => ?_) hg
  exact .update_here c ⟨rfl, rfl, rfl, rfl, hf _, rfl, rfl, fun hk => hk⟩ rfl rfl rfl

/-- An iterator is forgotten: a cursor of its storage closes, and its name is free. -/
theorem dropIter (name : String) : Built nested whole (Run.dropIter name) := by
  refine .bind (.bind .get fun _ => .pure _) fun t => ?_
  cases t with
  | none => exact .pure _
  | some t =>
    refine .bind (.modified fun h => .update_here _ ?_ rfl rfl rfl) fun _ => ?_
    · exact ⟨rfl, rfl, rfl, rfl, rfl, rfl, rfl, fun hk => hk⟩
    · exact .bind (.modified fun h => .of_eq rfl rfl rfl rfl (Nat.le_refl _) (Nat.le_refl _))
        fun _ => .pure _

/-- An iterator is opened: the storage gets a cursor, and the cursor a name. -/
theorem iter (c : Nat) (name : String) : Built nested whole (Run.iter c name) := by
  refine .bind (.available c) fun r => ?_
  split
  · exact .pure _
  · have hname (cursor : Nat) : Built nested whole (do
        modify fun h : Hub E => { h with traversals := (name, ⟨c, cursor⟩) :: h.traversals }
        Pure.pure Answer.done : Run E Answer) :=
      .bind (.modified fun _ => .of_eq rfl rfl rfl rfl (Nat.le_refl _) (Nat.le_refl _))
        fun _ => .pure _
    refine .bind (.dropIter name) fun _ => ?_
    exact .reading (f := LiveSequence.openCursor) c (fun _ => rfl) hname

/-- The items of a storage stay as they are when a cursor moves past one of them. -/
theorem step (t : Traversal) : Built nested whole (Run.step t) := by
  refine .bind (.available t.collection) fun r => ?_
  split
  · exact .pure _
  · exact .reading (f := fun s => s.next t.cursor) t.collection
      (fun s => LiveSequence.items_next s _) fun _ => .pure _

/-- They do when it moves past all that are left. -/
theorem drain (t : Traversal) : Built nested whole (Run.drain t) := by
  refine .bind (.available t.collection) fun r => ?_
  split
  · exact .pure _
  · exact .reading (f := fun s => s.drain t.cursor) t.collection
      (fun s => LiveSequence.items_drain s _) fun _ => .pure _

theorem hasNext (t : Traversal) : Built nested whole (Run.hasNext t) := by
  refine .bind (.available t.collection) fun r => ?_
  split
  · exact .pure _
  · exact .bind (.collection _) fun _ => .pure _

theorem withTraversal (name : String) {f : Traversal → Run E Answer}
    (hf : ∀ t, Built nested whole (f t)) : Built nested whole (Run.withTraversal name f) := by
  refine .bind (.bind .get fun _ => .pure _) fun t => ?_
  cases t with
  | none => exact .pure _
  | some t => exact hf t

theorem view (entry : Option E) : Built nested whole (Run.view entry) := .bind .get fun _ => .pure _

/-- An entry that is kept under a name stays where it is. -/
theorem hold (c index : Nat) (name : String) : Built nested whole (Run.hold c index name) := by
  refine .bind (.available c) fun r => ?_
  split
  · exact .pure _
  · refine .bind (.collection c) fun k => ?_
    cases k.storage.items[index]? with
    | none => exact .view _
    | some e =>
      exact .bind (.modified fun h => .of_eq rfl rfl rfl rfl (Nat.le_refl _) (Nat.le_refl _))
        fun _ => .view _

theorem probe (name : String) : Built nested whole (Run.probe name) := by
  refine .bind .get fun h => ?_
  split
  · exact .pure _
  · exact .pure _

/-! ### Delivery -/

/-- A notification is one of two operations: a service appears, or it is removed. -/
theorem apply (c : Nat) (notification : Notification) (r : ServiceReference) :
    Built nested whole (Run.apply nested c notification r) := by
  cases notification with
  -- a service that was updated is offered to the collection as one that appeared is
  | appeared | updated => exact .appeared c r
  | disappeared => exact .bind (.removed c r.id) fun _ => .pure _

/-- An event that is no notification is refused, and nothing is done. -/
theorem reconcile (c : Nat) (event : ServiceEvent) :
    Built nested whole (Run.reconcile nested c event) := by
  unfold Run.reconcile
  split
  · exact .apply ..
  · exact .pure _

/-- The importer carries out the event. If it fails, a quiet moment notes it. -/
theorem serviceChanged (c : Nat) (event : ServiceEvent) :
    Built nested whole (Run.serviceChanged nested c event) := by
  refine .bind (.reconcile c event) fun outcome => ?_
  split
  · exact .pure _
  · exact .record trivial
  · exact .record trivial

/-- A target is an importer, which reconciles, or an observer, which is called. -/
theorem tell (target : Target E) (event : ServiceEvent) :
    Built nested whole (Run.tell nested target event).run := by
  cases target with
  | importer c => exact .act_lift (.serviceChanged c event)
  | observer l =>
    refine .act_bind (.act_lift (.observed l event)) fun finish => ?_
    split
    · exact .act_throw _
    · exact .act_pure _
    · exact .act_pure _

/-- A delivery is counted and noted before the target is told. -/
theorem deliver (s : Subscription E) (event : ServiceEvent) :
    Built nested whole (Run.deliver nested s event).run := by
  refine .act_bind (.act_lift (.modified fun h => ?_)) fun _ => ?_
  · exact .of_eq rfl rfl rfl rfl (Nat.le_refl _) (Nat.le_refl _)
  · exact .act_bind (.act_lift (.record trivial)) fun _ => .tell ..

/-- An event is delivered to the subscriptions that there are at the beginning. -/
theorem deliverAll (event : ServiceEvent) (wants : ServiceFilter → Bool) :
    Built nested whole (Run.deliverAll nested event wants).run :=
  .act_bind (.act_lift .get) fun _ => .act_forM _ fun s _ => .deliver s event

/-- A service is put into the registry, and an event of it is delivered. -/
theorem register (properties : Properties) :
    Built nested whole (Run.register nested properties).run := by
  refine .act_bind (.act_lift (.onRegistry _)) fun service => ?_
  exact .act_bind (.deliverAll ..) fun _ => .act_pure _

/-- Two events are delivered: one to filters that accept the new properties, one to those that
accept only the old ones. -/
theorem setProperties (id : UInt64) (properties : Properties) :
    Built nested whole (Run.setProperties nested id properties).run := by
  refine .act_bind (.act_lift .get) fun h => ?_
  split
  · exact .act_throw _
  · refine .act_bind (.act_lift (.modified fun h => ?_)) fun _ => ?_
    · exact .of_eq rfl rfl rfl rfl (Nat.le_refl _) (Nat.le_refl _)
    · exact .act_bind (.deliverAll ..) fun _ => .act_bind (.deliverAll ..) fun _ => .act_pure _

/-- A service is taken out of the registry, and an event of it is delivered. -/
theorem unregister (id : UInt64) : Built nested whole (Run.unregister nested id).run := by
  refine .act_bind (.act_lift .get) fun h => ?_
  split
  · exact .act_throw _
  · refine .act_bind (.act_lift (.modified fun h => ?_)) fun _ => .deliverAll ..
    exact .of_eq rfl rfl rfl rfl (Nat.le_refl _) (Nat.le_refl _)

/-- A subscription is put into the registry, and the services that are there are delivered to it. -/
theorem subscribe (filter : ServiceFilter) (target : Target E) :
    Built nested whole (Run.subscribe nested filter target).run := by
  refine .act_bind (.act_lift (.onRegistry _)) fun s => .act_bind (.act_lift .get) fun h => ?_
  exact .act_bind (.act_forM _ fun r _ => .deliver ..) fun _ => .act_pure _

/-! ### The life of a collection -/

/-- A start is the begin of the subscription, and a look whether the collection is available. -/
theorem start (c : Nat) : Built nested true (Run.start nested c).run := by
  refine .act_bind (.begun c) fun _ => ?_
  refine .act_bind (.act_lift (.available c)) fun r => ?_
  split
  · exact .act_pure _
  · exact .act_throw _

/-- A collection that was dropped may be destroyed, and nothing else is done to it. -/
theorem dispose (c : Nat) : Built nested true (Run.dispose nested c) := by
  refine .bind (.collection c) fun k => ?_
  split
  · exact .bind (.destroyed c) fun _ => .pure _
  · exact .pure _

/-- A change of a collection of which neither its entries nor its standing tell. -/
theorem adjust (c : Nat) {f : Collection E → Collection E} (hs : ∀ k, Collection.SameStock k (f k))
    (locks : ∀ k, (f k).locks = k.locks) (closed : ∀ k, (f k).closed = k.closed)
    (subscription : ∀ k, (f k).subscription = k.subscription) :
    Built nested whole (update c f) :=
  .modified fun _ => .update_here c (hs _) (locks _) (closed _) (subscription _)

/-- A collection is marked as dropped and disposed of. -/
theorem drop (c : Nat) : Built nested true (Run.drop nested c) := by
  refine .bind (.collection c) fun k => ?_
  split
  · exact .pure _
  · refine .bind (.adjust c (fun k => ?_) (fun _ => rfl) (fun _ => rfl) fun _ => rfl) fun _ => ?_
    · exact ⟨rfl, rfl, rfl, rfl, rfl, rfl, rfl, fun hk => hk⟩
    · exact .bind (.dispose c) fun _ => .pure _

/-- The work on a collection is counted before and after, and the collection may be disposed of. -/
theorem workOn (c : Nat) {work : Run E α} (hw : Built nested true work) :
    Built nested true (Run.workOn nested c work) := by
  have husers (f : Nat → Nat) :
      Built nested true (update c fun k => { k with users := f k.users }) :=
    .adjust c (fun _ => ⟨rfl, rfl, rfl, rfl, rfl, rfl, rfl, fun hk => hk⟩) (fun _ => rfl)
      (fun _ => rfl) fun _ => rfl
  refine .bind (husers (· + 1)) fun _ => .bind hw fun a => .bind (husers (· - 1)) fun _ => ?_
  exact .bind (.dispose c) fun _ => .pure _

/-! ### Commands -/

/-- What is done on a collection is done if it is there. -/
theorem onCollection (c : Nat) {body : Run E Answer} (hb : Built nested whole body) :
    Built nested whole (Run.onCollection c body) := by
  refine .bind (.collection c) fun k => ?_
  split
  · exact .pure _
  · exact hb

/-- So is the work on it. -/
theorem onWork (c : Nat) {body : Run E Answer} (hb : Built nested true body) :
    Built nested true (Run.onWork nested c body) := .onCollection c (.workOn c hb)

/-- What is done with a filter is done if the text is one. -/
theorem withFilter (text : String) {f : ServiceFilter → Run E Answer}
    (hf : ∀ g, Built nested whole (f g)) : Built nested whole (Run.withFilter text f) := by
  unfold Run.withFilter
  split
  · exact hf _
  · exact .pure _

/-- A listener that is attached takes a number. -/
theorem attach (home : Nat) (l : Listener E) : Built nested whole (Run.attach home l) :=
  .change fun _ => .of_eq rfl rfl rfl rfl (Nat.le_succ _) (Nat.le_refl _)

/-- **Commands.** Every command is built of quiet steps, looks and operations. -/
theorem execute (command : Command E) : Built nested true (Run.execute nested command) := by
  cases command with
  | register properties => exact .answered (.register properties)
  | setProperties id properties => exact .answered (.setProperties id properties)
  | unregister id => exact .answered (.unregister id)
  | getService id => exact .bind .get fun _ => .pure _
  | references text => exact .withFilter text fun filter => .bind .get fun _ => .pure _
  | registry => exact .bind .get fun _ => .pure _
  | addListener home text listener =>
    refine .withFilter text fun filter => .bind (.attach home listener) fun l => ?_
    exact .answered (.subscribe filter _)
  | removeListener id => exact .bind (.onRegistry _) fun _ => .pure _
  | start c => exact .onWork c (.answered (.start c))
  | destroy c => exact .onWork c (.bind (.destroyed c) fun _ => .pure _)
  | drop c => exact .bind (.drop c) fun _ => .pure _
  | ask c question => exact .onCollection c (.ask c question)
  | addLifecycleListener c l => exact .onCollection c (.bind (.lifecycle c l) fun _ => .pure _)
  | addStateListener c l => exact .onCollection c (.bind (.state c l) fun _ => .pure _)
  | iter c name => exact .onCollection c (.iter c name)
  | tryNext name | next name =>
    refine .withTraversal name fun t => .bind (.step t) fun r => ?_
    split
    · exact .view _
    · exact .pure _
  | hasNext name => exact .withTraversal name fun t => .bind (.hasNext t) fun _ => .pure _
  | drain name =>
    exact .withTraversal name fun t => .bind (.drain t) fun _ => .bind .get fun _ => .pure _
  | iterRemove name => exact .withTraversal name fun _ => .pure _
  | dropIter name => exact .bind (.dropIter name) fun _ => .pure _
  | hold c index name => exact .onCollection c (.hold c index name)
  | probe name => exact .probe name
  | reconcile c event => exact .onWork c (.answered (.reconcile c event))
  | apply c notification r => exact .onWork c (.answered (.apply c notification r))
  | serviceChanged c event => exact .onWork c (.bind (.serviceChanged c event) fun _ => .pure _)
  | unreadable c name answer =>
    cases c with
    | none => exact .pure _
    | some c => exact .onCollection c (.pure _)

end Built

end Building

end Run

/-! ## How runs end -/

/-- A relation between a hub and what a run from it ends in that holds across quiet steps and can be
chained, and that a run may end in by waiting for a lock that is held, or by its depth. -/
class Hub.Regime (S : Hub E → Except Halt (Hub E) → Prop) : Prop where
  quiet : ∀ {h h' : Hub E}, h.Quiet h' → S h (.ok h')
  chain : ∀ {h h₁ : Hub E} {r : Except Halt (Hub E)}, S h (.ok h₁) → S h₁ r → S h r
  stuck : ∀ {h : Hub E} {c : Nat} {lock : Lock}, lock ∈ (h.collection c).locks →
    S h (.error (.deadlock lock))
  deep : ∀ {h : Hub E}, S h (.error .tooDeep)

/-- A relation between hubs that holds across quiet steps and can be chained. -/
class Hub.Flow (T : Hub E → Hub E → Prop) : Prop where
  quiet : ∀ {h h' : Hub E}, h.Quiet h' → T h h'
  trans : ∀ {h₁ h₂ h₃ : Hub E}, T h₁ h₂ → T h₂ h₃ → T h₁ h₃

instance (S : Hub E → Hub E → Prop) [Hub.Law S] : Hub.Flow S :=
  ⟨fun hq => Hub.Law.aside hq.aside, Hub.Law.trans⟩

/-- The relation holds between a hub and what a run from it reaches; one that halts reaches
nothing. -/
def Hub.Reaching (T : Hub E → Hub E → Prop) (h : Hub E) (r : Except Halt (Hub E)) : Prop :=
  ∀ h', r = .ok h' → T h h'

/-- A hub that was reached is related if the relation holds of it. -/
theorem Hub.Reaching.ok {T : Hub E → Hub E → Prop} {h h' : Hub E} (hT : T h h') :
    Hub.Reaching T h (.ok h') := by
  rintro _ ⟨⟩
  exact hT

instance (T : Hub E → Hub E → Prop) [Hub.Flow T] : Hub.Regime (Hub.Reaching T) where
  quiet hq := .ok (Hub.Flow.quiet hq)
  chain h₁ hr h' heq := Hub.Flow.trans (h₁ _ rfl) (hr h' heq)
  stuck _ h' heq := by cases heq
  deep h' heq := by cases heq

namespace Run

variable {α β : Type} {S : Hub E → Except Halt (Hub E) → Prop}

/-- The relation holds between the hub before a run and what the run ends in. -/
def Ends (S : Hub E → Except Halt (Hub E) → Prop) (x : Run E α) : Prop :=
  ∀ h, S h ((x h).map Prod.snd)

/-- What holds of the hub that a run reaches is kept by the run. -/
theorem ends_reaching {T : Hub E → Hub E → Prop} {x : Run E α} :
    Ends (Hub.Reaching T) x ↔ Keeps T x := by
  constructor
  · intro hx h a h' hr
    exact hx h h' (by rw [hr]; rfl)
  · intro hx h h' heq
    obtain ⟨p, hr, rfl⟩ := exists_of_map_eq_ok heq
    exact hx hr

namespace Ends

variable {h h' : Hub E} [Hub.Regime S]

/-- A run that does nothing ends where it began. -/
theorem pure (a : α) : Ends S (Pure.pure a : Run E α) := fun h => Hub.Regime.quiet (.refl h)

/-- What a sequence ends in, from one hub. -/
theorem bind_at {x : Run E α} {f : α → Run E β} (hx : S h ((x h).map Prod.snd))
    (hf : ∀ a h₁, x h = .ok (a, h₁) → S h₁ ((f a h₁).map Prod.snd)) :
    S h (((x >>= f) h).map Prod.snd) := by
  show S h ((x h >>= fun p => f p.1 p.2).map Prod.snd)
  cases hr : x h with
  | error halt =>
    -- a sequence halts where its first part does
    rw [hr] at hx
    exact hx
  | ok p =>
    rw [hr] at hx
    exact Hub.Regime.chain hx (hf p.1 p.2 hr)

/-- A sequence ends as the relation says if each of its parts does. -/
theorem bind {x : Run E α} {f : α → Run E β} (hx : Ends S x) (hf : ∀ a, Ends S (f a)) :
    Ends S (x >>= f) := fun h => bind_at (hx h) fun a h₁ _ => hf a h₁

/-- A quiet change ends quietly. -/
theorem change {f : Hub E → α × Hub E} (hf : ∀ h : Hub E, h.Quiet (f h).2) :
    Ends S (modifyGet f : Run E α) := fun h => Hub.Regime.quiet (hf h)

theorem get : Ends S (MonadState.get : Run E (Hub E)) := fun h => Hub.Regime.quiet (.refl h)

theorem collection (c : Nat) : Ends S (collection c : Run E _) := .bind .get fun _ => .pure _

theorem record {m : Moment E} (hm : m.IsQuiet) : Ends S (record m) :=
  .change (f := fun h => ((), h.record m)) fun _ => .record hm

/-- A look under a lock takes the lock and gives it back, if it does not have to wait. -/
theorem look (c : Nat) (lock : Lock) (f : Collection E → α) :
    Ends S (locked c lock do Pure.pure (f (← Run.collection c))) := by
  intro h
  by_cases hl : lock ∈ (h.collection c).locks
  · rw [locked_of_held hl]
    exact Hub.Regime.stuck hl
  · have hr := (locked_pure_eq_ok (f := f)).2 ⟨hl, rfl, rfl⟩
    have haside : h.Aside _ := Keeps.locked c lock (.bind (.collection c) fun _ => .pure _) hr
    rw [Hub.update_update_of_inverse (fun k => by rw [List.erase_cons_head])] at hr haside
    rw [hr]
    exact Hub.Regime.quiet ⟨haside, ⟨[], rfl, by simp⟩, fun _ => rfl, fun _ => rfl, fun _ => rfl⟩

/-- A loop ends as the relation says if each of its rounds does. -/
theorem forM {γ : Type} {f : γ → Run E PUnit} :
    ∀ (l : List γ), (∀ a ∈ l, Ends S (f a)) → Ends S (l.forM f)
  | [], _ => .pure _
  | a :: l, hf =>
    .bind (hf a List.mem_cons_self) fun _ => forM l fun b hb => hf b (List.mem_cons_of_mem _ hb)

end Ends

variable [ServiceEntry E] {nested : Nested E}

/-- The operations that deliver events respect a relation. -/
structure Deliveries (nested : Nested E) (S : Hub E → Except Halt (Hub E) → Prop) : Prop where
  observed : ∀ l event, Ends S (call nested l (.event event))
  appeared : ∀ c r, Ends S (apply nested c .appeared r)
  removed : ∀ c id, Ends S (remove nested c id)

/-- The operations on the life of a collection respect a relation. -/
structure Lives (nested : Nested E) (S : Hub E → Except Halt (Hub E) → Prop) : Prop where
  begun : ∀ c, Ends S (locked c .subscription (begin nested c).run)
  destroyed : ∀ c, Ends S (destroy nested c)
  lifecycle : ∀ c l, Ends S (addLifecycleListener c l)
  state : ∀ c l, Ends S (addStateListener c l)

variable [Hub.Regime S]

/-- What the operations respect, built runs respect. -/
theorem Built.ends {whole : Bool} {x : Run E α} (hx : Built nested whole x)
    (w : Deliveries nested S) (hl : whole = true → Lives nested S) : Ends S x := by
  induction hx with
  | pure a => exact .pure a
  | bind _ _ ihx ihf => exact .bind (ihx hl) fun a => ihf a hl
  | change hf => exact .change hf
  | look c lock f => exact .look c lock f
  | observed l event => exact w.observed l event
  | appeared c r => exact w.appeared c r
  | removed c id => exact w.removed c id
  | begun c => exact (hl rfl).begun c
  | destroyed c => exact (hl rfl).destroyed c
  | lifecycle c l => exact (hl rfl).lifecycle c l
  | state c l => exact (hl rfl).state c l

namespace Ends

omit [ServiceEntry E] in
/-- Trouble is no halt: the run ends where it is. -/
theorem act_throw {α : Type} (t : Trouble) : Ends S (MonadExcept.throw t : Act E α).run := .pure _

omit [ServiceEntry E] in
theorem act_lift {α : Type} {x : Run E α} (hx : Ends S x) : Ends S (liftM x : Act E α).run :=
  .bind hx fun _ => .pure _

omit [ServiceEntry E] in
/-- A sequence of operations ends as the relation says if each of them does. -/
theorem act_bind {α β : Type} {x : Act E α} {f : α → Act E β} (hx : Ends S x.run)
    (hf : ∀ a, Ends S (f a).run) : Ends S (x >>= f).run := by
  refine .bind hx fun a => ?_
  cases a with
  | ok a => exact hf a
  | error t => exact .pure _

/-- A collection is subscribed, unless it was or is closed. -/
theorem begin {c : Nat} (w : Deliveries nested S)
    (hnote : ∀ id : UInt64,
      Ends S (Run.update (E := E) c fun k => { k with subscription := some id })) :
    Ends S (Run.begin nested c).run := by
  refine .act_bind (.act_lift (.collection c)) fun k => ?_
  -- both refusals go on, in the type, to what follows them, so the end is stated first
  have hend : Ends S (do
      let id ← Run.subscribe nested k.dependency.filter (.importer c)
      Run.update (E := E) c fun k => { k with subscription := some id } : Act E Unit).run := by
    have hsubscribe : Built nested false
      (Run.subscribe nested k.dependency.filter (.importer c)).run := .subscribe _ _
    exact .act_bind (hsubscribe.ends w Bool.noConfusion) fun id => .act_lift (hnote id)
  have hopen : Ends S (do
      if ← Run.isClosed (E := E) c then
        throw (.failed (.illegalState "collection already destroyed"))
      let id ← Run.subscribe nested k.dependency.filter (.importer c)
      Run.update (E := E) c fun k => { k with subscription := some id } : Act E Unit).run := by
    refine .act_bind (.act_lift (.look c .index Collection.closed)) fun closed => ?_
    split
    · exact .act_bind (.act_throw _) fun _ => hend
    · exact hend
  split
  · exact .act_bind (.act_throw _) fun _ => hopen
  · exact hopen

end Ends

/-- **Ends.** What the operations respect whenever nested commands do, commands respect at every
depth. -/
theorem ends_run
    (hops : ∀ depth, (∀ command, Ends S (run depth command)) →
      Deliveries (E := E) (run depth) S ∧ Lives (E := E) (run depth) S)
    (hended : ∀ h : Hub E, S h (.ok (h.record (.ended h.census)))) (depth : Nat)
    (command : Command E) : Ends S (run depth command) := by
  induction depth generalizing command with
  | zero => exact fun h => Hub.Regime.deep
  | succ depth ih =>
    obtain ⟨hdeliveries, hlives⟩ := hops depth ih
    refine .bind ((Built.execute command).ends hdeliveries fun _ => hlives) fun answer => ?_
    intro h
    exact hended h

/-- So do sequences of commands. -/
theorem ends_runAll {depth : Nat} (hrun : ∀ command, Ends S (run depth command : Run E _))
    (commands : List (Command E)) (h : Hub E) : S h ((h.runAll depth commands).map Prod.snd) := by
  induction commands generalizing h with
  | nil => exact Hub.Regime.quiet (.refl h)
  | cons command commands ih =>
    rw [Hub.runAll]
    have hfirst := hrun command h
    show S h ((run depth command h >>= _).map Prod.snd)
    cases hr : run depth command h with
    | error halt =>
      rw [hr] at hfirst
      exact hfirst
    | ok p =>
      rw [hr] at hfirst
      refine Hub.Regime.chain hfirst ?_
      have hrest := ih p.2
      show S p.2 ((Hub.runAll depth p.2 commands >>= _).map Prod.snd)
      cases hq : Hub.runAll depth p.2 commands with
      | error halt =>
        rw [hq] at hrest
        exact hrest
      | ok q =>
        rw [hq] at hrest
        exact hrest

end Run

end LiveServices
