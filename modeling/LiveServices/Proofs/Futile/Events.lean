import LiveServices.Proofs.Futile.Agreement

/-!
# Futile events

An event that an importer answers neither with an admission nor with a retraction has no effect at
all. If all such events are deleted from a sequence of commands, then the commands that are left are
answered as before, the collection has the same services and entries in the same order, all
iterators stand where they stood, and the same callbacks were made (`futile_events_ineffective`).

The two runs are followed side by side. Where an event is futile only the first run goes on, and
nothing comes of it (`Hub.Parallel.futile`); every other command is carried out in both
(`Hub.Parallel.brought`, `Hub.Parallel.traversal`). The runs may differ in how often the factory was
asked for an entry. So entries that the factory makes for one service are only asked to be alike,
which is equality for a factory that is a function of the reference (`Factory.Repeats.of_eq`), and
for the factory of proxies that they stand for the same service (`Factory.repeats_ofProxies`).
-/

namespace LiveServices

variable {E : Type} [ServiceEntry E] {like : E → E → Prop}

/-! ## Collections -/

namespace Collection

variable {k k' : Collection E} {r : ServiceReference} {id : UInt64}

theorem takes_offered (k : Collection E) (n : Nat) (r : ServiceReference) :
    k.Takes r (k.after (k.offered n r)) := by
  by_cases hk : k.closed = true ∨ k.hasIdentity r.id = true
  · rw [offered_of_idle hk]
    exact .passed hk
  · obtain ⟨ho, hn⟩ : k.closed = false ∧ k.hasIdentity r.id = false := by simpa using hk
    rw [offered_of_new ho hn]
    cases hm : k.factory.create n r with
    | failed f => exact .unmade ho hn (fun _ _ hmade => by rw [hm] at hmade; cases hmade)
    | panicked message => exact .unmade ho hn (fun _ _ hmade => by rw [hm] at hmade; cases hmade)
    | made entry release =>
      show k.Takes r (k.after (k.joined ⟨n, entry, r, release⟩))
      unfold joined
      split
      · next ht => exact .admitted ho hn hm ht
      · next ht => exact .refused ho hn hm (Bool.eq_false_iff.2 ht)

theorem drops_withdrawn (k : Collection E) (id : UInt64) :
    k.Drops id (k.after (k.withdrawn id)) := by
  cases hf : Roster.find? Holding.id id k.index with
  | none =>
    have hn := find?_eq_none_iff.1 hf
    rw [withdrawn_of_absent hn]
    exact .absent hn
  | some holding =>
    rw [withdrawn_of_found hf, parted]
    split
    · exact .found hf
    · exact .found hf

/-- What comes of an event is what a collection does that hears of it. -/
theorem hears_upshot (k : Collection E) (n : Nat) (event : ServiceEvent) :
    k.Hears event (k.after (k.upshot n event)) := by
  unfold Hears upshot
  cases Notification.ofKind? event.kind with
  | none => rfl
  | some notification =>
    cases notification with
    | appeared | updated => exact takes_offered k n _
    | disappeared => exact drops_withdrawn k _

theorem Hears.calm {event : ServiceEvent} (hh : k.Hears event k') (hk : k.Calm) : k'.Calm := by
  unfold Hears at hh
  split at hh
  · exact hh.calm hk
  · exact hh.calm hk
  · exact hh.calm hk
  · exact hh ▸ hk

theorem Takes.sound (ht : k.Takes r k') (hk : k.Sound) : k'.Sound := by
  cases ht with
  | passed | unmade | refused => exact hk
  | admitted ho hn hm ht => exact hk.enter hn ⟨_, _, _, hm⟩ ht

theorem Drops.sound (hd : k.Drops id k') (hk : k.Sound) : k'.Sound := by
  cases hd with
  | absent => exact hk
  | found hf => exact hk.leave hf

theorem Hears.sound {event : ServiceEvent} (hh : k.Hears event k') (hk : k.Sound) : k'.Sound := by
  unfold Hears at hh
  split at hh
  · exact hh.sound hk
  · exact hh.sound hk
  · exact hh.sound hk
  · exact hh ▸ hk

end Collection

/-! ## Iterators -/

/-- A command to an iterator reaches an answer while no lock is taken. -/
theorem Run.traversal_browses (nested : Nested E) {h : Hub E} (hi : h.Idle) {command : Command E}
    (ht : command.IsTraversal) : Browses (fun _ => True) (execute nested command) h := by
  have hread (hr : command.IsRead) : Browses (fun _ => True) (execute nested command) h := by
    obtain ⟨answer, h', hrun, hb, -⟩ := execute_browses nested hi hr
    exact ⟨answer, h', hrun, hb, trivial⟩
  cases command with
  | iter | tryNext | next | hasNext | drain => exact hread trivial
  | iterRemove name => exact withTraversal_browses (fun _ => .pure trivial) trivial
  | dropIter name => exact (dropIter_browses name).bind fun _ _ _ _ => .pure trivial
  | _ => cases ht

/-! ## Two runs -/

namespace Hub

/-- A hub in which no lock is taken, with a collection that is there and whose listeners and release
actions give no commands. Equality is an equivalence on the entries that the factory makes, and
neither the factory nor the mode tells entries apart that are alike. -/
structure Tranquil (like : E → E → Prop) (c : Nat) (h : Hub E) : Prop where
  idle : h.Idle
  calm : (h.collection c).Calm
  present : (h.collection c).dropped = false
  sound : (h.collection c).Sound
  equivalent : (h.collection c).factory.EntriesEquivalent
  mode : (h.collection c).mode.Overlooks like
  factory : (h.collection c).factory.Repeats like

namespace Tranquil

variable {c n : Nat} {h h' : Hub E} {event : ServiceEvent}

/-- A hub is tranquil after an event. -/
theorem heeds (hs : h.Tranquil like c)
    (hh : h.Heeds c ((h.collection c).upshot n event) h') : h'.Tranquil like c := by
  have hears := (h.collection c).hears_upshot n event
  refine ⟨fun d => ?_, ?_, ?_, ?_, ?_, ?_, ?_⟩
  · by_cases hd : d = c
    · rw [hd, hh.here]
      exact hs.idle c
    · rw [hh.elsewhere d hd]
      exact hs.idle d
  all_goals rw [hh.here]
  · exact hears.calm hs.calm
  · exact hs.present
  · exact hears.sound hs.sound
  · exact hs.equivalent
  · exact hs.mode
  · exact hs.factory

/-- A hub is tranquil after a read. -/
theorem browsed (hs : h.Tranquil like c) (hb : h.Browsed h') : h'.Tranquil like c := by
  obtain ⟨storage, hitems, hk⟩ := hb.collection c
  refine ⟨hb.idle hs.idle, ?_, ?_, ?_, ?_, ?_, ?_⟩
  all_goals rw [hk]
  · exact hs.calm.of_eq (fun _ => .inr) rfl rfl rfl rfl
  · exact hs.present
  · exact .of_sameEntries (k := h.collection c) ⟨rfl, rfl, hitems⟩ hs.sound
  · exact hs.equivalent
  · exact hs.mode
  · exact hs.factory

end Tranquil

/-- Two tranquil hubs that resemble each other. -/
structure Parallel (like : E → E → Prop) (c : Nat) (h h' : Hub E) : Prop where
  first : h.Tranquil like c
  second : h'.Tranquil like c
  resembles : h.Resembles like h'

end Hub

/-- A command that gives an event to the importer of a collection. -/
inductive Command.Brings (c : Nat) (event : ServiceEvent) : Command E → Prop where
  | reconcile : Brings c event (.reconcile c event)
  | serviceChanged : Brings c event (.serviceChanged c event)

namespace Hub

variable {c : Nat} {h h' : Hub E} {event : ServiceEvent} {command : Command E}

namespace Parallel

/-- An event is answered in the same way in both hubs. -/
theorem brought (hp : h.Parallel like c h') (hl : Interchangeable like)
    (hb : command.Brings c event) (depth : Nat) : ∃ answer h₁ h₁',
    h.run (depth + 1) command = .ok (answer, h₁) ∧
    h'.run (depth + 1) command = .ok (answer, h₁') ∧ h₁.Parallel like c h₁' := by
  obtain ⟨⟨h₁, hrun, hh⟩, ⟨g, hchanged, hg⟩⟩ :=
    run_event hp.first.calm hp.first.present event depth
  obtain ⟨⟨h₁', hrun', hh'⟩, ⟨g', hchanged', hg'⟩⟩ :=
    run_event hp.second.calm hp.second.present event depth
  have hu := (hp.resembles.collection c).upshot hl hp.first.mode hp.first.factory
    (h.attempts + 1) (h'.attempts + 1) event
  cases hb with
  | reconcile =>
    rw [hu.answer] at hrun'
    exact ⟨_, h₁, h₁', hrun, hrun', hp.first.heeds hh, hp.second.heeds hh',
      hp.resembles.heeds hu hh hh'⟩
  | serviceChanged =>
    exact ⟨_, g, g', hchanged, hchanged', hp.first.heeds hg, hp.second.heeds hg',
      hp.resembles.heeds hu hg hg'⟩

/-- A command to an iterator is answered in the same way. -/
theorem traversal (hp : h.Parallel like c h') (hl : Interchangeable like)
    (ht : command.IsTraversal) (depth : Nat) : ∃ answer answer' h₁ h₁',
    h.run (depth + 1) command = .ok (answer, h₁) ∧
    h'.run (depth + 1) command = .ok (answer', h₁') ∧ answer.Resembles answer' ∧
    h₁.Parallel like c h₁' := by
  obtain ⟨answer, h₁, hrun, hb, -⟩ := Run.traversal_browses (Run.run depth) hp.first.idle ht
  obtain ⟨answer', h₁', hrun', hb', -⟩ := Run.traversal_browses (Run.run depth) hp.second.idle ht
  have hmeets := Run.Agree.traversal_alike hl (Run.run depth) ht hp.resembles
  rw [hrun, hrun'] at hmeets
  cases hmeets with
  | reached hanswers hs =>
    refine ⟨answer, answer', _, _, run_ok hrun, run_ok hrun', hanswers, ?_, ?_, ?_⟩
    · exact hp.first.browsed (hb.trans (Hush.browsed ⟨rfl, rfl⟩))
    · exact hp.second.browsed (hb'.trans (Hush.browsed ⟨rfl, rfl⟩))
    · exact ⟨hs.length, hs.collection, hs.traversals, hs.calls⟩

end Parallel

/-! ## Deleting events -/

/-- Whether a command brings an event that is answered neither with an admission nor with a
retraction. -/
def isFutile (depth : Nat) (h : Hub E) : Command E → Bool
  | .reconcile c event | .serviceChanged c event =>
    match h.run depth (.reconcile c event) with
    | .ok (answer, _) => answer.isFutile
    | .error _ => false
  | _ => false

/-- The commands that are left of a sequence, with their answers, when all that bring futile events
are deleted. -/
def effective (depth : Nat) : Hub E → List (Command E) → List (Command E × Answer)
  | _, [] => []
  | h, command :: commands =>
    match h.run depth command with
    | .ok (answer, h') =>
      if h.isFutile depth command then h'.effective depth commands
      else (command, answer) :: h'.effective depth commands
    | .error _ => []

theorem effective_cons {depth : Nat} {answer : Answer} {h₁ : Hub E} {commands : List (Command E)}
    (hr : h.run depth command = .ok (answer, h₁)) :
    h.effective depth (command :: commands) =
      if h.isFutile depth command then h₁.effective depth commands
      else (command, answer) :: h₁.effective depth commands := by
  rw [effective, hr]

/-- **Futile events.** What brings a futile event is carried out in the first hub, and nothing
comes of it. -/
theorem Parallel.futile (hp : h.Parallel like c h') (hb : command.Brings c event) {depth : Nat}
    (hf : h.isFutile (depth + 1) command = true) : ∃ answer h₁,
    h.run (depth + 1) command = .ok (answer, h₁) ∧ h₁.Parallel like c h' := by
  obtain ⟨⟨h₁, hrun, hh⟩, ⟨g, hchanged, hg⟩⟩ :=
    run_event hp.first.calm hp.first.present event depth
  have hanswer : ((h.collection c).upshot (h.attempts + 1) event).answer.isFutile = true := by
    cases hb <;> simpa only [isFutile, hrun] using hf
  obtain ⟨result, hu⟩ := Collection.upshot_of_futile hp.first.sound hp.first.equivalent hanswer
  cases hb with
  | reconcile =>
    exact ⟨_, h₁, hrun, hp.first.heeds hh, hp.second, hp.resembles.unmoved (hu ▸ hh)⟩
  | serviceChanged =>
    exact ⟨_, g, hchanged, hp.first.heeds hg, hp.second, hp.resembles.unmoved (hu ▸ hg)⟩

/-- **Sequences.** Two hubs stay parallel if in the second one the futile events are left out. -/
theorem Parallel.runAll (hp : h.Parallel like c h') (hl : Interchangeable like)
    {commands : List (Command E)}
    (hc : ∀ command ∈ commands, command.IsTraversal ∨ ∃ event, command.Brings c event)
    (depth : Nat) : ∃ answers h₁ answers' h₁',
    h.runAll (depth + 1) commands = .ok (answers, h₁) ∧
    h'.runAll (depth + 1) ((h.effective (depth + 1) commands).map Prod.fst) =
      .ok (answers', h₁') ∧
    List.Forall₂ Answer.Resembles ((h.effective (depth + 1) commands).map Prod.snd) answers' ∧
    h₁.Parallel like c h₁' := by
  induction commands generalizing h h' with
  | nil => exact ⟨[], h, [], h', rfl, rfl, .nil, hp⟩
  | cons command commands ih =>
    have hrest := fun command hmem => hc command (List.mem_cons_of_mem _ hmem)
    by_cases hf : h.isFutile (depth + 1) command = true
    · -- the second run stays where it is
      obtain ⟨event, hb⟩ : ∃ event, command.Brings c event := by
        rcases hc command List.mem_cons_self with ht | hb
        · cases command <;> first | cases hf | cases ht
        · exact hb
      obtain ⟨answer, g, hrun, hg⟩ := hp.futile hb hf
      obtain ⟨answers, h₁, answers', h₁', hall, hall', hanswers, hend⟩ := ih hg hrest
      rw [effective_cons hrun, if_pos hf]
      exact ⟨_, h₁, answers', h₁', runAll_cons_eq_ok.2 ⟨answer, g, answers, hrun, hall, rfl⟩,
        hall', hanswers, hend⟩
    · obtain ⟨answer, answer', g, g', hrun, hrun', hanswer, hg⟩ : ∃ answer answer' g g',
          h.run (depth + 1) command = .ok (answer, g) ∧
          h'.run (depth + 1) command = .ok (answer', g') ∧ answer.Resembles answer' ∧
          g.Parallel like c g' := by
        rcases hc command List.mem_cons_self with ht | ⟨event, hb⟩
        · exact hp.traversal hl ht depth
        · obtain ⟨answer, g, g', hrun, hrun', hg⟩ := hp.brought hl hb depth
          exact ⟨answer, answer, g, g', hrun, hrun', rfl, hg⟩
      obtain ⟨answers, h₁, answers', h₁', hall, hall', hanswers, hend⟩ := ih hg hrest
      rw [effective_cons hrun, if_neg hf]
      exact ⟨_, h₁, _, h₁', runAll_cons_eq_ok.2 ⟨answer, g, answers, hrun, hall, rfl⟩,
        runAll_cons_eq_ok.2 ⟨answer', g', answers', hrun', hall', rfl⟩,
        .cons hanswer hanswers, hend⟩

/-- No lock is taken after a run from plans. -/
theorem idle_of_runAll {plans : List (Plan E)} {depth : Nat} {commands : List (Command E)}
    {answers : List Answer} (hr : (ofPlans plans).runAll depth commands = .ok (answers, h)) :
    h.Idle := fun c => by
  have hend := Run.ends_runAll (Run.ends_free (c := c) depth) commands (ofPlans plans)
  rw [hr] at hend
  have hp : Hub.Passed c (ofPlans plans) h := hend fun d => .inl (idle_ofPlans plans d)
  rw [hp.locks, idle_ofPlans]

end Hub

/-- **Only admissions and retractions have effects.** Take a collection that is there after any run
from plans, whose listeners and release actions give no commands. Let equality be an equivalence on
the entries that its factory makes, let the factory do the same whenever it is asked for a service,
with entries that are alike, which may be to fail or to panic, and let neither references nor
equality nor the order of the mode tell entries apart that are alike.

Then every sequence of events for its importer and commands to iterators is carried out; and so is
what is left of it when all events are deleted that are answered with no change, that are not
recognized, or for which there is no entry. All that is left is answered as before. In the end the
collection has the same services, and entries that are alike one by one; the cursors of its storage
are the same and stand at the same places; the same iterators were handed out; and the listeners
were called in the same order for the same reasons. -/
theorem futile_events_ineffective {plans : List (Plan E)} {depth₀ : Nat} {before : List (Command E)}
    {answers₀ : List Answer} {h : Hub E} {c : Nat}
    (hr : (Hub.ofPlans plans).runAll depth₀ before = .ok (answers₀, h))
    (hcalm : (h.collection c).Calm) (hpresent : (h.collection c).dropped = false)
    (hequal : (h.collection c).factory.EntriesEquivalent)
    (hfactory : (h.collection c).factory.Repeats like)
    (hl : Interchangeable like) (hmode : (h.collection c).mode.Overlooks like)
    {commands : List (Command E)}
    (hc : ∀ command ∈ commands, command.IsTraversal ∨ ∃ event, command.Brings c event)
    (depth : Nat) : ∃ answers h₁ answers' h₁',
    h.runAll (depth + 1) commands = .ok (answers, h₁) ∧
    h.runAll (depth + 1) ((h.effective (depth + 1) commands).map Prod.fst) = .ok (answers', h₁') ∧
    List.Forall₂ Answer.Resembles ((h.effective (depth + 1) commands).map Prod.snd) answers' ∧
    (h₁'.collection c).identities = (h₁.collection c).identities ∧
    List.Forall₂ like (h₁.collection c).storage.items (h₁'.collection c).storage.items ∧
    (h₁'.collection c).storage.cursors = (h₁.collection c).storage.cursors ∧
    h₁'.traversals = h₁.traversals ∧
    List.Forall₂ (Callback.CalledAlike like) h₁.calls h₁'.calls := by
  have htranquil : h.Tranquil like c := ⟨Hub.idle_of_runAll hr, hcalm, hpresent,
    (Hub.coherent_runAll hr).now c, hequal, hmode, hfactory⟩
  have hp : h.Parallel like c h := ⟨htranquil, htranquil, .refl hl.refl h⟩
  obtain ⟨answers, h₁, answers', h₁', hall, hall', hanswers, hend⟩ := hp.runAll hl hc depth
  have hk := hend.resembles.collection c
  exact ⟨answers, h₁, answers', h₁', hall, hall', hanswers, hk.identities, hk.storage.items,
    hk.storage.cursors, hend.resembles.traversals, hend.resembles.calls⟩

/-! ### A crowd -/

/-- A factory that panics for the fifth service and has no entry for the fourth. -/
def Factory.wary : Factory Entry where
  name := "wary"
  create _ r :=
    if r.id = 4 then .failed (.internal "not this one")
    else if r.id = 5 then .panicked none
    else .made (.reference r) (some ⟨true, .silent⟩)

theorem Factory.create_wary {n : Nat} {r : ServiceReference} {entry : Entry}
    {release : Option (Release Entry)} (hm : wary.create n r = .made entry release) :
    entry = .reference r ∧ release = some ⟨true, .silent⟩ := by
  simp only [wary] at hm
  split at hm
  · cases hm
  split at hm
  · cases hm
  · cases hm
    exact ⟨rfl, rfl⟩

/-- A sorted set of these entries with one place for odd services and one for even ones, and
listeners that fail and panic. -/
def Plan.pews : Plan Entry where
  hasRegistry := true
  factory := some .wary
  filter := some ⟨"", .and []⟩
  mode := .sortedSet fun a b =>
    compare ((ServiceEntry.reference a).id % 2) ((ServiceEntry.reference b).id % 2)
  lifecycleListeners := [.mk "usher" .silent fun _ _ => .mk [] (.fail (.internal "refused"))]
  stateListeners := [.mk "warden" .silent fun _ _ => .mk [] (.panic none)]

/-- The third service is offered twice: while its place is taken, and after the first one left. -/
def Command.crowd : List (Command Entry) :=
  [.reconcile 0 (.registered ⟨1, .empty⟩), .iter 0 "it", .reconcile 0 (.modified ⟨1, .empty⟩),
    .reconcile 0 (.registered ⟨3, .empty⟩), .reconcile 0 (.registered ⟨4, .empty⟩),
    .serviceChanged 0 (.registered ⟨5, .empty⟩), .reconcile 0 ⟨.modifiedEndmatch, ⟨1, .empty⟩⟩,
    .reconcile 0 (.registered ⟨2, .empty⟩), .next "it", .reconcile 0 (.unregistering ⟨7, .empty⟩),
    .reconcile 0 (.unregistering ⟨1, .empty⟩), .serviceChanged 0 (.registered ⟨3, .empty⟩)]

theorem Command.crowd_brings : ∀ command ∈ crowd,
    command.IsTraversal ∨ ∃ event, command.Brings 0 event := by
  simp only [crowd, List.forall_mem_cons, List.not_mem_nil, false_implies, implies_true, and_true]
  exact ⟨.inr ⟨_, .reconcile⟩, .inl trivial, .inr ⟨_, .reconcile⟩, .inr ⟨_, .reconcile⟩,
    .inr ⟨_, .reconcile⟩, .inr ⟨_, .serviceChanged⟩, .inr ⟨_, .reconcile⟩, .inr ⟨_, .reconcile⟩,
    .inl trivial, .inr ⟨_, .reconcile⟩, .inr ⟨_, .reconcile⟩, .inr ⟨_, .serviceChanged⟩⟩

/-- Six of the twelve commands are left, and they come to the same. -/
theorem futile_events_ineffective_crowd :
    let h₀ := Hub.ofPlans [Plan.pews]
    let left := (h₀.effective 1 Command.crowd).map Prod.fst
    left.map Command.name =
      ["reconcile", "iter", "reconcile", "next", "reconcile", "serviceChanged"] ∧
    ∃ answers h answers' h', h₀.runAll 1 Command.crowd = .ok (answers, h) ∧
      h₀.runAll 1 left = .ok (answers', h') ∧ (h.collection 0).identities = [2, 3] ∧
      (h'.collection 0).identities = [2, 3] ∧
      (h'.collection 0).storage.items = (h.collection 0).storage.items ∧
      h'.traversals = h.traversals ∧ h'.calls.length = 5 := by
  intro h₀ left
  have hleft : left.map Command.name =
      ["reconcile", "iter", "reconcile", "next", "reconcile", "serviceChanged"] := by
    decide +kernel
  obtain ⟨⟨answers, h⟩, hr, hseen⟩ := Run.exists_of_map_eq_ok
    (f := fun p : List Answer × Hub Entry => ((p.2.collection 0).identities, p.2.calls.length))
    (show (h₀.runAll 1 Command.crowd).map _ = .ok ([2, 3], 5) by decide +kernel)
  obtain ⟨hids, hcalls⟩ := Prod.mk.inj hseen
  have hcalm : (h₀.collection 0).Calm := by
    refine ⟨fun _ hl => absurd hl List.not_mem_nil, fun a ha => ?_, fun a ha => ?_,
      fun n r entry release hm => ?_, fun _ hx => absurd hx List.not_mem_nil⟩
    · obtain rfl := List.mem_singleton.1 ha
      exact fun _ _ => rfl
    · obtain rfl := List.mem_singleton.1 ha
      exact fun _ _ => rfl
    · cases (Factory.create_wary hm).2
      rfl
  have hequal : (h₀.collection 0).factory.EntriesEquivalent := by
    refine Factory.entriesEquivalent_of_no_ghost ?_
    rintro e ⟨n, r, release, hm⟩
    rw [(Factory.create_wary hm).1]
    rfl
  have hfactory : (h₀.collection 0).factory.Repeats Eq := .of_eq fun _ _ _ => rfl
  obtain ⟨answers₁, h₁, answers', h', hr₁, hr', -, hids', hitems, -, htraversals, hcalls'⟩ :=
    futile_events_ineffective (show h₀.runAll 1 [] = .ok ([], h₀) from rfl) hcalm rfl hequal
      hfactory .eq (.eq _) Command.crowd_brings 0
  obtain ⟨rfl, rfl⟩ := Prod.mk.inj (Except.ok.inj (hr₁.symm.trans hr))
  exact ⟨hleft, _, _, answers', h', hr, hr', hids, hids'.trans hids,
    (List.forall₂_eq_eq_eq ▸ hitems).symm, htraversals, hcalls'.length_eq.symm.trans hcalls⟩

end LiveServices
