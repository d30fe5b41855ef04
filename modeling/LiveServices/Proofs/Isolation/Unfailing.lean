import LiveServices.Hub.Execute
import LiveServices.Hub.Lemmas

/-!
# Listeners that never fail

Two systems differ only in how their listeners and release actions finish if they become the same
system once each of these calls is made to end well. `Listener.unfailing` and `Release.unfailing`
do this to a listener and a release action, and from there it goes through all that holds one: the
commands that attach a listener, factories, collections, the registry, and at last the hub.

A listener that is subscribed to the registry itself is not called under guard: its panic ends the
operation. So what it does with an event is left as it is.

`Hub.Spared h h'` says that `h'` is the hub `h` with every failure spared. Of the trace it lacks
the notes that a guarded call failed (`Moment.isMishap`), and nothing else.
-/

namespace LiveServices

variable {E : Type}

/-! ## Commands and listeners -/

/-- Whether a callback is made by a collection, which guards it. -/
def Callback.isGuarded : Callback E → Bool
  | .event _ => false
  | _ => true

mutual

/-- The command with the listener that it attaches unfailing. -/
def Command.unfailing : Command E → Command E
  | .addListener home filter l => .addListener home filter l.unfailing
  | .addLifecycleListener c l => .addLifecycleListener c l.unfailing
  | .addStateListener c l => .addStateListener c l.unfailing
  | command => command

/-- The commands with the listeners that they attach unfailing. -/
def Command.allUnfailing : List (Command E) → List (Command E)
  | [] => []
  | command :: commands => command.unfailing :: Command.allUnfailing commands

/-- The response with the same commands that ends well if it is guarded. -/
def Response.unfailing (guarded : Bool) : Response E → Response E
  | .mk commands finish => .mk (Command.allUnfailing commands) (if guarded then .done else finish)

/-- The listener that gives the same commands and ends well whenever it is called under guard. -/
def Listener.unfailing : Listener E → Listener E
  | .mk name reporting respond => .mk name reporting fun told callback =>
    (respond told callback).unfailing callback.isGuarded

end

theorem Command.allUnfailing_eq_map (commands : List (Command E)) :
    Command.allUnfailing commands = commands.map Command.unfailing := by
  induction commands with
  | nil => rfl
  | cons command commands ih =>
    rw [Command.allUnfailing, ih]
    rfl

/-- A command has its name, whatever its listener does. -/
@[simp] theorem Command.name_unfailing (command : Command E) :
    command.unfailing.name = command.name := by
  cases command <;> rfl

/-- The commands of a response are the same, each with its listener unfailing. -/
theorem Response.commands_unfailing (guarded : Bool) (response : Response E) :
    (response.unfailing guarded).commands = response.commands.map Command.unfailing := by
  cases response with
  | mk commands finish => exact Command.allUnfailing_eq_map commands

/-- A response that is not guarded finishes as it did. -/
theorem Response.finish_unfailing (response : Response E) :
    (response.unfailing false).finish = response.finish := by
  cases response with
  | mk commands finish => rfl

@[simp] theorem Listener.name_unfailing (l : Listener E) : l.unfailing.name = l.name := by
  cases l with
  | mk name reporting respond => rfl

@[simp] theorem Listener.reporting_unfailing (l : Listener E) :
    l.unfailing.reporting = l.reporting := by
  cases l with
  | mk name reporting respond => rfl

/-- A listener responds as it did, and ends well if it is called under guard. -/
theorem Listener.respond_unfailing (l : Listener E) (told : List (Callback E))
    (callback : Callback E) : l.unfailing.respond told callback =
      (l.respond told callback).unfailing callback.isGuarded := by
  cases l with
  | mk name reporting respond => rfl

/-- The attached listener, unfailing. -/
def Attached.unfailing (a : Attached E) : Attached E := { a with listener := a.listener.unfailing }

@[simp] theorem Attached.tag_unfailing (a : Attached E) : a.unfailing.tag = a.tag := by
  simp [Attached.tag, Attached.unfailing]

/-! ## Factories and collections -/

/-- The release action that gives the same commands and ends well. -/
def Release.unfailing (release : Release E) : Release E :=
  { release with response := release.response.unfailing true }

/-- What was made, with its release action unfailing. -/
def Creation.unfailing : Creation E → Creation E
  | .made entry release => .made entry (release.map Release.unfailing)
  | creation => creation

/-- The factory of the same entries, with unfailing release actions. -/
def Factory.unfailing (factory : Factory E) : Factory E :=
  { factory with create := fun serial r => (factory.create serial r).unfailing }

/-- The holding with its release action unfailing. -/
def Holding.unfailing (holding : Holding E) : Holding E :=
  { holding with release := holding.release.map Release.unfailing }

theorem Holding.id_unfailing (holding : Holding E) : holding.unfailing.id = holding.id := rfl

/-- The collection with all that belongs to it unfailing. -/
def Collection.unfailing (k : Collection E) : Collection E :=
  { k with
    factory := k.factory.unfailing
    index := k.index.map Holding.unfailing
    lifecycleListeners := k.lifecycleListeners.map Attached.unfailing
    stateListeners := k.stateListeners.map Attached.unfailing }

namespace Collection

/-- The same services are in the collection. -/
@[simp] theorem identities_unfailing (k : Collection E) :
    k.unfailing.identities = k.identities := by
  simp [identities, unfailing, Function.comp_def, Holding.id, Holding.unfailing]

@[simp] theorem hasIdentity_unfailing (k : Collection E) (id : UInt64) :
    k.unfailing.hasIdentity id = k.hasIdentity id := by simp [hasIdentity]

@[simp] theorem census_unfailing (k : Collection E) : k.unfailing.census = k.census := by
  simp [census, unfailing, Function.comp_def, Holding.id, Holding.unfailing]

@[simp] theorem unfailing_absent : (absent : Collection E).unfailing = absent := rfl

/-- Questions are answered alike. -/
@[simp] theorem answer_unfailing [ServiceEntry E] (released : List Nat) (k : Collection E)
    (question : Question E) :
    k.unfailing.answer released question = k.answer released question := by
  cases question with
  | serviceIds | identities => exact congrArg Answer.ids k.identities_unfailing
  | containsIdentity id => exact congrArg Answer.truth (k.hasIdentity_unfailing id)
  | listenerCounts => simp [answer, unfailing]
  | _ => rfl

end Collection

/-- The plan with all that belongs to it unfailing. -/
def Plan.unfailing (plan : Plan E) : Plan E :=
  { plan with
    factory := plan.factory.map Factory.unfailing
    lifecycleListeners := plan.lifecycleListeners.map Listener.unfailing
    stateListeners := plan.stateListeners.map Listener.unfailing }

/-! ## Registries and hubs -/

/-- The target of a subscription, unfailing if it is a listener. -/
def Target.unfailing : Target E → Target E
  | .importer c => .importer c
  | .observer l => .observer l.unfailing

/-- The subscription with its target unfailing. -/
def Subscription.unfailing (s : Subscription E) : Subscription E :=
  { s with target := s.target.unfailing }

theorem Subscription.id_unfailing (s : Subscription E) : s.unfailing.id = s.id := rfl

/-- The registry with its subscriptions unfailing. -/
def Registry.unfailing (r : Registry E) : Registry E :=
  { r with subscriptions := r.subscriptions.map Subscription.unfailing }

/-- A moment that tells of the failure of a guarded call. -/
def Moment.isMishap : Moment E → Bool
  | .guardedFailure _ _ _ _ | .guardedPanic _ _ _ _ | .unreleased _ _ => true
  | _ => false

/-- What happened but for the failures of guarded calls, the latest first. -/
def Hub.doings (h : Hub E) : List (Moment E) := h.trace.filter (!·.isMishap)

/-- The hub in which all is unfailing and no guarded call failed. -/
def Hub.unfailing (h : Hub E) : Hub E :=
  { h with
    registry := h.registry.unfailing
    collections := h.collections.map Collection.unfailing
    trace := h.doings
    past := h.past.map fun p => (p.1, p.2.unfailing) }

/-- The second hub is the first one with all unfailing; the failures that either of them notes do
not matter. -/
structure Hub.Spared (h h' : Hub E) : Prop where
  registry : h'.registry = h.registry.unfailing
  collections : h'.collections = h.collections.map Collection.unfailing
  traversals : h'.traversals = h.traversals
  kept : h'.kept = h.kept
  attempts : h'.attempts = h.attempts
  released : h'.released = h.released
  listeners : h'.listeners = h.listeners
  doings : h'.doings = h.doings
  past : h'.past = h.past.map fun p => (p.1, p.2.unfailing)

namespace Hub.Spared

variable {h h' : Hub E} {c : Nat} {f f' : Collection E → Collection E}

/-- A collection of the second hub is that of the first, unfailing. -/
theorem collection (hs : h.Spared h') (c : Nat) : h'.collection c = (h.collection c).unfailing := by
  rw [Hub.collection, hs.collections, List.getElem?_map, Hub.collection]
  cases h.collections[c]? <;> rfl

/-- The same services are in each collection, by the same entries. -/
theorem census (hs : h.Spared h') : h'.census = h.census := by
  simp [Hub.census, hs.collections, Function.comp_def]

/-- The same change is made to a collection. -/
theorem update (hs : h.Spared h') (hf : ∀ k, (f k).unfailing = f' k.unfailing) :
    (h.update c f).Spared (h'.update c f') where
  registry := hs.registry
  collections := by
    rw [Hub.update, Hub.update, hs.collections]
    apply List.ext_getElem?
    intro i
    by_cases hi : c = i
    · subst hi
      simp [Function.comp_def, hf]
    · simp [hi]
  traversals := hs.traversals
  kept := hs.kept
  attempts := hs.attempts
  released := hs.released
  listeners := hs.listeners
  doings := hs.doings
  past := by
    show (c, h'.collection c) :: h'.past = ((c, h.collection c) :: h.past).map _
    rw [hs.collection, hs.past]
    rfl

/-- Both hubs note the same moment. -/
theorem record (hs : h.Spared h') (m : Moment E) : (h.record m).Spared (h'.record m) :=
  { hs with
    doings := by
      have hd := hs.doings
      unfold Hub.doings at hd ⊢
      rw [Hub.trace_record, Hub.trace_record, List.filter_cons, List.filter_cons, hd] }

/-- What either hub notes of the failure of a guarded call does not matter. -/
theorem mishap (hs : h.Spared h') {m : Moment E} (hm : m.isMishap = true) :
    (h.record m).Spared h' ∧ h.Spared (h'.record m) := by
  have hd (h : Hub E) : (h.record m).doings = h.doings := by
    rw [Hub.doings, Hub.trace_record, List.filter_cons_of_neg (by simp [hm]), Hub.doings]
  exact ⟨{ hs with doings := hs.doings.trans (hd h).symm },
    { hs with doings := (hd h').trans hs.doings }⟩

/-- Listeners were told the same. -/
theorem told (hs : h.Spared h') (who : ListenerTag → Bool) : h'.told who = h.told who := by
  -- what is read off a trace moment by moment can be read off what is left without the mishaps
  have hread {α : Type} {f : Moment E → Option α} (hf : ∀ m, m.isMishap = true → f m = none)
      (h : Hub E) : h.doings.filterMap f = h.trace.filterMap f := by
    rw [Hub.doings, List.filterMap_filter]
    refine congrArg (List.filterMap · h.trace) (funext fun m => ?_)
    cases hm : m.isMishap with
    | true => rw [hf m hm]; rfl
    | false => rfl
  unfold Hub.told
  rw [← hread _ h', hs.doings, hread _ h]
  all_goals
    intro m hm
    cases m with
    | called => cases hm
    | _ => rfl

/-- A hub in which nothing failed yet and its copy. -/
theorem of_unfailing (h : Hub E) : h.Spared h.unfailing where
  registry := rfl
  collections := rfl
  traversals := rfl
  kept := rfl
  attempts := rfl
  released := rfl
  listeners := rfl
  doings := by simp [Hub.doings, Hub.unfailing]
  past := rfl

/-- Two hubs that are the same once all is unfailing. -/
theorem unfailing_eq (hs : h.Spared h') {h₁ : Hub E} (hs₁ : h₁.Spared h') :
    h.unfailing = h₁.unfailing := by
  obtain ⟨hreg, hcol, htra, hkept, hatt, hrel, hlis, hdoings, hpast⟩ := hs
  obtain ⟨hreg₁, hcol₁, htra₁, hkept₁, hatt₁, hrel₁, hlis₁, hdoings₁, hpast₁⟩ := hs₁
  simp only [Hub.unfailing, ← hreg, ← hcol, ← htra, ← hkept, ← hatt, ← hrel, ← hlis, ← hdoings,
    ← hpast, ← hreg₁, ← hcol₁, ← htra₁, ← hkept₁, ← hatt₁, ← hrel₁, ← hlis₁, ← hdoings₁, ← hpast₁]

end Hub.Spared

end LiveServices
