import LiveServices.Proofs.Isolation.Commands
import Mathlib.Control.Monad.Basic

/-!
# Failures are isolated

A run shadows the run of the same commands in which all is unfailing (`Run.shadows_run`,
`Hub.Spared.runAll`), and two systems that differ only in how guarded calls finish have the same
unfailing run. So however these calls finish, the answers, the hubs, and all that happened are the
same: this is `failures_isolated`.
-/

namespace LiveServices

variable {E : Type}

/-! ## From the plans on -/

theorem Plan.attach_unfailing (home key : Nat) (listeners : List (Listener E)) :
    attach home key (listeners.map Listener.unfailing) =
      (attach home key listeners).map Attached.unfailing := by
  apply List.ext_getElem
  · simp [attach]
  · simp [attach, Attached.unfailing]

/-- An unfailing plan builds the collection of the plan, unfailing. -/
theorem Plan.build_unfailing (plan : Plan E) (number key : Nat) :
    plan.unfailing.build number key = (plan.build number key).map Collection.unfailing := by
  obtain ⟨hasRegistry, factory, filter, beanName, mandatory, mode, lifecycle, state⟩ := plan
  cases hasRegistry with
  | false => rfl
  | true =>
    cases factory with
    | none => rfl
    | some factory =>
      cases filter with
      | none => rfl
      | some filter =>
        simp [build, unfailing, attach_unfailing, Except.map, Collection.unfailing]

namespace Hub.Spared

variable {h h' : Hub E}

theorem addCollection (hs : h.Spared h') (plan : Plan E) :
    (h.addCollection plan).2.Spared (h'.addCollection plan.unfailing).2 := by
  unfold Hub.addCollection
  rw [Plan.build_unfailing, hs.collections, List.length_map, hs.listeners]
  cases plan.build h.collections.length h.listeners with
  | ok k =>
    refine ⟨hs.registry, ?_, hs.traversals, hs.kept, hs.attempts, hs.released, ?_, hs.doings,
      hs.past⟩
    · show _ ++ [k.unfailing] = (h.collections ++ [k]).map Collection.unfailing
      rw [List.map_append, List.map_singleton]
    · show h.listeners + plan.unfailing.listenerCount = h.listeners + plan.listenerCount
      simp [Plan.listenerCount, Plan.unfailing]
  | error f =>
    refine ⟨hs.registry, ?_, hs.traversals, hs.kept, hs.attempts, hs.released, rfl, hs.doings,
      hs.past⟩
    show _ ++ [Collection.absent] = (h.collections ++ [Collection.absent]).map Collection.unfailing
    rw [List.map_append, List.map_singleton, Collection.unfailing_absent]

/-- Unfailing plans make the hub of the plans, unfailing. -/
theorem ofPlans (plans : List (Plan E)) :
    (Hub.ofPlans plans).Spared (Hub.ofPlans (plans.map Plan.unfailing)) := by
  have hfold : ∀ (plans : List (Plan E)) (h h' : Hub E), h.Spared h' →
      (plans.foldl (fun h plan => (h.addCollection plan).2) h).Spared
        ((plans.map Plan.unfailing).foldl (fun h plan => (h.addCollection plan).2) h') := by
    intro plans
    induction plans with
    | nil => exact fun _ _ hs => hs
    | cons plan plans ih => exact fun h h' hs => ih _ _ (hs.addCollection plan)
  exact hfold plans {} {} (of_unfailing {})

end Hub.Spared

variable [ServiceEntry E]

/-- **Runs.** A run shadows itself with all unfailing, also if commands may be nested deeper. -/
theorem Run.shadows_run {depth depth' : Nat} (hle : depth ≤ depth') (command : Command E) :
    Shadows Eq (run depth command) (run depth' command.unfailing) := by
  induction depth generalizing depth' command with
  | zero => exact .throw _ _
  | succ depth ih =>
    cases depth' with
    | zero => exact absurd hle (Nat.not_succ_le_zero _)
    | succ depth' =>
      have hn := fun command => ih (Nat.le_of_succ_le_succ hle) command
      refine .bind (Shadows.execute hn command) fun answer answer' hanswer => ?_
      refine .bind .get fun h h' hs => ?_
      rw [hs.census]
      exact .bind (.record _) fun _ _ _ => .pure hanswer

/-- So does a sequence of commands. -/
theorem Hub.Spared.runAll {depth depth' : Nat} (hle : depth ≤ depth') {commands : List (Command E)}
    {answers : List Answer} {h h' g : Hub E} (hs : h.Spared h')
    (hr : h.runAll depth commands = .ok (answers, g)) :
    ∃ g', h'.runAll depth' (commands.map Command.unfailing) = .ok (answers, g') ∧ g.Spared g' := by
  induction commands generalizing h h' answers with
  | nil =>
    obtain ⟨rfl, rfl⟩ := Prod.mk.inj (Except.ok.inj hr)
    exact ⟨h', rfl, hs⟩
  | cons command commands ih =>
    obtain ⟨answer, h₁, rest, hone, hmore, rfl⟩ := Hub.runAll_cons_eq_ok.1 hr
    obtain ⟨_, h₁', hone', rfl, hs₁⟩ := Run.shadows_run hle command hs hone
    obtain ⟨g', hmore', hs'⟩ := ih hs₁ hmore
    exact ⟨g', Hub.runAll_cons_eq_ok.2 ⟨answer, h₁', rest, hone', hmore', rfl⟩, hs'⟩

/-- **Isolation.** Take two systems and two sequences of commands that differ only in how lifecycle
listeners, state listeners, and release actions finish, and let both runs come to an end. Then all
answers are the same, and so are in the end the registry, each collection with its storage and the
places of its iterators, and what was handed out; and the same events were delivered, the same
listeners were called with the same callbacks, the same entries were made, and the same release
actions were run, in the same order. -/
theorem failures_isolated {plans plans' : List (Plan E)} {commands commands' : List (Command E)}
    {depth depth' : Nat} {answers answers' : List Answer} {h h' : Hub E}
    (hplans : plans.map Plan.unfailing = plans'.map Plan.unfailing)
    (hcommands : commands.map Command.unfailing = commands'.map Command.unfailing)
    (hr : (Hub.ofPlans plans).runAll depth commands = .ok (answers, h))
    (hr' : (Hub.ofPlans plans').runAll depth' commands' = .ok (answers', h')) :
    answers = answers' ∧ h.unfailing = h'.unfailing ∧
    (h.registry.services = h'.registry.services ∧
      h.registry.delivered = h'.registry.delivered ∧
      h.registry.subscriptions.map (fun s => (s.id, s.filter)) =
        h'.registry.subscriptions.map fun s => (s.id, s.filter)) ∧
    (∀ c, (h.collection c).storage = (h'.collection c).storage ∧
      (h.collection c).census = (h'.collection c).census ∧
      (h.collection c).closed = (h'.collection c).closed ∧
      (h.collection c).subscription = (h'.collection c).subscription) ∧
    h.traversals = h'.traversals ∧ h.kept = h'.kept ∧ h.released = h'.released ∧
    h.doings = h'.doings := by
  obtain ⟨g, hg, hs⟩ := (Hub.Spared.ofPlans plans).runAll (Nat.le_max_left depth depth') hr
  obtain ⟨g', hg', hs'⟩ := (Hub.Spared.ofPlans plans').runAll (Nat.le_max_right depth depth') hr'
  -- both unfailing runs are the same run
  rw [hplans, hcommands, hg'] at hg
  obtain ⟨rfl, rfl⟩ := Prod.mk.inj (Except.ok.inj hg)
  have hreg : h.registry.unfailing = h'.registry.unfailing := by rw [← hs.registry, hs'.registry]
  have hcol (c : Nat) : (h.collection c).unfailing = (h'.collection c).unfailing := by
    rw [← hs.collection, hs'.collection]
  refine ⟨rfl, hs.unfailing_eq hs', ⟨?_, ?_, ?_⟩, fun c => ⟨?_, ?_, ?_, ?_⟩, ?_, ?_, ?_, ?_⟩
  · show h.registry.unfailing.services = h'.registry.unfailing.services
    rw [hreg]
  · show h.registry.unfailing.delivered = h'.registry.unfailing.delivered
    rw [hreg]
  · have hsubs := congrArg (fun r => r.subscriptions.map fun s => (s.id, s.filter)) hreg
    simpa [Registry.unfailing, Function.comp_def, Subscription.unfailing] using hsubs
  · show (h.collection c).unfailing.storage = (h'.collection c).unfailing.storage
    rw [hcol]
  · rw [← Collection.census_unfailing, hcol, Collection.census_unfailing]
  · show (h.collection c).unfailing.closed = (h'.collection c).unfailing.closed
    rw [hcol]
  · show (h.collection c).unfailing.subscription = (h'.collection c).unfailing.subscription
    rw [hcol]
  · rw [← hs.traversals, hs'.traversals]
  · rw [← hs.kept, hs'.kept]
  · rw [← hs.released, hs'.released]
  · rw [← hs.doings, hs'.doings]

/-! ### A listener and a release that panic -/

/-- A mandatory dependency whose state listener asks for the size, whose first lifecycle listener
registers another service when it is called for the first time, and whose releases ask for the
service. Each of these calls finishes as it is said here; a second listener finishes well. -/
def Plan.fragile (finish : Finish) : Plan Entry where
  hasRegistry := true
  factory := some ⟨"fragile", fun _ r =>
    .made (.reference r) (some ⟨true, .mk [.getService r.id] finish⟩)⟩
  filter := some ⟨"", .and []⟩
  lifecycleListeners := [
    .mk "fragile" .silent fun told callback =>
      .mk (if told.isEmpty then [.register .empty] else [])
        (if callback.isGuarded then finish else .done),
    .mk "robust" .silent fun _ _ => .silent]
  stateListeners := [.mk "state" .silent fun _ callback =>
    .mk [.ask 0 .len] (if callback.isGuarded then finish else .done)]

theorem Plan.unfailing_fragile (finish : Finish) :
    (Plan.fragile finish).unfailing = (Plan.fragile .done).unfailing := by
  have hend (callback : Callback Entry) : (if callback.isGuarded then Finish.done
      else if callback.isGuarded then finish else .done) = .done := by
    split <;> rfl
  simp [fragile, unfailing, Factory.unfailing, Creation.unfailing, Release.unfailing,
    Listener.unfailing, Response.unfailing, hend]

/-- The failures of guarded calls that were noted. -/
def Hub.mishaps (h : Hub E) : Nat := h.trace.countP Moment.isMishap

/-- Where ten guarded calls panic, all else is as if none had. -/
theorem failures_isolated_fragile : ∃ answers h h',
    [Plan.fragile (.panic none)].map Plan.unfailing = [Plan.fragile .done].map Plan.unfailing ∧
    (Hub.ofPlans [Plan.fragile (.panic none)]).runAll 4 [.start 0, .register .empty,
      .iter 0 "i", .tryNext "i", .unregister 1, .destroy 0] = .ok (answers, h) ∧
    (Hub.ofPlans [Plan.fragile .done]).runAll 4 [.start 0, .register .empty, .iter 0 "i",
      .tryNext "i", .unregister 1, .destroy 0] = .ok (answers, h') ∧
    h.mishaps = 10 ∧ h'.mishaps = 0 ∧ h.doings = h'.doings := by
  let commands : List (Command Entry) :=
    [.start 0, .register .empty, .iter 0 "i", .tryNext "i", .unregister 1, .destroy 0]
  have hplans : [Plan.fragile (.panic none)].map Plan.unfailing =
      [Plan.fragile .done].map Plan.unfailing := by
    rw [List.map_singleton, List.map_singleton, Plan.unfailing_fragile]
  obtain ⟨⟨answers, h⟩, hr, hmishaps⟩ := Run.exists_of_map_eq_ok
    (f := fun p : List Answer × Hub Entry => p.2.mishaps)
    (show ((Hub.ofPlans [Plan.fragile (.panic none)]).runAll 4 commands).map _ = .ok 10
      by decide +kernel)
  obtain ⟨⟨answers', h'⟩, hr', hmishaps'⟩ := Run.exists_of_map_eq_ok
    (f := fun p : List Answer × Hub Entry => p.2.mishaps)
    (show ((Hub.ofPlans [Plan.fragile .done]).runAll 4 commands).map _ = .ok 0 by decide +kernel)
  obtain ⟨rfl, -, -, -, -, -, -, hdoings⟩ := failures_isolated hplans rfl hr hr'
  exact ⟨answers, h, h', hplans, hr, hr', hmishaps, hmishaps', hdoings⟩

end LiveServices
