import LiveServices.Proofs.Calm.Start
import LiveServices.Proofs.Run.Onward
import Mathlib.Data.List.Induction

/-!
# Removals

When a service is taken away, the registry asks each filter whether it accepts the properties
that the service has then. A collection that took the service when it had other properties is
not told, and that the service ceased to match was no notification either: the collection keeps
a service that is in the registry no more (`removal_missed`).

`removals_noticed_iff` says exactly when this happens. Along every sequence of calls, each
service in the collection is one of the registry for as long as no service is taken away that
the collection has and its filter does not accept; and each such removal leaves the service
behind, where it stays. The step from hub to hub is `Hub.Calls.backed`; the run is an induction
over the calls from the last one.
-/

namespace LiveServices

variable {E : Type} [ServiceEntry E]

/-! ## What a collection has after an event -/

namespace Collection

variable {k k' : Collection E} {id : UInt64} {r : ServiceReference} {link : Option ServiceFilter}
  {wants : ServiceFilter → Bool}

/-- A collection that is told that a service disappeared has all its other services. -/
theorem Drops.mem_identities (hd : k.Drops id k') (x : UInt64) :
    x ∈ k'.identities ↔ x ∈ k.identities ∧ x ≠ id := by
  cases hd with
  | absent hn =>
    refine ⟨fun hx => ⟨hx, ?_⟩, fun hx => hx.1⟩
    rintro rfl
    rw [hasIdentity_iff.2 hx] at hn
    cases hn
  | found hf =>
    rw [identities_leave, id_of_find? hf, List.mem_filter]
    simp

/-- A service that a collection has new is the one it was told of. -/
theorem Hears?.of_mem {event : ServiceEvent} (hh : k.Hears? link wants event k') {x : UInt64}
    (hx : x ∈ k'.identities) : x ∈ k.identities ∨ x = event.reference.id := by
  unfold Hears? at hh
  split at hh
  · unfold Hears at hh
    split at hh
    · exact (hh.gains.identities x hx).imp_right List.mem_singleton.1
    · exact (hh.gains.identities x hx).imp_right List.mem_singleton.1
    · exact .inl ((hh.mem_identities x).1 hx).1
    · exact .inl (hh ▸ hx)
  · exact .inl (hh ▸ hx)

/-- What a collection has when a service was taken away from the registry. -/
theorem Hears?.unregistering (hh : k.Hears? link wants (.unregistering r) k') (x : UInt64) :
    x ∈ k'.identities ↔ x ∈ k.identities ∧ (x = r.id → link.any wants = false) := by
  unfold Hears? at hh
  split at hh
  · next hw =>
    rw [Drops.mem_identities hh, hw]
    simp [ServiceEvent.unregistering]
  · next hw =>
    rw [hh]
    simp [hw]

end Collection

namespace Hub

/-- Every service in a collection is one of the registry. -/
def Backed (c : Nat) (h : Hub E) : Prop :=
  ∀ id ∈ (h.collection c).identities, (h.registry.get? id).isSome = true

/-- If the collection has this service then the filter accepts the properties that the registry
has of it. -/
def Noticed (c : Nat) (filter : ServiceFilter) (h : Hub E) (id : UInt64) : Prop :=
  id ∈ (h.collection c).identities →
    ∃ r, h.registry.get? id = some r ∧ filter.accepts r.properties = true

namespace Calls

variable {c : Nat} {link : Option ServiceFilter} {h h' : Hub E} {command : Command E}
  {answer : Answer}

/-- A service that is put into the registry is in it, and the others are as before. -/
theorem backed_put {wants : ServiceFilter → Bool} {event : ServiceEvent} {books : Registry E}
    (hb : h.Backed c)
    (hservices : books.services =
      Roster.insert ServiceReference.id event.reference h.registry.services)
    (hh : Hub.Changes c (Collection.Hears? link wants event) { h with registry := books } h') :
    h'.Backed c := by
  intro id hid
  rw [hh.registry.get?]
  show (Roster.find? ServiceReference.id id books.services).isSome = true
  rw [hservices]
  -- what the collection has new is the service itself
  by_cases hnew : event.reference.id = id
  · rw [← hnew, Roster.find?_insert_self]
    rfl
  · rw [Roster.find?_insert_of_ne hnew]
    rcases hh.here.of_mem hid with hold | hself
    · exact hb id hold
    · exact absurd hself.symm hnew

/-- What a removal does: the registry has the service no more, and the collection has it no more
unless the filter that it listens with did not accept the service at the end. -/
theorem removed {id : UInt64} (hcalls : h.Calls c link (.unregister id) .done h') :
    h'.registry.get? id = none ∧ (∀ x, x ≠ id → h'.registry.get? x = h.registry.get? x) ∧
    ∃ r, h.registry.get? id = some r ∧ ∀ x, x ∈ (h'.collection c).identities ↔
      x ∈ (h.collection c).identities ∧ (x = id → link.any (·.accepts r.properties) = false) := by
  cases hcalls with
  | @unregistered _ r _ hf hh =>
    have hid : r.id = id := Roster.key_of_find? hf
    refine ⟨?_, fun x hx => ?_, r, hf, fun x => ?_⟩
    · rw [hh.registry.get?]
      exact Roster.find?_erase_self
    · rw [hh.registry.get?]
      exact Roster.find?_erase_of_ne hx.symm
    · rw [hh.here.unregistering, hid]
      rfl

/-- A call leaves the services of the collection backed, unless it takes one away unnoticed. -/
theorem backed (hcalls : h.Calls c link command answer h') (hb : h.Backed c)
    (hn : ∀ id, command = .unregister id → id ∈ (h.collection c).identities →
      ∃ r, h.registry.get? id = some r ∧ link.any (·.accepts r.properties) = true) :
    h'.Backed c := by
  cases hcalls with
  | registered hr hh => exact backed_put hb (by rw [hr]; rfl) hh
  | modified hf hr hh => exact backed_put hb rfl hh
  | @unregistered gone r _ hf hh =>
    obtain ⟨-, hothers, r', hf', hhas⟩ := removed (.unregistered hf hh)
    intro id hid
    obtain ⟨hold, hself⟩ := (hhas id).1 hid
    by_cases hgone : id = gone
    · -- The collection would have been told.
      obtain ⟨r'', hf'', haccepts⟩ := hn gone rfl (hgone ▸ hold)
      obtain rfl := Option.some.inj (hf'.symm.trans hf'')
      rw [hself hgone] at haccepts
      cases haccepts
    · rw [hothers id hgone]
      exact hb id hold
  | unknown _ _ hh =>
    intro id hid
    rw [hh.here] at hid
    rw [hh.registry.get?]
    exact hb id hid

end Calls

/-! ## Along the calls -/

variable {c : Nat} {filter : ServiceFilter} {h h' : Hub E}

/-- A service that is there can be taken away. -/
theorem removal_total {id : UInt64} {r : ServiceReference} (hc : h.Calm)
    (hl : h.registry.Linked c (some filter)) (hf : h.registry.get? id = some r) (depth : Nat) :
    ∃ h', h.run (depth + 1) (.unregister id) = .ok (.done, h') := by
  have hregistry : (Command.unregister id : Command E).IsRegistryCall := trivial
  obtain ⟨answer, h', hrun, hcall, -, -⟩ := call_total hc hl hregistry depth
  cases hcall with
  | unregistered => exact ⟨h', hrun⟩
  | unknown hn hcommand =>
    rcases hcommand with heq | ⟨_, heq⟩
    · cases heq
      rw [hf] at hn
      cases hn
    · cases heq

/-- A removal leaves the service behind exactly if it goes unnoticed. -/
theorem left_behind_iff {depth : Nat} {id : UInt64} (hc : h.Calm)
    (hl : h.registry.Linked c (some filter))
    (hr : h.run (depth + 1) (.unregister id) = .ok (.done, h')) :
    h'.registry.get? id = none ∧
    (id ∈ (h'.collection c).identities ↔ ¬ h.Noticed c filter id) := by
  have hregistry : (Command.unregister id : Command E).IsRegistryCall := trivial
  obtain ⟨answer, h₁, hrun, hcall, -, -⟩ := call_total hc hl hregistry depth
  rw [hr] at hrun
  cases hrun
  obtain ⟨hgone, -, r, hf, hhas⟩ := hcall.removed
  refine ⟨hgone, (hhas id).trans ?_⟩
  constructor
  · rintro ⟨hold, hself⟩ hn
    obtain ⟨r', hf', haccepts⟩ := hn hold
    obtain rfl := Option.some.inj (hf.symm.trans hf')
    exact absurd (hself rfl) (by simp [haccepts])
  · intro hn
    obtain ⟨hold, hno⟩ := Classical.not_imp.1 hn
    refine ⟨hold, fun _ => Bool.eq_false_iff.2 fun haccepts => ?_⟩
    exact hno ⟨r, hf, haccepts⟩

/-- **Noticed removals.** Along calls of the registry, the services of a collection are backed
throughout exactly if each service that is taken away is noticed. -/
theorem backed_iff_noticed (hc : h.Calm) (hl : h.registry.Linked c (some filter)) (hb : h.Backed c)
    {calls : List (Command E)} (hcalls : ∀ command ∈ calls, command.IsRegistryCall) (depth : Nat) :
    (∀ done g, done <+: calls → h.Reaches (depth + 1) done g → g.Backed c) ↔
      ∀ done id g, done ++ [.unregister id] <+: calls → h.Reaches (depth + 1) done g →
        g.Noticed c filter id := by
  constructor
  · -- A removal that went unnoticed would leave a service behind that is not backed.
    intro hbacked done id g hdone hr hold
    have hdone' := (List.prefix_append _ _).trans hdone
    obtain ⟨g', hr', hcalm, hlinked⟩ := prefix_total hc hl hcalls hdone' depth
    obtain rfl := hr.unique hr'
    obtain ⟨r, hf⟩ := Option.isSome_iff_exists.1 (hbacked done g hdone' hr id hold)
    obtain ⟨g₁, hrun⟩ := removal_total hcalm hlinked hf depth
    obtain ⟨hgone, hleft⟩ := left_behind_iff hcalm hlinked hrun
    have hr₁ := reaches_append.2 ⟨g, hr, reaches_cons.2 ⟨_, g₁, hrun, reaches_nil.2 rfl⟩⟩
    have hnotleft : id ∉ (g₁.collection c).identities := by
      intro hmem
      have hback := hbacked _ g₁ hdone hr₁ id hmem
      rw [hgone] at hback
      cases hback
    exact Classical.not_not.1 (mt hleft.2 hnotleft) hold
  · -- By induction from the last call: what comes before it is a beginning of the calls too.
    intro hnoticed done
    induction done using List.reverseRecOn with
    | nil =>
      intro g _ hr
      rw [reaches_nil.1 hr]
      exact hb
    | append_singleton done command ih =>
      intro g hdone hr
      have hdone' := (List.prefix_append _ _).trans hdone
      obtain ⟨g₁, hr₁, hrun⟩ := reaches_append.1 hr
      obtain ⟨answer, g₂, hrun, hnil⟩ := reaches_cons.1 hrun
      obtain rfl := reaches_nil.1 hnil
      obtain ⟨g', hr', hcalm, hlinked⟩ := prefix_total hc hl hcalls hdone' depth
      obtain rfl := hr₁.unique hr'
      obtain ⟨answer', g₂, hrun', hcall, -, -⟩ :=
        call_total hcalm hlinked (hcalls command (hdone.subset (by simp))) depth
      rw [hrun] at hrun'
      cases hrun'
      refine hcall.backed (ih g₁ hdone' hr₁) ?_
      rintro id rfl hold
      obtain ⟨r, hf, haccepts⟩ := hnoticed done id g₁ hdone hr₁ hold
      exact ⟨r, hf, haccepts⟩

end Hub

/-! ## Passive plans -/

/-- A complete plan for the services that a filter accepts, of which nobody who is called gives
commands. -/
structure Plan.IsPassive (plan : Plan E) (filter : ServiceFilter) : Prop where
  hasRegistry : plan.hasRegistry = true
  filter : plan.filter = some filter
  factory : ∃ factory, plan.factory = some factory ∧ factory.IsPassive
  lifecycle : ∀ l ∈ plan.lifecycleListeners, l.IsPassive
  state : ∀ l ∈ plan.stateListeners, l.IsPassive

omit [ServiceEntry E] in
theorem Plan.IsPassive.build {plan : Plan E} {filter : ServiceFilter} {factory : Factory E}
    (hp : plan.IsPassive filter) (hf : plan.factory = some factory) : plan.build 0 0 = .ok {
      dependency := ⟨plan.beanName, filter, plan.mandatory⟩
      mode := plan.mode
      factory := factory
      lifecycleListeners := Plan.attach 0 0 plan.lifecycleListeners
      stateListeners :=
        Plan.attach 0 (0 + plan.lifecycleListeners.length) plan.stateListeners } := by
  simp [Plan.build, hp.hasRegistry, hf, hp.filter]

omit [ServiceEntry E] in
/-- A plan attaches its own listeners. -/
theorem Plan.listener_of_mem_attach {home key : Nat} {listeners : List (Listener E)}
    {a : Attached E} (ha : a ∈ attach home key listeners) : a.listener ∈ listeners := by
  obtain ⟨i, hi, rfl⟩ := List.mem_mapIdx.1 ha
  exact List.getElem_mem hi

namespace Hub

variable {plan : Plan E} {filter : ServiceFilter}

omit [ServiceEntry E] in
/-- The hub of one plan that can be built. -/
theorem ofPlans_singleton {k : Collection E} (hbuild : plan.build 0 0 = .ok k) :
    ofPlans [plan] = { collections := [k], listeners := 0 + plan.listenerCount } := by
  show (addCollection {} plan).2 = _
  unfold addCollection
  rw [show plan.build ({} : Hub E).collections.length ({} : Hub E).listeners = .ok k from hbuild]
  rfl

omit [ServiceEntry E] in
/-- A passive plan makes a calm hub, in which nobody is subscribed and the collection is fresh. -/
theorem calm_ofPlans (hp : plan.IsPassive filter) :
    (ofPlans [plan]).Calm ∧ (ofPlans [plan]).registry.Linked 0 none ∧
    ((ofPlans [plan]).collection 0).Fresh ∧ ((ofPlans [plan]).collection 0).identities = [] ∧
    ((ofPlans [plan]).collection 0).dependency.filter = filter := by
  obtain ⟨factory, hfactory, hpassive⟩ := hp.factory
  rw [ofPlans_singleton (hp.build hfactory)]
  refine ⟨?_, .unheard rfl, ⟨rfl, rfl, rfl, rfl⟩, rfl, rfl⟩
  intro d
  cases d with
  | zero =>
    exact {
      locks := fun _ hl => absurd hl List.not_mem_nil
      lifecycle := fun a ha => hp.lifecycle _ (Plan.listener_of_mem_attach ha)
      state := fun a ha => hp.state _ (Plan.listener_of_mem_attach ha)
      factory := hpassive
      index := fun _ hmem => absurd hmem List.not_mem_nil }
  | succ d => exact Collection.calm_absent

omit [ServiceEntry E] in
/-- After a start the services of the collection are services of the registry. -/
theorem Starts.backed {c : Nat} {h h' : Hub E} (hs : h.Starts c h')
    (hnone : (h.collection c).identities = []) : h'.Backed c := by
  intro id hid
  rcases hs.here.identities id hid with hold | hold
  · have hold : id ∈ (h.collection c).identities := hold
    rw [hnone] at hold
    cases hold
  · obtain ⟨r, hr, rfl⟩ := List.mem_map.1 hold
    rw [hs.registry.get?]
    exact List.find?_isSome.2 ⟨r, (List.mem_filter.1 hr).1, beq_self_eq_true _⟩

end Hub

/-- **Removals that are missed.** Whatever the registry is called for before the collection is
started and afterwards, every call reaches a result; the services of the collection are services
of the registry throughout exactly if each service that is taken away is noticed; and a service
that is taken away is still in the collection exactly if it was not noticed. -/
theorem removals_noticed_iff {plan : Plan E} {filter : ServiceFilter} (hp : plan.IsPassive filter)
    {before calls : List (Command E)} (hbefore : ∀ command ∈ before, command.IsRegistryCall)
    (hcalls : ∀ command ∈ calls, command.IsRegistryCall) (depth : Nat) :
    ∃ h₀, (Hub.ofPlans [plan]).Reaches (depth + 1) (before ++ [.start 0]) h₀ ∧
      (h₀.collection 0).subscription.isSome = true ∧ (h₀.collection 0).closed = false ∧
      (∀ done, done <+: calls → ∃ h, h₀.Reaches (depth + 1) done h) ∧
      ((∀ done h, done <+: calls → h₀.Reaches (depth + 1) done h → h.Backed 0) ↔
        ∀ done id h, done ++ [.unregister id] <+: calls → h₀.Reaches (depth + 1) done h →
          h.Noticed 0 filter id) ∧
      ∀ done id h h', done ++ [.unregister id] <+: calls → h₀.Reaches (depth + 1) done h →
        h.run (depth + 1) (.unregister id) = .ok (.done, h') →
        (id ∈ (h'.collection 0).identities ↔ ¬ h.Noticed 0 filter id) := by
  obtain ⟨hcalm, hlinked, hfresh, hnone, hfilter⟩ := Hub.calm_ofPlans hp
  obtain ⟨h₁, hr₁, hcalm₁, hlinked₁, hstay⟩ := Hub.calls_total hcalm hlinked hbefore depth
  have hk₁ := hstay rfl
  obtain ⟨answer, h₀, hstart, hcalm₀, hlinked₀, hst⟩ :=
    Hub.start_total hcalm₁ hlinked₁ (hk₁ ▸ hfresh) depth
  rw [hk₁, hfilter] at hlinked₀
  refine ⟨h₀, ?_, ?_, ?_, ?_, ?_, ?_⟩
  · refine Hub.reaches_append.2 ⟨h₁, hr₁, ?_⟩
    exact Hub.reaches_cons.2 ⟨answer, h₀, hstart, Hub.reaches_nil.2 rfl⟩
  · obtain ⟨index, storage, id, hframe⟩ := hst.here.frame
    rw [hframe]
    rfl
  · rw [hst.keeps.1, hk₁]
    exact hfresh.closed
  · intro done hdone
    obtain ⟨h, hr, -⟩ := Hub.prefix_total hcalm₀ hlinked₀ hcalls hdone depth
    exact ⟨h, hr⟩
  · exact Hub.backed_iff_noticed hcalm₀ hlinked₀ (hst.backed (hk₁ ▸ hnone)) hcalls depth
  · intro done id h h' hdone hr hrun
    obtain ⟨g, hg, hcalm, hlinked⟩ := Hub.prefix_total hcalm₀ hlinked₀ hcalls
      ((List.prefix_append _ _).trans hdone) depth
    obtain rfl := hr.unique hg
    exact (Hub.left_behind_iff hcalm hlinked hrun).2

/-! ### A translation -/

/-- A dependency on the services in English, with proxies as entries. -/
def Plan.english : Plan Entry where
  hasRegistry := true
  factory := some .proxy
  filter := some ⟨"(lang=en)", .equal "lang" ⟨"en", []⟩⟩
  mandatory := false

theorem Plan.passive_english : Plan.english.IsPassive ⟨"(lang=en)", .equal "lang" ⟨"en", []⟩⟩ where
  hasRegistry := rfl
  filter := rfl
  factory := ⟨_, rfl, Factory.isPassive_ofProxies true⟩
  lifecycle := fun _ hl => absurd hl List.not_mem_nil
  state := fun _ hl => absurd hl List.not_mem_nil

/-- The properties of a service in this language. -/
def Properties.spoken (lang : String) : Properties := .ofList [("lang", .text lang)]

/-- A service in English is there before the start; it is translated, and then taken away. -/
theorem removals_noticed_english :
    Plan.english.IsPassive ⟨"(lang=en)", .equal "lang" ⟨"en", []⟩⟩ ∧
    ∃ h₀, (Hub.ofPlans [Plan.english]).Reaches 1 [.register (.spoken "en"), .start 0] h₀ ∧
      ((∀ done h, done <+: [.setProperties 1 (.spoken "fr"), .unregister 1] →
          h₀.Reaches 1 done h → h.Backed 0) ↔
        ∀ done id h, done ++ [.unregister id] <+: [.setProperties 1 (.spoken "fr"), .unregister 1] →
          h₀.Reaches 1 done h → h.Noticed 0 ⟨"(lang=en)", .equal "lang" ⟨"en", []⟩⟩ id) := by
  have hbefore : ∀ command ∈ ([.register (.spoken "en")] : List (Command Entry)),
      command.IsRegistryCall := by simp [Command.IsRegistryCall]
  have hcalls : ∀ command ∈
      ([.setProperties 1 (.spoken "fr"), .unregister 1] : List (Command Entry)),
      command.IsRegistryCall := by simp [Command.IsRegistryCall]
  obtain ⟨h₀, hr, -, -, -, hiff, -⟩ := removals_noticed_iff Plan.passive_english hbefore hcalls 0
  exact ⟨Plan.passive_english, h₀, hr, hiff⟩

/-- Whether an answer is that the command was done. -/
def Answer.isDone : Answer → Bool
  | .done => true
  | _ => false

theorem Answer.eq_done {answer : Answer} (hd : answer.isDone = true) : answer = .done := by
  cases answer <;> first | rfl | cases hd

/-- **A removal that is missed.** A service in English is translated into French and then taken
away; the registry has it no more, and the collection of the services in English still has it. -/
theorem removal_missed : ∃ answers h,
    (Hub.ofPlans [Plan.english]).runAll 1
      [.start 0, .register (.spoken "en"), .setProperties 1 (.spoken "fr"), .unregister 1] =
        .ok (answers, h) ∧
    answers[3]? = some .done ∧ h.registry.get? 1 = none ∧ (h.collection 0).identities = [1] := by
  obtain ⟨⟨answers, h⟩, hr, hseen⟩ := Run.exists_of_map_eq_ok
    (f := fun p : List Answer × Hub Entry =>
      (p.1[3]?.map Answer.isDone, (p.2.registry.get? 1).isNone, (p.2.collection 0).identities))
    (show ((Hub.ofPlans [Plan.english]).runAll 1
      [.start 0, .register (.spoken "en"), .setProperties 1 (.spoken "fr"), .unregister 1]).map _ =
      .ok (some true, true, [1]) by decide +kernel)
  obtain ⟨hdone, hseen⟩ := Prod.mk.inj hseen
  obtain ⟨hgone, hleft⟩ := Prod.mk.inj hseen
  obtain ⟨answer, hlast, hdone⟩ := Option.map_eq_some_iff.1 hdone
  rw [Answer.eq_done hdone] at hlast
  exact ⟨answers, h, hr, hlast, Option.isNone_iff_eq_none.1 hgone, hleft⟩

end LiveServices
