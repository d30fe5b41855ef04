import LiveServices.Proofs.Deliveries.Underway
import LiveServices.Proofs.Registry.Stream
import LiveServices.Proofs.Releases.Serials

/-!
# Every coming is told once

A service that comes is reported to each subscription that is there and accepts it, and a service
that is there is reported to each subscription that is made and accepts it. Both go through a list
that was made at the beginning, and while they do, the listeners may register, change and unregister
services, and subscribe and unsubscribe listeners, to any depth. No report is lost by this, and none
is made twice (`registered_exactly_once`).
-/

namespace LiveServices

variable {E : Type}

/-- The report says to this subscription that this service comes. -/
def Report.comes (s id : UInt64) (p : Report) : Bool :=
  p.1 == s && p.2.kind == .registered && p.2.reference.id == id

theorem Report.comes_iff {s id : UInt64} {p : Report} :
    p.comes s id = true ↔ (p.1 = s ∧ p.2.kind = .registered) ∧ p.2.reference.id = id := by
  simp [comes]

namespace Hub

/-- How often a subscription was told that a service comes. -/
def comings (h : Hub E) (s id : UInt64) : Nat := h.reports.countP (Report.comes s id)

/-- A subscription was told just once that this service comes, with these properties. -/
structure HearsOnce (h : Hub E) (s : UInt64) (r : ServiceReference) : Prop where
  told : (s, .registered r) ∈ h.reports
  once : h.comings s r.id = 1

/-- A command that is given now makes it due that a subscription is told of a service: the
subscription is there and accepts the service that is registered, or the service is there and is
accepted by the subscription that is made. -/
inductive Promises (h : Hub E) : Command E → UInt64 → ServiceReference → Prop where
  | registered {properties : Properties} {s : Subscription E}
    (hs : s ∈ h.registry.subscriptions)
    (haccepts : s.filter.accepts
      (ServiceReference.new h.registry.nextService properties).properties = true) :
    Promises h (.register properties) s.id (.new h.registry.nextService properties)
  | subscribed {text : String} {filter : ServiceFilter} {home : Nat} {l : Listener E}
    {r : ServiceReference} (hparse : ServiceFilter.parse text = .ok filter)
    (hr : r ∈ h.registry.references filter) :
    Promises h (.addListener home text l) h.registry.nextSubscription r

end Hub

/-- Of reports that are apart, at most one says that a service comes. -/
theorem Report.countP_comes_le {L : List Report} (hL : L.Pairwise Report.Distinct) (s id : UInt64) :
    L.countP (Report.comes s id) ≤ 1 := by
  induction hL with
  | nil => exact Nat.zero_le _
  | @cons p L hp _ ih =>
    rw [List.countP_cons]
    split
    · next hcomes =>
      obtain ⟨⟨hs, hkind⟩, hid⟩ := comes_iff.1 hcomes
      have hnone : L.countP (Report.comes s id) = 0 := by
        refine List.countP_eq_zero.2 fun q hq hcomes' => ?_
        obtain ⟨⟨hs', hkind'⟩, hid'⟩ := comes_iff.1 hcomes'
        exact hp q hq hkind hkind' (hs.trans hs'.symm) (hid.trans hid'.symm)
      omega
    · exact ih

variable [ServiceEntry E] {h h' : Hub E} {depth : Nat}

/-- What a command promises is done when it is carried out. -/
theorem Hub.Promises.mem_reports {command : Command E} {s : UInt64} {r : ServiceReference}
    (hd : h.Promises command s r) (hc : command.IsPeaceful) (hp : h.IsPeaceful) {answer : Answer}
    (hr : Run.run depth command h = .ok (answer, h')) : (s, .registered r) ∈ h'.reports := by
  cases depth with
  | zero => exact nomatch hr
  | succ depth =>
    obtain ⟨answer', h₁, hexecute, hend⟩ := Run.bind_eq_ok.1 hr
    obtain ⟨-, rfl⟩ : answer' = answer ∧ h₁.record (.ended h₁.census) = h' :=
      Prod.mk.inj (Except.ok.inj hend)
    have hn := Run.obliging_run (E := E) depth
    cases hd with
    | registered hs haccepts =>
      obtain ⟨_, hregister⟩ := Run.run_of_answered hexecute
      obtain ⟨-, hmade⟩ := Run.register_honors hn hp hregister
      exact hmade.mem_reports (Registry.mem_owed.2 ⟨_, hs, haccepts, rfl⟩)
    | @subscribed text filter home l r hparse hmem =>
      have hp₁ : ({ h with listeners := h.listeners + 1 } : Hub E).IsPeaceful :=
        hp.of_subscriptions rfl
      rw [Run.addListener_eq hparse] at hexecute
      obtain ⟨_, hsubscribe⟩ := Run.run_of_answered hexecute
      obtain ⟨-, hmade⟩ :=
        Run.subscribe_honors hn (l := ⟨h.listeners, home, l⟩) hc.listener hp₁ hsubscribe
      exact hmade.mem_reports (List.mem_map.2 ⟨r, hmem, rfl⟩)

/-- A sequence of commands pays what it makes due. -/
theorem Hub.Reaches.honors {commands : List (Command E)} (hr : h.Reaches depth commands h')
    (hc : ∀ command ∈ commands, command.IsPeaceful) (hp : h.IsPeaceful) : h.Honors [] h' := by
  induction commands generalizing h with
  | nil =>
    obtain rfl := Hub.reaches_nil.1 hr
    exact .refl _
  | cons command commands ih =>
    obtain ⟨answer, h₁, hrun, hrest⟩ := Hub.reaches_cons.1 hr
    obtain ⟨-, hs₁⟩ := Run.obliging_run depth (hc command List.mem_cons_self) hp hrun
    exact hs₁.trans (ih hrest (fun other hmem => hc other (List.mem_cons_of_mem _ hmem))
      (hs₁.peaceful hp))

/-- **Every coming is told once.** Let commands for the registry reach a hub, where listeners give
such commands in turn while they are told of events, and none of them panics. Then no subscription
was told twice that a service comes. It was told once when the outermost command returned, and is
not told again, if at any depth the service was registered while the subscription was there and
accepted it, or the subscription was made while the service was there and was accepted. -/
theorem registered_exactly_once {plans : List (Plan E)} {commands : List (Command E)}
    (hc : ∀ command ∈ commands, command.IsPeaceful)
    (hr : (Hub.ofPlans plans).Reaches depth commands h) (hroom : h.trace.length + 1 < 2 ^ 64) :
    (∀ s id, h.comings s id ≤ 1) ∧
    ∀ early command late, commands = early ++ command :: late → ∃ h₀ answer h₁,
      (Hub.ofPlans plans).Reaches depth early h₀ ∧ h₀.run depth command = .ok (answer, h₁) ∧
      h₁.Reaches depth late h ∧
      ∀ depth' c g, Run.Underway depth command h₀ depth' c g →
        ∀ s r, g.Promises c s r → h₁.HearsOnce s r ∧ h.HearsOnce s r := by
  have hnobody : (Hub.ofPlans plans).IsPeaceful := fun s hs => by
    rw [Hub.registry_ofPlans] at hs
    exact absurd hs List.not_mem_nil
  have hnothing : (Hub.ofPlans plans).trace = [] := (Hub.blank_ofPlans plans).2
  have hatMost : ∀ s id, h.comings s id ≤ 1 := fun s id => by
    have hs := hr.honors hc hnobody
    obtain ⟨hb, -⟩ := hs.books []
      (by rw [Hub.registry_ofPlans, hnothing, List.length_nil, Registry.issues]; simp; omega) (by
        rw [Hub.registry_ofPlans, Hub.reports, hnothing]
        exact Registry.books_empty)
    exact Report.countP_comes_le hb.once s id
  refine ⟨hatMost, ?_⟩
  rintro early command late rfl
  obtain ⟨h₀, hearly, hrest⟩ := Hub.reaches_append.1 hr
  obtain ⟨answer, h₁, hrun, hlate⟩ := Hub.reaches_cons.1 hrest
  refine ⟨h₀, answer, h₁, hearly, hrun, hlate, fun depth' c g hu s r hpromise => ?_⟩
  have hp₀ := (hearly.honors (fun other hmem => hc other (List.mem_append_left _ hmem))
    hnobody).peaceful hnobody
  have hcommand := hc command (List.mem_append_right _ List.mem_cons_self)
  have hp₁ := (Run.obliging_run depth hcommand hp₀ hrun).2.peaceful hp₀
  have hsuffix : h₁.reports <:+ h.reports := (hlate.honors
    (fun other hmem => hc other (List.mem_append_right _ (List.mem_cons_of_mem _ hmem)))
    hp₁).suffix
  -- the command is carried out wherever it was given, and its reports are kept
  obtain ⟨hpeaceful, hp, _, g', hgiven, hkept⟩ := hu.achieved hcommand hp₀ hrun
  have htold : (s, .registered r) ∈ h₁.reports :=
    hkept.subset (hpromise.mem_reports hpeaceful hp hgiven)
  have honce : ∀ g : Hub E, g.reports <:+ h.reports → (s, .registered r) ∈ g.reports →
      g.HearsOnce s r := fun g hsub hmem => by
    have hpos : 0 < g.comings s r.id :=
      List.countP_pos_iff.2 ⟨_, hmem, Report.comes_iff.2 ⟨⟨rfl, rfl⟩, rfl⟩⟩
    have hle : g.comings s r.id ≤ h.comings s r.id := hsub.sublist.countP_le
    have := hatMost s r.id
    exact ⟨hmem, by omega⟩
  exact ⟨honce h₁ hsuffix htold, honce h List.suffix_rfl (hsuffix.subset htold)⟩

/-! ## A listener that gives commands -/

/-- A listener that subscribes another one, registers a service and takes the first one away when
it is told of something for the first time. -/
def Listener.restless : Listener Entry :=
  .mk "restless" .silent fun told _ =>
    if told.isEmpty then
      .mk [.addListener 0 "(lang=en)" (.mk "scribe" .silent fun _ _ => .silent),
        .register (.spoken "en"), .unregister 1] .done
    else .silent

theorem Listener.isPeaceful_restless : Listener.restless.IsPeaceful where
  finish told event message := by
    cases told <;> exact Finish.noConfusion
  commands told event command hmem := by
    cases told with
    | nil =>
      simp only [restless, respond, List.isEmpty_nil, if_true, Response.commands, List.mem_cons,
        List.not_mem_nil, or_false] at hmem
      rcases hmem with rfl | rfl | rfl
      · exact .addListener _ _ (fun _ _ _ => Finish.noConfusion)
          fun _ _ _ hnone => absurd hnone List.not_mem_nil
      · exact .register _
      · exact .unregister _
    | cons => exact absurd hmem List.not_mem_nil

namespace Hub

/-- The subscription of this listener. -/
def restlessSubscription : Subscription Entry :=
  ⟨0, ⟨"(lang=en)", .equal "lang" ⟨"en", []⟩⟩, .observer ⟨0, 0, .restless⟩⟩

/-- The hub in which this listener is subscribed, and nothing else happened. -/
def restless : Hub Entry :=
  let h : Hub Entry := { listeners := 1, registry := (({} : Registry Entry).subscribe
    restlessSubscription.filter restlessSubscription.target).2 }
  h.record (.ended h.census)

theorem run_restless : (Hub.ofPlans []).run 3 (.addListener 0 "(lang=en)" .restless) =
    .ok (.text (Subscription.displayId 0), Hub.restless) := by
  have hparse : ServiceFilter.parse "(lang=en)" = .ok restlessSubscription.filter := rfl
  refine run_ok ?_
  rw [Run.addListener_eq hparse]
  exact Run.answered_ok (by rw [Run.subscribe_eq]; rfl)

/-- While a first service is registered, a second one is, and then there are two subscriptions that
accept it. -/
theorem underway_restless : ∃ g : Hub Entry,
    Run.Underway 3 (.register (.spoken "en")) Hub.restless 2 (.register (.spoken "en")) g ∧
    ∀ id : UInt64, id = 0 ∨ id = 1 →
      g.Promises (.register (.spoken "en")) id (.new 2 (.spoken "en")) := by
  let event : ServiceEvent := .registered (.new 1 (.spoken "en"))
  -- the hub in which the listener is told of the first service
  let h : Hub Entry := { Hub.restless with
    registry := (Hub.restless.registry.add (.spoken "en")).2 }
  let h₁ : Hub Entry := (h.report 0 event).calling ⟨0, 0, .restless⟩ (.event event)
  -- its first command, and who is subscribed then
  obtain ⟨⟨answer, h₂⟩, hgiven, hseen⟩ := Run.exists_of_map_eq_ok
    (f := fun p : Answer × Hub Entry => (p.2.registry.nextService,
      p.2.registry.subscriptions.map fun s =>
        (s.id, s.filter.accepts (ServiceReference.new 2 (.spoken "en")).properties)))
    (show (h₁.run 2 (.addListener 0 "(lang=en)" (.mk "scribe" .silent fun _ _ => .silent))).map _ =
      .ok ((2 : UInt64), [((0 : UInt64), true), (1, true)]) by decide +kernel)
  obtain ⟨hnext, hsubs⟩ := Prod.mk.inj hseen
  have hround : (Hub.restless.registry.audience event fun filter =>
      filter.accepts (ServiceReference.new 1 (.spoken "en")).properties) =
        [(restlessSubscription, event)] := by
    have haccepts : restlessSubscription.filter.accepts
        (ServiceReference.new 1 (.spoken "en")).properties = true := by decide +kernel
    have hsubs : Hub.restless.registry.subscriptions = [restlessSubscription] := rfl
    rw [Registry.audience, hsubs, List.filter_singleton, haccepts]
    rfl
  let scribe : Listener Entry := .mk "scribe" .silent fun _ _ => .silent
  refine ⟨h₂.record (.commanded (Attached.tag ⟨0, 0, .restless⟩)
    (Command.addListener 0 "(lang=en)" scribe).name answer),
    .deeper (.registered (.spoken "en")) ?_ (.self 2 _ _), fun id hid => ?_⟩
  · show Run.InRound (Run.run 2) (Hub.restless.registry.audience event fun filter =>
      filter.accepts (ServiceReference.new 1 (.spoken "en")).properties) h _ _
    rw [hround]
    exact .here rfl (.later hgiven (.here _ _ _))
  · have hmem : (id, true) ∈ h₂.registry.subscriptions.map fun s =>
        (s.id, s.filter.accepts (ServiceReference.new 2 (.spoken "en")).properties) := by
      rw [hsubs]
      simpa using hid
    obtain ⟨s, hs, hsame⟩ := List.mem_map.1 hmem
    obtain ⟨rfl, haccepts⟩ := Prod.mk.inj hsame
    rw [← hnext] at haccepts ⊢
    exact .registered hs haccepts

end Hub

/-- While the coming of a first service is told to a listener, it subscribes another one and
registers a second service; each of the two is told once of the second service. -/
theorem registered_exactly_once_restless :
    let commands : List (Command Entry) :=
      [.addListener 0 "(lang=en)" .restless, .register (.spoken "en")]
    (∀ command ∈ commands, command.IsPeaceful) ∧
    ∃ h g, (Hub.ofPlans []).Reaches 3 commands h ∧ h.trace.length + 1 < 2 ^ 64 ∧
      (∀ s id, h.comings s id ≤ 1) ∧
      Run.Underway 3 (.register (.spoken "en")) Hub.restless 2 (.register (.spoken "en")) g ∧
      ∀ s : UInt64, s = 0 ∨ s = 1 →
        g.Promises (.register (.spoken "en")) s (.new 2 (.spoken "en")) ∧
        h.HearsOnce s (.new 2 (.spoken "en")) := by
  intro commands
  have hc : ∀ command ∈ commands, command.IsPeaceful := by
    intro command hmem
    rcases List.mem_pair.1 hmem with rfl | rfl
    · exact .addListener _ _ Listener.isPeaceful_restless.finish
        Listener.isPeaceful_restless.commands
    · exact .register _
  obtain ⟨⟨answer, h⟩, hrun, hlength⟩ := Run.exists_of_map_eq_ok
    (f := fun p : Answer × Hub Entry => p.2.trace.length)
    (show (Hub.restless.run 3 (.register (.spoken "en"))).map _ = .ok 20 by decide +kernel)
  have hroom : h.trace.length + 1 < 2 ^ 64 := by
    rw [hlength]
    decide
  have hr : (Hub.ofPlans []).Reaches 3 commands h :=
    Hub.reaches_cons.2 ⟨_, _, Hub.run_restless,
      Hub.reaches_cons.2 ⟨answer, h, hrun, Hub.reaches_nil.2 rfl⟩⟩
  obtain ⟨g, hunderway, hpromises⟩ := Hub.underway_restless
  obtain ⟨hatMost, hall⟩ := registered_exactly_once hc hr hroom
  obtain ⟨h₀, answer', h', hearly, hrun', hlate, honce⟩ :=
    hall [.addListener 0 "(lang=en)" .restless] (.register (.spoken "en")) [] rfl
  obtain rfl := hearly.unique
    (Hub.reaches_cons.2 ⟨_, _, Hub.run_restless, Hub.reaches_nil.2 rfl⟩)
  obtain rfl := Hub.reaches_nil.1 hlate
  exact ⟨hc, h, g, hr, hroom, hatMost, hunderway, fun s hs =>
    ⟨hpromises s hs, (honce _ _ _ hunderway _ _ (hpromises s hs)).2⟩⟩

end LiveServices
