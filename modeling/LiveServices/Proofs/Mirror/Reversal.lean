import LiveServices.Proofs.Mirror.Joining

/-!
# When collections mirror the registry

A collection of references or proxies that takes every service (`Plan.IsAttentive`) follows the
registry from its start on. Its listeners may let services come and go while it does. Then a
service can go while its coming is still to be reported to some collection: the report of the
going is made at once, inside the delivery of another report, and the report of the coming
afterwards. That collection keeps the service.

Whenever no command is at work these are the only services that a collection has too much, and it
lacks none (`mirror_exact_iff`). So a collection mirrors the registry just as long as no two
reports of the coming and the going of a service were made to it in reverse (`Reversed`).
`mirror_stale` is a run in which this happens.
-/

namespace LiveServices

/-- A plan for references or proxies with a welcoming mode, whose listeners let services come and
go and do no more. -/
structure Plan.IsAttentive (plan : Plan Entry) : Prop where
  mode : plan.mode.IsWelcoming
  factory : ∃ proxies, plan.factory = some (.ofProxies proxies)
  lifecycle : ∀ l ∈ plan.lifecycleListeners, l.IsTransit
  state : ∀ l ∈ plan.stateListeners, l.IsTransit

/-- A collection that is not subscribed and has nothing yet, and that will do as it is told. -/
structure Collection.IsBlank (k : Collection Entry) : Prop where
  confined : k.Confined
  attentive : k.dropped = false → k.Attentive
  unsubscribed : k.subscription = none
  identities : k.identities = []

theorem Collection.isBlank_absent : (absent : Collection Entry).IsBlank where
  confined := ⟨fun _ hl => absurd hl List.not_mem_nil, fun _ hl => absurd hl List.not_mem_nil⟩
  attentive hdropped := by cases hdropped
  unsubscribed := rfl
  identities := rfl

/-- What an attentive plan builds. -/
theorem Plan.IsAttentive.isBlank {plan : Plan Entry} {number key : Nat} {k : Collection Entry}
    (hp : plan.IsAttentive) (hb : plan.build number key = .ok k) : k.IsBlank := by
  obtain ⟨factory, filter, hfactory, rfl⟩ := Plan.build_ok hb
  obtain ⟨proxies, hproxies⟩ := hp.factory
  obtain rfl := Option.some.inj (hfactory.symm.trans hproxies)
  refine ⟨⟨fun _ hmem => ?_, fun _ hmem => ?_⟩, fun _ => ⟨?_, rfl, ?_⟩, rfl, rfl⟩
  · exact hp.lifecycle _ (Plan.listener_of_mem_attach hmem)
  · exact hp.state _ (Plan.listener_of_mem_attach hmem)
  · exact ⟨.nil rfl rfl, hp.mode, ⟨proxies, rfl⟩, fun _ hmem => absurd hmem List.not_mem_nil, .nil⟩
  · exact fun _ hmem => absurd hmem List.not_mem_nil

namespace Hub

variable {h : Hub Entry} {c : Nat} {s : UInt64}

/-- A hub in which nobody is subscribed and nothing happened yet. -/
structure Blank (h : Hub Entry) : Prop where
  registry : h.registry = {}
  trace : h.trace = []
  collection : ∀ c, (h.collection c).IsBlank

theorem blank_of_attentive {plans : List (Plan Entry)} (hp : ∀ plan ∈ plans, plan.IsAttentive) :
    (ofPlans plans).Blank := by
  have happend : ∀ {h h' : Hub Entry} {k : Collection Entry}, h.Blank →
      h'.collections = h.collections ++ [k] → h'.registry = h.registry → h'.trace = h.trace →
      k.IsBlank → h'.Blank := fun hb hc hr ht hk => by
    refine ⟨hr.trans hb.registry, ht.trans hb.trace, fun d => ?_⟩
    rw [collection_append hc]
    split
    · exact hk
    · exact hb.collection d
  refine ofPlans_induction plans ⟨rfl, rfl, fun c => ?_⟩ fun h plan hplan hb => ?_
  · rw [collection_of_length_le c.zero_le]
    exact Collection.isBlank_absent
  · rcases addCollection_eq h plan with ⟨k, hbuild, hadd⟩ | hadd
    · rw [hadd]
      exact happend hb rfl rfl rfl ((hp plan hplan).isBlank hbuild)
    · rw [hadd]
      exact happend hb rfl rfl rfl Collection.isBlank_absent

/-- Where nobody is subscribed no report is due. -/
theorem Blank.mirrored (hb : h.Blank) : h.Mirrored where
  tracked := by
    have hnone : h.registry.subscriptions = [] := by rw [hb.registry]
    refine ⟨?_, fun c => (hb.collection c).confined, fun c => (hb.collection c).attentive, ?_, ?_,
      ?_, fun c _ => (hb.collection c).identities⟩
    · rw [hnone]
      exact .nil
    all_goals
      intro sub hsub
      rw [hnone] at hsub
      cases hsub
  linked c s := by
    rw [(hb.collection c).unsubscribed, hb.registry]
    simp
  ledger := by
    rw [reports, hb.trace, hb.registry]
    exact Registry.ledger_empty

/-- What a collection has too much was reported to it in reverse, and it lacks nothing. -/
theorem Mirrored.mem_identities (hm : h.Mirrored) (hs : (h.collection c).subscription = some s)
    (id : UInt64) : id ∈ (h.collection c).identities ↔
      id ∈ h.registry.matching (h.collection c).dependency.filter ∨ Reversed h.reports s id := by
  obtain ⟨sub, hsub, rfl, htarget⟩ := (hm.linked c s).1 hs
  rw [hm.tracked.current sub hsub c htarget id, hm.ledger.last_registered_iff hsub,
    (hm.tracked.of_target hsub htarget).2]

/-- A collection that was started mirrors the registry unless a service was reported to it in
reverse. -/
theorem Mirrored.identities_eq_iff (hm : h.Mirrored)
    (hs : (h.collection c).subscription = some s) :
    (h.collection c).identities = h.registry.matching (h.collection c).dependency.filter ↔
      ∀ id, ¬ Reversed h.reports s id := by
  obtain ⟨sub, hsub, -, htarget⟩ := (hm.linked c s).1 hs
  have hk := hm.tracked.attentive c (hm.tracked.of_target hsub htarget).1
  constructor
  · intro heq id hreversed
    have hmem := (hm.mem_identities hs id).2 (.inr hreversed)
    rw [heq] at hmem
    exact Registry.notMem_matching (hm.ledger.get?_of_reversed hreversed) hmem
  · intro hnone
    refine Registry.eq_of_rising (List.pairwise_map.2 hk.faithful.rising)
      (hm.ledger.rising.matching _) fun id => ?_
    rw [hm.mem_identities hs id, or_iff_left (hnone id)]

end Hub

/-- **The mirror.** Take attentive plans and a run that lets services come and go and starts
collections, with listeners that let services come and go inside of it. Whenever no command is at
work, a collection that was started has each service of the registry that its filter accepts; what
else it has are the services that are gone and whose coming was reported to it after their going.
So it has just the services that its filter accepts exactly if no service was reported to it in
reverse. -/
theorem mirror_exact_iff {plans : List (Plan Entry)} (hp : ∀ plan ∈ plans, plan.IsAttentive)
    {depth : Nat} {commands : List (Command Entry)}
    (hcommands : ∀ command ∈ commands, command.IsTransit ∨ ∃ c, command = .start c)
    {answers : List Answer} {h : Hub Entry}
    (hr : (Hub.ofPlans plans).runAll depth commands = .ok (answers, h))
    (hroom : h.trace.length + 1 < 2 ^ 64) {c : Nat} {s : UInt64}
    (hs : (h.collection c).subscription = some s) :
    (∀ id, id ∈ (h.collection c).identities ↔
      (∃ r ∈ h.registry.references (h.collection c).dependency.filter, r.id = id) ∨
        Reversed h.reports s id) ∧
    (∀ id, Reversed h.reports s id → h.registry.get? id = none) ∧
    ((h.collection c).identities =
        (h.registry.references (h.collection c).dependency.filter).map ServiceReference.id ↔
      ∀ id, ¬ Reversed h.reports s id) := by
  have hblank := Hub.blank_of_attentive hp
  have hmirrors : Hub.Mirrors 0 (Hub.ofPlans plans) h :=
    Run.keeps_sequence (fun command hmem => Run.mirrors_run depth (hcommands command hmem)) hr
  obtain ⟨hm, -, -⟩ := hmirrors.mirrored hblank.mirrored (by
    rw [hblank.registry, hblank.trace]
    show 1 + 0 + h.trace.length + 0 < 2 ^ 64 + 0
    omega)
  refine ⟨fun id => ?_, fun id => hm.ledger.get?_of_reversed, hm.identities_eq_iff hs⟩
  rw [hm.mem_identities hs id, Registry.matching, List.mem_map]

/-! ## A service that stays too long -/

/-- A mandatory dependency on the services in English, with a state listener that takes the second
service away as soon as the dependency is met. -/
def Plan.hasty : Plan Entry where
  hasRegistry := true
  factory := some .reference
  filter := some ⟨"(lang=en)", .equal "lang" ⟨"en", []⟩⟩
  stateListeners := [.mk "hasty" .silent fun _ callback =>
    match callback with
    | .satisfied _ => .mk [.unregister 2] .done
    | _ => .silent]

theorem Plan.attentive_hasty : Plan.hasty.IsAttentive where
  mode := .list
  factory := ⟨false, rfl⟩
  lifecycle _ hl := absurd hl List.not_mem_nil
  state l hl told callback command hmem := by
    obtain rfl := List.mem_singleton.1 hl
    cases callback with
    | satisfied =>
      obtain rfl := List.mem_singleton.1 hmem
      trivial
    | _ => cases hmem

/-- What comes of two services in English and a start. -/
theorem Plan.hasty_ok : ∃ answers h, (Hub.ofPlans [Plan.hasty]).runAll 3
      [.register (.spoken "en"), .register (.spoken "en"), .start 0] = .ok (answers, h) ∧
    (h.collection 0).subscription = some 0 ∧ (h.collection 0).identities = [1, 2] ∧
    (h.registry.references (h.collection 0).dependency.filter).map ServiceReference.id = [1] ∧
    h.trace.length = 13 := by
  obtain ⟨⟨answers, h⟩, hr, hseen⟩ := Run.exists_of_map_eq_ok
    (f := fun p : List Answer × Hub Entry =>
      ((p.2.collection 0).subscription, (p.2.collection 0).identities,
        (p.2.registry.references (p.2.collection 0).dependency.filter).map ServiceReference.id,
        p.2.trace.length))
    (show ((Hub.ofPlans [Plan.hasty]).runAll 3
      [.register (.spoken "en"), .register (.spoken "en"), .start 0]).map _ =
      .ok (some 0, [1, 2], [1], 13) by decide +kernel)
  obtain ⟨hsub, hseen⟩ := Prod.mk.inj hseen
  obtain ⟨hids, hseen⟩ := Prod.mk.inj hseen
  obtain ⟨hreferences, hlength⟩ := Prod.mk.inj hseen
  exact ⟨answers, h, hr, hsub, hids, hreferences, hlength⟩

/-- The second service was reported to the collection in reverse. -/
theorem mirror_exact_iff_hasty : ∃ answers h,
    (∀ plan ∈ [Plan.hasty], plan.IsAttentive) ∧
    (∀ command ∈ ([.register (.spoken "en"), .register (.spoken "en"), .start 0] :
      List (Command Entry)), command.IsTransit ∨ ∃ c, command = .start c) ∧
    (Hub.ofPlans [Plan.hasty]).runAll 3
      [.register (.spoken "en"), .register (.spoken "en"), .start 0] = .ok (answers, h) ∧
    h.trace.length + 1 < 2 ^ 64 ∧ (h.collection 0).subscription = some 0 ∧
    Reversed h.reports 0 2 ∧ h.registry.get? 2 = none := by
  have hp : ∀ plan ∈ [Plan.hasty], plan.IsAttentive := fun plan hmem => by
    obtain rfl := List.mem_singleton.1 hmem
    exact Plan.attentive_hasty
  have hcommands : ∀ command ∈ ([.register (.spoken "en"), .register (.spoken "en"), .start 0] :
      List (Command Entry)), command.IsTransit ∨ ∃ c, command = .start c := by
    simp [Command.IsTransit]
  obtain ⟨answers, h, hr, hs, hids, hreferences, hlength⟩ := Plan.hasty_ok
  have hroom : h.trace.length + 1 < 2 ^ 64 := by
    rw [hlength]
    decide
  obtain ⟨hmem, hgone, -⟩ := mirror_exact_iff hp hcommands hr hroom hs
  have hreversed : Reversed h.reports 0 2 := by
    refine ((hmem 2).1 (by rw [hids]; decide)).resolve_left fun hthere => ?_
    have hthere := List.mem_map.2 hthere
    rw [hreferences] at hthere
    revert hthere
    decide
  exact ⟨answers, h, hp, hcommands, hr, hroom, hs, hreversed, hgone 2 hreversed⟩

/-- **A service that stays.** A list of references with no other listener is started when two
services in English are there. It still has the second one when the start is done, and the
registry has the first one only. -/
theorem mirror_stale : Plan.hasty.IsAttentive ∧ Plan.hasty.factory = some .reference ∧
    Plan.hasty.mode = .list ∧ Plan.hasty.lifecycleListeners = [] ∧ ∃ answers h,
    (Hub.ofPlans [Plan.hasty]).runAll 3
      [.register (.spoken "en"), .register (.spoken "en"), .start 0] = .ok (answers, h) ∧
    (h.collection 0).subscription = some 0 ∧ (h.collection 0).identities = [1, 2] ∧
    (h.registry.references (h.collection 0).dependency.filter).map ServiceReference.id = [1] := by
  obtain ⟨answers, h, hr, hs, hids, hreferences, -⟩ := Plan.hasty_ok
  exact ⟨Plan.attentive_hasty, rfl, rfl, rfl, answers, h, hr, hs, hids, hreferences⟩

end LiveServices
