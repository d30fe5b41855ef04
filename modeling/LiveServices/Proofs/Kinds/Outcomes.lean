import LiveServices.Proofs.Calm.Removals
import LiveServices.Proofs.Kinds.Commands

/-!
# The rejecting kinds

A set of references or of proxies is a list of them, and a sorted set of them without a sort key is
a sorted list: whatever is done to the one and to the other, and whatever listeners do meanwhile,
all answers are the same but for the kind that is shown for inspection, and so is all that listeners
and release actions are called for (`kinds_indistinguishable`).

Plans are compared one by one, so several collections in one hub may be of the one kind or of the
other.
-/

namespace LiveServices

variable {E : Type} [ServiceEntry E]

/-! ## Plans -/

/-- The modes of all kinds tell entries apart, if there is no sort key. -/
theorem Mode.TellsApart.ofKind (kind : CollectionKind) :
    (Mode.ofKind kind (ServiceEntry.naturalOrder (E := E))).TellsApart := by
  cases kind with
  | list => exact .list
  | set => exact .set
  | sortedList => exact .sortedList _
  | sortedSet => exact .natural

/-- Two plans that are the same, or that are for entries that are told apart by their services and
differ in the kind only: the one is for a set and the other for a list, or the one is for a sorted
set and the other for a sorted list, without a sort key. -/
inductive Plan.Akin : Plan E → Plan E → Prop where
  | same (plan : Plan E) : Akin plan plan
  | kinds (plan : Plan E) {factory : Factory E} (hplan : plan.factory = some factory)
    (hf : factory.EntriesIdentified) {kind kind' : CollectionKind}
    (hkind : kind.accepting = kind'.accepting) :
    Akin { plan with mode := .ofKind kind ServiceEntry.naturalOrder }
      { plan with mode := .ofKind kind' ServiceEntry.naturalOrder }

/-- The plans that two configurations make for references or for proxies are akin, if they differ in
the kind only and have no sort key. -/
theorem Plan.akin_ofConfig {config : ImporterConfig} {kind : CollectionKind} {proxies : Bool}
    {plan plan' : Plan Entry} (hsort : config.sortBy = none)
    (hkind : config.collection.accepting = kind.accepting)
    (hp : Plan.ofConfig config (.ofProxies proxies) = .ok plan)
    (hp' : Plan.ofConfig { config with collection := kind } (.ofProxies proxies) = .ok plan') :
    plan.Akin plan' := by
  obtain ⟨-, filter, hfilter, rfl⟩ := ofConfig_eq_ok.1 hp
  obtain ⟨-, filter', hfilter', rfl⟩ := ofConfig_eq_ok.1 hp'
  obtain rfl : filter = filter' := Except.ok.inj (hfilter.symm.trans hfilter')
  have horder (kind : CollectionKind) :
      ({ config with collection := kind } : ImporterConfig).order =
        ServiceReference.naturalOrder := by rw [ImporterConfig.order, hsort]
  have horder' : config.order = ServiceReference.naturalOrder := horder config.collection
  rw [horder', horder kind]
  exact .kinds {
    hasRegistry := true
    factory := some (Factory.ofProxies proxies)
    filter := some filter
    beanName := config.beanName
    mandatory := config.mandatory } rfl (Factory.entriesIdentified_ofProxies proxies) hkind

/-- Plans that are akin build collections that are akin, or none. -/
theorem Plan.Akin.build {plan plan' : Plan E} (hp : plan.Akin plan') (number key : Nat) :
    (∃ k k', plan.build number key = .ok k ∧ plan'.build number key = .ok k' ∧ k.Akin k') ∨
      ∃ f, plan.build number key = .error f ∧ plan'.build number key = .error f := by
  cases hp with
  | same plan =>
    cases hb : plan.build number key with
    | ok k => exact .inl ⟨k, k, rfl, rfl, .refl k⟩
    | error f => exact .inr ⟨f, rfl, rfl⟩
  | @kinds plan factory hplan hf kind kind' hkind =>
    simp only [Plan.build, hplan]
    cases plan.hasRegistry with
    | false => exact .inr ⟨_, rfl, rfl⟩
    | true =>
      cases plan.filter with
      | none => exact .inr ⟨_, rfl, rfl⟩
      | some filter =>
        refine .inl ⟨_, _, rfl, rfl, .intro _ (.inr ⟨hf, .ofKind kind', .ofKind kind, ?_⟩)⟩
        rw [Mode.accepting_ofKind, Mode.accepting_ofKind, hkind]

theorem Plan.Akin.listenerCount {plan plan' : Plan E} (hp : plan.Akin plan') :
    plan'.listenerCount = plan.listenerCount := by
  cases hp with
  | same => rfl
  | kinds => rfl

namespace Hub

/-- A collection is added to both hubs. -/
theorem Akin.append {h h' : Hub E} (hs : h.Akin h') {k k' : Collection E} (hk : k.Akin k')
    (listeners : Nat) :
    Akin { h with collections := h.collections ++ [k], listeners := h.listeners + listeners }
      { h' with collections := h'.collections ++ [k'], listeners := h'.listeners + listeners } :=
  { hs with
    length := by rw [List.length_append, List.length_append, hs.length]; rfl
    collection := fun c => by
      have hlast (g : Hub E) (k : Collection E) : ({ g with
          collections := g.collections ++ [k]
          listeners := g.listeners + listeners } : Hub E).collection c =
            if c = g.collections.length then k else g.collection c := collection_append rfl c
      rw [hlast, hlast, hs.length]
      split
      · exact hk
      · exact hs.collection c
    listeners := congrArg (· + listeners) hs.listeners }

theorem Akin.addCollection {h h' : Hub E} (hs : h.Akin h') {plan plan' : Plan E}
    (hp : plan.Akin plan') : (h.addCollection plan).2.Akin (h'.addCollection plan').2 := by
  rw [Hub.addCollection, Hub.addCollection]
  rcases hp.build h.collections.length h.listeners with ⟨k, k', hb, hb', hk⟩ | ⟨f, hb, hb'⟩
  · rw [← hs.length, ← hs.listeners] at hb'
    rw [hb, hb', hp.listenerCount]
    exact hs.append hk plan.listenerCount
  · rw [← hs.length, ← hs.listeners] at hb'
    rw [hb, hb']
    exact hs.append (.refl .absent) 0

/-- The hubs of plans that are akin. -/
theorem Peers.ofPlans {plans plans' : List (Plan E)}
    (hplans : List.Forall₂ Plan.Akin plans plans') :
    (Hub.ofPlans plans).Peers (Hub.ofPlans plans') := by
  have hfold (h h' : Hub E) (hs : h.Akin h') :
      (plans.foldl (fun h plan => (h.addCollection plan).2) h).Akin
        (plans'.foldl (fun h plan => (h.addCollection plan).2) h') := by
    induction hplans generalizing h h' with
    | nil => exact hs
    | cons hp _ ih => exact ih _ _ (hs.addCollection hp)
  exact ⟨hfold {} {} ⟨rfl, rfl, fun _ => .refl _, rfl, rfl, rfl, rfl, rfl, .nil, .nil⟩,
    .ofPlans plans⟩

end Hub

/-! ## Sequences of commands -/

/-- Two lists of answers to these commands that differ in no more than the kinds that are shown. -/
def Command.AllAnswers : List (Command E) → List Answer → List Answer → Prop
  | [], [], [] => True
  | command :: commands, a :: answers, a' :: answers' =>
    command.Answers a a' ∧ AllAnswers commands answers answers'
  | _, _, _ => False

namespace Run

/-- Commands agree at every depth. -/
theorem Agree.run (depth : Nat) (command : Command E) :
    Agree Hub.Peers command.Answers (Run.run depth command) (Run.run depth command) := by
  induction depth generalizing command with
  | zero => exact .throw _
  | succ depth ih =>
    refine .bind (.execute ih command) fun a a' ha => .bind .get fun h h' hs => ?_
    rw [hs.akin.census]
    exact .bind (.note trivial) fun _ _ _ => .pure ha

/-- **Sequences.** So do sequences of them. -/
theorem meets_runAll (depth : Nat) (commands : List (Command E)) {h h' : Hub E} (hs : h.Peers h') :
    Meets Hub.Peers (Command.AllAnswers commands) (h.runAll depth commands)
      (h'.runAll depth commands) := by
  induction commands generalizing h h' with
  | nil => exact .reached trivial hs
  | cons command commands ih =>
    -- the other commands are one run that follows the first
    let rest : Run E (List Answer) := fun g => g.runAll depth commands
    show Meets _ _ ((Run.run depth command >>= fun a => rest >>= fun as => Pure.pure (a :: as)) h)
      ((Run.run depth command >>= fun a => rest >>= fun as => Pure.pure (a :: as)) h')
    refine (Agree.run depth command hs).bind fun a a' g g' _ ha hg => ?_
    have hrest : Meets Hub.Peers (Command.AllAnswers commands) (rest g) (rest g') := ih hg
    exact hrest.bind fun _ _ _ _ _ has hQ => .reached ⟨ha, has⟩ hQ

end Run

/-- **Kinds.** In hubs of plans that are akin every sequence of commands either halts for the same
reason, or is answered in the same way, but for the kind where a command asks for it. Then the
registries are the same, each collection has the same services and the same storage with the same
iterators and answers all questions in the same way, the same iterators and entries were handed out
and the same entries were released, and all listeners were told the same in the same order. -/
theorem kinds_indistinguishable {plans plans' : List (Plan E)}
    (hplans : List.Forall₂ Plan.Akin plans plans') (depth : Nat) (commands : List (Command E)) :
    (∃ halt, (Hub.ofPlans plans).runAll depth commands = .error halt ∧
      (Hub.ofPlans plans').runAll depth commands = .error halt) ∨
    ∃ answers h answers' h', (Hub.ofPlans plans).runAll depth commands = .ok (answers, h) ∧
      (Hub.ofPlans plans').runAll depth commands = .ok (answers', h') ∧
      Command.AllAnswers commands answers answers' ∧ h'.registry = h.registry ∧
      (∀ c, (h'.collection c).identities = (h.collection c).identities ∧
        (h'.collection c).storage = (h.collection c).storage ∧
        ∀ question, (Command.ask c question).Answers
          ((h.collection c).answer h.released question)
          ((h'.collection c).answer h'.released question)) ∧
      h'.traversals = h.traversals ∧ h'.kept = h.kept ∧ h'.released = h.released ∧
      (∀ who, h'.told who = h.told who) ∧ List.Forall₂ Moment.Akin h.trace h'.trace := by
  have hend := Run.meets_runAll depth commands (.ofPlans hplans)
  generalize (Hub.ofPlans plans).runAll depth commands = result at hend
  generalize (Hub.ofPlans plans').runAll depth commands = result' at hend
  cases hend with
  | halted halt => exact .inl ⟨halt, rfl, rfl⟩
  | @reached answers answers' h h' hanswers hs =>
    obtain ⟨hs, -⟩ := hs
    refine .inr ⟨answers, h, answers', h', rfl, rfl, hanswers, hs.registry, fun c => ?_,
      hs.traversals, hs.kept, hs.released, hs.told, hs.trace⟩
    refine ⟨(hs.collection c).identities, (hs.collection c).storage, fun question => ?_⟩
    rw [hs.released]
    exact (hs.collection c).answers h.released c question

/-! ### A listener that goes on by itself -/

/-- A listener that registers another service when it is told of the first one, and looks at a
collection whenever it is told of something else. -/
def Listener.eager : Listener Entry :=
  .mk "eager" .silent fun told _ =>
    if told.isEmpty then .mk [.register (.spoken "en")] .done else .mk [.ask 0 .toVec] .done

/-- A collection of proxies with such a listener. -/
def Plan.eager (kind : CollectionKind) : Plan Entry where
  hasRegistry := true
  factory := some .proxy
  filter := some ⟨"(lang=en)", .equal "lang" ⟨"en", []⟩⟩
  mandatory := false
  mode := .ofKind kind ServiceEntry.naturalOrder
  lifecycleListeners := [.eager]

theorem Plan.akin_eager {kind kind' : CollectionKind} (hkind : kind.accepting = kind'.accepting) :
    (eager kind).Akin (eager kind') :=
  .kinds (eager kind) rfl Factory.entriesIdentified_proxy hkind

/-- A set and a sorted set are compared with a list and a sorted list. While the first service is
registered two more are, one by each listener; then the first one is taken away. -/
theorem kinds_indistinguishable_eager :
    let commands : List (Command Entry) :=
      [.start 0, .start 1, .register (.spoken "en"), .unregister 1]
    List.Forall₂ Plan.Akin [Plan.eager .set, .eager .sortedSet]
      [Plan.eager .list, .eager .sortedList] ∧
    ∃ answers h answers' h',
      (Hub.ofPlans [Plan.eager .set, .eager .sortedSet]).runAll 4 commands = .ok (answers, h) ∧
      (Hub.ofPlans [Plan.eager .list, .eager .sortedList]).runAll 4 commands = .ok (answers', h') ∧
      Command.AllAnswers commands answers answers' ∧
      (h'.collection 0).storage = (h.collection 0).storage ∧ (h'.collection 1).identities = [2, 3] ∧
      (h'.told fun tag => tag.home == 1).map Callback.name =
        ["unbind", "bind", "bind", "bind"] := by
  intro commands
  have hplans : List.Forall₂ Plan.Akin [Plan.eager .set, .eager .sortedSet]
      [Plan.eager .list, .eager .sortedList] :=
    .cons (Plan.akin_eager rfl) (.cons (Plan.akin_eager rfl) .nil)
  obtain ⟨⟨answers, h⟩, hr, hseen⟩ := Run.exists_of_map_eq_ok
    (f := fun p : List Answer × Hub Entry => ((p.2.collection 1).identities,
      (p.2.told fun tag => tag.home == 1).map Callback.name))
    (show ((Hub.ofPlans [Plan.eager .set, .eager .sortedSet]).runAll 4 commands).map _ =
      .ok ([2, 3], ["unbind", "bind", "bind", "bind"]) by decide +kernel)
  obtain ⟨hids, htold⟩ := Prod.mk.inj hseen
  rcases kinds_indistinguishable hplans 4 commands with ⟨halt, hhalt, -⟩ |
      ⟨answers₁, h₁, answers', h', hr₁, hr', hanswers, -, hk, -, -, -, htold', -⟩
  · rw [hr] at hhalt
    cases hhalt
  · obtain ⟨rfl, rfl⟩ := Prod.mk.inj (Except.ok.inj (hr₁.symm.trans hr))
    refine ⟨hplans, _, _, answers', h', hr, hr', hanswers, (hk 0).2.1, ?_, ?_⟩
    · exact (hk 1).1.trans hids
    · exact (congrArg _ (htold' _)).trans htold

end LiveServices
