import LiveServices.Proofs.Calm.Removals
import LiveServices.Proofs.Calm.Welcome
import LiveServices.Replay

/-!
# The stages of a replay

For each stage of a replay there is a lemma that says when it goes well and what the replay is
then. An operation on the hub leaves the new hub, and the records of the callbacks that came in
between (`Replay.after`). The hub of a scenario is that of one plan, in which nobody who is called
gives commands (`Replay.hubOf_eq_ok`, `Replay.passive_planOf`).
-/

namespace LiveServices

/-- The records of the callbacks between two hubs. -/
def Hub.recordsSince (h h' : Hub Entry) : List Record :=
  (h'.trace.take (h'.trace.length - h.trace.length)).reverse.filterMap Moment.record?

/-- The callbacks are those of the moments that are new. -/
theorem Hub.recordsSince_eq {h h' : Hub Entry} {recent : List (Moment Entry)}
    (ht : h'.trace = recent ++ h.trace) :
    h.recordsSince h' = recent.reverse.filterMap Moment.record? := by
  simp [recordsSince, ht]

namespace Replay

variable {α β : Type} {p p' : Replay}

/-- A stage goes well exactly when its first part does and the rest goes on from there. -/
theorem bind_eq_ok {x : Stage α} {f : α → Stage β} {b : β} :
    (x >>= f) p = .ok (b, p') ↔ ∃ a p₁, x p = .ok (a, p₁) ∧ f a p₁ = .ok (b, p') := by
  show (x p >>= fun q => f q.1 q.2) = _ ↔ _
  cases hx : x p with
  | error e =>
    constructor
    · intro hf
      cases hf
    · rintro ⟨a, p₁, hp, -⟩
      cases hp
  | ok q =>
    constructor
    · intro hf
      exact ⟨q.1, q.2, rfl, hf⟩
    · rintro ⟨a, p₁, hp, hf⟩
      cases hp
      exact hf

theorem pure_eq_ok {a b : α} : (pure a : Stage α) p = .ok (b, p') ↔ a = b ∧ p = p' := by
  show Except.ok (a, p) = _ ↔ _
  simp

/-- A replay goes through a list from left to right. -/
theorem forM_cons_eq_ok {a : α} {l : List α} {f : α → Stage Unit} {u : Unit} :
    (a :: l).forM f p = .ok (u, p') ↔ ∃ p₁, f a p = .ok ((), p₁) ∧ l.forM f p₁ = .ok (u, p') := by
  rw [List.forM, bind_eq_ok]
  exact ⟨fun ⟨_, p₁, ha, hl⟩ => ⟨p₁, ha, hl⟩, fun ⟨p₁, ha, hl⟩ => ⟨(), p₁, ha, hl⟩⟩

/-! ## The importer -/

/-- The plan of a scenario's importer, with its filter. -/
def planOf (config : ImporterConfig) (filter : ServiceFilter) : Plan Entry where
  hasRegistry := true
  factory := some (.ofProxies config.proxies)
  filter := some filter
  beanName := config.beanName
  mandatory := config.mandatory
  mode := .ofKind config.collection fun a b => config.order a.service b.service
  lifecycleListeners := [listener]
  stateListeners := [listener]

/-- A replay has no listeners of its own, so its plan is passive. -/
theorem passive_planOf (config : ImporterConfig) (filter : ServiceFilter) :
    (planOf config filter).IsPassive filter where
  hasRegistry := rfl
  filter := rfl
  factory := ⟨_, rfl, Factory.isPassive_ofProxies config.proxies⟩
  lifecycle _ hl := by
    obtain rfl := List.mem_singleton.1 hl
    exact fun _ _ => rfl
  state _ hl := by
    obtain rfl := List.mem_singleton.1 hl
    exact fun _ _ => rfl

/-- A configuration that is valid has a hub of one collection. -/
theorem hubOf_planOf {config : ImporterConfig} {filter : ServiceFilter}
    (hv : config.validate = .ok ()) (hf : config.parsedFilter = .ok filter) :
    hubOf config = .ok (.ofPlans [planOf config filter]) := by
  have hbuilt : ({} : Hub Entry).addCollection (planOf config filter) =
      (none, .ofPlans [planOf config filter]) := by
    show _ = (none, (Hub.addCollection {} (planOf config filter)).2)
    unfold Hub.addCollection
    rw [show (planOf config filter).build ({} : Hub Entry).collections.length
      ({} : Hub Entry).listeners = .ok _ from (passive_planOf config filter).build rfl]
  have hplan : plan config = .ok (planOf config filter) := by
    unfold plan
    rw [Plan.ofConfig_eq_ok.2 ⟨hv, filter, hf, rfl⟩]
    rfl
  unfold hubOf
  rw [hplan]
  dsimp only [bind, Except.bind]
  rw [hbuilt]
  rfl

/-- A replay has a hub exactly if the configuration of its importer is valid. -/
theorem hubOf_eq_ok {config : ImporterConfig} {h : Hub Entry} :
    hubOf config = .ok h ↔ config.validate = .ok () ∧
      ∃ filter, config.parsedFilter = .ok filter ∧ h = .ofPlans [planOf config filter] := by
  constructor
  · intro hr
    cases hp : Plan.ofConfig config (.ofProxies config.proxies) with
    | error f =>
      unfold hubOf plan at hr
      rw [hp] at hr
      cases hr
    | ok plan =>
      obtain ⟨hv, filter, hf, -⟩ := Plan.ofConfig_eq_ok.1 hp
      rw [hubOf_planOf hv hf] at hr
      exact ⟨hv, filter, hf, (Except.ok.inj hr).symm⟩
  · rintro ⟨hv, filter, hf, rfl⟩
    exact hubOf_planOf hv hf

/-! ## Operations -/

/-- A replay after an operation that left this hub. -/
def after (p : Replay) (hub : Hub Entry) : Replay :=
  { p with hub := hub, records := p.records ++ p.hub.recordsSince hub }

/-- A replay with another record. -/
def telling (p : Replay) (r : Record) : Replay := { p with records := p.records ++ [r] }

/-- A run of the hub is a stage of the replay if it comes to a result. -/
theorem perform_eq_ok {act : Run Entry α} {a : α} :
    perform act p = .ok (a, p') ↔ ∃ hub, act p.hub = .ok (a, hub) ∧ p' = p.after hub := by
  unfold perform
  rw [bind_eq_ok]
  constructor
  · rintro ⟨_, _, ⟨⟩, hr⟩
    cases hact : act p.hub with
    | error halt =>
      rw [hact] at hr
      cases hr
    | ok q =>
      rw [hact] at hr
      cases hr
      exact ⟨q.2, rfl, rfl⟩
  · rintro ⟨hub, hact, rfl⟩
    refine ⟨p, p, rfl, ?_⟩
    rw [hact]
    rfl

/-- So is an operation, if it also ends without trouble. -/
theorem performed_eq_ok {act : Act Entry α} {a : α} :
    performed act p = .ok (a, p') ↔ ∃ hub, act.run p.hub = .ok (.ok a, hub) ∧ p' = p.after hub := by
  unfold performed
  rw [bind_eq_ok]
  constructor
  · rintro ⟨result, p₁, hperform, hr⟩
    obtain ⟨hub, hact, rfl⟩ := perform_eq_ok.1 hperform
    -- trouble has no way on
    rcases result with (_ | _) | b
    · cases hr
    · cases hr
    · cases hr
      exact ⟨hub, hact, rfl⟩
  · rintro ⟨hub, hact, rfl⟩
    exact ⟨.ok a, p.after hub, perform_eq_ok.2 ⟨hub, hact, rfl⟩, rfl⟩

/-- A record is written to the transcript. -/
theorem tell_eq_ok {r : Record} {u : Unit} : tell r p = .ok (u, p') ↔ p' = p.telling r := by
  show Except.ok ((), p.telling r) = _ ↔ _
  simp [eq_comm]

/-- What an importer tells of its start. -/
inductive Started (h : Hub Entry) : Except Trouble Unit → Record → Prop where
  | ready : Started h (.ok ()) (.initialized (h.collection importer).isSatisfied none)
  | lacking (filter : String) : Started h (.error (.failed (.serviceUnavailable filter)))
      (.initialized false (some (Failure.serviceUnavailable filter).message))

/-- The importer is started, and the transcript says how that ended. -/
theorem start_eq_ok {u : Unit} : start p = .ok (u, p') ↔ ∃ ending hub r,
    (Run.start nested importer).run p.hub = .ok (ending, hub) ∧ Started hub ending r ∧
    p' = (p.after hub).telling r := by
  unfold start
  rw [bind_eq_ok]
  constructor
  · rintro ⟨ending, p₁, hperform, hr⟩
    obtain ⟨hub, hact, rfl⟩ := perform_eq_ok.1 hperform
    rcases ending with (f | _) | _
    · cases f with
      | serviceUnavailable filter =>
        exact ⟨_, hub, _, hact, .lacking filter, tell_eq_ok.1 hr⟩
      | _ => cases hr
    · cases hr
    · obtain ⟨_, _, ⟨⟩, hr⟩ := bind_eq_ok.1 hr
      exact ⟨_, hub, _, hact, .ready, tell_eq_ok.1 hr⟩
  · rintro ⟨ending, hub, r, hact, hstarted, rfl⟩
    refine ⟨ending, _, perform_eq_ok.2 ⟨hub, hact, rfl⟩, ?_⟩
    cases hstarted with
    | ready => rfl
    | lacking filter => rfl

/-! ## Names -/

/-- A name that is asked for must be known. -/
theorem service_eq_ok {name : String} {id : UInt64} :
    service name p = .ok (id, p') ↔ p.names.lookup name = some id ∧ p' = p := by
  unfold service
  rw [bind_eq_ok]
  constructor
  · rintro ⟨_, _, ⟨⟩, hr⟩
    cases hname : p.names.lookup name with
    | none =>
      rw [hname] at hr
      cases hr
    | some found =>
      rw [hname] at hr
      obtain ⟨rfl, rfl⟩ := pure_eq_ok.1 hr
      exact ⟨rfl, rfl⟩
  · rintro ⟨hname, rfl⟩
    refine ⟨p', p', rfl, ?_⟩
    rw [hname]
    rfl

/-- A replay that forgot a name. -/
def forgetting (p : Replay) (name : String) : Replay :=
  { p with names := p.names.filter fun entry => entry.1 != name }

/-- A replay that knows a name. -/
def knowing (p : Replay) (name : String) (id : UInt64) : Replay :=
  { p.forgetting name with names := (name, id) :: (p.forgetting name).names }

theorem forget_eq_ok {name : String} {u : Unit} :
    forget name p = .ok (u, p') ↔ p' = p.forgetting name := by
  show Except.ok ((), p.forgetting name) = _ ↔ _
  simp [eq_comm]

theorem know_eq_ok {name : String} {id : UInt64} {u : Unit} :
    know name id p = .ok (u, p') ↔ p' = p.knowing name id := by
  show Except.ok ((), p.knowing name id) = _ ↔ _
  simp [eq_comm]

/-! ## Steps -/

variable {name : String} {properties : Properties} {answer : Option UInt64}

/-- A registration answers with the number of the service. -/
theorem register_eq_ok : carryOut (.register name properties) p = .ok (answer, p') ↔ ∃ r hub,
    (Run.register nested (serviceProperties name properties)).run p.hub = .ok (.ok r, hub) ∧
    answer = some r.id ∧ p' = p.after hub := by
  unfold carryOut
  rw [bind_eq_ok]
  constructor
  · rintro ⟨r, p₁, hperformed, hr⟩
    obtain ⟨hub, hact, rfl⟩ := performed_eq_ok.1 hperformed
    obtain ⟨rfl, rfl⟩ := pure_eq_ok.1 hr
    exact ⟨r, hub, hact, rfl, rfl⟩
  · rintro ⟨r, hub, hact, rfl, rfl⟩
    exact ⟨r, _, performed_eq_ok.2 ⟨hub, hact, rfl⟩, rfl⟩

/-- The service of a name has its properties replaced; it gets no new number. -/
theorem modify_eq_ok : carryOut (.modify name properties) p = .ok (answer, p') ↔ ∃ id r hub,
    p.names.lookup name = some id ∧
    (Run.setProperties nested id (serviceProperties name properties)).run p.hub =
      .ok (.ok r, hub) ∧
    answer = none ∧ p' = p.after hub := by
  unfold carryOut
  rw [bind_eq_ok]
  constructor
  · rintro ⟨id, p₁, hid, hr⟩
    obtain ⟨hname, rfl⟩ := service_eq_ok.1 hid
    obtain ⟨r, p₂, hperformed, hr⟩ := bind_eq_ok.1 hr
    obtain ⟨hub, hact, rfl⟩ := performed_eq_ok.1 hperformed
    obtain ⟨rfl, rfl⟩ := pure_eq_ok.1 hr
    exact ⟨id, r, hub, hname, hact, rfl, rfl⟩
  · rintro ⟨id, r, hub, hname, hact, rfl, rfl⟩
    refine ⟨id, p, service_eq_ok.2 ⟨hname, rfl⟩, bind_eq_ok.2 ⟨r, _, ?_, rfl⟩⟩
    exact performed_eq_ok.2 ⟨hub, hact, rfl⟩

/-- A name is forgotten before its service is taken away. -/
theorem unregister_eq_ok : carryOut (.unregister name) p = .ok (answer, p') ↔ ∃ id hub,
    p.names.lookup name = some id ∧
    (Run.unregister nested id).run p.hub = .ok (.ok (), hub) ∧
    answer = none ∧ p' = (p.forgetting name).after hub := by
  unfold carryOut
  rw [bind_eq_ok]
  constructor
  · rintro ⟨id, p₁, hid, hr⟩
    obtain ⟨hname, rfl⟩ := service_eq_ok.1 hid
    obtain ⟨_, p₂, hforget, hr⟩ := bind_eq_ok.1 hr
    obtain rfl := forget_eq_ok.1 hforget
    obtain ⟨_, p₃, hperformed, hr⟩ := bind_eq_ok.1 hr
    obtain ⟨hub, hact, rfl⟩ := performed_eq_ok.1 hperformed
    obtain ⟨rfl, rfl⟩ := pure_eq_ok.1 hr
    exact ⟨id, hub, hname, hact, rfl, rfl⟩
  · rintro ⟨id, hub, hname, hact, rfl, rfl⟩
    refine ⟨id, p, service_eq_ok.2 ⟨hname, rfl⟩, bind_eq_ok.2 ⟨(), _, rfl, ?_⟩⟩
    exact bind_eq_ok.2 ⟨(), _, performed_eq_ok.2 ⟨hub, hact, rfl⟩, rfl⟩

/-- A reading is written to the transcript and changes nothing else. -/
theorem read_eq_ok : carryOut .read p = .ok (answer, p') ↔
    answer = none ∧ p' = p.telling (p.hub.collection importer).readRecord := by
  show Except.ok (none, p.telling (p.hub.collection importer).readRecord) = _ ↔ _
  simp [eq_comm]

/-! ## Batches -/

/-- What is told of a step before it is carried out. -/
def notice (step : Numbered) : Record := .step step.1 step.2.display

/-- Carry out a step and answer with its number. -/
def carryOutNumbered (step : Numbered) : Stage (Nat × Option UInt64) := do
  let id ← carryOut step.2
  pure (step.1, id)

theorem carryOutNumbered_eq_ok {step : Numbered} {result : Nat × Option UInt64} :
    carryOutNumbered step p = .ok (result, p') ↔
      ∃ answer, carryOut step.2 p = .ok (answer, p') ∧ result = (step.1, answer) := by
  unfold carryOutNumbered
  rw [bind_eq_ok]
  constructor
  · rintro ⟨answer, p₁, hstep, hr⟩
    obtain ⟨rfl, rfl⟩ := pure_eq_ok.1 hr
    exact ⟨answer, hstep, rfl⟩
  · rintro ⟨answer, hstep, rfl⟩
    exact ⟨answer, p', hstep, rfl⟩

/-- A batch is carried out step by step, and each answer is kept with the number of its step. -/
theorem mapM_cons_eq_ok {step : Numbered} {batch : List Numbered}
    {registered : List (Nat × Option UInt64)} :
    (step :: batch).mapM carryOutNumbered p = .ok (registered, p') ↔ ∃ answer p₁ rest,
      carryOut step.2 p = .ok (answer, p₁) ∧ batch.mapM carryOutNumbered p₁ = .ok (rest, p') ∧
      registered = (step.1, answer) :: rest := by
  rw [List.mapM_cons, bind_eq_ok]
  constructor
  · rintro ⟨result, p₁, hnumbered, hr⟩
    obtain ⟨answer, hstep, rfl⟩ := carryOutNumbered_eq_ok.1 hnumbered
    obtain ⟨rest, p₂, hrest, hr⟩ := bind_eq_ok.1 hr
    obtain ⟨rfl, rfl⟩ := pure_eq_ok.1 hr
    exact ⟨answer, p₁, rest, hstep, hrest, rfl⟩
  · rintro ⟨answer, p₁, rest, hstep, hrest, rfl⟩
    refine ⟨_, p₁, carryOutNumbered_eq_ok.2 ⟨answer, hstep, rfl⟩, ?_⟩
    exact bind_eq_ok.2 ⟨rest, p', hrest, rfl⟩

/-- A replay tells of steps. -/
theorem announce_eq_ok {batch : List Numbered} {u : Unit} :
    (batch.forM fun step => tell (notice step)) p = .ok (u, p') ↔
      p' = { p with records := p.records ++ batch.map notice } := by
  induction batch generalizing p with
  | nil =>
    refine pure_eq_ok.trans ?_
    simp [eq_comm]
  | cons step batch ih =>
    rw [forM_cons_eq_ok]
    constructor
    · rintro ⟨p₁, htell, hrest⟩
      obtain rfl := tell_eq_ok.1 htell
      simpa [telling] using ih.1 hrest
    · rintro rfl
      exact ⟨_, rfl, ih.2 (by simp)⟩

/-- The steps of a batch are announced in their order before they are carried out in the other
one. -/
theorem carryOutBatch_eq_ok {arrange : List Numbered → List Numbered} {batch : List Numbered}
    {u : Unit} : carryOutBatch arrange batch p = .ok (u, p') ↔ ∃ registered p₁,
      (arrange batch).mapM carryOutNumbered
        { p with records := p.records ++ batch.map notice } = .ok (registered, p₁) ∧
      batch.forM (learn registered) p₁ = .ok (u, p') := by
  have heq : carryOutBatch arrange batch = (do
      batch.forM fun step => tell (notice step)
      let registered ← (arrange batch).mapM carryOutNumbered
      batch.forM (learn registered)) := rfl
  rw [heq, bind_eq_ok]
  constructor
  · rintro ⟨_, p₁, htold, hr⟩
    obtain rfl := announce_eq_ok.1 htold
    obtain ⟨registered, p₂, hdone, hr⟩ := bind_eq_ok.1 hr
    exact ⟨registered, p₂, hdone, hr⟩
  · rintro ⟨registered, p₁, hdone, hr⟩
    exact ⟨(), _, announce_eq_ok.2 rfl, bind_eq_ok.2 ⟨registered, p₁, hdone, hr⟩⟩

/-- A replay goes well exactly when the importer starts, all batches are carried out, and the
importer is destroyed. -/
theorem run_eq_ok {arrange : List Numbered → List Numbered} {batches : List (List Numbered)}
    {u : Unit} : run arrange batches p = .ok (u, p') ↔ ∃ p₁ p₂ retracted hub,
      start p = .ok ((), p₁) ∧ batches.forM (carryOutBatch arrange) p₁ = .ok ((), p₂) ∧
      Run.destroy nested importer p₂.hub = .ok (retracted, hub) ∧
      p' = (p₂.after hub).telling (.destroyed retracted) := by
  unfold run
  rw [bind_eq_ok]
  constructor
  · rintro ⟨_, p₁, hstart, hr⟩
    obtain ⟨_, p₂, hbatches, hr⟩ := bind_eq_ok.1 hr
    obtain ⟨retracted, p₃, hperform, hr⟩ := bind_eq_ok.1 hr
    obtain ⟨hub, hdestroy, rfl⟩ := perform_eq_ok.1 hperform
    exact ⟨p₁, p₂, retracted, hub, hstart, hbatches, hdestroy, tell_eq_ok.1 hr⟩
  · rintro ⟨p₁, p₂, retracted, hub, hstart, hbatches, hdestroy, rfl⟩
    refine ⟨(), p₁, hstart, bind_eq_ok.2 ⟨(), p₂, hbatches, bind_eq_ok.2 ⟨retracted, _, ?_, rfl⟩⟩⟩
    exact perform_eq_ok.2 ⟨hub, hdestroy, rfl⟩

end Replay

/-- The records of a replay are those at its end. -/
theorem Scenario.replayBatches_eq_ok {s : Scenario}
    {arrange : List Replay.Numbered → List Replay.Numbered}
    {batches : List (List Replay.Numbered)} {records : List Record} :
    s.replayBatches arrange batches = .ok records ↔ ∃ hub p, Replay.hubOf s.importer = .ok hub ∧
      Replay.run arrange batches { hub := hub } = .ok ((), p) ∧ records = p.records := by
  unfold replayBatches
  cases Replay.hubOf s.importer with
  | error f =>
    constructor
    · intro hr
      cases hr
    · rintro ⟨_, _, hhub, -⟩
      cases hhub
  | ok hub =>
    cases hrun : Replay.run arrange batches { hub := hub } with
    | error f =>
      constructor
      · intro hr
        simp only [hrun] at hr
        cases hr
      · rintro ⟨_, p, ⟨⟩, hp, -⟩
        rw [hrun] at hp
        cases hp
    | ok result =>
      constructor
      · intro hr
        simp only [hrun] at hr
        cases hr
        exact ⟨hub, result.2, rfl, hrun, rfl⟩
      · rintro ⟨_, p, ⟨⟩, hp, rfl⟩
        simp only [hp]
        rfl

end LiveServices
