import LiveServices.Proofs.Calm.Refusals
import LiveServices.Proofs.Replays.Names
import Mathlib.Data.List.SplitBy

/-!
# Validated scenarios

A validated scenario always replays (`replays_of_validate`). The validator follows the names that
are live through the steps (`Step.AllFit`). A replay follows them in its own way, and the two agree
whenever a batch is done: each batch that fits is carried out, and the replay is ready for the next
one (`Replay.Ready.carriesOut`).
-/

namespace LiveServices

/-! ## What is validated -/

namespace Step

/-- A step fits names that are live, and leaves others live. -/
inductive Fits (live : List String) : Step → List String → Prop where
  | register {name : String} {properties : Properties} (hn : name ∉ live) :
    Fits live (.register name properties) (live ++ [name])
  | modify {name : String} {properties : Properties} (hn : name ∈ live) :
    Fits live (.modify name properties) live
  | unregister {name : String} (hn : name ∈ live) :
    Fits live (.unregister name) (live.erase name)
  | read : Fits live .read live

/-- Steps that fit one after the other. -/
inductive AllFit : List String → List Step → List String → Prop where
  | nil (live : List String) : AllFit live [] live
  | cons {live live₁ live' : List String} {step : Step} {steps : List Step}
    (hstep : step.Fits live live₁) (hsteps : AllFit live₁ steps live') :
    AllFit live (step :: steps) live'

theorem allFit_append {live live' : List String} {steps more : List Step} :
    AllFit live (steps ++ more) live' ↔
      ∃ live₁, AllFit live steps live₁ ∧ AllFit live₁ more live' := by
  induction steps generalizing live with
  | nil =>
    constructor
    · exact fun hmore => ⟨live, .nil live, hmore⟩
    · rintro ⟨live₁, hnil, hmore⟩
      cases hnil
      exact hmore
  | cons step steps ih =>
    constructor
    · intro hall
      cases hall with
      | cons hstep hrest =>
        obtain ⟨live₁, hsteps, hmore⟩ := ih.1 hrest
        exact ⟨live₁, .cons hstep hsteps, hmore⟩
    · rintro ⟨live₁, hsteps, hmore⟩
      cases hsteps with
      | cons hstep hsteps => exact .cons hstep (ih.2 ⟨live₁, hsteps, hmore⟩)

end Step

/-- The validator finds no reason to refuse steps exactly if they fit. -/
theorem Scenario.validateSteps_eq_ok {n : Nat} {live : List String} {steps : List Step} :
    validateSteps n live steps = .ok () ↔ ∃ live', Step.AllFit live steps live' := by
  induction steps generalizing n live with
  | nil => exact ⟨fun _ => ⟨live, .nil live⟩, fun _ => rfl⟩
  | cons step steps ih =>
    -- a step has one way to fit
    have hcons {live₁ : List String} (hstep : step.Fits live live₁)
        (honly : ∀ other, step.Fits live other → other = live₁) :
        validateSteps (n + 1) live₁ steps = .ok () ↔
          ∃ live', Step.AllFit live (step :: steps) live' := by
      refine ih.trans ⟨fun ⟨live', hsteps⟩ => ⟨live', .cons hstep hsteps⟩, ?_⟩
      rintro ⟨live', hall⟩
      cases hall with
      | cons hother hsteps => exact ⟨live', honly _ hother ▸ hsteps⟩
    have hnone {f : ScenarioFailure} (hmisfit : ∀ live₁, ¬ step.Fits live live₁) :
        Except.error f = Except.ok () ↔ ∃ live', Step.AllFit live (step :: steps) live' := by
      constructor
      · intro hf
        cases hf
      · rintro ⟨live', hall⟩
        cases hall with
        | cons hstep _ => exact absurd hstep (hmisfit _)
    cases step with
    | register name properties =>
      unfold validateSteps
      by_cases hn : name ∈ live
      · rw [if_pos (List.contains_iff_mem.2 hn)]
        exact hnone fun _ hstep => by cases hstep with | register hnot => exact hnot hn
      · rw [if_neg (mt List.contains_iff_mem.1 hn)]
        exact hcons (.register hn) fun _ hother => by cases hother; rfl
    | modify name properties =>
      unfold validateSteps
      by_cases hn : name ∈ live
      · rw [if_pos (List.contains_iff_mem.2 hn)]
        exact hcons (.modify hn) fun _ hother => by cases hother; rfl
      · rw [if_neg (mt List.contains_iff_mem.1 hn)]
        exact hnone fun _ hstep => by cases hstep with | modify hmem => exact hn hmem
    | unregister name =>
      unfold validateSteps
      by_cases hn : name ∈ live
      · rw [if_pos (List.contains_iff_mem.2 hn)]
        exact hcons (.unregister hn) fun _ hother => by cases hother; rfl
      · rw [if_neg (mt List.contains_iff_mem.1 hn)]
        exact hnone fun _ hstep => by cases hstep with | unregister hmem => exact hn hmem
    | read => exact hcons .read fun _ hother => by cases hother; rfl

/-- A scenario is valid exactly if its importer is and its steps fit. -/
theorem Scenario.validate_eq_ok {s : Scenario} : s.validate = .ok () ↔
    s.importer.validate = .ok () ∧ ∃ live', Step.AllFit [] s.steps live' := by
  unfold validate
  cases s.importer.validate with
  | error f =>
    constructor
    · intro hv
      cases hv
    · rintro ⟨hv, -⟩
      cases hv
  | ok _ => exact validateSteps_eq_ok.trans ⟨fun hfit => ⟨rfl, hfit⟩, fun hv => hv.2⟩

/-! ## Batches -/

namespace Replay

variable {filter : ServiceFilter} {n : Nat} {live live' : List String} {pending : List UInt64}
  {p : Replay} {batch : List Numbered} {arrange : List Numbered → List Numbered}

/-- A batch of a replay: registrations, or a single step. -/
def IsBatch (batch : List Numbered) : Prop :=
  (∀ step ∈ batch, step.2.isRegister = true) ∨ ∃ step, batch = [step]

/-- The number of registrations. -/
abbrev registrations (batch : List Numbered) : Nat := batch.countP fun step => step.2.isRegister

/-- The answers to registrations, each with the number of its step. -/
def answers (ids : Nat → UInt64) (batch : List Numbered) : List (Nat × Option UInt64) :=
  batch.map fun step => (step.1, some (ids step.1))

theorem lookup_answers {ids : Nat → UInt64} {step : Numbered} (hmem : step ∈ batch) :
    (answers ids batch).lookup step.1 = some (some (ids step.1)) := by
  induction batch with
  | nil => cases hmem
  | cons other batch ih =>
    show List.lookup step.1 ((other.1, some (ids other.1)) :: answers ids batch) = _
    rw [List.lookup_cons]
    by_cases heq : step.1 = other.1
    · rw [beq_iff_eq.2 heq, heq]
    · rw [beq_eq_false_iff_ne.2 heq]
      refine ih ((List.mem_cons.1 hmem).resolve_left ?_)
      rintro rfl
      exact heq rfl

theorem learn_eq_ok {registered : List (Nat × Option UInt64)} {number : Nat} {name : String}
    {properties : Properties} {id : UInt64} (hid : registered.lookup number = some (some id)) :
    learn registered (number, .register name properties) p = .ok ((), p.knowing name id) := by
  unfold learn
  simp only [hid]
  rfl

namespace Ready

/-- Registrations are carried out, and the names of the services are to be learnt. -/
theorem registerAll (hr : p.Ready filter n live pending)
    (hall : ∀ step ∈ batch, step.2.isRegister = true) (hnumbers : (batch.map Prod.fst).Nodup)
    (hn : n + batch.length < 2 ^ 64) : ∃ (ids : Nat → UInt64) (p' : Replay),
    batch.mapM carryOutNumbered p = .ok (answers ids batch, p') ∧
    p'.Ready filter (n + batch.length) live (batch.map (fun step => ids step.1) ++ pending) := by
  induction batch generalizing p n pending with
  | nil => exact ⟨fun _ => 0, p, rfl, hr⟩
  | cons step batch ih =>
    obtain ⟨number, step⟩ := step
    rw [List.map_cons, List.nodup_cons] at hnumbers
    obtain ⟨hfresh, hrest⟩ := hnumbers
    rw [List.length_cons] at hn ⊢
    cases step with
    | register name properties =>
      obtain ⟨id, p₁, hstep, hr₁⟩ := hr.register name properties (by omega)
      obtain ⟨ids, p', hdone, hr'⟩ := ih hr₁
        (fun other hmem => hall other (List.mem_cons_of_mem _ hmem)) hrest (by omega)
      -- the number of this step is that of no other
      let ids' : Nat → UInt64 := fun m => if m = number then id else ids m
      have hothers : ∀ step ∈ batch, ids' step.1 = ids step.1 := by
        intro other hmem
        exact if_neg fun heq => hfresh (List.mem_map.2 ⟨other, hmem, heq⟩)
      have hself : ids' number = id := if_pos rfl
      refine ⟨ids', p', mapM_cons_eq_ok.2 ⟨_, p₁, _, hstep, hdone, ?_⟩, ?_⟩
      · show (number, some (ids' number)) :: answers ids' batch = _
        rw [hself, answers, List.map_congr_left fun step hmem => by rw [hothers step hmem]]
        rfl
      · rw [List.map_cons, List.map_congr_left hothers, show n + (batch.length + 1) =
          n + 1 + batch.length by omega]
        refine hr'.perm ?_
        show (_ ++ id :: pending).Perm (ids' number :: _ ++ pending)
        rw [hself]
        exact List.perm_middle
    | _ => cases hall _ List.mem_cons_self

/-- The names of registered services are learnt in the order of the steps. -/
theorem learnAll {ids : Nat → UInt64} {registered : List (Nat × Option UInt64)}
    (hr : p.Ready filter n live (batch.map fun step => ids step.1))
    (hall : ∀ step ∈ batch, step.2.isRegister = true)
    (hfit : Step.AllFit live (batch.map Prod.snd) live')
    (hids : ∀ step ∈ batch, registered.lookup step.1 = some (some (ids step.1))) :
    ∃ p', batch.forM (learn registered) p = .ok ((), p') ∧ p'.Ready filter n live' [] := by
  induction batch generalizing p live with
  | nil =>
    cases hfit
    exact ⟨p, rfl, hr⟩
  | cons step batch ih =>
    obtain ⟨number, step⟩ := step
    cases step with
    | register name properties =>
      cases hfit with
      | cons hstep hrest =>
        cases hstep with
        | register hname =>
          obtain ⟨p', hlearnt, hr'⟩ := ih (Ready.know hr hname)
            (fun other hmem => hall other (List.mem_cons_of_mem _ hmem)) hrest
            (fun other hmem => hids other (List.mem_cons_of_mem _ hmem))
          have hid := hids _ List.mem_cons_self
          exact ⟨p', forM_cons_eq_ok.2 ⟨_, learn_eq_ok hid, hlearnt⟩, hr'⟩
    | _ => cases hall _ List.mem_cons_self

/-- A step that registers nothing is carried out. -/
theorem step {step : Step} (hr : p.Ready filter n live []) (hn : n < 2 ^ 64)
    (hstep : step.Fits live live') (hno : step.isRegister = false) :
    ∃ p', carryOut step p = .ok (none, p') ∧ p'.Ready filter n live' [] := by
  cases hstep with
  | register => cases hno
  | modify hname => exact hr.modify hn hname
  | unregister hname => exact hr.unregister hn hname
  | read => exact hr.read

/-- **A batch** that fits the live names is carried out, in whatever order it is arranged. -/
theorem carriesOut (hr : p.Ready filter n live []) (hbatch : IsBatch batch)
    (hnumbers : (batch.map Prod.fst).Nodup) (hfit : Step.AllFit live (batch.map Prod.snd) live')
    (harrange : (arrange batch).Perm batch) (hn : n + registrations batch < 2 ^ 64) :
    ∃ p', carryOutBatch arrange batch p = .ok ((), p') ∧
    p'.Ready filter (n + registrations batch) live' [] := by
  have hr₀ : Replay.Ready filter n live [] { p with records := p.records ++ batch.map notice } :=
    hr.of_eq rfl rfl
  by_cases hall : ∀ step ∈ batch, step.2.isRegister = true
  · have hlength : registrations batch = (arrange batch).length :=
      (List.countP_eq_length.2 hall).trans harrange.length_eq.symm
    rw [hlength] at hn ⊢
    obtain ⟨ids, p₁, hdone, hr₁⟩ := hr₀.registerAll
      (fun step hmem => hall step (harrange.mem_iff.1 hmem))
      ((harrange.map Prod.fst).nodup_iff.2 hnumbers) hn
    rw [List.append_nil] at hr₁
    obtain ⟨p', hlearnt, hr'⟩ := (hr₁.perm (harrange.map _)).learnAll hall hfit
      fun step hmem => lookup_answers (harrange.mem_iff.2 hmem)
    exact ⟨p', carryOutBatch_eq_ok.2 ⟨_, p₁, hdone, hlearnt⟩, hr'⟩
  · -- a batch in which not every step registers a service has one step
    obtain ⟨⟨number, step⟩, rfl⟩ := hbatch.resolve_left hall
    have hno : step.isRegister = false := by simpa using hall
    have hnone : registrations [(number, step)] = 0 := by simp [hno]
    rw [hnone] at hn ⊢
    cases hfit with
    | cons hstep hnil =>
      cases hnil
      obtain ⟨p', hdone, hr'⟩ := Ready.step hr₀ hn hstep hno
      refine ⟨p', carryOutBatch_eq_ok.2 ⟨[(number, none)], p', ?_, ?_⟩, hr'⟩
      · rw [List.perm_singleton.1 harrange]
        exact mapM_cons_eq_ok.2 ⟨none, p', [], hdone, rfl, rfl⟩
      · -- there is no name to learn
        cases step with
        | register => cases hno
        | _ => rfl

/-- Batches that fit are carried out one after the other. -/
theorem carriesOutAll {batches : List (List Numbered)} (hr : p.Ready filter n live [])
    (hbatches : ∀ batch ∈ batches, IsBatch batch) (hnumbers : (batches.flatten.map Prod.fst).Nodup)
    (hfit : Step.AllFit live (batches.flatten.map Prod.snd) live')
    (harrange : ∀ batch, (arrange batch).Perm batch)
    (hn : n + registrations batches.flatten < 2 ^ 64) :
    ∃ p', batches.forM (carryOutBatch arrange) p = .ok ((), p') ∧
    p'.Ready filter (n + registrations batches.flatten) live' [] := by
  induction batches generalizing p n live with
  | nil =>
    cases hfit
    exact ⟨p, rfl, hr⟩
  | cons batch batches ih =>
    have hcount : registrations (batch :: batches).flatten =
        registrations batch + registrations batches.flatten := by
      rw [List.flatten_cons, registrations, List.countP_append]
    rw [List.flatten_cons, List.map_append] at hnumbers hfit
    rw [hcount] at hn ⊢
    obtain ⟨live₁, hfirst, hrest⟩ := Step.allFit_append.1 hfit
    obtain ⟨p₁, hdone, hr₁⟩ := hr.carriesOut (hbatches batch List.mem_cons_self)
      (List.nodup_append.1 hnumbers).1 hfirst (harrange batch) (by omega)
    obtain ⟨p', hall, hr'⟩ := ih hr₁
      (fun other hmem => hbatches other (List.mem_cons_of_mem _ hmem))
      (List.nodup_append.1 hnumbers).2.1 hrest (by omega)
    exact ⟨p', forM_cons_eq_ok.2 ⟨p₁, hdone, hall⟩, by rwa [← Nat.add_assoc]⟩

end Ready

/-! ## The start -/

/-- The importer of a valid configuration starts, whether or not it has what it needs. -/
theorem start_total (config : ImporterConfig) (filter : ServiceFilter) : ∃ p',
    start { hub := .ofPlans [planOf config filter] } = .ok ((), p') ∧
    p'.Ready filter 0 [] [] := by
  obtain ⟨hcalm, hlinked, hfresh, -, hfilter⟩ := Hub.calm_ofPlans (passive_planOf config filter)
  obtain ⟨ending, h', hrun, hnever, hcalm', hj⟩ := Run.start_total nested hcalm
    (by rw [hfresh.locks]; exact List.not_mem_nil) hfresh.subscription hfresh.closed
  obtain ⟨r, hstarted⟩ : ∃ r, Started h' ending r := by
    cases ending with
    | ok _ => exact ⟨_, .ready⟩
    | error t =>
      obtain ⟨source, rfl⟩ := Run.start_lacks nested hcalm hfresh.subscription hfresh.closed hrun
      exact ⟨_, .lacking source⟩
  have hidle : h'.Idle := by
    intro d
    by_cases hd : d = 0
    · subst hd
      obtain ⟨index, storage, id, hframe⟩ := hj.here.frame
      rw [hframe]
      exact hfresh.locks
    · rw [hj.elsewhere d hd]
      exact Hub.idle_ofPlans _ d
  have hlinked' := hj.starts.linked hlinked
  rw [hfilter] at hlinked'
  have hbooks : (Hub.ofPlans [planOf config filter]).registry = {} := by
    rw [Hub.ofPlans_singleton ((passive_planOf config filter).build rfl)]
  have hissued : h'.registry.Issued 0 := by
    have hsame := hj.registry
    rw [hbooks] at hsame
    refine ⟨hsame.nextService, ?_⟩
    rw [hsame.services]
    exact fun _ hmem => absurd hmem List.not_mem_nil
  refine ⟨_, start_eq_ok.2 ⟨ending, h', r, hrun, hstarted, rfl⟩, ?_, .nil, .nil, .nil, ?_⟩
  · exact ⟨hcalm', hidle, hlinked', hissued⟩
  · exact fun _ hmem => absurd hmem List.not_mem_nil

end Replay

/-! ## The replay -/

namespace Scenario

variable {s : Scenario} {arrange : List Replay.Numbered → List Replay.Numbered}
  {batches : List (List Replay.Numbered)}

theorem numbered_steps (s : Scenario) : s.numbered.map Prod.snd = s.steps := by
  rw [numbered, List.mapIdx_eq_zipIdx_map, List.map_map]
  exact List.zipIdx_map_fst 0 s.steps

/-- No two steps have the same number. -/
theorem nodup_numbers (s : Scenario) : (s.numbered.map Prod.fst).Nodup := by
  have hnumbers : s.numbered.map Prod.fst = (List.range' 0 s.steps.length).map (· + 1) := by
    rw [numbered, List.mapIdx_eq_zipIdx_map, List.map_map, ← List.zipIdx_map_snd 0 s.steps,
      List.map_map]
    rfl
  rw [hnumbers]
  exact List.Nodup.map (fun _ _ heq => Nat.succ.inj heq) (List.nodup_range' 1)

/-- A validated scenario replays in batches. -/
theorem replayBatches_total (hv : s.validate = .ok ())
    (hn : s.steps.countP Step.isRegister < 2 ^ 64) (hflat : batches.flatten = s.numbered)
    (hbatches : ∀ batch ∈ batches, Replay.IsBatch batch)
    (harrange : ∀ batch, (arrange batch).Perm batch) :
    ∃ records, s.replayBatches arrange batches = .ok records := by
  obtain ⟨hconfig, live, hfit⟩ := validate_eq_ok.1 hv
  obtain ⟨filter, hfilter⟩ := ImporterConfig.exists_filter hconfig
  obtain ⟨p₁, hstart, hr₁⟩ := Replay.start_total s.importer filter
  obtain ⟨p₂, hdone, hr₂⟩ := hr₁.carriesOutAll hbatches (hflat ▸ s.nodup_numbers)
    (by rwa [hflat, numbered_steps]) harrange (by
      rw [hflat, Nat.zero_add, Replay.registrations]
      rwa [← numbered_steps, List.countP_map] at hn)
  obtain ⟨retracted, hub, hdestroy⟩ :=
    Run.destroy_total (c := Replay.importer) Replay.nested hr₂.hub.calm hr₂.hub.idle
  have hrun := Replay.run_eq_ok (u := ()) |>.2
    ⟨p₁, p₂, retracted, hub, hstart, hdone, hdestroy, rfl⟩
  exact ⟨_, replayBatches_eq_ok.2 ⟨_, _, Replay.hubOf_planOf hconfig hfilter, hrun, rfl⟩⟩

/-- Neighbouring registrations are in one batch, and each other step is in its own. -/
theorem isBatch_of_mem_splitBy {steps batch : List Replay.Numbered}
    (hmem : batch ∈ steps.splitBy fun a b => a.2.isRegister && b.2.isRegister) :
    Replay.IsBatch batch := by
  have hchain := List.isChain_of_mem_splitBy hmem
  match batch with
  | [] => exact absurd rfl (List.ne_nil_of_mem_splitBy hmem)
  | [step] => exact .inr ⟨step, rfl⟩
  | step :: next :: rest =>
    -- each step has a neighbour, before or after it
    refine .inl ?_
    clear hmem
    induction rest generalizing step next with
    | nil => simpa using hchain
    | cons later rest ih =>
      obtain ⟨hboth, hrest⟩ := List.isChain_cons_cons.1 hchain
      intro other hother
      rcases List.mem_cons.1 hother with rfl | hother
      · exact (Bool.and_eq_true_iff.1 hboth).1
      · exact ih next later hrest other hother

end Scenario

/-- **A validated scenario always replays**, one step after the other as well as with neighbouring
registrations carried out together, in any order: no name is unknown, and no service is missing.
The numbers of services have 64 bits, and a scenario that is in memory has fewer steps than there
are numbers. -/
theorem replays_of_validate {s : Scenario} (hv : s.validate = .ok ())
    (hn : s.steps.countP Step.isRegister < 2 ^ 64) :
    (∃ records, s.replay = .ok records) ∧
    ∀ arrange, (∀ batch, (arrange batch).Perm batch) →
      ∃ records, s.replayParallel arrange = .ok records := by
  constructor
  · refine Scenario.replayBatches_total hv hn ?_ ?_ fun _ => .refl _
    · rw [← List.flatMap_def, List.flatMap_singleton']
    · intro batch hmem
      obtain ⟨step, -, rfl⟩ := List.mem_map.1 hmem
      exact .inr ⟨step, rfl⟩
  · intro arrange harrange
    exact Scenario.replayBatches_total hv hn (List.flatten_splitBy _ _)
      (fun _ => Scenario.isBatch_of_mem_splitBy) harrange

/-- A service that goes and comes again under its name, while another one changes. -/
def Scenario.reused : Scenario where
  importer := { filter := "(lang=en)", collection := .set }
  steps := [.register "a" (.spoken "en"), .register "b" (.spoken "fr"), .unregister "a",
    .modify "b" (.spoken "en"), .register "a" (.spoken "en"), .read]

/-- The scenario is replayed to its end, in order and with each batch of its steps in the reverse
order. -/
theorem replays_of_validate_reused : Scenario.reused.validate = .ok () ∧
    Scenario.reused.steps.countP Step.isRegister < 2 ^ 64 ∧
    (∃ records, Scenario.reused.replay = .ok records) ∧
    ∃ records, Scenario.reused.replayParallel List.reverse = .ok records := by
  have hv : Scenario.reused.validate = .ok () := by decide +kernel
  have hn : Scenario.reused.steps.countP Step.isRegister < 2 ^ 64 := by decide
  obtain ⟨hreplay, hparallel⟩ := replays_of_validate hv hn
  exact ⟨hv, hn, hreplay, hparallel List.reverse fun batch => batch.reverse_perm⟩

end LiveServices
