import LiveServices.Proofs.Arrangements.Rolls
import LiveServices.Proofs.Replays.Validated

/-!
# Replays with a muster

The hub of a replay has the muster of the steps that were carried out, under the names that are
known (`Replay.Depicts`). A stage of the replay follows the muster if what it tells comes to what
the muster says (`Replay.Follows`): each step does, and so does a batch in whatever order it is
arranged (`Depicts.carryOutBatch`). While registrations of a batch are carried out, the names that
are to be learnt count as known; they are learnt in another order, which does not matter
(`Depicts.perm`, `names_of_learnAll`).
-/

namespace LiveServices

namespace ServiceReference

/-- The name of a service of a scenario does not depend on its number, and it is its label. -/
theorem name?_new (id : UInt64) (name : String) (properties : Properties) :
    (new id (serviceProperties name properties)).name? =
      some (new 0 (serviceProperties name properties)).label := by
  have hproperty (id : UInt64) : (new id (serviceProperties name properties)).property nameKey =
      (serviceProperties name properties).lookup nameKey := property_new (by decide) id _
  have hnamed : ((serviceProperties name properties).lookup nameKey).isSome = true := by
    unfold serviceProperties Properties.insertIfAbsent
    split
    · next hfound =>
      obtain ⟨value, hvalue⟩ := Option.isSome_iff_exists.1 hfound
      rw [Properties.lookup_of_find? hvalue]
      rfl
    · rw [Properties.lookup_insert_self]
      rfl
  obtain ⟨value, hvalue⟩ := Option.isSome_iff_exists.1 hnamed
  rw [label, name?, name?, hproperty, hproperty, hvalue]
  rfl

end ServiceReference

namespace Replay

variable {config : ImporterConfig} {filter : ServiceFilter} {n : Nat}
  {known known' : List (String × UInt64)} {m : Muster String} {p p' : Replay} {t : Tally}
  {hub : Hub Entry} {name : String} {properties : Properties} {answer : Option UInt64}
  {id : UInt64}

/-- The hub of a replay has the muster, under the names that are known. -/
def Depicts (config : ImporterConfig) (filter : ServiceFilter) (n : Nat)
    (known : List (String × UInt64)) (m : Muster String) (p : Replay) : Prop :=
  ∃ roll, p.hub.Hosts config filter n roll ∧ Muster.Named known (p.hub.muster filter roll) m

/-- The hub of the second replay has the muster of this outcome, and its tally was added. -/
structure Follows (config : ImporterConfig) (filter : ServiceFilter) (n : Nat)
    (known : List (String × UInt64)) (outcome : Tally × Muster String) (p p' : Replay) : Prop where
  depicts : p'.Depicts config filter n known outcome.2
  tally : Transcript.tally p'.records = Transcript.tally p.records + outcome.1

/-- An operation on the hub whose outcome is the same by names as by numbers. -/
theorem Follows.after {byId : Tally × Muster UInt64} {outcome : Tally × Muster String}
    (hhub : (∃ roll, hub.Hosts config filter n roll ∧ hub.muster filter roll = byId.2) ∧
      p.hub.Amounts byId.1 hub)
    (hnamed : Muster.Named known byId.2 outcome.2 ∧ outcome.1 = byId.1) :
    p.Follows config filter n known outcome (p.after hub) := by
  obtain ⟨⟨roll, hhosts, hmuster⟩, records, hutters, htally⟩ := hhub
  refine ⟨⟨roll, hhosts, ?_⟩, ?_⟩
  · exact hmuster ▸ hnamed.1
  · show Transcript.tally (p.records ++ p.hub.recordsSince hub) = _
    rw [hutters.recordsSince, Transcript.tally_append, htally, hnamed.2]

namespace Depicts

theorem perm (hd : p.Depicts config filter n known m) (hp : known.Perm known') :
    p.Depicts config filter n known' m := by
  obtain ⟨roll, hhosts, hnamed⟩ := hd
  exact ⟨roll, hhosts, hnamed.perm hp⟩

/-- Names and records do not matter. -/
theorem of_hub (hd : p.Depicts config filter n known m) (hhub : p'.hub = p.hub) :
    p'.Depicts config filter n known m := by
  obtain ⟨roll, hhosts, hnamed⟩ := hd
  refine ⟨roll, hhub ▸ hhosts, ?_⟩
  rw [hhub]
  exact hnamed

/-- A known name stands for a service of the registry. -/
theorem isSome_get? (hd : p.Depicts config filter n known m) (hmem : (name, id) ∈ known) :
    (p.hub.registry.get? id).isSome = true := by
  obtain ⟨roll, -, hnamed⟩ := hd
  exact (Option.isSome_map ..).symm.trans (hnamed.present _ hmem)

/-- A service is registered under a new name. -/
theorem register (hd : p.Depicts config filter n known m) (hf : filter.Unnumbered)
    (hn : n + 1 < 2 ^ 64) (hname : name ∉ known.map Prod.fst)
    (hr : carryOut (.register name properties) p = .ok (answer, p')) :
    ∃ id, answer = some id ∧ p'.names = p.names ∧
      p.Follows config filter (n + 1) ((name, id) :: known)
        ((Step.register name properties).effect config filter m) p' := by
  obtain ⟨r, hub, hrun, rfl, rfl⟩ := register_eq_ok.1 hr
  obtain ⟨roll, hhosts, hnamed⟩ := hd
  obtain ⟨hhosts', hamounts, hnew⟩ := hhosts.register hn
    (ServiceReference.name?_new _ name properties) hrun
  rw [hf.accepts_new r.id 0] at hhosts' hamounts
  exact ⟨r.id, rfl, rfl, .after ⟨hhosts', hamounts⟩ (hnamed.enroll hname hnew)⟩

/-- A service gets other properties. -/
theorem modify (hd : p.Depicts config filter n p.names m) (hf : filter.Unnumbered)
    (hn : n < 2 ^ 64) (hr : carryOut (.modify name properties) p = .ok (answer, p')) :
    p.Follows config filter n p'.names
      ((Step.modify name properties).effect config filter m) p' := by
  obtain ⟨id, r, hub, hid, hrun, rfl, rfl⟩ := modify_eq_ok.1 hr
  have hmem : (name, id) ∈ p.names := mem_names_of_lookup hid
  have hpresent := hd.isSome_get? hmem
  obtain ⟨roll, hhosts, hnamed⟩ := hd
  obtain ⟨hhosts', hamounts⟩ := hhosts.modify hn hpresent
    (ServiceReference.name?_new _ name properties) hrun
  rw [hf.accepts_new id 0] at hhosts' hamounts
  exact .after ⟨hhosts', hamounts⟩ (hnamed.offer hmem)

/-- A service is taken away. -/
theorem unregister (hd : p.Depicts config filter n p.names m) (hn : n < 2 ^ 64)
    (hr : carryOut (.unregister name) p = .ok (answer, p')) :
    p.Follows config filter n p'.names ((Step.unregister name).effect config filter m) p' := by
  obtain ⟨id, hub, hid, hrun, rfl, rfl⟩ := unregister_eq_ok.1 hr
  have hmem : (name, id) ∈ p.names := mem_names_of_lookup hid
  have hpresent := hd.isSome_get? hmem
  obtain ⟨roll, hhosts, hnamed⟩ := hd
  have hfollows : (p.forgetting name).Follows config filter n (p.forgetting name).names
      ((Step.unregister name).effect config filter m) ((p.forgetting name).after hub) :=
    .after (hhosts.unregister hn hpresent hrun) (hnamed.retire hmem)
  exact ⟨hfollows.depicts, hfollows.tally⟩

/-- The importer is read. -/
theorem read (hd : p.Depicts config filter n p.names m)
    (hr : carryOut .read p = .ok (answer, p')) :
    p.Follows config filter n p'.names (Step.read.effect config filter m) p' := by
  obtain ⟨-, rfl⟩ := read_eq_ok.1 hr
  refine ⟨hd.of_hub rfl, ?_⟩
  obtain ⟨roll, hhosts, hnamed⟩ := hd
  show Transcript.tally (p.records ++ [(p.hub.collection 0).readRecord]) = _ + _
  rw [Transcript.tally_append, Transcript.tally_singleton, hhosts.read, Step.effect,
    hnamed.reading_eq]

end Depicts

/-! ## Batches -/

/-- The names that registrations make known, with the numbers of the services. -/
def entries (ids : Nat → UInt64) (batch : List Numbered) : List (String × UInt64) :=
  batch.filterMap fun step => step.2.registered?.map fun name => (name, ids step.1)

variable {batch : List Numbered} {ids : Nat → UInt64} {arrange : List Numbered → List Numbered}
  {live live' : List String} {registered : List (Nat × Option UInt64)}

theorem Follows.trans {outcome outcome' : Tally × Muster String} {n' : Nat} {p₁ : Replay}
    (h₁₂ : p.Follows config filter n known outcome p₁)
    (h₂₃ : p₁.Follows config filter n' known' outcome' p') :
    p.Follows config filter n' known' (outcome.1 + outcome'.1, outcome'.2) p' :=
  ⟨h₂₃.depicts, by rw [h₂₃.tally, h₁₂.tally, add_assoc]⟩

/-- Registrations that fit have names that are new and differ from each other. -/
theorem nodup_names (hfit : Step.AllFit live (batch.map Prod.snd) live')
    (hall : ∀ step ∈ batch, step.2.isRegister = true) (hlive : live.Nodup) :
    (Muster.names batch ++ live).Nodup := by
  induction batch generalizing live with
  | nil => exact hlive
  | cons step batch ih =>
    obtain ⟨number, step⟩ := step
    cases step with
    | register name properties =>
      cases hfit with
      | cons hstep hrest =>
        cases hstep with
        | register hname =>
          have hnodup := ih hrest (fun other hmem => hall other (List.mem_cons_of_mem _ hmem))
            (List.nodup_append.2 ⟨hlive, List.nodup_singleton name, fun a ha b hb heq =>
              hname (List.mem_singleton.1 hb ▸ heq ▸ ha)⟩)
          rw [← List.append_assoc] at hnodup
          exact (List.perm_append_singleton name _).nodup_iff.1 hnodup
    | _ => cases hall _ List.mem_cons_self

/-- Registrations are carried out, and their names are to be learnt. -/
theorem Depicts.registerAll (hd : p.Depicts config filter n known m) (hf : filter.Unnumbered)
    (hall : ∀ step ∈ batch, step.2.isRegister = true)
    (hnames : (Muster.names batch ++ known.map Prod.fst).Nodup) (hn : n + batch.length < 2 ^ 64)
    (hr : batch.mapM carryOutNumbered p = .ok (answers ids batch, p')) :
    p'.names = p.names ∧ p.Follows config filter (n + batch.length) (entries ids batch ++ known)
      (m.silently config filter batch) p' := by
  induction batch generalizing p n known m with
  | nil =>
    obtain ⟨-, rfl⟩ := pure_eq_ok.1 hr
    exact ⟨rfl, hd, (add_zero _).symm⟩
  | cons step batch ih =>
    obtain ⟨answer, p₁, rest, hstep, hrest, hanswers⟩ := mapM_cons_eq_ok.1 hr
    obtain ⟨hanswer, rfl⟩ := List.cons.inj hanswers
    obtain ⟨number, step⟩ := step
    cases step with
    | register name properties =>
      have hnodup : (Muster.names batch ++ name :: known.map Prod.fst).Nodup :=
        List.perm_middle.nodup_iff.2 hnames
      have hname : name ∉ known.map Prod.fst :=
        (List.nodup_cons.1 (List.nodup_append.1 hnodup).2.1).1
      rw [List.length_cons] at hn ⊢
      obtain ⟨id, rfl, hkept, hfirst⟩ := hd.register hf (by omega) hname hstep
      obtain rfl : ids number = id := Option.some.inj (Prod.mk.inj hanswer).2
      obtain ⟨hkept', hothers⟩ := ih hfirst.depicts
        (fun other hmem => hall other (List.mem_cons_of_mem _ hmem)) hnodup (by omega) hrest
      refine ⟨hkept'.trans hkept, ?_⟩
      have hall := hfirst.trans hothers
      rw [Nat.add_assoc, Nat.add_comm 1] at hall
      exact ⟨hall.depicts.perm List.perm_middle, hall.tally⟩
    | _ => cases hall _ List.mem_cons_self

/-- Names are learnt for the services that were registered. -/
theorem names_of_learnAll (hall : ∀ step ∈ batch, step.2.isRegister = true)
    (hnames : (Muster.names batch ++ p.names.map Prod.fst).Nodup)
    (hids : ∀ step ∈ batch, registered.lookup step.1 = some (some (ids step.1)))
    (hr : batch.forM (learn registered) p = .ok ((), p')) :
    p'.hub = p.hub ∧ p'.records = p.records ∧ p'.names.Perm (entries ids batch ++ p.names) := by
  induction batch generalizing p with
  | nil =>
    obtain ⟨-, rfl⟩ := pure_eq_ok.1 hr
    exact ⟨rfl, rfl, .refl _⟩
  | cons step batch ih =>
    obtain ⟨p₁, hlearn, hrest⟩ := forM_cons_eq_ok.1 hr
    obtain ⟨number, step⟩ := step
    cases step with
    | register name properties =>
      have hid : registered.lookup number = some (some (ids number)) :=
        hids _ List.mem_cons_self
      obtain rfl : p.knowing name (ids number) = p₁ :=
        congrArg Prod.snd (Except.ok.inj ((learn_eq_ok hid).symm.trans hlearn))
      have hnodup : (Muster.names batch ++ name :: p.names.map Prod.fst).Nodup :=
        List.perm_middle.nodup_iff.2 hnames
      have hname : name ∉ p.names.map Prod.fst :=
        (List.nodup_cons.1 (List.nodup_append.1 hnodup).2.1).1
      have hkept : (p.knowing name (ids number)).names = (name, ids number) :: p.names :=
        congrArg _ (List.filter_eq_self.2 fun entry hentry => bne_iff_ne.2 fun heq =>
          hname (List.mem_map.2 ⟨entry, hentry, heq⟩))
      obtain ⟨hhub, hrecords, hperm⟩ := ih
        (fun other hmem => hall other (List.mem_cons_of_mem _ hmem)) (by rwa [hkept])
        (fun other hmem => hids other (List.mem_cons_of_mem _ hmem)) hrest
      rw [hkept] at hperm
      exact ⟨hhub, hrecords, hperm.trans List.perm_middle⟩
    | _ => cases hall _ List.mem_cons_self

/-- A step that registers nothing is carried out. -/
theorem Depicts.step {step : Step} (hd : p.Depicts config filter n p.names m)
    (hf : filter.Unnumbered) (hn : n < 2 ^ 64) (hno : step.isRegister = false)
    (hr : carryOut step p = .ok (answer, p')) :
    p.Follows config filter n p'.names (step.effect config filter m) p' := by
  cases step with
  | register => cases hno
  | modify => exact hd.modify hf hn hr
  | unregister => exact hd.unregister hn hr
  | read => exact hd.read hr

/-- Steps are told of before they are carried out. -/
theorem Depicts.noted (hd : p.Depicts config filter n p.names m) (batch : List Numbered) :
    p.Follows config filter n p.names
      (.ofSteps (batch.map fun step => (step.1, step.2.display)), m)
      { p with records := p.records ++ batch.map notice } := by
  refine ⟨hd.of_hub rfl, ?_⟩
  rw [Transcript.tally_append, ← Transcript.tally_steps, List.map_map]
  rfl

/-- Registrations do to the muster what they do one after the other, in whatever order they are
arranged. -/
theorem Depicts.carryOutRegistrations (hd : p.Depicts config filter n p.names m)
    (hf : filter.Unnumbered) (hready : p.Ready filter n live [])
    (hall : ∀ step ∈ batch, step.2.isRegister = true) (hnumbers : (batch.map Prod.fst).Nodup)
    (hfit : Step.AllFit live (batch.map Prod.snd) live') (harrange : (arrange batch).Perm batch)
    (hn : n + batch.length < 2 ^ 64)
    (hr : Replay.carryOutBatch arrange batch p = .ok ((), p')) :
    p.Follows config filter (n + batch.length) p'.names
      (m.through (Muster.advance config filter) batch) p' := by
  obtain ⟨registered, p₁, hdone, hlearnt⟩ := carryOutBatch_eq_ok.1 hr
  have hnoted := hd.noted batch
  have hready₀ : Ready filter n live [] { p with records := p.records ++ batch.map notice } :=
    hready.of_eq rfl rfl
  rw [← harrange.length_eq] at hn ⊢
  have hall' : ∀ step ∈ arrange batch, step.2.isRegister = true :=
    fun step hmem => hall step (harrange.mem_iff.1 hmem)
  -- what the registrations answer are the numbers of the services
  obtain ⟨ids, p₂, hdone', -⟩ := hready₀.registerAll hall'
    ((harrange.map Prod.fst).nodup_iff.2 hnumbers) hn
  obtain ⟨rfl, rfl⟩ := Prod.mk.inj (Except.ok.inj (hdone'.symm.trans hdone))
  have hnames : (Muster.names batch ++ p.names.map Prod.fst).Nodup :=
    (hready.names.append_left _).nodup_iff.2 (nodup_names hfit hall hready.nodup)
  have hnames' : (Muster.names (arrange batch) ++ p.names.map Prod.fst).Nodup :=
    ((harrange.filterMap _).append_right _).nodup_iff.2 hnames
  obtain ⟨hkept, hregistered⟩ := hnoted.depicts.registerAll hf hall' hnames' hn hdone
  obtain ⟨hhub, hrecords, hperm⟩ := names_of_learnAll hall (hkept ▸ hnames)
    (fun step hmem => lookup_answers (harrange.mem_iff.2 hmem)) hlearnt
  rw [hkept] at hperm
  have hsame : m.silently config filter (arrange batch) = m.silently config filter batch :=
    (Muster.silently_perm hall (List.nodup_append.1 hnames).1 harrange.symm m).symm
  have hfollows := hnoted.trans hregistered
  rw [hsame] at hfollows
  rw [Muster.through_advance hall]
  refine ⟨(hfollows.depicts.of_hub hhub).perm ?_, hrecords ▸ hfollows.tally⟩
  exact ((harrange.filterMap _).append_right _).trans hperm.symm

/-- A step that registers nothing is a batch of its own. -/
theorem Depicts.carryOutStep {number : Nat} {step : Step}
    (hd : p.Depicts config filter n p.names m) (hf : filter.Unnumbered) (hn : n < 2 ^ 64)
    (hno : step.isRegister = false) (harrange : (arrange [(number, step)]).Perm [(number, step)])
    (hr : Replay.carryOutBatch arrange [(number, step)] p = .ok ((), p')) :
    p.Follows config filter n p'.names
      (m.through (Muster.advance config filter) [(number, step)]) p' := by
  obtain ⟨registered, p₁, hdone, hlearnt⟩ := carryOutBatch_eq_ok.1 hr
  have hnoted := hd.noted [(number, step)]
  rw [List.perm_singleton.1 harrange] at hdone
  obtain ⟨answer, p₂, rest, hstep, hrest, -⟩ := mapM_cons_eq_ok.1 hdone
  obtain ⟨-, rfl⟩ := pure_eq_ok.1 hrest
  -- there is no name to learn
  obtain rfl : p₂ = p' := by
    obtain ⟨p₃, hlearn, hnil⟩ := forM_cons_eq_ok.1 hlearnt
    obtain ⟨-, rfl⟩ := pure_eq_ok.1 hnil
    cases step with
    | register => cases hno
    | _ => exact (pure_eq_ok.1 hlearn).2
  show p.Follows config filter n p₂.names
    ((Muster.advance config filter (number, step) m).1 + 0,
      (Muster.advance config filter (number, step) m).2) p₂
  rw [add_zero]
  exact hnoted.trans (Depicts.step hnoted.depicts hf hn hno hstep)

/-- **A batch** does to the muster what its steps do one after the other, in whatever order it is
arranged. -/
theorem Depicts.carryOutBatch (hd : p.Depicts config filter n p.names m) (hf : filter.Unnumbered)
    (hready : p.Ready filter n live []) (hbatch : IsBatch batch)
    (hnumbers : (batch.map Prod.fst).Nodup) (hfit : Step.AllFit live (batch.map Prod.snd) live')
    (harrange : (arrange batch).Perm batch) (hn : n + registrations batch < 2 ^ 64)
    (hr : Replay.carryOutBatch arrange batch p = .ok ((), p')) :
    p.Follows config filter (n + registrations batch) p'.names
      (m.through (Muster.advance config filter) batch) p' := by
  by_cases hall : ∀ step ∈ batch, step.2.isRegister = true
  · have hlength : registrations batch = batch.length := List.countP_eq_length.2 hall
    rw [hlength] at hn ⊢
    exact hd.carryOutRegistrations hf hready hall hnumbers hfit harrange hn hr
  · -- a batch in which not every step registers a service has one step
    obtain ⟨⟨number, step⟩, rfl⟩ := hbatch.resolve_left hall
    have hno : step.isRegister = false := by simpa using hall
    have hnone : registrations [(number, step)] = 0 := by simp [hno]
    rw [hnone] at hn ⊢
    exact hd.carryOutStep hf hn hno harrange hr

/-- Batches do to the muster what their steps do one after the other. -/
theorem Depicts.carryOutAll {batches : List (List Numbered)}
    (hd : p.Depicts config filter n p.names m) (hf : filter.Unnumbered)
    (hready : p.Ready filter n live []) (hbatches : ∀ batch ∈ batches, IsBatch batch)
    (hnumbers : (batches.flatten.map Prod.fst).Nodup)
    (hfit : Step.AllFit live (batches.flatten.map Prod.snd) live')
    (harrange : ∀ batch, (arrange batch).Perm batch)
    (hn : n + registrations batches.flatten < 2 ^ 64)
    (hr : batches.forM (Replay.carryOutBatch arrange) p = .ok ((), p')) :
    p.Follows config filter (n + registrations batches.flatten) p'.names
      (m.through (Muster.advance config filter) batches.flatten) p' := by
  induction batches generalizing p n live m with
  | nil =>
    obtain ⟨-, rfl⟩ := pure_eq_ok.1 hr
    exact ⟨hd, (add_zero _).symm⟩
  | cons batch batches ih =>
    have hcount : registrations (batch :: batches).flatten =
        registrations batch + registrations batches.flatten := by
      rw [List.flatten_cons, registrations, List.countP_append]
    rw [List.flatten_cons, List.map_append] at hnumbers hfit
    rw [hcount] at hn ⊢
    obtain ⟨live₁, hfirst, hrest⟩ := Step.allFit_append.1 hfit
    have hnumbers₁ := (List.nodup_append.1 hnumbers).1
    obtain ⟨p₁, hdone, hothers⟩ := forM_cons_eq_ok.1 hr
    -- what a batch leaves is ready for the next one
    obtain ⟨p₂, hdone', hready₁⟩ := hready.carriesOut (hbatches batch List.mem_cons_self)
      hnumbers₁ hfirst (harrange batch) (by omega)
    obtain rfl : p₂ = p₁ := congrArg Prod.snd (Except.ok.inj (hdone'.symm.trans hdone))
    have hfollows := hd.carryOutBatch hf hready (hbatches batch List.mem_cons_self) hnumbers₁
      hfirst (harrange batch) (by omega) hdone
    have hfollows' := ih hfollows.depicts hready₁
      (fun other hmem => hbatches other (List.mem_cons_of_mem _ hmem))
      (List.nodup_append.1 hnumbers).2.1 hrest (by omega) hothers
    rw [List.flatten_cons, Muster.through_append, ← Nat.add_assoc]
    exact hfollows.trans hfollows'

end Replay

end LiveServices
