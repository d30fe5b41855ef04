import LiveServices.Proofs.Arrangements.Depicted
import LiveServices.Proofs.Transcripts.Explained

/-!
# The order of registrations

A replay of a validated scenario, in whatever batches and in whatever order within them, comes to
what the scenario's muster comes to (`Scenario.tally_replayBatches`), if the filter does not test
for the numbers of services and no service can be refused because of another one. The muster knows
neither numbers nor batches. So the order in which registrations are carried out cannot be told
from a transcript (`tally_replayParallel`).
-/

namespace LiveServices

namespace Replay

variable {config : ImporterConfig} {filter : ServiceFilter} {n retracted : Nat}
  {m : Muster String} {known : List (String × UInt64)} {p p' : Replay} {hub : Hub Entry}

/-! ## The start and the end -/

/-- Nothing is told when the importer starts, because no service is there. -/
theorem start_quiet (config : ImporterConfig) (filter : ServiceFilter) : ∃ ending hub,
    (Run.start nested importer).run (.ofPlans [planOf config filter]) = .ok (ending, hub) ∧
    Hub.Voices [] (.ofPlans [planOf config filter]) hub ∧
    (hub.collection 0).closed = false ∧ hub.registry.services = [] := by
  rw [Hub.ofPlans_singleton ((passive_planOf config filter).build rfl)]
  obtain ⟨beanName, source, mandatory, collection, sortBy, proxies⟩ := config
  -- whether the importer is available depends on whether it needs a service
  cases mandatory
  all_goals
    refine ⟨_, _, rfl, ⟨rfl, fun c => ?_, [], rfl, rfl⟩, rfl, rfl⟩
    cases c with
    | zero => exact ⟨rfl, rfl, rfl, rfl, rfl, rfl, rfl, fun hk => hk⟩
    | succ c => exact .refl _

/-- After the start the muster is empty. -/
theorem depicts_start (hv : config.validate = .ok ()) (hfilter : config.parsedFilter = .ok filter)
    (hkey : config.collection = .sortedSet → config.sortBy = none)
    (hr : start { hub := .ofPlans [planOf config filter] } = .ok ((), p)) :
    p.Depicts config filter 0 p.names {} ∧ Transcript.tally p.records = 0 := by
  obtain ⟨p', hstart, hready⟩ := start_total config filter
  obtain rfl : p' = p := congrArg Prod.snd (Except.ok.inj (hstart.symm.trans hr))
  obtain ⟨ending, hub, r, hrun, hstarted, rfl⟩ := start_eq_ok.1 hr
  obtain ⟨ending', hub', hquiet, hvoices, ho, hnone⟩ := start_quiet config filter
  obtain ⟨-, rfl⟩ := Prod.mk.inj (Except.ok.inj (hquiet.symm.trans hrun))
  have hplan : Plan.ofConfig config Factory.reference = .ok _ :=
    Plan.ofConfig_eq_ok.2 ⟨hv, filter, hfilter, rfl⟩
  have hwelcoming : (Mode.ofKind config.collection fun a b : Entry =>
      config.order a.service b.service).IsWelcoming := Plan.isWelcoming_ofConfig hplan hkey
  have hbuilt : (Hub.ofPlans [planOf config filter]).collection 0 = _ :=
    congrArg (Hub.collection · 0)
      (Hub.ofPlans_singleton ((passive_planOf config filter).build rfl))
  have hhosts : hub'.Hosts config filter 0 [] := {
    service := hready.hub
    shows := (honest_hubOf (hubOf_planOf hv hfilter)).shows.of_voices hvoices
    isOpen := ho
    welcoming := by
      rw [(hvoices.stock 0).mode, hbuilt]
      exact hwelcoming
    filter_eq := by
      rw [(hvoices.stock 0).dependency, hbuilt]
      rfl
    issued := fun _ hs => absurd hs List.not_mem_nil }
  refine ⟨⟨[], hhosts, .nil, .nil, ?_, ?_, fun _ _ => rfl, rfl⟩, ?_⟩
  · exact fun _ he => absurd he List.not_mem_nil
  · exact fun _ he => absurd he List.not_mem_nil
  · show Transcript.tally (([] ++ Hub.recordsSince _ hub') ++ [r]) = 0
    rw [hvoices.utters.recordsSince]
    cases hstarted with
    | ready | lacking => rfl

/-- **The end.** What is told of the end is what the muster says. -/
theorem Depicts.destroy (hd : p.Depicts config filter n known m)
    (hr : Run.destroy nested importer p.hub = .ok (retracted, hub)) :
    Transcript.tally ((p.after hub).telling (.destroyed retracted)).records =
      Transcript.tally p.records + m.finish config.mandatory := by
  obtain ⟨roll, hhosts, hnamed⟩ := hd
  obtain ⟨⟨records, hutters, htally⟩, rfl⟩ := Run.amounts_of_destroy hhosts.shows hr
  show Transcript.tally ((p.records ++ p.hub.recordsSince hub) ++ [.destroyed roll.labels.card]) = _
  rw [hutters.recordsSince, Transcript.tally_append, Transcript.tally_append, htally, add_assoc,
    hnamed.finish_eq]
  rfl

end Replay

/-! ## Whole replays -/

namespace Scenario

variable {s : Scenario} {filter : ServiceFilter}
  {arrange : List Replay.Numbered → List Replay.Numbered} {batches : List (List Replay.Numbered)}
  {records : List Record}

/-- **Every replay** of a validated scenario comes to what the steps do to a muster, one after the
other. -/
theorem tally_replayBatches (hv : s.validate = .ok ())
    (hfilter : s.importer.parsedFilter = .ok filter) (hf : filter.Unnumbered)
    (hkey : s.importer.collection = .sortedSet → s.importer.sortBy = none)
    (hn : s.steps.countP Step.isRegister < 2 ^ 64) (hflat : batches.flatten = s.numbered)
    (hbatches : ∀ batch ∈ batches, Replay.IsBatch batch)
    (harrange : ∀ batch, (arrange batch).Perm batch)
    (hr : s.replayBatches arrange batches = .ok records) :
    Transcript.tally records = Muster.play s.importer filter s.numbered := by
  obtain ⟨hconfig, live, hfit⟩ := validate_eq_ok.1 hv
  obtain ⟨hub, p, hhub, hrun, rfl⟩ := replayBatches_eq_ok.1 hr
  rw [Replay.hubOf_planOf hconfig hfilter] at hhub
  obtain rfl := Except.ok.inj hhub
  obtain ⟨p₁, p₂, retracted, hub', hstart, hdone, hdestroy, rfl⟩ := Replay.run_eq_ok.1 hrun
  obtain ⟨p₃, hstart', hready⟩ := Replay.start_total s.importer filter
  obtain rfl : p₃ = p₁ := congrArg Prod.snd (Except.ok.inj (hstart'.symm.trans hstart))
  obtain ⟨hdepicts, hzero⟩ := Replay.depicts_start hconfig hfilter hkey hstart
  have hfollows := hdepicts.carryOutAll hf hready hbatches (hflat ▸ s.nodup_numbers)
    (by rwa [hflat, numbered_steps]) harrange (by
      rw [hflat, Nat.zero_add, Replay.registrations]
      rwa [← numbered_steps, List.countP_map] at hn) hdone
  rw [hflat] at hfollows
  rw [hfollows.depicts.destroy hdestroy, hfollows.tally, hzero, zero_add, Muster.play]

end Scenario

/-- **The order of registrations does not matter.** Take a validated scenario whose filter does not
test for the numbers of services and whose importer is not a sorted set with a sort key. However
the registrations that are carried out together are arranged, the replay comes to what the
sequential one comes to: the same steps are told of, each read shows as many services with the same
labels or the same error, as often the same names are bound and unbound, there are as many notices
of either kind, and as many services at the end. The numbers of services have 64 bits, and a
scenario that is in memory has fewer steps than there are numbers. -/
theorem tally_replayParallel {s : Scenario} (hv : s.validate = .ok ())
    (hf : ∀ filter, s.importer.parsedFilter = .ok filter → filter.Unnumbered)
    (hkey : s.importer.collection = .sortedSet → s.importer.sortBy = none)
    (hn : s.steps.countP Step.isRegister < 2 ^ 64)
    {arrange : List Replay.Numbered → List Replay.Numbered}
    (harrange : ∀ batch, (arrange batch).Perm batch) : ∃ records records',
    s.replay = .ok records ∧ s.replayParallel arrange = .ok records' ∧
      Transcript.tally records' = Transcript.tally records := by
  obtain ⟨filter, hfilter⟩ := ImporterConfig.exists_filter (Scenario.validate_eq_ok.1 hv).1
  -- all replays come to the same
  have hall {arrange : List Replay.Numbered → List Replay.Numbered}
      {batches : List (List Replay.Numbered)} (hflat : batches.flatten = s.numbered)
      (hbatches : ∀ batch ∈ batches, Replay.IsBatch batch)
      (harrange : ∀ batch, (arrange batch).Perm batch) : ∃ records,
      s.replayBatches arrange batches = .ok records ∧
        Transcript.tally records = Muster.play s.importer filter s.numbered := by
    obtain ⟨records, hr⟩ := Scenario.replayBatches_total hv hn hflat hbatches harrange
    exact ⟨records, hr, Scenario.tally_replayBatches hv hfilter (hf filter hfilter) hkey hn hflat
      hbatches harrange hr⟩
  have hsingle : ∀ batch ∈ s.numbered.map fun step => [step], Replay.IsBatch batch := by
    intro batch hmem
    obtain ⟨step, -, rfl⟩ := List.mem_map.1 hmem
    exact .inr ⟨step, rfl⟩
  have hflat : (s.numbered.map fun step => [step]).flatten = s.numbered := by
    rw [← List.flatMap_def, List.flatMap_singleton']
  obtain ⟨records, hreplay, htally⟩ := hall hflat hsingle fun _ => .refl _
  obtain ⟨records', hparallel, htally'⟩ := hall (List.flatten_splitBy _ _)
    (fun _ => Scenario.isBatch_of_mem_splitBy) harrange
  exact ⟨records, records', hreplay, hparallel, htally'.trans htally.symm⟩

/-- Services that come together; then some of them change what they speak, and one leaves that is
not wanted any more. -/
def Scenario.crowd : Scenario where
  importer := { filter := "(lang=en)", collection := .sortedList, sortBy := some "lang" }
  steps := [.register "a" (.spoken "en"), .register "b" (.spoken "fr"),
    .register "c" (.spoken "en"), .modify "b" (.spoken "en"), .read, .modify "c" (.spoken "fr"),
    .unregister "c", .unregister "a", .read]

/-- The scenario is replayed in order and with each batch of its steps in the reverse order, and the
tallies are the same. -/
theorem tally_replayParallel_crowd : Scenario.crowd.validate = .ok () ∧
    (∀ filter, Scenario.crowd.importer.parsedFilter = .ok filter → filter.Unnumbered) ∧
    (Scenario.crowd.importer.collection = .sortedSet →
      Scenario.crowd.importer.sortBy = none) ∧
    Scenario.crowd.steps.countP Step.isRegister < 2 ^ 64 ∧
    (∀ batch : List Replay.Numbered, batch.reverse.Perm batch) ∧
    ∃ records records', Scenario.crowd.replay = .ok records ∧
      Scenario.crowd.replayParallel List.reverse = .ok records' ∧
      Transcript.tally records' = Transcript.tally records := by
  have hv : Scenario.crowd.validate = .ok () := by decide +kernel
  have hf : ∀ filter, Scenario.crowd.importer.parsedFilter = .ok filter →
      filter.Unnumbered := by
    intro filter hparsed
    obtain rfl : _ = filter := Except.ok.inj hparsed
    decide
  have hkey : Scenario.crowd.importer.collection = .sortedSet →
      Scenario.crowd.importer.sortBy = none := fun hkind => by cases hkind
  have hn : Scenario.crowd.steps.countP Step.isRegister < 2 ^ 64 := by decide
  have hreverse : ∀ batch : List Replay.Numbered, batch.reverse.Perm batch :=
    fun batch => batch.reverse_perm
  exact ⟨hv, hf, hkey, hn, hreverse, tally_replayParallel hv hf hkey hn hreverse⟩

end LiveServices
