import LiveServices.Proofs.Transcripts.Telling

/-!
# Replays explain themselves

A replay is honest as long as its hub shows its records and these are consistent
(`Replay.Honest`). It is so when the importer was built, and each stage of it keeps it so: what a
stage tells are the records of operations, which continue the transcript, and records that say what
they should of the services that are bound. The end of the importer leaves nothing bound. So the
records of a whole replay explain themselves (`transcript_explained`).
-/

namespace LiveServices

open Transcript (Consistent)

namespace Replay

variable {config : ImporterConfig} {p p' : Replay} {step : Numbered} {batch : List Numbered}
  {arrange : List Numbered → List Numbered} {u : Unit}

/-- The hub of the replay shows its records, and the importer was not destroyed. -/
structure Honest (config : ImporterConfig) (p : Replay) : Prop where
  consistent : Consistent config p.records
  shows : p.hub.Shows config (Transcript.bound p.records)
  ongoing : ∀ n, .destroyed n ∉ p.records

/-- No callback is recorded as the end of the importer. -/
theorem not_mem_recordsSince {h h' : Hub Entry} {n : Nat} :
    .destroyed n ∉ h.recordsSince h' := by
  intro hmem
  obtain ⟨m, -, hm⟩ := List.mem_filterMap.1 hmem
  unfold Moment.record? at hm
  split at hm <;> cases hm

/-- The importer of a scenario was built, and nothing happened yet. -/
theorem honest_hubOf {hub : Hub Entry} (hr : hubOf config = .ok hub) :
    Honest config { hub := hub } := by
  obtain ⟨-, filter, -, rfl⟩ := hubOf_eq_ok.1 hr
  have hbuild := (passive_planOf config filter).build rfl
  refine ⟨Transcript.consistent_nil, ?_, fun _ => List.not_mem_nil⟩
  rw [Hub.ofPlans_singleton hbuild]
  exact ⟨rfl, .of_planOf hbuild⟩

namespace Honest

/-- Names do not matter. -/
theorem of_same (hp : p.Honest config) (hh : p'.hub = p.hub) (hr : p'.records = p.records) :
    p'.Honest config := by
  refine ⟨hr ▸ hp.consistent, ?_, hr ▸ hp.ongoing⟩
  rw [hh, hr]
  exact hp.shows

/-- An operation tells what continues the transcript. -/
theorem after {α : Type} {act : Run Entry α} {a : α} {hub : Hub Entry} (hp : p.Honest config)
    (hact : Run.Keeps (Hub.Narrates config) act) (hr : act p.hub = .ok (a, hub)) :
    (p.after hub).Honest config := by
  obtain ⟨new, hnew⟩ := hact hr p.records hp.consistent hp.shows
  have hrecords : (p.after hub).records = p.records ++ new :=
    congrArg (p.records ++ ·) hnew.utters.recordsSince
  refine ⟨?_, ?_, fun n hmem => ?_⟩
  · rw [hrecords]
    exact hnew.consistent
  · rw [hrecords]
    exact hnew.shows
  · exact (List.mem_append.1 hmem).elim (hp.ongoing n) not_mem_recordsSince

/-- A record that is right and does not tell of callbacks. -/
theorem telling {r : Record} (hp : p.Honest config)
    (hr : Transcript.IsRight config (Transcript.bound p.records) r) (hn : r.isNotice = false)
    (hi : ∀ id, r.isAbout id = false) (hd : ∀ n, r ≠ .destroyed n) :
    (p.telling r).Honest config := by
  obtain ⟨hconsistent, hbound⟩ := hp.consistent.append_idle hr hn hi
  refine ⟨hconsistent, ?_, fun n hmem => ?_⟩
  · show p.hub.Shows config (Transcript.bound (p.records ++ [r]))
    rw [hbound]
    exact hp.shows
  · rcases List.mem_append.1 hmem with hmem | hmem
    · exact hp.ongoing n hmem
    · exact hd n (List.mem_singleton.1 hmem).symm

theorem start (hp : p.Honest config) (hr : Replay.start p = .ok (u, p')) : p'.Honest config := by
  obtain ⟨ending, hub, r, hrun, hstarted, rfl⟩ := start_eq_ok.1 hr
  have hafter := hp.after (Run.narrates_start importer) hrun
  cases hstarted with
  | ready | lacking =>
    exact hafter.telling trivial rfl (fun _ => rfl) fun _ => Record.noConfusion

theorem carryOut {step : Step} {answer : Option UInt64} (hp : p.Honest config)
    (hr : Replay.carryOut step p = .ok (answer, p')) : p'.Honest config := by
  cases step with
  | register name properties =>
    obtain ⟨r, hub, hrun, -, rfl⟩ := register_eq_ok.1 hr
    exact hp.after (Run.narrates_built (.register _)) hrun
  | modify name properties =>
    obtain ⟨id, r, hub, -, hrun, -, rfl⟩ := modify_eq_ok.1 hr
    exact hp.after (Run.narrates_built (.setProperties ..)) hrun
  | unregister name =>
    obtain ⟨id, hub, -, hrun, -, rfl⟩ := unregister_eq_ok.1 hr
    have hforgotten : (p.forgetting name).Honest config := hp.of_same rfl rfl
    exact hforgotten.after (Run.narrates_built (.unregister id)) hrun
  | read =>
    obtain ⟨-, rfl⟩ := read_eq_ok.1 hr
    obtain ⟨size, services, error, hread, hreads⟩ := hp.shows.importer.read
    rw [show (p.hub.collection importer).readRecord = _ from hread]
    exact hp.telling hreads rfl (fun _ => rfl) fun _ => Record.noConfusion

theorem carryOutAll {registered : List (Nat × Option UInt64)} (hp : p.Honest config)
    (hr : batch.mapM carryOutNumbered p = .ok (registered, p')) : p'.Honest config := by
  induction batch generalizing p registered with
  | nil =>
    obtain ⟨-, rfl⟩ := pure_eq_ok.1 hr
    exact hp
  | cons step batch ih =>
    obtain ⟨answer, p₁, rest, hstep, hrest, -⟩ := mapM_cons_eq_ok.1 hr
    exact ih (hp.carryOut hstep) hrest

/-- To learn a name is to tell nothing. -/
theorem learn {registered : List (Nat × Option UInt64)} (hp : p.Honest config)
    (hr : Replay.learn registered step p = .ok (u, p')) : p'.Honest config := by
  obtain ⟨number, step⟩ := step
  cases step with
  | register name properties =>
    unfold Replay.learn at hr
    rcases hid : registered.lookup number with _ | _ | id
    · simp only [hid] at hr
      obtain ⟨-, rfl⟩ := pure_eq_ok.1 hr
      exact hp
    · simp only [hid] at hr
      obtain ⟨-, rfl⟩ := pure_eq_ok.1 hr
      exact hp
    · simp only [hid] at hr
      obtain rfl := know_eq_ok.1 hr
      exact hp.of_same rfl rfl
  | _ =>
    obtain ⟨-, rfl⟩ := pure_eq_ok.1 hr
    exact hp

/-- A loop keeps a replay honest if each of its stages does. -/
theorem forM {α : Type} {l : List α} {f : α → Stage Unit}
    (hf : ∀ {a p p'}, p.Honest config → f a p = .ok ((), p') → p'.Honest config)
    (hp : p.Honest config) (hr : l.forM f p = .ok (u, p')) : p'.Honest config := by
  induction l generalizing p with
  | nil =>
    obtain ⟨-, rfl⟩ := pure_eq_ok.1 hr
    exact hp
  | cons a l ih =>
    obtain ⟨p₁, hfirst, hrest⟩ := forM_cons_eq_ok.1 hr
    exact ih (hf hp hfirst) hrest

/-- **Batches.** Whatever the order in which its steps are carried out, a batch keeps a replay
honest. -/
theorem carryOutBatch (hp : p.Honest config)
    (hr : Replay.carryOutBatch arrange batch p = .ok (u, p')) : p'.Honest config := by
  obtain ⟨registered, p₁, hdone, hlearnt⟩ := carryOutBatch_eq_ok.1 hr
  have hannounced : Replay.Honest config { p with records := p.records ++ batch.map notice } := by
    refine forM (fun hp htell => ?_) hp ((announce_eq_ok (u := ())).2 rfl)
    obtain rfl := tell_eq_ok.1 htell
    exact hp.telling trivial rfl (fun _ => rfl) fun _ => Record.noConfusion
  exact forM (fun hp hr => hp.learn hr) (hannounced.carryOutAll hdone) hlearnt

/-- **The end.** The end of the importer is told as the loss of all that was bound, and then by
their number. -/
theorem destroy {hub : Hub Entry} {retracted : Nat} (hp : p.Honest config)
    (hr : Run.destroy nested importer p.hub = .ok (retracted, hub)) :
    Transcript.Explained config ((p.after hub).telling (.destroyed retracted)).records ∧
    ∃ teardown, ((p.after hub).telling (.destroyed retracted)).records =
      p.records ++ teardown ++ [.destroyed (Transcript.bound p.records).length] ∧
      ∀ r ∈ teardown, r.isLoss = true := by
  obtain ⟨new, hnew, hlosses, rfl, hbound⟩ := Run.continues_destroy hp.consistent hp.shows hr
  have hrecords : p.hub.recordsSince hub = new := hnew.utters.recordsSince
  have htold : ((p.after hub).telling (.destroyed (Transcript.bound p.records).length)).records =
      p.records ++ new ++ [.destroyed (Transcript.bound p.records).length] := by
    show p.records ++ p.hub.recordsSince hub ++ _ = _
    rw [hrecords]
  rw [htold]
  obtain ⟨hend, hsame⟩ :=
    hnew.consistent.append_idle (r := .destroyed _) trivial rfl fun _ => rfl
  exact ⟨hend.explained (hsame.trans hbound), new, rfl, hlosses⟩

end Honest

end Replay

/-! ## The replay of a scenario -/

namespace Scenario

/-- The replay of the scenario in these batches, when all steps are done and the importer is to be
destroyed. -/
def Played (s : Scenario) (arrange : List Replay.Numbered → List Replay.Numbered)
    (batches : List (List Replay.Numbered)) (p : Replay) : Prop :=
  ∃ hub p₁, Replay.hubOf s.importer = .ok hub ∧ Replay.start { hub := hub } = .ok ((), p₁) ∧
    batches.forM (Replay.carryOutBatch arrange) p₁ = .ok ((), p)

/-- Replays in batches explain themselves, however their steps are arranged. -/
theorem replayBatches_explained {s : Scenario}
    {arrange : List Replay.Numbered → List Replay.Numbered}
    {batches : List (List Replay.Numbered)} {records : List Record}
    (hr : s.replayBatches arrange batches = .ok records) :
    Transcript.Explained s.importer records ∧ ∃ p teardown, s.Played arrange batches p ∧
      records = p.records ++ teardown ++ [.destroyed (Transcript.bound p.records).length] ∧
      (∀ r ∈ teardown, r.isLoss = true) ∧ ∀ n, .destroyed n ∉ p.records := by
  obtain ⟨hub, p, hhub, hrun, rfl⟩ := replayBatches_eq_ok.1 hr
  obtain ⟨p₁, p₂, retracted, hub', hstart, hbatches, hdestroy, rfl⟩ := Replay.run_eq_ok.1 hrun
  have hhonest : p₂.Honest s.importer := .forM (fun hp hr => hp.carryOutBatch hr)
    ((Replay.honest_hubOf hhub).start hstart) hbatches
  obtain ⟨hexplained, teardown, hrecords, hlosses⟩ := hhonest.destroy hdestroy
  exact ⟨hexplained, p₂, teardown, ⟨hub, p₁, hhub, hstart, hbatches⟩, hrecords, hlosses,
    hhonest.ongoing⟩

end Scenario

/-- **Transcripts explain themselves.** In the records of a replay the binds and unbinds of each
service alternate, from a bind to an unbind of the same name; each read shows the services that are
bound then; and notices come exactly where the first service is bound and where the last one is
unbound. The last record is that of the end of the importer, the only one of its kind, and it has
the number of the services that were bound when the steps were done. -/
theorem transcript_explained {s : Scenario} {records : List Record}
    (hr : s.replay = .ok records) :
    Transcript.Explained s.importer records ∧ ∃ p teardown,
      s.Played id (s.numbered.map fun step => [step]) p ∧
      records = p.records ++ teardown ++ [.destroyed (Transcript.bound p.records).length] ∧
      (∀ r ∈ teardown, r.isLoss = true) ∧ ∀ n, .destroyed n ∉ p.records :=
  Scenario.replayBatches_explained hr

/-- A service that gets another name and then ceases to match, so that the importer still has it at
the end. -/
def Scenario.renamed : Scenario where
  importer := { filter := "(lang=en)", collection := .set }
  steps := [.register "a" (.spoken "en"),
    .modify "a" ((Properties.spoken "en").insert nameKey (.text "b")), .read,
    .modify "a" (.spoken "fr"), .unregister "a"]

/-- The importer is not told when the service is unregistered, so the entry is unbound by the
destruction alone, under the name that the service had when it was bound. -/
theorem transcript_explained_renamed : ∃ records, Scenario.renamed.replay = .ok records ∧
    records.drop 7 = [.step 4 "modify a", .step 5 "unregister a", .unbind 1 (some "a"),
      .unsatisfied "serviceCollection", .destroyed 1] ∧
    Transcript.Explained Scenario.renamed.importer records ∧ ∃ p teardown,
      Scenario.renamed.Played id (Scenario.renamed.numbered.map fun step => [step]) p ∧
      records = p.records ++ teardown ++ [.destroyed (Transcript.bound p.records).length] ∧
      (∀ r ∈ teardown, r.isLoss = true) ∧ ∀ n, .destroyed n ∉ p.records := by
  have hend : Scenario.renamed.replay.map (List.drop 7) = .ok [.step 4 "modify a",
      .step 5 "unregister a", .unbind 1 (some "a"), .unsatisfied "serviceCollection",
      .destroyed 1] := by decide +kernel
  obtain ⟨records, hr, hdrop⟩ := Run.exists_of_map_eq_ok hend
  exact ⟨records, hr, hdrop, transcript_explained hr⟩

end LiveServices
