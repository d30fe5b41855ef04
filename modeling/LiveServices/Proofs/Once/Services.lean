import LiveServices.Proofs.Once.Readers

/-!
# Each service once

The numbers of services are not used twice, and a collection does not take a service again that it
had. So a lifecycle listener is told of an addition of each service at most once, and no iterator
yields a service twice, whether or not it was at its end or refused in between. This is
`services_once`; it holds of every order in which calls of the registry, starts, destructions and
reads follow one another.

One command is judged by `Hub.Accounted.step`: if it changes what the collection has then services
only come or only go (`Hub.Bound.change`), and otherwise it reads (`Hub.Recorded.read`).
-/

namespace LiveServices

/-- The commands of callers who leave the listeners and the collection itself in place. -/
def Command.IsOrderly {E : Type} (c : Nat) (command : Command E) : Prop :=
  command.IsChange c ∨ command.IsRead ∨ ∃ name, command = .dropIter name

namespace Hub

variable {c n n' depth : Nat} {h₀ h h' : Hub Entry} {command : Command Entry} {answer : Answer}
  {commands done : List (Command Entry)} {listeners : List (Attached Entry)}
  {l : Attached Entry} {log : Yields}

/-! ## Reads -/

theorem Browsed.minds (hb : h.Browsed h') : h.Minds c n n h' := by
  refine ⟨fun id => (hb.knows id).2, fun id hid => .inl ?_⟩
  obtain ⟨storage, -, hk⟩ := hb.collection c
  rw [hk] at hid
  exact hid

/-- A read reaches a result in an orderly hub, and nobody is told anything. -/
theorem Orderly.read (ho : h.Orderly c n)
    (hown : ∀ name t, h.traversals.lookup name = some t → t.collection = c)
    (hcommand : command.IsRead ∨ ∃ name, command = .dropIter name) (depth : Nat) :
    ∃ answer h', h.run (depth + 1) command = .ok (answer, h') ∧ h.Browsed h' ∧
    h.Reads c command answer h'.traversals (h'.collection c) ∧
    ∀ tag, h'.history tag = h.history tag := by
  obtain ⟨answer, h₁, hr, hb⟩ : ∃ answer h₁,
      Run.execute (Run.run depth) command h = .ok (answer, h₁) ∧ h.Browsed h₁ := by
    rcases hcommand with hread | ⟨name, rfl⟩
    · obtain ⟨answer, h₁, hr, hb, -⟩ := Run.execute_browses (Run.run depth) ho.idle hread
      exact ⟨answer, h₁, hr, hb⟩
    · obtain ⟨dropped, h₁, hr, hb, -⟩ := Run.dropIter_browses (h := h) name
      exact ⟨.truth dropped, h₁, Run.bind_eq_ok.2 ⟨dropped, h₁, hr, rfl⟩, hb⟩
  obtain ⟨hreads, htrace⟩ := Run.reads_execute (Run.run depth) ho.present ho.alone hown hcommand hr
  have hhush : h₁.Hush (h₁.record (.ended h₁.census)) := ⟨rfl, rfl⟩
  refine ⟨answer, _, run_ok hr, hb.trans hhush.browsed, hreads, fun tag => ?_⟩
  -- the end of the command is noted, and that tells nobody anything
  rw [history, told, record, List.filterMap_cons_none rfl, htrace]
  rfl

/-! ## Listeners -/

/-- A listener was told of one addition more than removals of each service that the collection has,
and of as many of each other one. -/
def InStep (c : Nat) (l : Attached Entry) (h : Hub Entry) : Prop :=
  ∀ id, ((h.history l.tag).countP (Callback.isBind id) : Int) -
    (h.history l.tag).countP (Callback.isUnbind id) =
      if id ∈ (h.collection c).identities then 1 else 0

/-- A listener was told of the addition of each service at most once, and those that it was told of
are known. -/
structure Bound (c n : Nat) (l : Attached Entry) (h : Hub Entry) : Prop where
  inStep : h.InStep c l
  once : ∀ id, (h.history l.tag).countP (Callback.isBind id) ≤ 1
  known : ∀ id, 0 < (h.history l.tag).countP (Callback.isBind id) → h.Knows c n id

/-- **Changes.** If services only come then those that come were not known, so that the listener was
told of none of them; if services only go, it is told of no addition. -/
theorem Bound.change (hb : h.Bound c n l) (hch : Orderly.Changed c n n' h h')
    (hinStep : h'.InStep c l) : h'.Bound c n' l := by
  have hbinds (id : UInt64) : (h'.history l.tag).countP (Callback.isBind id) ≤
        (h.history l.tag).countP (Callback.isBind id) ∨
      (h'.history l.tag).countP (Callback.isBind id) ≤ 1 ∧ id ∈ (h'.collection c).identities := by
    rcases hch.oneWay with hcoming | hgoing
    · have hbefore := hb.inStep id
      have hafter := hinStep id
      rw [(hcoming id).count] at hafter
      by_cases hid : id ∈ (h'.collection c).identities
      · rw [if_pos hid] at hafter
        rcases hch.advances.entered id hid with hold | hnew
        · rw [if_pos hold] at hbefore
          exact .inl (by omega)
        · have hnone : (h.history l.tag).countP (Callback.isBind id) = 0 :=
            Nat.eq_zero_of_not_pos fun hpos => hnew (hb.known id hpos)
          refine .inr ⟨?_, hid⟩
          split at hbefore <;> omega
      · rw [if_neg hid] at hafter
        refine .inl ?_
        split at hbefore <;> omega
    · exact .inl (Nat.le_of_eq ((hgoing id).count l.tag))
  refine ⟨hinStep, fun id => ?_, fun id hpos => ?_⟩
  · rcases hbinds id with hle | ⟨hle, -⟩
    · exact hle.trans (hb.once id)
    · exact hle
  · rcases hbinds id with hle | ⟨-, hid⟩
    · exact hch.advances.known id (hb.known id (Nat.lt_of_lt_of_le hpos hle))
    · exact .inl hid

theorem Bound.read (hb : h.Bound c n l) (hbrowsed : h.Browsed h')
    (hh : ∀ tag, h'.history tag = h.history tag) : h'.Bound c n l := by
  obtain ⟨storage, -, hk⟩ := hbrowsed.collection c
  refine ⟨fun id => ?_, fun id => ?_, fun id hpos => ?_⟩
  · rw [hh, hk]
    exact hb.inStep id
  · rw [hh]
    exact hb.once id
  · rw [hh] at hpos
    exact (hbrowsed.knows id).2 (hb.known id hpos)

/-! ## Runs -/

/-- An orderly hub with a log of what its iterators yielded, in which these listeners were told of
each addition once. -/
structure Accounted (c n : Nat) (listeners : List (Attached Entry)) (log : Yields)
    (h : Hub Entry) : Prop where
  orderly : h.Orderly c n
  recorded : h.Recorded c n log
  bound : ∀ l ∈ listeners, h.Bound c n l

/-- **A step.** Each command reaches a result. -/
theorem Accounted.step (ha : h.Accounted c n listeners log) (hcommand : command.IsOrderly c)
    (hn : n + (if command.isRegister = true then 1 else 0) < 2 ^ 64) (depth : Nat) :
    ∃ answer h', h.run (depth + 1) command = .ok (answer, h') ∧
    h.Minds c n (n + if command.isRegister = true then 1 else 0) h' ∧
    ((∀ l ∈ listeners, h'.InStep c l) →
      h'.Accounted c (n + if command.isRegister = true then 1 else 0) listeners
        (log.noted command answer)) := by
  rcases hcommand with hchange | hread
  · obtain ⟨answer, h', hr, hch⟩ := ha.orderly.change hchange hn depth
    refine ⟨answer, h', hr, hch.advances.toMinds, fun hinStep => ⟨hch.orderly, ?_, fun l hl => ?_⟩⟩
    · have hlog : log.noted command answer = log := by
        rcases hchange with hcall | rfl | rfl
        · cases command <;> first | rfl | cases hcall
        · rfl
        · rfl
      rw [hlog]
      exact ha.recorded.advance hch.advances hch.oneWay.traversals
    · exact (ha.bound l hl).change hch (hinStep l hl)
  · have hown : ∀ name t, h.traversals.lookup name = some t → t.collection = c :=
      fun name t hfound => (ha.recorded.there name t hfound).1
    have hnone : command.isRegister = false := by
      rcases hread with hread | ⟨name, rfl⟩
      · cases command <;> first | rfl | cases hread
      · rfl
    obtain ⟨answer, h', hr, hb, hreads, hhistory⟩ := ha.orderly.read hown hread depth
    rw [hnone]
    refine ⟨answer, h', hr, hb.minds, fun _ => ⟨ha.orderly.browse hb, ?_, fun l hl => ?_⟩⟩
    · exact ha.recorded.read ha.orderly.stocked hb hreads
    · exact (ha.bound l hl).read hb hhistory

/-- **A run.** So do many commands, one after the other, if the listeners are in step with the
collection whenever a command has come to its end. -/
theorem Accounted.run (hinStep : ∀ done g, h₀.Reaches (depth + 1) done g →
      ∀ l ∈ listeners, g.InStep c l)
    (hreach : h₀.Reaches (depth + 1) done h) (ha : h.Accounted c n listeners log)
    (hcommands : ∀ command ∈ commands, command.IsOrderly c)
    (hn : n + commands.countP Command.isRegister < 2 ^ 64) :
    ∃ answers h', h.runAll (depth + 1) commands = .ok (answers, h') ∧
    h.Minds c n (n + commands.countP Command.isRegister) h' ∧
    h'.Accounted c (n + commands.countP Command.isRegister) listeners
      ((commands.zip answers).foldl (fun log p => log.noted p.1 p.2) log) := by
  induction commands generalizing h n log done with
  | nil => exact ⟨[], h, rfl, .refl h, ha⟩
  | cons command commands ih =>
    have hcount : n + (command :: commands).countP Command.isRegister =
        n + (if command.isRegister = true then 1 else 0) +
          commands.countP Command.isRegister := by
      rw [List.countP_cons]
      omega
    rw [hcount] at hn ⊢
    obtain ⟨answer, h₁, hr, hminds, hstep⟩ :=
      ha.step (hcommands command List.mem_cons_self) (by omega) depth
    have hreach₁ : h₀.Reaches (depth + 1) (done ++ [command]) h₁ :=
      reaches_append.2 ⟨h, hreach, reaches_cons.2 ⟨answer, h₁, hr, reaches_nil.2 rfl⟩⟩
    obtain ⟨answers, h', hrest, hminds', ha'⟩ := ih hreach₁ (hstep (hinStep _ _ hreach₁))
      (fun other hmem => hcommands other (List.mem_cons_of_mem _ hmem)) hn
    exact ⟨answer :: answers, h', runAll_cons_eq_ok.2 ⟨answer, h₁, answers, hr, hrest, rfl⟩,
      hminds.trans hminds', ha'⟩

/-- **No gaps.** A service that is in the collection before a stretch of a run and after the next
one is there in between. -/
theorem Accounted.gapless (hinStep : ∀ done g, h₀.Reaches (depth + 1) done g →
      ∀ l ∈ listeners, g.InStep c l)
    (hreach : h₀.Reaches (depth + 1) done h) (ha : h.Accounted c n listeners log)
    {first second : List (Command Entry)}
    (hcommands : ∀ command ∈ first ++ second, command.IsOrderly c)
    (hn : n + (first ++ second).countP Command.isRegister < 2 ^ 64) {g₁ g₂ : Hub Entry}
    (hfirst : h.Reaches (depth + 1) first g₁) (hsecond : g₁.Reaches (depth + 1) second g₂)
    {id : UInt64} (hbefore : id ∈ (h.collection c).identities)
    (hafter : id ∈ (g₂.collection c).identities) : id ∈ (g₁.collection c).identities := by
  rw [List.countP_append] at hn
  obtain ⟨hcommands₁, hcommands₂⟩ := List.forall_mem_append.1 hcommands
  obtain ⟨answers₁, g, hrun₁, hminds₁, hg⟩ := ha.run hinStep hreach hcommands₁ (by omega)
  obtain rfl := hfirst.unique ⟨answers₁, hrun₁⟩
  have hreach₁ := reaches_append.2 ⟨h, hreach, hfirst⟩
  obtain ⟨answers₂, g', hrun₂, hminds₂, -⟩ := hg.run hinStep hreach₁ hcommands₂ (by omega)
  obtain rfl := hsecond.unique ⟨answers₂, hrun₂⟩
  -- what was there before is known, so it does not come
  rcases hminds₂.entered id hafter with hid | hnew
  · exact hid
  · exact absurd (hminds₁.known id (.inl hbefore)) hnew

/-- The hub of a plan for references or for proxies is orderly, and nothing was yielded yet. -/
theorem accounted_ofPlans {plan : Plan Entry} {filter : ServiceFilter} {proxies : Bool}
    (hp : plan.IsPassive filter) (hfactory : plan.factory = some (.ofProxies proxies)) :
    (ofPlans [plan]).Accounted 0 0 ((ofPlans [plan]).collection 0).lifecycleListeners [] := by
  obtain ⟨hcalm, hlinked, hfresh, hnone, -⟩ := calm_ofPlans hp
  have hhub := ofPlans_singleton (hp.build hfactory)
  have htold (tag : ListenerTag) : (ofPlans [plan]).history tag = [] := told_ofPlans _ _
  refine ⟨⟨hcalm, idle_ofPlans _, ?_, ?_, hfresh.dropped, fun d hd => ?_, none, hlinked, .inl rfl⟩,
    ⟨fun _ hmem => absurd hmem List.not_mem_nil, fun name t hfound => ?_⟩,
    fun l _ => ⟨fun id => ?_, fun id => ?_, fun id hpos => ?_⟩⟩
  · rw [hhub]
    exact ⟨rfl, fun _ hmem => absurd hmem List.not_mem_nil⟩
  · rw [hhub]
    exact ⟨.nil rfl rfl, ⟨proxies, rfl⟩, fun _ hmem => absurd hmem List.not_mem_nil, .nil⟩
  · -- there is no other collection
    obtain ⟨d, rfl⟩ := Nat.exists_eq_succ_of_ne_zero hd
    rw [hhub]
    rfl
  · rw [hhub] at hfound
    cases hfound
  · rw [htold, hnone]
    rfl
  · rw [htold]
    exact Nat.zero_le _
  · rw [htold] at hpos
    cases hpos

/-- Whatever is done, the listeners of the plan are in step with the collection. -/
theorem inStep_ofPlans {plan : Plan Entry} {filter : ServiceFilter} {proxies : Bool}
    (hp : plan.IsPassive filter) (hfactory : plan.factory = some (.ofProxies proxies))
    (hreach : (ofPlans [plan]).Reaches depth done h) :
    ∀ l ∈ ((ofPlans [plan]).collection 0).lifecycleListeners, h.InStep 0 l := by
  intro l hl id
  obtain ⟨answers, hr⟩ := hreach
  have hequal : ((ofPlans [plan]).collection 0).factory.EntriesEquivalent := by
    rw [ofPlans_singleton (hp.build hfactory)]
    exact Factory.entriesEquivalent_ofProxies proxies
  -- the account of the service is even in the beginning, and stays so
  have hstart : (Account.services id).balance 0 (· == l.tag) (ofPlans [plan]) = 0 := by
    rw [Account.services, Account.balance_counting, told_ofPlans, (calm_ofPlans hp).2.2.2.1]
    rfl
  have hend := (Watch.services id).balance_runAll
    ⟨keyed_ofPlans _, .ofPlans _, hequal, hl⟩ hr
  rw [hstart, Account.services, Account.balance_counting] at hend
  exact Int.sub_eq_zero.1 hend

end Hub

/-- **Each service once.** Take a passive plan for references or for proxies, with a collection of
any kind, and carry out calls of the registry, starts, destructions, and reads through any iterators
in any order. As long as the numbers of services do not run out, all commands reach a result; each
listener is told of the addition of a service at most once; no iterator yields a service twice; and
there is no gap in the time in which a service is in the collection. -/
theorem services_once {plan : Plan Entry} {filter : ServiceFilter} {proxies : Bool}
    (hp : plan.IsPassive filter) (hfactory : plan.factory = some (.ofProxies proxies))
    {commands : List (Command Entry)} (hcommands : ∀ command ∈ commands, command.IsOrderly 0)
    (hcount : commands.countP Command.isRegister < 2 ^ 64) (depth : Nat) :
    ∃ answers h, (Hub.ofPlans [plan]).runAll (depth + 1) commands = .ok (answers, h) ∧
      (∀ l ∈ ((Hub.ofPlans [plan]).collection 0).lifecycleListeners, ∀ id,
        (h.history l.tag).countP (Callback.isBind id) ≤ 1) ∧
      (∀ p ∈ Yields.ofRun commands answers, p.2.Nodup) ∧
      ∀ first second third g₁ g₂ g₃ id, first ++ second ++ third <+: commands →
        (Hub.ofPlans [plan]).Reaches (depth + 1) first g₁ → g₁.Reaches (depth + 1) second g₂ →
        g₂.Reaches (depth + 1) third g₃ → id ∈ (g₁.collection 0).identities →
        id ∈ (g₃.collection 0).identities → id ∈ (g₂.collection 0).identities := by
  have hinStep : ∀ done g, (Hub.ofPlans [plan]).Reaches (depth + 1) done g →
      ∀ l ∈ ((Hub.ofPlans [plan]).collection 0).lifecycleListeners, g.InStep 0 l :=
    fun _ _ hreach => Hub.inStep_ofPlans hp hfactory hreach
  have hstart := Hub.accounted_ofPlans hp hfactory
  have hnone : (Hub.ofPlans [plan]).Reaches (depth + 1) [] (Hub.ofPlans [plan]) :=
    Hub.reaches_nil.2 rfl
  obtain ⟨answers, h, hr, -, ha⟩ := hstart.run hinStep hnone hcommands (by omega)
  refine ⟨answers, h, hr, fun l hl => (ha.bound l hl).once, ha.recorded.nodup, ?_⟩
  intro first second third g₁ g₂ g₃ id hpart hr₁ hr₂ hr₃ hbefore hafter
  rw [List.append_assoc] at hpart
  have hpart' : ∀ command ∈ first ++ (second ++ third), command.IsOrderly 0 :=
    fun command hmem => hcommands command (hpart.subset hmem)
  have hcount' : (first ++ (second ++ third)).countP Command.isRegister < 2 ^ 64 :=
    Nat.lt_of_le_of_lt hpart.sublist.countP_le hcount
  rw [List.countP_append] at hcount'
  obtain ⟨hfirst, hrest⟩ := List.forall_mem_append.1 hpart'
  obtain ⟨answers₁, g, hrun₁, -, hg⟩ := hstart.run hinStep hnone hfirst (by omega)
  obtain rfl := hr₁.unique ⟨answers₁, hrun₁⟩
  exact hg.gapless hinStep hr₁ hrest (by omega) hr₂ hr₃ hbefore hafter

/-! ### An iterator that is refused and goes on -/

/-- A mandatory dependency on the services in English, with a listener that only listens. -/
def Plan.overheard : Plan Entry :=
  { Plan.english with
    mandatory := true
    lifecycleListeners := [.mk "watcher" .calls fun _ _ => .silent] }

theorem Plan.passive_overheard :
    Plan.overheard.IsPassive ⟨"(lang=en)", .equal "lang" ⟨"en", []⟩⟩ where
  hasRegistry := rfl
  filter := rfl
  factory := ⟨_, rfl, Factory.isPassive_ofProxies true⟩
  lifecycle l hl := by
    obtain rfl := List.mem_singleton.1 hl
    exact fun _ _ => rfl
  state := fun _ hl => absurd hl List.not_mem_nil

/-- A service comes and goes, and another one is translated into English. -/
def Command.comeAndGo : List (Command Entry) :=
  [.register (.spoken "en"), .start 0, .iter 0 "all", .tryNext "all", .tryNext "all",
    .unregister 1, .tryNext "all", .next "all", .register (.spoken "fr"),
    .setProperties 2 (.spoken "en"), .tryNext "all", .destroy 0]

theorem Command.orderly_comeAndGo : ∀ command ∈ comeAndGo, command.IsOrderly 0 := by
  simp [comeAndGo, IsOrderly, IsChange, IsRegistryCall, IsRead]

/-- The iterator comes to its end, is refused when the first service is gone, and then yields the
second one. The listener was told of either service once. -/
theorem services_once_english :
    Plan.overheard.IsPassive ⟨"(lang=en)", .equal "lang" ⟨"en", []⟩⟩ ∧
    Plan.overheard.factory = some (.ofProxies true) ∧ ∃ answers h,
      (Hub.ofPlans [Plan.overheard]).runAll 1 Command.comeAndGo = .ok (answers, h) ∧
      answers[6]?.bind Answer.unavailable? = some "(lang=en)" ∧
      Yields.ofRun Command.comeAndGo answers = [("all", [1, 2])] ∧
      (∀ p ∈ Yields.ofRun Command.comeAndGo answers, p.2.Nodup) ∧
      ∀ l ∈ ((Hub.ofPlans [Plan.overheard]).collection 0).lifecycleListeners, ∀ id,
        (h.history l.tag).countP (Callback.isBind id) ≤ 1 := by
  have hfactory : Plan.overheard.factory = some (.ofProxies true) := rfl
  have hcount : Command.comeAndGo.countP Command.isRegister < 2 ^ 64 :=
    Nat.lt_of_le_of_lt List.countP_le_length (by decide)
  obtain ⟨answers, h, hr, honce, hyields, -⟩ :=
    services_once Plan.passive_overheard hfactory Command.orderly_comeAndGo hcount 0
  obtain ⟨⟨answers', h'⟩, hr', hseen⟩ := Run.exists_of_map_eq_ok
    (f := fun p : List Answer × Hub Entry =>
      (p.1[6]?.bind Answer.unavailable?, Yields.ofRun Command.comeAndGo p.1))
    (show ((Hub.ofPlans [Plan.overheard]).runAll 1 Command.comeAndGo).map _ =
      .ok (some "(lang=en)", [("all", [1, 2])]) by decide +kernel)
  cases hr.symm.trans hr'
  obtain ⟨hrefused, hlog⟩ := Prod.mk.inj hseen
  exact ⟨Plan.passive_overheard, hfactory, answers, h, hr, hrefused, hlog, hyields, honce⟩

end LiveServices
