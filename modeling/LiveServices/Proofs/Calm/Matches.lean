import LiveServices.Proofs.Calm.Welcome
import LiveServices.Proofs.Registry.Matching

/-!
# Services are not missed

A service comes to match the filter of a collection by being registered or by getting other
properties, and both are told to a collection that is subscribed; what was there before is told
to it when it starts. A faithful collection takes what it is told of. So from its start on it has
each service of the registry that its filter accepts (`Hub.Current`, `matches_present`).

The converse holds as long as no service ceases to match by getting other properties, which the
collection does not hear of: then it has no other services (`Hub.Exact`). Numbers are not used
twice before they run out, and so a new service does not come in the place of an old one.
-/

namespace LiveServices

namespace Command

/-- Whether a command registers a service. -/
def isRegister {E : Type} : Command E → Bool
  | .register _ => true
  | _ => false

end Command

namespace Hub

variable {c : Nat} {filter : ServiceFilter} {h h' : Hub Entry} {command : Command Entry}
  {answer : Answer}

/-- Whether a command gives a service that a filter accepts properties that it does not accept. -/
def Unmatches (filter : ServiceFilter) (command : Command Entry) (h : Hub Entry) : Prop :=
  ∃ id properties old, command = .setProperties id properties ∧ h.registry.get? id = some old ∧
    filter.accepts old.properties = true ∧
    filter.accepts (ServiceReference.new id properties).properties = false

/-- A collection that is subscribed and open and has every service that its filter accepts. -/
structure Current (c : Nat) (filter : ServiceFilter) (h : Hub Entry) : Prop where
  rising : h.registry.Rising
  subscribed : (h.collection c).subscription.isSome = true
  isOpen : (h.collection c).closed = false
  faithful : (h.collection c).Faithful
  present : ∀ x ∈ h.registry.matching filter, x ∈ (h.collection c).identities

/-- A collection has only services that its filter accepts. -/
def Exact (c : Nat) (filter : ServiceFilter) (h : Hub Entry) : Prop :=
  ∀ x ∈ (h.collection c).identities, x ∈ h.registry.matching filter

theorem Current.identities_eq (hh : h.Current c filter) (he : h.Exact c filter) :
    (h.collection c).identities = h.registry.matching filter :=
  Registry.eq_of_rising (List.pairwise_map.2 hh.faithful.rising) (hh.rising.matching filter)
    fun x => ⟨he x, hh.present x⟩

/-! ## Along the calls -/

/-- The numbers that were given out, after a call. -/
theorem Calls.issued {link : Option ServiceFilter} {n : Nat}
    (hcalls : h.Calls c link command answer h') (hi : h.registry.Issued n)
    (hn : n + (if command.isRegister = true then 1 else 0) < 2 ^ 64) :
    h'.registry.Issued (n + if command.isRegister = true then 1 else 0) := by
  -- a delivery changes neither the services nor the next number
  have hbooks : ∀ {m : Nat} {books : Registry Entry}, books.Issued m →
      books.SameBooks h'.registry → h'.registry.Issued m := fun hm hs =>
    ⟨hs.nextService.trans hm.next, hs.services ▸ hm.bound⟩
  cases hcalls with
  | registered _ hh => exact hbooks (hi.add hn _) hh.registry
  | modified hf hr hh =>
    subst hr
    exact hbooks (hi.put hf) hh.registry
  | unregistered _ hh => exact hbooks hi.remove hh.registry
  | unknown _ hcommand hh =>
    rcases hcommand with rfl | ⟨properties, rfl⟩
    · exact hbooks hi hh.registry
    · exact hbooks hi hh.registry

/-- The order of the services, after a call. -/
theorem Calls.rising {link : Option ServiceFilter} (hcalls : h.Calls c link command answer h')
    (hr : h.registry.Rising) : h'.registry.Rising := by
  unfold Registry.Rising
  cases hcalls with
  | registered _ hh =>
    rw [hh.registry.services]
    exact hr.put
  | modified _ _ hh =>
    rw [hh.registry.services]
    exact hr.put
  | unregistered _ hh =>
    rw [hh.registry.services]
    exact hr.remove
  | unknown _ _ hh =>
    rw [hh.registry.services]
    exact hr

/-- A call changes the index and the storage of a collection only. -/
theorem Calls.frame {link : Option ServiceFilter} (hcalls : h.Calls c link command answer h') :
    ∃ index storage,
      h'.collection c = { h.collection c with index := index, storage := storage } := by
  cases hcalls with
  | registered _ hch | modified _ _ hch | unregistered _ hch =>
    exact Collection.Hears?.frame hch.here
  | unknown _ _ hch => exact ⟨_, _, hch.here⟩

/-- The other collections stay as they are. -/
theorem Calls.elsewhere {link : Option ServiceFilter} (hcalls : h.Calls c link command answer h')
    {d : Nat} (hd : d ≠ c) : h'.collection d = h.collection d := by
  cases hcalls with
  | registered _ hch | modified _ _ hch | unregistered _ hch => exact hch.elsewhere d hd
  | unknown _ _ hch => exact hch.elsewhere d hd

/-- All locks are given back when a call is done. -/
theorem Calls.locks {link : Option ServiceFilter} (hcalls : h.Calls c link command answer h')
    (d : Nat) : (h'.collection d).locks = (h.collection d).locks := by
  by_cases hd : d = c
  · obtain ⟨index, storage, hframe⟩ := hcalls.frame
    rw [hd, hframe]
  · rw [hcalls.elsewhere hd]

namespace Current

/-- **Putting.** When a service is put into the registry the collection has it if the filter
accepts it; if it does not, the service must not have matched before either. -/
theorem put {r : ServiceReference} {event : ServiceEvent} {books : Registry Entry}
    (hh : h.Current c filter) (hbooks : books.services = (h.registry.put r).services)
    (hevent : event = .registered r ∨ event = .modified r)
    (hch : Hub.Changes c (Collection.Hears? (some filter) (·.accepts r.properties) event)
      { h with registry := books } h') :
    h'.Current c filter ∧
    ((filter.accepts r.properties = false → r.id ∉ h.registry.matching filter) →
      h.Exact c filter → h'.Exact c filter) := by
  have hmatch (x : UInt64) : x ∈ h'.registry.matching filter ↔
      x = r.id ∧ filter.accepts r.properties = true ∨
        x ∈ h.registry.matching filter ∧ x ≠ r.id := by
    rw [← hh.rising.mem_matching_put, Registry.matching, Registry.references,
      hch.registry.services]
    show x ∈ (List.filter _ books.services).map _ ↔ _
    rw [hbooks]
    rfl
  obtain ⟨hfaithful, hmem⟩ := hh.faithful.hears_put hh.isOpen hevent hch.here
  obtain ⟨index, storage, hframe⟩ := Collection.Hears?.frame hch.here
  refine ⟨⟨?_, ?_, ?_, hfaithful, ?_⟩, ?_⟩
  · rw [Registry.Rising, hch.registry.services]
    show books.services.Pairwise _
    rw [hbooks]
    exact hh.rising.put
  · rw [hframe]
    exact hh.subscribed
  · rw [hframe]
    exact hh.isOpen
  · intro x hx
    rcases (hmatch x).1 hx with hself | ⟨hold, -⟩
    · exact (hmem x).2 (.inr hself)
    · exact (hmem x).2 (.inl (hh.present x hold))
  · intro hnew he x hx
    rcases (hmem x).1 hx with hold | hself
    · refine (hmatch x).2 ?_
      by_cases hx : x = r.id
      · subst hx
        cases haccepts : filter.accepts r.properties with
        | true => exact .inl ⟨rfl, rfl⟩
        | false => exact absurd (he _ hold) (hnew haccepts)
      · exact .inr ⟨he x hold, hx⟩
    · exact (hmatch x).2 (.inl hself)

/-- **Taking away.** When a service is taken away that the filter accepts the collection has it no
more. -/
theorem remove {r : ServiceReference} (hh : h.Current c filter)
    (hf : h.registry.get? r.id = some r)
    (hch : Hub.Changes c
      (Collection.Hears? (some filter) (·.accepts r.properties) (.unregistering r))
      { h with registry := h.registry.remove r.id } h') :
    h'.Current c filter ∧ (h.Exact c filter → h'.Exact c filter) := by
  have hmatch (x : UInt64) : x ∈ h'.registry.matching filter ↔
      x ∈ h.registry.matching filter ∧ x ≠ r.id := by
    rw [← Registry.mem_matching_remove, Registry.matching, Registry.references,
      hch.registry.services]
    rfl
  have hmem := Collection.Hears?.unregistering hch.here
  have haccepts : r.id ∈ h.registry.matching filter ↔ filter.accepts r.properties = true :=
    hh.rising.mem_matching_iff hf
  obtain ⟨index, storage, hframe⟩ := Collection.Hears?.frame hch.here
  refine ⟨⟨?_, ?_, ?_, hh.faithful.hears_unregistering hch.here, ?_⟩, ?_⟩
  · rw [Registry.Rising, hch.registry.services]
    exact hh.rising.remove
  · rw [hframe]
    exact hh.subscribed
  · rw [hframe]
    exact hh.isOpen
  · intro x hx
    obtain ⟨hold, hne⟩ := (hmatch x).1 hx
    exact (hmem x).2 ⟨hh.present x hold, fun heq => absurd heq hne⟩
  · intro he x hx
    obtain ⟨hold, hself⟩ := (hmem x).1 hx
    refine (hmatch x).2 ⟨he x hold, ?_⟩
    -- a service that stays behind would match, and the collection would have been told
    rintro rfl
    have hno : filter.accepts r.properties = false := hself rfl
    rw [haccepts.1 (he _ hold)] at hno
    cases hno

end Current

/-- **A call.** After it the collection still has what matches, and nothing else unless a service
ceased to match. -/
theorem Calls.current (hcalls : h.Calls c (some filter) command answer h')
    (hh : h.Current c filter) : h'.Current c filter ∧
    ((command.isRegister = true → ∀ s ∈ h.registry.services, s.id ≠ h.registry.nextService) →
      ¬ h.Unmatches filter command → h.Exact c filter → h'.Exact c filter) := by
  cases hcalls with
  | registered hr hch =>
    obtain ⟨hh', hexact⟩ := hh.put (by rw [hr]; rfl) (.inl rfl) hch
    refine ⟨hh', fun hfresh _ => hexact fun _ hold => ?_⟩
    obtain ⟨s, hs, -, hid⟩ := Registry.mem_matching.1 hold
    exact hfresh rfl s hs (hid.trans (congrArg ServiceReference.id hr))
  | @modified id properties old r _ hf hr hch =>
    obtain ⟨hh', hexact⟩ := hh.put rfl (.inr rfl) hch
    refine ⟨hh', fun _ hmatch => hexact fun hno hold => hmatch ?_⟩
    subst hr
    exact ⟨id, properties, old, rfl, hf, (hh.rising.mem_matching_iff hf).1 hold, hno⟩
  | @unregistered id r _ hf hch =>
    obtain rfl := Roster.key_of_find? hf
    obtain ⟨hh', hexact⟩ := hh.remove hf hch
    exact ⟨hh', fun _ _ => hexact⟩
  | unknown _ _ hch =>
    have hbooks : h'.registry.matching filter = h.registry.matching filter := by
      rw [Registry.matching, Registry.references, hch.registry.services]
      rfl
    refine ⟨⟨?_, ?_, ?_, ?_, ?_⟩, fun _ _ he => ?_⟩
    · rw [Registry.Rising, hch.registry.services]
      exact hh.rising
    · rw [hch.here]
      exact hh.subscribed
    · rw [hch.here]
      exact hh.isOpen
    · rw [hch.here]
      exact hh.faithful
    · rw [hbooks, hch.here]
      exact hh.present
    · rw [Exact, hbooks, hch.here]
      exact he

/-! ## The start -/

/-- After a start the collection has just what matches. -/
theorem Joins.current (hj : h.Joins c h') (hf : (h.collection c).Faithful)
    (ho : (h.collection c).closed = false) (hnone : (h.collection c).identities = [])
    (hr : h.registry.Rising) : h'.Current c (h.collection c).dependency.filter ∧
    h'.Exact c (h.collection c).dependency.filter := by
  obtain ⟨k, htaken, hshelf⟩ := hj.here.taken
  obtain ⟨index, storage, id, hframe⟩ := hj.here.frame
  obtain ⟨hfaithful, hmem⟩ := hf.takesAll ho htaken
  have hbooks : h'.registry.services = h.registry.services := hj.registry.services
  have hids (x : UInt64) : x ∈ (h'.collection c).identities ↔
      x ∈ h'.registry.matching (h.collection c).dependency.filter := by
    rw [Collection.identities, hshelf.index, Registry.matching, Registry.references, hbooks]
    refine (hmem x).trans ?_
    show x ∈ (h.collection c).identities ∨ _ ↔ _
    rw [hnone]
    simp [Registry.references]
  refine ⟨⟨?_, ?_, ?_, hfaithful.of_sameShelf hshelf, fun x => (hids x).2⟩, fun x => (hids x).1⟩
  · rw [Registry.Rising, hbooks]
    exact hr
  · rw [hframe]
    rfl
  · rw [hframe]
    exact ho

/-! ## Runs -/

variable {link : Option ServiceFilter} {calls done : List (Command Entry)} {depth : Nat}

/-- The numbers that were given out and the order of the services, after calls. -/
theorem Reaches.issued (hc : h.Calm) (hl : h.registry.Linked c link)
    (hcalls : ∀ command ∈ calls, command.IsRegistryCall) (hr : h.registry.Rising)
    (hreach : h.Reaches (depth + 1) calls h') : h'.registry.Rising ∧
    ∀ n, h.registry.Issued n → n + calls.countP Command.isRegister < 2 ^ 64 →
      h'.registry.Issued (n + calls.countP Command.isRegister) := by
  have hrun := calls_induction depth
    (I := fun done g => g.registry.Rising ∧ ∀ n, h.registry.Issued n →
      n + done.countP Command.isRegister < 2 ^ 64 →
      g.registry.Issued (n + done.countP Command.isRegister)) hc hl hcalls
  obtain ⟨g, hg, -, -, hall⟩ := hrun ⟨hr, fun n hi _ => hi⟩
    (fun {done command g answer g'} _ _ hcall ⟨hrising, hissued⟩ => by
      refine ⟨hcall.rising hrising, fun n hi hn => ?_⟩
      rw [List.countP_append, List.countP_singleton, ← Nat.add_assoc] at hn ⊢
      exact hcall.issued (hissued n hi (by omega)) hn)
    calls (List.prefix_refl _)
  obtain rfl := hg.unique hreach
  exact hall

/-- **Along the calls.** A collection that is current stays so, and it is exact as long as no
service ceases to match. -/
theorem current_along {n : Nat} (depth : Nat) (hc : h.Calm) (hl : h.registry.Linked c (some filter))
    (hcalls : ∀ command ∈ calls, command.IsRegistryCall) (hh : h.Current c filter)
    (he : h.Exact c filter) (hi : n < 2 ^ 64 → h.registry.Issued n) (hdone : done <+: calls) :
    ∃ g, h.Reaches (depth + 1) done g ∧ g.Current c filter ∧
      (n + done.countP Command.isRegister < 2 ^ 64 →
        (∀ earlier command g, earlier ++ [command] <+: done →
          h.Reaches (depth + 1) earlier g → ¬ g.Unmatches filter command) →
        g.Exact c filter) := by
  have hrun := calls_induction depth
    (I := fun done g => g.Current c filter ∧
      (n + done.countP Command.isRegister < 2 ^ 64 →
        (∀ earlier command g, earlier ++ [command] <+: done →
          h.Reaches (depth + 1) earlier g → ¬ g.Unmatches filter command) →
        g.Exact c filter)) hc hl hcalls
  obtain ⟨g, hg, -, -, hall⟩ := hrun ⟨hh, fun _ _ => he⟩
    (fun {done command g answer g'} hdone hreach hcall ⟨hcurrent, hexact⟩ => by
      obtain ⟨hcurrent', hexact'⟩ := hcall.current hcurrent
      refine ⟨hcurrent', fun hn hmatch => ?_⟩
      rw [List.countP_append, List.countP_singleton, ← Nat.add_assoc] at hn
      refine hexact' (fun hregister => ?_) (hmatch done command g (List.prefix_refl _) hreach) ?_
      · -- the number of the new service is not in use
        have hcalls' : ∀ other ∈ done, other.IsRegistryCall := fun other hmem =>
          hcalls other (hdone.subset (List.mem_append_left _ hmem))
        rw [if_pos hregister] at hn
        have hissued := (hreach.issued hc hl hcalls' hh.rising).2 n (hi (by omega)) (by omega)
        exact hissued.next_notMem hn
      · refine hexact (by omega) fun earlier other g hearlier => ?_
        exact hmatch earlier other g (hearlier.trans (List.prefix_append _ _)))
    done hdone
  exact ⟨g, hg, hall⟩

end Hub

/-- **No service is missed.** Take a passive plan for references or proxies with a welcoming mode,
and let the registry be called for anything before the collection is started and afterwards.
Every call reaches a result, and the started collection has each service of the registry that its
filter accepts; it has no others if no service ceased to match since the start and the numbers of
services did not run out. -/
theorem matches_present {plan : Plan Entry} {filter : ServiceFilter} {proxies : Bool}
    (hp : plan.IsPassive filter) (hfactory : plan.factory = some (.ofProxies proxies))
    (hmode : plan.mode.IsWelcoming) {before calls : List (Command Entry)}
    (hbefore : ∀ command ∈ before, command.IsRegistryCall)
    (hcalls : ∀ command ∈ calls, command.IsRegistryCall) (depth : Nat) :
    ∃ h₀, (Hub.ofPlans [plan]).Reaches (depth + 1) (before ++ [.start 0]) h₀ ∧
      ∀ done, done <+: calls → ∃ h, h₀.Reaches (depth + 1) done h ∧
        (h.collection 0).subscription.isSome = true ∧ (h.collection 0).closed = false ∧
        (∀ r ∈ h.registry.references filter, r.id ∈ (h.collection 0).identities) ∧
        ((before ++ done).countP Command.isRegister < 2 ^ 64 →
          (∀ earlier command g, earlier ++ [command] <+: done →
            h₀.Reaches (depth + 1) earlier g → ¬ g.Unmatches filter command) →
          (h.collection 0).identities =
            (h.registry.references filter).map ServiceReference.id) := by
  obtain ⟨hcalm, hlinked, hfresh, hnone, hfilter⟩ := Hub.calm_ofPlans hp
  have hhub := Hub.ofPlans_singleton (hp.build hfactory)
  have hempty : (Hub.ofPlans [plan]).registry.services = [] := by rw [hhub]
  have hfaithful : ((Hub.ofPlans [plan]).collection 0).Faithful := by
    rw [hhub]
    exact ⟨.nil rfl rfl, hmode, ⟨proxies, rfl⟩, fun _ hmem => absurd hmem List.not_mem_nil, .nil⟩
  -- before the start only the registry changes
  obtain ⟨h₁, hr₁, hcalm₁, hlinked₁, hstay⟩ := Hub.calls_total hcalm hlinked hbefore depth
  have hk₁ := hstay rfl
  obtain ⟨hrising₁, hissued₁⟩ := hr₁.issued hcalm hlinked hbefore
    (by rw [Registry.Rising, hempty]; exact .nil)
  have hissued₁ : before.countP Command.isRegister < 2 ^ 64 →
      h₁.registry.Issued (before.countP Command.isRegister) := fun hn => by
    have hi := hissued₁ 0 ⟨by rw [hhub]; rfl, by simp [hempty]⟩ (by omega)
    rwa [Nat.zero_add] at hi
  obtain ⟨answer, h₀, hstart, hcalm₀, hlinked₀, hj⟩ :=
    Hub.join_total hcalm₁ hlinked₁ (hk₁ ▸ hfresh) depth
  obtain ⟨hcurrent, hexact⟩ := hj.current (hk₁ ▸ hfaithful) (hk₁ ▸ hfresh.closed)
    (hk₁ ▸ hnone) hrising₁
  rw [hk₁, hfilter] at hlinked₀ hcurrent hexact
  refine ⟨h₀, ?_, fun done hdone => ?_⟩
  · refine Hub.reaches_append.2 ⟨h₁, hr₁, ?_⟩
    exact Hub.reaches_cons.2 ⟨answer, h₀, hstart, Hub.reaches_nil.2 rfl⟩
  have hissued₀ : before.countP Command.isRegister < 2 ^ 64 →
      h₀.registry.Issued (before.countP Command.isRegister) := fun hn =>
    ⟨hj.registry.nextService.trans (hissued₁ hn).next,
      hj.registry.services ▸ (hissued₁ hn).bound⟩
  obtain ⟨h, hr, hcurrent', hexact'⟩ := Hub.current_along depth hcalm₀ hlinked₀ hcalls
    hcurrent hexact hissued₀ hdone
  refine ⟨h, hr, hcurrent'.subscribed, hcurrent'.isOpen, fun r hmem => ?_, fun hn hmatch => ?_⟩
  · exact hcurrent'.present _ (List.mem_map_of_mem hmem)
  · rw [List.countP_append] at hn
    exact hcurrent'.identities_eq (hexact' hn hmatch)

/-- A service in English is there before the start; another one is translated into English, and
then the first is taken away. -/
theorem matches_present_english :
    Plan.english.IsPassive ⟨"(lang=en)", .equal "lang" ⟨"en", []⟩⟩ ∧
    Plan.english.factory = some (.ofProxies true) ∧ Plan.english.mode.IsWelcoming ∧
    ∃ h₀ h, (Hub.ofPlans [Plan.english]).Reaches 1 [.register (.spoken "en"), .start 0] h₀ ∧
      h₀.Reaches 1 [.register (.spoken "fr"), .setProperties 2 (.spoken "en"), .unregister 1] h ∧
      (h.collection 0).identities =
        (h.registry.references ⟨"(lang=en)", .equal "lang" ⟨"en", []⟩⟩).map
          ServiceReference.id := by
  have hbefore : ∀ command ∈ ([.register (.spoken "en")] : List (Command Entry)),
      command.IsRegistryCall := by simp [Command.IsRegistryCall]
  have hcalls : ∀ command ∈ ([.register (.spoken "fr"), .setProperties 2 (.spoken "en"),
      .unregister 1] : List (Command Entry)), command.IsRegistryCall := by
    simp [Command.IsRegistryCall]
  have hfactory : Plan.english.factory = some (.ofProxies true) := rfl
  obtain ⟨h₀, hr₀, hall⟩ := matches_present Plan.passive_english hfactory .list hbefore hcalls 0
  obtain ⟨h, hr, -, -, -, hexact⟩ := hall _ (List.prefix_refl _)
  refine ⟨Plan.passive_english, rfl, .list, h₀, h, hr₀, hr, hexact ?_ ?_⟩
  · exact Nat.lt_of_le_of_lt List.countP_le_length (by simp)
  · -- the one service that is changed matches afterwards
    rintro earlier command g hearlier - ⟨id, properties, old, rfl, -, -, hno⟩
    have hmem := hearlier.subset (List.mem_append_right earlier List.mem_cons_self)
    obtain ⟨rfl, rfl⟩ : id = 2 ∧ properties = .spoken "en" := by simpa using hmem
    have haccepts : ServiceFilter.accepts ⟨"(lang=en)", .equal "lang" ⟨"en", []⟩⟩
        (ServiceReference.new 2 (.spoken "en")).properties = true := by decide +kernel
    rw [haccepts] at hno
    cases hno

end LiveServices
