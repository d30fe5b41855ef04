import LiveServices.Proofs.Calm.Matches
import LiveServices.Proofs.Calm.Reads
import LiveServices.Proofs.Registry.Replica

/-!
# Services that were refused

A sorted set with a sort key keeps one service of each rank. A service whose rank is taken is
refused, and nobody tells the collection of it again when the other one has left. So a mandatory
collection may be unavailable while a service matches (`unavailable_despite_match`).

This is the only way in which it comes about. A collection that is told of a service has it then,
or it has a rival of it (`Collection.Covers`); a service that the collection has stays in it
until it is unregistered, and a service that gets other properties is told of again. So along
every run of calls and reads each service that matches is in the collection, or it was there with
the same properties when the collection had a rival of it (`Hub.Serves.accounted`). An unavailable
collection has no services, and only a sorted set with a sort key has rivals
(`unavailable_refused`).
-/

namespace LiveServices

/-! ## Collections with rivals -/

namespace Collection

variable {k k' : Collection Entry} {r : ServiceReference} {services : List ServiceReference}
  {filter : ServiceFilter} {event : ServiceEvent}

/-- A collection has a service, or it has a rival of it. -/
def Covers (k : Collection Entry) (r : ServiceReference) : Prop :=
  r.id ∈ k.identities ∨ k.HasRival r

/-- A rival stays one when more entries come. -/
theorem HasRival.mono (hr : k.HasRival r) (hm : k'.mode = k.mode)
    (hs : k.storage.items ⊆ k'.storage.items) : k'.HasRival r := by
  obtain ⟨x, hx, hne, hrival⟩ := hr
  exact ⟨x, hs hx, hne, hm ▸ hrival⟩

/-- A collection that gets more services and more entries covers what it covered. -/
theorem Covers.mono (hr : k.Covers r) (hm : k'.mode = k.mode)
    (hi : k.identities ⊆ k'.identities) (hs : k.storage.items ⊆ k'.storage.items) :
    k'.Covers r :=
  hr.imp (fun hin => hi hin) fun hrival => hrival.mono hm hs

/-- Nothing is lost when a service is taken. -/
theorem Takes.items_subset (ht : k.Takes r k') : k.storage.items ⊆ k'.storage.items := by
  cases ht with
  | passed | unmade | refused => exact fun _ hx => hx
  | admitted _ _ _ ht =>
    intro x hx
    exact (LiveSequence.items_append_perm ht).mem_iff.2 (List.mem_cons_of_mem _ hx)

namespace Stocked

/-- An open collection covers the service that it is told of. -/
theorem takes_subset (hk : k.Stocked) (ho : k.closed = false) (ht : k.Takes r k') :
    k'.Stocked ∧ k.identities ⊆ k'.identities ∧ k'.Covers r := by
  obtain ⟨hk', hmem | ⟨rfl, hrival⟩⟩ := hk.takes ho ht
  · exact ⟨hk', fun x hx => (hmem x).2 (.inl hx), .inl ((hmem r.id).2 (.inr rfl))⟩
  · exact ⟨hk', fun _ hx => hx, .inr hrival⟩

/-- An open collection covers all services that it is told of. -/
theorem takesAll (hk : k.Stocked) (ho : k.closed = false) (ht : TakesAll services k k') :
    k'.Stocked ∧ k.identities ⊆ k'.identities ∧ k.storage.items ⊆ k'.storage.items ∧
    ∀ r ∈ services, k'.Covers r := by
  induction ht with
  | nil k => exact ⟨hk, fun _ hx => hx, fun _ hx => hx, fun r hr => absurd hr List.not_mem_nil⟩
  | @cons r services k k₁ k' ht hs ih =>
    obtain ⟨hk₁, hids, hself⟩ := hk.takes_subset ho ht
    have hitems := ht.items_subset
    have hmode₁ : k'.mode = k₁.mode := by
      obtain ⟨index, storage, hframe⟩ := hs.gains.frame
      rw [hframe]
    have ho₁ : k₁.closed = false := by
      obtain ⟨index, storage, hframe⟩ := ht.gains.frame
      rw [hframe]
      exact ho
    obtain ⟨hk', hids', hitems', hall⟩ := ih hk₁ ho₁
    refine ⟨hk', fun _ hx => hids' (hids hx), fun _ hx => hitems' (hitems hx), fun s hmem => ?_⟩
    rcases List.mem_cons.1 hmem with rfl | hmem
    · exact hself.mono hmode₁ hids' hitems'
    · exact hall s hmem

/-- A service that appears or is updated is covered, if the filter accepts it. -/
theorem hears_put (hk : k.Stocked) (ho : k.closed = false)
    (hevent : event = .registered r ∨ event = .modified r)
    (hh : k.Hears? (some filter) (·.accepts r.properties) event k') :
    k'.Stocked ∧ k.identities ⊆ k'.identities ∧
    (filter.accepts r.properties = true → k'.Covers r) := by
  unfold Hears? at hh
  split at hh
  · have ht : k.Takes r k' := by
      rcases hevent with rfl | rfl
      · exact hh
      · exact hh
    obtain ⟨hk', hids, hself⟩ := hk.takes_subset ho ht
    exact ⟨hk', hids, fun _ => hself⟩
  · next hno =>
    rw [hh]
    exact ⟨hk, fun _ hx => hx, fun haccepts => absurd haccepts hno⟩

/-- A service that disappears is the only one that leaves. -/
theorem hears_unregistering (hk : k.Stocked)
    (hh : k.Hears? (some filter) (·.accepts r.properties) (.unregistering r) k') :
    k'.Stocked ∧ ∀ x ∈ k.identities, x ≠ r.id → x ∈ k'.identities := by
  refine ⟨?_, fun x hx hne => (hh.unregistering x).2 ⟨hx, fun heq => absurd heq hne⟩⟩
  unfold Hears? at hh
  split at hh
  · exact hk.drops hh
  · exact hh ▸ hk

end Stocked

end Collection

/-! ## Steps -/

namespace Hub

variable {c : Nat} {mode : Mode Entry} {filter : ServiceFilter} {h h' : Hub Entry}
  {command : Command Entry} {answer : Answer}

/-- A collection of references or proxies that is subscribed and open, in a hub in which no lock is
taken and no other collection lacks what it needs. -/
structure Serves (c : Nat) (mode : Mode Entry) (h : Hub Entry) : Prop where
  rising : h.registry.Rising
  subscribed : (h.collection c).subscription.isSome = true
  isOpen : (h.collection c).closed = false
  mode : (h.collection c).mode = mode
  stocked : (h.collection c).Stocked
  idle : h.Idle
  others : ∀ d, d ≠ c → (h.collection d).check = .ok ()

/-- Each service that matches is covered, or it matched before and the collection did not lose
it. -/
def Accounts (c : Nat) (filter : ServiceFilter) (h h' : Hub Entry) : Prop :=
  ∀ r ∈ h'.registry.references filter, (h'.collection c).Covers r ∨
    r ∈ h.registry.references filter ∧
      (r.id ∈ (h.collection c).identities → r.id ∈ (h'.collection c).identities)

/-- A collection of which only the entries have changed. -/
theorem Serves.of_frame (hs : h.Serves c mode) (hrising : h'.registry.Rising)
    (hstocked : (h'.collection c).Stocked) (hidle : h'.Idle)
    (hothers : ∀ d, d ≠ c → (h'.collection d).check = .ok ())
    (hframe : ∃ index storage,
      h'.collection c = { h.collection c with index := index, storage := storage }) :
    h'.Serves c mode := by
  obtain ⟨index, storage, hframe⟩ := hframe
  refine ⟨hrising, ?_, ?_, ?_, hstocked, hidle, hothers⟩
  · rw [hframe]
    exact hs.subscribed
  · rw [hframe]
    exact hs.isOpen
  · rw [hframe]
    exact hs.mode

/-- A collection after a change of its entries and of the services in the registry. -/
theorem Serves.changed {R : Collection Entry → Collection Entry → Prop} {books : Registry Entry}
    (hs : h.Serves c mode) (hch : Hub.Changes c R { h with registry := books } h')
    (hrising : books.Rising) (hstocked : (h'.collection c).Stocked)
    (hframe : ∃ index storage,
      h'.collection c = { h.collection c with index := index, storage := storage }) :
    h'.Serves c mode := by
  refine hs.of_frame ?_ hstocked (fun d => ?_) (fun d hd => ?_) hframe
  · rw [Registry.Rising, hch.registry.services]
    exact hrising
  · obtain ⟨index, storage, hframe⟩ := hframe
    by_cases hd : d = c
    · rw [hd, hframe]
      exact hs.idle c
    · rw [hch.elsewhere d hd]
      exact hs.idle d
  · rw [hch.elsewhere d hd]
    exact hs.others d hd

/-- **Putting.** A service that is put into the registry is covered then, if it matches. -/
theorem Serves.put {r : ServiceReference} {event : ServiceEvent} {books : Registry Entry}
    (hs : h.Serves c mode) (hbooks : books.services = (h.registry.put r).services)
    (hevent : event = .registered r ∨ event = .modified r)
    (hch : Hub.Changes c (Collection.Hears? (some filter) (·.accepts r.properties) event)
      { h with registry := books } h') : h'.Serves c mode ∧ h.Accounts c filter h' := by
  obtain ⟨hstocked, hids, hself⟩ := hs.stocked.hears_put hs.isOpen hevent hch.here
  refine ⟨hs.changed hch ?_ hstocked (Collection.Hears?.frame hch.here), ?_⟩
  · rw [Registry.Rising, hbooks]
    exact hs.rising.put
  · intro s hmem
    rw [Registry.references, hch.registry.services] at hmem
    replace hmem : s ∈ (h.registry.put r).references filter := by
      rw [Registry.references, ← hbooks]
      exact hmem
    rcases hs.rising.mem_references_put.1 hmem with ⟨haccepts, rfl⟩ | ⟨hold, -⟩
    · exact .inl (hself haccepts)
    · exact .inr ⟨hold, fun hin => hids hin⟩

/-- **Taking away.** Of the services that matched only the one that is taken away is lost. -/
theorem Serves.remove {r : ServiceReference} (hs : h.Serves c mode)
    (hch : Hub.Changes c
      (Collection.Hears? (some filter) (·.accepts r.properties) (.unregistering r))
      { h with registry := h.registry.remove r.id } h') :
    h'.Serves c mode ∧ h.Accounts c filter h' := by
  obtain ⟨hstocked, hids⟩ := hs.stocked.hears_unregistering hch.here
  refine ⟨hs.changed hch hs.rising.remove hstocked (Collection.Hears?.frame hch.here), ?_⟩
  intro s hmem
  rw [Registry.references, hch.registry.services] at hmem
  obtain ⟨hold, hne⟩ := Registry.mem_references_remove.1 hmem
  exact .inr ⟨hold, fun hin => hids _ hin hne⟩

/-- A call of the registry. -/
theorem Serves.call (hs : h.Serves c mode) (hcall : h.Calls c (some filter) command answer h') :
    h'.Serves c mode ∧ h.Accounts c filter h' := by
  cases hcall with
  | registered hr hch => exact hs.put (by rw [hr]; rfl) (.inl rfl) hch
  | modified _ hr hch => exact hs.put rfl (.inr rfl) hch
  | unregistered hf hch =>
    obtain rfl := Roster.key_of_find? hf
    exact hs.remove hch
  | unknown _ _ hch =>
    have hbooks : { h with registry := h.registry }.Changes c (fun k k' => k' = k) h' := hch
    refine ⟨hs.changed hbooks hs.rising ?_ ⟨_, _, hch.here⟩, fun r hr => .inr ?_⟩
    · rw [hch.here]
      exact hs.stocked
    · rw [Registry.references, hch.registry.services] at hr
      rw [hch.here]
      exact ⟨hr, id⟩

/-- A read. -/
theorem Serves.browse (hs : h.Serves c mode) (hb : h.Browsed h') :
    h'.Serves c mode ∧ h.Accounts c filter h' := by
  obtain ⟨storage, hitems, hframe⟩ := hb.collection c
  have hsame : (h.collection c).SameEntries (h'.collection c) := by
    rw [hframe]
    exact ⟨rfl, rfl, hitems⟩
  refine ⟨?_, fun r hr => .inr ?_⟩
  · exact hs.of_frame (hb.registry ▸ hs.rising) (hs.stocked.of_sameEntries hsame)
      (hb.idle hs.idle) (fun d hd => (hb.check d).trans (hs.others d hd)) ⟨_, storage, hframe⟩
  · rw [hsame.identities]
    exact ⟨hb.registry ▸ hr, id⟩

/-! ## Runs -/

variable {depth : Nat} {h₀ : Hub Entry} {commands done : List (Command Entry)}

/-- After a start each service that matches is covered. -/
theorem Joins.serves (hj : h.Joins c h') (hk : (h.collection c).Stocked)
    (hf : (h.collection c).Fresh) (hr : h.registry.Rising)
    (hothers : ∀ d, d ≠ c → h.collection d = .absent) : h'.Serves c (h.collection c).mode ∧
    ∀ r ∈ h'.registry.references (h.collection c).dependency.filter,
      (h'.collection c).Covers r := by
  obtain ⟨k, htaken, hshelf⟩ := hj.here.taken
  obtain ⟨index, storage, id, hframe⟩ := hj.here.frame
  obtain ⟨hk', -, -, hall⟩ := hk.takesAll hf.closed htaken
  have hsame : k.SameEntries (h'.collection c) :=
    ⟨hshelf.factory, hshelf.index, congrArg LiveSequence.items hshelf.storage⟩
  have hbooks : h'.registry.services = h.registry.services := hj.registry.services
  refine ⟨⟨?_, ?_, ?_, ?_, hk'.of_sameEntries hsame, fun d => ?_, fun d hd => ?_⟩, fun r hmem => ?_⟩
  · rw [Registry.Rising, hbooks]
    exact hr
  · rw [hframe]
    rfl
  · rw [hframe]
    exact hf.closed
  · rw [hframe]
    rfl
  · by_cases hd : d = c
    · rw [hd, hframe]
      exact hf.locks
    · rw [hj.elsewhere d hd]
      exact congrArg Collection.locks (hothers d hd)
  · rw [hj.elsewhere d hd]
    exact congrArg Collection.check (hothers d hd)
  · rw [Registry.references, hbooks] at hmem
    exact (hall r hmem).mono hshelf.mode (fun _ hx => hsame.identities ▸ hx)
      fun _ hx => hsame.items ▸ hx

/-- Since a hub it happened that a service was in the registry, as this reference says, while the
collection had an entry of another service that leaves no place for it. -/
def Rivalled (c : Nat) (mode : Mode Entry) (depth : Nat) (h₀ : Hub Entry)
    (done : List (Command Entry)) (r : ServiceReference) : Prop :=
  ∃ earlier g, earlier <+: done ∧ h₀.Reaches depth earlier g ∧ r ∈ g.registry.services ∧
    ∃ x ∈ (g.collection c).storage.items, x.service.id ≠ r.id ∧ mode.Rivals x r

/-- A call or a read reaches a result, and it leaves no service out that matches. -/
theorem Serves.step (hs : h.Serves c mode) (hc : h.Calm) (hl : h.registry.Linked c (some filter))
    (hcommand : command.IsRegistryCall ∨ command.IsRead) (depth : Nat) :
    ∃ answer h', h.run (depth + 1) command = .ok (answer, h') ∧ h'.Serves c mode ∧ h'.Calm ∧
    h'.registry.Linked c (some filter) ∧ h.Accounts c filter h' := by
  rcases hcommand with hcall | hread
  · obtain ⟨answer, h', hrun, hcalls, hc', hl'⟩ := call_total hc hl hcall depth
    obtain ⟨hs', haccounts⟩ := hs.call hcalls
    exact ⟨answer, h', hrun, hs', hc', hl', haccounts⟩
  · obtain ⟨answer, h', hrun, hb, -⟩ := read_total hs.idle hread depth
    obtain ⟨hs', haccounts⟩ := hs.browse hb
    exact ⟨answer, h', hrun, hs', hb.calm hc, hb.registry ▸ hl, haccounts⟩

/-- **Along the commands.** Each service that matches is in the collection, or it had a rival
there. -/
theorem Serves.accounted (hs : h₀.Serves c mode) (hc : h₀.Calm)
    (hl : h₀.registry.Linked c (some filter))
    (hstart : ∀ r ∈ h₀.registry.references filter, (h₀.collection c).Covers r)
    (hcommands : ∀ command ∈ commands, command.IsRegistryCall ∨ command.IsRead) (depth : Nat)
    (hdone : done <+: commands) :
    ∃ g, h₀.Reaches (depth + 1) done g ∧ g.Serves c mode ∧ g.Calm ∧
    g.registry.Linked c (some filter) ∧ ∀ r ∈ g.registry.references filter,
      r.id ∈ (g.collection c).identities ∨ Rivalled c mode (depth + 1) h₀ done r := by
  -- a rival in a hub that the commands reach is one that the whole run has seen
  have hseen {done : List (Command Entry)} {g : Hub Entry} {r : ServiceReference}
      (hreach : h₀.Reaches (depth + 1) done g) (hg : g.Serves c mode)
      (hr : r ∈ g.registry.references filter) (hrival : (g.collection c).HasRival r) :
      Rivalled c mode (depth + 1) h₀ done r := by
    obtain ⟨x, hx, hne, hrival⟩ := hrival
    exact ⟨done, g, List.prefix_refl _, hreach, (Registry.mem_references.1 hr).1, x, hx, hne,
      hg.mode ▸ hrival⟩
  induction done using List.reverseRecOn with
  | nil =>
    have hreach : h₀.Reaches (depth + 1) [] h₀ := reaches_nil.2 rfl
    exact ⟨h₀, hreach, hs, hc, hl, fun r hr => (hstart r hr).imp_right (hseen hreach hs hr)⟩
  | append_singleton done command ih =>
    obtain ⟨g, hreach, hg, hcalm, hlinked, hall⟩ := ih ((List.prefix_append _ _).trans hdone)
    obtain ⟨answer, g', hrun, hg', hcalm', hlinked', haccounts⟩ :=
      hg.step hcalm hlinked (hcommands command (hdone.subset (by simp))) depth
    have hreach' : h₀.Reaches (depth + 1) (done ++ [command]) g' :=
      reaches_append.2 ⟨g, hreach, reaches_cons.2 ⟨answer, g', hrun, reaches_nil.2 rfl⟩⟩
    refine ⟨g', hreach', hg', hcalm', hlinked', fun r hr => ?_⟩
    rcases haccounts r hr with hnow | ⟨hold, hkept⟩
    · exact hnow.imp_right (hseen hreach' hg' hr)
    · refine (hall r hold).imp hkept fun ⟨earlier, g, hearlier, hrest⟩ => ?_
      exact ⟨earlier, g, hearlier.trans (List.prefix_append _ _), hrest⟩

/-- A hub in which some collection lacks what it needs has no services in this one. -/
theorem Serves.identities_eq_nil (hs : h.Serves c mode) {d : Nat}
    (hd : (h.collection d).check ≠ .ok ()) : (h.collection c).identities = [] := by
  have hdc : d = c := Decidable.byContradiction fun hne => hd (hs.others d hne)
  obtain ⟨proxies, hfactory⟩ := hs.stocked.factory
  have hsize := hs.stocked.sound.size_eq (hfactory ▸ Factory.entriesEquivalent_ofProxies proxies)
  rw [(Collection.size_of_check (hdc ▸ hd)).2] at hsize
  exact List.eq_nil_of_length_eq_zero hsize.symm

/-- Calls of the registry change no other collection. -/
theorem Reaches.elsewhere {link : Option ServiceFilter} (hc : h.Calm)
    (hl : h.registry.Linked c link) (hcalls : ∀ command ∈ commands, command.IsRegistryCall)
    (hr : h.Reaches (depth + 1) commands h') {d : Nat} (hd : d ≠ c) :
    h'.collection d = h.collection d := by
  obtain ⟨g, hg, -, -, hsame⟩ := calls_induction depth
    (I := fun _ g => g.collection d = h.collection d) hc hl hcalls rfl
    (fun {done command g answer g'} _ _ hcall hsame => by
      refine Eq.trans ?_ hsame
      cases hcall with
      | registered _ hch => exact hch.elsewhere d hd
      | modified _ _ hch => exact hch.elsewhere d hd
      | unregistered _ hch => exact hch.elsewhere d hd
      | unknown _ _ hch => exact hch.elsewhere d hd)
    commands (List.prefix_refl _)
  obtain rfl := hg.unique hr
  exact hsame

/-- A passive plan for references or proxies, after calls of the registry and a start. -/
theorem launch {plan : Plan Entry} {proxies : Bool} (hp : plan.IsPassive filter)
    (hfactory : plan.factory = some (.ofProxies proxies)) {before : List (Command Entry)}
    (hbefore : ∀ command ∈ before, command.IsRegistryCall) (depth : Nat) :
    ∃ h₀, (ofPlans [plan]).Reaches (depth + 1) (before ++ [.start 0]) h₀ ∧ h₀.Calm ∧
    h₀.registry.Linked 0 (some filter) ∧ h₀.Serves 0 plan.mode ∧
    ∀ r ∈ h₀.registry.references filter, (h₀.collection 0).Covers r := by
  obtain ⟨hcalm, hlinked, hfresh, -, hfilter⟩ := calm_ofPlans hp
  have hhub := ofPlans_singleton (hp.build hfactory)
  have hmode : ((ofPlans [plan]).collection 0).mode = plan.mode := by
    rw [hhub]
    rfl
  have hstocked : ((ofPlans [plan]).collection 0).Stocked := by
    rw [hhub]
    exact ⟨.nil rfl rfl, ⟨proxies, rfl⟩, fun _ hmem => absurd hmem List.not_mem_nil, .nil⟩
  have hothers : ∀ d, d ≠ 0 → (ofPlans [plan]).collection d = .absent := by
    intro d hd
    rw [hhub]
    cases d with
    | zero => exact absurd rfl hd
    | succ d => rfl
  -- before the start only the registry changes
  obtain ⟨h₁, hr₁, hcalm₁, hlinked₁, hstay⟩ := calls_total hcalm hlinked hbefore depth
  have hk₁ := hstay rfl
  have hrising₁ : h₁.registry.Rising :=
    (hr₁.issued hcalm hlinked hbefore (by rw [Registry.Rising, hhub]; exact .nil)).1
  obtain ⟨answer, h₀, hstart, hcalm₀, hlinked₀, hj⟩ :=
    join_total hcalm₁ hlinked₁ (hk₁ ▸ hfresh) depth
  obtain ⟨hserves, hall⟩ := hj.serves (hk₁ ▸ hstocked) (hk₁ ▸ hfresh) hrising₁ fun d hd =>
    (hr₁.elsewhere hcalm hlinked hbefore hd).trans (hothers d hd)
  rw [hk₁, hfilter] at hlinked₀ hall
  rw [hk₁, hmode] at hserves
  refine ⟨h₀, reaches_append.2 ⟨h₁, hr₁, ?_⟩, hcalm₀, hlinked₀, hserves, hall⟩
  exact reaches_cons.2 ⟨answer, h₀, hstart, reaches_nil.2 rfl⟩

end Hub

/-! ## Configurations -/

/-- A configuration that is valid has a filter. -/
theorem ImporterConfig.exists_filter {config : ImporterConfig} (hv : config.validate = .ok ()) :
    ∃ filter, config.parsedFilter = .ok filter := by
  unfold validate at hv
  split at hv
  · cases hv
  · split at hv
    · cases hv
    · obtain ⟨filter, hf, -⟩ := Run.exists_of_map_eq_ok hv
      exact ⟨filter, hf⟩

/-- A configuration for references or proxies makes a passive plan, if the listeners that are added
to it are passive. -/
theorem Plan.passive_ofConfig {config : ImporterConfig} {filter : ServiceFilter} {proxies : Bool}
    {plan : Plan Entry} (hp : Plan.ofConfig config (.ofProxies proxies) = .ok plan)
    (hf : config.parsedFilter = .ok filter) {lifecycle state : List (Listener Entry)}
    (hlifecycle : ∀ l ∈ lifecycle, l.IsPassive) (hstate : ∀ l ∈ state, l.IsPassive) :
    ({ plan with lifecycleListeners := lifecycle, stateListeners := state } :
      Plan Entry).IsPassive filter ∧ plan.factory = some (.ofProxies proxies) := by
  obtain ⟨-, filter', hf', rfl⟩ := ofConfig_eq_ok.1 hp
  obtain rfl := Except.ok.inj (hf'.symm.trans hf)
  exact ⟨⟨rfl, rfl, ⟨_, rfl, Factory.isPassive_ofProxies proxies⟩, hlifecycle, hstate⟩, rfl⟩

/-- In a configured collection services of different numbers are rivals only if it is a sorted set
and they are of one rank by its sort key. -/
theorem Plan.rivals_ofConfig {config : ImporterConfig} {factory : Factory Entry} {plan : Plan Entry}
    (hp : Plan.ofConfig config factory = .ok plan) {x : Entry} {r : ServiceReference}
    (hr : plan.mode.Rivals x r) (hne : x.service.id ≠ r.id) : config.collection = .sortedSet ∧
    ∃ key, config.sortBy = some key ∧ ServiceReference.orderBy key x.service r = .eq := by
  obtain ⟨-, filter, -, rfl⟩ := ofConfig_eq_ok.1 hp
  obtain ⟨order, hmode, entry, rfl, heq⟩ := hr
  cases hkind : config.collection with
  | list | set | sortedList =>
    rw [hkind] at hmode
    cases hmode
  | sortedSet =>
    rw [hkind] at hmode
    obtain rfl := Mode.sortedSet.inj hmode
    have heq : config.order x.service entry.service = .eq := heq
    cases hkey : config.sortBy with
    | none =>
      rw [ImporterConfig.order, hkey] at heq
      exact absurd (ServiceReference.id_of_naturalOrder heq) hne
    | some key =>
      rw [ImporterConfig.order, hkey] at heq
      exact ⟨rfl, key, rfl, heq⟩

/-- **Unavailability.** Configure a collection of references or proxies validly, with listeners that
give no commands, and let the registry be called for anything before it is started; afterwards let
the registry be called and the collection be read. Every command reaches a result. A read answers
that no service is there only if each service that matches has been refused: the collection is a
sorted set with a sort key, and since the start there was a moment at which the service, as it is
now, was in the registry while the collection had an entry of another service of the same rank. -/
theorem unavailable_refused {config : ImporterConfig} (hv : config.validate = .ok ())
    (proxies : Bool) {lifecycle state : List (Listener Entry)}
    (hlifecycle : ∀ l ∈ lifecycle, l.IsPassive) (hstate : ∀ l ∈ state, l.IsPassive)
    {before commands : List (Command Entry)}
    (hbefore : ∀ command ∈ before, command.IsRegistryCall)
    (hcommands : ∀ command ∈ commands, command.IsRegistryCall ∨ command.IsRead) (depth : Nat) :
    ∃ plan filter, Plan.ofConfig config (.ofProxies proxies) = .ok plan ∧
      config.parsedFilter = .ok filter ∧
      ∃ h₀, (Hub.ofPlans [{ plan with
          lifecycleListeners := lifecycle, stateListeners := state }]).Reaches (depth + 1)
          (before ++ [.start 0]) h₀ ∧
        ∀ done, done <+: commands → ∃ h, h₀.Reaches (depth + 1) done h ∧
          (h.collection 0).subscription.isSome = true ∧ (h.collection 0).closed = false ∧
          ∀ read : Command Entry, read.IsRead → ∃ answer h',
            h.run (depth + 1) read = .ok (answer, h') ∧
            (answer.IsUnavailable → ∀ r ∈ h.registry.references filter,
              config.collection = .sortedSet ∧ ∃ key, config.sortBy = some key ∧
              ∃ earlier g, earlier <+: done ∧ h₀.Reaches (depth + 1) earlier g ∧
                r ∈ g.registry.services ∧ ∃ x ∈ (g.collection 0).storage.items,
                  x.service.id ≠ r.id ∧ ServiceReference.orderBy key x.service r = .eq) := by
  obtain ⟨filter, hf⟩ := ImporterConfig.exists_filter hv
  obtain ⟨plan, hp⟩ : ∃ plan, Plan.ofConfig config (.ofProxies proxies) = .ok plan :=
    ⟨_, Plan.ofConfig_eq_ok.2 ⟨hv, filter, hf, rfl⟩⟩
  obtain ⟨hpassive, hfactory⟩ := Plan.passive_ofConfig hp hf hlifecycle hstate
  obtain ⟨h₀, hr₀, hcalm₀, hlinked₀, hserves, hall⟩ := Hub.launch hpassive hfactory hbefore depth
  refine ⟨plan, filter, hp, hf, h₀, hr₀, fun done hdone => ?_⟩
  obtain ⟨h, hr, hh, -, -, haccounted⟩ :=
    hserves.accounted hcalm₀ hlinked₀ hall hcommands depth hdone
  refine ⟨h, hr, hh.subscribed, hh.isOpen, fun read hread => ?_⟩
  obtain ⟨answer, h', hrun, -, hunavailable⟩ := Hub.read_total hh.idle hread depth
  refine ⟨answer, h', hrun, fun hu r hmem => ?_⟩
  obtain ⟨d, hd⟩ := hunavailable hu
  have hempty := hh.identities_eq_nil hd
  rcases haccounted r hmem with hin | ⟨earlier, g, hearlier, hg, hthere, x, hx, hne, hrival⟩
  · rw [hempty] at hin
    cases hin
  · obtain ⟨hkind, key, hkey, heq⟩ := Plan.rivals_ofConfig hp hrival hne
    exact ⟨hkind, key, hkey, earlier, g, hearlier, hg, hthere, x, hx, hne, heq⟩

/-! ## One rank, two services -/

/-- The services in English, one of each rank by their language. -/
def ImporterConfig.languages : ImporterConfig where
  filter := "(lang=en)"
  collection := .sortedSet
  sortBy := some "lang"

/-- The plan that this configuration makes for references. -/
def Plan.languages : Plan Entry where
  hasRegistry := true
  factory := some .reference
  filter := some ⟨"(lang=en)", .equal "lang" ⟨"en", []⟩⟩
  mode := .sortedSet fun a b => ServiceReference.orderBy "lang" a.service b.service

/-- The plan with a listener that only listens. -/
def Plan.watched : Plan Entry :=
  { languages with stateListeners := [.mk "watcher" .calls fun _ _ => .silent] }

theorem Plan.passive_watched : ∀ l ∈ watched.stateListeners, l.IsPassive := by
  intro l hl told callback
  obtain rfl := List.mem_singleton.1 hl
  rfl

theorem Plan.ofConfig_languages :
    Plan.ofConfig .languages (.ofProxies false) = .ok Plan.languages :=
  ofConfig_eq_ok.2 ⟨by decide +kernel, _, rfl, rfl⟩

/-- The filter that an answer names as unavailable. -/
def Answer.unavailable? : Answer → Option String
  | .failed (.serviceUnavailable filter) => some filter
  | _ => none

theorem Answer.eq_failed {answer : Answer} {filter : String}
    (ha : answer.unavailable? = some filter) : answer = .failed (.serviceUnavailable filter) := by
  cases answer with
  | failed f =>
    cases f with
    | serviceUnavailable text =>
      obtain rfl := Option.some.inj ha
      rfl
    | _ => cases ha
  | _ => cases ha

/-- A service in French is there before the start. Then two services in English come, and the
first of them leaves. -/
theorem Plan.watched_ok : ∃ h₀ h h', (Hub.ofPlans [Plan.watched]).Reaches 1
      [.register (.spoken "fr"), .start 0] h₀ ∧
    h₀.Reaches 1 [.register (.spoken "en"), .register (.spoken "en"), .unregister 2] h ∧
    (h.collection 0).subscription.isSome = true ∧ (h.collection 0).closed = false ∧
    h.run 1 (.ask 0 .len) = .ok (.failed (.serviceUnavailable "(lang=en)"), h') ∧
    (h.registry.references ⟨"(lang=en)", .equal "lang" ⟨"en", []⟩⟩).map ServiceReference.id =
      [3] := by
  obtain ⟨⟨answers, h⟩, hr, hseen⟩ := Run.exists_of_map_eq_ok
    (f := fun p : List Answer × Hub Entry =>
      ((p.2.collection 0).subscription.isSome, (p.2.collection 0).closed,
        (p.2.run 1 (.ask 0 .len)).map fun q => q.1.unavailable?,
        (p.2.registry.references ⟨"(lang=en)", .equal "lang" ⟨"en", []⟩⟩).map
          ServiceReference.id))
    (show ((Hub.ofPlans [Plan.watched]).runAll 1
      ([.register (.spoken "fr"), .start 0] ++
        [.register (.spoken "en"), .register (.spoken "en"), .unregister 2])).map _ =
      .ok (true, false, .ok (some "(lang=en)"), [3]) by decide +kernel)
  obtain ⟨hsub, hseen⟩ := Prod.mk.inj hseen
  obtain ⟨hopen, hseen⟩ := Prod.mk.inj hseen
  obtain ⟨hread, hreferences⟩ := Prod.mk.inj hseen
  obtain ⟨⟨answer, h'⟩, hrun, hanswer⟩ := Run.exists_of_map_eq_ok hread
  obtain ⟨h₀, hr₀, hr₁⟩ := Hub.reaches_append.1 ⟨answers, hr⟩
  obtain rfl : answer = .failed (.serviceUnavailable "(lang=en)") := Answer.eq_failed hanswer
  exact ⟨h₀, h, h', hr₀, hr₁, hsub, hopen, hrun, hreferences⟩

/-- The second service in English was refused because of the first. -/
theorem unavailable_refused_english : ImporterConfig.languages.validate = .ok () ∧
    (∀ l ∈ Plan.watched.stateListeners, l.IsPassive) ∧
    ∃ h₀ h answer h', (Hub.ofPlans [Plan.watched]).Reaches 1
        [.register (.spoken "fr"), .start 0] h₀ ∧
      h₀.Reaches 1 [.register (.spoken "en"), .register (.spoken "en"), .unregister 2] h ∧
      h.run 1 (.ask 0 .len) = .ok (answer, h') ∧ answer.IsUnavailable ∧
      ∃ r ∈ h.registry.references ⟨"(lang=en)", .equal "lang" ⟨"en", []⟩⟩, r.id = 3 ∧
        ∃ earlier g, earlier <+: [.register (.spoken "en"), .register (.spoken "en"),
            .unregister 2] ∧ h₀.Reaches 1 earlier g ∧ r ∈ g.registry.services ∧
          ∃ x ∈ (g.collection 0).storage.items,
            x.service.id ≠ r.id ∧ ServiceReference.orderBy "lang" x.service r = .eq := by
  have hv : ImporterConfig.languages.validate = .ok () := by decide +kernel
  have hbefore : ∀ command ∈ ([.register (.spoken "fr")] : List (Command Entry)),
      command.IsRegistryCall := by simp [Command.IsRegistryCall]
  have hcommands : ∀ command ∈ ([.register (.spoken "en"), .register (.spoken "en"),
      .unregister 2] : List (Command Entry)), command.IsRegistryCall ∨ command.IsRead := by
    simp [Command.IsRegistryCall]
  obtain ⟨plan, filter, hp, hf, h₀, hr₀, hall⟩ :=
    unavailable_refused hv false (fun _ hl => absurd hl List.not_mem_nil) Plan.passive_watched
      hbefore hcommands 0
  obtain rfl := Except.ok.inj (hp.symm.trans Plan.ofConfig_languages)
  obtain rfl : _ = filter := Except.ok.inj hf
  obtain ⟨h, hr, -, -, hread⟩ := hall _ (List.prefix_refl _)
  obtain ⟨answer, h', hrun, hrefused⟩ := hread (.ask 0 .len) trivial
  -- this is the run that was carried out
  obtain ⟨g₀, g, g', hg₀, hg, -, -, hlen, hreferences⟩ := Plan.watched_ok
  obtain rfl := hr₀.unique hg₀
  obtain rfl := hr.unique hg
  obtain ⟨rfl, -⟩ := Prod.mk.inj (Except.ok.inj (hrun.symm.trans hlen))
  obtain ⟨r, hmem, hid⟩ : ∃ r ∈ h.registry.references
      ⟨"(lang=en)", .equal "lang" ⟨"en", []⟩⟩, r.id = 3 := by
    have hthree : (3 : UInt64) ∈ (h.registry.references
        ⟨"(lang=en)", .equal "lang" ⟨"en", []⟩⟩).map ServiceReference.id := by
      rw [hreferences]
      exact List.mem_singleton.2 rfl
    exact List.mem_map.1 hthree
  obtain ⟨-, key, hkey, hmoment⟩ := hrefused trivial r hmem
  obtain rfl : _ = key := Option.some.inj hkey
  exact ⟨hv, Plan.passive_watched, h₀, h, _, h', hr₀, hr, hrun, trivial, r, hmem, hid, hmoment⟩

/-- **A match that is not seen.** The collection is started and not destroyed, its configuration
is valid and its listener gives no commands; a read says that no service matches, and the registry
has one that does. -/
theorem unavailable_despite_match : ImporterConfig.languages.validate = .ok () ∧
    Plan.ofConfig .languages .reference = .ok Plan.languages ∧
    (∀ l ∈ Plan.watched.stateListeners, l.IsPassive) ∧
    ∃ h₀ h h', (Hub.ofPlans [Plan.watched]).Reaches 1
        [.register (.spoken "fr"), .start 0] h₀ ∧
      h₀.Reaches 1 [.register (.spoken "en"), .register (.spoken "en"), .unregister 2] h ∧
      (h.collection 0).subscription.isSome = true ∧ (h.collection 0).closed = false ∧
      h.run 1 (.ask 0 .len) = .ok (.failed (.serviceUnavailable "(lang=en)"), h') ∧
      (h.registry.references ⟨"(lang=en)", .equal "lang" ⟨"en", []⟩⟩).map ServiceReference.id =
        [3] := by
  exact ⟨by decide +kernel, Plan.ofConfig_languages, Plan.passive_watched, Plan.watched_ok⟩

end LiveServices
