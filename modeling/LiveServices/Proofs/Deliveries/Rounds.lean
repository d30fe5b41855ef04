import LiveServices.Proofs.Deliveries.Obligations

/-!
# Rounds of deliveries

An operation on the registry delivers events in rounds: who is told of what is settled before the
first one is told (`Run.round`). A round to listeners that do not panic is carried through, and it
pays the reports that are owed (`Run.round_honors`), whatever the listeners do to the registry
meanwhile. So does each operation, and by induction on the depth each command that such listeners
may give (`Run.obliging_run`).
-/

namespace LiveServices

variable {E : Type}

namespace Registry

variable {r : Registry E} {event : ServiceEvent} {wants : ServiceFilter → Bool}

/-- Those whose filters pass a test, with the event that they are told of. -/
def audience (r : Registry E) (event : ServiceEvent) (wants : ServiceFilter → Bool) :
    List (Subscription E × ServiceEvent) :=
  (r.subscriptions.filter fun s => wants s.filter).map (·, event)

/-- A new subscription, with the services that it is told of. -/
def welcome (r : Registry E) (filter : ServiceFilter) (target : Target E) :
    List (Subscription E × ServiceEvent) :=
  (r.references filter).map fun s => (⟨r.nextSubscription, filter, target⟩, .registered s)

theorem map_audience :
    (r.audience event wants).map (fun p => (p.1.id, p.2)) = r.owed event wants := by
  rw [audience, List.map_map, owed]
  rfl

theorem map_welcome {filter : ServiceFilter} {target : Target E} :
    (r.welcome filter target).map (fun p => (p.1.id, p.2)) = r.arrears filter := by
  rw [welcome, List.map_map, arrears]
  rfl

/-- A new subscription of a listener that does not panic. -/
theorem isPeaceful_welcome (filter : ServiceFilter) {l : Attached E}
    (hl : l.listener.IsPeaceful) : ∀ p ∈ r.welcome filter (.observer l), p.1.IsPeaceful :=
  fun p hmem => by
    obtain ⟨s, -, rfl⟩ := List.mem_map.1 hmem
    exact ⟨l, rfl, hl⟩

end Registry

namespace Hub

variable {h h' : Hub E}

theorem IsPeaceful.of_subscriptions (hp : h.IsPeaceful)
    (hs : h'.registry.subscriptions = h.registry.subscriptions) : h'.IsPeaceful := fun s hmem =>
  hp s (hs ▸ hmem)

theorem IsPeaceful.audience (hp : h.IsPeaceful) {event : ServiceEvent}
    {wants : ServiceFilter → Bool} : ∀ p ∈ h.registry.audience event wants, p.1.IsPeaceful :=
  fun p hmem => by
    obtain ⟨s, hs, rfl⟩ := List.mem_map.1 hmem
    exact hp s (List.mem_filter.1 hs).1

theorem IsPeaceful.subscribe (hp : h.IsPeaceful) (filter : ServiceFilter) {l : Attached E}
    (hl : l.listener.IsPeaceful) :
    ({ h with registry := (h.registry.subscribe filter (.observer l)).2 } : Hub E).IsPeaceful :=
  fun s hmem => by
    rcases Roster.mem_insert hmem with rfl | hmem
    · exact ⟨l, rfl, hl⟩
    · exact hp s hmem

/-! ## What a command does to the books -/

namespace Honors

variable {due : List Report} {census : Census}

/-- A service came, and all was paid. -/
theorem of_added {properties : Properties} {wants : ServiceFilter → Bool}
    (hs : ({ h with registry := (h.registry.add properties).2 } : Hub E).Honors
      (h.registry.owed (.registered (.new h.registry.nextService properties)) wants) h') :
    h.Honors [] (h'.record (.ended census)) := by
  refine hs.of_registry rfl rfl id fun L hroom hb => ?_
  have hnext : h.registry.nextService.toNat + 1 < 2 ^ 64 := by
    rw [Registry.issues] at hroom
    omega
  refine ⟨hb.add hnext properties _, ?_⟩
  show (h.registry.nextService + 1).toNat + h.registry.nextSubscription.toNat ≤ _
  rw [Registry.toNat_next hnext, Registry.issues]
  omega

/-- A service was changed, and no coming was told of. -/
theorem of_put {service old : ServiceReference} (hf : h.registry.get? service.id = some old)
    (hdue : ∀ p ∈ due, p.2.kind ≠ .registered)
    (hs : ({ h with registry := h.registry.put service } : Hub E).Honors due h') :
    h.Honors [] (h'.record (.ended census)) :=
  hs.of_registry rfl rfl (fun hp => hp)
    fun _ _ hb => ⟨(hb.put hf).append_of_not_coming hdue, Nat.le_succ _⟩

/-- A service was taken away, and no coming was told of. -/
theorem of_removed {id : UInt64} (hdue : ∀ p ∈ due, p.2.kind ≠ .registered)
    (hs : ({ h with registry := h.registry.remove id } : Hub E).Honors due h') :
    h.Honors [] (h'.record (.ended census)) :=
  hs.of_registry rfl rfl (fun hp => hp)
    fun _ _ hb => ⟨(hb.remove id).append_of_not_coming hdue, Nat.le_succ _⟩

/-- A listener that does not panic was subscribed, and all was paid. -/
theorem of_subscribed {filter : ServiceFilter} {l : Attached E} {listeners : Nat}
    (hl : l.listener.IsPeaceful)
    (hs : ({ h with
      listeners := listeners
      registry := (h.registry.subscribe filter (.observer l)).2 } : Hub E).Honors
        (h.registry.arrears filter) h') : h.Honors [] (h'.record (.ended census)) := by
  refine hs.of_registry rfl rfl (fun hp => hp.subscribe filter hl) fun L hroom hb => ?_
  have hnext : h.registry.nextSubscription.toNat + 1 < 2 ^ 64 := by
    rw [Registry.issues] at hroom
    omega
  refine ⟨hb.subscribe hnext filter _, ?_⟩
  show h.registry.nextService.toNat + (h.registry.nextSubscription + 1).toNat ≤ _
  rw [Registry.toNat_next hnext, Registry.issues]
  omega

/-- A listener was unsubscribed. -/
theorem of_unsubscribed (id : UInt64) : h.Honors []
    (({ h with registry := (h.registry.unsubscribe id).2 } : Hub E).record (.ended census)) := by
  refine (Honors.refl _).of_registry rfl rfl ?_ ?_
  · exact fun hp s hs => hp s (List.mem_filter.1 hs).1
  · exact fun L _ hb => ⟨hb.unsubscribe id, Nat.le_succ _⟩

end Honors

end Hub

namespace Run

variable [ServiceEntry E] {nested : Nested E} {h h' : Hub E}

/-- Commands of this kind do not panic, and pay what they make due. -/
def Obliging (nested : Nested E) : Prop :=
  ∀ ⦃command : Command E⦄, command.IsPeaceful → ∀ ⦃h answer h'⦄, h.IsPeaceful →
    nested command h = .ok (answer, h') → (∀ message, answer ≠ .panicked message) ∧ h.Honors [] h'

/-- What is noted of the commands of a listener. -/
def noting (l : Attached E) (command : Command E) (answer : Answer) : Run E Unit :=
  record (.commanded l.tag command.name answer)

/-- Deliver these events to these subscriptions, one after the other. -/
def round (nested : Nested E) (l : List (Subscription E × ServiceEvent)) : Act E Unit :=
  l.forM fun p => deliver nested p.1 p.2

/-! ## Calls -/

omit [ServiceEntry E] in
/-- The first of the commands of a listener is carried out, and its answer is noted. -/
theorem give_cons_ok (hn : Obliging nested) {l : Attached E} {finish f : Finish}
    {command : Command E} {commands : List (Command E)} (hc : command.IsPeaceful)
    (hp : h.IsPeaceful) (hr : give nested (noting l) finish (command :: commands) h = .ok (f, h')) :
    ∃ answer h₁, nested command h = .ok (answer, h₁) ∧
      h.Honors [] (h₁.record (.commanded l.tag command.name answer)) ∧
      give nested (noting l) finish commands
        (h₁.record (.commanded l.tag command.name answer)) = .ok (f, h') := by
  obtain ⟨answer, h₁, hone, hrest⟩ := bind_eq_ok.1 hr
  obtain ⟨hanswer, hs⟩ := hn hc hp hone
  refine ⟨answer, h₁, hone, hs.trans (.record rfl), ?_⟩
  split at hrest
  · exact absurd rfl (hanswer _)
  · obtain ⟨_, h₂, hnote, hmore⟩ := bind_eq_ok.1 hrest
    obtain rfl : h₁.record (.commanded l.tag command.name answer) = h₂ :=
      congrArg Prod.snd (Except.ok.inj hnote)
    exact hmore

omit [ServiceEntry E] in
/-- The commands of a listener are given to the end. -/
theorem give_honors (hn : Obliging nested) {l : Attached E} {finish f : Finish}
    {commands : List (Command E)} (hc : ∀ command ∈ commands, command.IsPeaceful)
    (hp : h.IsPeaceful) (hr : give nested (noting l) finish commands h = .ok (f, h')) :
    f = finish ∧ h.Honors [] h' := by
  induction commands generalizing h with
  | nil =>
    obtain ⟨rfl, rfl⟩ := pure_eq_ok.1 hr
    exact ⟨rfl, .refl h⟩
  | cons command commands ih =>
    obtain ⟨answer, h₁, -, hs₁, hrest⟩ := give_cons_ok hn (hc command List.mem_cons_self) hp hr
    obtain ⟨rfl, hs⟩ := ih (fun other hmem => hc other (List.mem_cons_of_mem _ hmem))
      (hs₁.peaceful hp) hrest
    exact ⟨rfl, hs₁.trans hs⟩

/-- A listener that does not panic is called. -/
theorem call_honors (hn : Obliging nested) {l : Attached E} (hl : l.listener.IsPeaceful)
    {event : ServiceEvent} {f : Finish} (hp : h.IsPeaceful)
    (hr : call nested l (.event event) h = .ok (f, h')) :
    (∀ message, f ≠ .panic message) ∧ h.Honors [] h' := by
  rw [call_eq] at hr
  have hs : h.Honors [] (h.calling l (.event event)) := .record rfl
  obtain ⟨rfl, hs'⟩ := give_honors hn (hl.commands _ _) (hs.peaceful hp) hr
  exact ⟨hl.finish _ _, hs.trans hs'⟩

/-! ## Deliveries -/

/-- A report is counted and noted, and then the subscription is told. -/
theorem deliver_eq (s : Subscription E) (event : ServiceEvent) :
    (deliver nested s event).run h = (tell nested s.target event).run (h.report s.id event) := by
  let h₁ : Hub E := { h with registry.delivered := h.registry.delivered + 1 }
  unfold deliver
  rw [act_bind (a := ()) (g := h₁) rfl, act_bind (a := ()) (g := h.report s.id event) rfl]

/-- A report is made by calling the listener. -/
theorem deliver_ok {s : Subscription E} {l : Attached E} (htarget : s.target = .observer l)
    {event : ServiceEvent} {result : Except Trouble Unit}
    (hr : (deliver nested s event).run h = .ok (result, h')) :
    ∃ finish, call nested l (.event event) (h.report s.id event) = .ok (finish, h') ∧
      ((∀ message, finish ≠ .panic message) → result = .ok ()) := by
  rw [deliver_eq, htarget] at hr
  obtain ⟨f, h₁, hlift, hdone⟩ := act_bind_ok hr
  obtain ⟨finish, hcall, rfl⟩ := act_lift_ok hlift
  have hdone := hdone finish rfl
  cases finish with
  | panic message =>
    obtain ⟨-, rfl⟩ := Prod.mk.inj (Except.ok.inj hdone)
    exact ⟨_, hcall, fun hfinish => absurd rfl (hfinish message)⟩
  | done | fail failure =>
    obtain ⟨rfl, rfl⟩ := pure_eq_ok.1 hdone
    exact ⟨_, hcall, fun _ => rfl⟩

/-- One report that is owed is made. -/
theorem deliver_honors (hn : Obliging nested) {s : Subscription E} (hs : s.IsPeaceful)
    {event : ServiceEvent} {result : Except Trouble Unit} (hp : h.IsPeaceful)
    (hr : (deliver nested s event).run h = .ok (result, h')) :
    result = .ok () ∧ h.Honors [(s.id, event)] h' := by
  obtain ⟨l, htarget, hl⟩ := hs
  obtain ⟨finish, hcall, hresult⟩ := deliver_ok htarget hr
  have hp' : (h.report s.id event).IsPeaceful := hp.of_subscriptions rfl
  obtain ⟨hfinish, hs⟩ := call_honors hn hl hp' hcall
  exact ⟨hresult hfinish, .of_report hs⟩

/-- **A round.** The reports that are owed are made one after the other. -/
theorem round_honors (hn : Obliging nested) {l : List (Subscription E × ServiceEvent)}
    (hl : ∀ p ∈ l, p.1.IsPeaceful) {result : Except Trouble Unit} (hp : h.IsPeaceful)
    (hr : (round nested l).run h = .ok (result, h')) :
    result = .ok () ∧ h.Honors (l.map fun p => (p.1.id, p.2)) h' := by
  induction l generalizing h with
  | nil =>
    obtain ⟨rfl, rfl⟩ := pure_eq_ok.1 hr
    exact ⟨rfl, .refl h⟩
  | cons p l ih =>
    obtain ⟨first, h₁, hfirst, hrest⟩ := act_bind_ok hr
    obtain ⟨rfl, hs₁⟩ := deliver_honors hn (hl p List.mem_cons_self) hp hfirst
    obtain ⟨rfl, hs⟩ := ih (fun q hq => hl q (List.mem_cons_of_mem _ hq)) (hs₁.peaceful hp)
      (hrest () rfl)
    exact ⟨rfl, hs₁.trans hs⟩

/-! ## Operations -/

theorem deliverAll_eq (event : ServiceEvent) (wants : ServiceFilter → Bool) :
    (deliverAll nested event wants).run h =
      (round nested (h.registry.audience event wants)).run h := by
  unfold deliverAll round Registry.audience
  rw [act_bind (a := h) (g := h) rfl]
  simp only [List.forM_eq_forM, List.forM_map]

theorem register_eq (properties : Properties) :
    let service := ServiceReference.new h.registry.nextService properties
    (register nested properties).run h =
      (deliverAll nested (.registered service) (fun filter => filter.accepts service.properties)
        >>= fun _ => pure service : Act E ServiceReference).run
        { h with registry := (h.registry.add properties).2 } := by
  intro service
  unfold register
  rw [act_bind (a := service) (g := { h with registry := (h.registry.add properties).2 }) rfl]

theorem setProperties_eq {id : UInt64} {old : ServiceReference}
    (hf : h.registry.get? id = some old) (properties : Properties) :
    let service := ServiceReference.new id properties
    (setProperties nested id properties).run h =
      (deliverAll nested (.modified service) (fun filter => filter.accepts service.properties)
        >>= fun _ => deliverAll nested ⟨.modifiedEndmatch, service⟩ (fun filter =>
          !filter.accepts service.properties && filter.accepts old.properties)
        >>= fun _ => pure service : Act E ServiceReference).run
        { h with registry := h.registry.put service } := by
  intro service
  unfold setProperties
  rw [act_bind (a := h) (g := h) rfl, hf]
  show (_ >>= fun _ => _ : Act E _).run h = _
  rw [act_bind (a := ()) (g := { h with registry := h.registry.put service }) rfl]

theorem unregister_eq {id : UInt64} {service : ServiceReference}
    (hf : h.registry.get? id = some service) :
    (unregister nested id).run h =
      (deliverAll nested (.unregistering service) fun filter =>
        filter.accepts service.properties).run
        { h with registry := h.registry.remove id } := by
  unfold unregister
  rw [act_bind (a := h) (g := h) rfl, hf]
  show (_ >>= fun _ => _ : Act E _).run h = _
  rw [act_bind (a := ()) (g := { h with registry := h.registry.remove id }) rfl]

theorem subscribe_eq (filter : ServiceFilter) (target : Target E) :
    (subscribe nested filter target).run h =
      (round nested (h.registry.welcome filter target)
        >>= fun _ => pure h.registry.nextSubscription : Act E UInt64).run
        { h with registry := (h.registry.subscribe filter target).2 } := by
  let s : Subscription E := ⟨h.registry.nextSubscription, filter, target⟩
  let h₁ : Hub E := { h with registry := (h.registry.subscribe filter target).2 }
  unfold subscribe round Registry.welcome
  rw [act_bind (a := s) (g := h₁) rfl, act_bind (a := h₁) (g := h₁) rfl]
  simp only [List.forM_eq_forM, List.forM_map]
  rfl

/-- A listener of its own is attached and subscribed. -/
theorem addListener_eq {text : String} {filter : ServiceFilter}
    (hparse : ServiceFilter.parse text = .ok filter) (home : Nat) (l : Listener E) :
    execute nested (.addListener home text l) h =
      answered (fun id => .text (Subscription.displayId id))
        (subscribe nested filter (.observer ⟨h.listeners, home, l⟩))
        { h with listeners := h.listeners + 1 } := by
  simp only [execute, withFilter, hparse]
  rfl

/-- Those are told whose filters pass the test. -/
theorem deliverAll_honors (hn : Obliging nested) {event : ServiceEvent}
    {wants : ServiceFilter → Bool} {result : Except Trouble Unit} (hp : h.IsPeaceful)
    (hr : (deliverAll nested event wants).run h = .ok (result, h')) :
    result = .ok () ∧ h.Honors (h.registry.owed event wants) h' := by
  rw [deliverAll_eq] at hr
  rw [← Registry.map_audience]
  exact round_honors hn hp.audience hp hr

/-- A service comes, and those are told whom it concerns. -/
theorem register_honors (hn : Obliging nested) {properties : Properties}
    {result : Except Trouble ServiceReference} (hp : h.IsPeaceful)
    (hr : (register nested properties).run h = .ok (result, h')) :
    let service := ServiceReference.new h.registry.nextService properties
    result = .ok service ∧ ({ h with registry := (h.registry.add properties).2 } : Hub E).Honors
      (h.registry.owed (.registered service) fun filter => filter.accepts service.properties)
      h' := by
  intro service
  rw [register_eq] at hr
  obtain ⟨told, h₂, htold, hdone⟩ := act_bind_ok hr
  have hp₁ : ({ h with registry := (h.registry.add properties).2 } : Hub E).IsPeaceful :=
    hp.of_subscriptions rfl
  obtain ⟨rfl, hs⟩ := deliverAll_honors hn hp₁ htold
  obtain ⟨rfl, rfl⟩ := pure_eq_ok.1 (hdone () rfl)
  exact ⟨rfl, hs⟩

/-- A service changes in two rounds. -/
theorem setProperties_ok (hn : Obliging nested) {id : UInt64} {old : ServiceReference}
    (hf : h.registry.get? id = some old) {properties : Properties}
    {result : Except Trouble ServiceReference} (hp : h.IsPeaceful)
    (hr : (setProperties nested id properties).run h = .ok (result, h')) :
    let service := ServiceReference.new id properties
    let g : Hub E := { h with registry := h.registry.put service }
    result = .ok service ∧ ∃ h₁,
      (deliverAll nested (.modified service) fun filter =>
        filter.accepts service.properties).run g = .ok (.ok (), h₁) ∧
      g.Honors (g.registry.owed (.modified service) fun filter =>
        filter.accepts service.properties) h₁ ∧
      (deliverAll nested ⟨.modifiedEndmatch, service⟩ fun filter =>
        !filter.accepts service.properties && filter.accepts old.properties).run h₁ =
          .ok (.ok (), h') ∧
      h₁.Honors (h₁.registry.owed ⟨.modifiedEndmatch, service⟩ fun filter =>
        !filter.accepts service.properties && filter.accepts old.properties) h' := by
  intro service g
  have hp₁ : g.IsPeaceful := hp.of_subscriptions rfl
  rw [setProperties_eq hf] at hr
  obtain ⟨told, h₁, hfirst, hrest⟩ := act_bind_ok hr
  obtain ⟨rfl, hs₁⟩ := deliverAll_honors hn hp₁ hfirst
  obtain ⟨told, h₂, hsecond, hdone⟩ := act_bind_ok (hrest () rfl)
  obtain ⟨rfl, hs₂⟩ := deliverAll_honors hn (hs₁.peaceful hp₁) hsecond
  obtain ⟨rfl, rfl⟩ := pure_eq_ok.1 (hdone () rfl)
  exact ⟨rfl, h₁, hfirst, hs₁, hsecond, hs₂⟩

/-- Those are told of a change for whom the service is there now, and those for whom it is there no
more. -/
theorem setProperties_honors (hn : Obliging nested) {id : UInt64} {old : ServiceReference}
    (hf : h.registry.get? id = some old) {properties : Properties}
    {result : Except Trouble ServiceReference} (hp : h.IsPeaceful)
    (hr : (setProperties nested id properties).run h = .ok (result, h')) :
    result = .ok (.new id properties) ∧ ∃ due : List Report,
      (∀ p ∈ due, p.2.kind ≠ .registered) ∧
      ({ h with registry := h.registry.put (.new id properties) } : Hub E).Honors due h' := by
  obtain ⟨hresult, h₁, -, hs₁, -, hs₂⟩ := setProperties_ok hn hf hp hr
  refine ⟨hresult, _, fun p hmem => ?_, hs₁.trans hs₂⟩
  rcases List.mem_append.1 hmem with hmem | hmem
  · exact Registry.kind_of_mem_owed hmem ▸ EventKind.noConfusion
  · exact Registry.kind_of_mem_owed hmem ▸ EventKind.noConfusion

/-- A service goes, and those are told for whom it was there. -/
theorem unregister_honors (hn : Obliging nested) {id : UInt64} {service : ServiceReference}
    (hf : h.registry.get? id = some service) {result : Except Trouble Unit} (hp : h.IsPeaceful)
    (hr : (unregister nested id).run h = .ok (result, h')) :
    result = .ok () ∧ ({ h with registry := h.registry.remove id } : Hub E).Honors
      (h.registry.owed (.unregistering service) fun filter => filter.accepts service.properties)
      h' := by
  rw [unregister_eq hf] at hr
  have hp₁ : ({ h with registry := h.registry.remove id } : Hub E).IsPeaceful :=
    hp.of_subscriptions rfl
  exact deliverAll_honors hn hp₁ hr

/-- A subscription is made, and told of the services that are there. -/
theorem subscribe_honors (hn : Obliging nested) {filter : ServiceFilter} {l : Attached E}
    (hl : l.listener.IsPeaceful) {result : Except Trouble UInt64} (hp : h.IsPeaceful)
    (hr : (subscribe nested filter (.observer l)).run h = .ok (result, h')) :
    result = .ok h.registry.nextSubscription ∧
      ({ h with registry := (h.registry.subscribe filter (.observer l)).2 } : Hub E).Honors
        (h.registry.arrears filter) h' := by
  rw [subscribe_eq] at hr
  obtain ⟨told, h₂, htold, hdone⟩ := act_bind_ok hr
  obtain ⟨rfl, hs⟩ := round_honors hn (Registry.isPeaceful_welcome filter hl)
    (hp.subscribe filter hl) htold
  obtain ⟨rfl, rfl⟩ := pure_eq_ok.1 (hdone () rfl)
  exact ⟨rfl, Registry.map_welcome ▸ hs⟩

/-! ## Commands -/

omit [ServiceEntry E] in
/-- An act that reaches its result gives its answer. -/
theorem answered_of_reached {α : Type} {f : α → Answer} {act : Act E α} {answer : Answer}
    {a : α} (hr : answered f act h = .ok (answer, h'))
    (ha : ∀ ⦃result g⦄, act.run h = .ok (result, g) → result = .ok a) :
    answer = f a ∧ act.run h = .ok (.ok a, h') := by
  obtain ⟨result, hact⟩ := run_of_answered hr
  obtain rfl := ha hact
  rw [answered_ok hact] at hr
  exact ⟨(congrArg Prod.fst (Except.ok.inj hr)).symm, hact⟩

/-- A command pays what it makes due, and then it ends. -/
theorem execute_honors (hn : Obliging nested) {command : Command E} (hc : command.IsPeaceful)
    {answer : Answer} (hp : h.IsPeaceful) (hr : execute nested command h = .ok (answer, h'))
    (census : Census) :
    (∀ message, answer ≠ .panicked message) ∧ h.Honors [] (h'.record (.ended census)) := by
  have hend : ∀ h₁ : Hub E, h₁.Honors [] (h₁.record (.ended census)) := fun _ => .record rfl
  cases hc with
  | register properties =>
    obtain ⟨rfl, hregister⟩ := answered_of_reached hr fun _ _ hr => (register_honors hn hp hr).1
    exact ⟨fun _ => Answer.noConfusion, .of_added (register_honors hn hp hregister).2⟩
  | setProperties id properties =>
    cases hf : h.registry.get? id with
    | none =>
      rw [execute_unknown nested hf (.inr ⟨properties, rfl⟩)] at hr
      obtain ⟨rfl, rfl⟩ := Prod.mk.inj (Except.ok.inj hr)
      exact ⟨fun _ => Answer.noConfusion, hend h⟩
    | some old =>
      obtain ⟨rfl, hset⟩ := answered_of_reached hr fun _ _ hr =>
        (setProperties_honors hn hf hp hr).1
      obtain ⟨-, due, hdue, hs⟩ := setProperties_honors hn hf hp hset
      exact ⟨fun _ => Answer.noConfusion, .of_put hf hdue hs⟩
  | unregister id =>
    cases hf : h.registry.get? id with
    | none =>
      rw [execute_unknown nested hf (.inl rfl)] at hr
      obtain ⟨rfl, rfl⟩ := Prod.mk.inj (Except.ok.inj hr)
      exact ⟨fun _ => Answer.noConfusion, hend h⟩
    | some service =>
      obtain ⟨rfl, hunregister⟩ := answered_of_reached hr fun _ _ hr =>
        (unregister_honors hn hf hp hr).1
      refine ⟨fun _ => Answer.noConfusion, .of_removed (fun p hmem => ?_)
        (unregister_honors hn hf hp hunregister).2⟩
      exact Registry.kind_of_mem_owed hmem ▸ EventKind.noConfusion
  | getService id =>
    obtain ⟨rfl, rfl⟩ := pure_eq_ok.1 hr
    exact ⟨fun _ => Answer.noConfusion, hend h⟩
  | references text =>
    cases hparse : ServiceFilter.parse text with
    | error failure | ok filter =>
      simp only [execute, withFilter, hparse] at hr
      obtain ⟨rfl, rfl⟩ := pure_eq_ok.1 hr
      exact ⟨fun _ => Answer.noConfusion, hend h⟩
  | registry =>
    obtain ⟨rfl, rfl⟩ := pure_eq_ok.1 hr
    exact ⟨fun _ => Answer.noConfusion, hend h⟩
  | @addListener home text l hfinish hcommands =>
    have hl : l.IsPeaceful := ⟨hfinish, hcommands⟩
    have hp₁ : ({ h with listeners := h.listeners + 1 } : Hub E).IsPeaceful :=
      hp.of_subscriptions rfl
    cases hparse : ServiceFilter.parse text with
    | error failure =>
      simp only [execute, withFilter, hparse] at hr
      obtain ⟨rfl, rfl⟩ := pure_eq_ok.1 hr
      exact ⟨fun _ => Answer.noConfusion, hend h⟩
    | ok filter =>
      rw [addListener_eq hparse] at hr
      obtain ⟨rfl, hsubscribe⟩ := answered_of_reached hr fun _ _ hr =>
        (subscribe_honors hn (l := ⟨h.listeners, home, l⟩) hl hp₁ hr).1
      obtain ⟨-, hs⟩ := subscribe_honors hn (l := ⟨h.listeners, home, l⟩) hl hp₁ hsubscribe
      exact ⟨fun _ => Answer.noConfusion, .of_subscribed (l := ⟨h.listeners, home, l⟩) hl hs⟩
  | removeListener id =>
    obtain ⟨rfl, rfl⟩ := pure_eq_ok.1 hr
    exact ⟨fun _ => Answer.noConfusion, .of_unsubscribed id⟩

/-- **Runs.** A command is carried out without a panic, and what it makes due is paid when it is
carried out, to whatever depth the listeners nest their commands. -/
theorem obliging_run (depth : Nat) : Obliging (run (E := E) depth) := by
  induction depth with
  -- without depth a command halts
  | zero => exact fun _ _ _ _ _ _ hr => nomatch hr
  | succ depth ih =>
    intro command hc h answer h' hp hr
    obtain ⟨answer', h₁, hexecute, hend⟩ := bind_eq_ok.1 hr
    obtain ⟨rfl, rfl⟩ : answer' = answer ∧ h₁.record (.ended h₁.census) = h' :=
      Prod.mk.inj (Except.ok.inj hend)
    exact execute_honors ih hc hp hexecute _

end Run

end LiveServices
