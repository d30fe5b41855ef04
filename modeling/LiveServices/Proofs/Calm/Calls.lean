import LiveServices.Proofs.Calm.Delivery
import Mathlib.Data.List.Induction

/-!
# Calls of the registry

What a call of the registry does to a calm hub in which nobody is subscribed but the importer of
one collection: it reaches a result, the books of the registry change as the call says, and the
collection hears of it exactly if its filter accepts the properties that the service has then
(`Hub.Calls`, `Hub.call_total`). That a service ceased to match is heard by nobody: the event is
no notification.

A start reaches a result too. It subscribes the collection, which then has services of the
registry only (`Run.start_total`).
-/

namespace LiveServices

variable {E : Type}

/-- The calls that change the services of a registry. -/
def Command.IsRegistryCall : Command E → Prop
  | .register _ | .setProperties _ _ | .unregister _ => True
  | _ => False

variable [ServiceEntry E]

/-- What comes of a call of the registry. -/
inductive Hub.Calls (c : Nat) (link : Option ServiceFilter) (h : Hub E) :
    Command E → Answer → Hub E → Prop where
  | registered {properties : Properties} {r : ServiceReference} {h' : Hub E}
    (hr : r = .new h.registry.nextService properties)
    (hh : Hub.Changes c (Collection.Hears? link (·.accepts r.properties) (.registered r))
      { h with registry := (h.registry.add properties).2 } h') :
    Calls c link h (.register properties) (.text r.display) h'
  | modified {id : UInt64} {properties : Properties} {old r : ServiceReference} {h' : Hub E}
    (hf : h.registry.get? id = some old) (hr : r = .new id properties)
    (hh : Hub.Changes c (Collection.Hears? link (·.accepts r.properties) (.modified r))
      { h with registry := h.registry.put r } h') :
    Calls c link h (.setProperties id properties) (.text r.display) h'
  | unregistered {id : UInt64} {r : ServiceReference} {h' : Hub E}
    (hf : h.registry.get? id = some r)
    (hh : Hub.Changes c (Collection.Hears? link (·.accepts r.properties) (.unregistering r))
      { h with registry := h.registry.remove id } h') :
    Calls c link h (.unregister id) .done h'
  | unknown {id : UInt64} {command : Command E} {h' : Hub E} (hn : h.registry.get? id = none)
    (hc : command = .unregister id ∨ ∃ properties, command = .setProperties id properties)
    (hh : h.Changes c (fun k k' => k' = k) h') :
    Calls c link h command (.failed (Registry.unknownService id)) h'

namespace Run

variable (nested : Nested E) {c : Nat} {h h' : Hub E} {link : Option ServiceFilter}

omit [ServiceEntry E] in
theorem answered_ok {α : Type} {f : α → Answer} {act : Act E α} {a : α}
    (ha : act.run h = .ok (.ok a, h')) : answered f act h = .ok (f a, h') :=
  bind_eq_ok.2 ⟨_, _, ha, rfl⟩

omit [ServiceEntry E] in
theorem answered_failed {α : Type} {f : α → Answer} {act : Act E α} {failure : Failure}
    (ha : act.run h = .ok (.error (.failed failure), h')) :
    answered f act h = .ok (.failed failure, h') :=
  bind_eq_ok.2 ⟨_, _, ha, rfl⟩

omit [ServiceEntry E] in
/-- An answer ends what an act did. -/
theorem run_of_answered {α : Type} {f : α → Answer} {act : Act E α} {answer : Answer}
    (hr : answered f act h = .ok (answer, h')) : ∃ a, act.run h = .ok (a, h') := by
  obtain ⟨a, h₁, hact, hdone⟩ := bind_eq_ok.1 hr
  refine ⟨a, ?_⟩
  rw [hact]
  split at hdone
  all_goals
    obtain ⟨-, rfl⟩ := pure_eq_ok.1 hdone
    rfl

theorem register_total (hc : h.Calm) (hl : h.registry.Linked c link) (properties : Properties) :
    ∃ h', (register nested properties).run h =
      .ok (.ok (.new h.registry.nextService properties), h') ∧
    h.Calls c link (.register properties)
      (.text (ServiceReference.new h.registry.nextService properties).display) h' ∧ h'.Calm := by
  let h₁ : Hub E := { h with registry := (h.registry.add properties).2 }
  let r := ServiceReference.new h.registry.nextService properties
  obtain ⟨h', hr, hch, hcalm⟩ := deliverAll_total nested (h := h₁) hc (hl.of_eq rfl)
    (.registered r) (·.accepts r.properties)
  refine ⟨h', ?_, .registered rfl hch, hcalm⟩
  unfold register
  rw [act_bind (a := r) (g := h₁) rfl, act_bind hr]
  rfl

theorem setProperties_total (hc : h.Calm) (hl : h.registry.Linked c link) {id : UInt64}
    {old : ServiceReference} (hf : h.registry.get? id = some old) (properties : Properties) :
    ∃ h', (setProperties nested id properties).run h = .ok (.ok (.new id properties), h') ∧
    h.Calls c link (.setProperties id properties)
      (.text (ServiceReference.new id properties).display) h' ∧ h'.Calm := by
  let r := ServiceReference.new id properties
  let h₁ : Hub E := { h with registry := h.registry.put r }
  obtain ⟨h₂, hr₂, hch₂, hcalm₂⟩ := deliverAll_total nested (h := h₁) hc (hl.of_eq rfl)
    (.modified r) (·.accepts r.properties)
  obtain ⟨h', hr, hch, hcalm⟩ := deliverAll_total nested hcalm₂
    (hl.of_eq hch₂.registry.subscriptions) ⟨.modifiedEndmatch, r⟩
    (fun filter => !filter.accepts r.properties && filter.accepts old.properties)
  -- The second event is told to those for whom the service ceased to match, and it is no
  -- notification: the collection stays as it is whether or not it is told.
  have hstay : h₂.Changes c (fun k k' => k' = k) h' := by
    refine ⟨hch.registry, ?_, hch.elsewhere⟩
    have hhere := hch.here
    unfold Collection.Hears? at hhere
    split at hhere <;> exact hhere
  refine ⟨h', ?_, .modified hf rfl (hch₂.trans hstay fun hk heq => heq ▸ hk), hcalm⟩
  unfold setProperties
  rw [act_bind (a := h) (g := h) rfl, hf]
  show (_ >>= fun _ => _ : Act E _).run h = _
  rw [act_bind (a := ()) (g := h₁) rfl, act_bind hr₂, act_bind hr]
  rfl

theorem unregister_total (hc : h.Calm) (hl : h.registry.Linked c link) {id : UInt64}
    {r : ServiceReference} (hf : h.registry.get? id = some r) :
    ∃ h', (unregister nested id).run h = .ok (.ok (), h') ∧
    h.Calls c link (.unregister id) .done h' ∧ h'.Calm := by
  let h₁ : Hub E := { h with registry := h.registry.remove id }
  obtain ⟨h', hr, hch, hcalm⟩ := deliverAll_total nested (h := h₁) hc (hl.of_eq rfl)
    (.unregistering r) (·.accepts r.properties)
  refine ⟨h', ?_, .unregistered hf hch, hcalm⟩
  unfold unregister
  rw [act_bind (a := h) (g := h) rfl, hf]
  show (_ >>= fun _ => _ : Act E _).run h = _
  rw [act_bind (a := ()) (g := h₁) rfl, hr]

/-- A service that is not there is neither changed nor taken away. -/
theorem execute_unknown {id : UInt64} (hn : h.registry.get? id = none) {command : Command E}
    (hcommand : command = .unregister id ∨ ∃ properties, command = .setProperties id properties) :
    execute nested command h = .ok (.failed (Registry.unknownService id), h) := by
  rcases hcommand with rfl | ⟨properties, rfl⟩
  · refine answered_failed ?_
    unfold unregister
    rw [act_bind (a := h) (g := h) rfl, hn]
    rfl
  · refine answered_failed ?_
    unfold setProperties
    rw [act_bind (a := h) (g := h) rfl, hn]
    rfl

theorem unknown_total (hc : h.Calm) {id : UInt64} (hn : h.registry.get? id = none)
    {command : Command E}
    (hcommand : command = .unregister id ∨ ∃ properties, command = .setProperties id properties) :
    ∃ answer h', execute nested command h = .ok (answer, h') ∧ h.Calls c link command answer h' ∧
    h'.Calm :=
  ⟨.failed (Registry.unknownService id), h, execute_unknown nested hn hcommand,
    .unknown hn hcommand ⟨.refl _, rfl, fun _ _ => rfl⟩, hc⟩

/-- A call of the registry is carried out. -/
theorem execute_total (hc : h.Calm) (hl : h.registry.Linked c link) {command : Command E}
    (hcall : command.IsRegistryCall) : ∃ answer h', execute nested command h = .ok (answer, h') ∧
    h.Calls c link command answer h' ∧ h'.Calm := by
  cases command with
  | register properties =>
    obtain ⟨h', hr, hcalls, hcalm⟩ := register_total nested hc hl properties
    exact ⟨_, h', answered_ok hr, hcalls, hcalm⟩
  | setProperties id properties =>
    cases hf : h.registry.get? id with
    | none => exact unknown_total nested hc hf (.inr ⟨properties, rfl⟩)
    | some old =>
      obtain ⟨h', hr, hcalls, hcalm⟩ := setProperties_total nested hc hl hf properties
      exact ⟨_, h', answered_ok hr, hcalls, hcalm⟩
  | unregister id =>
    cases hf : h.registry.get? id with
    | none => exact unknown_total nested hc hf (.inl rfl)
    | some r =>
      obtain ⟨h', hr, hcalls, hcalm⟩ := unregister_total nested hc hl hf
      exact ⟨_, h', answered_ok hr, hcalls, hcalm⟩
  | _ => cases hcall

end Run

namespace Hub

variable {c : Nat} {h h' : Hub E} {link : Option ServiceFilter} {command : Command E}
  {answer : Answer}

namespace Calls

/-- What comes of a call is not changed by a hush. -/
theorem hush {h₁ : Hub E} (hcalls : h.Calls c link command answer h₁) (hh : h₁.Hush h') :
    h.Calls c link command answer h' := by
  cases hcalls with
  | registered hr hch => exact .registered hr (hch.hush hh)
  | modified hf hr hch => exact .modified hf hr (hch.hush hh)
  | unregistered hf hch => exact .unregistered hf (hch.hush hh)
  | unknown hn hc hch => exact .unknown hn hc (hch.hush hh)

/-- Nobody subscribes or unsubscribes by a call. -/
theorem linked (hcalls : h.Calls c link command answer h') (hl : h.registry.Linked c link) :
    h'.registry.Linked c link := by
  cases hcalls with
  | registered _ hch => exact hl.of_eq hch.registry.subscriptions
  | modified _ _ hch => exact hl.of_eq hch.registry.subscriptions
  | unregistered _ hch => exact hl.of_eq hch.registry.subscriptions
  | unknown _ _ hch => exact hl.of_eq hch.registry.subscriptions

end Calls

/-- The end of a command is noted in the trace. -/
theorem run_ok {depth : Nat} {h₁ : Hub E}
    (hr : Run.execute (Run.run depth) command h = .ok (answer, h₁)) :
    h.run (depth + 1) command = .ok (answer, h₁.record (.ended h₁.census)) :=
  Run.bind_eq_ok.2 ⟨answer, h₁, hr, rfl⟩

/-- A call of the registry reaches a result in a calm hub. -/
theorem call_total (hc : h.Calm) (hl : h.registry.Linked c link) (hcall : command.IsRegistryCall)
    (depth : Nat) : ∃ answer h', h.run (depth + 1) command = .ok (answer, h') ∧
    h.Calls c link command answer h' ∧ h'.Calm ∧ h'.registry.Linked c link := by
  obtain ⟨answer, h₁, hr, hcalls, hcalm⟩ :=
    Run.execute_total (Run.run depth) hc hl hcall
  refine ⟨answer, _, run_ok hr, hcalls.hush ⟨rfl, rfl⟩, hcalm, ?_⟩
  exact (hcalls.linked hl).of_eq rfl

/-- As long as nobody is subscribed the collection stays as it is. -/
theorem Calls.unheard (hcalls : h.Calls c none command answer h') :
    h'.collection c = h.collection c := by
  cases hcalls with
  | registered _ hch => exact hch.here
  | modified _ _ hch => exact hch.here
  | unregistered _ hch => exact hch.here
  | unknown _ _ hch => exact hch.here

/-! ## Many calls -/

/-- The second hub is reached by these commands. -/
def Reaches (depth : Nat) (h : Hub E) (commands : List (Command E)) (h' : Hub E) : Prop :=
  ∃ answers, h.runAll depth commands = .ok (answers, h')

theorem reaches_nil {depth : Nat} : h.Reaches depth [] h' ↔ h' = h := by
  constructor
  · rintro ⟨answers, hr⟩
    cases hr
    rfl
  · rintro rfl
    exact ⟨[], rfl⟩

theorem reaches_cons {depth : Nat} {commands : List (Command E)} :
    h.Reaches depth (command :: commands) h' ↔
      ∃ answer h₁, h.run depth command = .ok (answer, h₁) ∧ h₁.Reaches depth commands h' := by
  constructor
  · rintro ⟨answers, hr⟩
    obtain ⟨answer, h₁, rest, hrun, hrest, -⟩ := runAll_cons_eq_ok.1 hr
    exact ⟨answer, h₁, hrun, rest, hrest⟩
  · rintro ⟨answer, h₁, hrun, rest, hrest⟩
    exact ⟨_, runAll_cons_eq_ok.2 ⟨answer, h₁, rest, hrun, hrest, rfl⟩⟩

/-- What is reached in two stretches is reached in one. -/
theorem reaches_append {depth : Nat} {commands more : List (Command E)} :
    h.Reaches depth (commands ++ more) h' ↔
      ∃ h₁, h.Reaches depth commands h₁ ∧ h₁.Reaches depth more h' := by
  induction commands generalizing h with
  | nil =>
    constructor
    · intro hr
      exact ⟨h, reaches_nil.2 rfl, hr⟩
    · rintro ⟨h₁, hnil, hr⟩
      rw [reaches_nil.1 hnil] at hr
      exact hr
  | cons command commands ih =>
    rw [List.cons_append, reaches_cons]
    constructor
    · rintro ⟨answer, h₁, hrun, hr⟩
      obtain ⟨h₂, hr₁, hr₂⟩ := ih.1 hr
      exact ⟨h₂, reaches_cons.2 ⟨answer, h₁, hrun, hr₁⟩, hr₂⟩
    · rintro ⟨h₂, hr₁, hr₂⟩
      obtain ⟨answer, h₁, hrun, hr₁⟩ := reaches_cons.1 hr₁
      exact ⟨answer, h₁, hrun, ih.2 ⟨h₂, hr₁, hr₂⟩⟩

/-- A hub is reached by commands at most once. -/
theorem Reaches.unique {depth : Nat} {commands : List (Command E)} {h₁ h₂ : Hub E}
    (hr₁ : h.Reaches depth commands h₁) (hr₂ : h.Reaches depth commands h₂) : h₁ = h₂ := by
  obtain ⟨answers₁, hr₁⟩ := hr₁
  obtain ⟨answers₂, hr₂⟩ := hr₂
  rw [hr₁] at hr₂
  cases hr₂
  rfl

/-- Calls of the registry reach a hub, and it is calm again. -/
theorem calls_total (hc : h.Calm) (hl : h.registry.Linked c link) {calls : List (Command E)}
    (hcalls : ∀ command ∈ calls, command.IsRegistryCall) (depth : Nat) :
    ∃ h', h.Reaches (depth + 1) calls h' ∧ h'.Calm ∧ h'.registry.Linked c link ∧
    (link = none → h'.collection c = h.collection c) := by
  induction calls generalizing h with
  | nil => exact ⟨h, reaches_nil.2 rfl, hc, hl, fun _ => rfl⟩
  | cons command calls ih =>
    obtain ⟨answer, h₁, hrun, hcall, hc₁, hl₁⟩ :=
      call_total hc hl (hcalls command List.mem_cons_self) depth
    obtain ⟨h', hr, hc', hl', hstay⟩ :=
      ih hc₁ hl₁ fun other hmem => hcalls other (List.mem_cons_of_mem _ hmem)
    refine ⟨h', reaches_cons.2 ⟨answer, h₁, hrun, hr⟩, hc', hl', ?_⟩
    -- nobody is subscribed after the first call either, so the collection has not changed yet
    rintro rfl
    rw [hstay rfl, hcall.unheard]

/-- So does each beginning of such calls. -/
theorem prefix_total (hc : h.Calm) (hl : h.registry.Linked c link) {calls done : List (Command E)}
    (hcalls : ∀ command ∈ calls, command.IsRegistryCall) (hdone : done <+: calls) (depth : Nat) :
    ∃ h', h.Reaches (depth + 1) done h' ∧ h'.Calm ∧ h'.registry.Linked c link := by
  obtain ⟨h', hr, hcalm, hlinked, -⟩ :=
    calls_total hc hl (fun command hmem => hcalls command (hdone.subset hmem)) depth
  exact ⟨h', hr, hcalm, hlinked⟩

/-- What holds before the calls, and after each call if it holds before that call, holds after each
beginning of the calls. -/
theorem calls_induction {calls : List (Command E)} (depth : Nat)
    {I : List (Command E) → Hub E → Prop} (hc : h.Calm) (hl : h.registry.Linked c link)
    (hcalls : ∀ command ∈ calls, command.IsRegistryCall) (hnone : I [] h)
    (hstep : ∀ {done command g answer g'}, done ++ [command] <+: calls →
      h.Reaches (depth + 1) done g → g.Calls c link command answer g' → I done g →
      I (done ++ [command]) g') (done : List (Command E)) (hdone : done <+: calls) :
    ∃ g, h.Reaches (depth + 1) done g ∧ g.Calm ∧ g.registry.Linked c link ∧ I done g := by
  induction done using List.reverseRecOn with
  | nil => exact ⟨h, reaches_nil.2 rfl, hc, hl, hnone⟩
  | append_singleton done command ih =>
    obtain ⟨g, hr, hcalm, hlinked, hI⟩ := ih ((List.prefix_append _ _).trans hdone)
    obtain ⟨answer, g', hrun, hcall, hcalm', hlinked'⟩ :=
      call_total hcalm hlinked (hcalls command (hdone.subset (by simp))) depth
    refine ⟨g', ?_, hcalm', hlinked', hstep hdone hr hcall hI⟩
    exact reaches_append.2 ⟨g, hr, reaches_cons.2 ⟨answer, g', hrun, reaches_nil.2 rfl⟩⟩

end Hub

end LiveServices
