import LiveServices.Proofs.Mirror.Reports

/-!
# Services come and go

A service that comes or goes makes reports due, and the registry delivers them one after the other.
While one of them is delivered, listeners may let other services come and go; all that this makes
due is delivered before the next one of the reports that wait. So a delivery leaves a tracked hub
tracked and settles what was due before it (`Run.deliveries_settle`), and a command that lets a
service come or go settles what it makes due (`Run.tracks_run`). The induction is on the depth of
the commands that listeners nest.

The registry gives out a number for each service that comes. Every command leaves a moment in the
trace, so there are fewer numbers than moments, and they do not run out before those do.
-/

namespace LiveServices

namespace Run

open Hub (Tracks)

variable {nested : Nested Entry} {h h' : Hub Entry} {sub : Subscription Entry}
  {event : ServiceEvent} {result : Except Trouble Unit}

section Deliveries

variable (hn : ∀ command, command.IsTransit → Keeps Tracks (nested command))
include hn

/-- One report that is due is made. -/
theorem delivery_settles (ht : h.Tracked) (hsub : sub ∈ h.registry.subscriptions)
    (hkind : event.kind = .registered ∨ event.kind = .unregistering)
    (hr : (deliver nested sub event).run h = .ok (result, h')) :
    result = .ok () ∧ h'.Tracked ∧ h.Settles [(sub.id, event)] h' := by
  obtain ⟨c, htarget, -, -⟩ := ht.target sub hsub
  have hdeliver : (deliver nested sub event).run h =
      (liftM (serviceChanged nested c event) : Act Entry Unit).run (h.report sub.id event) := by
    let h₁ : Hub Entry := { h with registry.delivered := h.registry.delivered + 1 }
    unfold deliver
    rw [act_bind (a := ()) (g := h₁) rfl, act_bind (a := ()) (g := h.report sub.id event) rfl,
      htarget]
    rfl
  rw [hdeliver] at hr
  obtain ⟨u, hchanged, rfl⟩ := act_lift_ok hr
  obtain ⟨ht', hs⟩ := serviceChanged_settles hn ht hsub htarget hkind hchanged
  exact ⟨rfl, ht', .of_report hs⟩

/-- **Reports that are due** are made one after the other. -/
theorem deliveries_settle {γ : Type} (whom : γ → Subscription Entry) (what : γ → ServiceEvent)
    {l : List γ} (ht : h.Tracked) (hwhom : ∀ a ∈ l, whom a ∈ h.registry.subscriptions)
    (hwhat : ∀ a ∈ l, (what a).kind = .registered ∨ (what a).kind = .unregistering)
    (hr : (l.forM fun a => deliver nested (whom a) (what a)).run h = .ok (result, h')) :
    result = .ok () ∧ h'.Tracked ∧ h.Settles (l.map fun a => ((whom a).id, what a)) h' := by
  induction l generalizing h with
  | nil =>
    obtain ⟨rfl, rfl⟩ := pure_eq_ok.1 hr
    exact ⟨rfl, ht, .refl h⟩
  | cons a l ih =>
    obtain ⟨first, h₁, hfirst, hrest⟩ := act_bind_ok hr
    obtain ⟨rfl, ht₁, hs₁⟩ := delivery_settles hn ht (hwhom a List.mem_cons_self)
      (hwhat a List.mem_cons_self) hfirst
    obtain ⟨rfl, ht', hs'⟩ := ih ht₁
      (fun b hb => hs₁.subscriptions ▸ hwhom b (List.mem_cons_of_mem _ hb))
      (fun b hb => hwhat b (List.mem_cons_of_mem _ hb)) (hrest () rfl)
    exact ⟨rfl, ht', hs₁.trans hs'⟩

/-- Those are told of a service that comes or goes whom it concerns. -/
theorem deliverAll_settles (event : ServiceEvent) (ht : h.Tracked)
    (hkind : event.kind = .registered ∨ event.kind = .unregistering)
    (hr : (deliverAll nested event fun filter =>
      filter.accepts event.reference.properties).run h = .ok (result, h')) :
    result = .ok () ∧ h'.Tracked ∧ h.Settles (h.registry.notices event) h' :=
  deliveries_settle hn id (fun _ => event) ht (fun _ hmem => (List.mem_filter.1 hmem).1)
    (fun _ _ => hkind) hr

end Deliveries

/-! ## Commands -/

section Commands

variable (hn : ∀ command, command.IsTransit → Keeps Tracks (nested command))
include hn

/-- A service comes, and those are told whom it concerns. -/
theorem register_settles {properties : Properties} {a : Except Trouble ServiceReference}
    (ht : h.Tracked) (hr : (register nested properties).run h = .ok (a, h')) :
    h'.Tracked ∧ ({ h with registry := (h.registry.add properties).2 } : Hub Entry).Settles
      (h.registry.notices (.registered (.new h.registry.nextService properties))) h' := by
  let r := ServiceReference.new h.registry.nextService properties
  let h₁ : Hub Entry := { h with registry := (h.registry.add properties).2 }
  have ht₁ : h₁.Tracked := ht.of_same ⟨rfl, rfl, fun _ => .refl _, fun _ => rfl, fun _ => rfl⟩
  unfold register at hr
  rw [act_bind (a := r) (g := h₁) rfl] at hr
  obtain ⟨told, h₂, htold, hdone⟩ := act_bind_ok hr
  obtain ⟨rfl, ht₂, hs⟩ := deliverAll_settles hn (.registered r) ht₁ (.inl rfl) htold
  obtain ⟨-, rfl⟩ := pure_eq_ok.1 (hdone () rfl)
  exact ⟨ht₂, hs⟩

/-- A service goes, and those are told whom it concerned. -/
theorem unregister_settles {id : UInt64} {service : ServiceReference} (ht : h.Tracked)
    (hf : h.registry.get? id = some service)
    (hr : (unregister nested id).run h = .ok (result, h')) :
    h'.Tracked ∧ ({ h with registry := h.registry.remove id } : Hub Entry).Settles
      (h.registry.notices (.unregistering service)) h' := by
  let h₁ : Hub Entry := { h with registry := h.registry.remove id }
  have ht₁ : h₁.Tracked := ht.of_same ⟨rfl, rfl, fun _ => .refl _, fun _ => rfl, fun _ => rfl⟩
  have hdeliver : (unregister nested id).run h = (deliverAll nested (.unregistering service)
      fun filter => filter.accepts service.properties).run h₁ := by
    unfold unregister
    rw [act_bind (a := h) (g := h) rfl, hf]
    exact act_bind (a := ()) (g := h₁) rfl
  rw [hdeliver] at hr
  exact (deliverAll_settles hn (.unregistering service) ht₁ (.inr rfl) hr).2

/-- A command that lets a service come or go settles what it makes due. -/
theorem tracks_execute {command : Command Entry} {answer : Answer} (hc : command.IsTransit)
    (ht : h.Tracked) (hr : execute nested command h = .ok (answer, h')) (census : Census) :
    (h'.record (.ended census)).Tracked ∧ h.Settles [] (h'.record (.ended census)) := by
  have hend : Tracks h' (h'.record (.ended census)) := Hub.Rule.beside (.record trivial rfl)
  cases command with
  | register properties =>
    obtain ⟨a, hregister⟩ := run_of_answered hr
    obtain ⟨ht', hs⟩ := register_settles hn ht hregister
    refine ⟨(hend ht').1, .of_registry (r := (h.registry.add properties).2) rfl
      (fun L hroom hl => ?_) hs⟩
    have hnext : h.registry.nextService.toNat + 1 < 2 ^ 64 := by
      rw [Registry.issues] at hroom
      omega
    refine ⟨hl.add hnext properties, ?_⟩
    show (h.registry.nextService + 1).toNat + h.registry.nextSubscription.toNat ≤ _
    rw [Registry.toNat_next hnext, Registry.issues]
    omega
  | unregister id =>
    cases hf : h.registry.get? id with
    | none =>
      -- there is no such service
      rw [execute_unknown nested hf (.inl rfl)] at hr
      obtain ⟨-, rfl⟩ := Prod.mk.inj (Except.ok.inj hr)
      exact hend ht
    | some service =>
      obtain ⟨a, hunregister⟩ := run_of_answered hr
      obtain ⟨ht', hs⟩ := unregister_settles hn ht hf hunregister
      refine ⟨(hend ht').1, .of_registry (r := h.registry.remove id) rfl
        (fun L _ hl => ⟨hl.remove hf, ?_⟩) hs⟩
      exact Nat.le_succ _
  | _ => exact hc.elim

end Commands

/-- **Runs.** A command that lets a service come or go keeps a hub tracked, and what it makes due
is settled when it is carried out. -/
theorem tracks_run (depth : Nat) {command : Command Entry} (hc : command.IsTransit) :
    Keeps Tracks (run depth command) := by
  induction depth generalizing command with
  -- without depth a command halts
  | zero => exact .throw _
  | succ depth ih =>
    intro h answer h' hr ht
    obtain ⟨answer', h₁, hexecute, hend⟩ := bind_eq_ok.1 hr
    obtain rfl : h₁.record (.ended h₁.census) = h' := congrArg Prod.snd (Except.ok.inj hend)
    exact tracks_execute (fun _ => ih) hc ht hexecute _

end Run

end LiveServices
