import LiveServices.Proofs.Calm.Welcome
import LiveServices.Proofs.Registry.Ledger

/-!
# Collections track their reports

A faithful collection takes each service that it is told of and drops each one that it is told to
be gone. So it has just the services whose last report to its subscription was that they come
(`Hub.Tracked`), whatever the order of the reports.

The state listeners of a collection may let services come and go while a report is processed. The
reports that this makes due are made before the listener returns (`Hub.Settles`), among them perhaps
one that a service goes whose coming is still to be reported to others. Nothing is lost by this:
what the ledger of the registry tells after the reports that are due holds again when they were
made. The induction over the depth of nested commands is `Run.tracks_run`.
-/

namespace LiveServices

/-! ## Listeners -/

/-- A command that lets a service come or go. -/
def Command.IsTransit {E : Type} : Command E → Prop
  | .register _ | .unregister _ => True
  | _ => False

/-- A listener whose commands let services come and go. -/
def Listener.IsTransit {E : Type} (l : Listener E) : Prop :=
  ∀ told callback, ∀ command ∈ (l.respond told callback).commands, command.IsTransit

/-! ## Collections -/

namespace Collection

/-- A collection that takes and drops services as it is told. -/
structure Attentive (k : Collection Entry) : Prop where
  faithful : k.Faithful
  isOpen : k.closed = false
  releases : ∀ holding ∈ k.index, ∀ release ∈ holding.release, release.IsPassive

/-- A collection whose listeners do no more than let services come and go. -/
structure Confined (k : Collection Entry) : Prop where
  lifecycle : ∀ l ∈ k.lifecycleListeners, l.listener.IsTransit
  state : ∀ l ∈ k.stateListeners, l.listener.IsTransit

variable {k k' : Collection Entry} {r : ServiceReference} {id : UInt64}

/-- What leaves the entries and the standing alone leaves a collection attentive. -/
theorem Attentive.of_sameStock (hk : k.Attentive) (hs : k.SameStock k')
    (hclosed : k'.closed = k.closed) : k'.Attentive where
  faithful := hk.faithful.of_sameEntries ⟨hs.factory, hs.index, hs.items⟩ hs.mode
  isOpen := hclosed.trans hk.isOpen
  releases := hs.index ▸ hk.releases

/-- Nor does it change what the listeners of a collection do. -/
theorem Confined.of_sameStock (hk : k.Confined) (hs : k.SameStock k') : k'.Confined where
  lifecycle := hs.lifecycle ▸ hk.lifecycle
  state := hs.state ▸ hk.state

/-- A collection that takes a service stays attentive, and has that service besides the others. -/
theorem Attentive.takes (hk : k.Attentive) (ht : k.Takes r k') :
    k'.Attentive ∧ ∀ x, x ∈ k'.identities ↔ x ∈ k.identities ∨ x = r.id := by
  obtain ⟨hfaithful, hmem⟩ := hk.faithful.takes hk.isOpen ht
  refine ⟨⟨hfaithful, ?_, ?_⟩, hmem⟩
  · obtain ⟨index, storage, rfl⟩ := ht.gains.frame
    exact hk.isOpen
  · cases ht with
    | passed | unmade | refused => exact hk.releases
    | admitted _ _ hm _ =>
      obtain ⟨proxies, hfactory⟩ := hk.faithful.factory
      intro holding hin release hrelease
      rcases Roster.mem_insert hin with rfl | hin
      · obtain rfl : _ = some release := hrelease
        exact Factory.isPassive_ofProxies proxies _ _ _ _ (hfactory ▸ hm)
      · exact hk.releases holding hin release hrelease

/-- Nothing but the index and the storage changes when a service is dropped. -/
theorem Drops.frame (hd : k.Drops id k') :
    ∃ index storage, k' = { k with index := index, storage := storage } := by
  cases hd with
  | absent => exact ⟨_, _, rfl⟩
  | found => exact ⟨_, _, rfl⟩

/-- A collection that drops a service stays attentive. -/
theorem Attentive.drops (hk : k.Attentive) (hd : k.Drops id k') : k'.Attentive := by
  refine ⟨hk.faithful.drops hd, ?_, ?_⟩
  · cases hd with
    | absent => exact hk.isOpen
    | found => exact hk.isOpen
  · cases hd with
    | absent => exact hk.releases
    | found => exact fun holding hin => hk.releases holding (List.mem_filter.1 hin).1

end Collection

/-! ## Hubs -/

/-- How many numbers a registry gave out, and the one that services start with. -/
def Registry.issues {E : Type} (r : Registry E) : Nat :=
  r.nextService.toNat + r.nextSubscription.toNat

namespace Hub

/-- Every subscription is that of the importer of a collection, and the collection has the services
whose last report to the subscription was that they come. -/
structure Tracked (h : Hub Entry) : Prop where
  rising : h.registry.subscriptions.Pairwise (·.id < ·.id)
  confined : ∀ c, (h.collection c).Confined
  attentive : ∀ c, (h.collection c).dropped = false → (h.collection c).Attentive
  target : ∀ sub ∈ h.registry.subscriptions, ∃ c, sub.target = .importer c ∧
    (h.collection c).dropped = false ∧ sub.filter = (h.collection c).dependency.filter
  apart : ∀ sub ∈ h.registry.subscriptions, ∀ sub' ∈ h.registry.subscriptions, ∀ c,
    sub.target = .importer c → sub'.target = .importer c → sub' = sub
  current : ∀ sub ∈ h.registry.subscriptions, ∀ c, sub.target = .importer c → ∀ id,
    id ∈ (h.collection c).identities ↔ lastKind? h.reports sub.id id = some .registered
  blank : ∀ c, (∀ sub ∈ h.registry.subscriptions, sub.target ≠ .importer c) →
    (h.collection c).identities = []

/-- Which collection a subscription is that of. -/
theorem Tracked.of_target {h : Hub Entry} {sub : Subscription Entry} {c : Nat} (ht : h.Tracked)
    (hsub : sub ∈ h.registry.subscriptions) (htarget : sub.target = .importer c) :
    (h.collection c).dropped = false ∧ sub.filter = (h.collection c).dependency.filter := by
  obtain ⟨d, hd, hboth⟩ := ht.target sub hsub
  obtain rfl : c = d := Target.importer.inj (htarget.symm.trans hd)
  exact hboth

/-- Two hubs with the same subscriptions and reports, and with the same stock in each collection. -/
structure SameMirrors (h h' : Hub Entry) : Prop where
  subscriptions : h'.registry.subscriptions = h.registry.subscriptions
  reports : h'.reports = h.reports
  stock : ∀ c, (h.collection c).SameStock (h'.collection c)
  closed : ∀ c, (h'.collection c).closed = (h.collection c).closed
  dropped : ∀ c, (h'.collection c).dropped = (h.collection c).dropped

/-- Importers stay on track where nothing changes that they follow. -/
theorem Tracked.of_same {h h' : Hub Entry} (ht : h.Tracked) (hs : h.SameMirrors h') :
    h'.Tracked where
  rising := hs.subscriptions ▸ ht.rising
  confined c := (ht.confined c).of_sameStock (hs.stock c)
  attentive c hc := (ht.attentive c (hs.dropped c ▸ hc)).of_sameStock (hs.stock c) (hs.closed c)
  target sub hsub := by
    rw [hs.subscriptions] at hsub
    obtain ⟨c, htarget, hc, hfilter⟩ := ht.target sub hsub
    refine ⟨c, htarget, (hs.dropped c).trans hc, ?_⟩
    rw [(hs.stock c).dependency]
    exact hfilter
  apart := hs.subscriptions ▸ ht.apart
  current sub hsub c hc id := by
    rw [hs.subscriptions] at hsub
    rw [(hs.stock c).identities, hs.reports]
    exact ht.current sub hsub c hc id
  blank c hc := by
    rw [hs.subscriptions] at hc
    rw [(hs.stock c).identities]
    exact ht.blank c hc

/-- The second hub comes after the first by steps in which these reports were made, and with them
all that became due on the way; no number was given out without a trace. -/
structure Settles (due : List Report) (h h' : Hub Entry) : Prop where
  subscriptions : h'.registry.subscriptions = h.registry.subscriptions
  standing : ∀ c, (h.collection c).SameStanding (h'.collection c)
  dependency : ∀ c, (h'.collection c).dependency = (h.collection c).dependency
  length : h.trace.length ≤ h'.trace.length
  ledger : ∀ later, h.registry.issues + h'.trace.length < 2 ^ 64 + h.trace.length →
    h.registry.Ledger (due ++ (later ++ h.reports)) →
    h'.registry.Ledger (later ++ h'.reports) ∧
      h'.registry.issues + h.trace.length ≤ h.registry.issues + h'.trace.length

variable {h h₁ h₂ h' : Hub Entry} {due due' : List Report}

/-- Where no report is made, none became due. -/
theorem Settles.of_same (hr : h'.registry = h.registry) (hreports : h'.reports = h.reports)
    (hs : ∀ c, (h.collection c).SameStanding (h'.collection c))
    (hd : ∀ c, (h'.collection c).dependency = (h.collection c).dependency)
    (hlen : h.trace.length ≤ h'.trace.length) : h.Settles [] h' where
  subscriptions := by rw [hr]
  standing := hs
  dependency := hd
  length := hlen
  ledger later _ hl := by
    rw [hreports, hr]
    exact ⟨hl, by omega⟩

theorem Settles.refl (h : Hub Entry) : h.Settles [] h :=
  .of_same rfl rfl (fun _ => .refl _) (fun _ => rfl) (Nat.le_refl _)

/-- What is due after two steps is what the first made due and then what the second did. -/
theorem Settles.trans (h₁₂ : h.Settles due h₁) (h₂₃ : h₁.Settles due' h') :
    h.Settles (due ++ due') h' where
  subscriptions := h₂₃.subscriptions.trans h₁₂.subscriptions
  standing c := (h₁₂.standing c).trans (h₂₃.standing c)
  dependency c := (h₂₃.dependency c).trans (h₁₂.dependency c)
  length := Nat.le_trans h₁₂.length h₂₃.length
  ledger later hroom hl := by
    have hlen₁ := h₁₂.length
    have hlen₂ := h₂₃.length
    rw [List.append_assoc, ← List.append_assoc due'] at hl
    obtain ⟨hl₁, hissues₁⟩ := h₁₂.ledger (due' ++ later) (by omega) hl
    rw [List.append_assoc] at hl₁
    obtain ⟨hl₂, hissues₂⟩ := h₂₃.ledger later (by omega) hl₁
    exact ⟨hl₂, by omega⟩

/-- A command changes the registry, settles what this makes due, and comes to its end. -/
theorem Settles.of_registry {r : Registry Entry} {census : Census}
    (hsubs : r.subscriptions = h.registry.subscriptions)
    (hledger : ∀ L, h.registry.issues + 1 < 2 ^ 64 → h.registry.Ledger L →
      r.Ledger (due ++ L) ∧ r.issues ≤ h.registry.issues + 1)
    (hs : ({ h with registry := r } : Hub Entry).Settles due h') :
    h.Settles [] (h'.record (.ended census)) where
  subscriptions := hs.subscriptions.trans hsubs
  standing := hs.standing
  dependency := hs.dependency
  length := Nat.le_succ_of_le hs.length
  ledger later hroom hl := by
    have hlen : h.trace.length ≤ h'.trace.length := hs.length
    -- the moment at which the command ended makes up for the number that it took
    have hroom : h.registry.issues + (h'.trace.length + 1) < 2 ^ 64 + h.trace.length := hroom
    obtain ⟨hl₁, hissues₁⟩ := hledger _ (by omega) hl
    obtain ⟨hl', hissues⟩ := hs.ledger later
      (show r.issues + h'.trace.length < 2 ^ 64 + h.trace.length by omega) hl₁
    have hissues : h'.registry.issues + h.trace.length ≤ r.issues + h'.trace.length := hissues
    refine ⟨hl', ?_⟩
    show h'.registry.issues + h.trace.length ≤ h.registry.issues + (h'.trace.length + 1)
    omega

/-- A hub that is tracked is tracked afterwards, and what became due was made. -/
def Tracks (h h' : Hub Entry) : Prop := h.Tracked → h'.Tracked ∧ h.Settles [] h'

theorem Tracks.of_same (hr : h'.registry = h.registry) (hreports : h'.reports = h.reports)
    (hstock : ∀ c, (h.collection c).SameStock (h'.collection c))
    (hs : ∀ c, (h.collection c).SameStanding (h'.collection c))
    (hlen : h.trace.length ≤ h'.trace.length) : h.Tracks h' := fun ht =>
  ⟨ht.of_same ⟨by rw [hr], hreports, hstock, fun c => (hs c).closed, fun c => (hs c).dropped⟩,
    .of_same hr hreports hs (fun c => (hstock c).dependency) hlen⟩

instance : Rule Tracks where
  beside {h h'} hb := by
    obtain ⟨recent, htrace, -⟩ := hb.aside.trace
    refine .of_same hb.registry hb.reports hb.aside.stock hb.standing ?_
    rw [htrace, List.length_append]
    exact Nat.le_add_left _ _
  trans h₁₂ h₂₃ ht := by
    obtain ⟨ht₁, hs₁⟩ := h₁₂ ht
    obtain ⟨ht₂, hs₂⟩ := h₂₃ ht₁
    exact ⟨ht₂, hs₁.trans hs₂⟩

/-- The beginning of a call. -/
theorem tracks_called (h : Hub Entry) (tag : ListenerTag) (callback : Callback Entry)
    (glimpse : Glimpse) : h.Tracks (h.record (.called tag callback glimpse)) :=
  .of_same rfl rfl (fun _ => .refl _) (fun _ => .refl _) (Nat.le_succ _)

/-- The beginning of a release. -/
theorem tracks_released (h : Hub Entry) (c serial : Nat) (service : UInt64) (census : Census)
    (announced : Bool) : h.Tracks { h.record (.releasing c serial service census announced) with
      released := serial :: h.released } :=
  .of_same rfl rfl (fun _ => .refl _) (fun _ => .refl _) (Nat.le_succ _)

end Hub

end LiveServices
