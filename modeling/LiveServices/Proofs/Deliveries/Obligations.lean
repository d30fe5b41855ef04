import LiveServices.Proofs.Calm.Calls
import LiveServices.Proofs.Mirror.Tracking
import LiveServices.Proofs.Run.Glimpses

/-!
# Reports that are owed

A registry that takes in a service owes a report of it to each subscription whose filter accepts
it, and a new subscription is owed a report of each service that is there. The registry pays one
report after the other. Meanwhile listeners may be called who let more services come, change and
go, and who subscribe and unsubscribe listeners; all that this makes due is paid before the next
one of the reports that wait. `Hub.Honors due h h'` says that in the steps from one hub to the
other the reports `due` were made.

The reports that were made and those that are owed are kept in one book, in which no two say to one
subscription that one service comes (`Registry.Books`). A report that is made changes nothing in
the book, and what becomes due is new there, because a number is given out once. So no subscription
is told twice of the coming of a service.

`Run.obliging_run` is the induction on the depth of the commands that listeners nest.
-/

namespace LiveServices

variable {E : Type}

/-! ## Listeners that do not panic -/

/-- A command that is for the registry only; the listener that it may bring does not panic, and
gives commands of this kind only. -/
inductive Command.IsPeaceful : Command E → Prop where
  | register (properties : Properties) : IsPeaceful (.register properties)
  | setProperties (id : UInt64) (properties : Properties) :
    IsPeaceful (.setProperties id properties)
  | unregister (id : UInt64) : IsPeaceful (.unregister id)
  | getService (id : UInt64) : IsPeaceful (.getService id)
  | references (filter : String) : IsPeaceful (.references filter)
  | registry : IsPeaceful .registry
  | addListener (home : Nat) (filter : String) {l : Listener E}
    (hfinish : ∀ told event message, (l.respond told (.event event)).finish ≠ .panic message)
    (hcommands : ∀ told event, ∀ command ∈ (l.respond told (.event event)).commands,
      IsPeaceful command) : IsPeaceful (.addListener home filter l)
  | removeListener (id : UInt64) : IsPeaceful (.removeListener id)

/-- A listener that does not panic when it is told of an event, and whose commands are for the
registry only. -/
structure Listener.IsPeaceful (l : Listener E) : Prop where
  finish : ∀ told event message, (l.respond told (.event event)).finish ≠ .panic message
  commands : ∀ told event, ∀ command ∈ (l.respond told (.event event)).commands,
    command.IsPeaceful

/-- A listener that is added by a peaceful command is peaceful. -/
theorem Command.IsPeaceful.listener {home : Nat} {filter : String} {l : Listener E}
    (hc : (Command.addListener home filter l).IsPeaceful) : l.IsPeaceful := by
  cases hc with
  | addListener _ _ hfinish hcommands => exact ⟨hfinish, hcommands⟩

/-- A subscription of such a listener. -/
def Subscription.IsPeaceful (s : Subscription E) : Prop :=
  ∃ l, s.target = .observer l ∧ l.listener.IsPeaceful

/-- A hub in which only such listeners are subscribed. -/
def Hub.IsPeaceful (h : Hub E) : Prop := ∀ s ∈ h.registry.subscriptions, s.IsPeaceful

/-! ## Books -/

namespace Report

/-- No two reports say to one subscription that one service comes. -/
def Distinct (p q : Report) : Prop :=
  p.2.kind = .registered → q.2.kind = .registered → p.1 = q.1 → p.2.reference.id ≠ q.2.reference.id

theorem Distinct.symm {p q : Report} (h : p.Distinct q) : q.Distinct p :=
  fun hq hp hs hid => h hp hq hs.symm hid.symm

end Report

namespace Registry

/-- The reports that are owed to those whose filters pass a test. -/
def owed (r : Registry E) (event : ServiceEvent) (wants : ServiceFilter → Bool) : List Report :=
  (r.subscriptions.filter fun s => wants s.filter).map fun s => (s.id, event)

/-- An event is owed to each subscription whose filter wants it. -/
theorem mem_owed {r : Registry E} {event : ServiceEvent} {wants : ServiceFilter → Bool}
    {p : Report} : p ∈ r.owed event wants ↔
      ∃ s ∈ r.subscriptions, wants s.filter = true ∧ (s.id, event) = p := by
  simp [owed, and_assoc]

/-- What is owed is of the kind of the event. -/
theorem kind_of_mem_owed {r : Registry E} {event : ServiceEvent} {wants : ServiceFilter → Bool}
    {p : Report} (hp : p ∈ r.owed event wants) : p.2.kind = event.kind := by
  obtain ⟨s, -, -, rfl⟩ := mem_owed.1 hp
  rfl

/-- The reports that are owed to a new subscription. -/
def arrears (r : Registry E) (filter : ServiceFilter) : List Report :=
  (r.references filter).map fun s => (r.nextSubscription, .registered s)

/-- The book of the reports that were made and are owed, in any order: they are about services and
to subscriptions that have a number, and no coming is in it twice. -/
structure Books (L : List Report) (r : Registry E) : Prop where
  rising : r.Rising
  apart : r.subscriptions.Pairwise (·.id < ·.id)
  service_lt : ∀ s ∈ r.services, s.id < r.nextService
  subscription_lt : ∀ s ∈ r.subscriptions, s.id < r.nextSubscription
  report_lt : ∀ p ∈ L, p.2.kind = .registered →
    p.1 < r.nextSubscription ∧ p.2.reference.id < r.nextService
  once : L.Pairwise Report.Distinct

/-- The books of an empty registry are empty. -/
theorem books_empty : Books [] ({} : Registry E) where
  rising := .nil
  apart := .nil
  service_lt _ hs := absurd hs List.not_mem_nil
  subscription_lt _ hs := absurd hs List.not_mem_nil
  report_lt _ hp := absurd hp List.not_mem_nil
  once := .nil

namespace Books

variable {r : Registry E} {L L' : List Report} {service old : ServiceReference}

/-- The order of the reports does not matter. -/
theorem of_perm (hb : r.Books L) (hp : L.Perm L') : r.Books L' where
  rising := hb.rising
  apart := hb.apart
  service_lt := hb.service_lt
  subscription_lt := hb.subscription_lt
  report_lt p hmem := hb.report_lt p (hp.mem_iff.2 hmem)
  once := hb.once.perm hp Report.Distinct.symm

/-- The number of deliveries is not in the book. -/
theorem deliver (hb : r.Books L) (n : Nat) : Books L { r with delivered := n } :=
  ⟨hb.rising, hb.apart, hb.service_lt, hb.subscription_lt, hb.report_lt, hb.once⟩

/-- Reports of changes and departures may be owed more than once. -/
theorem append_of_not_coming (hb : r.Books L) {new : List Report}
    (hnew : ∀ p ∈ new, p.2.kind ≠ .registered) : r.Books (new ++ L) where
  rising := hb.rising
  apart := hb.apart
  service_lt := hb.service_lt
  subscription_lt := hb.subscription_lt
  report_lt p hp hcomes := by
    rcases List.mem_append.1 hp with hp | hp
    · exact absurd hcomes (hnew p hp)
    · exact hb.report_lt p hp hcomes
  once := by
    refine List.pairwise_append.2 ⟨?_, hb.once, fun p hp _ _ hcomes => absurd hcomes (hnew p hp)⟩
    exact List.pairwise_of_forall_mem_list fun p hp _ _ hcomes => absurd hcomes (hnew p hp)

/-- Reports of one coming to several subscriptions, or of several comings to one. -/
theorem once_append (hb : r.Books L) {new : List Report} (hnew : new.Pairwise Report.Distinct)
    (hfresh : ∀ p ∈ new, r.nextSubscription ≤ p.1 ∨ r.nextService ≤ p.2.reference.id) :
    (new ++ L).Pairwise Report.Distinct := by
  refine List.pairwise_append.2 ⟨hnew, hb.once, fun p hp q hq _ hcomes hs hid => ?_⟩
  obtain ⟨hslt, hidlt⟩ := hb.report_lt q hq hcomes
  rcases hfresh p hp with hle | hle
  · exact absurd hslt (UInt64.not_lt.2 (hs ▸ hle))
  · exact absurd hidlt (UInt64.not_lt.2 (hid ▸ hle))

/-- **Coming.** A service that is registered has a number that is in no report. -/
theorem add (hb : r.Books L) (hroom : r.nextService.toNat + 1 < 2 ^ 64) (properties : Properties)
    (wants : ServiceFilter → Bool) : (r.add properties).2.Books
      (r.owed (.registered (.new r.nextService properties)) wants ++ L) := by
  have hmine : ∀ p ∈ r.owed (.registered (.new r.nextService properties)) wants,
      p.1 < r.nextSubscription ∧ p.2.reference.id = r.nextService := fun p hp => by
    obtain ⟨s, hs, -, rfl⟩ := mem_owed.1 hp
    exact ⟨hb.subscription_lt s hs, rfl⟩
  refine ⟨hb.rising.put, hb.apart, fun s hs => ?_, hb.subscription_lt, fun p hp hcomes => ?_,
    hb.once_append ?_ fun p hp => .inr (UInt64.le_of_eq (hmine p hp).2.symm)⟩
  · rcases Roster.mem_insert hs with rfl | hs
    · exact lt_next hroom UInt64.le_rfl
    · exact lt_next hroom (UInt64.le_of_lt (hb.service_lt s hs))
  · rcases List.mem_append.1 hp with hp | hp
    · obtain ⟨hs, hid⟩ := hmine p hp
      exact ⟨hs, lt_next hroom (UInt64.le_of_eq hid)⟩
    · obtain ⟨hs, hid⟩ := hb.report_lt p hp hcomes
      exact ⟨hs, lt_next hroom (UInt64.le_of_lt hid)⟩
  · -- each subscription is told once
    refine List.pairwise_map.2 ((hb.apart.filter _).imp fun hlt _ _ hs => ?_)
    exact absurd hs (UInt64.ne_of_lt hlt)

/-- **Subscribing.** A new subscription has a number that is in no report. -/
theorem subscribe (hb : r.Books L) (hroom : r.nextSubscription.toNat + 1 < 2 ^ 64)
    (filter : ServiceFilter) (target : Target E) :
    (r.subscribe filter target).2.Books (r.arrears filter ++ L) := by
  have hmine : ∀ p ∈ r.arrears filter,
      p.1 = r.nextSubscription ∧ p.2.reference.id < r.nextService := fun p hp => by
    obtain ⟨s, hs, rfl⟩ := List.mem_map.1 hp
    exact ⟨rfl, hb.service_lt s (List.mem_filter.1 hs).1⟩
  refine ⟨hb.rising, Roster.rising_insert hb.apart, hb.service_lt, fun s hs => ?_,
    fun p hp hcomes => ?_,
    hb.once_append ?_ fun p hp => .inl (UInt64.le_of_eq (hmine p hp).1.symm)⟩
  · rcases Roster.mem_insert hs with rfl | hs
    · exact lt_next hroom UInt64.le_rfl
    · exact lt_next hroom (UInt64.le_of_lt (hb.subscription_lt s hs))
  · rcases List.mem_append.1 hp with hp | hp
    · obtain ⟨hs, hid⟩ := hmine p hp
      exact ⟨lt_next hroom (UInt64.le_of_eq hs), hid⟩
    · obtain ⟨hs, hid⟩ := hb.report_lt p hp hcomes
      exact ⟨lt_next hroom (UInt64.le_of_lt hs), hid⟩
  · -- each service is reported once
    refine List.pairwise_map.2 ((hb.rising.filter _).imp fun hlt _ _ _ hid => ?_)
    exact absurd hid (UInt64.ne_of_lt hlt)

/-- A service that has a number is changed. -/
theorem put (hb : r.Books L) (hf : r.get? service.id = some old) : (r.put service).Books L where
  rising := hb.rising.put
  apart := hb.apart
  service_lt s hs := by
    rcases Roster.mem_insert hs with rfl | hs
    · exact Roster.key_of_find? hf ▸ hb.service_lt old (List.mem_of_find?_eq_some hf)
    · exact hb.service_lt s hs
  subscription_lt := hb.subscription_lt
  report_lt := hb.report_lt
  once := hb.once

/-- The books are kept when a service is taken away. -/
theorem remove (hb : r.Books L) (id : UInt64) : (r.remove id).Books L where
  rising := hb.rising.remove
  apart := hb.apart
  service_lt s hs := hb.service_lt s (List.mem_filter.1 hs).1
  subscription_lt := hb.subscription_lt
  report_lt := hb.report_lt
  once := hb.once

/-- They are kept when a subscription ends. -/
theorem unsubscribe (hb : r.Books L) (id : UInt64) : (r.unsubscribe id).2.Books L where
  rising := hb.rising
  apart := hb.apart.filter _
  service_lt := hb.service_lt
  subscription_lt s hs := hb.subscription_lt s (List.mem_filter.1 hs).1
  report_lt := hb.report_lt
  once := hb.once

end Books

end Registry

/-! ## Paying -/

namespace Hub

/-- The second hub comes after the first by steps in which these reports were made; no number was
given out without a trace, and a book that was right with these reports owed is right without
them. -/
structure Honors (due : List Report) (h h' : Hub E) : Prop where
  peaceful : h.IsPeaceful → h'.IsPeaceful
  made : ∃ recent, h'.reports = recent ++ h.reports ∧ ∀ p ∈ due, p ∈ recent
  length : h.trace.length ≤ h'.trace.length
  books : ∀ later, h.registry.issues + h'.trace.length < 2 ^ 64 + h.trace.length →
    h.registry.Books (due ++ (later ++ h.reports)) →
    h'.registry.Books (later ++ h'.reports) ∧
      h'.registry.issues + h.trace.length ≤ h.registry.issues + h'.trace.length

namespace Honors

variable {h h₁ h' : Hub E} {due due' : List Report}

/-- Where nothing is reported, nothing was owed. -/
theorem of_same (hr : h'.registry = h.registry) (hreports : h'.reports = h.reports)
    (hlen : h.trace.length ≤ h'.trace.length) : h.Honors [] h' where
  peaceful hp := by
    rw [IsPeaceful, hr]
    exact hp
  made := ⟨[], hreports, fun _ hp => absurd hp List.not_mem_nil⟩
  length := hlen
  books later _ hb := by
    rw [hreports, hr]
    exact ⟨hb, by omega⟩

theorem refl (h : Hub E) : h.Honors [] h := of_same rfl rfl (Nat.le_refl _)

theorem record {m : Moment E} (hm : m.report? = none) : h.Honors [] (h.record m) :=
  of_same rfl (List.filterMap_cons_none hm) (Nat.le_succ _)

theorem trans (h₁₂ : h.Honors due h₁) (h₂₃ : h₁.Honors due' h') : h.Honors (due ++ due') h' where
  peaceful hp := h₂₃.peaceful (h₁₂.peaceful hp)
  made := by
    obtain ⟨older, holder, hdue⟩ := h₁₂.made
    obtain ⟨newer, hnewer, hdue'⟩ := h₂₃.made
    refine ⟨newer ++ older, by rw [hnewer, holder, List.append_assoc], fun p hp => ?_⟩
    rcases List.mem_append.1 hp with hp | hp
    · exact List.mem_append_right _ (hdue p hp)
    · exact List.mem_append_left _ (hdue' p hp)
  length := Nat.le_trans h₁₂.length h₂₃.length
  books later hroom hb := by
    have hlen₁ := h₁₂.length
    have hlen₂ := h₂₃.length
    rw [List.append_assoc, ← List.append_assoc due'] at hb
    obtain ⟨hb₁, hissues₁⟩ := h₁₂.books (due' ++ later) (by omega) hb
    rw [List.append_assoc] at hb₁
    obtain ⟨hb₂, hissues₂⟩ := h₂₃.books later (by omega) hb₁
    exact ⟨hb₂, by omega⟩

/-- Reports are never taken back. -/
theorem suffix (hs : h.Honors due h') : h.reports <:+ h'.reports := by
  obtain ⟨recent, hrecent, -⟩ := hs.made
  exact ⟨recent, hrecent.symm⟩

/-- What was owed was reported. -/
theorem mem_reports (hs : h.Honors due h') {p : Report} (hp : p ∈ due) : p ∈ h'.reports := by
  obtain ⟨recent, hrecent, hdue⟩ := hs.made
  exact hrecent ▸ List.mem_append_left _ (hdue p hp)

/-- A report that is made is owed no more. -/
theorem of_report {s : UInt64} {event : ServiceEvent}
    (hs : (h.report s event).Honors [] h') : h.Honors [(s, event)] h' where
  peaceful hp := hs.peaceful hp
  made := by
    obtain ⟨recent, hrecent, -⟩ := hs.made
    refine ⟨recent ++ [(s, event)], by rw [hrecent, List.append_assoc]; rfl, fun p hp => ?_⟩
    exact List.mem_append_right _ hp
  length := Nat.le_of_succ_le hs.length
  books later hroom hb := by
    have hlen : h.trace.length + 1 ≤ h'.trace.length := hs.length
    -- the report goes from those that are owed to those that were made
    have hperm : ((s, event) :: (later ++ h.reports)).Perm (later ++ (s, event) :: h.reports) :=
      List.perm_middle.symm
    have hmade : (h.report s event).registry.Books (later ++ (h.report s event).reports) :=
      (hb.of_perm hperm).deliver _
    obtain ⟨hb', hissues⟩ := hs.books later
      (show h.registry.issues + h'.trace.length < 2 ^ 64 + (h.trace.length + 1) by omega) hmade
    have hissues : h'.registry.issues + (h.trace.length + 1) ≤
      h.registry.issues + h'.trace.length := hissues
    exact ⟨hb', by omega⟩

/-- A command changes the registry, pays what this makes due, and comes to its end. -/
theorem of_registry {g : Hub E} {census : Census} (hs : g.Honors due h')
    (hreports : g.reports = h.reports) (htrace : g.trace.length = h.trace.length)
    (hpeaceful : h.IsPeaceful → g.IsPeaceful)
    (hbooks : ∀ L, h.registry.issues + 1 < 2 ^ 64 → h.registry.Books L →
      g.registry.Books (due ++ L) ∧ g.registry.issues ≤ h.registry.issues + 1) :
    h.Honors [] (h'.record (.ended census)) where
  peaceful hp := hs.peaceful (hpeaceful hp)
  made := by
    obtain ⟨recent, hrecent, -⟩ := hs.made
    exact ⟨recent, hreports ▸ hrecent, fun _ hp => absurd hp List.not_mem_nil⟩
  length := htrace ▸ Nat.le_succ_of_le hs.length
  books later hroom hb := by
    have hlen : h.trace.length ≤ h'.trace.length := htrace ▸ hs.length
    -- the moment at which the command ended makes up for the number that it took
    have hroom : h.registry.issues + (h'.trace.length + 1) < 2 ^ 64 + h.trace.length := hroom
    obtain ⟨hb₁, hissues₁⟩ := hbooks _ (by omega) hb
    rw [← hreports] at hb₁
    obtain ⟨hb', hissues⟩ := hs.books later (by omega) hb₁
    refine ⟨hb', ?_⟩
    show h'.registry.issues + h.trace.length ≤ h.registry.issues + (h'.trace.length + 1)
    omega

end Honors

end Hub

end LiveServices
