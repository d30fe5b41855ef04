import LiveServices.Event
import LiveServices.Proofs.Registry.Matching

/-!
# The ledger of a registry

A report is an event that a subscription is told of. The ledger of a registry has the reports
that were made and those that are due, in any order: a service that comes or goes makes a report
due to each subscription that its filter concerns (`Registry.notices`), and a new subscription is
due a report of each service that is there.

`Registry.Ledger` says what the ledger then knows of the services. A report that is made only
moves from the due ones to those that were made, so it changes nothing here (`Ledger.of_perm`):
all that can go wrong by nesting is the order in which reports are made.

The order decides what a subscription was told last of a service (`lastKind?`). It is that the
service came just if the service is there, or if the two reports of its coming and its going were
made in reverse (`Ledger.last_registered_iff`).
-/

namespace LiveServices

/-- An event that a subscription is told of. -/
abbrev Report := UInt64 × ServiceEvent

namespace Report

/-- Whether a report is about this service and to this subscription. -/
def concerns (subscription service : UInt64) (p : Report) : Bool :=
  p.1 == subscription && p.2.reference.id == service

theorem concerns_iff {s id : UInt64} {p : Report} :
    p.concerns s id = true ↔ p.1 = s ∧ p.2.reference.id = id := by simp [concerns]

/-- No two reports say to one subscription that one service goes. -/
def Apart (p q : Report) : Prop :=
  p.2.kind = .unregistering → q.2.kind = .unregistering → p.1 = q.1 →
    p.2.reference.id ≠ q.2.reference.id

theorem Apart.symm {p q : Report} (h : p.Apart q) : q.Apart p :=
  fun hq hp hs hid => h hp hq hs.symm hid.symm

end Report

/-- What a subscription was told last of a service, the latest report first. -/
def lastKind? (reports : List Report) (subscription service : UInt64) : Option EventKind :=
  (reports.find? (·.concerns subscription service)).map (·.2.kind)

/-- A subscription was told that a service comes after it was told that it goes; the latest report
stands first. -/
def Reversed (reports : List Report) (subscription service : UInt64) : Prop :=
  ∃ r r' : ServiceReference, r.id = service ∧ r'.id = service ∧
    [(subscription, .registered r), (subscription, .unregistering r')].Sublist reports

namespace Registry

theorem toNat_next {n : UInt64} (hroom : n.toNat + 1 < 2 ^ 64) : (n + 1).toNat = n.toNat + 1 := by
  rw [UInt64.toNat_add]
  exact Nat.mod_eq_of_lt hroom

theorem lt_next {n x : UInt64} (hroom : n.toNat + 1 < 2 ^ 64) (hx : x ≤ n) : x < n + 1 := by
  rw [UInt64.lt_iff_toNat_lt, toNat_next hroom]
  exact Nat.lt_succ_of_le (UInt64.le_iff_toNat_le.1 hx)

variable {E : Type} {r : Registry E} {L L' : List Report} {sub : Subscription E}
  {s id : UInt64} {service : ServiceReference} {filter : ServiceFilter}

/-- Subscriptions are told apart by their numbers. -/
theorem eq_of_subscription_id (hr : r.subscriptions.Pairwise (·.id < ·.id)) {sub' : Subscription E}
    (hs : sub ∈ r.subscriptions) (hs' : sub' ∈ r.subscriptions) (hid : sub.id = sub'.id) :
    sub = sub' := by
  have hfound := Roster.find?_of_mem hr hs
  rw [hid, Roster.find?_of_mem hr hs'] at hfound
  exact (Option.some.inj hfound).symm

/-- The reports that an event makes due. -/
def notices (r : Registry E) (event : ServiceEvent) : List Report :=
  (r.subscriptions.filter fun sub => sub.filter.accepts event.reference.properties).map
    fun sub => (sub.id, event)

theorem mem_notices {p : Report} {event : ServiceEvent} : p ∈ r.notices event ↔
    ∃ sub ∈ r.subscriptions, sub.filter.accepts event.reference.properties = true ∧
      (sub.id, event) = p := by
  simp [notices, and_assoc]

/-- What the reports that were made and are due tell of a registry. -/
structure Ledger (L : List Report) (r : Registry E) : Prop where
  rising : r.Rising
  apart : r.subscriptions.Pairwise (·.id < ·.id)
  service_lt : ∀ s ∈ r.services, s.id < r.nextService
  subscription_lt : ∀ sub ∈ r.subscriptions, sub.id < r.nextSubscription
  report_lt : ∀ p ∈ L, p.1 < r.nextSubscription ∧ p.2.reference.id < r.nextService
  kind : ∀ p ∈ L, p.2.kind = .registered ∨ p.2.kind = .unregistering
  present : ∀ sub ∈ r.subscriptions, ∀ s ∈ r.services, sub.filter.accepts s.properties = true →
    (sub.id, .registered s) ∈ L
  absent : ∀ sub ∈ r.subscriptions, ∀ s, (sub.id, .registered s) ∈ L →
    sub.filter.accepts s.properties = true ∧ (s ∈ r.services ∨ (sub.id, .unregistering s) ∈ L)
  gone : ∀ p ∈ L, p.2.kind = .unregistering → ∀ s ∈ r.services, s.id ≠ p.2.reference.id
  once : L.Pairwise Report.Apart

theorem ledger_empty : Ledger [] ({} : Registry E) where
  rising := .nil
  apart := .nil
  service_lt _ hs := absurd hs List.not_mem_nil
  subscription_lt _ hs := absurd hs List.not_mem_nil
  report_lt _ hp := absurd hp List.not_mem_nil
  kind _ hp := absurd hp List.not_mem_nil
  present _ hs := absurd hs List.not_mem_nil
  absent _ hs := absurd hs List.not_mem_nil
  gone _ hp := absurd hp List.not_mem_nil
  once := .nil

namespace Ledger

/-- The order of the reports does not matter. -/
theorem of_perm (hl : r.Ledger L) (hp : L.Perm L') : r.Ledger L' where
  rising := hl.rising
  apart := hl.apart
  service_lt := hl.service_lt
  subscription_lt := hl.subscription_lt
  report_lt p hmem := hl.report_lt p (hp.mem_iff.2 hmem)
  kind p hmem := hl.kind p (hp.mem_iff.2 hmem)
  present sub hsub s hs haccepts := hp.mem_iff.1 (hl.present sub hsub s hs haccepts)
  absent sub hsub s hmem := by
    obtain ⟨haccepts, hs⟩ := hl.absent sub hsub s (hp.mem_iff.2 hmem)
    exact ⟨haccepts, hs.imp_right hp.mem_iff.1⟩
  gone p hmem := hl.gone p (hp.mem_iff.2 hmem)
  once := hl.once.perm hp Report.Apart.symm

/-- The number of deliveries is not in the ledger. -/
theorem deliver (hl : r.Ledger L) (n : Nat) : Ledger L { r with delivered := n } :=
  ⟨hl.rising, hl.apart, hl.service_lt, hl.subscription_lt, hl.report_lt, hl.kind, hl.present,
    hl.absent, hl.gone, hl.once⟩

/-- More reports that a service comes. -/
theorem once_append (hl : r.Ledger L) {new : List Report}
    (hnew : ∀ p ∈ new, p.2.kind = .registered) : (new ++ L).Pairwise Report.Apart := by
  have hcomes : ∀ p ∈ new, ∀ q, Report.Apart p q := fun p hp q hgoes => by
    rw [hnew p hp] at hgoes
    cases hgoes
  refine List.pairwise_append.2 ⟨?_, hl.once, fun p hp q _ => hcomes p hp q⟩
  exact List.pairwise_of_forall_mem_list fun p hp q _ => hcomes p hp q

/-- **Coming.** A service that is registered makes reports due to those whom it concerns. -/
theorem add (hl : r.Ledger L) (hroom : r.nextService.toNat + 1 < 2 ^ 64)
    (properties : Properties) : (r.add properties).2.Ledger
      (r.notices (.registered (.new r.nextService properties)) ++ L) := by
  let t := ServiceReference.new r.nextService properties
  -- the number of the service is new
  have hfresh : ∀ s ∈ r.services, s.id ≠ t.id := fun s hs => UInt64.ne_of_lt (hl.service_lt s hs)
  have hmem (s : ServiceReference) :
      s ∈ (r.add properties).2.services ↔ s = t ∨ s ∈ r.services ∧ s.id ≠ t.id :=
    Roster.mem_insert_iff hl.rising
  have hcomes : ∀ p ∈ r.notices (.registered t), p.2 = .registered t := fun p hp => by
    obtain ⟨sub, -, -, rfl⟩ := mem_notices.1 hp
    rfl
  refine ⟨hl.rising.put, hl.apart, fun s hs => ?_, hl.subscription_lt, fun p hp => ?_,
    fun p hp => ?_, fun sub hsub s hs haccepts => ?_, fun sub hsub s hp => ?_,
    fun p hp hgoes s hs => ?_, hl.once_append fun p hp => congrArg ServiceEvent.kind (hcomes p hp)⟩
  · rcases (hmem s).1 hs with rfl | ⟨hs, -⟩
    · exact lt_next hroom UInt64.le_rfl
    · exact lt_next hroom (UInt64.le_of_lt (hl.service_lt s hs))
  · rcases List.mem_append.1 hp with hp | hp
    · obtain ⟨sub, hsub, -, rfl⟩ := mem_notices.1 hp
      exact ⟨hl.subscription_lt sub hsub, lt_next hroom UInt64.le_rfl⟩
    · obtain ⟨hs, hid⟩ := hl.report_lt p hp
      exact ⟨hs, lt_next hroom (UInt64.le_of_lt hid)⟩
  · rcases List.mem_append.1 hp with hp | hp
    · exact .inl (congrArg ServiceEvent.kind (hcomes p hp))
    · exact hl.kind p hp
  · rcases (hmem s).1 hs with rfl | ⟨hs, -⟩
    · exact List.mem_append_left _ (mem_notices.2 ⟨sub, hsub, haccepts, rfl⟩)
    · exact List.mem_append_right _ (hl.present sub hsub s hs haccepts)
  · rcases List.mem_append.1 hp with hp | hp
    · obtain ⟨sub', hsub', haccepts, heq⟩ := mem_notices.1 hp
      obtain ⟨hid, hs⟩ := Prod.mk.inj heq
      obtain rfl := eq_of_subscription_id hl.apart hsub' hsub hid
      obtain rfl : t = s := congrArg ServiceEvent.reference hs
      exact ⟨haccepts, .inl ((hmem t).2 (.inl rfl))⟩
    · obtain ⟨haccepts, hs⟩ := hl.absent sub hsub s hp
      refine ⟨haccepts, hs.imp (fun hs => ?_) (List.mem_append_right _)⟩
      exact (hmem s).2 (.inr ⟨hs, hfresh s hs⟩)
  · rcases List.mem_append.1 hp with hp | hp
    · rw [hcomes p hp] at hgoes
      cases hgoes
    · rcases (hmem s).1 hs with rfl | ⟨hs, -⟩
      · exact (UInt64.ne_of_lt (hl.report_lt p hp).2).symm
      · exact hl.gone p hp hgoes s hs

/-- **Going.** A service that is taken away makes reports due to those whom it concerns. -/
theorem remove (hl : r.Ledger L) (hf : r.get? id = some service) :
    (r.remove id).Ledger (r.notices (.unregistering service) ++ L) := by
  obtain rfl := Roster.key_of_find? hf
  have hin : service ∈ r.services := List.mem_of_find?_eq_some hf
  have hmem (s : ServiceReference) :
      s ∈ (r.remove service.id).services ↔ s ∈ r.services ∧ s.id ≠ service.id := by
    simp [Registry.remove, Roster.erase]
  have hgoes : ∀ p ∈ r.notices (.unregistering service), p.2 = .unregistering service :=
    fun p hp => by
      obtain ⟨sub, -, -, rfl⟩ := mem_notices.1 hp
      rfl
  refine ⟨hl.rising.remove, hl.apart, fun s hs => hl.service_lt s ((hmem s).1 hs).1,
    hl.subscription_lt, fun p hp => ?_, fun p hp => ?_, fun sub hsub s hs haccepts => ?_,
    fun sub hsub s hp => ?_, fun p hp hkind s hs => ?_, ?_⟩
  · rcases List.mem_append.1 hp with hp | hp
    · obtain ⟨sub, hsub, -, rfl⟩ := mem_notices.1 hp
      exact ⟨hl.subscription_lt sub hsub, hl.service_lt service hin⟩
    · exact hl.report_lt p hp
  · rcases List.mem_append.1 hp with hp | hp
    · exact .inr (congrArg ServiceEvent.kind (hgoes p hp))
    · exact hl.kind p hp
  · exact List.mem_append_right _ (hl.present sub hsub s ((hmem s).1 hs).1 haccepts)
  · rcases List.mem_append.1 hp with hp | hp
    · cases hgoes _ hp
    · obtain ⟨haccepts, hs⟩ := hl.absent sub hsub s hp
      refine ⟨haccepts, ?_⟩
      rcases hs with hs | hs
      · by_cases hid : s.id = service.id
        · -- it is the service that goes, and the subscription is told so
          have hsame := hl.rising.get?_of_mem hs
          rw [hid, hf] at hsame
          obtain rfl := Option.some.inj hsame
          exact .inr (List.mem_append_left _ (mem_notices.2 ⟨sub, hsub, haccepts, rfl⟩))
        · exact .inl ((hmem s).2 ⟨hs, hid⟩)
      · exact .inr (List.mem_append_right _ hs)
  · obtain ⟨hs, hid⟩ := (hmem s).1 hs
    rcases List.mem_append.1 hp with hp | hp
    · rw [hgoes p hp]
      exact hid
    · exact hl.gone p hp hkind s hs
  · refine List.pairwise_append.2 ⟨?_, hl.once, fun p hp q hq _ hkind _ hid => ?_⟩
    · -- each subscription is told once
      refine List.pairwise_map.2 ((hl.apart.filter _).imp fun hlt _ _ hs => ?_)
      exact absurd hs (UInt64.ne_of_lt hlt)
    · rw [hgoes p hp] at hid
      exact hl.gone q hq hkind service hin hid

/-- **Subscribing.** A new subscription is due a report of each service that its filter accepts. -/
theorem subscribe (hl : r.Ledger L) (hroom : r.nextSubscription.toNat + 1 < 2 ^ 64)
    (filter : ServiceFilter) (target : Target E) : (r.subscribe filter target).2.Ledger
      ((r.references filter).map (fun s => (r.nextSubscription, .registered s)) ++ L) := by
  let new : Subscription E := ⟨r.nextSubscription, filter, target⟩
  have hmem (sub : Subscription E) : sub ∈ (r.subscribe filter target).2.subscriptions ↔
      sub = new ∨ sub ∈ r.subscriptions ∧ sub.id ≠ r.nextSubscription :=
    Roster.mem_insert_iff hl.apart
  have hreplay {p : Report}
      (hp : p ∈ (r.references filter).map (fun s => (r.nextSubscription, .registered s))) :
      ∃ s ∈ r.services, filter.accepts s.properties = true ∧
        p = (r.nextSubscription, .registered s) := by
    obtain ⟨s, hs, rfl⟩ := List.mem_map.1 hp
    obtain ⟨hs, haccepts⟩ := List.mem_filter.1 hs
    exact ⟨s, hs, haccepts, rfl⟩
  refine ⟨hl.rising, Roster.rising_insert hl.apart, hl.service_lt, fun sub hsub => ?_,
    fun p hp => ?_, fun p hp => ?_, fun sub hsub s hs haccepts => ?_, fun sub hsub s hp => ?_,
    fun p hp hgoes => ?_, hl.once_append fun p hp => ?_⟩
  · rcases (hmem sub).1 hsub with rfl | ⟨hsub, -⟩
    · exact lt_next hroom UInt64.le_rfl
    · exact lt_next hroom (UInt64.le_of_lt (hl.subscription_lt sub hsub))
  · rcases List.mem_append.1 hp with hp | hp
    · obtain ⟨s, hs, -, rfl⟩ := hreplay hp
      exact ⟨lt_next hroom UInt64.le_rfl, hl.service_lt s hs⟩
    · obtain ⟨hs, hid⟩ := hl.report_lt p hp
      exact ⟨lt_next hroom (UInt64.le_of_lt hs), hid⟩
  · rcases List.mem_append.1 hp with hp | hp
    · obtain ⟨s, -, -, rfl⟩ := hreplay hp
      exact .inl rfl
    · exact hl.kind p hp
  · rcases (hmem sub).1 hsub with rfl | ⟨hsub, -⟩
    · exact List.mem_append_left _ (List.mem_map_of_mem (List.mem_filter.2 ⟨hs, haccepts⟩))
    · exact List.mem_append_right _ (hl.present sub hsub s hs haccepts)
  · rcases List.mem_append.1 hp with hp | hp
    · obtain ⟨s', hs', haccepts, heq⟩ := hreplay hp
      obtain ⟨hid, hevent⟩ := Prod.mk.inj heq
      obtain rfl : s = s' := congrArg ServiceEvent.reference hevent
      rcases (hmem sub).1 hsub with rfl | ⟨-, hne⟩
      · exact ⟨haccepts, .inl hs'⟩
      · exact absurd hid hne
    · rcases (hmem sub).1 hsub with rfl | ⟨hsub, -⟩
      · -- the new subscription was told of nothing yet
        exact absurd rfl (UInt64.ne_of_lt (hl.report_lt _ hp).1)
      · obtain ⟨haccepts, hs⟩ := hl.absent sub hsub s hp
        exact ⟨haccepts, hs.imp_right (List.mem_append_right _)⟩
  · rcases List.mem_append.1 hp with hp | hp
    · obtain ⟨s, -, -, rfl⟩ := hreplay hp
      cases hgoes
    · exact hl.gone p hp hgoes
  · obtain ⟨s, -, -, rfl⟩ := hreplay hp
    rfl

end Ledger

/-! ## The last report -/

/-- The latest report about a service stands before every other one. -/
theorem sublist_of_find? {a b : Report} (hf : L.find? (·.concerns s id) = some a) (hb : b ∈ L)
    (hconcerns : b.concerns s id = true) (hne : b ≠ a) : [a, b].Sublist L := by
  induction L with
  | nil => cases hb
  | cons p L ih =>
    by_cases hp : p.concerns s id = true
    · rw [List.find?_cons_of_pos hp] at hf
      obtain rfl := Option.some.inj hf
      have hb : b ∈ L := (List.mem_cons.1 hb).resolve_left hne
      exact (List.singleton_sublist.2 hb).cons_cons p
    · rw [List.find?_cons_of_neg hp] at hf
      have hb : b ∈ L := (List.mem_cons.1 hb).resolve_left fun heq => hp (heq ▸ hconcerns)
      exact (ih hf hb).cons p

/-- A subscription that was told of the coming of a service after its going was not told of it
again. -/
theorem last_of_reversed (honce : L.Pairwise Report.Apart)
    (hkind : ∀ p ∈ L, p.2.kind = .registered ∨ p.2.kind = .unregistering)
    (hr : Reversed L s id) : lastKind? L s id = some .registered := by
  obtain ⟨t, t', ht, ht', hsub⟩ := hr
  induction L with
  | nil => cases hsub
  | cons p L ih =>
    obtain ⟨hp, honce⟩ := List.pairwise_cons.1 honce
    have hsub' : p ≠ (s, .registered t) →
        [(s, .registered t), (s, .unregistering t')].Sublist L := fun hne => by
      cases hsub with
      | cons _ hsub => exact hsub
      | cons_cons _ _ => exact absurd rfl hne
    unfold lastKind?
    by_cases hconcerns : p.concerns s id = true
    · rw [List.find?_cons_of_pos hconcerns]
      rcases hkind p List.mem_cons_self with hcomes | hgoes
      · exact congrArg some hcomes
      · -- then it was told of the going twice
        have hne : p ≠ (s, .registered t) := fun heq => by
          rw [heq] at hgoes
          cases hgoes
        have hmem : (s, .unregistering t') ∈ L := (hsub' hne).subset (by simp)
        obtain ⟨hs, hid⟩ := Report.concerns_iff.1 hconcerns
        exact absurd (hid.trans ht'.symm) (hp _ hmem hgoes rfl hs)
    · rw [List.find?_cons_of_neg hconcerns]
      refine ih honce (fun q hq => hkind q (List.mem_cons_of_mem _ hq)) (hsub' fun heq => ?_)
      exact hconcerns (Report.concerns_iff.2 (heq ▸ ⟨rfl, ht⟩))

/-- One more report, to this subscription or to another one. -/
theorem lastKind?_cons (p : Report) : lastKind? (p :: L) s id =
    if p.concerns s id = true then some p.2.kind else lastKind? L s id := by
  unfold lastKind?
  split
  · next hp => rw [List.find?_cons_of_pos hp, Option.map_some]
  · next hp => rw [List.find?_cons_of_neg hp]

namespace Ledger

/-- A service of which a subscription was told in reverse is not there. -/
theorem get?_of_reversed (hl : r.Ledger L) (hr : Reversed L s id) : r.get? id = none := by
  obtain ⟨t, t', -, rfl, hsub⟩ := hr
  refine List.find?_eq_none.2 fun service hs hid => ?_
  exact hl.gone (s, .unregistering t') (hsub.subset (by simp)) rfl service hs (beq_iff_eq.1 hid)

/-- **The last report.** It is that a service comes just if the service is there and accepted, or
if the subscription was told of its coming and its going in reverse. -/
theorem last_registered_iff (hl : r.Ledger L) (hs : sub ∈ r.subscriptions) :
    lastKind? L sub.id id = some .registered ↔
      id ∈ r.matching sub.filter ∨ Reversed L sub.id id := by
  constructor
  · intro hlast
    obtain ⟨⟨s, event⟩, hf, hkind⟩ := Option.map_eq_some_iff.1 hlast
    have hin := List.mem_of_find?_eq_some hf
    have hconcerns := List.find?_some hf
    obtain ⟨kind, t⟩ := event
    obtain rfl : kind = .registered := hkind
    obtain ⟨rfl, rfl⟩ := Report.concerns_iff.1 hconcerns
    obtain ⟨haccepts, hthere | hgone⟩ := hl.absent sub hs t hin
    · exact .inl (mem_matching.2 ⟨t, hthere, haccepts, rfl⟩)
    · refine .inr ⟨t, t, rfl, rfl, sublist_of_find? hf hgone hconcerns fun heq => ?_⟩
      cases congrArg (fun p : Report => p.2.kind) heq
  · rintro (hmem | hreversed)
    · obtain ⟨t, ht, haccepts, rfl⟩ := mem_matching.1 hmem
      have hin := hl.present sub hs t ht haccepts
      have hconcerns : Report.concerns sub.id t.id (sub.id, .registered t) = true :=
        Report.concerns_iff.2 ⟨rfl, rfl⟩
      obtain ⟨p, hf⟩ := Option.isSome_iff_exists.1 (List.find?_isSome.2 ⟨_, hin, hconcerns⟩)
      have hp := List.mem_of_find?_eq_some hf
      rw [lastKind?, hf]
      rcases hl.kind p hp with hcomes | hgoes
      · exact congrArg some hcomes
      · exact absurd (Report.concerns_iff.1 (List.find?_some hf)).2.symm (hl.gone p hp hgoes t ht)
    · exact last_of_reversed hl.once hl.kind hreversed

end Ledger

end Registry

end LiveServices
