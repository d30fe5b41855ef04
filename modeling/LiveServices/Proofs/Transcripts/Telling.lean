import LiveServices.Proofs.Run.Endings
import LiveServices.Proofs.Transcripts.Shown

/-!
# What operations tell

The records of an operation are those of the calls in it, in their order (`Hub.Utters`). An
operation on a hub that shows a consistent transcript continues the transcript: with its records it
is consistent again, and the hub shows it then (`Hub.Continues`). An admission tells of a bind and
at once of what is due then (`Hub.Binds`), and a removal tells of an unbind in this way
(`Hub.Unbinds`); all else tells nothing (`Hub.Voices []`).

`Hub.Narrates` is the relation between the hubs before and after an operation that comes of it. It
is a law that the delivery of events keeps (`Run.narrates_deliveries`), and so do the operations
that are built of it. `Run.continues_destroy` says more of the end: nothing is bound after it, all
its records tell of losses, and it counts the services that were bound before it.
-/

namespace LiveServices

open Transcript (Consistent Service)

theorem Moment.record?_of_silent {m : Moment Entry} (hm : m.IsSilent) : m.record? = none := by
  cases m with
  | called => exact absurd hm id
  | _ => rfl

namespace Hub

variable {config : ImporterConfig} {records early late : List Record} {services : List Service}
  {h h₁ h' : Hub Entry} {callback : Callback Entry} {l : Attached Entry} {r : Record}

/-! ## Records of calls -/

/-- These records were told between the two hubs. -/
def Utters (h : Hub Entry) (records : List Record) (h' : Hub Entry) : Prop :=
  ∃ recent, h'.trace = recent ++ h.trace ∧ recent.reverse.filterMap Moment.record? = records

theorem Utters.recordsSince (hs : h.Utters records h') : h.recordsSince h' = records := by
  obtain ⟨recent, ht, rfl⟩ := hs
  exact recordsSince_eq ht

/-- What two steps utter is what the first does and then what the second does. -/
theorem Utters.trans (h₁₂ : h.Utters early h₁) (h₂₃ : h₁.Utters late h') :
    h.Utters (early ++ late) h' := by
  obtain ⟨older, ho, rfl⟩ := h₁₂
  obtain ⟨newer, hn, rfl⟩ := h₂₃
  exact ⟨newer ++ older, by rw [hn, ho, List.append_assoc], by simp⟩

/-- Silent moments tell nothing. -/
theorem utters_nothing (ht : ∃ recent, h'.trace = recent ++ h.trace ∧ ∀ m ∈ recent, m.IsSilent) :
    h.Utters [] h' := by
  obtain ⟨recent, ht, hm⟩ := ht
  refine ⟨recent, ht, List.filterMap_eq_nil_iff.2 fun m hmem => ?_⟩
  exact Moment.record?_of_silent (hm m (List.mem_reverse.1 hmem))

/-- These records were told while all collections kept their stock. -/
structure Voices (records : List Record) (h h' : Hub Entry) : Prop where
  length : h'.collections.length = h.collections.length
  stock : ∀ c, (h.collection c).SameStock (h'.collection c)
  utters : h.Utters records h'

namespace Voices

theorem trans (h₁₂ : Voices early h h₁) (h₂₃ : Voices late h₁ h') : Voices (early ++ late) h h' :=
  ⟨h₂₃.length.trans h₁₂.length, fun c => (h₁₂.stock c).trans (h₂₃.stock c),
    h₁₂.utters.trans h₂₃.utters⟩

/-- Silent moments while the collections stayed as they were. -/
theorem silent (hc : h'.collections = h.collections)
    (ht : ∃ recent, h'.trace = recent ++ h.trace ∧ ∀ m ∈ recent, m.IsSilent) :
    Voices [] h h' := by
  refine ⟨by rw [hc], fun c => ?_, utters_nothing ht⟩
  rw [show h'.collection c = h.collection c by rw [collection, hc, collection]]
  exact .refl _

/-- A step aside is not told. -/
theorem aside (ha : h.Aside h') : Voices [] h h' := by
  obtain ⟨recent, ht, hm⟩ := ha.trace
  exact ⟨ha.length, ha.stock, utters_nothing ⟨recent, ht, fun m hmem => (hm m hmem).isSilent⟩⟩

instance : Law (Voices []) := ⟨aside, trans⟩

/-- A call tells what its callback is recorded as. -/
theorem calling {told : Option Record}
    (hr : ∀ tag glimpse, Moment.record? (.called tag callback glimpse) = told) :
    Voices told.toList h (h.calling l callback) := by
  refine ⟨rfl, fun _ => .refl _, [_], rfl, ?_⟩
  cases told with
  | none => exact List.filterMap_cons_none (hr _ _)
  | some r => exact List.filterMap_cons_some (hr _ _)

/-- The beginning of a release is not told. -/
theorem letting (c serial : Nat) (service : UInt64) (announced : Bool) :
    Voices [] h (h.letting c serial service announced) :=
  ⟨rfl, fun _ => .refl _, [_], rfl, rfl⟩

end Voices

/-! ## Hubs that show a transcript -/

/-- The hub has one collection, and it shows the services that are bound. -/
structure Shows (config : ImporterConfig) (services : List Service) (h : Hub Entry) : Prop where
  length : h.collections.length = 1
  importer : (h.collection 0).Shows config services

theorem Shows.of_voices (hh : h.Shows config services) (hv : Voices records h h') :
    h'.Shows config services :=
  ⟨hv.length.trans hh.length, hh.importer.of_sameStock (hv.stock 0)⟩

/-- A replay has one collection. -/
theorem Shows.eq_zero (hh : h.Shows config services) {c : Nat} (hc : c < h.collections.length) :
    c = 0 := by
  rw [hh.length] at hc
  exact Nat.lt_one_iff.1 hc

/-- The one collection was put into another state. -/
theorem Shows.setTo {g : Hub Entry} {k : Collection Entry} {past : List (Nat × Collection Entry)}
    (hg : g.collections.length = 1) (hk : k.Shows config services) :
    (g.setTo 0 k past).Shows config services := by
  refine ⟨by rw [Hub.setTo, List.length_set, hg], ?_⟩
  rwa [collection_setTo_self (by rw [hg]; exact Nat.one_pos)]

/-- While these services are bound, a service is bound that is not one of them. -/
structure Binds (config : ImporterConfig) (services : List Service) (r : ServiceReference)
    (h h' : Hub Entry) : Prop where
  new : services.filter (·.1 == r.id) = []
  utters : h.Utters (.bind r.id r.name? ::
    if config.mandatory = true ∧ services.length = 0 then [.satisfied config.beanName] else []) h'
  shows : h'.Shows config (services ++ [r.shown])

/-- While these services are bound, one of them is unbound. -/
structure Unbinds (config : ImporterConfig) (services : List Service) (s : Service)
    (h h' : Hub Entry) : Prop where
  held : services.filter (·.1 == s.1) = [s]
  utters : h.Utters (.unbind s.1 s.2 ::
    if config.mandatory = true ∧ (services.filter (·.1 != s.1)).length = 0 then
      [.unsatisfied config.beanName]
    else []) h'
  shows : h'.Shows config (services.filter (·.1 != s.1))

/-- These records continue a transcript on the way from one hub to another. -/
structure Continues (config : ImporterConfig) (records new : List Record) (h h' : Hub Entry) :
    Prop where
  utters : h.Utters new h'
  consistent : Consistent config (records ++ new)
  shows : h'.Shows config (Transcript.bound (records ++ new))

namespace Continues

/-- A transcript that is continued twice is continued by both parts. -/
theorem trans (h₁₂ : Continues config records early h h₁)
    (h₂₃ : Continues config (records ++ early) late h₁ h') :
    Continues config records (early ++ late) h h' where
  utters := h₁₂.utters.trans h₂₃.utters
  consistent := by
    rw [← List.append_assoc]
    exact h₂₃.consistent
  shows := by
    rw [← List.append_assoc]
    exact h₂₃.shows

variable (hs : Consistent config records)
include hs

/-- A binding continues the transcript by a record of it. -/
theorem of_binds {r : ServiceReference}
    (hb : Binds config (Transcript.bound records) r h h') :
    ∃ new, Continues config records new h h' := by
  obtain ⟨hconsistent, hbound⟩ := hs.append (r := .bind r.id r.name?) hb.new rfl
  refine ⟨_, ?_, hconsistent, hbound ▸ hb.shows⟩
  rw [Transcript.due_bind, apply_ite Option.toList]
  exact hb.utters

/-- An unbinding continues the transcript by records of loss, and one service fewer is bound. -/
theorem of_unbinds {s : Service} (hu : Unbinds config (Transcript.bound records) s h h') :
    ∃ new, Continues config records new h h' ∧ (∀ r ∈ new, r.isLoss = true) ∧
      (Transcript.bound records).length = (Transcript.bound (records ++ new)).length + 1 := by
  obtain ⟨hconsistent, hbound⟩ := hs.append (r := .unbind s.1 s.2) hu.held rfl
  refine ⟨_, ⟨?_, hconsistent, hbound ▸ hu.shows⟩, fun r hmem => ?_, ?_⟩
  · rw [Transcript.due_unbind, apply_ite Option.toList]
    exact hu.utters
  · rw [Transcript.due_unbind] at hmem
    rcases List.mem_cons.1 hmem with rfl | hmem
    · rfl
    · split at hmem
      · obtain rfl := List.mem_singleton.1 hmem
        rfl
      · cases hmem
  · rw [hbound]
    exact (Transcript.length_filter_of_unbind hu.held).symm

variable (hh : h.Shows config (Transcript.bound records))
include hh

theorem of_voices (hv : Voices [] h h') : Continues config records [] h h' where
  utters := hv.utters
  consistent := by rwa [List.append_nil]
  shows := by
    rw [List.append_nil]
    exact hh.of_voices hv

end Continues

/-- From a consistent transcript that the first hub shows, records lead to another one that the
second hub shows. -/
def Narrates (config : ImporterConfig) (h h' : Hub Entry) : Prop :=
  ∀ records, Consistent config records → h.Shows config (Transcript.bound records) →
    ∃ new, Continues config records new h h'

theorem Narrates.of_voices (hv : Voices [] h h') : Narrates config h h' :=
  fun _ hs hh => ⟨[], .of_voices hs hh hv⟩

instance : Law (Narrates config) where
  aside ha := .of_voices (.aside ha)
  trans h₁₂ h₂₃ records hs hh := by
    obtain ⟨early, hearly⟩ := h₁₂ records hs hh
    obtain ⟨late, hlate⟩ := h₂₃ _ hearly.consistent hearly.shows
    exact ⟨early ++ late, hearly.trans hlate⟩

end Hub

namespace Run

open Hub

variable {config : ImporterConfig} {records : List Record} {services : List Service}
  {h h₁ h' : Hub Entry} {callback : Callback Entry} {c : Nat} {id : UInt64} {u : Unit}

/-! ## Announcements -/

/-- Nobody gives commands in a replay. -/
theorem ends_nested {S : Hub Entry → Except Halt (Hub Entry) → Prop} [Regime S]
    (command : Command Entry) : Ends S (Replay.nested command) := fun _ => Regime.deep

/-- A round over the one listener of a replay tells what the callback is recorded as. -/
theorem voices_round {pick : Run Entry (List (Attached Entry))} {what : Guarded}
    {service : UInt64} {key : Nat} {r : Record}
    (hpick : ∀ {listeners h₁}, pick h = .ok (listeners, h₁) →
      listeners = [⟨key, 0, Replay.listener⟩] ∧ h.Voices [] h₁)
    (hr : ∀ tag glimpse, Moment.record? (.called tag callback glimpse) = some r)
    (hrun : (pick >>= callAll Replay.nested what service callback) h = .ok (u, h')) :
    h.Voices [r] h' := by
  obtain ⟨listeners, h₁, hread, hround⟩ := bind_eq_ok.1 hrun
  obtain ⟨rfl, hlooked⟩ := hpick hread
  obtain rfl : h₁.calling ⟨key, 0, Replay.listener⟩ callback = h' :=
    congrArg Prod.snd (Except.ok.inj hround)
  exact hlooked.trans (.calling hr)

/-- A round of the lifecycle listeners is told as one record, for there is one listener. -/
theorem voices_lifecycle {what : Guarded} {service : UInt64} {r : Record}
    (hk : (h.collection 0).Shows config services)
    (hr : ∀ tag glimpse, Moment.record? (.called tag callback glimpse) = some r)
    (hrun : (lifecycleListeners 0 >>= callAll Replay.nested what service callback) h =
      .ok (u, h')) : h.Voices [r] h' :=
  voices_round (fun hread => ⟨(lifecycleListeners_ok hread).trans hk.lifecycle,
    Keeps.lifecycleListeners 0 hread⟩) hr hrun

/-- A notice is about the importer that the configuration names. -/
theorem voices_notice {what : Guarded} {service : UInt64} {notice : Dependency → Callback Entry}
    {n : Record} (hk : (h.collection 0).Shows config services)
    (hn : ∀ d : Dependency, d.beanName = config.beanName → ∀ tag glimpse,
      Moment.record? (.called tag (notice d) glimpse) = some n)
    (hrun : (collection 0 >>= fun k =>
      stateListeners 0 >>= callAll Replay.nested what service (notice k.dependency)) h =
      .ok (u, h')) : h.Voices [n] h' := by
  obtain ⟨k, h₁, hlook, hround⟩ := bind_eq_ok.1 hrun
  obtain ⟨rfl, rfl⟩ := pure_eq_ok.1 hlook
  exact voices_round (fun hread => ⟨(stateListeners_ok hread).trans hk.state,
    Keeps.stateListeners 0 hread⟩) (hn _ hk.beanName) hround

/-- A round for a service and, if there is reason, a notice after it. -/
theorem voices_announcement {round notice : Run Entry Unit} {reason : Bool} {r n : Record}
    (hk : (h.collection 0).Shows config services)
    (hround : ∀ {h₁}, round h = .ok ((), h₁) → h.Voices [r] h₁)
    (hnotice : ∀ {h₁ h₂}, (h₁.collection 0).Shows config services →
      notice h₁ = .ok ((), h₂) → h₁.Voices [n] h₂)
    (hrun : (do round; if reason then notice) h = .ok (u, h')) :
    h.Voices (r :: if reason then [n] else []) h' := by
  obtain ⟨_, h₁, hfirst, hrest⟩ := bind_eq_ok.1 hrun
  have hvoiced := hround hfirst
  cases reason with
  | false =>
    obtain ⟨-, rfl⟩ := pure_eq_ok.1 hrest
    exact hvoiced
  | true => exact hvoiced.trans (hnotice (hk.of_sameStock (hvoiced.stock 0)) hrest)

/-- An admission is told as a binding, and then that the importer is satisfied if it was the
first. -/
theorem voices_announceAdmission {entry : Entry} {r : ServiceReference} {first : Bool}
    (hk : (h.collection 0).Shows config services)
    (hr : announceAdmission Replay.nested 0 entry r first h = .ok (u, h')) :
    h.Voices (.bind r.id r.name? :: if first then [.satisfied config.beanName] else []) h' := by
  refine voices_announcement hk (voices_lifecycle hk fun _ _ => rfl) (fun hk₁ => ?_) hr
  exact voices_notice hk₁ fun _ hd _ _ => congrArg (fun name => some (Record.satisfied name)) hd

/-- A removal is told as an unbinding, and then that the importer is unsatisfied if it was the
last. -/
theorem voices_announceRemoval {holding : Holding Entry} {stored last : Bool}
    (hk : (h.collection 0).Shows config services) (hstored : stored = true)
    (hr : announceRemoval Replay.nested 0 ⟨holding, stored, last⟩ h = .ok (u, h')) :
    h.Voices (.unbind holding.id holding.reference.name? ::
      if last then [.unsatisfied config.beanName] else []) h' := by
  subst hstored
  refine voices_announcement hk (voices_lifecycle hk fun _ _ => rfl) (fun hk₁ => ?_) hr
  exact voices_notice hk₁ fun _ hd _ _ => congrArg (fun name => some (Record.unsatisfied name)) hd

/-! ## Admission -/

/-- What is decided about a service tells nothing, and if it is not admitted then all stays. -/
theorem voices_considered {r : ServiceReference} {result : Except Trouble (Admission Entry)}
    (hc : Considered c r h result h')
    (hno : ∀ entry first, result ≠ .ok (.admitted entry first)) : h.Voices [] h' := by
  cases hc with
  | ignored => exact .silent rfl (silent_of_eq rfl)
  | failed | panicked => exact .silent rfl silent_attempt
  | refused => exact .silent rfl (silent_creation _)
  | admitted => exact absurd rfl (hno _ _)

/-- An open collection admits a service unless it has it or has a rival of it. -/
theorem considered_otherwise {r : ServiceReference} {result : Except Trouble (Admission Entry)}
    (hh : h.Shows config services) (hc : Considered c r h result h')
    (hno : ∀ entry first, result ≠ .ok (.admitted entry first)) :
    (h.collection c).closed = true ∨ (h.collection c).hasIdentity r.id = true ∨
      (h.collection c).HasRival r := by
  -- the factory makes an entry of every service
  have hmade (ho : (h.collection c).closed = false) : ∃ proxies entry release,
      (h.collection c).factory = .ofProxies proxies ∧
      (h.collection c).factory.create (h.attempts + 1) r = .made entry release := by
    obtain rfl := hh.eq_zero (lt_length_of_open ho)
    obtain ⟨proxies, hfactory⟩ := hh.importer.stocked.factory
    obtain ⟨entry, release, hm⟩ := Factory.exists_made_ofProxies proxies (h.attempts + 1) r
    exact ⟨proxies, entry, release, hfactory, hfactory ▸ hm⟩
  cases hc with
  | ignored hk => exact hk.imp_right .inl
  | failed ho _ hf | panicked ho _ hf =>
    obtain ⟨_, _, _, -, hm⟩ := hmade ho
    rw [hm] at hf
    cases hf
  | refused ho hn hm ht =>
    obtain ⟨proxies, _, _, hfactory, -⟩ := hmade ho
    obtain rfl := hh.eq_zero (lt_length_of_open ho)
    obtain ⟨rfl, -⟩ := Factory.made_ofProxies (hfactory ▸ hm)
    exact .inr (.inr (hh.importer.stocked.hasRival hn ht))
  | admitted => exact absurd rfl (hno _ _)

/-- **Admission.** An admission tells of the bind and of what is due then. -/
theorem binds_of_admitted {r : ServiceReference} {entry : Entry} {first : Bool}
    (hh : h.Shows config services) (hc : Considered c r h (.ok (.admitted entry first)) h₁)
    (hr : announceAdmission Replay.nested c entry r first h₁ = .ok (u, h')) :
    h.Binds config services r h' := by
  cases hc with
  | @admitted recent entry release ho hn hm ht hshield =>
    obtain rfl := hh.eq_zero (lt_length_of_open ho)
    have hk : ((h.collection 0).enter ⟨h.attempts + 1, entry, r, release⟩).Shows config
        (services ++ [r.shown]) := hh.importer.enter ho hn hm ht
    have hh₁ : ((h.creation 0 r.id release.isSome).setTo 0 _ (recent ++ h.past)).Shows config _ :=
      .setTo hh.length hk
    have hvoices := voices_announceAdmission hh₁.importer hr
    refine ⟨hh.importer.filter_of_new hn, ?_, hh₁.of_voices hvoices⟩
    have hutters := (utters_nothing (silent_creation release.isSome)).trans hvoices.utters
    rw [hk.size_eq, hh.importer.mandatory] at hutters
    simpa using hutters

/-- A refusal is not told. -/
theorem voices_refusal (c : Nat) (r : ServiceReference) (serial : Nat)
    (release : Option (Release Entry)) :
    Keeps (Voices []) (afterAdmission Replay.nested c r (.refused serial release)) := by
  have hletting (h : Hub Entry) (serial : Nat) (announced : Bool) :
      Reaching (Voices []) h (.ok (h.letting c serial r.id announced)) := .ok (.letting ..)
  exact ends_reaching.1 (.afterRefusal ends_nested r hletting serial release)

/-- A service that appears is bound, or nothing is told because the collection is closed, has it, or
has a rival of it. -/
theorem binds_or_voices {r : ServiceReference} {outcome : Except Trouble Reconciled}
    (hh : h.Shows config services)
    (hr : apply Replay.nested c .appeared r h = .ok (outcome, h')) :
    h.Binds config services r h' ∨ h.Voices [] h' ∧
      ((h.collection c).closed = true ∨ (h.collection c).hasIdentity r.id = true ∨
        (h.collection c).HasRival r) := by
  obtain ⟨result, h₁, hcons, hr⟩ := bind_eq_ok.1 hr
  have hc := consider_ok hcons
  cases result with
  | error t =>
    obtain ⟨-, rfl⟩ := pure_eq_ok.1 hr
    exact .inr ⟨voices_considered hc (by simp), considered_otherwise hh hc (by simp)⟩
  | ok admission =>
    obtain ⟨outcome, h₂, hafter, hr⟩ := bind_eq_ok.1 hr
    obtain ⟨-, rfl⟩ := pure_eq_ok.1 hr
    cases admission with
    | ignored =>
      obtain ⟨-, rfl⟩ := pure_eq_ok.1 hafter
      exact .inr ⟨voices_considered hc (by simp), considered_otherwise hh hc (by simp)⟩
    | refused serial release =>
      have hvoices := (voices_considered hc (by simp)).trans (voices_refusal c r _ _ hafter)
      exact .inr ⟨hvoices, considered_otherwise hh hc (by simp)⟩
    | admitted entry first =>
      obtain ⟨_, h₃, hannounce, hr⟩ := bind_eq_ok.1 hafter
      obtain ⟨-, rfl⟩ := pure_eq_ok.1 hr
      exact .inl (binds_of_admitted hh hc hannounce)

/-- A service that appears is narrated, whatever comes of it. -/
theorem narrates_appeared (c : Nat) (r : ServiceReference) :
    Keeps (Narrates config) (apply Replay.nested c .appeared r) := by
  intro h outcome h' hr records hs hh
  rcases binds_or_voices hh hr with hbinds | ⟨hvoices, -⟩
  · exact Continues.of_binds hs hbinds
  · exact ⟨[], .of_voices hs hh hvoices⟩

/-! ## Removal -/

theorem voices_letGo (c : Nat) (holding : Holding Entry) :
    Keeps (Voices []) (letGo Replay.nested c holding) :=
  ends_reaching.1 (.letGo ends_nested fun _ _ => .ok (.letting ..))

/-- **Removal.** A removal tells of the unbind and of what is due then, if the service was bound. -/
theorem unbinds_or_voices {outcome : Reconciled} (hh : h.Shows config services)
    (hr : remove Replay.nested c id h = .ok (outcome, h')) :
    outcome = .retracted ∧ (∃ name, h.Unbinds config services (id, name) h') ∨
    outcome = .unchanged ∧ (h.collection c).hasIdentity id = false ∧ h.Voices [] h' := by
  obtain ⟨removal, h₁, hret, hr⟩ := bind_eq_ok.1 hr
  cases retract_ok hret with
  | absent hno =>
    obtain ⟨rfl, rfl⟩ := pure_eq_ok.1 hr
    exact .inr ⟨rfl, hno, .silent rfl (silent_of_eq rfl)⟩
  | @found recent holding hf hshield =>
    obtain rfl := hh.eq_zero (lt_length_of_index fun hnil => by rw [hnil] at hf; cases hf)
    obtain ⟨_, h₂, hannounce, hr⟩ := bind_eq_ok.1 hr
    obtain ⟨_, h₃, hletGo, hr⟩ := bind_eq_ok.1 hr
    obtain ⟨rfl, rfl⟩ := pure_eq_ok.1 hr
    obtain rfl := Collection.id_of_find? hf
    have hstored := hh.importer.removeOne_eq_true hf
    have hk := hh.importer.leave hf
    have hh₁ : (h.setTo 0 _ (recent ++ h.past)).Shows config _ := .setTo hh.length hk
    have hvoices := (voices_announceRemoval hh₁.importer hstored hannounce).trans
      (voices_letGo 0 holding hletGo)
    refine .inl ⟨by simp [hstored], holding.reference.name?, hh.importer.filter_of_found hf, ?_,
      hh₁.of_voices hvoices⟩
    have hnothing : h.Utters [] (h.setTo 0 ((h.collection 0).leave holding)
        (recent ++ h.past)) := utters_nothing (silent_of_eq rfl)
    have hutters := hnothing.trans hvoices.utters
    rw [List.nil_append, List.append_nil, hk.size_eq, hh.importer.mandatory] at hutters
    simp only [Bool.and_eq_true, beq_iff_eq] at hutters
    exact hutters

/-- A removal continues the transcript by records of loss, and it counts if one service fewer is
bound. -/
theorem continues_remove {outcome : Reconciled} (hs : Consistent config records)
    (hh : h.Shows config (Transcript.bound records))
    (hr : remove Replay.nested c id h = .ok (outcome, h')) :
    ∃ new, Continues config records new h h' ∧ (∀ r ∈ new, r.isLoss = true) ∧
      (Transcript.bound records).length = (Transcript.bound (records ++ new)).length +
        if outcome = .retracted then 1 else 0 := by
  rcases unbinds_or_voices hh hr with ⟨rfl, name, hunbinds⟩ | ⟨rfl, -, hvoices⟩
  · exact Continues.of_unbinds hs hunbinds
  · exact ⟨[], .of_voices hs hh hvoices, by simp, by simp⟩

/-- The delivery of events tells what continues a transcript. -/
theorem narrates_deliveries : Deliveries Replay.nested (Reaching (Narrates config)) where
  observed l event := by
    have hvoices (h : Hub Entry) :
        h.Voices (none : Option Record).toList (h.calling l (.event event)) :=
      .calling fun _ _ => rfl
    have hcalling (h : Hub Entry) :
        Reaching (Narrates config) h (.ok (h.calling l (.event event))) :=
      .ok (.of_voices (hvoices h))
    exact .call ends_nested hcalling
  appeared c r := ends_reaching.2 (narrates_appeared c r)
  removed c id := ends_reaching.2 fun _ _ _ hr _ hs hh =>
    (continues_remove hs hh hr).imp fun _ hnew => hnew.1

/-- What delivers events and does not touch the life of a collection. -/
theorem narrates_built {α : Type} {x : Run Entry α} (hx : Built Replay.nested false x) :
    Keeps (Narrates config) x := ends_reaching.1 (hx.ends narrates_deliveries Bool.noConfusion)

/-! ## The life of the importer -/

/-- A start tells of the services that are there. -/
theorem narrates_start (c : Nat) : Keeps (Narrates config) (start Replay.nested c).run := by
  have hnote (id : UInt64) : Ends (Reaching (Narrates config))
      (Run.update (E := Entry) c fun k => { k with subscription := some id }) :=
    ends_reaching.2 (.update c fun _ => ⟨rfl, rfl, rfl, rfl, rfl, rfl, rfl, fun hk => hk⟩)
  refine .act_bind (.locked c _ (ends_reaching.1 (.begin narrates_deliveries hnote))) fun _ => ?_
  refine .act_bind (.act_lift (.available c)) fun result => ?_
  split
  · exact .act_pure _
  · exact .act_throw _

/-- Removals count the services that are bound no more. -/
theorem continues_removeAll {ids : List UInt64} {count : Nat} (hs : Consistent config records)
    (hh : h.Shows config (Transcript.bound records))
    (hr : removeAll Replay.nested c ids h = .ok (count, h')) :
    ∃ new, Continues config records new h h' ∧ (∀ r ∈ new, r.isLoss = true) ∧
      (Transcript.bound records).length =
        (Transcript.bound (records ++ new)).length + count := by
  induction ids generalizing h records count with
  | nil =>
    obtain ⟨rfl, rfl⟩ := pure_eq_ok.1 hr
    exact ⟨[], .of_voices hs hh (.aside (.refl h)), by simp, by simp⟩
  | cons id ids ih =>
    obtain ⟨outcome, h₁, hone, hr⟩ := bind_eq_ok.1 hr
    obtain ⟨rest, h₂, hrest, hr⟩ := bind_eq_ok.1 hr
    obtain ⟨rfl, rfl⟩ := pure_eq_ok.1 hr
    obtain ⟨early, hearly, hloss, hlength⟩ := continues_remove hs hh hone
    obtain ⟨late, hlate, hlosses, hlengths⟩ := ih hearly.consistent hearly.shows hrest
    refine ⟨early ++ late, hearly.trans hlate, fun r hmem => ?_, ?_⟩
    · exact (List.mem_append.1 hmem).elim (hloss r) (hlosses r)
    · rw [hlength, hlengths, List.append_assoc]
      split <;> omega

/-- A destruction closes the collection and takes away the services that are in it. Then no service
is bound, and there is nothing to clear. -/
theorem removed_of_destroy {count : Nat} (hr : destroy Replay.nested 0 h = .ok (count, h')) :
    ∃ live h₁ h₂, h.Voices [] h₁ ∧ removeAll Replay.nested 0 live h₁ = .ok (count, h₂) ∧
      ∀ {config services}, h₂.Shows config services → services = [] ∧ h₂.Voices [] h' := by
  obtain ⟨_, h₀, hend, hr⟩ := bind_eq_ok.1 hr
  obtain ⟨live, h₁, hclose, hr⟩ := bind_eq_ok.1 hr
  obtain ⟨n, h₂, hremoved, hr⟩ := bind_eq_ok.1 hr
  obtain ⟨_, h₃, hclear, hr⟩ := bind_eq_ok.1 hr
  obtain ⟨rfl, rfl⟩ := pure_eq_ok.1 hr
  refine ⟨live, h₁, h₂, .aside (Law.trans (Keeps.endSubscription 0 hend) (Keeps.close 0 hclose)),
    hremoved, fun hh => ?_⟩
  have hindex : (h₂.collection 0).index = [] := index_of_removeAll (onward_run 0) hclose hremoved
  have hnone := hh.importer.indexed
  rw [hindex] at hnone
  obtain rfl := hnone.nil_eq.symm
  have hitems : (h₂.collection 0).storage.items = [] :=
    List.map_eq_nil_iff.1 hh.importer.stored.eq_nil
  refine ⟨rfl, ?_⟩
  obtain ⟨recent, -, rfl⟩ := clear_ok hclear
  refine ⟨?_, fun d => ?_, utters_nothing (silent_of_eq rfl)⟩
  · rw [Hub.setTo, List.length_set]
  · rw [collection_setTo]
    split
    · next hd =>
      rw [hd.1]
      exact ⟨rfl, rfl, rfl, hindex.symm, hitems.symm, rfl, rfl, fun hk => hk⟩
    · exact .refl _

/-- **The end.** A destruction tells of losses only, counts the services that were bound before it,
and leaves none bound. -/
theorem continues_destroy {count : Nat} (hs : Consistent config records)
    (hh : h.Shows config (Transcript.bound records))
    (hr : destroy Replay.nested 0 h = .ok (count, h')) :
    ∃ new, Continues config records new h h' ∧ (∀ r ∈ new, r.isLoss = true) ∧
      (Transcript.bound records).length = count ∧ Transcript.bound (records ++ new) = [] := by
  obtain ⟨live, h₁, h₂, hclosed, hremoved, hempty⟩ := removed_of_destroy hr
  obtain ⟨new, hnew, hlosses, hlength⟩ :=
    continues_removeAll hs (hh.of_voices hclosed) hremoved
  obtain ⟨hbound, hcleared⟩ := hempty hnew.shows
  refine ⟨new, ⟨?_, hnew.consistent, hnew.shows.of_voices hcleared⟩, hlosses, ?_, hbound⟩
  · simpa using (hclosed.utters.trans hnew.utters).trans hcleared.utters
  · rw [hlength, hbound, List.length_nil, Nat.zero_add]

end Run

end LiveServices
