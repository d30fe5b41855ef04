import LiveServices.Proofs.Interleaving.Independence
import LiveServices.Proofs.Releases.Serials
import LiveServices.Proofs.Sequence.Places

/-!
# The canonical order of services

A sorted collection without a sort key keeps its services in their natural order: higher ranks
first, and of equal ranks the older service first (`ServiceReference.Precedes`). On services with
different numbers that is a strict total order, so the services that were admitted can be arranged
in one way only, whenever and in whichever order they came.

The storage holds just the entries of the index (`Exact`), so a new entry meets none of its own
service there: the two sorted modes then insert at the same place (`Mode.IsNatural.place?_eq`), and
the order stays (`Collection.Ranked.enter`). A removal leaves the others in their order.
-/

namespace LiveServices

/-! ## The natural order -/

namespace ServiceReference

variable {a b c : ServiceReference}

/-- A service comes before another: its rank is higher, or it is the older one of the same rank. -/
def Precedes (a b : ServiceReference) : Prop :=
  b.ranking < a.ranking ∨ a.ranking = b.ranking ∧ a.id < b.id

theorem naturalOrder_eq_lt_iff : naturalOrder a b = .lt ↔ a.Precedes b := by
  rw [naturalOrder, Ordering.then_eq_lt, Std.compare_eq_lt, Std.compare_eq_lt,
    Std.compare_eq_iff_eq, Precedes, eq_comm]

theorem naturalOrder_eq_gt_iff : naturalOrder a b = .gt ↔ b.Precedes a := by
  rw [naturalOrder, Ordering.then_eq_gt, Std.compare_eq_gt, Std.compare_eq_gt,
    Std.compare_eq_iff_eq, Precedes]

theorem Precedes.trans (hab : a.Precedes b) (hbc : b.Precedes c) : a.Precedes c := by
  rcases hab with hab | ⟨hab, hid⟩
  · rcases hbc with hbc | ⟨hbc, -⟩
    · exact .inl (Int64.lt_trans hbc hab)
    · exact .inl (hbc ▸ hab)
  · rcases hbc with hbc | ⟨hbc, hid'⟩
    · exact .inl (hab ▸ hbc)
    · exact .inr ⟨hab.trans hbc, UInt64.lt_trans hid hid'⟩

theorem Precedes.asymm (hab : a.Precedes b) : ¬ b.Precedes a := by
  intro hba
  rcases hab.trans hba with h | ⟨-, h⟩
  · exact Int64.lt_irrefl h
  · exact UInt64.lt_irrefl _ h

/-- **Uniqueness.** The same services are arranged in one way only. -/
theorem eq_of_pairwise_precedes {l l' : List ServiceReference} (hl : l.Pairwise Precedes)
    (hl' : l'.Pairwise Precedes) (hp : l.Perm l') : l = l' :=
  hp.eq_of_pairwise (fun _ _ _ _ hab hba => absurd hba hab.asymm) hl hl'

end ServiceReference

/-! ## Collections in natural order -/

variable {E : Type} [ServiceEntry E]

/-- The natural order of the services of entries. -/
def ServiceEntry.naturalOrder (a b : E) : Ordering :=
  (ServiceEntry.reference a).naturalOrder (ServiceEntry.reference b)

/-- The place of an entry among others in natural order: after all that do not come after it. -/
def ServiceEntry.naturalPlace (items : List E) (entry : E) : Nat :=
  Sequence.partitionPoint (fun x => naturalOrder x entry != .gt) items

/-- A sorted mode with the natural order. -/
inductive Mode.IsNatural : Mode E → Prop where
  | sortedList : IsNatural (.sortedList ServiceEntry.naturalOrder)
  | sortedSet : IsNatural (.sortedSet ServiceEntry.naturalOrder)

/-- Where services are told apart by their natural order. -/
theorem Mode.IsNatural.tellsApart {m : Mode E} (hm : m.IsNatural) : m.TellsApart := by
  cases hm with
  | sortedList => exact .sortedList _
  | sortedSet => exact .natural

/-- The two natural modes put an entry of a new service at the same place. -/
theorem Mode.IsNatural.place?_eq {m : Mode E} (hm : m.IsNatural) {items : List E} {entry : E}
    (hid : ∀ x ∈ items, (ServiceEntry.reference x).id ≠ (ServiceEntry.reference entry).id) :
    m.place? items entry = some (ServiceEntry.naturalPlace items entry) := by
  cases hm with
  | sortedList => rfl
  | sortedSet =>
    have hne : ∀ x ∈ items, ServiceEntry.naturalOrder x entry ≠ .eq := fun x hx heq =>
      hid x hx (ServiceReference.id_of_naturalOrder heq)
    rw [place?, Sequence.search_eq_free hne, ServiceEntry.naturalPlace]

/-- In natural order the place of an entry of a new service divides the entries that precede it from
those that it precedes. -/
theorem ServiceEntry.naturalPlace_divides {items : List E} {entry : E}
    (hi : items.Pairwise fun a b =>
      (ServiceEntry.reference a).Precedes (ServiceEntry.reference b))
    (hid : ∀ x ∈ items, (ServiceEntry.reference x).id ≠ (ServiceEntry.reference entry).id) :
    (∀ x ∈ items.take (naturalPlace items entry), (reference x).Precedes (reference entry)) ∧
      ∀ x ∈ items.drop (naturalPlace items entry), (reference entry).Precedes (reference x) := by
  -- what is not after the entry comes first
  have hfirst : items.Pairwise fun a b =>
      (naturalOrder b entry != .gt) = true → (naturalOrder a entry != .gt) = true := by
    refine hi.imp fun {a b} hab hb => ?_
    rw [bne_iff_ne] at hb ⊢
    intro ha
    exact hb (ServiceReference.naturalOrder_eq_gt_iff.2
      ((ServiceReference.naturalOrder_eq_gt_iff.1 ha).trans hab))
  obtain ⟨hbefore, hafter⟩ := Sequence.partitionPoint_spec hfirst
  refine ⟨fun x hx => ServiceReference.naturalOrder_eq_lt_iff.1 ?_, fun x hx =>
    ServiceReference.naturalOrder_eq_gt_iff.1 ?_⟩
  · have hgt : naturalOrder x entry ≠ .gt := bne_iff_ne.1 (hbefore x hx)
    cases hside : naturalOrder x entry with
    | lt => exact hside
    | eq =>
      exact absurd (ServiceReference.id_of_naturalOrder hside) (hid x (List.mem_of_mem_take hx))
    | gt => exact absurd hside hgt
  · have hx : naturalOrder x entry = .gt := by simpa using hafter x hx
    exact hx

namespace Collection

variable {k : Collection E} {holding : Holding E}

/-- The references that the entries stand for, in the order of the storage. -/
def references (k : Collection E) : List ServiceReference :=
  k.storage.items.map ServiceEntry.reference

/-- The references that the services of the collection were admitted with. -/
def services (k : Collection E) : List ServiceReference := k.index.map Holding.reference

/-- The entries are in the natural order of their services. -/
def Ranked (k : Collection E) : Prop := k.references.Pairwise ServiceReference.Precedes

/-- In a collection whose entries are told apart by their services the entries stand for the
references that were admitted. -/
theorem Exact.references_perm (hk : k.Exact) : k.references.Perm k.services := by
  have hcarried : k.entries.map ServiceEntry.reference = k.services := by
    rw [entries, List.map_map]
    exact List.map_congr_left hk.carried
  exact hcarried ▸ hk.stored.map ServiceEntry.reference

/-- **Entering.** The entry of a new service goes before those that it precedes and after the
others. -/
theorem Ranked.enter (hk : k.Ranked) (hm : k.mode.IsNatural)
    (hid : ∀ x ∈ k.storage.items,
      (ServiceEntry.reference x).id ≠ (ServiceEntry.reference holding.entry).id) :
    (k.enter holding).Ranked := by
  have hk : k.storage.items.Pairwise fun a b =>
      (ServiceEntry.reference a).Precedes (ServiceEntry.reference b) := List.pairwise_map.1 hk
  obtain ⟨hbefore, hafter⟩ := ServiceEntry.naturalPlace_divides hk hid
  have hitems : (k.enter holding).storage = k.storage.insertAt
      (ServiceEntry.naturalPlace k.storage.items holding.entry) holding.entry := by
    show (k.storage.append k.mode holding.entry).2 = _
    rw [LiveSequence.append, hm.place?_eq hid]
  rw [Ranked, references, hitems, LiveSequence.items_insertAt, List.pairwise_map]
  exact Sequence.pairwise_insert hk hbefore hafter

/-- **Leaving.** The entries that stay keep their order. -/
theorem Ranked.leave (hk : k.Ranked) : (k.leave holding).Ranked := by
  have hsub : ((k.storage.removeOne holding.entry).2.items).Sublist k.storage.items := by
    unfold LiveSequence.removeOne
    split
    · exact List.eraseIdx_sublist ..
    · exact List.Sublist.refl _
  exact hk.sublist (hsub.map ServiceEntry.reference)

theorem Ranked.nil (hitems : k.storage.items = []) : k.Ranked := by
  rw [Ranked, references, hitems]
  exact .nil

/-- A collection in natural order of entries that are told apart by their services. -/
structure IsNatural (k : Collection E) : Prop where
  mode : k.mode.IsNatural
  factory : k.factory.EntriesIdentified

end Collection

/-! ## All runs -/

namespace Hub

/-- A hub is matched, and its collections in natural order are ranked. -/
structure Ranked (h : Hub E) : Prop where
  matched : h.Matched
  ranked : ∀ c, (h.collection c).IsNatural → (h.collection c).Ranked

namespace Ranked

variable {h h' : Hub E} {c : Nat}

/-- Where each collection keeps its mode and its entries. -/
theorem of_sameEntries (hm : h.Matched → h'.Matched)
    (hs : ∀ d, (h.collection d).SameEntries (h'.collection d))
    (hmode : ∀ d, (h'.collection d).mode = (h.collection d).mode) (hh : h.Ranked) :
    h'.Ranked where
  matched := hm hh.matched
  ranked d hn := by
    have hn : (h.collection d).IsNatural := ⟨hmode d ▸ hn.mode, (hs d).factory ▸ hn.factory⟩
    rw [Collection.Ranked, Collection.references, (hs d).items]
    exact hh.ranked d hn

instance : Stable (Ranked (E := E)) where
  aside ha := .of_sameEntries (Stable.aside ha)
    (fun d => ⟨(ha.stock d).factory, (ha.stock d).index, (ha.stock d).items⟩)
    fun d => (ha.stock d).mode

/-- A section after which its collection is ranked. -/
theorem of_section (hm : h.Matched → h'.Matched) (hs : h.Section c h')
    (hend : h.Matched → (h.collection c).IsNatural → (h.collection c).Ranked →
      (h'.collection c).Ranked) (hmode : (h'.collection c).mode = (h.collection c).mode)
    (hh : h.Ranked) : h'.Ranked where
  matched := hm hh.matched
  ranked d hn := by
    by_cases hd : d = c
    · subst hd
      have hn : (h.collection d).IsNatural := ⟨hmode ▸ hn.mode, hs.factory ▸ hn.factory⟩
      exact hend hh.matched hn (hh.ranked d hn)
    · rw [hs.others d hd] at hn ⊢
      exact hh.ranked d hn

end Ranked

end Hub

namespace Run

/-- Every kind of step keeps the natural order. -/
theorem steps_ranked : Steps (E := E) (Hub.Preserves Hub.Ranked) where
  considered c r h result h' hr := by
    have hc := consider_ok hr
    refine .of_section (steps_matched.considered c r hr) hc.toSection (fun hm hn hk => ?_)
      ((steps_onward.considered c r hr).collection c).mode
    cases hc with
    | ignored | failed | panicked | refused => exact hk
    | admitted ho hnew hmade ht hs =>
      rw [Hub.collection_setTo]
      split
      · refine hk.enter hn.mode ?_
        have hentry := hn.factory.carries hmade
        exact (hm.exact c hn.factory).id_ne_of_not_hasIdentity (hentry ▸ hnew)
      · exact hk
  retracted c id h result h' hr := by
    have hc := retract_ok hr
    refine .of_section (steps_matched.retracted c id hr) hc.toSection (fun hm hn hk => ?_)
      ((steps_onward.retracted c id hr).collection c).mode
    cases hc with
    | absent => exact hk
    | found hf hs =>
      rw [Hub.collection_setTo]
      split
      · exact hk.leave
      · exact hk
  cleared c h u h' hr := by
    refine .of_section (steps_matched.cleared c hr) (section_of_clear hr) (fun hm hn hk => ?_)
      ((steps_onward.cleared c hr).collection c).mode
    obtain ⟨recent, -, rfl⟩ := clear_ok hr
    rw [Hub.collection_setTo]
    split
    · exact .nil rfl
    · exact hk
  called h tag callback glimpse :=
    .of_sameEntries (steps_matched.called h tag callback glimpse) (fun _ => ⟨rfl, rfl, rfl⟩)
      fun _ => rfl
  released h c serial service census announced :=
    .of_sameEntries (steps_matched.released h c serial service census announced)
      (fun _ => ⟨rfl, rfl, rfl⟩) fun _ => rfl
  lifecycle c l _ _ _ hr :=
    .of_sameEntries (steps_matched.lifecycle c l hr) (addLifecycleListener_same hr).1
      fun d => ((steps_onward.lifecycle c l hr).collection d).mode
  state c l _ _ _ hr :=
    .of_sameEntries (steps_matched.state c l hr) (addStateListener_same hr).1
      fun d => ((steps_onward.state c l hr).collection d).mode

end Run

namespace Hub

/-- In the hub of some plans there are no entries. -/
theorem Ranked.ofPlans (plans : List (Plan E)) : (Hub.ofPlans plans).Ranked where
  matched := .ofPlans plans
  ranked c hn := by
    have hstored := ((Matched.ofPlans plans).exact c hn.factory).stored
    rw [Collection.entries, (blank_ofPlans plans).1 c] at hstored
    exact .nil hstored.eq_nil

omit [ServiceEntry E] in
/-- A plan that can be built made the collection of its place. -/
theorem built_ofPlans {plans : List (Plan E)} {c : Nat} {plan : Plan E}
    (hp : plans[c]? = some plan) (hb : ∀ number key, ∃ k, plan.build number key = .ok k) :
    ∃ number key, plan.build number key = .ok ((ofPlans plans).collection c) := by
  have hfold (plans : List (Plan E)) (last : Plan E) :
      ofPlans (plans ++ [last]) = ((ofPlans plans).addCollection last).2 := List.foldl_concat ..
  have hlength (plans : List (Plan E)) : (ofPlans plans).collections.length = plans.length := by
    induction plans using List.reverseRecOn with
    | nil => rfl
    | append_singleton plans last ih =>
      rw [hfold]
      rcases addCollection_eq (ofPlans plans) last with ⟨k, -, hadd⟩ | hadd
      · simp [hadd, ih]
      · simp [hadd, ih]
  induction plans using List.reverseRecOn with
  | nil => cases hp
  | append_singleton plans last ih =>
    rw [hfold]
    by_cases hc : c < plans.length
    · rw [List.getElem?_append_left hc] at hp
      obtain ⟨number, key, hbuilt⟩ := ih hp
      refine ⟨number, key, hbuilt.trans (congrArg _ (Eq.symm ?_))⟩
      have hne : c ≠ (ofPlans plans).collections.length := hlength plans ▸ Nat.ne_of_lt hc
      rcases addCollection_eq (ofPlans plans) last with ⟨k, -, hadd⟩ | hadd
      · rw [hadd, collection_append rfl, if_neg hne]
      · rw [hadd, collection_append rfl, if_neg hne]
    · -- the last plan is the one
      rw [List.getElem?_append_right (Nat.le_of_not_lt hc)] at hp
      obtain ⟨hzero, hp⟩ := List.getElem?_eq_some_iff.1 hp
      have hc : c = (ofPlans plans).collections.length := by
        rw [hlength]
        simp at hzero
        omega
      obtain rfl : last = plan := by simpa using hp
      obtain ⟨k, hk⟩ := hb (ofPlans plans).collections.length (ofPlans plans).listeners
      refine ⟨_, _, hk.trans (congrArg _ ?_)⟩
      rw [addCollection, hk, collection_append rfl, if_pos hc]

end Hub

/-! ## What notifications admit -/

/-- The event of a notification. -/
def Notification.event (r : ServiceReference) : Notification → ServiceEvent
  | .appeared => .registered r
  | .updated => .modified r
  | .disappeared => .unregistering r

/-- The services that are there after one more notification: a service that appears or is updated
comes as the notification has it, unless it is there; one that disappears goes. -/
def ServiceReference.noticed (held : List ServiceReference) :
    Notification × ServiceReference → List ServiceReference
  | (.disappeared, r) => Roster.erase ServiceReference.id r.id held
  | (_, r) => if (Roster.find? ServiceReference.id r.id held).isSome then held else held ++ [r]

/-- The services that a collection which was empty has after these notifications. -/
def ServiceReference.noticedAll (notices : List (Notification × ServiceReference)) :
    List ServiceReference := notices.foldl noticed []

namespace ServiceReference

variable {held : List ServiceReference}

/-- No service is noticed twice. -/
theorem nodup_noticed (hn : (held.map ServiceReference.id).Nodup)
    (notice : Notification × ServiceReference) :
    ((noticed held notice).map ServiceReference.id).Nodup := by
  obtain ⟨notification, r⟩ := notice
  have hoffer : ((if (Roster.find? ServiceReference.id r.id held).isSome then held
      else held ++ [r]).map ServiceReference.id).Nodup := by
    split
    · exact hn
    · next hnone =>
      have hnew : r.id ∉ held.map ServiceReference.id := by
        intro hmem
        obtain ⟨x, hx, hid⟩ := List.mem_map.1 hmem
        exact hnone (List.find?_isSome.2 ⟨x, hx, beq_iff_eq.2 hid⟩)
      rw [List.map_append, List.map_singleton]
      exact List.concat_eq_append ▸ hn.concat hnew
  cases notification with
  | appeared => exact hoffer
  | updated => exact hoffer
  | disappeared =>
    show ((Roster.erase _ _ held).map ServiceReference.id).Nodup
    rw [Roster.map_erase]
    exact hn.filter _

/-- A notification is a turn of its service, and of no other. -/
theorem find?_noticed {t : Terms} (ht : ∀ r, t.makes r = true)
    (notice : Notification × ServiceReference) (id : UInt64) :
    Roster.find? ServiceReference.id id (noticed held notice) =
      if notice.2.id = id then
        (t.turn (Roster.find? ServiceReference.id id held) (notice.1.event notice.2)).stay
      else Roster.find? ServiceReference.id id held := by
  obtain ⟨notification, r⟩ := notice
  have hoffer {event : ServiceEvent} (he : event.IsOffer) (hr : event.reference = r) :
      Roster.find? ServiceReference.id id
        (if (Roster.find? ServiceReference.id r.id held).isSome then held else held ++ [r]) =
      if r.id = id then (t.turn (Roster.find? ServiceReference.id id held) event).stay
      else Roster.find? ServiceReference.id id held := by
    subst hr
    by_cases hid : event.reference.id = id
    · subst hid
      rw [if_pos rfl]
      cases hf : Roster.find? ServiceReference.id event.reference.id held with
      | none =>
        rw [Terms.turn_offer_none he, if_pos (ht _), if_neg (by simp)]
        unfold Roster.find? at hf ⊢
        simp [List.find?_append, hf]
      | some x =>
        rw [Terms.turn_offer_some he]
        exact hf
    · rw [if_neg hid]
      split
      · rfl
      · simp [Roster.find?, List.find?_append, hid]
  cases notification with
  | appeared => exact hoffer (.inl rfl) rfl
  | updated => exact hoffer (.inr rfl) rfl
  | disappeared =>
    show Roster.find? ServiceReference.id id (Roster.erase _ _ held) = _
    by_cases hid : r.id = id
    · subst hid
      rw [Roster.find?_erase_self, if_pos rfl]
      cases Roster.find? ServiceReference.id r.id held with
      | none => rfl
      | some x => rfl
    · rw [Roster.find?_erase_of_ne hid, if_neg hid]

/-- Of each service that is there which one it is says its own course. -/
theorem find?_noticedAll {t : Terms} (ht : ∀ r, t.makes r = true)
    (notices : List (Notification × ServiceReference)) (id : UInt64) :
    Roster.find? ServiceReference.id id (noticedAll notices) =
      t.stay none ((notices.map fun n => n.1.event n.2).filter (·.isAbout id)) := by
  have hfold (held : List ServiceReference) :
      Roster.find? ServiceReference.id id (notices.foldl noticed held) =
        t.stay (Roster.find? ServiceReference.id id held)
          ((notices.map fun n => n.1.event n.2).filter (·.isAbout id)) := by
    induction notices generalizing held with
    | nil => rfl
    | cons notice notices ih =>
      have href : (notice.1.event notice.2).reference = notice.2 := by cases notice.1 <;> rfl
      rw [List.foldl_cons, ih, find?_noticed ht, List.map_cons, List.filter_cons,
        ServiceEvent.isAbout, href]
      by_cases hid : notice.2.id = id
      · rw [if_pos hid, if_pos (beq_iff_eq.2 hid)]
        rfl
      · rw [if_neg hid, if_neg (by simpa using hid)]
  exact hfold []

theorem nodup_noticedAll (notices : List (Notification × ServiceReference)) :
    ((noticedAll notices).map ServiceReference.id).Nodup := by
  have hfold (held : List ServiceReference) (hn : (held.map ServiceReference.id).Nodup) :
      ((notices.foldl noticed held).map ServiceReference.id).Nodup := by
    induction notices generalizing held with
    | nil => exact hn
    | cons notice notices ih => exact ih _ (nodup_noticed hn notice)
  exact hfold [] List.nodup_nil

/-- Two lists have the same services if each service is found in both as the same. -/
theorem perm_of_find?_eq {l l' : List ServiceReference} (hl : (l.map ServiceReference.id).Nodup)
    (hl' : (l'.map ServiceReference.id).Nodup)
    (hf : ∀ id, Roster.find? ServiceReference.id id l = Roster.find? ServiceReference.id id l') :
    l.Perm l' := by
  refine (List.perm_ext_iff_of_nodup hl.of_map hl'.of_map).2 fun r => ?_
  rw [← Roster.find?_eq_some_iff_mem hl, ← Roster.find?_eq_some_iff_mem hl', hf]

end ServiceReference

/-! ## Configured collections -/

/-- A plan that a configuration makes of a sorted collection without a sort key, for references or
for proxies. -/
def Plan.IsNatural (plan : Plan Entry) : Prop :=
  ∃ config proxies, Plan.ofConfig config (.ofProxies proxies) = .ok plan ∧
    config.collection.isSorted = true ∧ config.sortBy = none

/-- The entries that references and proxies make are told apart by their services. -/
theorem Factory.entriesIdentified_ofProxies (proxies : Bool) :
    (ofProxies proxies).EntriesIdentified := by
  cases proxies with
  | false => exact entriesIdentified_reference
  | true => exact entriesIdentified_proxy

/-- What such a plan builds. -/
structure Collection.Fitted (k : Collection Entry) : Prop where
  vacant : k.Vacant
  natural : k.IsNatural
  made : ∀ serial r, (k.factory.create serial r).product?.isSome = true

theorem Plan.IsNatural.exists_build {plan : Plan Entry} (hp : plan.IsNatural) (number key : Nat) :
    ∃ k, plan.build number key = .ok k ∧ k.Fitted := by
  obtain ⟨config, proxies, hconfig, hsorted, hkey⟩ := hp
  obtain ⟨-, filter, -, rfl⟩ := Plan.ofConfig_eq_ok.1 hconfig
  refine ⟨_, rfl, ⟨⟨?_, rfl, rfl, rfl, rfl⟩, ⟨?_, ?_⟩, fun serial r => ?_⟩⟩
  · exact ⟨fun _ hl => absurd hl List.not_mem_nil, fun _ hl => absurd hl List.not_mem_nil,
      fun _ hl => absurd hl List.not_mem_nil, Factory.isPassive_ofProxies proxies,
      fun _ hl => absurd hl List.not_mem_nil⟩
  · show (Mode.ofKind config.collection _).IsNatural
    rw [ImporterConfig.order, hkey]
    cases hkind : config.collection with
    | list | set =>
      rw [hkind] at hsorted
      cases hsorted
    | sortedList => exact .sortedList
    | sortedSet => exact .sortedSet
  · exact Factory.entriesIdentified_ofProxies proxies
  · obtain ⟨entry, release, hmade⟩ := Factory.exists_made_ofProxies proxies serial r
    exact hmade ▸ rfl

/-- **Ranked.** In every hub that is reached from plans a collection that was configured so has
the services that were admitted, in natural order. -/
theorem Hub.canonical_runAll {plan : Plan Entry} (hp : plan.IsNatural) {plans : List (Plan Entry)}
    {c depth : Nat} {commands : List (Command Entry)} {answers : List Answer} {h : Hub Entry}
    (hc : plans[c]? = some plan)
    (hr : (Hub.ofPlans plans).runAll depth commands = .ok (answers, h)) :
    (h.collection c).references.Perm (h.collection c).services ∧ (h.collection c).Ranked := by
  have hranked : h.Ranked :=
    Run.keeps_runAll (Run.keeps_run (fun _ hn => Run.steps_ranked.course hn) depth) hr
      (.ofPlans plans)
  obtain ⟨number, key, hbuilt⟩ := Hub.built_ofPlans hc fun number key =>
    (hp.exists_build number key).imp fun _ hk => hk.1
  obtain ⟨k, hk, hfitted⟩ := hp.exists_build number key
  obtain rfl := Except.ok.inj (hbuilt.symm.trans hk)
  have hgrown := (Hub.onward_runAll hr).collection c
  have hnatural : (h.collection c).IsNatural :=
    ⟨hgrown.mode ▸ hfitted.natural.mode, hgrown.factory ▸ hfitted.natural.factory⟩
  exact ⟨(hranked.matched.exact c hnatural.factory).references_perm, hranked.ranked c hnatural⟩

/-- Notifications are applied as their events are processed. -/
theorem Hub.runAll_apply (depth c : Nat) (notices : List (Notification × ServiceReference))
    (h : Hub E) : h.runAll depth (notices.map fun n => .apply c n.1 n.2) =
      h.runAll depth ((notices.map fun n => n.1.event n.2).map (.reconcile c)) := by
  have hrun (notification : Notification) (r : ServiceReference) (h : Hub E) :
      h.run depth (.apply c notification r) =
        h.run depth (.reconcile c (notification.event r)) := by
    cases depth with
    | zero => rfl
    | succ depth => cases notification <;> rfl
  induction notices generalizing h with
  | nil => rfl
  | cons notice notices ih => simp only [List.map_cons, Hub.runAll, hrun, ih]

/-- Every sequence of notifications is processed, and it admits what is noticed. -/
theorem Plan.IsNatural.notices_total {plan : Plan Entry} (hp : plan.IsNatural) (depth : Nat)
    (notices : List (Notification × ServiceReference)) : ∃ answers h,
      (Hub.ofPlans [plan]).runAll (depth + 1) (notices.map fun n => .apply 0 n.1 n.2) =
        .ok (answers, h) ∧
      (h.collection 0).services.Perm (ServiceReference.noticedAll notices) := by
  obtain ⟨k, hk, hfitted⟩ := hp.exists_build 0 0
  have hself : (Hub.ofPlans [plan]).collection 0 = k := by rw [Hub.ofPlans_singleton hk]; rfl
  have hreceptive : ((Hub.ofPlans [plan]).collection 0).Receptive := by
    rw [hself]
    exact hfitted.vacant.receptive hfitted.natural.mode.tellsApart hfitted.natural.factory
  have hbyService : ((Hub.ofPlans [plan]).collection 0).factory.SucceedsByService := by
    rw [hself]
    exact fun n m r => (hfitted.made n r).trans (hfitted.made m r).symm
  have hnever : false = true → ((Hub.ofPlans [plan]).collection 0).factory.ReleasesByService :=
    fun hno => by cases hno
  obtain ⟨answers, h, hrun, hprocessed⟩ := Hub.runAll_processed hreceptive hbyService hnever
    (notices.map fun n => n.1.event n.2) depth
  refine ⟨answers, h, (Hub.runAll_apply ..).trans hrun, ?_⟩
  refine ServiceReference.perm_of_find?_eq ?_ (ServiceReference.nodup_noticedAll _) fun id => ?_
  · have hids : (h.collection 0).services.map ServiceReference.id =
        (h.collection 0).identities := by
      rw [Collection.services, List.map_map, Collection.identities]
      rfl
    exact hids ▸ hprocessed.receptive.sound.nodup
  · -- both follow the turns of the service
    have hstay := hprocessed.stay id
    have hmakes : ∀ r, (((Hub.ofPlans [plan]).collection 0).terms false).makes r = true := by
      rw [hself]
      exact hfitted.made 0
    rw [hself, hfitted.vacant.stay, ← hself] at hstay
    rw [ServiceReference.find?_noticedAll hmakes, ← hstay, Collection.services, Collection.stay,
      Roster.find?, List.find?_map]
    rfl

/-- **Canonical order.** Take plans of sorted collections without a sort key, for references or for
proxies. Every sequence of notifications is processed, and it leaves the references that were
admitted and did not disappear since, by rank at admission from the highest down, and of equal
ranks by number from the lowest up. Whatever is done in a hub with such a collection, its items are
the references that are admitted, in this order. So two of them with the same references, of
whichever of the two kinds and after whichever runs, have them in the same order. -/
theorem natural_order_canonical {plan plan' : Plan Entry} (hp : plan.IsNatural)
    (hp' : plan'.IsNatural) :
    (∀ depth (notices : List (Notification × ServiceReference)), ∃ answers h,
      (Hub.ofPlans [plan]).runAll (depth + 1) (notices.map fun n => .apply 0 n.1 n.2) =
        .ok (answers, h) ∧
      (h.collection 0).references.Perm (ServiceReference.noticedAll notices) ∧
      (h.collection 0).references.Pairwise ServiceReference.Precedes) ∧
    (∀ plans c depth commands answers h, plans[c]? = some plan →
      (Hub.ofPlans plans).runAll depth commands = .ok (answers, h) →
      (h.collection c).references.Perm (h.collection c).services ∧
      (h.collection c).references.Pairwise ServiceReference.Precedes) ∧
    ∀ plans plans' c c' depth depth' commands commands' answers answers' h h',
      plans[c]? = some plan → plans'[c']? = some plan' →
      (Hub.ofPlans plans).runAll depth commands = .ok (answers, h) →
      (Hub.ofPlans plans').runAll depth' commands' = .ok (answers', h') →
      (h.collection c).services.Perm (h'.collection c').services →
      (h.collection c).references = (h'.collection c').references := by
  refine ⟨fun depth notices => ?_, fun plans c depth commands answers h hc hr => ?_, ?_⟩
  · obtain ⟨answers, h, hr, hservices⟩ := hp.notices_total depth notices
    obtain ⟨hitems, hranked⟩ := Hub.canonical_runAll hp (c := 0) rfl hr
    exact ⟨answers, h, hr, hitems.trans hservices, hranked⟩
  · exact Hub.canonical_runAll hp hc hr
  · intro plans plans' c c' depth depth' commands commands' answers answers' h h' hc hc' hr hr'
      hsame
    obtain ⟨hitems, hranked⟩ := Hub.canonical_runAll hp hc hr
    obtain ⟨hitems', hranked'⟩ := Hub.canonical_runAll hp' hc' hr'
    exact ServiceReference.eq_of_pairwise_precedes hranked hranked'
      (hitems.trans (hsame.trans hitems'.symm))

/-! ### Two arrivals of the same services -/

/-- A sorted list of references in natural order. -/
def Plan.rankedList : Plan Entry where
  hasRegistry := true
  factory := some .reference
  filter := some ⟨"(objectClass=*)", .present "objectClass"⟩
  mode := .sortedList fun a b => a.service.naturalOrder b.service

/-- A sorted set of proxies in natural order. -/
def Plan.rankedSet : Plan Entry where
  hasRegistry := true
  factory := some .proxy
  filter := some ⟨"(objectClass=*)", .present "objectClass"⟩
  mode := .sortedSet fun a b => a.service.naturalOrder b.service

theorem Plan.isNatural_rankedList : rankedList.IsNatural :=
  ⟨{ collection := .sortedList }, false,
    ofConfig_eq_ok.2 ⟨by decide +kernel, _, rfl, rfl⟩, rfl, rfl⟩

theorem Plan.isNatural_rankedSet : rankedSet.IsNatural :=
  ⟨{ collection := .sortedSet }, true,
    ofConfig_eq_ok.2 ⟨by decide +kernel, _, rfl, rfl⟩, rfl, rfl⟩

/-- A service with this rank. -/
def ServiceReference.ofRank (id : UInt64) (rank : Int64) : ServiceReference :=
  ⟨id, .ofList [(rankingKey, .long rank)]⟩

/-- The third service has no rank, and it is not admitted again with one; the fifth comes back with
the rank zero. -/
def ServiceReference.notices : List (Notification × ServiceReference) :=
  [(.appeared, ofRank 5 9), (.appeared, ofRank 8 (-1)), (.appeared, ⟨3, .empty⟩),
    (.updated, ofRank 3 7), (.disappeared, ofRank 5 9), (.appeared, ofRank 5 0)]

/-- The same services come in another order. -/
def ServiceReference.noticesLate : List (Notification × ServiceReference) :=
  [(.appeared, ofRank 5 0), (.updated, ⟨3, .empty⟩), (.appeared, ofRank 8 (-1))]

/-- Rank zero comes before rank minus one, also where there is none. -/
theorem natural_order_canonical_ranks : Plan.rankedList.IsNatural ∧ Plan.rankedSet.IsNatural ∧
    ∃ answers h answers' h',
      (Hub.ofPlans [Plan.rankedList]).runAll 1
        (ServiceReference.notices.map fun n => .apply 0 n.1 n.2) = .ok (answers, h) ∧
      (Hub.ofPlans [Plan.rankedSet]).runAll 1
        (ServiceReference.noticesLate.map fun n => .apply 0 n.1 n.2) = .ok (answers', h') ∧
      (h.collection 0).references = (h'.collection 0).references ∧
      (h.collection 0).references.map ServiceReference.id = [3, 5, 8] := by
  have hp := Plan.isNatural_rankedList
  have hp' := Plan.isNatural_rankedSet
  obtain ⟨hall, hitems, htwo⟩ := natural_order_canonical hp hp'
  obtain ⟨answers, h, hr, hperm, -⟩ := hall 0 ServiceReference.notices
  obtain ⟨hall', hitems', -⟩ := natural_order_canonical hp' hp
  obtain ⟨answers', h', hr', hperm', -⟩ := hall' 0 ServiceReference.noticesLate
  have hservices := (hitems [_] 0 _ _ _ _ rfl hr).1
  have hservices' := (hitems' [_] 0 _ _ _ _ rfl hr').1
  have hnoticed : (ServiceReference.noticedAll ServiceReference.notices).Perm
      (ServiceReference.noticedAll ServiceReference.noticesLate) :=
    List.reverse_perm (ServiceReference.noticedAll ServiceReference.noticesLate)
  have hsame := htwo [_] [_] 0 0 _ _ _ _ _ _ _ _ rfl rfl hr hr' (hservices.symm.trans
    (hperm.trans (hnoticed.trans (hperm'.symm.trans hservices'))))
  obtain ⟨⟨_, g⟩, hg, hids⟩ := Run.exists_of_map_eq_ok
    (f := fun p : List Answer × Hub Entry => (p.2.collection 0).references.map ServiceReference.id)
    (show ((Hub.ofPlans [Plan.rankedList]).runAll 1
      (ServiceReference.notices.map fun n => .apply 0 n.1 n.2)).map _ = .ok [3, 5, 8] by
        decide +kernel)
  obtain ⟨-, rfl⟩ := Prod.mk.inj (Except.ok.inj (hr.symm.trans hg))
  exact ⟨hp, hp', answers, h, answers', h', hr, hr', hsame, hids⟩

end LiveServices
