import LiveServices.Proofs.Arrangements.Muster
import LiveServices.Proofs.Filter.Tested
import LiveServices.Proofs.Replays.Names
import LiveServices.Proofs.Transcripts.Telling

/-!
# Hubs with a muster

A roll lists the services that are bound, each with its label. Together with the registry it makes
a muster in which services are kept by their numbers (`Hub.muster`). A hub that is in service and
shows its roll (`Hub.Hosts`) follows that muster: what an operation on the registry tells comes to
what the muster says, and after it the hub has the muster that is said to come of it
(`Hosts.register`, `Hosts.modify`, `Hosts.unregister`, `Hosts.read`).
-/

namespace LiveServices

open Transcript (Service)

/-! ## Rolls -/

/-- The services that are bound, with their labels. -/
abbrev Roll := List (UInt64 × String)

namespace Roll

variable {roll more : Roll} {id x : UInt64} {label : String} {wanted : Bool}
  {standing? : Option Standing}

/-- The services as a transcript shows them. -/
def shown (roll : Roll) : List Service := roll.map fun s => (s.1, some s.2)

/-- The labels of all services. -/
def labels (roll : Roll) : Multiset String := (roll.map Prod.snd : List String)

/-- The entries of a service. -/
def about (roll : Roll) (id : UInt64) : Roll := roll.filter (·.1 == id)

/-- The entries of the other services. -/
def others (roll : Roll) (id : UInt64) : Roll := roll.filter (·.1 != id)

/-- What an offer adds. -/
def added (roll : Roll) (id : UInt64) (wanted : Bool) (label : String) : Roll :=
  if wanted = true ∧ roll.lookup id = none then [(id, label)] else []

@[simp] theorem labels_nil : labels [] = 0 := rfl

@[simp] theorem labels_append : labels (roll ++ more) = roll.labels + more.labels := by
  simp [labels]

@[simp] theorem labels_eq_zero : roll.labels = 0 ↔ roll = [] := by simp [labels]

/-- What is shown of a service is its part of what is shown. -/
theorem shown_about : (roll.about id).shown = roll.shown.filter (·.1 == id) := by
  rw [shown, shown, List.filter_map]
  rfl

theorem shown_others : (roll.others id).shown = roll.shown.filter (·.1 != id) := by
  rw [shown, shown, List.filter_map]
  rfl

@[simp] theorem shown_eq_nil : roll.shown = [] ↔ roll = [] := List.map_eq_nil_iff

/-- A service that is not looked up is not on the roll. -/
theorem lookup_eq_none_iff : roll.lookup id = none ↔ roll.about id = [] := by
  rw [List.lookup_eq_none_iff, about, List.filter_eq_nil_iff]
  exact forall₂_congr fun s _ => by rw [bne_iff_ne, beq_iff_eq, ne_comm]

theorem others_of_about (hnone : roll.about id = []) : roll.others id = roll := by
  refine List.filter_eq_self.2 fun s hs => ?_
  exact bne_iff_ne.2 fun heq => List.filter_eq_nil_iff.1 hnone s hs (beq_iff_eq.2 heq)

/-- Of the others an offer says nothing. -/
theorem lookup_added (hne : x ≠ id) : (roll ++ roll.added id wanted label).lookup x =
    roll.lookup x := by
  rw [List.lookup_append, added]
  split
  · rw [List.lookup_cons, beq_eq_false_iff_ne.2 hne]
    exact Option.or_none
  · exact Option.or_none

/-- A service is looked up as it was before, or by its new label if it is wanted. -/
theorem lookup_added_self : (roll ++ roll.added id wanted label).lookup id =
    (roll.lookup id).or (if wanted = true then some label else none) := by
  rw [List.lookup_append, added]
  cases hl : roll.lookup id with
  | some _ => rfl
  | none =>
    cases wanted with
    | true => simp
    | false => simp

/-- The labels of a service and those of the others are all labels. -/
theorem labels_about_add (roll : Roll) (id : UInt64) :
    (roll.about id).labels + (roll.others id).labels = roll.labels := by
  rw [← labels_append]
  exact Multiset.coe_eq_coe.2 ((List.filter_append_perm _ roll).map Prod.snd)

/-- Of the others it says nothing when a service goes. -/
theorem lookup_others (hne : x ≠ id) : (roll.others id).lookup x = roll.lookup x := by
  induction roll with
  | nil => rfl
  | cons s roll ih =>
    rw [List.lookup_cons, others, List.filter_cons]
    by_cases hs : s.1 = id
    · have hx : (x == s.1) = false := beq_eq_false_iff_ne.2 (hs ▸ hne)
      rw [if_neg (by simp [hs]), hx]
      exact ih
    · rw [if_pos (bne_iff_ne.2 hs), List.lookup_cons]
      exact congrArg (fun rest => match x == s.1 with | true => some s.2 | false => rest) ih

/-- A service that is bound once has one entry. -/
theorem about_of_lookup (hu : (roll.map Prod.fst).Nodup) (hl : roll.lookup id = some label) :
    roll.about id = [(id, label)] := by
  obtain ⟨l₁, l₂, rfl, -⟩ := List.lookup_eq_some_iff.1 hl
  rw [List.map_append, List.map_cons, List.nodup_middle, List.nodup_cons, ← List.map_append] at hu
  have hothers : ∀ s ∈ l₁ ++ l₂, ¬ (s.1 == id) = true := fun s hs heq =>
    hu.1 (List.mem_map.2 ⟨s, hs, beq_iff_eq.1 heq⟩)
  rw [about, List.filter_append, List.filter_cons, if_pos (beq_self_eq_true id),
    List.filter_eq_nil_iff.2 fun s hs => hothers s (List.mem_append_left _ hs),
    List.filter_eq_nil_iff.2 fun s hs => hothers s (List.mem_append_right _ hs)]
  rfl

/-- What a standing loses is the labels of the service on the roll. -/
theorem lost_eq (hu : (roll.map Prod.fst).Nodup) :
    Standing.lost (some ⟨true, roll.lookup id⟩) = (roll.about id).labels := by
  cases hl : roll.lookup id with
  | none => rw [lookup_eq_none_iff.1 hl]; rfl
  | some label =>
    rw [about_of_lookup hu hl]
    rfl

/-- What a standing gains is the labels that are added to the roll. -/
theorem gained_eq (hheld : Standing.held? standing? = roll.lookup id) :
    Standing.gained standing? wanted label = (roll.added id wanted label).labels := by
  unfold Standing.gained added
  rw [hheld]
  split <;> rfl

end Roll

/-- A service of which the roll says nothing is one that the collection does not have. -/
theorem Collection.Shows.lookup_eq_none_iff {config : ImporterConfig} {roll : Roll} {id : UInt64}
    {k : Collection Entry} (hk : k.Shows config roll.shown) :
    roll.lookup id = none ↔ k.hasIdentity id = false := by
  rw [Roll.lookup_eq_none_iff, ← Roll.shown_eq_nil, Roll.shown_about]
  refine ⟨fun hnone => find?_eq_none_iff.1 ?_, hk.filter_of_new⟩
  cases hf : Roster.find? Holding.id id k.index with
  | none => rfl
  | some holding =>
    have hfound := hk.filter_of_found hf
    rw [id_of_find? hf, hnone] at hfound
    cases hfound

/-- No service is bound twice. -/
theorem Collection.Shows.nodup_roll {config : ImporterConfig} {roll : Roll} {k : Collection Entry}
    (hk : k.Shows config roll.shown) : (roll.map Prod.fst).Nodup := by
  have hids := hk.stored.map Prod.fst
  rw [Roll.shown, List.map_map, List.map_map] at hids
  exact hids.nodup_iff.1 hk.nodup

/-! ## What is told -/

namespace Hub

variable {config : ImporterConfig} {filter : ServiceFilter} {roll added : Roll} {n : Nat}
  {t t' : Tally} {h h₁ h' : Hub Entry} {r : ServiceReference} {label : String} {id : UInt64}

/-- What was told between the two hubs comes to this. -/
def Amounts (t : Tally) (h h' : Hub Entry) : Prop :=
  ∃ records, h.Utters records h' ∧ Transcript.tally records = t

/-- The tallies of two steps add up. -/
theorem Amounts.trans (h₁₂ : h.Amounts t h₁) (h₂₃ : h₁.Amounts t' h') : h.Amounts (t + t') h' := by
  obtain ⟨early, hearly, rfl⟩ := h₁₂
  obtain ⟨late, hlate, rfl⟩ := h₂₃
  exact ⟨early ++ late, hearly.trans hlate, Transcript.tally_append early late⟩

/-- Where nothing is told, there is nothing to tally. -/
theorem Voices.amounts (hv : h.Voices [] h') : h.Amounts 0 h' := ⟨[], hv.utters, rfl⟩

/-- These services are bound in addition to those of a roll. -/
structure Gains (config : ImporterConfig) (roll added : Roll) (h h' : Hub Entry) : Prop where
  shows : h'.Shows config (roll ++ added).shown
  amounts : h.Amounts (.ofGain config.mandatory roll.labels added.labels) h'

/-- These services of a roll are bound no more, and these are left. -/
structure Loses (config : ImporterConfig) (left lost : Roll) (h h' : Hub Entry) : Prop where
  shows : h'.Shows config left.shown
  amounts : h.Amounts (.ofLoss config.mandatory left.labels lost.labels) h'

/-- What is told before and after comes to nothing. -/
theorem Amounts.between {g : Hub Entry} (hg : h.Voices [] g) (ha : g.Amounts t h₁)
    (hv : h₁.Voices [] h') : h.Amounts t h' := by
  have hall := (hg.amounts.trans ha).trans hv.amounts
  rwa [zero_add, add_zero] at hall

theorem Gains.between {g : Hub Entry} (hg : h.Voices [] g) (hgains : g.Gains config roll added h₁)
    (hv : h₁.Voices [] h') : h.Gains config roll added h' :=
  ⟨hgains.shows.of_voices hv, hgains.amounts.between hg hv⟩

theorem Loses.between {g : Hub Entry} (hg : h.Voices [] g) (hloses : g.Loses config roll added h₁)
    (hv : h₁.Voices [] h') : h.Loses config roll added h' :=
  ⟨hloses.shows.of_voices hv, hloses.amounts.between hg hv⟩

theorem Loses.trans {left left' lost lost' : Roll}
    (hleft : lost'.labels + left'.labels = left.labels) (h₁₂ : h.Loses config left lost h₁)
    (h₂₃ : h₁.Loses config left' lost' h') :
    h.Loses config left' (lost ++ lost') h' := by
  refine ⟨h₂₃.shows, ?_⟩
  have hamounts := h₁₂.amounts.trans h₂₃.amounts
  rwa [← hleft, Tally.ofLoss_add, ← Roll.labels_append] at hamounts

/-- Where nothing is told, nothing is gained. -/
theorem Gains.of_voices (hh : h.Shows config roll.shown) (hv : h.Voices [] h') :
    h.Gains config roll [] h' := by
  refine ⟨by simpa using hh.of_voices hv, ?_⟩
  rw [Roll.labels_nil, Tally.ofGain_zero]
  exact hv.amounts

/-- Nor is anything lost. -/
theorem Loses.of_voices (hh : h.Shows config roll.shown) (hv : h.Voices [] h') :
    h.Loses config roll [] h' := by
  refine ⟨hh.of_voices hv, ?_⟩
  rw [Roll.labels_nil, Tally.ofLoss_zero]
  exact hv.amounts

/-- A binding puts a service on the roll. -/
theorem Binds.gains (hb : h.Binds config roll.shown r h') (hname : r.name? = some label) :
    h.Gains config roll [(r.id, label)] h' := by
  refine ⟨?_, _, hb.utters, ?_⟩
  · have hshows := hb.shows
    rw [ServiceReference.shown, hname] at hshows
    simpa [Roll.shown] using hshows
  · have hempty : roll.shown.length = 0 ↔ roll.labels = 0 := by simp [Roll.shown]
    have hnew : Roll.labels [(r.id, label)] ≠ 0 := by simp
    simp only [hname, hempty, Tally.ofGain, hnew, ne_eq, not_false_eq_true, and_true]
    split <;> rfl

/-- An unbinding takes a service off the roll. -/
theorem Unbinds.loses {name : Option String} (hu : h.Unbinds config roll.shown (id, name) h') :
    h.Loses config (roll.others id) (roll.about id) h' := by
  have hheld := hu.held
  rw [← Roll.shown_about] at hheld
  obtain ⟨⟨id', label⟩, hone, hself⟩ := List.map_eq_singleton_iff.1 hheld
  obtain ⟨rfl, rfl⟩ := Prod.mk.inj hself
  refine ⟨?_, _, hu.utters, ?_⟩
  · rw [Roll.shown_others]
    exact hu.shows
  · have hempty : (roll.shown.filter (·.1 != id')).length = 0 ↔ (roll.others id').labels = 0 := by
      rw [← Roll.shown_others, List.length_eq_zero_iff, Roll.shown_eq_nil, Roll.labels_eq_zero]
    have hlost : Roll.labels [(id', label)] ≠ 0 := by simp
    rw [hone]
    simp only [hempty, Tally.ofLoss, hlost, ne_eq, not_false_eq_true, and_true]
    split <;> rfl

end Hub

/-! ## Deliveries -/

namespace Run

open Hub

variable {config : ImporterConfig} {filter : ServiceFilter} {roll : Roll} {h h' : Hub Entry}
  {r : ServiceReference} {label : String} {event : ServiceEvent} {wants : ServiceFilter → Bool}
  {ending : Except Trouble Unit}

/-- An event is delivered to the importer if it wants it, and nobody else is told. -/
theorem reconcile_of_deliverAll (hl : h.registry.Linked Replay.importer (some filter))
    (hr : (deliverAll Replay.nested event wants).run h = .ok (ending, h')) :
    wants filter = false ∧ h' = h ∨ wants filter = true ∧ ∃ outcome g h₁,
      h.Voices [] g ∧ (∀ c, g.collection c = h.collection c) ∧
      reconcile Replay.nested 0 event g = .ok (outcome, h₁) ∧ h₁.Voices [] h' := by
  unfold deliverAll at hr
  rw [act_bind (a := h) (g := h) rfl] at hr
  cases hl with
  | @heard id _ hs =>
    cases hw : wants filter with
    | false =>
      have hnobody : h.registry.subscriptions.filter (fun s => wants s.filter) = [] := by
        rw [hs]
        simp [hw]
      rw [hnobody] at hr
      obtain ⟨-, rfl⟩ := pure_eq_ok.1 hr
      exact .inl ⟨rfl, rfl⟩
    | true =>
      have hone : h.registry.subscriptions.filter (fun s => wants s.filter) =
          [⟨id, filter, .importer Replay.importer⟩] := by
        rw [hs]
        simp [hw]
      rw [hone] at hr
      obtain ⟨a, h₂, hdeliver, hrest⟩ := act_bind_ok hr
      -- the delivery is counted, then noted, then carried out
      let g : Hub Entry := ({ h with registry.delivered := h.registry.delivered + 1 } :
        Hub Entry).record (.delivered id event)
      unfold deliver at hdeliver
      rw [act_bind (a := ()) (g := _) rfl, act_bind (a := ()) (g := g) rfl] at hdeliver
      obtain ⟨⟨⟩, hchanged, rfl⟩ := act_lift_ok hdeliver
      obtain ⟨-, rfl⟩ := pure_eq_ok.1 (hrest () rfl)
      obtain ⟨outcome, h₁, hreconcile, hnote⟩ := bind_eq_ok.1 hchanged
      refine .inr ⟨rfl, outcome, g, h₁, ?_, fun _ => rfl, hreconcile, ?_⟩
      · exact .silent rfl ⟨[.delivered id event], rfl, by simp [Moment.IsSilent]⟩
      · rcases outcome with (f | message) | result
        · obtain rfl : h₁.record (.eventFailure f.message) = h₂ :=
            congrArg Prod.snd (Except.ok.inj hnote)
          exact .silent rfl ⟨[_], rfl, by simp [Moment.IsSilent]⟩
        · obtain rfl : h₁.record .eventPanic = h₂ := congrArg Prod.snd (Except.ok.inj hnote)
          exact .silent rfl ⟨[_], rfl, by simp [Moment.IsSilent]⟩
        · obtain ⟨-, rfl⟩ := pure_eq_ok.1 hnote
          exact .silent rfl (silent_of_eq rfl)

/-- An event that is no notification tells nothing. -/
theorem voices_of_deliverAll (hnone : Notification.ofKind? event.kind = none)
    (hl : h.registry.Linked Replay.importer (some filter))
    (hr : (deliverAll Replay.nested event wants).run h = .ok (ending, h')) : h.Voices [] h' := by
  rcases reconcile_of_deliverAll hl hr with ⟨-, rfl⟩ | ⟨-, outcome, g, h₁, hg, -, hrec, hh'⟩
  · exact .silent rfl (silent_of_eq rfl)
  · unfold reconcile at hrec
    rw [hnone] at hrec
    obtain ⟨-, rfl⟩ := pure_eq_ok.1 hrec
    exact hg.trans hh'

/-- **Offering.** A service that appears or is updated is bound if the filter accepts it and it is
not bound yet. -/
theorem gains_of_deliverAll (hh : h.Shows config roll.shown)
    (ho : (h.collection 0).closed = false) (hm : (h.collection 0).mode.IsWelcoming)
    (hl : h.registry.Linked Replay.importer (some filter))
    (hevent : event = .registered r ∨ event = .modified r) (hname : r.name? = some label)
    (hr : (deliverAll Replay.nested event (·.accepts r.properties)).run h = .ok (ending, h')) :
    h.Gains config roll (roll.added r.id (filter.accepts r.properties) label) h' := by
  unfold Roll.added
  rcases reconcile_of_deliverAll hl hr with ⟨hw, rfl⟩ | ⟨hw, outcome, g, h₁, hg, hsame, hrec, hh'⟩
  · rw [if_neg (by simp [hw])]
    exact .of_voices hh (.silent rfl (silent_of_eq rfl))
  · have happeared : apply Replay.nested 0 .appeared r g = .ok (outcome, h₁) := by
      rcases hevent with rfl | rfl
      · exact hrec
      · exact hrec
    rcases binds_or_voices (hh.of_voices hg) happeared with hbinds | ⟨hvoices, hreason⟩
    · have hnew : roll.lookup r.id = none := by
        rw [Roll.lookup_eq_none_iff, ← Roll.shown_eq_nil, Roll.shown_about]
        exact hbinds.new
      rw [if_pos ⟨hw, hnew⟩]
      exact (hbinds.gains hname).between hg hh'
    · -- it is open and has no rivals, so it has the service
      have hhas : (h.collection 0).hasIdentity r.id = true := by
        rw [hsame, ho] at hreason
        rcases hreason with hclosed | hhas | hrival
        · cases hclosed
        · exact hhas
        · exact absurd hrival (hh.importer.stocked.faithful hm).not_hasRival
      have hheld : roll.lookup r.id ≠ none := by
        rw [Ne, hh.importer.lookup_eq_none_iff, hhas]
        exact Bool.noConfusion
      rw [if_neg fun hnew => hheld hnew.2]
      exact .of_voices hh ((hg.trans hvoices).trans hh')

/-- **Taking away.** A service that disappears is unbound if the filter accepts it. -/
theorem loses_of_deliverAll (hh : h.Shows config roll.shown)
    (hl : h.registry.Linked Replay.importer (some filter))
    (hr : (deliverAll Replay.nested (.unregistering r) (·.accepts r.properties)).run h =
      .ok (ending, h')) :
    if filter.accepts r.properties = true then
      h.Loses config (roll.others r.id) (roll.about r.id) h'
    else h.Loses config roll [] h' := by
  rcases reconcile_of_deliverAll hl hr with ⟨hw, rfl⟩ | ⟨hw, outcome, g, h₁, hg, hsame, hrec, hh'⟩
  · rw [if_neg (by simp [hw])]
    exact .of_voices hh (.silent rfl (silent_of_eq rfl))
  · rw [if_pos hw]
    obtain ⟨result, h₂, hremove, hdone⟩ := bind_eq_ok.1 hrec
    obtain ⟨-, rfl⟩ := pure_eq_ok.1 hdone
    rcases unbinds_or_voices (hh.of_voices hg) hremove with ⟨-, name, hunbinds⟩ | ⟨-, hno, hvoices⟩
    · exact hunbinds.loses.between hg hh'
    · rw [hsame] at hno
      have hnone : roll.about r.id = [] :=
        Roll.lookup_eq_none_iff.1 (hh.importer.lookup_eq_none_iff.2 hno)
      rw [Roll.others_of_about hnone, hnone]
      exact .of_voices hh ((hg.trans hvoices).trans hh')

/-- Services that are taken away are lost, and they are counted. -/
theorem loses_of_removeAll {ids : List UInt64} {count : Nat} (hh : h.Shows config roll.shown)
    (hr : removeAll Replay.nested 0 ids h = .ok (count, h')) : ∃ left lost : Roll,
      lost.labels + left.labels = roll.labels ∧ h.Loses config left lost h' ∧
      lost.length = count := by
  induction ids generalizing h roll count with
  | nil =>
    obtain ⟨rfl, rfl⟩ := pure_eq_ok.1 hr
    exact ⟨roll, [], zero_add _, .of_voices hh (.aside (.refl h)), rfl⟩
  | cons id ids ih =>
    obtain ⟨outcome, h₁, hone, hr⟩ := bind_eq_ok.1 hr
    obtain ⟨rest, h₂, hrest, hr⟩ := bind_eq_ok.1 hr
    obtain ⟨rfl, rfl⟩ := pure_eq_ok.1 hr
    rcases unbinds_or_voices hh hone with ⟨rfl, name, hunbinds⟩ | ⟨rfl, -, hvoices⟩
    · obtain ⟨left, lost, hlabels, hloses, rfl⟩ := ih hunbinds.loses.shows hrest
      refine ⟨left, roll.about id ++ lost, ?_, hunbinds.loses.trans hlabels hloses, ?_⟩
      · rw [Roll.labels_append, add_assoc, hlabels, roll.labels_about_add]
      · have hheld := congrArg List.length hunbinds.held
        rw [← Roll.shown_about, Roll.shown, List.length_map] at hheld
        rw [List.length_append, hheld, if_pos rfl, Nat.add_comm]
        rfl
    · obtain ⟨left, lost, hlabels, hloses, rfl⟩ := ih (hh.of_voices hvoices) hrest
      exact ⟨left, lost, hlabels, hloses.between hvoices (.silent rfl (silent_of_eq rfl)), rfl⟩

/-- **The end.** All services are lost, and they are counted. -/
theorem amounts_of_destroy {count : Nat} (hh : h.Shows config roll.shown)
    (hr : destroy Replay.nested 0 h = .ok (count, h')) :
    h.Amounts (.ofLoss config.mandatory 0 roll.labels) h' ∧ count = roll.labels.card := by
  obtain ⟨live, h₁, h₂, hclosed, hremoved, hempty⟩ := removed_of_destroy hr
  obtain ⟨left, lost, hlabels, hloses, rfl⟩ :=
    loses_of_removeAll (hh.of_voices hclosed) hremoved
  obtain ⟨hnone, hcleared⟩ := hempty hloses.shows
  obtain rfl := Roll.shown_eq_nil.1 hnone
  rw [Roll.labels_nil, add_zero] at hlabels
  rw [← hlabels]
  exact ⟨hloses.amounts.between hclosed hcleared, by simp [Roll.labels]⟩

end Run

/-! ## Musters by number -/

namespace Hub

variable {config : ImporterConfig} {filter : ServiceFilter} {link : Option ServiceFilter}
  {roll roll' : Roll} {n c : Nat} {h h' : Hub Entry} {r : ServiceReference} {label : String}
  {id : UInt64} {command : Command Entry} {answer : Answer} {properties : Properties}
  {mandatory : Bool}

/-- The services of the registry, and the labels of those that are bound. -/
def muster (filter : ServiceFilter) (roll : Roll) (h : Hub Entry) : Muster UInt64 where
  live id := (h.registry.get? id).map fun r => ⟨filter.accepts r.properties, roll.lookup id⟩
  bound := roll.labels

/-- A hub in service that shows a roll, whose importer is open and does not refuse a service. -/
structure Hosts (config : ImporterConfig) (filter : ServiceFilter) (n : Nat) (roll : Roll)
    (h : Hub Entry) : Prop where
  service : h.InService filter n
  shows : h.Shows config roll.shown
  isOpen : (h.collection 0).closed = false
  welcoming : (h.collection 0).mode.IsWelcoming
  filter_eq : (h.collection 0).dependency.filter = filter
  issued : ∀ s ∈ roll, s.1.toNat ≤ n

/-- The muster after an offer. -/
theorem muster_added {wanted : Bool} (hwanted : filter.accepts r.properties = wanted)
    (hself : h'.registry.get? r.id = some r)
    (hother : ∀ x, x ≠ r.id → h'.registry.get? x = h.registry.get? x)
    (hheld : Standing.held? ((h.muster filter roll).live r.id) = roll.lookup r.id) :
    (h.muster filter roll).offer mandatory r.id wanted label =
      (.ofGain mandatory roll.labels (roll.added r.id wanted label).labels,
        h'.muster filter (roll ++ roll.added r.id wanted label)) := by
  refine Prod.ext ?_ (Muster.ext ?_ ?_)
  · show Tally.ofGain mandatory roll.labels _ = _
    rw [Roll.gained_eq hheld]
  · funext x
    by_cases hx : x = r.id
    · subst hx
      show Muster.live (Muster.put _ _ _ _) _ = (h'.registry.get? r.id).map _
      rw [Muster.live_put_self, hself, Standing.offered, hheld, Option.map_some,
        Roll.lookup_added_self, hwanted]
    · show Muster.live (Muster.put _ _ _ _) _ = (h'.registry.get? x).map _
      rw [Muster.live_put_of_ne hx, hother x hx, Roll.lookup_added hx]
      rfl
  · show Standing.gained _ wanted label + roll.labels = _
    rw [Roll.gained_eq hheld, add_comm]
    exact Roll.labels_append.symm

/-- The muster after a service went. -/
theorem muster_taken {left lost : Roll} (hnone : h'.registry.get? id = none)
    (hother : ∀ x, x ≠ id → h'.registry.get? x = h.registry.get? x)
    (hlost : Standing.lost ((h.muster filter roll).live id) = lost.labels)
    (hleft : lost.labels + left.labels = roll.labels)
    (hrest : ∀ x, x ≠ id → left.lookup x = roll.lookup x) :
    (h.muster filter roll).retire mandatory id =
      (.ofLoss mandatory left.labels lost.labels, h'.muster filter left) := by
  have hbound : roll.labels - lost.labels = left.labels := by rw [← hleft, add_tsub_cancel_left]
  refine Prod.ext ?_ (Muster.ext ?_ ?_)
  · show Tally.ofLoss mandatory (roll.labels - _) _ = _
    rw [hlost, hbound]
  · funext x
    show Muster.live (Muster.put _ _ _ _) _ = (h'.registry.get? x).map _
    by_cases hx : x = id
    · subst hx
      rw [Muster.live_put_self, hnone]
      rfl
    · rw [Muster.live_put_of_ne hx, hother x hx, hrest x hx]
      rfl
  · show roll.labels - _ = left.labels
    rw [hlost, hbound]

namespace Hosts

/-- A call of the registry keeps a hub that hosts the replay so. -/
theorem call (hh : h.Hosts config filter n roll)
    (hcalls : h.Calls Replay.importer (some filter) command answer h') (hcalm : h'.Calm)
    (hn : n + (if command.isRegister = true then 1 else 0) < 2 ^ 64)
    (hshows : h'.Shows config roll'.shown)
    (hissued : ∀ s ∈ roll', s.1.toNat ≤ n + if command.isRegister = true then 1 else 0) :
    h'.Hosts config filter (n + if command.isRegister = true then 1 else 0) roll' := by
  obtain ⟨index, storage, hframe⟩ := hcalls.frame
  have hframe : h'.collection 0 = { h.collection 0 with index := index, storage := storage } :=
    hframe
  refine ⟨hh.service.call hcalls hcalm hn, hshows, ?_, ?_, ?_, hissued⟩
  · rw [hframe]
    exact hh.isOpen
  · rw [hframe]
    exact hh.welcoming
  · rw [hframe]
    exact hh.filter_eq

/-- **Offers.** A service that is put into the registry is offered. -/
theorem put (hh : h.Hosts config filter n roll)
    (hcalls : h.Calls Replay.importer (some filter) command answer h') (hcalm : h'.Calm)
    (hn : n + (if command.isRegister = true then 1 else 0) < 2 ^ 64)
    (hid : r.id.toNat ≤ n + if command.isRegister = true then 1 else 0)
    (hself : h'.registry.get? r.id = some r)
    (hother : ∀ x, x ≠ r.id → h'.registry.get? x = h.registry.get? x)
    (hheld : Standing.held? ((h.muster filter roll).live r.id) = roll.lookup r.id)
    (hgains : h.Gains config roll (roll.added r.id (filter.accepts r.properties) label) h') :
    let offer := (h.muster filter roll).offer config.mandatory r.id
      (filter.accepts r.properties) label
    (∃ roll', h'.Hosts config filter (n + if command.isRegister = true then 1 else 0) roll' ∧
      h'.muster filter roll' = offer.2) ∧ h.Amounts offer.1 h' := by
  rw [muster_added rfl hself hother hheld]
  refine ⟨⟨_, hh.call hcalls hcalm hn hgains.shows fun s hs => ?_, rfl⟩, hgains.amounts⟩
  rcases List.mem_append.1 hs with hs | hs
  · exact Nat.le_add_right_of_le (hh.issued s hs)
  · unfold Roll.added at hs
    split at hs
    · rw [List.mem_singleton.1 hs]
      exact hid
    · cases hs

/-- **A registration** is an offer of a new service. -/
theorem register (hh : h.Hosts config filter n roll) (hn : n + 1 < 2 ^ 64)
    (hname : (ServiceReference.new h.registry.nextService properties).name? = some label)
    (hr : (Run.register Replay.nested properties).run h = .ok (.ok r, h')) :
    let offer := (h.muster filter roll).offer config.mandatory r.id
      (filter.accepts (ServiceReference.new r.id properties).properties) label
    (∃ roll', h'.Hosts config filter (n + 1) roll' ∧ h'.muster filter roll' = offer.2) ∧
    h.Amounts offer.1 h' ∧ (h.muster filter roll).live r.id = none := by
  obtain ⟨h₁, hrun, hcalls, hcalm⟩ := Run.register_total Replay.nested hh.service.calm
    hh.service.linked properties
  obtain ⟨hr', rfl⟩ := Prod.mk.inj (Except.ok.inj (hr.symm.trans hrun))
  obtain rfl := Except.ok.inj hr'
  let r := ServiceReference.new h.registry.nextService properties
  -- the service is put into the registry first
  let g : Hub Entry := { h with registry := (h.registry.add properties).2 }
  have hg : g.Shows config roll.shown := ⟨hh.shows.length, hh.shows.importer⟩
  have hlinked : g.registry.Linked Replay.importer (some filter) := hh.service.linked.of_eq rfl
  obtain ⟨h₁, hdelivered, -⟩ := Run.deliverAll_total Replay.nested (h := g) hh.service.calm hlinked
    (.registered r) (·.accepts r.properties)
  unfold Run.register at hr
  rw [Run.act_bind (a := r) (g := g) rfl, Run.act_bind hdelivered] at hr
  obtain ⟨-, rfl⟩ := Run.pure_eq_ok.1 hr
  have hgains := Run.gains_of_deliverAll hg hh.isOpen hh.welcoming hlinked (.inl rfl) hname
    hdelivered
  have hnew : h.registry.get? r.id = none := by
    refine List.find?_eq_none.2 fun s hmem heq => ?_
    exact hh.service.issued.next_notMem hn s hmem (eq_of_beq heq)
  have hfree : roll.lookup r.id = none := by
    refine List.lookup_eq_none_iff.2 fun s hs => bne_iff_ne.2 fun heq => ?_
    have hle := hh.issued s hs
    rw [← heq, show r.id = h.registry.nextService from rfl, hh.service.issued.toNat_next hn] at hle
    omega
  have hlive : (h.muster filter roll).live r.id = none := congrArg (Option.map _) hnew
  obtain ⟨hself, hother⟩ := hcalls.get?_registered
  obtain ⟨hhosts, hamounts⟩ := hh.put hcalls hcalm hn
    (Nat.le_of_eq (hh.service.issued.toNat_next hn)) hself hother (by rw [hlive, hfree]; rfl)
    ⟨hgains.shows, hgains.amounts⟩
  exact ⟨hhosts, hamounts, hlive⟩

/-- **Other properties** are an offer of a service that is there. -/
theorem modify (hh : h.Hosts config filter n roll) (hn : n < 2 ^ 64)
    (hid : (h.registry.get? id).isSome = true)
    (hname : (ServiceReference.new id properties).name? = some label)
    (hr : (Run.setProperties Replay.nested id properties).run h = .ok (.ok r, h')) :
    let offer := (h.muster filter roll).offer config.mandatory id
      (filter.accepts (ServiceReference.new id properties).properties) label
    (∃ roll', h'.Hosts config filter n roll' ∧ h'.muster filter roll' = offer.2) ∧
    h.Amounts offer.1 h' := by
  obtain ⟨old, hold⟩ := Option.isSome_iff_exists.1 hid
  obtain ⟨h₁, hrun, hcalls, hcalm⟩ := Run.setProperties_total Replay.nested hh.service.calm
    hh.service.linked hold properties
  obtain ⟨hr', rfl⟩ := Prod.mk.inj (Except.ok.inj (hr.symm.trans hrun))
  obtain rfl := Except.ok.inj hr'
  let r := ServiceReference.new id properties
  -- the service is put into the registry first
  let g : Hub Entry := { h with registry := h.registry.put r }
  have hg : g.Shows config roll.shown := ⟨hh.shows.length, hh.shows.importer⟩
  have hlinked : g.registry.Linked Replay.importer (some filter) := hh.service.linked.of_eq rfl
  obtain ⟨h₂, hdelivered, hch, hcalm₂⟩ := Run.deliverAll_total Replay.nested (h := g)
    hh.service.calm hlinked (.modified r) (·.accepts r.properties)
  have hlinked₂ : h₂.registry.Linked Replay.importer (some filter) :=
    hlinked.of_eq hch.registry.subscriptions
  obtain ⟨h₃, hended, -⟩ := Run.deliverAll_total Replay.nested hcalm₂ hlinked₂
    ⟨.modifiedEndmatch, r⟩
    (fun filter => !filter.accepts r.properties && filter.accepts old.properties)
  unfold Run.setProperties at hr
  rw [Run.act_bind (a := h) (g := h) rfl, hold] at hr
  change (_ >>= fun _ => _ : Act Entry _).run h = _ at hr
  rw [Run.act_bind (a := ()) (g := g) rfl, Run.act_bind hdelivered, Run.act_bind hended] at hr
  obtain ⟨-, rfl⟩ := Run.pure_eq_ok.1 hr
  -- what is delivered second tells nothing
  have hgains := (Run.gains_of_deliverAll hg hh.isOpen hh.welcoming hlinked (.inr rfl) hname
    hdelivered).between (.silent rfl (silent_of_eq rfl))
    (Run.voices_of_deliverAll rfl hlinked₂ hended)
  have hheld : Standing.held? ((h.muster filter roll).live id) = roll.lookup id := by
    show Standing.held? ((h.registry.get? id).map _) = _
    rw [hold]
    rfl
  have hold' : id.toNat ≤ n := by
    have hle := hh.service.issued.bound old (List.mem_of_find?_eq_some hold)
    rwa [Roster.key_of_find? hold] at hle
  obtain ⟨hself, hother⟩ := hcalls.get?_modified hid
  exact hh.put (r := r) hcalls hcalm hn hold' hself hother hheld ⟨hgains.shows, hgains.amounts⟩

/-- **Going.** A service that is taken away retires. -/
theorem unregister (hh : h.Hosts config filter n roll) (hn : n < 2 ^ 64)
    (hid : (h.registry.get? id).isSome = true)
    (hr : (Run.unregister Replay.nested id).run h = .ok (.ok (), h')) :
    let retired := (h.muster filter roll).retire config.mandatory id
    (∃ roll', h'.Hosts config filter n roll' ∧ h'.muster filter roll' = retired.2) ∧
    h.Amounts retired.1 h' := by
  obtain ⟨old, hold⟩ := Option.isSome_iff_exists.1 hid
  obtain ⟨h₁, hrun, hcalls, hcalm⟩ := Run.unregister_total Replay.nested hh.service.calm
    hh.service.linked hold
  obtain ⟨-, rfl⟩ := Prod.mk.inj (Except.ok.inj (hr.symm.trans hrun))
  -- the service is taken out of the registry first
  let g : Hub Entry := { h with registry := h.registry.remove id }
  have hg : g.Shows config roll.shown := ⟨hh.shows.length, hh.shows.importer⟩
  have hlinked : g.registry.Linked Replay.importer (some filter) := hh.service.linked.of_eq rfl
  unfold Run.unregister at hr
  rw [Run.act_bind (a := h) (g := h) rfl, hold] at hr
  change (_ >>= fun _ => _ : Act Entry _).run h = _ at hr
  rw [Run.act_bind (a := ()) (g := g) rfl] at hr
  have hloses := Run.loses_of_deliverAll hg hlinked hr
  obtain rfl := Roster.key_of_find? hold
  obtain ⟨hnone, hother⟩ := hcalls.get?_unregistered
  have hlive : (h.muster filter roll).live old.id =
      some ⟨filter.accepts old.properties, roll.lookup old.id⟩ := congrArg (Option.map _) hold
  split at hloses
  · next hw =>
    rw [hw] at hlive
    rw [muster_taken hnone hother (hlive ▸ Roll.lost_eq hh.shows.importer.nodup_roll)
      (roll.labels_about_add old.id) fun x hx => Roll.lookup_others hx]
    exact ⟨⟨_, hh.call hcalls hcalm hn hloses.shows fun s hs =>
      hh.issued s (List.mem_filter.1 hs).1, rfl⟩, hloses.amounts⟩
  · next hw =>
    -- a service that is not wanted stays bound
    rw [Bool.eq_false_iff.2 hw] at hlive
    have hlost : Standing.lost ((h.muster filter roll).live old.id) = Roll.labels [] := by
      rw [hlive]
      rfl
    rw [muster_taken hnone hother hlost (zero_add _) fun x _ => rfl]
    exact ⟨⟨_, hh.call hcalls hcalm hn hloses.shows hh.issued, rfl⟩, hloses.amounts⟩

/-- **Reading.** A read tells what the muster says. -/
theorem read (hh : h.Hosts config filter n roll) : (h.collection 0).readRecord.tally =
    { reads := [(h.muster filter roll).reading config.mandatory filter] } := by
  have hk := hh.shows.importer
  have hempty : roll.length = 0 ↔ (h.muster filter roll).bound = 0 := by
    show _ ↔ roll.labels = 0
    simp
  have hlabels : ((((h.collection 0).storage.items.map fun e =>
      (ServiceEntry.reference e).label) : List String) : Multiset String) = roll.labels := by
    refine Multiset.coe_eq_coe.2 ?_
    have hperm := hk.stored.map Transcript.label
    rw [Roll.shown, List.map_map, List.map_map] at hperm
    exact hperm
  have hsize : (h.collection 0).size = roll.length := by
    rw [hk.size_eq, Roll.shown, List.length_map]
  unfold Collection.readRecord Collection.check Dependency.check Dependency.isSatisfied
    Muster.reading
  rw [hsize, hk.mandatory, hh.filter_eq]
  by_cases hunmet : config.mandatory = true ∧ (h.muster filter roll).bound = 0
  · have hno : (!config.mandatory || roll.length != 0) = false := by
      simp [hunmet.1, hempty.2 hunmet.2]
    rw [hno, if_pos hunmet]
    rfl
  · have hmet : (!config.mandatory || roll.length != 0) = true := by
      rw [← hempty] at hunmet
      cases hm : config.mandatory with
      | false => rfl
      | true => simpa [hm] using hunmet
    have hcard : (h.muster filter roll).bound.card = roll.length := by
      show roll.labels.card = _
      simp [Roll.labels]
    rw [hmet, if_neg hunmet, hcard]
    exact congrArg (fun labels => ({ reads := [(some roll.length, labels, none)] } : Tally)) hlabels

end Hosts

end Hub

end LiveServices
