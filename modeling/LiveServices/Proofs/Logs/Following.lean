import LiveServices.Proofs.Callbacks.Balance
import LiveServices.Proofs.Logs.Replayed
import LiveServices.Proofs.Releases.Serials
import LiveServices.Proofs.Run.Endings

/-!
# A log that follows its collection

A lifecycle listener is told of a change of the index after the section that made it, when the
lock was given back. If the lifecycle listeners of the collection give no commands in answer
(`Hub.Unanswered`) then nothing happens between the section and the call. So to play back what the
listener was told gives the index, except between the two, where it does so with the callback that
is due (`Hub.Logged`, with the log as its parameter).

`Hub.Following` is the relation that comes of it. It also says of the moments that passed which
of them are checkpoints, at which a log has to agree with the index: the calls of state listeners,
the beginnings of releases, and the ends of commands (`Moment.Confirms`).
-/

namespace LiveServices

variable {E : Type}

/-! ## Checkpoints -/

/-- What a listener was told in a trace, the latest first. -/
def logOf (tag : ListenerTag) (trace : List (Moment E)) : List (Callback E) :=
  trace.filterMap fun
    | .called tag' callback _ => if tag' == tag then some callback else none
    | _ => none

/-- The services in all collections at a moment when a state listener was called, a release began,
or a command ended. -/
def Moment.checkpoint? : Moment E → Option Census
  | .called _ (.satisfied _) glimpse | .called _ (.unsatisfied _) glimpse => some glimpse.census
  | .releasing _ _ _ census _ => some census
  | .ended census => some census
  | _ => none

/-- If the moment is a checkpoint then to play back what the listener was told before it gives the
services that were in the collection. -/
def Moment.Confirms (c : Nat) (tag : ListenerTag) (m : Moment E) (early : List (Moment E)) : Prop :=
  ∀ census, m.checkpoint? = some census →
    ((replayed (logOf tag early)).map fun p => p.2.id).Perm ((census[c]?.getD []).map Prod.snd)

namespace Collection

variable {k k' : Collection E} {holding : Holding E}

/-- The entries of the index with the references that they were made for. -/
def admitted (k : Collection E) : List (E × ServiceReference) :=
  k.index.map fun x => (x.entry, x.reference)

theorem identities_eq_admitted (k : Collection E) :
    k.identities = k.admitted.map fun p => p.2.id := by
  rw [admitted, List.map_map]
  rfl

variable [ServiceEntry E]

theorem admitted_enter (hn : k.hasIdentity holding.id = false) :
    (k.enter holding).admitted.Perm ((holding.entry, holding.reference) :: k.admitted) :=
  (index_enter hn).map fun x : Holding E => (x.entry, x.reference)

theorem admitted_leave (k : Collection E) (holding : Holding E) :
    (k.leave holding).admitted = k.admitted.filter fun p => p.2.id != holding.id := by
  rw [admitted, admitted, List.filter_map]
  rfl

end Collection

variable [ServiceEntry E]

/-! ## Hubs with a log -/

/-- The log is linear, and to play it back gives the entries of the collection that its listener
watches. -/
structure Hub.Logged (c : Nat) (l : Attached E) (log : List (Callback E)) (h : Hub E) : Prop where
  keyed : h.Keyed
  coherent : h.Coherent
  attached : l ∈ (h.collection c).lifecycleListeners
  equivalent : (h.collection c).factory.EntriesEquivalent
  linear : Linear log
  exact : (replayed log).Perm (h.collection c).admitted

omit [ServiceEntry E] in
/-- So far no lifecycle listener of the collection gave a command when it was called. -/
def Hub.Unanswered (c : Nat) (h : Hub E) : Prop :=
  ∀ a ∈ (h.collection c).lifecycleListeners, ∀ late callback glimpse early,
    h.trace = late ++ .called a.tag callback glimpse :: early →
    (a.listener.respond (logOf a.tag early) callback).commands = []

omit [ServiceEntry E] in
/-- Moments that are no checkpoints passed. -/
def Hub.Unchecked (h h' : Hub E) : Prop :=
  ∃ recent, h'.trace = recent ++ h.trace ∧ ∀ m ∈ recent, m.checkpoint? = none

/-- The index is as it was, the listener was told nothing, and no checkpoint passed. -/
structure Hub.Mute (c : Nat) (tag : ListenerTag) (h h' : Hub E) : Prop where
  sure : h.Sure h'
  index : (h'.collection c).index = (h.collection c).index
  history : h'.history tag = h.history tag
  unchecked : h.Unchecked h'

/-- The log of the listener gives the entries of the collection, and all checkpoints that passed
confirm it. -/
structure Hub.Confirmed (c : Nat) (l : Attached E) (h h' : Hub E) : Prop where
  logged : h'.Logged c l (h'.history l.tag)
  checked : ∃ recent, h'.trace = recent ++ h.trace ∧
    Throughout (fun _ m early => m.Confirms c l.tag early) h.trace recent

/-- The log of the listener keeps on giving the entries of the collection, if no lifecycle listener
answers a call with commands. -/
structure Hub.Following (c : Nat) (l : Attached E) (h h' : Hub E) : Prop where
  sure : h.Sure h'
  confirmed : h'.Unanswered c → h.Logged c l (h.history l.tag) → h.Confirmed c l h'

namespace Hub

variable {c d : Nat} {l a : Attached E} {tag : ListenerTag} {log log' : List (Callback E)}
  {callback : Callback E} {h h₁ h' : Hub E}

/-- A call adds to what the listener that was called was told. -/
theorem history_calling : (h.calling a callback).history tag =
    if a.tag = tag then callback :: h.history tag else h.history tag :=
  history_record_called h a.tag tag callback _

/-- A lifecycle listener stays attached. -/
theorem Sure.attached (hs : h.Sure h') (ha : a ∈ (h.collection c).lifecycleListeners) :
    a ∈ (h'.collection c).lifecycleListeners := by
  obtain ⟨fresh, hall, -⟩ := (hs.onward.collection c).lifecycle
  rw [hall]
  exact List.mem_append_left _ ha

omit [ServiceEntry E] in
/-- A lifecycle listener has its place, and those before it and after it have other numbers. -/
theorem Keyed.place (hk : h.Keyed) (hl : l ∈ (h.collection c).lifecycleListeners) :
    ∃ early late, (h.collection c).lifecycleListeners = early ++ l :: late ∧
      ∀ a ∈ early ++ late, a.tag ≠ l.tag := by
  obtain ⟨early, late, hplace⟩ := List.append_of_mem hl
  have hnodup := hk.lifecycle.nodup c
  rw [hplace, List.map_append, List.map_cons, List.nodup_append, List.nodup_cons] at hnodup
  obtain ⟨-, ⟨hlate, -⟩, hearly⟩ := hnodup
  refine ⟨early, late, hplace, fun a ha htag => ?_⟩
  have hkey : a.key = l.key := congrArg ListenerTag.key htag
  rcases List.mem_append.1 ha with ha | ha
  · exact hearly _ (List.mem_map_of_mem ha) _ List.mem_cons_self hkey
  · exact hlate (List.mem_map.2 ⟨a, ha, hkey⟩)

/-! ### Answers -/

omit [ServiceEntry E] in
/-- Passive listeners answer no call with commands. -/
theorem unanswered_of_passive
    (hp : ∀ a ∈ (h.collection c).lifecycleListeners, a.listener.IsPassive) : h.Unanswered c := by
  intro a ha late callback glimpse early _
  exact hp a ha _ _

theorem Unanswered.of_sure (hs : h.Sure h') (hu : h'.Unanswered c) : h.Unanswered c := by
  intro a ha late callback glimpse early ht
  obtain ⟨recent, htrace⟩ := hs.onward.trace
  refine hu a (hs.attached ha) (recent ++ late) callback glimpse early ?_
  rw [htrace, ht, List.append_assoc]

/-! ### Logs -/

omit [ServiceEntry E] in
theorem Unchecked.refl (h : Hub E) : h.Unchecked h := ⟨[], rfl, by simp⟩

omit [ServiceEntry E] in
theorem Unchecked.trans (h₁₂ : h.Unchecked h₁) (h₂₃ : h₁.Unchecked h') : h.Unchecked h' := by
  obtain ⟨older, ho, hom⟩ := h₁₂
  obtain ⟨newer, hn, hnm⟩ := h₂₃
  refine ⟨newer ++ older, by rw [hn, ho, List.append_assoc], fun m hm => ?_⟩
  exact (List.mem_append.1 hm).elim (hnm m) (hom m)

/-- The call of a listener that is told about a service. -/
theorem Unchecked.calling {id : UInt64} (hid : callback.service? = some id) :
    h.Unchecked (h.calling a callback) := by
  refine ⟨[_], rfl, fun m hm => ?_⟩
  obtain rfl := List.mem_singleton.1 hm
  cases callback with
  | bind | unbind => rfl
  | _ => cases hid

namespace Logged

/-- A later hub with a log of its own. -/
theorem next (hl : h.Logged c l log) (hs : h.Sure h') (linear : Linear log')
    (exact : (replayed log').Perm (h'.collection c).admitted) : h'.Logged c l log' := by
  refine ⟨hs.keyed hl.keyed, hs.coherent hl.coherent, hs.attached hl.attached, ?_, linear, exact⟩
  rw [(hs.onward.collection c).factory]
  exact hl.equivalent

/-- A later hub with the same entries. -/
theorem of_index (hl : h.Logged c l log) (hs : h.Sure h')
    (hi : (h'.collection c).index = (h.collection c).index) : h'.Logged c l log :=
  hl.next hs hl.linear (by rw [Collection.admitted, hi]; exact hl.exact)

/-- The listener was told of something else than a service. -/
theorem of_other (hl : h.Logged c l log) (hs : h.Sure h')
    (hi : (h'.collection c).index = (h.collection c).index) (ho : callback.service? = none) :
    h'.Logged c l (callback :: log) := by
  refine hl.next hs (.other hl.linear ho) ?_
  rw [replayed_cons_of_none ho, Collection.admitted, hi]
  exact hl.exact

/-- **Entering.** A service that was admitted is due in the log. -/
theorem enter {holding : Holding E} (hl : h.Logged c l log) (hs : h.Sure h')
    (hk : h'.collection c = (h.collection c).enter holding)
    (hn : (h.collection c).hasIdentity holding.id = false) :
    h'.Logged c l (.bind holding.entry holding.reference :: log) := by
  refine hl.next hs (.bind hl.linear fun p hp hid => ?_) ?_
  · have hmem : holding.id ∈ (h.collection c).identities := by
      rw [Collection.identities_eq_admitted]
      exact List.mem_map.2 ⟨p, hl.exact.mem_iff.1 hp, hid⟩
    rw [Collection.hasIdentity_iff.2 hmem] at hn
    cases hn
  · rw [hk]
    exact (hl.exact.cons _).trans (Collection.admitted_enter hn).symm

/-- **Leaving.** A service that was taken away is due in the log, with the entry and the reference
that it was admitted with. -/
theorem leave {holding : Holding E} (hl : h.Logged c l log) (hs : h.Sure h')
    (hm : holding ∈ (h.collection c).index)
    (hk : h'.collection c = (h.collection c).leave holding) :
    h'.Logged c l (.unbind holding.entry holding.reference :: log) := by
  refine hl.next hs (.unbind hl.linear ?_) ?_
  · exact hl.exact.mem_iff.2 (List.mem_map.2 ⟨holding, hm, rfl⟩)
  · rw [hk, Collection.admitted_leave]
    exact hl.exact.filter _

/-- What is seen of the collections now agrees with the log. -/
theorem confirms {m : Moment E} (hl : h.Logged c l (h.history l.tag))
    (hm : ∀ census, m.checkpoint? = some census → census = h.census) :
    m.Confirms c l.tag h.trace := by
  intro census hcensus
  rw [hm census hcensus, census_getD, (Collection.census_eq _).2,
    Collection.identities_eq_admitted]
  exact hl.exact.map _

end Logged

namespace Confirmed

theorem of_unchecked (hl : h'.Logged c l (h'.history l.tag)) (hq : h.Unchecked h') :
    h.Confirmed c l h' := by
  obtain ⟨recent, ht, hm⟩ := hq
  refine ⟨hl, recent, ht, .of_forall fun m hmem late early census hc => ?_⟩
  rw [hm m hmem] at hc
  cases hc

theorem trans (h₁₂ : h.Confirmed c l h₁) (h₂₃ : h₁.Confirmed c l h') : h.Confirmed c l h' := by
  obtain ⟨older, ho, hold⟩ := h₁₂.checked
  obtain ⟨newer, hn, hnew⟩ := h₂₃.checked
  refine ⟨h₂₃.logged, newer ++ older, by rw [hn, ho, List.append_assoc], ?_⟩
  rw [ho] at hnew
  exact .append (fun _ hm => hm) hold hnew

end Confirmed

/-! ### Steps -/

namespace Mute

instance : Flow (Mute (E := E) c tag) where
  quiet hq := by
    obtain ⟨recent, ht, hm⟩ := hq.trace
    refine ⟨Law.aside hq.aside, (hq.aside.stock c).index, ?_, recent, ht, fun m hmem => ?_⟩
    · refine told_eq ⟨recent, ht, fun m hmem => ?_⟩ _
      have hquiet := hm m hmem
      cases m with
      | called | releasing => exact absurd hquiet id
      | _ => trivial
    · have hquiet := hm m hmem
      cases m with
      | called | releasing | ended => exact absurd hquiet id
      | _ => rfl
  trans h₁₂ h₂₃ := ⟨Law.trans h₁₂.sure h₂₃.sure, h₂₃.index.trans h₁₂.index,
    h₂₃.history.trans h₁₂.history, h₁₂.unchecked.trans h₂₃.unchecked⟩

theorem logged (hq : h.Mute c l.tag h') (hl : h.Logged c l log) : h'.Logged c l log :=
  hl.of_index hq.sure hq.index

/-- A step that leaves no trace. -/
theorem of_trace (hs : h.Sure h') (hi : (h'.collection c).index = (h.collection c).index)
    (ht : h'.trace = h.trace) : h.Mute c tag h' :=
  ⟨hs, hi, told_eq (silent_of_eq ht) _, [], ht, by simp⟩

/-- A change of a collection that leaves its entries and its listeners alone. -/
theorem update {f : Collection E → Collection E} (hf : ∀ k, Collection.SameStock k (f k)) :
    h.Mute c tag (h.update d f) :=
  .of_trace (Law.aside (.update d hf)) ((Aside.update d hf).stock c).index rfl

/-- The call of another listener about a service. -/
theorem calling {id : UInt64} (hne : a.tag ≠ tag) (hid : callback.service? = some id) :
    h.Mute c tag (h.calling a callback) := by
  refine ⟨Run.steps_sure.called h _ _ _, rfl, ?_, .calling hid⟩
  rw [history_calling, if_neg hne]

end Mute

namespace Following

theorem of_mute (hq : h.Mute c l.tag h') : Following c l h h' := by
  refine ⟨hq.sure, fun _ hl => .of_unchecked ?_ hq.unchecked⟩
  rw [hq.history]
  exact hq.logged hl

instance : Flow (Following (E := E) c l) where
  quiet hq := of_mute (Flow.quiet hq)
  trans h₁₂ h₂₃ := by
    refine ⟨Law.trans h₁₂.sure h₂₃.sure, fun hu hl => ?_⟩
    have hfirst := h₁₂.confirmed (hu.of_sure h₂₃.sure) hl
    exact hfirst.trans (h₂₃.confirmed hu hfirst.logged)

/-- What the log was confirmed before is confirmed after. -/
theorem after (hf : Following c l h₁ h') (hu : h'.Unanswered c) (hc : h.Confirmed c l h₁) :
    h.Confirmed c l h' := hc.trans (hf.confirmed hu hc.logged)

/-- One moment in which the index stays as it was, and in which the listener is told of nothing or
of something else than a service. -/
theorem of_moment {m : Moment E} (hs : h.Sure h')
    (hi : (h'.collection c).index = (h.collection c).index) (ht : h'.trace = m :: h.trace)
    (hm : ∀ census, m.checkpoint? = some census → census = h.census)
    (hlog : h'.history l.tag = h.history l.tag ∨ ∃ callback, callback.service? = none ∧
      h'.history l.tag = callback :: h.history l.tag) : Following c l h h' := by
  refine ⟨hs, fun _ hl => ⟨?_, [m], ht, .singleton (hl.confirms hm)⟩⟩
  rcases hlog with hsame | ⟨callback, ho, hmore⟩
  · rw [hsame]
    exact hl.of_index hs hi
  · rw [hmore]
    exact hl.of_other hs hi ho

/-- A call of another listener, or a call about something else than a service. -/
theorem calling (hq : a.tag ≠ l.tag ∨ callback.service? = none) :
    Following c l h (h.calling a callback) := by
  refine .of_moment (Run.steps_sure.called h _ _ _) rfl rfl (fun census hc => ?_) ?_
  · -- what the listener sees is the hub as it is
    cases callback with
    | satisfied | unsatisfied => exact (Option.some.inj hc).symm
    | _ => cases hc
  · rw [history_calling]
    split
    · next heq =>
      rcases hq with hne | hnone
      · exact absurd heq hne
      · exact .inr ⟨callback, hnone, rfl⟩
    · exact .inl rfl

theorem letting (d serial : Nat) (service : UInt64) (announced : Bool) :
    Following c l h (h.letting d serial service announced) :=
  .of_moment (Run.steps_sure.released h d serial service h.census announced) rfl rfl
    (fun _ hc => (Option.some.inj hc).symm) (.inl rfl)

theorem ended : Following c l h (h.record (.ended h.census)) :=
  .of_moment (Law.aside (.record trivial)) rfl rfl (fun _ hc => (Option.some.inj hc).symm)
    (.inl rfl)

end Following

/-! ### Sections -/

section Sections

variable {r : ServiceReference} {id : UInt64}

theorem unchecked_of_considered {result : Except Trouble (Admission E)}
    (hc : Considered d r h result h') : h.Unchecked h' := by
  cases hc with
  | ignored => exact .refl h
  | failed | panicked =>
    exact ⟨[.attempted d (h.attempts + 1) r.id], rfl, by simp [Moment.checkpoint?]⟩
  | refused | admitted =>
    exact ⟨[.created d _ r.id _, .attempted d _ r.id], rfl, by simp [Moment.checkpoint?]⟩

/-- A decision that admits no service to the collection. -/
theorem mute_considered {result : Except Trouble (Admission E)} (hs : h.Sure h')
    (hc : Considered d r h result h')
    (hno : d = c → ∀ entry first, result ≠ .ok (.admitted entry first)) : h.Mute c tag h' := by
  refine ⟨hs, ?_, told_eq hc.toSection.trace _, unchecked_of_considered hc⟩
  by_cases hd : d = c
  · cases hc with
    | ignored | failed | panicked | refused => rfl
    | admitted => exact absurd rfl (hno hd _ _)
  · rw [hc.toSection.others c (Ne.symm hd)]

/-- A decision that admits a service to the collection. -/
theorem logged_of_admitted {entry : E} {first : Bool} (hs : h.Sure h')
    (hc : Considered c r h (.ok (.admitted entry first)) h') (hl : h.Logged c l log) :
    h'.Logged c l (.bind entry r :: log) := by
  cases hc with
  | admitted ho hn => exact hl.enter hs (collection_setTo_self (lt_length_of_open ho)) hn

theorem mute_retracted {result : Option (Removal E)} (hs : h.Sure h')
    (hc : Retracted d id h result h') (hno : d = c → result = none) : h.Mute c tag h' := by
  refine .of_trace hs ?_ ?_
  · by_cases hd : d = c
    · obtain rfl := hno hd
      cases hc
      rfl
    · rw [hc.toSection.others c (Ne.symm hd)]
  · cases hc with
    | absent | found => rfl

/-- Where equality is an equivalence the storage has an entry for a service that is taken away. -/
theorem logged_of_retracted {removal : Removal E} (hs : h.Sure h')
    (hc : Retracted c id h (some removal) h') (hl : h.Logged c l log) :
    removal.wasStored = true ∧
    h'.Logged c l (.unbind removal.holding.entry removal.holding.reference :: log) := by
  cases hc with
  | found hf =>
    have hmem := List.mem_of_find?_eq_some hf
    refine ⟨(hl.coherent.now c).removeOne_eq_true hl.equivalent hmem, hl.leave hs hmem ?_⟩
    exact collection_setTo_self (lt_length_of_index (List.ne_nil_of_mem hmem))

end Sections

end Hub

/-! ## Rounds -/

namespace Run

open Hub

variable {c d : Nat} {l a : Attached E} {callback : Callback E} {h h' : Hub E} {nested : Nested E}

theorem mute_settle {what : Guarded} {name : String} {service : UInt64} {finish : Finish}
    {tag : ListenerTag} {u : PUnit} (hr : (do
      let _ ← settle what name service finish : Run E PUnit) h = .ok (u, h')) :
    h.Mute c tag h' := by
  have hends : Ends (Reaching (Mute c tag)) (do
      let _ ← settle what name service finish : Run E PUnit) :=
    .bind (.settle _ _ _ _) fun _ => .pure _
  exact ends_reaching.1 hends hr

section Quiet

variable (hn : ∀ command, Keeps Hub.Sure (nested command))
include hn

/-- The call of a lifecycle listener that answers with no command. -/
theorem call_of_unanswered {finish : Finish} (ha : a ∈ (h.collection c).lifecycleListeners)
    (hr : call nested a callback h = .ok (finish, h')) (hu : h'.Unanswered c) :
    h' = h.calling a callback := by
  rw [call_eq] at hr
  have hnote (command : Command E) (answer : Answer) :
      Keeps (Hub.Sure (E := E)) (record (.commanded a.tag command.name answer)) := .record trivial
  have hlater : (h.calling a callback).Sure h' :=
    Keeps.give (fun command _ => hn command) hnote _ hr
  obtain ⟨recent, ht⟩ := hlater.onward.trace
  have hnone : (a.listener.respond (h.history a.tag) callback).commands = [] :=
    hu a (hlater.attached ha) recent callback _ h.trace ht
  rw [hnone] at hr
  exact (pure_eq_ok.1 hr).2.symm

/-- A round over lifecycle listeners that answer with no command, and of which this is none. -/
theorem mute_callAll {what : Guarded} {service id : UInt64} {tag : ListenerTag}
    {listeners : List (Attached E)} {u : Unit} (hid : callback.service? = some id)
    (hl : ∀ a ∈ listeners, a ∈ (h.collection c).lifecycleListeners ∧ a.tag ≠ tag)
    (hr : callAll nested what service callback listeners h = .ok (u, h')) (hu : h'.Unanswered c) :
    h.Mute c tag h' := by
  induction listeners generalizing h with
  | nil =>
    obtain ⟨-, rfl⟩ := pure_eq_ok.1 hr
    exact Flow.quiet (.refl h)
  | cons a listeners ih =>
    obtain ⟨ha, hne⟩ := hl a List.mem_cons_self
    obtain ⟨_, h₁, hone, hrest⟩ := bind_eq_ok.1 hr
    obtain ⟨finish, h₂, hcall, hsettle⟩ := bind_eq_ok.1 hone
    have hsettled : h₂.Mute c tag h₁ := mute_settle hsettle
    have hround : h₁.Sure h' :=
      Keeps.callAll _ _ (fun a _ => steps_sure.call hn a callback) hrest
    have hu₂ := (hu.of_sure hround).of_sure hsettled.sure
    obtain rfl := call_of_unanswered hn ha hcall hu₂
    have hcalled : h.Mute c tag h₁ := Flow.trans (.calling hne hid) hsettled
    refine Flow.trans hcalled (ih (fun b hb => ?_) hrest)
    exact (hl b (List.mem_cons_of_mem _ hb)).imp hcalled.sure.attached fun hne => hne

/-- **Rounds.** In a round over the lifecycle listeners of the collection this one is told what is
due, and no checkpoint passes. -/
theorem logged_of_round {what : Guarded} {service id : UInt64} {u : Unit}
    (hid : callback.service? = some id)
    (hr : (lifecycleListeners c >>= callAll nested what service callback) h = .ok (u, h'))
    (hu : h'.Unanswered c) (hl : h.Logged c l (callback :: h.history l.tag)) :
    h'.Logged c l (h'.history l.tag) ∧ h.Unchecked h' := by
  obtain ⟨listeners, h₁, hread, hround⟩ := bind_eq_ok.1 hr
  obtain rfl := lifecycleListeners_ok hread
  have hlooked : h.Mute c l.tag h₁ :=
    ends_reaching.1 (Ends.look c .lifecycleListeners Collection.lifecycleListeners) hread
  obtain ⟨early, late, hplace, hapart⟩ := hl.keyed.place hl.attached
  have hmem {a : Attached E} {g : Hub E} (hg : h.Sure g) (ha : a ∈ early ++ l :: late) :
      a ∈ (g.collection c).lifecycleListeners := hg.attached (hplace ▸ ha)
  rw [hplace] at hround
  obtain ⟨h₂, hbefore, hround⟩ := callAll_append_ok hround
  obtain ⟨_, h₄, hown, hafter⟩ := bind_eq_ok.1 hround
  obtain ⟨finish, h₃, hcall, hsettle⟩ := bind_eq_ok.1 hown
  have hcalled : h₂.Sure h₃ := steps_sure.call hn l callback hcall
  have hsettled : h₃.Mute c l.tag h₄ := mute_settle hsettle
  have hrest : h₄.Sure h' := Keeps.callAll _ _ (fun a _ => steps_sure.call hn a callback) hafter
  have hu₃ := (hu.of_sure hrest).of_sure hsettled.sure
  -- the listeners before this one, then its own call, then the listeners after it
  have hquiet : h₁.Mute c l.tag h₂ :=
    mute_callAll hn hid (fun a ha => ⟨hmem hlooked.sure (List.mem_append_left _ ha),
      hapart a (List.mem_append_left _ ha)⟩) hbefore (hu₃.of_sure hcalled)
  have hstart : h.Mute c l.tag h₂ := Flow.trans hlooked hquiet
  obtain rfl := call_of_unanswered hn
    (hmem hstart.sure (List.mem_append_right _ List.mem_cons_self)) hcall hu₃
  have hsure : h.Sure h₄ := Law.trans (Law.trans hstart.sure hcalled) hsettled.sure
  have hend : h₄.Mute c l.tag h' :=
    mute_callAll hn hid (fun a ha => ⟨hmem hsure
      (List.mem_append_right _ (List.mem_cons_of_mem _ ha)),
      hapart a (List.mem_append_right _ ha)⟩) hafter hu
  have hdone : (h₂.calling l callback).Mute c l.tag h' := Flow.trans hsettled hend
  have htold : h'.history l.tag = callback :: h.history l.tag := by
    rw [hdone.history, history_calling, if_pos rfl, hstart.history]
  refine ⟨?_, (hstart.unchecked.trans (.calling hid)).trans hdone.unchecked⟩
  rw [htold]
  exact hdone.logged ((hstart.logged hl).of_index hcalled rfl)

end Quiet

end Run

end LiveServices
