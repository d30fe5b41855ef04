import LiveServices.Proofs.Callbacks.Accounting
import Mathlib.Data.List.Chain

/-!
# Settled hubs

A change of the state of a mandatory collection is decided in a section, and its state listeners
are told of it afterwards, one after the other. This file follows one of them, of which all that
come before it are passive. The hub is settled (`Hub.Settled`) if the listener takes the state
to be what it is. The section that changes the state leaves a notice due (`Hub.Due`,
`Hub.settled_of_considered`, `Hub.settled_of_retracted`), passive listeners leave it so
(`Hub.Still`), and the beginning of the listener's own call settles the hub, so that whatever
the listener does then starts in a settled hub (`Run.settled_of_due`).

`Hub.Settling` is the law that comes of it: what is settled stays settled. It asks for passive
lifecycle listeners in the later hub, because listeners are never taken away and those of the
earlier hub are among them.
-/

namespace LiveServices

variable {E : Type}

/-! ## Notices -/

namespace Hub

variable {h h' : Hub E} {tag tag' : ListenerTag} {callback : Callback E}

/-- The notices that a listener got of the state, the latest first. -/
def notices (h : Hub E) (tag : ListenerTag) : List Bool :=
  (h.history tag).filterMap Callback.notice?

/-- What a listener took the state to be, the latest first: unmet, until it was told otherwise. -/
def beliefs (h : Hub E) (tag : ListenerTag) : List Bool := h.notices tag ++ [false]

/-- What is told to others, or is no notice, adds nothing. -/
theorem notices_record_of_ne (hq : tag' ≠ tag ∨ callback.notice? = none) (g : Glimpse) :
    (h.record (.called tag' callback g)).notices tag = h.notices tag := by
  rw [notices, history, told_record_called, notices, history]
  split
  · next heq =>
    rcases hq with hne | hnone
    · exact absurd (beq_iff_eq.1 heq) hne
    · rw [List.filterMap_cons_none hnone]
  · rfl

theorem notices_record_self {b : Bool} (hb : callback.notice? = some b) (g : Glimpse) :
    (h.record (.called tag callback g)).notices tag = b :: h.notices tag := by
  rw [notices, history, told_record_called, if_pos (beq_self_eq_true _),
    List.filterMap_cons_some hb]
  rfl

theorem notices_eq (ht : ∃ recent, h'.trace = recent ++ h.trace ∧ ∀ m ∈ recent, m.IsSilent)
    (tag : ListenerTag) : h'.notices tag = h.notices tag := by
  rw [notices, history, told_eq ht, notices, history]

end Hub

/-! ## While nobody speaks -/

variable [ServiceEntry E]

/-- The second hub comes after the first; the collection has the same entries, and the listener
got no notice in between. -/
structure Hub.Still (c : Nat) (tag : ListenerTag) (h h' : Hub E) : Prop where
  sure : h.Sure h'
  entries : (h.collection c).SameEntries (h'.collection c)
  notices : h'.notices tag = h.notices tag

namespace Hub.Still

variable {c d : Nat} {tag : ListenerTag} {h h' : Hub E}

instance : Law (Still (E := E) c tag) where
  aside ha := by
    have hs := ha.stock c
    obtain ⟨recent, ht, hm⟩ := ha.trace
    exact ⟨Law.aside ha, ⟨hs.factory, hs.index, hs.items⟩,
      notices_eq ⟨recent, ht, fun m hmem => (hm m hmem).isSilent⟩ tag⟩
  trans h₁₂ h₂₃ := by
    refine ⟨Law.trans h₁₂.sure h₂₃.sure, ⟨?_, ?_, ?_⟩, h₂₃.notices.trans h₁₂.notices⟩
    · exact h₂₃.entries.factory.trans h₁₂.entries.factory
    · exact h₂₃.entries.index.trans h₁₂.entries.index
    · exact h₂₃.entries.items.trans h₁₂.entries.items

/-- A section on another collection. -/
theorem of_section (hsure : h.Sure h') (hs : h.Section d h') (hd : d ≠ c) : Still c tag h h' where
  sure := hsure
  entries := by
    rw [hs.others c hd.symm]
    exact ⟨rfl, rfl, rfl⟩
  notices := notices_eq hs.trace tag

/-- The beginning of a call of somebody else, or of a call that is no notice. -/
theorem called {tag' : ListenerTag} {callback : Callback E}
    (hq : tag' ≠ tag ∨ callback.notice? = none) (g : Glimpse) :
    Still c tag h (h.record (.called tag' callback g)) where
  sure := Run.steps_sure.called h tag' callback g
  entries := ⟨rfl, rfl, rfl⟩
  notices := notices_record_of_ne hq g

end Hub.Still

namespace Run

variable {nested : Nested E} {c : Nat} {tag : ListenerTag} {h h' : Hub E}

/-- A passive listener changes nothing when it is called. -/
theorem still_call {a : Attached E} {callback : Callback E} (hp : a.listener.IsPassive)
    (hq : a.tag ≠ tag ∨ callback.notice? = none) :
    Keeps (Hub.Still c tag) (call nested a callback) := by
  intro h finish h' hr
  obtain ⟨g, hgive⟩ := call_ok hr
  rw [hp] at hgive
  obtain ⟨-, rfl⟩ := pure_eq_ok.1 hgive
  exact .called hq g

/-- A round of calls of passive listeners. -/
theorem still_callAll {what : Guarded} {service : UInt64} {callback : Callback E}
    {listeners : List (Attached E)} (hp : ∀ a ∈ listeners, a.listener.IsPassive)
    (hq : ∀ a ∈ listeners, a.tag ≠ tag ∨ callback.notice? = none) :
    Keeps (Hub.Still c tag) (callAll nested what service callback listeners) :=
  .callAll _ _ fun a ha => still_call (hp a ha) (hq a ha)

end Run

/-! ## Settled hubs -/

/-- What throwing away the rest leaves of a collection whose factory makes entries that cannot
be found again. -/
def Collection.IsForsaken (k : Collection E) : Prop :=
  k.closed = true ∧ k.index = [] ∧ ¬ k.factory.EntriesEquivalent

section Listener

/- A state listener of a mandatory collection, and the state listeners that come before it. -/
variable (c : Nat) (early : List (Attached E)) (l : Attached E)

/-- The listener got notices in turns, and takes the state of its mandatory collection to be
`b`. -/
structure Hub.Informed (b : Bool) (h : Hub E) : Prop where
  keyed : h.Keyed
  coherent : h.Coherent
  mandatory : (h.collection c).dependency.mandatory = true
  place : ∃ late, (h.collection c).stateListeners = early ++ l :: late
  alternate : (h.beliefs l.tag).IsChain (· ≠ ·)
  latest : (h.beliefs l.tag).head? = some b

/-- The listener takes the state to be what it is, except where the rest was thrown away. -/
def Hub.Settled (h : Hub E) : Prop :=
  ∃ b, h.Informed c early l b ∧
    (b = (h.collection c).isSatisfied ∨ (h.collection c).IsForsaken)

/-- The state just came to be `b`, and the listener was not yet told. -/
def Hub.Due (b : Bool) (h : Hub E) : Prop :=
  h.Informed c early l !b ∧ (h.collection c).isSatisfied = b

/-- The lifecycle listeners of the collection are passive. -/
def Hub.Unattended (h : Hub E) : Prop :=
  ∀ a ∈ (h.collection c).lifecycleListeners, a.listener.IsPassive

/-- What is settled stays settled, as long as no lifecycle listener gives commands. -/
structure Hub.Settling (h h' : Hub E) : Prop where
  sure : h.Sure h'
  settled : h'.Unattended c → h.Settled c early l → h'.Settled c early l

end Listener

section Settling

variable {c d : Nat} {early : List (Attached E)} {l : Attached E} {b : Bool} {h h' : Hub E}

/-- Where lifecycle listeners are passive in the end they were passive before. -/
theorem Hub.Unattended.of_sure (hs : h.Sure h') (hu : h'.Unattended c) : h.Unattended c := by
  obtain ⟨fresh, hall, -⟩ := (hs.onward.collection c).lifecycle
  intro a ha
  exact hu a (hall ▸ List.mem_append_left _ ha)

/-- Without a notice the listener knows what it knew. -/
theorem Hub.Informed.of_sure (hs : h.Sure h') (hn : h'.notices l.tag = h.notices l.tag)
    (hi : h.Informed c early l b) : h'.Informed c early l b := by
  have hg := hs.onward.collection c
  have hb : h'.beliefs l.tag = h.beliefs l.tag := by rw [beliefs, hn, beliefs]
  refine ⟨hs.keyed hi.keyed, hs.coherent hi.coherent, ?_, ?_, ?_, ?_⟩
  · rw [hg.dependency]
    exact hi.mandatory
  · obtain ⟨late, hplace⟩ := hi.place
    obtain ⟨fresh, hall, -⟩ := hg.state
    exact ⟨late ++ fresh, by rw [hall, hplace, List.append_assoc, List.cons_append]⟩
  · rw [hb]
    exact hi.alternate
  · rw [hb]
    exact hi.latest

/-- A notice tells the listener of the state. -/
theorem Hub.Informed.called {callback : Callback E} (hb : callback.notice? = some b)
    (hi : h.Informed c early l !b) (g : Glimpse) :
    (h.record (.called l.tag callback g)).Informed c early l b := by
  have hsure := Run.steps_sure.called h l.tag callback g
  have hbel : (h.record (.called l.tag callback g)).beliefs l.tag = b :: h.beliefs l.tag := by
    rw [beliefs, notices_record_self hb, beliefs, List.cons_append]
  refine ⟨hsure.keyed hi.keyed, hsure.coherent hi.coherent, hi.mandatory, hi.place, ?_, ?_⟩
  · -- the listener took the state to be the opposite until now
    rw [hbel]
    refine List.isChain_cons.2 ⟨fun y hy => ?_, hi.alternate⟩
    rw [hi.latest, Option.mem_some_iff] at hy
    rw [← hy]
    exact bne_iff_ne.1 (Bool.bne_not_self b)
  · rw [hbel]
    rfl

theorem Hub.isSatisfied_of_still (hs : h.Still c l.tag h') :
    (h'.collection c).isSatisfied = (h.collection c).isSatisfied := by
  rw [Collection.isSatisfied, (hs.sure.onward.collection c).dependency, hs.entries.size,
    Collection.isSatisfied]

theorem Hub.Due.of_still (hs : h.Still c l.tag h') (hd : h.Due c early l b) : h'.Due c early l b :=
  ⟨hd.1.of_sure hs.sure hs.notices, (isSatisfied_of_still hs).trans hd.2⟩

theorem Hub.Settled.of_still (hs : h.Still c l.tag h') (hd : h.Settled c early l) :
    h'.Settled c early l := by
  obtain ⟨b, hi, hb⟩ := hd
  refine ⟨b, hi.of_sure hs.sure hs.notices, ?_⟩
  rcases hb with hb | ⟨hclosed, hindex, hne⟩
  · exact .inl (hb.trans (isSatisfied_of_still hs).symm)
  · refine .inr ⟨((hs.sure.onward.collection c).closed hclosed).1, ?_, ?_⟩
    · rw [hs.entries.index]
      exact hindex
    · rw [hs.entries.factory]
      exact hne

namespace Hub.Settling

theorem of_still (hs : h.Still c l.tag h') : Settling c early l h h' :=
  ⟨hs.sure, fun _ => .of_still hs⟩

instance : Law (Settling (E := E) c early l) where
  aside ha := of_still (Law.aside ha)
  trans h₁₂ h₂₃ := by
    refine ⟨Law.trans h₁₂.sure h₂₃.sure, fun hu hs => ?_⟩
    exact h₂₃.settled hu (h₁₂.settled (hu.of_sure h₂₃.sure) hs)

end Hub.Settling

variable {nested : Nested E}

/-! ## Rounds -/

namespace Run

/-- A round of bindings or unbindings in a collection whose lifecycle listeners are passive. -/
theorem still_lifecycle {what : Guarded} {service : UInt64} {callback : Callback E} {u : Unit}
    (hcb : callback.notice? = none) (hu : h.Unattended c)
    (hr : (lifecycleListeners c >>= callAll nested what service callback) h = .ok (u, h')) :
    h.Still c l.tag h' := by
  obtain ⟨listeners, h₁, hread, hcall⟩ := bind_eq_ok.1 hr
  obtain rfl := lifecycleListeners_ok hread
  have hstep : h.Still c l.tag h₁ := Keeps.lifecycleListeners c hread
  exact Hub.Law.trans hstep (still_callAll hu (fun _ _ => .inr hcb) hcall)

variable (hn : ∀ command, Keeps (Hub.Settling c early l) (nested command))
include hn

/-- A call of somebody else, or a call that is no notice, whatever commands it gives. -/
theorem settling_call {a : Attached E} {callback : Callback E}
    (hq : a.tag ≠ l.tag ∨ callback.notice? = none) :
    Keeps (Hub.Settling c early l) (call nested a callback) :=
  .call (fun _ command _ => hn command) fun _ g => .of_still (.called hq g)

/-- A round of bindings or unbindings. -/
theorem settling_lifecycle (d : Nat) {what : Guarded} {service : UInt64} {callback : Callback E}
    (hcb : callback.notice? = none) :
    Keeps (Hub.Settling c early l)
      (lifecycleListeners d >>= callAll nested what service callback) :=
  .bind (.lifecycleListeners d) fun _ => .callAll _ _ fun _ _ => settling_call hn (.inr hcb)

/-- A round of notices in another collection. -/
theorem settling_elsewhere {what : Guarded} {service : UInt64} {callback : Callback E} (hd : d ≠ c)
    {u : Unit} (hr : (stateListeners d >>= callAll nested what service callback) h = .ok (u, h'))
    (hs : h.Settled c early l) (hu : h'.Unattended c) : h'.Settled c early l := by
  obtain ⟨listeners, h₁, hread, hcall⟩ := bind_eq_ok.1 hr
  obtain rfl := stateListeners_ok hread
  have hstep : Hub.Settling c early l h h₁ := Keeps.stateListeners d hread
  have hround : Hub.Settling c early l h₁ h' := by
    -- a listener of another collection is not the one that is followed
    refine Keeps.callAll _ _ (fun a ha => settling_call hn (.inl fun htag => hd ?_)) hcall
    obtain ⟨b, hi, -⟩ := hs
    obtain ⟨late, hplace⟩ := hi.place
    have hl : l ∈ (h.collection c).stateListeners := by
      rw [hplace]
      exact List.mem_append_right _ List.mem_cons_self
    rw [← hi.keyed.state.home ha, ← hi.keyed.state.home hl]
    exact congrArg ListenerTag.home htag
  exact (Hub.Law.trans hstep hround).settled hu hs

/-- **Rounds.** A round of due notices settles the hub: the listeners before this one change
nothing, it is told of the state as it is, and what it and the others do after that starts in a
settled hub. -/
theorem settled_of_due {what : Guarded} {service : UInt64} {callback : Callback E}
    (hearly : ∀ a ∈ early, a.listener.IsPassive) (hcb : callback.notice? = some b) {u : Unit}
    (hr : (stateListeners c >>= callAll nested what service callback) h = .ok (u, h'))
    (hdue : h.Due c early l b) (hu : h'.Unattended c) : h'.Settled c early l := by
  obtain ⟨listeners, h₁, hread, hcall⟩ := bind_eq_ok.1 hr
  obtain rfl := stateListeners_ok hread
  have hstep : h.Still c l.tag h₁ := Keeps.stateListeners c hread
  obtain ⟨late, hplace⟩ := hdue.1.place
  have hnodup := hdue.1.keyed.state.nodup c
  rw [hplace, List.map_append, List.map_cons, List.nodup_append] at hnodup
  obtain ⟨-, hlate, hapart⟩ := hnodup
  rw [hplace] at hcall
  obtain ⟨h₂, hbefore, hcall⟩ := callAll_append_ok hcall
  -- the listeners that come before are passive
  have hquiet : h₁.Still c l.tag h₂ := by
    refine still_callAll hearly (fun a ha => .inl fun htag => ?_) hbefore
    exact hapart _ (List.mem_map_of_mem ha) _ List.mem_cons_self (congrArg ListenerTag.key htag)
  have hdue₂ := (hdue.of_still hstep).of_still hquiet
  obtain ⟨_, h₃, hone, hafter⟩ := bind_eq_ok.1 hcall
  obtain ⟨finish, h₄, hown, hsettle⟩ := bind_eq_ok.1 hone
  obtain ⟨g, hgive⟩ := call_ok hown
  -- its own call settles the hub when it begins
  have hbegun : (h₂.record (.called l.tag callback g)).Settled c early l :=
    ⟨b, hdue₂.1.called hcb g, .inl hdue₂.2.symm⟩
  have hnote (command : Command E) (answer : Answer) : Keeps (Hub.Settling c early l)
      (record (.commanded l.tag command.name answer)) := .record trivial
  have hgiven : Hub.Settling c early l (h₂.record (.called l.tag callback g)) h₄ :=
    Keeps.give (fun command _ => hn command) hnote _ hgive
  have hsettled : Hub.Settling c early l h₄ h₃ := Keeps.bind (.settle ..) (fun _ => .pure _) hsettle
  -- the others are told of something else
  have hothers : Hub.Settling c early l h₃ h' := by
    refine Keeps.callAll _ _ (fun a ha => settling_call hn (.inl fun htag => ?_)) hafter
    refine (List.nodup_cons.1 hlate).1 ?_
    rw [← show a.key = l.key from congrArg ListenerTag.key htag]
    exact List.mem_map_of_mem ha
  exact (Hub.Law.trans hgiven (Hub.Law.trans hsettled hothers)).settled hu hbegun

end Run

/-! ## Sections -/

omit [ServiceEntry E] in
/-- A mandatory collection is satisfied exactly if it has an entry. -/
theorem Collection.isSatisfied_of_mandatory {k : Collection E}
    (hm : k.dependency.mandatory = true) : k.isSatisfied = (k.size != 0) := by
  rw [isSatisfied, Dependency.isSatisfied, hm]
  rfl

/-- Where the rest was not thrown away, a settled listener knows whether there is an entry. -/
theorem Hub.Settled.informed (hs : h.Settled c early l) (hk : ¬ (h.collection c).IsForsaken) :
    h.Informed c early l ((h.collection c).size != 0) := by
  obtain ⟨b, hi, hb⟩ := hs
  have hb : b = ((h.collection c).size != 0) := by
    rcases hb with hb | hforsaken
    · exact hb.trans (Collection.isSatisfied_of_mandatory hi.mandatory)
    · exact absurd hforsaken hk
  rwa [hb] at hi

/-- An admission leaves a notice due exactly if it brings the first entry. -/
theorem Hub.settled_of_considered {r : ServiceReference} {result : Except Trouble (Admission E)}
    (hc : Considered d r h result h') (hsure : h.Sure h') (hs : h.Settled c early l) :
    (∃ entry, d = c ∧ result = .ok (.admitted entry true)) ∧ h'.Due c early l true ∨
    ¬ (∃ entry, d = c ∧ result = .ok (.admitted entry true)) ∧ h'.Settled c early l := by
  have hsec := hc.toSection
  have hnot := notices_eq hsec.trace l.tag
  by_cases hd : d = c
  · subst hd
    cases hc with
    | ignored | failed | panicked | refused =>
      refine .inr ⟨fun hno => ?_, hs.of_still ⟨hsure, ⟨rfl, rfl, rfl⟩, hnot⟩⟩
      obtain ⟨_, -, hno⟩ := hno
      cases hno
    | @admitted recent entry release ho hno hm ht hsh =>
      have hi := hs.informed fun hforsaken => Bool.false_ne_true (ho ▸ hforsaken.1)
      have hi' := hi.of_sure hsure hnot
      have hsize : ((h.collection d).enter ⟨h.attempts + 1, entry, r, release⟩).size =
          (h.collection d).size + 1 := Collection.size_enter ht
      have hlen : d < (h.creation d r.id release.isSome).collections.length :=
        lt_length_of_open (h := h) ho
      have hmet := Collection.isSatisfied_of_mandatory hi'.mandatory
      rw [collection_setTo_self hlen, hsize] at hmet
      have hfirst : ((h.collection d).size + 1 == 1) = !((h.collection d).size != 0) := by
        simp [bne]
      rw [hi.mandatory, hsize, Bool.true_and, hfirst]
      -- whether there was an entry before decides whether this is the first
      cases hz : ((h.collection d).size != 0) with
      | false =>
        rw [hz] at hi'
        exact .inl ⟨⟨entry, rfl, rfl⟩, hi', by rw [collection_setTo_self hlen, hmet]; rfl⟩
      | true =>
        rw [hz] at hi'
        refine .inr ⟨fun hno => ?_, true, hi', .inl (by rw [collection_setTo_self hlen, hmet]; rfl)⟩
        obtain ⟨_, -, hno⟩ := hno
        cases hno
  · exact .inr ⟨fun ⟨_, hdc, _⟩ => hd hdc, hs.of_still (.of_section hsure hsec hd)⟩

/-- A retraction leaves a notice due exactly if it takes the last entry. -/
theorem Hub.settled_of_retracted {id : UInt64} {result : Option (Removal E)}
    (hc : Retracted d id h result h') (hsure : h.Sure h') (hs : h.Settled c early l) :
    (∃ holding, d = c ∧ result = some ⟨holding, true, true⟩) ∧ h'.Due c early l false ∨
    ¬ (∃ holding, d = c ∧ result = some ⟨holding, true, true⟩) ∧ h'.Settled c early l := by
  have hsec := hc.toSection
  have hnot := notices_eq hsec.trace l.tag
  by_cases hd : d = c
  · subst hd
    cases hc with
    | absent =>
      refine .inr ⟨fun hno => ?_, hs.of_still ⟨hsure, ⟨rfl, rfl, rfl⟩, hnot⟩⟩
      obtain ⟨_, -, hno⟩ := hno
      cases hno
    | @found recent holding hf hsh =>
      have hne : (h.collection d).index ≠ [] := by
        intro hnil
        rw [hnil] at hf
        cases hf
      have hi := hs.informed fun hforsaken => hne hforsaken.2.1
      have hi' := hi.of_sure hsure hnot
      have hsize := (h.collection d).size_leave holding
      have hmet := Collection.isSatisfied_of_mandatory hi'.mandatory
      rw [collection_setTo_self (lt_length_of_index hne)] at hmet
      have hlast : (((h.collection d).leave holding).size == 0) =
          !(((h.collection d).leave holding).size != 0) := by simp [bne]
      rw [hi.mandatory, Bool.true_and, hlast]
      cases hstored : ((h.collection d).storage.removeOne holding.entry).1 with
      | false =>
        -- no item was found, so the size is what it was, and nothing is announced
        rw [hstored, if_neg Bool.false_ne_true, Nat.add_zero] at hsize
        rw [hsize] at hi'
        refine .inr ⟨fun hno => ?_, _, hi', .inl ?_⟩
        · obtain ⟨_, -, hno⟩ := hno
          cases hno
        · rw [collection_setTo_self (lt_length_of_index hne), hmet]
      | true =>
        rw [hstored, if_pos rfl] at hsize
        rw [hsize] at hi'
        cases hz : (((h.collection d).leave holding).size != 0) with
        | false =>
          refine .inl ⟨⟨holding, rfl, rfl⟩, hi', ?_⟩
          rw [collection_setTo_self (lt_length_of_index hne), hmet, hz]
        | true =>
          refine .inr ⟨fun hno => ?_, true, hi', .inl ?_⟩
          · obtain ⟨_, -, hno⟩ := hno
            cases hno
          · rw [collection_setTo_self (lt_length_of_index hne), hmet, hz]
  · exact .inr ⟨fun ⟨_, hdc, _⟩ => hd hdc, hs.of_still (.of_section hsure hsec hd)⟩

end Settling

end LiveServices
