import LiveServices.Proofs.Calm.Endings
import LiveServices.Proofs.Run.Glimpses

/-!
# What nobody is told

An admission leads to callbacks of two kinds, that an entry was added and that the dependency came
to be met; a removal leads to callbacks of two other kinds. So an operation in which services only
come tells nobody of a removal, and one in which they only go tells nobody of an admission
(`Hub.Untold`). This is stated here of the operations of a calm hub, in which the callees give no
commands, and with it that these operations leave the iterators alone.
-/

namespace LiveServices

variable {E : Type}

/-! ## Kinds of callbacks -/

namespace Callback

/-- A kind of callbacks to which no admission leads. -/
structure ApartFromAdmission (kind : Callback E → Bool) : Prop where
  bind : ∀ entry r, kind (.bind entry r) = false
  satisfied : ∀ dependency, kind (.satisfied dependency) = false

/-- A kind of callbacks to which no removal leads. -/
structure ApartFromRemoval (kind : Callback E → Bool) : Prop where
  unbind : ∀ entry r, kind (.unbind entry r) = false
  unsatisfied : ∀ dependency, kind (.unsatisfied dependency) = false

end Callback

/-- A kind of callbacks to which an event does not lead. -/
def ServiceEvent.IsApart (event : ServiceEvent) (kind : Callback E → Bool) : Prop :=
  match event.kind with
  | .registered | .modified => Callback.ApartFromAdmission kind
  | .unregistering => Callback.ApartFromRemoval kind
  | .modifiedEndmatch => True

/-- The second hub comes after the first, with the same iterators, and nobody was told anything of
this kind in between. -/
structure Hub.Untold (kind : Callback E → Bool) (h h' : Hub E) : Prop where
  traversals : h'.traversals = h.traversals
  count : ∀ tag, (h'.history tag).countP kind = (h.history tag).countP kind

namespace Hub.Untold

variable {kind : Callback E → Bool} {h h₁ h' : Hub E}

theorem refl (h : Hub E) : Untold kind h h := ⟨rfl, fun _ => rfl⟩

theorem trans (h₁₂ : Untold kind h h₁) (h₂₃ : Untold kind h₁ h') : Untold kind h h' :=
  ⟨h₂₃.traversals.trans h₁₂.traversals, fun tag => (h₂₃.count tag).trans (h₁₂.count tag)⟩

/-- Silent moments tell nobody anything. -/
theorem silent (ht : h'.traversals = h.traversals)
    (hs : ∃ recent, h'.trace = recent ++ h.trace ∧ ∀ m ∈ recent, m.IsSilent) :
    Untold kind h h' :=
  ⟨ht, fun tag => congrArg (List.countP kind) (told_eq hs (· == tag))⟩

/-- Where neither iterators nor the trace change, nobody was told of anything. -/
theorem of_eq (ht : h'.traversals = h.traversals) (htrace : h'.trace = h.trace) :
    Untold kind h h' := silent ht (silent_of_eq htrace)

/-- A silent moment tells nobody of anything. -/
theorem record {m : Moment E} (hm : m.IsSilent) : Untold kind h (h.record m) :=
  silent rfl ⟨[m], rfl, by simpa using hm⟩

/-- A call tells of its own kind only. -/
theorem calling [ServiceEntry E] {l : Attached E} {callback : Callback E}
    (hk : kind callback = false) : Untold kind h (h.calling l callback) := by
  refine ⟨rfl, fun tag => ?_⟩
  rw [Hub.calling, history_record_called]
  split
  · rw [List.countP_cons_of_neg (by simp [hk])]
  · rfl

/-- The beginning of a release tells no listener of anything. -/
theorem letting (c serial : Nat) (service : UInt64) (announced : Bool) :
    Untold kind h (h.letting c serial service announced) := ⟨rfl, fun _ => rfl⟩

end Hub.Untold

namespace Run

open Hub

variable {α : Type} {kind : Callback E → Bool} {c : Nat} {lock : Lock} {h h₁ h' : Hub E}
  {nested : Nested E}

/-! ## Calls and releases -/

theorem untold_look {f : Collection E → α} {a : α}
    (hr : locked c lock (do pure (f (← collection c))) h = .ok (a, h')) : h.Untold kind h' := by
  obtain ⟨-, -, rfl⟩ := locked_pure_eq_ok.1 hr
  exact .of_eq rfl rfl

/-- An act tells nothing of a kind if neither of its parts does. -/
theorem untold_act_bind {β : Type} {x : Act E α} {f : α → Act E β} {b : Except Trouble β}
    (hr : (x >>= f).run h = .ok (b, h'))
    (hx : ∀ {a h₁}, x.run h = .ok (a, h₁) → h.Untold kind h₁)
    (hf : ∀ {a h₁}, x.run h = .ok (.ok a, h₁) → (f a).run h₁ = .ok (b, h') →
      h₁.Untold kind h') : h.Untold kind h' := by
  obtain ⟨a, h₁, hx₁, hrest⟩ := bind_eq_ok.1 hr
  cases a with
  | ok a => exact (hx hx₁).trans (hf hx₁ hrest)
  | error t =>
    obtain ⟨-, rfl⟩ := pure_eq_ok.1 hrest
    exact hx hx₁

theorem untold_act_pure {a : α} {b : Except Trouble α}
    (hr : (pure a : Act E α).run h = .ok (b, h')) : h.Untold kind h' := by
  obtain ⟨-, rfl⟩ := pure_eq_ok.1 hr
  exact .refl _

/-- A guarded call that did not end well is noted, and nobody is told. -/
theorem untold_settle {what : Guarded} {name : String} {service : UInt64} {finish : Finish}
    {done : Bool} (hr : settle what name service finish h = .ok (done, h')) :
    h.Untold kind h' := by
  cases finish with
  | done =>
    obtain ⟨-, rfl⟩ := pure_eq_ok.1 hr
    exact .refl _
  | fail f | panic message =>
    rw [settle, record_bind] at hr
    obtain ⟨-, rfl⟩ := pure_eq_ok.1 hr
    exact .record trivial

/-- The run of a passive release action. -/
theorem untold_runRelease {release : Release E} (hp : release.IsPassive) {serial : Nat}
    {service : UInt64} {finish : Finish}
    (hr : runRelease nested c serial service release h = .ok (finish, h')) :
    h.Untold kind h' := by
  rw [runRelease_eq, hp] at hr
  obtain ⟨-, rfl⟩ := pure_eq_ok.1 hr
  exact .letting ..

variable [ServiceEntry E]

/-- The call of a passive listener. -/
theorem untold_call {l : Attached E} {callback : Callback E} {finish : Finish}
    (hp : l.listener.IsPassive) (hk : kind callback = false)
    (hr : call nested l callback h = .ok (finish, h')) : h.Untold kind h' := by
  rw [call_eq, hp] at hr
  obtain ⟨-, rfl⟩ := pure_eq_ok.1 hr
  exact .calling hk

/-- A round of calls of passive listeners. -/
theorem untold_callAll {what : Guarded} {service : UInt64} {callback : Callback E}
    {listeners : List (Attached E)} {u : Unit} (hp : ∀ l ∈ listeners, l.listener.IsPassive)
    (hk : kind callback = false)
    (hr : callAll nested what service callback listeners h = .ok (u, h')) :
    h.Untold kind h' := by
  induction listeners generalizing h with
  | nil =>
    obtain ⟨-, rfl⟩ := pure_eq_ok.1 hr
    exact .refl _
  | cons l listeners ih =>
    obtain ⟨_, h₁, hone, hrest⟩ := bind_eq_ok.1 hr
    obtain ⟨finish, h₂, hcall, hone⟩ := bind_eq_ok.1 hone
    obtain ⟨done, h₃, hsettle, hdone⟩ := bind_eq_ok.1 hone
    obtain ⟨-, rfl⟩ := pure_eq_ok.1 hdone
    have hcalled : h.Untold kind h₂ := untold_call (hp l List.mem_cons_self) hk hcall
    have hlater := ih (fun l hl => hp l (List.mem_cons_of_mem _ hl)) hrest
    exact (hcalled.trans (untold_settle hsettle)).trans hlater

/-- A round of the lifecycle listeners tells of its own callback only. -/
theorem untold_lifecycle {what : Guarded} {service : UInt64} {callback : Callback E} {u : Unit}
    (hc : h.Calm) (hk : kind callback = false)
    (hr : (lifecycleListeners c >>= callAll nested what service callback) h = .ok (u, h')) :
    h.Untold kind h' := by
  obtain ⟨listeners, h₁, hread, hround⟩ := bind_eq_ok.1 hr
  have hp := lifecycleListeners_ok hread ▸ (hc c).lifecycle
  exact (untold_look hread).trans (untold_callAll hp hk hround)

/-- A round of the state listeners tells of its own callback only. -/
theorem untold_state {what : Guarded} {service : UInt64} {notice : Dependency → Callback E}
    {u : Unit} (hc : h.Calm) (hk : ∀ dependency, kind (notice dependency) = false)
    (hr : (collection c >>= fun k =>
      stateListeners c >>= callAll nested what service (notice k.dependency)) h = .ok (u, h')) :
    h.Untold kind h' := by
  rw [collection_bind] at hr
  obtain ⟨listeners, h₁, hread, hround⟩ := bind_eq_ok.1 hr
  have hp := stateListeners_ok hread ▸ (hc c).state
  exact (untold_look hread).trans (untold_callAll hp (hk _) hround)

/-- An admission tells of a binding and of a dependency that came to be met, and of nothing else. -/
theorem untold_announceAdmission {entry : E} {r : ServiceReference} {first : Bool} {u : Unit}
    (hk : Callback.ApartFromAdmission kind) (hc : h.Calm)
    (hr : announceAdmission nested c entry r first h = .ok (u, h')) : h.Untold kind h' := by
  obtain ⟨_, h₁, hround, hrest⟩ := bind_eq_ok.1 hr
  have htold : h.Untold kind h₁ := untold_lifecycle hc (hk.bind _ _) hround
  split at hrest
  · -- the round leaves the hub calm for the next one
    obtain ⟨_, _, hagain, hh⟩ : Hushed (lifecycleListeners c >>= callAll nested _ _ _) h :=
      hushed_lifecycle (hc c)
    cases hround.symm.trans hagain
    exact htold.trans (untold_state (hh.calm hc) hk.satisfied hrest)
  · obtain ⟨-, rfl⟩ := pure_eq_ok.1 hrest
    exact htold

/-- A removal tells of an unbinding and of a dependency that ceased to be met, and of nothing
else. -/
theorem untold_announceRemoval {removal : Removal E} {u : Unit}
    (hk : Callback.ApartFromRemoval kind) (hc : h.Calm)
    (hr : announceRemoval nested c removal h = .ok (u, h')) : h.Untold kind h' := by
  unfold announceRemoval at hr
  split at hr
  · obtain ⟨_, h₁, hround, hrest⟩ := bind_eq_ok.1 hr
    have htold : h.Untold kind h₁ := untold_lifecycle hc (hk.unbind _ _) hround
    split at hrest
    · obtain ⟨_, _, hagain, hh⟩ : Hushed (lifecycleListeners c >>= callAll nested _ _ _) h :=
        hushed_lifecycle (hc c)
      cases hround.symm.trans hagain
      exact htold.trans (untold_state (hh.calm hc) hk.unsatisfied hrest)
    · obtain ⟨-, rfl⟩ := pure_eq_ok.1 hrest
      exact htold
  · obtain ⟨-, rfl⟩ := pure_eq_ok.1 hr
    exact .refl _

/-- The release of an entry calls no listener. -/
theorem untold_letGo {holding : Holding E} {u : Unit}
    (hp : ∀ release ∈ holding.release, release.IsPassive)
    (hr : letGo nested c holding h = .ok (u, h')) : h.Untold kind h' := by
  rw [letGo] at hr
  cases hrelease : holding.release with
  | none =>
    rw [hrelease] at hr
    obtain ⟨-, rfl⟩ := pure_eq_ok.1 hr
    exact .refl _
  | some release =>
    simp only [hrelease, collection_bind] at hr
    obtain ⟨finish, h₁, hrun, hr⟩ := bind_eq_ok.1 hr
    obtain ⟨done, h₂, hsettle, hr⟩ := bind_eq_ok.1 hr
    have htold : h.Untold kind h₁ := untold_runRelease (hp release hrelease) hrun
    have hsettled := htold.trans (untold_settle hsettle)
    split at hr
    · obtain ⟨-, rfl⟩ := pure_eq_ok.1 hr
      exact hsettled
    · obtain ⟨g, h₃, hget, hr⟩ := bind_eq_ok.1 hr
      cases hget
      cases hr
      exact hsettled.trans (.record trivial)

/-! ## Admissions -/

/-- A decision is made in silence. -/
theorem untold_considered {r : ServiceReference} {result : Except Trouble (Admission E)}
    (hr : Considered c r h result h') : h.Untold kind h' := by
  cases hr with
  | ignored => exact .of_eq rfl rfl
  | failed | panicked => exact .silent rfl silent_attempt
  | refused | admitted => exact .silent rfl (silent_creation _)

/-- What follows a decision tells of no more than an admission. -/
theorem untold_afterAdmission {r : ServiceReference} {admission : Admission E}
    {outcome : Reconciled} (hk : Callback.ApartFromAdmission kind) (hc : h.Calm)
    (hp : ∀ serial release, admission = .refused serial (some release) → release.IsPassive)
    (hr : afterAdmission nested c r admission h = .ok (outcome, h')) : h.Untold kind h' := by
  cases admission with
  | ignored =>
    obtain ⟨-, rfl⟩ := pure_eq_ok.1 hr
    exact .refl _
  | refused serial release =>
    cases release with
    | none =>
      obtain ⟨-, rfl⟩ := pure_eq_ok.1 hr
      exact .refl _
    | some release =>
      rw [afterAdmission, collection_bind] at hr
      obtain ⟨finish, h₁, hrun, hr⟩ := bind_eq_ok.1 hr
      obtain ⟨done, h₂, hsettle, hr⟩ := bind_eq_ok.1 hr
      obtain ⟨-, rfl⟩ := pure_eq_ok.1 hr
      exact (untold_runRelease (hp serial release rfl) hrun).trans (untold_settle hsettle)
  | admitted entry first =>
    obtain ⟨_, h₁, hannounce, hr⟩ := bind_eq_ok.1 hr
    obtain ⟨-, rfl⟩ := pure_eq_ok.1 hr
    exact untold_announceAdmission hk hc hannounce

/-- A service that appears or is updated. -/
theorem untold_appeared {r : ServiceReference} {outcome : Except Trouble Reconciled}
    (hk : Callback.ApartFromAdmission kind) (hc : h.Calm)
    (hr : apply nested c .appeared r h = .ok (outcome, h')) : h.Untold kind h' := by
  obtain ⟨result, h₁, hcons, hrest⟩ := bind_eq_ok.1 hr
  have hcons := consider_ok hcons
  have hcalm₁ := calm_of_section hcons.toSection hc ((takes_of_considered hcons).calm (hc c))
  cases result with
  | error t =>
    obtain ⟨-, rfl⟩ := pure_eq_ok.1 hrest
    exact untold_considered hcons
  | ok admission =>
    obtain ⟨done, h₂, hafter, hrest⟩ := bind_eq_ok.1 hrest
    obtain ⟨-, rfl⟩ := pure_eq_ok.1 hrest
    refine (untold_considered hcons).trans (untold_afterAdmission hk hcalm₁ ?_ hafter)
    -- the release action of a refused entry is one that the factory made
    rintro serial release rfl
    cases hcons with
    | refused ho hn hm => exact (hc c).factory _ _ _ _ hm

/-! ## Removals -/

/-- A retraction is made in silence. -/
theorem untold_retracted {id : UInt64} {result : Option (Removal E)}
    (hr : Retracted c id h result h') : h.Untold kind h' := by
  cases hr with
  | absent | found => exact .of_eq rfl rfl

/-- A service that is taken away. -/
theorem untold_remove {id : UInt64} {outcome : Reconciled} (hk : Callback.ApartFromRemoval kind)
    (hc : h.Calm) (hr : remove nested c id h = .ok (outcome, h')) : h.Untold kind h' := by
  obtain ⟨result, h₁, hret, hrest⟩ := bind_eq_ok.1 hr
  have hret := retract_ok hret
  have hcalm₁ := calm_of_section hret.toSection hc ((drops_of_retracted hret).calm (hc c))
  cases result with
  | none =>
    obtain ⟨-, rfl⟩ := pure_eq_ok.1 hrest
    exact untold_retracted hret
  | some removal =>
    have hp : ∀ release ∈ removal.holding.release, release.IsPassive := by
      cases hret with
      | found hf => exact (hc c).index _ (List.mem_of_find?_eq_some hf)
    obtain ⟨_, h₂, hannounce, hrest⟩ := bind_eq_ok.1 hrest
    obtain ⟨_, h₃, hletGo, hrest⟩ := bind_eq_ok.1 hrest
    obtain ⟨-, rfl⟩ := pure_eq_ok.1 hrest
    have htold := (untold_retracted hret).trans (untold_announceRemoval hk hcalm₁ hannounce)
    exact htold.trans (untold_letGo hp hletGo)

/-! ## Events -/

/-- The importer of a collection processes an event. -/
theorem untold_serviceChanged {event : ServiceEvent} {u : Unit} (hk : event.IsApart kind)
    (hc : h.Calm) (hr : serviceChanged nested c event h = .ok (u, h')) : h.Untold kind h' := by
  obtain ⟨outcome, h₁, hrec, hrest⟩ := bind_eq_ok.1 hr
  have htold : h.Untold kind h₁ := by
    unfold ServiceEvent.IsApart at hk
    rw [reconcile] at hrec
    split at hk
    · next hkind =>
      rw [hkind] at hrec
      exact untold_appeared hk hc hrec
    · next hkind =>
      rw [hkind] at hrec
      exact untold_appeared hk hc hrec
    · next hkind =>
      rw [hkind] at hrec
      obtain ⟨removed, h₂, hremove, hdone⟩ := bind_eq_ok.1 hrec
      obtain ⟨-, rfl⟩ := pure_eq_ok.1 hdone
      exact untold_remove hk hc hremove
    · next hkind =>
      rw [hkind] at hrec
      obtain ⟨-, rfl⟩ := pure_eq_ok.1 hrec
      exact .refl _
  split at hrest
  · obtain ⟨-, rfl⟩ := pure_eq_ok.1 hrest
    exact htold
  · cases hrest
    exact htold.trans (.record trivial)
  · cases hrest
    exact htold.trans (.record trivial)

/-- An event is delivered to the importer of a collection. -/
theorem untold_deliver {s : Subscription E} (event : ServiceEvent) {a : Except Trouble Unit}
    (hs : s.target = .importer c) (hk : event.IsApart kind) (hc : h.Calm)
    (hr : (deliver nested s event).run h = .ok (a, h')) : h.Untold kind h' := by
  let h₁ : Hub E := { h with registry.delivered := h.registry.delivered + 1 }
  let h₂ : Hub E := h₁.record (.delivered s.id event)
  unfold deliver at hr
  rw [act_bind (a := ()) (g := h₁) rfl, act_bind (a := ()) (g := h₂) rfl, hs] at hr
  obtain ⟨u, hchanged, -⟩ := act_lift_ok hr
  have hcounted : h.Untold kind h₁ := .of_eq rfl rfl
  have hnoted : h₁.Untold kind h₂ := .record trivial
  exact (hcounted.trans hnoted).trans (untold_serviceChanged hk hc hchanged)

/-- An event is delivered to whoever is subscribed and wants it. -/
theorem untold_deliverAll (event : ServiceEvent) {link : Option ServiceFilter}
    {wants : ServiceFilter → Bool} {a : Except Trouble Unit} (hl : h.registry.Linked c link)
    (hk : event.IsApart kind) (hc : h.Calm)
    (hr : (deliverAll nested event wants).run h = .ok (a, h')) : h.Untold kind h' := by
  unfold deliverAll at hr
  rw [act_bind (a := h) (g := h) rfl] at hr
  cases hl with
  | unheard hs =>
    rw [hs] at hr
    exact untold_act_pure hr
  | @heard id filter hs =>
    cases hw : wants filter with
    | false =>
      rw [hs, List.filter_cons_of_neg (by simp [hw])] at hr
      exact untold_act_pure hr
    | true =>
      rw [hs, List.filter_cons_of_pos (by simp [hw])] at hr
      exact untold_act_bind hr (untold_deliver event rfl hk hc) fun _ => untold_act_pure

/-! ## Calls of the registry -/

section Calls

variable {link : Option ServiceFilter}

/-- A registration may bring about an admission and nothing more. -/
theorem untold_register {properties : Properties} {a : Except Trouble ServiceReference}
    (hk : Callback.ApartFromAdmission kind) (hc : h.Calm) (hl : h.registry.Linked c link)
    (hr : (register nested properties).run h = .ok (a, h')) : h.Untold kind h' := by
  let r := ServiceReference.new h.registry.nextService properties
  let h₁ : Hub E := { h with registry := (h.registry.add properties).2 }
  unfold register at hr
  rw [act_bind (a := r) (g := h₁) rfl] at hr
  have hadded : h.Untold kind h₁ := .of_eq rfl rfl
  refine hadded.trans (untold_act_bind hr (fun hr => ?_) fun _ => untold_act_pure)
  exact untold_deliverAll (.registered r) (hl.of_eq rfl) hk hc hr

theorem untold_setProperties {id : UInt64} {properties : Properties}
    {a : Except Trouble ServiceReference} (hk : Callback.ApartFromAdmission kind) (hc : h.Calm)
    (hl : h.registry.Linked c link)
    (hr : (setProperties nested id properties).run h = .ok (a, h')) : h.Untold kind h' := by
  unfold setProperties at hr
  rw [act_bind (a := h) (g := h) rfl] at hr
  cases hf : h.registry.get? id with
  | none =>
    rw [hf] at hr
    obtain ⟨-, rfl⟩ := pure_eq_ok.1 hr
    exact .refl _
  | some old =>
    rw [hf] at hr
    let r := ServiceReference.new id properties
    let h₁ : Hub E := { h with registry := h.registry.put r }
    have hr : (_ >>= fun _ => _ : Act E _).run h = .ok (a, h') := hr
    rw [act_bind (a := ()) (g := h₁) rfl] at hr
    have hput : h.Untold kind h₁ := .of_eq rfl rfl
    have hl₁ : h₁.registry.Linked c link := hl.of_eq rfl
    refine hput.trans (untold_act_bind hr (fun hr => ?_) fun hfirst hr => ?_)
    · exact untold_deliverAll (.modified r) hl₁ hk hc hr
    · -- that the service ceased to match is no notification
      obtain ⟨h₂, hdone, hch, hcalm₂⟩ := deliverAll_total nested (h := h₁) hc hl₁ (.modified r)
        (·.accepts r.properties)
      cases hfirst.symm.trans hdone
      refine untold_act_bind hr (fun hr => ?_) fun _ => untold_act_pure
      exact untold_deliverAll ⟨.modifiedEndmatch, r⟩
        (hl₁.of_eq hch.registry.subscriptions) trivial hcalm₂ hr

/-- A service that is taken away may bring about a removal and nothing more. -/
theorem untold_unregister {id : UInt64} {a : Except Trouble Unit}
    (hk : Callback.ApartFromRemoval kind) (hc : h.Calm) (hl : h.registry.Linked c link)
    (hr : (unregister nested id).run h = .ok (a, h')) : h.Untold kind h' := by
  unfold unregister at hr
  rw [act_bind (a := h) (g := h) rfl] at hr
  cases hf : h.registry.get? id with
  | none =>
    rw [hf] at hr
    obtain ⟨-, rfl⟩ := pure_eq_ok.1 hr
    exact .refl _
  | some r =>
    rw [hf] at hr
    let h₁ : Hub E := { h with registry := h.registry.remove id }
    have hr : (_ >>= fun _ => _ : Act E _).run h = .ok (a, h') := hr
    rw [act_bind (a := ()) (g := h₁) rfl] at hr
    have hremoved : h.Untold kind h₁ := .of_eq rfl rfl
    exact hremoved.trans (untold_deliverAll (.unregistering r) (hl.of_eq rfl) hk hc hr)

end Calls

/-! ## The life of a collection -/

/-- A subscriber is told of the services that are there. -/
theorem untold_replay {s : Subscription E} {services : List ServiceReference}
    {a : Except Trouble Unit} (hs : s.target = .importer c)
    (hk : Callback.ApartFromAdmission kind) (hc : h.Calm)
    (hr : (services.forM fun r => deliver nested s (.registered r)).run h = .ok (a, h')) :
    h.Untold kind h' := by
  induction services generalizing h with
  | nil => exact untold_act_pure hr
  | cons r services ih =>
    refine untold_act_bind hr (untold_deliver (.registered r) hs hk hc) fun hone hr => ?_
    obtain ⟨h₁, hdone, -, hcalm₁⟩ := deliver_total nested hc hs (.registered r)
    cases hone.symm.trans hdone
    exact ih hcalm₁ hr

/-- The services that a new subscription is told of are admitted. -/
theorem untold_subscribe {filter : ServiceFilter} {a : Except Trouble UInt64}
    (hk : Callback.ApartFromAdmission kind) (hc : h.Calm)
    (hr : (subscribe nested filter (.importer c)).run h = .ok (a, h')) : h.Untold kind h' := by
  let s : Subscription E := ⟨h.registry.nextSubscription, filter, .importer c⟩
  let h₁ : Hub E := { h with registry := (h.registry.subscribe filter (.importer c)).2 }
  unfold subscribe at hr
  rw [act_bind (a := s) (g := h₁) rfl, act_bind (a := h₁) (g := h₁) rfl] at hr
  have hsubscribed : h.Untold kind h₁ := .of_eq rfl rfl
  refine hsubscribed.trans (untold_act_bind hr (fun hr => ?_) fun _ => untold_act_pure)
  exact untold_replay (s := s) rfl hk hc hr

theorem untold_begin {a : Except Trouble Unit} (hk : Callback.ApartFromAdmission kind)
    (hc : h.Calm) (hr : (begin nested c).run h = .ok (a, h')) : h.Untold kind h' := by
  unfold begin at hr
  rw [act_bind (a := h.collection c) (g := h) rfl] at hr
  cases hs : (h.collection c).subscription with
  | some id =>
    rw [hs] at hr
    cases hr
    exact .refl _
  | none =>
    rw [hs] at hr
    have hr : (_ >>= fun _ => _ : Act E Unit).run h = .ok (a, h') := hr
    refine untold_act_bind hr (fun hr => ?_) fun hasked hr => ?_
    · obtain ⟨closed, hclosed, -⟩ := act_lift_ok hr
      exact untold_look hclosed
    · obtain ⟨closed, hclosed, heq⟩ := act_lift_ok hasked
      cases heq
      obtain ⟨_, _, hagain, hh⟩ : Hushed (isClosed c) h :=
        .look ((hc c).free .index (by decide))
      cases hclosed.symm.trans hagain
      split at hr
      · cases hr
        exact .refl _
      · refine untold_act_bind hr (untold_subscribe hk (hh.calm hc)) fun _ hr => ?_
        cases hr
        exact .of_eq rfl rfl

/-- A collection that is started. -/
theorem untold_start {a : Except Trouble Unit} (hk : Callback.ApartFromAdmission kind)
    (hc : h.Calm) (hr : (start nested c).run h = .ok (a, h')) : h.Untold kind h' := by
  refine untold_act_bind hr (fun hr => ?_) fun hbegun hr => ?_
  · obtain ⟨-, h₁, hbegin, rfl⟩ := locked_eq_ok.1 hr
    have hcalm : (h.taking c .subscription).Calm :=
      hc.update ((hc c).of_eq (fun _ hmem => List.mem_cons.1 hmem) rfl rfl rfl rfl)
    have htaken : h.Untold kind (h.taking c .subscription) := .of_eq rfl rfl
    have hgiven : h₁.Untold kind (h₁.giving c .subscription) := .of_eq rfl rfl
    exact (htaken.trans (untold_begin hk hcalm hbegin)).trans hgiven
  · refine untold_act_bind hr (fun hr => ?_) fun _ hr => ?_
    · obtain ⟨checked, hchecked, -⟩ := act_lift_ok hr
      exact untold_look hchecked
    · split at hr
      · exact untold_act_pure hr
      · cases hr
        exact .refl _

/-- Removals tell of no admission. -/
theorem untold_removeAll {ids : List UInt64} {n : Nat} (hk : Callback.ApartFromRemoval kind)
    (hc : h.Calm) (hr : removeAll nested c ids h = .ok (n, h')) : h.Untold kind h' := by
  induction ids generalizing h n with
  | nil =>
    obtain ⟨-, rfl⟩ := pure_eq_ok.1 hr
    exact .refl _
  | cons id ids ih =>
    obtain ⟨outcome, h₁, hone, hr⟩ := bind_eq_ok.1 hr
    obtain ⟨count, h₂, hrest, hr⟩ := bind_eq_ok.1 hr
    obtain ⟨-, rfl⟩ := pure_eq_ok.1 hr
    obtain ⟨_, _, hdone, -, hcalm₁⟩ := remove_total nested (c := c) hc id
    cases hone.symm.trans hdone
    exact (untold_remove hk hc hone).trans (ih hcalm₁ hrest)

end Run

end LiveServices
