import LiveServices.Proofs.Destruction.Finality
import LiveServices.Proofs.Once.Untold
import LiveServices.Proofs.Sequence.Ahead

/-!
# The life of a calm collection

What is left of the life of a collection after its start: further starts are refused, and it may be
destroyed. A refused start changes nothing that can be seen (`Hub.refusal_total`). A destruction
leaves the collection spent; it winds the collection down, which leaves alone what the collection
was built as, the other collections, and the services of the registry (`Hub.Winds`,
`Hub.destruction_total`).
-/

namespace LiveServices

variable {E : Type}

/-! ## Winding down -/

/-- Two states of a collection that was built in one way, with the same locks and as many cursors
opened, in both dropped or in neither. -/
structure Collection.SameFittings (k k' : Collection E) : Prop where
  factory : k'.factory = k.factory
  lifecycle : k'.lifecycleListeners = k.lifecycleListeners
  state : k'.stateListeners = k.stateListeners
  locks : k'.locks = k.locks
  opened : k'.storage.opened = k.storage.opened
  dropped : k'.dropped = k.dropped

namespace Collection.SameFittings

variable {k k₁ k' : Collection E}

theorem refl (k : Collection E) : SameFittings k k := ⟨rfl, rfl, rfl, rfl, rfl, rfl⟩

theorem trans (h₁₂ : SameFittings k k₁) (h₂₃ : SameFittings k₁ k') : SameFittings k k' :=
  ⟨h₂₃.factory.trans h₁₂.factory, h₂₃.lifecycle.trans h₁₂.lifecycle, h₂₃.state.trans h₁₂.state,
    h₂₃.locks.trans h₁₂.locks, h₂₃.opened.trans h₁₂.opened, h₂₃.dropped.trans h₁₂.dropped⟩

end Collection.SameFittings

namespace Hub

variable {c : Nat} {h h₁ h' : Hub E}

/-- The second hub comes after the first by steps in which a collection loses services and its
subscription. -/
structure Winds (c : Nat) (h h' : Hub E) : Prop where
  services : h'.registry.services = h.registry.services
  nextService : h'.registry.nextService = h.registry.nextService
  subscriptions : h'.registry.subscriptions.Sublist h.registry.subscriptions
  here : (h.collection c).SameFittings (h'.collection c)
  elsewhere : ∀ d, d ≠ c → h'.collection d = h.collection d

namespace Winds

theorem trans (h₁₂ : h.Winds c h₁) (h₂₃ : h₁.Winds c h') : h.Winds c h' where
  services := h₂₃.services.trans h₁₂.services
  nextService := h₂₃.nextService.trans h₁₂.nextService
  subscriptions := h₂₃.subscriptions.trans h₁₂.subscriptions
  here := h₁₂.here.trans h₂₃.here
  elsewhere d hd := (h₂₃.elsewhere d hd).trans (h₁₂.elsewhere d hd)

/-- Nothing is wound where the collections and the registry stay as they are. -/
theorem of_collections (hc : h'.collections = h.collections) (hr : h'.registry = h.registry) :
    h.Winds c h' := by
  have hk (d : Nat) : h'.collection d = h.collection d := by rw [collection, hc, collection]
  exact ⟨by rw [hr], by rw [hr], by rw [hr], hk c ▸ .refl _, fun d _ => hk d⟩

/-- A change of the collection that leaves its fittings alone is a part of its winding up. -/
theorem update {f : Collection E → Collection E} (hf : ∀ k, Collection.SameFittings k (f k)) :
    h.Winds c (h.update c f) := by
  refine ⟨rfl, rfl, .refl _, ?_, fun d hd => collection_update_of_ne (Ne.symm hd)⟩
  rw [collection_update]
  split
  · exact hf _
  · exact .refl _

/-- A section of which it is known what it leaves alone. -/
theorem of_discreet (hr : h'.registry.services = h.registry.services)
    (hn : h'.registry.nextService = h.registry.nextService)
    (hs : h'.registry.subscriptions.Sublist h.registry.subscriptions)
    (hstorage : (h'.collection c).storage = (h.collection c).storage) (ha : h.Aside h')
    (hd : h.Discreet c h') (hdropped : h.SameDropped c h') : h.Winds c h' where
  services := hr
  nextService := hn
  subscriptions := hs
  here := ⟨(ha.stock c).factory, (ha.stock c).lifecycle, (ha.stock c).state, hd.locks c,
    congrArg LiveSequence.opened hstorage, hdropped⟩
  elsewhere := hd.others

end Winds

/-- A change that is undone after a hush is a hush. -/
theorem Hush.between {f g : Collection E → Collection E} (hfg : ∀ k, g (f k) = k)
    (hh : (h.update c f).Hush h₁) : h.Hush (h₁.update c g) := by
  refine ⟨?_, hh.registry⟩
  have hundone : ((h.update c f).update c g).collections = h.collections := by
    rw [update_update_of_inverse hfg]
  rw [← hundone, Hub.update, hh.collections]
  rfl

end Hub

namespace Run

open Hub

section Sections

variable {c : Nat} {h h' : Hub E}

/-- A change of other fields leaves the storage alone. -/
theorem storage_update {g : Hub E} {f : Collection E → Collection E}
    (hf : ∀ k, (f k).storage = k.storage) :
    ((g.update c f).collection c).storage = (g.collection c).storage := by
  rw [collection_update]
  split
  · exact hf _
  · rfl

/-- The end of a subscription takes one subscription from the registry at most. -/
theorem endSubscription_ok {u : Unit} (hr : endSubscription c h = .ok (u, h')) :
    h'.traversals = h.traversals ∧ (h'.collection c).storage = (h.collection c).storage ∧
    (h'.registry = h.registry ∨ ∃ id, h'.registry = (h.registry.unsubscribe id).2) := by
  obtain ⟨-, h₁, hbody, rfl⟩ := locked_eq_ok.1 hr
  have hgiven : ((h₁.giving c .subscription).collection c).storage = (h₁.collection c).storage :=
    storage_update fun _ => rfl
  have htaken : ((h.taking c .subscription).collection c).storage = (h.collection c).storage :=
    storage_update fun _ => rfl
  have hbody : (collection c >>= fun k => _ : Run E Unit) (h.taking c .subscription) = _ := hbody
  rw [collection_bind] at hbody
  cases hs : ((h.taking c .subscription).collection c).subscription with
  | none =>
    rw [hs] at hbody
    obtain ⟨-, rfl⟩ := pure_eq_ok.1 hbody
    exact ⟨rfl, hgiven.trans htaken, .inl rfl⟩
  | some id =>
    rw [hs] at hbody
    cases hbody
    refine ⟨rfl, hgiven.trans (Eq.trans ?_ htaken), .inr ⟨id, rfl⟩⟩
    exact storage_update fun _ => rfl

/-- The end of the subscription is the first step of the winding up. -/
theorem winds_endSubscription {u : Unit} (hr : endSubscription c h = .ok (u, h')) :
    h.Winds c h' := by
  obtain ⟨-, hstorage, hregistry⟩ := endSubscription_ok hr
  refine .of_discreet ?_ ?_ ?_ hstorage (Keeps.endSubscription c hr) (discreet_endSubscription hr)
    (sameDropped_endSubscription hr)
  all_goals rcases hregistry with hregistry | ⟨id, hregistry⟩ <;> rw [hregistry]
  · rfl
  · rfl
  · exact List.filter_sublist

/-- A collection that is closed keeps its storage, and its iterators stay where they are. -/
theorem close_same {live : List UInt64} (hr : close c h = .ok (live, h')) :
    h'.traversals = h.traversals ∧ (h'.collection c).storage = (h.collection c).storage ∧
    h'.registry = h.registry := by
  simp only [close, locked_eq_ok, update_bind, collection_bind, pure_eq_ok] at hr
  obtain ⟨-, h₁, ⟨-, rfl⟩, rfl⟩ := hr
  refine ⟨rfl, ?_, rfl⟩
  refine (storage_update ?_).trans ((storage_update ?_).trans (storage_update ?_))
  all_goals exact fun _ => rfl

/-- A collection is closed as it is wound up. -/
theorem winds_close {live : List UInt64} (hr : close c h = .ok (live, h')) : h.Winds c h' := by
  obtain ⟨-, hstorage, hregistry⟩ := close_same hr
  exact .of_discreet (by rw [hregistry]) (by rw [hregistry]) (by rw [hregistry]) hstorage
    (Keeps.close c hr) (discreet_close hr) (sameDropped_close hr)

/-- It is cleared in the end. -/
theorem winds_clear {u : Unit} (hr : clear c h = .ok (u, h')) : h.Winds c h' := by
  obtain ⟨recent, -, rfl⟩ := clear_ok hr
  refine ⟨rfl, rfl, .refl _, ?_, fun d hd => collection_setTo_of_ne hd⟩
  rw [collection_setTo]
  split
  · exact ⟨rfl, rfl, rfl, rfl, rfl, rfl⟩
  · exact .refl _

end Sections

variable [ServiceEntry E] {nested : Nested E} {c : Nat} {h h' : Hub E}

/-- The removal of a service is a step of it. -/
theorem winds_of_drops {id : UInt64} (hch : h.Changes c (Collection.Drops id) h') :
    h.Winds c h' := by
  refine ⟨hch.registry.services, hch.registry.nextService, ?_, ?_, hch.elsewhere⟩
  · rw [hch.registry.subscriptions]
  · have hdrops := hch.here
    generalize h'.collection c = k' at hdrops
    cases hdrops with
    | absent => exact .refl _
    | found => exact ⟨rfl, rfl, rfl, rfl, LiveSequence.opened_removeOne _ _, rfl⟩

/-- So are the removals of all its services. -/
theorem winds_removeAll {ids : List UInt64} {n : Nat} (hc : h.Calm)
    (hr : removeAll nested c ids h = .ok (n, h')) : h.Winds c h' := by
  induction ids generalizing h n with
  | nil =>
    obtain ⟨-, rfl⟩ := pure_eq_ok.1 hr
    exact .of_collections rfl rfl
  | cons id ids ih =>
    obtain ⟨outcome, h₁, hone, hr⟩ := bind_eq_ok.1 hr
    obtain ⟨count, h₂, hrest, hr⟩ := bind_eq_ok.1 hr
    obtain ⟨-, rfl⟩ := pure_eq_ok.1 hr
    obtain ⟨_, _, hdone, hch, hcalm⟩ := remove_total nested (c := c) hc id
    cases hone.symm.trans hdone
    exact (winds_of_drops hch).trans (ih hcalm hrest)

/-- **Winding down.** What a destruction leaves alone, and whom it tells nothing. -/
theorem winds_destroy {kind : Callback E → Bool} {n : Nat} (hk : Callback.ApartFromRemoval kind)
    (hc : h.Calm) (hr : destroy nested c h = .ok (n, h')) :
    h.Winds c h' ∧ h.Untold kind h' := by
  obtain ⟨_, h₁, hend, hr⟩ := bind_eq_ok.1 hr
  obtain ⟨live, h₂, hclose, hr⟩ := bind_eq_ok.1 hr
  obtain ⟨count, h₃, hremoved, hr⟩ := bind_eq_ok.1 hr
  obtain ⟨_, h₄, hclear, hr⟩ := bind_eq_ok.1 hr
  obtain ⟨-, rfl⟩ := pure_eq_ok.1 hr
  have hlocks₂ (d : Nat) : (h₂.collection d).locks = (h.collection d).locks := by
    rw [(discreet_close hclose).locks, (discreet_endSubscription hend).locks]
  have haside : h.Aside h₂ := Law.trans (Keeps.endSubscription c hend) (Keeps.close c hclose)
  have hcalm₂ : h₂.Calm := hc.aside haside hlocks₂
  have hended : h.Untold kind h₁ :=
    .of_eq (endSubscription_ok hend).1 (discreet_endSubscription hend).trace
  have hclosed : h₁.Untold kind h₂ := .of_eq (close_same hclose).1 (discreet_close hclose).trace
  have hcleared : h₃.Untold kind h₄ := by
    obtain ⟨recent, -, rfl⟩ := clear_ok hclear
    exact .of_eq rfl rfl
  have hwound := (winds_endSubscription hend).trans (winds_close hclose)
  exact ⟨(hwound.trans (winds_removeAll hcalm₂ hremoved)).trans (winds_clear hclear),
    ((hended.trans hclosed).trans (untold_removeAll hk hcalm₂ hremoved)).trans hcleared⟩

/-! ## Starts that are refused -/

/-- A collection that was begun is refused a subscription. -/
theorem begin_refusal (nested : Nested E) (hl : .index ∉ (h.collection c).locks) (hb : h.Begun c) :
    ∃ f h', (begin nested c).run h = .ok (.error (.failed f), h') ∧ h.Hush h' := by
  unfold begin
  rw [act_bind (a := h.collection c) (g := h) rfl]
  cases hs : (h.collection c).subscription with
  | some s => exact ⟨_, h, rfl, .refl h⟩
  | none =>
    have hclosed : (h.collection c).closed = true := by
      rcases hb with hsome | hclosed
      · rw [hs] at hsome
        cases hsome
      · exact hclosed
    obtain ⟨closed, h₁, hask, hh⟩ : Hushed (isClosed c) h := .look hl
    obtain rfl : closed = true := by
      obtain ⟨-, rfl, -⟩ := locked_pure_eq_ok.1 hask
      rw [collection_update]
      split <;> exact hclosed
    refine ⟨.illegalState "collection already destroyed", h₁, ?_, hh⟩
    show (_ >>= fun _ => _ : Act E Unit).run h = _
    rw [act_bind (act_lift hask)]
    rfl

/-- So is it refused a start. -/
theorem start_refusal (nested : Nested E) (hl : (h.collection c).locks = []) (hb : h.Begun c) :
    ∃ f h', (start nested c).run h = .ok (.error (.failed f), h') ∧ h.Hush h' := by
  obtain ⟨f, h₁, hbegin, hh⟩ := begin_refusal nested (h := h.taking c .subscription)
    (free_of_update (free_of_idle hl .index) (by decide)) (begun_taking.2 hb)
  have hlocked : (ExceptT.mk (locked c .subscription (begin nested c)) : Act E Unit).run h =
      .ok (.error (.failed f), h₁.giving c .subscription) :=
    locked_eq_ok.2 ⟨free_of_idle hl _, h₁, hbegin, rfl⟩
  exact ⟨f, _, bind_eq_ok.2 ⟨_, _, hlocked, rfl⟩, hh.between fun k => by rw [List.erase_cons_head]⟩

/-! ## Commands -/

/-- The work of a command on a collection that stays. -/
theorem onWork_ok {body : Run E Answer} {answer : Answer} {h₁ : Hub E}
    (hd : (h.collection c).dropped = false) (hb : body (h.engaged c) = .ok (answer, h₁))
    (hd₁ : (h₁.collection c).dropped = false) : onWork nested c body h =
      .ok (answer, h₁.update c fun k => { k with users := k.users - 1 }) := by
  rw [onWork, onCollection, collection_bind, hd]
  exact workOn_ok nested hb hd₁

end Run

namespace Hub

variable [ServiceEntry E] {c depth : Nat} {h h' : Hub E} {answer : Answer}
  {kind : Callback E → Bool}

omit [ServiceEntry E] in
theorem calm_engaged (hc : h.Calm) : (h.engaged c).Calm :=
  hc.update ((hc c).of_eq (fun _ => .inr) rfl rfl rfl rfl)

omit [ServiceEntry E] in
theorem dropped_engaged : ((h.engaged c).collection c).dropped = (h.collection c).dropped := by
  rw [engaged, collection_update]
  split <;> rfl

omit [ServiceEntry E] in
theorem idle_engaged (hi : h.Idle) : (h.engaged c).Idle := fun d => by
  rw [locks_engaged]
  exact hi d

omit [ServiceEntry E] in
theorem begun_engaged (hb : h.Begun c) : (h.engaged c).Begun c := by
  rw [Begun, engaged, collection_update]
  split <;> exact hb

omit [ServiceEntry E] in
/-- What is told while a command is at work on a collection is all that is told of it. -/
theorem Untold.of_work {h₁ : Hub E} (hu : (h.engaged c).Untold kind h₁) : h.Untold kind
    ((h₁.update c fun k => { k with users := k.users - 1 }).record
      (.ended (h₁.update c fun k => { k with users := k.users - 1 }).census)) := by
  have hbefore : h.Untold kind (h.engaged c) := .of_eq rfl rfl
  have hafter : h₁.Untold kind (h₁.update c fun k => { k with users := k.users - 1 }) :=
    .of_eq rfl rfl
  exact ((hbefore.trans hu).trans hafter).trans (.record trivial)

/-- **Refusals.** A collection that was begun is not started again, and nothing comes of it. -/
theorem refusal_total (hk : Callback.ApartFromAdmission kind) (hc : h.Calm) (hi : h.Idle)
    (hd : (h.collection c).dropped = false) (hb : h.Begun c) (depth : Nat) :
    ∃ failure h', h.run (depth + 1) (.start c) = .ok (.failed failure, h') ∧ h.Hush h' ∧
    h.Untold kind h' := by
  obtain ⟨f, h₁, hstart, hh⟩ := Run.start_refusal (Run.run depth)
    (idle_engaged hi c) (begun_engaged hb)
  have hd₁ : (h₁.collection c).dropped = false := by
    rw [hh.collection, dropped_engaged]
    exact hd
  have hdone : Run.execute (Run.run depth) (.start c) h = _ :=
    Run.onWork_ok hd (Run.answered_failed hstart) hd₁
  have hundone : h.Hush (h₁.update c fun k => { k with users := k.users - 1 }) :=
    hh.between fun _ => rfl
  exact ⟨f, _, run_ok hdone, hundone.trans ⟨rfl, rfl⟩,
    .of_work (Run.untold_start hk (calm_engaged hc) hstart)⟩

/-- A collection that is started for the first time is told of services that come. -/
theorem untold_join (hk : Callback.ApartFromAdmission kind) (hc : h.Calm)
    (hf : (h.collection c).Fresh)
    (hr : h.run (depth + 1) (.start c) = .ok (answer, h')) : h.Untold kind h' := by
  have hself : (h.engaged c).collection c = _ :=
    collection_update_self (lt_length_of_open hf.closed)
  obtain ⟨ending, h₁, hstart, hend, -, hj⟩ := Run.start_total (Run.run depth) (calm_engaged hc)
    (by rw [hself]; exact hf.locks ▸ List.not_mem_nil) (by rw [hself]; exact hf.subscription)
    (by rw [hself]; exact hf.closed)
  have hd₁ : (h₁.collection c).dropped = false := by
    rw [hj.starts.keeps.2, dropped_engaged]
    exact hf.dropped
  obtain ⟨answer', hanswered⟩ : ∃ answer', Run.answered (fun _ => Answer.done)
      (Run.start (Run.run depth) c) (h.engaged c) = .ok (answer', h₁) := by
    cases ending with
    | ok u => exact ⟨_, Run.answered_ok hstart⟩
    | error t =>
      cases t with
      | failed f => exact ⟨_, Run.answered_failed hstart⟩
      | panicked message => exact absurd rfl (hend message)
  have hdone : Run.execute (Run.run depth) (.start c) h = _ :=
    Run.onWork_ok hf.dropped hanswered hd₁
  cases (run_ok hdone).symm.trans hr
  exact .of_work (Run.untold_start hk (calm_engaged hc) hstart)

/-- **Destruction.** A collection of a calm hub in which no lock is taken is destroyed. -/
theorem destruction_total (hk : Callback.ApartFromRemoval kind) (hc : h.Calm) (hi : h.Idle)
    (hd : (h.collection c).dropped = false) (depth : Nat) :
    ∃ n h', h.run (depth + 1) (.destroy c) = .ok (.count n, h') ∧ (h'.collection c).Spent ∧
    h.Winds c h' ∧ h.Untold kind h' := by
  obtain ⟨n, h₁, hdestroy⟩ := Run.destroy_total (Run.run depth) (c := c) (calm_engaged hc)
    (idle_engaged hi)
  obtain ⟨hwound, htold⟩ := Run.winds_destroy hk (calm_engaged hc) hdestroy
  have hd₁ : (h₁.collection c).dropped = false := by
    rw [hwound.here.dropped, dropped_engaged]
    exact hd
  have hspent : (h₁.collection c).Spent := by
    obtain ⟨_, h₀, -, hshutdown⟩ := Run.bind_eq_ok.1 hdestroy
    exact Run.spent_of_shutdown (Run.onward_run depth) hshutdown
  have hbody : (do pure (Answer.count (← Run.destroy (Run.run depth) c)) : Run E Answer)
      (h.engaged c) = .ok (.count n, h₁) := Run.bind_eq_ok.2 ⟨n, h₁, hdestroy, rfl⟩
  have hdone : Run.execute (Run.run depth) (.destroy c) h = _ := Run.onWork_ok hd hbody hd₁
  have husers (f : Nat → Nat) (g : Hub E) :
      g.Winds c (g.update c fun k => { k with users := f k.users }) :=
    .update fun _ => ⟨rfl, rfl, rfl, rfl, rfl, rfl⟩
  refine ⟨n, _, run_ok hdone, ?_, ?_, .of_work htold⟩
  · refine hspent.of_sameStock ?_
    rw [collection_record, collection_update]
    split
    · exact ⟨rfl, rfl, rfl, rfl, rfl, rfl, rfl, id⟩
    · exact .refl _
  · exact (((husers (· + 1) h).trans hwound).trans (husers (· - 1) h₁)).trans
      (.of_collections rfl rfl)

end Hub

end LiveServices
