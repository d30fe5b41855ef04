import LiveServices.Proofs.Callbacks.Accounting
import LiveServices.Proofs.Index.Identified
import LiveServices.Proofs.Logs.Following

/-!
# Lifecycle logs are linearizations

State listeners and release actions may do anything when they are called: they may take away the
service that was just admitted, admit it again, or destroy the collection, in the middle of the
operation that called them. The lifecycle listeners were told before that, and as long as they do
not answer with commands themselves, what each of them was told is in the order of the changes of
the index. So its log is linear, and it gives the services of the index whenever a state listener
is called, a release begins, or a command ends (`log_linearizes`).
-/

namespace LiveServices

variable {E : Type} [ServiceEntry E]

namespace Run

open Hub

variable {c d : Nat} {l : Attached E} {h h₁ h' : Hub E} {nested : Nested E}

theorem nested_of_following (hn : ∀ command, Ends (Reaching (Following c l)) (nested command))
    (command : Command E) : Keeps Hub.Sure (nested command) :=
  (ends_reaching.1 (hn command)).mono fun hs => hs.sure

/-! ## Sections that leave no trace -/

/-- The end of a subscription calls no listener. -/
theorem mute_endSubscription {u : Unit} (hr : endSubscription d h = .ok (u, h')) :
    h.Mute c l.tag h' := by
  have ha : h.Aside h' := Keeps.endSubscription d hr
  exact .of_trace (Law.aside ha) (ha.stock c).index (discreet_endSubscription hr).trace

/-- A collection is closed before any listener hears of it. -/
theorem mute_close {live : List UInt64} (hr : close d h = .ok (live, h')) : h.Mute c l.tag h' := by
  have ha : h.Aside h' := Keeps.close d hr
  exact .of_trace (Law.aside ha) (ha.stock c).index (discreet_close hr).trace

/-- Where nothing is left in the index there is nothing to clear. -/
theorem mute_clear {u : Unit} (hr : clear d h = .ok (u, h'))
    (hi : (h.collection d).index = []) : h.Mute c l.tag h' := by
  have hsure := steps_sure.cleared d hr
  obtain ⟨recent, -, rfl⟩ := clear_ok hr
  refine .of_trace hsure ?_ rfl
  rw [collection_setTo]
  split
  · next hc =>
    rw [hc.1, hi]
    rfl
  · rfl

section Operations

variable (hn : ∀ command, Ends (Reaching (Following c l)) (nested command))
include hn

/-! ## Calls and releases -/

/-- A call of another listener, or one that is about no service, leaves the log as it is. -/
theorem following_call {a : Attached E} {callback : Callback E}
    (hq : a.tag ≠ l.tag ∨ callback.service? = none) :
    Ends (Reaching (Following c l)) (call nested a callback) :=
  .call hn fun _ => .ok (.calling hq)

/-- State listeners are told of the dependency, and the log is about services. -/
theorem following_states (d : Nat) {what : Guarded} {service : UInt64} {callback : Callback E}
    (ho : callback.service? = none) : Ends (Reaching (Following c l))
      (stateListeners d >>= callAll nested what service callback) :=
  .bind (.look d .stateListeners Collection.stateListeners) fun _ =>
    .callAll _ _ fun _ _ => following_call hn (.inr ho)

theorem following_satisfied (d : Nat) (service : UInt64) :
    Ends (Reaching (Following c l)) (satisfied nested d service) :=
  .bind (.collection d) fun _ => following_states hn d rfl

theorem following_unsatisfied (d : Nat) (service : UInt64) :
    Ends (Reaching (Following c l)) (unsatisfied nested d service) :=
  .bind (.collection d) fun _ => following_states hn d rfl

/-- A round over the lifecycle listeners of another collection. -/
theorem following_elsewhere (hd : d ≠ c) (what : Guarded) (service : UInt64)
    (callback : Callback E) : Ends (Reaching (Following c l))
      (lifecycleListeners d >>= callAll nested what service callback) := by
  refine ends_reaching.2 fun h u h' hr => ?_
  refine ⟨Keeps.lifecycleRound (nested_of_following hn) steps_sure.called d _ _ _ hr,
    fun hu hl => ?_⟩
  obtain ⟨listeners, h₁, hread, hround⟩ := bind_eq_ok.1 hr
  obtain rfl := lifecycleListeners_ok hread
  have hlooked : Following c l h h₁ :=
    ends_reaching.1 (Ends.look d .lifecycleListeners Collection.lifecycleListeners) hread
  -- the listeners watch the other collection
  have hcalled (a : Attached E) (ha : a ∈ (h.collection d).lifecycleListeners) :
      Ends (Reaching (Following c l)) (call nested a callback) := by
    refine following_call hn (.inl fun htag => hd ?_)
    rw [← hl.keyed.lifecycle.home ha, ← hl.keyed.lifecycle.home hl.attached]
    exact congrArg ListenerTag.home htag
  have hcalls : Following c l h₁ h' := ends_reaching.1 (.callAll _ _ hcalled) hround
  exact (Flow.trans hlooked hcalls).confirmed hu hl

/-- The beginning of a release is a checkpoint, and the log agrees with the index there. -/
theorem following_letGo (d : Nat) (holding : Holding E) :
    Ends (Reaching (Following c l)) (letGo nested d holding) :=
  .letGo hn fun _ announced => .ok (.letting d holding.serial holding.id announced)

/-! ## What follows a section -/

/-- A service that was admitted is announced to the lifecycle listeners first. -/
theorem following_admission {r : ServiceReference} {entry : E} {first : Bool} {u : Unit}
    (hcons : consider c r h = .ok (.ok (.admitted entry first), h₁))
    (hr : announceAdmission nested c entry r first h₁ = .ok (u, h')) : Following c l h h' := by
  have hsure := steps_sure.considered c r hcons
  have hc := consider_ok hcons
  refine ⟨Law.trans hsure (steps_sure.announceAdmission (nested_of_following hn) c _ _ _ hr),
    fun hu hl => ?_⟩
  obtain ⟨_, h₂, hbind, hrest⟩ := bind_eq_ok.1 hr
  have hthen : Following c l h₂ h' := by
    refine ends_reaching.1 ?_ hrest
    split
    · exact following_satisfied hn c r.id
    · exact .pure _
  have hdue := logged_of_admitted hsure hc hl
  rw [← show h₁.history l.tag = h.history l.tag from told_eq hc.toSection.trace _] at hdue
  obtain ⟨hlogged, hround⟩ :=
    logged_of_round (nested_of_following hn) rfl hbind (hu.of_sure hthen.sure) hdue
  exact hthen.after hu (.of_unchecked hlogged ((unchecked_of_considered hc).trans hround))

/-- A service that was taken away is announced to the lifecycle listeners first. -/
theorem following_removal {id : UInt64} {removal : Removal E} {u : Unit}
    (hret : retract c id h = .ok (some removal, h₁))
    (hr : announceRemoval nested c removal h₁ = .ok (u, h')) : Following c l h h' := by
  have hsure := steps_sure.retracted c id hret
  have hc := retract_ok hret
  refine ⟨Law.trans hsure (steps_sure.announceRemoval (nested_of_following hn) c _ hr),
    fun hu hl => ?_⟩
  obtain ⟨hstored, hdue⟩ := logged_of_retracted hsure hc hl
  have htold : h₁.history l.tag = h.history l.tag := told_eq hc.toSection.trace _
  rw [← htold] at hdue
  rw [announceRemoval, if_pos hstored] at hr
  obtain ⟨_, h₂, hunbind, hrest⟩ := bind_eq_ok.1 hr
  have hthen : Following c l h₂ h' := by
    refine ends_reaching.1 ?_ hrest
    split
    · exact following_unsatisfied hn c _
    · exact .pure _
  obtain ⟨hlogged, hround⟩ :=
    logged_of_round (nested_of_following hn) rfl hunbind (hu.of_sure hthen.sure) hdue
  have hquiet : h.Unchecked h₁ := by
    cases hc
    exact .refl h
  exact hthen.after hu (.of_unchecked hlogged (hquiet.trans hround))

/-- What follows a decision that admits no service to the collection. -/
theorem following_afterAdmission (r : ServiceReference) {admission : Admission E}
    (hno : d = c → ∀ entry first, admission ≠ .admitted entry first) :
    Ends (Reaching (Following c l)) (afterAdmission nested d r admission) := by
  cases admission with
  | ignored => exact .pure _
  | refused serial release =>
    exact .afterRefusal hn r (fun _ _ _ => .ok (.letting ..)) serial release
  | admitted entry first =>
    have hd : d ≠ c := fun hd => hno hd entry first rfl
    refine .bind (.announceAdmission ?_ (following_satisfied hn d r.id) first) fun _ => .pure _
    exact following_elsewhere hn hd _ _ _

/-! ## Operations -/

/-- A service that is admitted is logged before the state listeners are told. -/
theorem following_appeared (d : Nat) (r : ServiceReference) :
    Ends (Reaching (Following c l)) (apply nested d .appeared r) := by
  refine ends_reaching.2 fun h outcome h' hr => ?_
  obtain ⟨result, h₁, hcons, hr⟩ := bind_eq_ok.1 hr
  by_cases hyes : d = c ∧ ∃ entry first, result = .ok (.admitted entry first)
  · obtain ⟨rfl, entry, first, rfl⟩ := hyes
    obtain ⟨_, h₂, hafter, hr⟩ := bind_eq_ok.1 hr
    obtain ⟨-, rfl⟩ := pure_eq_ok.1 hr
    obtain ⟨_, h₃, hannounce, hafter⟩ := bind_eq_ok.1 hafter
    obtain ⟨-, rfl⟩ := pure_eq_ok.1 hafter
    exact following_admission hn hcons hannounce
  · have hno : d = c → ∀ entry first, result ≠ .ok (.admitted entry first) :=
      fun hd entry first heq => hyes ⟨hd, entry, first, heq⟩
    have hdecided : Following c l h h₁ :=
      .of_mute (mute_considered (steps_sure.considered d r hcons) (consider_ok hcons) hno)
    refine Flow.trans hdecided ?_
    cases result with
    | error t =>
      obtain ⟨-, rfl⟩ := pure_eq_ok.1 hr
      exact Flow.quiet (.refl h₁)
    | ok admission =>
      refine ends_reaching.1 (.bind (following_afterAdmission hn r ?_) fun _ => .pure _) hr
      exact fun hd entry first heq => hno hd entry first (congrArg Except.ok heq)

/-- A service that is removed is logged before the state listeners are told. -/
theorem following_removed (d : Nat) (id : UInt64) :
    Ends (Reaching (Following c l)) (remove nested d id) := by
  refine ends_reaching.2 fun h outcome h' hr => ?_
  obtain ⟨result, h₁, hret, hr⟩ := bind_eq_ok.1 hr
  have hmute (hno : d = c → result = none) : Following c l h h₁ :=
    .of_mute (mute_retracted (steps_sure.retracted d id hret) (retract_ok hret) hno)
  cases result with
  | none =>
    obtain ⟨-, rfl⟩ := pure_eq_ok.1 hr
    exact hmute fun _ => rfl
  | some removal =>
    obtain ⟨_, h₂, hannounce, hr⟩ := bind_eq_ok.1 hr
    obtain ⟨_, h₃, hlet, hr⟩ := bind_eq_ok.1 hr
    obtain ⟨-, rfl⟩ := pure_eq_ok.1 hr
    have hgone : Following c l h₂ h₃ := ends_reaching.1 (following_letGo hn d _) hlet
    refine Flow.trans ?_ hgone
    by_cases hd : d = c
    · subst hd
      exact following_removal hn hret hannounce
    · have hannounced : Following c l h₁ h₂ := by
        refine ends_reaching.1 (.announceRemoval ?_ (following_unsatisfied hn d _)) hannounce
        exact following_elsewhere hn hd _ _ _
      exact Flow.trans (hmute fun hdc => absurd hdc hd) hannounced

/-- A destruction is a sequence of removals. -/
theorem following_destroyed (d : Nat) : Ends (Reaching (Following c l)) (destroy nested d) := by
  refine ends_reaching.2 fun h count h' hr => ?_
  obtain ⟨_, h₁, hend, hr⟩ := bind_eq_ok.1 hr
  obtain ⟨live, h₂, hclose, hr⟩ := bind_eq_ok.1 hr
  obtain ⟨n, h₃, hremove, hr⟩ := bind_eq_ok.1 hr
  obtain ⟨_, h₄, hclear, hr⟩ := bind_eq_ok.1 hr
  obtain ⟨-, rfl⟩ := pure_eq_ok.1 hr
  have hclosed : Following c l h h₂ :=
    .of_mute (Flow.trans (mute_endSubscription hend) (mute_close hclose))
  have hremoved : Following c l h₂ h₃ :=
    ends_reaching.1 (.removeAll (following_removed hn d) live) hremove
  -- what was there at the closing was taken away, so the index is empty before it is cleared
  have hindex := index_of_removeAll
    (fun command => (nested_of_following hn command).mono Hub.Sure.onward) hclose hremove
  exact Flow.trans (Flow.trans hclosed hremoved) (.of_mute (mute_clear hclear hindex))

theorem deliveries_following : Deliveries nested (Reaching (Following c l)) where
  observed _ _ := following_call hn (.inr rfl)
  appeared := following_appeared hn
  removed := following_removed hn

/-- The subscription of a collection, under its lock. -/
theorem following_begun (d : Nat) :
    Ends (Reaching (Following c l)) (locked d .subscription (begin nested d).run) := by
  have hupdate {g : Hub E} {f : Collection E → Collection E}
      (hf : ∀ k, Collection.SameStock k (f k)) : Following c l g (g.update d f) :=
    .of_mute (.update hf)
  refine ends_reaching.2 fun h a h' hr => ?_
  obtain ⟨-, h₁, hbegin, rfl⟩ := locked_eq_ok.1 hr
  have hbody : Ends (Reaching (Following c l)) (begin nested d).run :=
    .begin (deliveries_following hn) fun id _ =>
      .ok (hupdate fun _ => ⟨rfl, rfl, rfl, rfl, rfl, rfl, rfl, fun hk => hk⟩)
  have hbegun : Following c l _ h₁ := ends_reaching.1 hbody hbegin
  refine Flow.trans (Flow.trans (hupdate fun _ => ?_) hbegun) (hupdate fun _ => ?_)
  · exact ⟨rfl, rfl, rfl, rfl, rfl, rfl, rfl, fun hk => hk⟩
  · exact ⟨rfl, rfl, rfl, rfl, rfl, rfl, rfl, fun hk => hk⟩

theorem lives_following : Lives nested (Reaching (Following c l)) where
  begun := following_begun hn
  destroyed := following_destroyed hn
  lifecycle d a := ends_reaching.2 fun h u h' hr => by
    obtain ⟨hsame, ht⟩ := addLifecycleListener_same hr
    exact .of_mute (.of_trace (steps_sure.lifecycle d a hr) (hsame c).index ht)
  state d a := ends_reaching.2 fun h u h' hr => by
    obtain ⟨hsame, ht⟩ := addStateListener_same hr
    exact .of_mute (.of_trace (steps_sure.state d a hr) (hsame c).index ht)

end Operations

end Run

/-! ## From the first event on -/

/-- **Linearization.** Take a run from plans to a hub in which nothing happened to a collection
yet, and any run that goes on from there in which no lifecycle listener of the collection answers
a call with commands, and let equality be an equivalence on what the factory makes. A lifecycle
listener of the first hub is told of each service in turns that it was added and that it was taken
away, the former first, and the latter with the entry and the reference of the former. To play
back what it was told so far gives the services that are in the collection, whenever a state
listener is called, a release begins or a command ends, and in the end. -/
theorem log_linearizes {plans : List (Plan E)} {depth depth' : Nat}
    {setup commands : List (Command E)} {answers answers' : List Answer} {h₀ h : Hub E} {c : Nat}
    {l : Attached E} (hsetup : (Hub.ofPlans plans).runAll depth setup = .ok (answers, h₀))
    (hr : h₀.runAll depth' commands = .ok (answers', h)) (hu : h₀.Untouched c)
    (heq : (h₀.collection c).factory.EntriesEquivalent)
    (hl : l ∈ (h₀.collection c).lifecycleListeners) (hq : h.Unanswered c) :
    (∀ id, Alternating id (h.history l.tag)) ∧
    (∀ late m early census, h.trace = late ++ m :: (early ++ h₀.trace) →
      m.checkpoint? = some census →
      ((replayed (logOf l.tag (early ++ h₀.trace))).map fun p => p.2.id).Perm
        ((census[c]?.getD []).map Prod.snd)) ∧
    ((replayed (h.history l.tag)).map fun p => p.2.id).Perm (h.collection c).identities := by
  have hstart : h₀.Logged c l (h₀.history l.tag) := by
    rw [hu.lifecycle l hl]
    refine ⟨Hub.keyed_runAll hsetup, Hub.coherent_runAll hsetup, hl, heq, .nil, ?_⟩
    rw [Collection.admitted, hu.index]
    exact .nil
  have hrun (command : Command E) :
      Run.Ends (Hub.Reaching (Hub.Following c l)) (Run.run depth' command) :=
    Run.ends_run (fun _ hn => ⟨Run.deliveries_following hn, Run.lives_following hn⟩)
      (fun _ => .ok .ended) depth' command
  have hfollowing : Hub.Following c l h₀ h :=
    Run.ends_runAll hrun commands h₀ h (by rw [hr]; rfl)
  obtain ⟨hlogged, recent, ht, hchecked⟩ := hfollowing.confirmed hq hstart
  refine ⟨hlogged.linear.alternating, fun late m early census hsplit => ?_, ?_⟩
  · rw [ht, ← List.cons_append, ← List.append_assoc] at hsplit
    exact hchecked late m early (List.append_cancel_right hsplit) census
  · rw [Collection.identities_eq_admitted]
    exact hlogged.exact.map _

/-! ### A service that is admitted again -/

/-- A mandatory dependency with a lifecycle listener that panics whenever it is called, and with a
state listener that at its first call takes the service away, admits it again, and destroys the
collection. -/
def Plan.churn : Plan Entry where
  hasRegistry := true
  factory := some .proxy
  filter := some ⟨"", .and []⟩
  lifecycleListeners := [.mk "log" .silent fun _ _ => .mk [] (.panic none)]
  stateListeners := [.mk "churn" .silent fun told _ =>
    if told.isEmpty then
      .mk [.apply 0 .disappeared (.new 1 (Properties.empty.insert "turn" (.text "gone"))),
        .apply 0 .appeared (.new 1 (Properties.empty.insert "turn" (.text "again"))),
        .destroy 0] .done
    else .silent]

/-- All that happened while the first callback of the state listener lasted is in the log in its
order, and a removal has the reference of the addition, not that of the event. -/
theorem log_linearizes_churn : ∃ l answers h,
    (Hub.ofPlans [Plan.churn]).runAll 0 [] = .ok ([], Hub.ofPlans [Plan.churn]) ∧
    (Hub.ofPlans [Plan.churn]).runAll 4 [.start 0, .register .empty] = .ok (answers, h) ∧
    (Hub.ofPlans [Plan.churn]).Untouched 0 ∧
    ((Hub.ofPlans [Plan.churn]).collection 0).factory.EntriesEquivalent ∧
    l ∈ ((Hub.ofPlans [Plan.churn]).collection 0).lifecycleListeners ∧ h.Unanswered 0 ∧
    (h.history l.tag).map (fun callback => (callback.name,
      callback.reference?.bind fun r => r.property "turn")) =
        [("unbind", some (.text "again")), ("bind", some (.text "again")), ("unbind", none),
          ("bind", none)] ∧
    (∀ id, Alternating id (h.history l.tag)) ∧ (h.collection 0).identities = [] := by
  obtain ⟨⟨answers, h⟩, hr, hseen⟩ := Run.exists_of_map_eq_ok
    (f := fun p : List Answer × Hub Entry =>
      (((Hub.ofPlans [Plan.churn]).collection 0).lifecycleListeners.map (fun l =>
        (p.2.history l.tag).map fun callback => (callback.name,
          callback.reference?.bind fun r => r.property "turn")),
        (p.2.collection 0).lifecycleListeners.length, (p.2.collection 0).identities))
    (show ((Hub.ofPlans [Plan.churn]).runAll 4 [.start 0, .register .empty]).map _ =
      .ok ([[("unbind", some (.text "again")), ("bind", some (.text "again")), ("unbind", none),
        ("bind", none)]], 1, []) by decide +kernel)
  obtain ⟨hlog, hseen⟩ := Prod.mk.inj hseen
  obtain ⟨hlength, hids⟩ := Prod.mk.inj hseen
  have hsetup : (Hub.ofPlans [Plan.churn]).runAll 0 [] = .ok ([], Hub.ofPlans [Plan.churn]) := rfl
  have hu : (Hub.ofPlans [Plan.churn]).Untouched 0 :=
    ⟨rfl, rfl, fun l _ => Hub.told_ofPlans _ _, fun l _ => Hub.told_ofPlans _ _⟩
  have heq : ((Hub.ofPlans [Plan.churn]).collection 0).factory.EntriesEquivalent :=
    Factory.entriesIdentified_proxy.equivalent
  -- nobody else was attached, and the only listener gives no commands
  have hquiet : h.Unanswered 0 := by
    obtain ⟨fresh, hall, -⟩ := ((Hub.onward_runAll hr).collection 0).lifecycle
    have hfresh : fresh = [] := by
      rw [hall, List.length_append] at hlength
      exact List.length_eq_zero_iff.1 (Nat.succ.inj ((Nat.add_comm _ _).trans hlength))
    refine Hub.unanswered_of_passive fun a ha => ?_
    rw [hall, hfresh, List.append_nil] at ha
    obtain rfl := List.mem_singleton.1 ha
    exact fun _ _ => rfl
  have hl : (⟨0, 0, .mk "log" .silent fun _ _ => .mk [] (.panic none)⟩ : Attached Entry) ∈
      ((Hub.ofPlans [Plan.churn]).collection 0).lifecycleListeners := List.mem_cons_self
  obtain ⟨halternating, -, -⟩ := log_linearizes hsetup hr hu heq hl hquiet
  exact ⟨_, answers, h, hsetup, hr, hu, heq, hl, hquiet, (List.cons.inj hlog).1, halternating,
    hids⟩

end LiveServices
