import LiveServices.Proofs.Callbacks.Balance

/-!
# What listeners are told adds up

A lifecycle listener that was attached before anything happened has been told of one more
addition than removal of each service that is in its collection now, and of as many for each
other service. A state listener of a mandatory collection has been told once more that the
dependency came to be met exactly if the collection has an entry now. No state listener of
another collection is told anything. This is `callbacks_balance`.

Each part is the balance of an account (`Account.services`, `Account.states`,
`Account.notices`). What has to be shown of an account is that it is fair, and this comes down
to what entering and leaving do to the identities and to the size of a collection. The balance
holds between operations and not within them: `callbacks_balance` speaks of hubs in which the
last command has come to its end.
-/

namespace LiveServices

variable {E : Type}

/-! ## Kinds of callbacks -/

namespace Callback

/-- Whether a callback tells that the entry of this service was added. -/
def isBind (id : UInt64) : Callback E → Bool
  | bind _ r => r.id == id
  | _ => false

/-- Whether a callback tells that the entry of this service was taken away. -/
def isUnbind (id : UInt64) : Callback E → Bool
  | unbind _ r => r.id == id
  | _ => false

/-- What a callback tells of the state of the dependency: whether it is met now. -/
def notice? : Callback E → Option Bool
  | satisfied _ => some true
  | unsatisfied _ => some false
  | _ => none

/-- Whether a callback tells that the dependency came to be met. -/
def isSatisfied (callback : Callback E) : Bool := callback.notice? == some true

/-- Whether a callback tells that the dependency ceased to be met. -/
def isUnsatisfied (callback : Callback E) : Bool := callback.notice? == some false

/-- Whether a callback tells of the state of the dependency. -/
def isNotice (callback : Callback E) : Bool := callback.notice?.isSome

end Callback

/-! ## Counting -/

namespace Account

/-- The account that counts some callbacks up and others down. -/
def counting (up down : Callback E → Bool) (level : Collection E → Int) : Account E where
  weight callback := (if up callback = true then 1 else 0) - (if down callback = true then 1 else 0)
  level := level

variable {up down : Callback E → Bool} {level : Collection E → Int}

theorem sum_counting (callbacks : List (Callback E)) :
    (callbacks.map (counting up down level).weight).sum =
      (callbacks.countP up : Int) - callbacks.countP down := by
  induction callbacks with
  | nil => rfl
  | cons callback callbacks ih =>
    have hweight : (counting up down level).weight callback =
        (if up callback = true then 1 else 0) - (if down callback = true then 1 else 0) := rfl
    rw [List.map_cons, List.sum_cons, ih, List.countP_cons, List.countP_cons, hweight]
    split <;> split <;> omega

/-- The balance of a count. -/
theorem balance_counting {c : Nat} {who : ListenerTag → Bool} {h : Hub E} :
    (counting up down level).balance c who h =
      ((h.told who).countP up : Int) - (h.told who).countP down - level (h.collection c) := by
  rw [balance, sum_counting, counting]

/-- One for each service that is in the collection: counted up by its bindings, down by its
unbindings. -/
def services (id : UInt64) : Account E :=
  counting (Callback.isBind id) (Callback.isUnbind id) fun k =>
    if id ∈ k.identities then 1 else 0

/-- One if the collection has an entry: counted up and down by the notices of its state. -/
def states : Account E :=
  counting Callback.isSatisfied Callback.isUnsatisfied fun k => if k.size = 0 then 0 else 1

/-- The number of notices, where there should be none. -/
def notices : Account E := counting Callback.isNotice (fun _ => false) fun _ => 0

variable [ServiceEntry E]

/-- Entering and leaving bring and take one service. -/
theorem fair_services (id : UInt64) : (services (E := E) id).Fair fun _ => True where
  event _ := rfl
  same {k k'} hs := by
    show (if id ∈ k'.identities then 1 else 0) = (if id ∈ k.identities then 1 else 0 : Int)
    rw [hs.identities]
  enter {k holding} _ hk hn ht := by
    have hmem : id ∈ (k.enter holding).identities ↔ id = holding.id ∨ id ∈ k.identities :=
      (Collection.identities_enter hn).mem_iff.trans List.mem_cons
    have hnew : holding.id ∉ k.identities := fun hin =>
      Bool.false_ne_true (hn ▸ Collection.hasIdentity_iff.2 hin)
    have hid : holding.reference.id = holding.id := rfl
    simp only [services, counting, Callback.isBind, Callback.isUnbind, hmem, hid, beq_iff_eq]
    -- the service of the account itself enters, or another one does
    by_cases heq : holding.id = id
    · subst heq
      simp [hnew]
    · simp [heq, Ne.symm heq]
  leave {k holding id'} _ hk hf := by
    have hfound : holding.id ∈ k.identities := List.mem_map_of_mem (List.mem_of_find?_eq_some hf)
    have hmem : id ∈ (k.leave holding).identities ↔ id ∈ k.identities ∧ id ≠ holding.id := by
      rw [Collection.identities_leave]
      simp
    have hid : holding.reference.id = holding.id := rfl
    simp only [services, counting, Callback.isBind, Callback.isUnbind, hmem, hid, beq_iff_eq]
    by_cases heq : holding.id = id
    · subst heq
      simp [hfound]
    · simp [heq, Ne.symm heq]
  clear {k} _ _ hi := by
    have hsame : k.cleared.identities = k.identities := by
      rw [Collection.identities, Collection.identities, hi]
      rfl
    show (if id ∈ k.cleared.identities then 1 else 0) = (if id ∈ k.identities then 1 else 0 : Int)
    rw [hsame]

/-- The first entry and the last one change the state. -/
theorem fair_states : (states (E := E)).Fair fun k =>
    k.factory.EntriesEquivalent ∧ k.dependency.mandatory = true where
  event _ := rfl
  same {k k'} hs := by
    show (if k'.size = 0 then 0 else 1) = (if k.size = 0 then 0 else 1 : Int)
    rw [hs.size]
  enter {k holding} hP hk hn ht := by
    have hsize := Collection.size_enter ht
    simp only [states, counting, Callback.isSatisfied, Callback.isUnsatisfied,
      Callback.notice?, hsize, hP.2]
    by_cases hz : k.size = 0
    · simp [hz]
    · simp [hz]
  leave {k holding id'} hP hk hf := by
    -- the removal finds an item, so the size goes down by one
    have hfound := hk.removeOne_eq_true hP.1 (List.mem_of_find?_eq_some hf)
    have hsize := k.size_leave holding
    rw [if_pos hfound] at hsize
    simp only [states, counting, Callback.isSatisfied, Callback.isUnsatisfied,
      Callback.notice?, hsize, hP.2]
    by_cases hz : (k.leave holding).size = 0
    · simp [hz]
    · simp [hz]
  clear {k} hP hk hi := by
    have hsame : k.cleared.size = k.size := by
      rw [hk.size_eq hP.1, Collection.identities, hi]
      rfl
    show (if k.cleared.size = 0 then 0 else 1) = (if k.size = 0 then 0 else 1 : Int)
    rw [hsame]

/-- Where the dependency is not mandatory nothing is announced. -/
theorem fair_notices : (notices (E := E)).Fair fun k => k.dependency.mandatory = false where
  event _ := rfl
  same _ := rfl
  enter hP _ _ _ := by simp [notices, counting, Callback.isNotice, Callback.notice?, hP]
  leave hP _ _ := by simp [notices, counting, Callback.isNotice, Callback.notice?, hP]
  clear _ _ _ := rfl

end Account

/-! ## Who hears what -/

theorem heard_zero (who : ListenerTag → Bool) (listeners : List (Attached E)) :
    heard who 0 listeners = 0 := by
  induction listeners with
  | nil => rfl
  | cons l listeners ih =>
    rw [heard_cons, ih, ite_self]
    rfl

/-- What has no weight is heard in every collection as it is in this one. -/
theorem heard_zero_eq_ite (who : ListenerTag → Bool) (listeners : List (Attached E)) (c d : Nat) :
    heard who 0 listeners = if d = c then 0 else 0 := by
  rw [heard_zero, ite_self]

theorem heard_of_none {who : ListenerTag → Bool} {listeners : List (Attached E)}
    (hno : ∀ l ∈ listeners, ¬ who l.tag = true) (weight : Int) :
    heard who weight listeners = 0 := by
  induction listeners with
  | nil => rfl
  | cons l listeners ih =>
    rw [heard_cons, if_neg (hno l List.mem_cons_self),
      ih fun a ha => hno a (List.mem_cons_of_mem _ ha)]
    rfl

/-- A listener hears once what its collection announces. -/
theorem heard_of_nodup {listeners : List (Attached E)}
    (hn : (listeners.map Attached.key).Nodup) {l : Attached E} (hl : l ∈ listeners) (weight : Int) :
    heard (· == l.tag) weight listeners = weight := by
  induction listeners with
  | nil => cases hl
  | cons a listeners ih =>
    obtain ⟨ha, hn⟩ := List.nodup_cons.1 hn
    -- the others have other numbers, and a tag with another number is another tag
    have hother : ∀ b ∈ listeners, b.key ≠ a.key := fun b hb hab =>
      ha (hab ▸ List.mem_map_of_mem hb)
    rcases List.mem_cons.1 hl with rfl | hl
    · have hrest : heard (· == l.tag) weight listeners = 0 := by
        refine heard_of_none (fun b hb hbl => hother b hb ?_) weight
        exact congrArg ListenerTag.key (beq_iff_eq.1 hbl)
      rw [heard_cons, hrest, if_pos (beq_self_eq_true _)]
      exact Int.add_zero _
    · have hne : ¬ (a.tag == l.tag) = true := fun hal =>
        hother l hl (congrArg ListenerTag.key (beq_iff_eq.1 hal)).symm
      rw [heard_cons, ih hn hl, if_neg hne]
      exact Int.zero_add _

/-- A listener of a collection hears of that collection only. -/
theorem Hub.KeyedBy.heard {select : Collection E → List (Attached E)} {h : Hub E}
    (hk : h.KeyedBy select) {c : Nat} {l : Attached E} (hl : l ∈ select (h.collection c)) (d : Nat)
    (weight : Int) :
    LiveServices.heard (· == l.tag) weight (select (h.collection d)) =
      if d = c then weight else 0 := by
  split
  · next hd =>
    subst hd
    exact heard_of_nodup (hk.nodup d) hl weight
  · next hd =>
    refine heard_of_none (fun a ha hal => hd ?_) weight
    rw [← hk.home ha, ← hk.home hl]
    exact congrArg ListenerTag.home (beq_iff_eq.1 hal)

/-! ## From the first event on -/

variable [ServiceEntry E]

/-- A collection that nothing happened to yet: it is empty, and its listeners were told nothing. -/
structure Hub.Untouched (h : Hub E) (c : Nat) : Prop where
  index : (h.collection c).index = []
  size : (h.collection c).size = 0
  lifecycle : ∀ l ∈ (h.collection c).lifecycleListeners, h.history l.tag = []
  state : ∀ l ∈ (h.collection c).stateListeners, h.history l.tag = []

/-- What an account of a collection needs of a hub: the numbers of listeners apart, coherent
collections, equality an equivalence, and something of the collection itself. -/
structure Hub.Ready (c : Nat) (R : Collection E → Prop) (h : Hub E) : Prop where
  keyed : h.Keyed
  coherent : h.Coherent
  equivalent : (h.collection c).factory.EntriesEquivalent
  collection : R (h.collection c)

/-- An account is watched as long as the hub is ready for it, if what it needs of the collection
lasts while the collection grows. -/
theorem Watch.of_ready {a : Account E} {P R : Collection E → Prop} {c : Nat}
    {who : ListenerTag → Bool} (hfair : a.Fair P)
    (hgrown : ∀ {n : Nat} {k k' : Collection E}, k.Grown n k' → R k → R k')
    (hlevel : ∀ {k : Collection E}, k.factory.EntriesEquivalent → R k → P k)
    (hhears : ∀ {h : Hub E}, h.Ready c R → h.Hears a c who) : Watch a P c who (Hub.Ready c R) where
  fair := hfair
  sure hs hQ := by
    have hg := hs.onward.collection c
    refine ⟨hs.keyed hQ.keyed, hs.coherent hQ.coherent, ?_, hgrown hg hQ.collection⟩
    rw [hg.factory]
    exact hQ.equivalent
  coherent hQ := hQ.coherent
  equivalent hQ := hQ.equivalent
  level hQ := hlevel hQ.equivalent hQ.collection
  hears := hhears

namespace Watch

variable {c : Nat} {l : Attached E}

theorem services (id : UInt64) :
    Watch (Account.services id) (fun _ => True) c (· == l.tag)
      (Hub.Ready c fun k => l ∈ k.lifecycleListeners) := by
  refine .of_ready (Account.fair_services id) (fun hg hl => ?_) (fun _ _ => trivial) (fun hQ => ?_)
  · obtain ⟨fresh, hall, -⟩ := hg.lifecycle
    rw [hall]
    exact List.mem_append_left _ hl
  · refine ⟨fun d e r => hQ.keyed.lifecycle.heard hQ.collection d _,
      fun d e r => hQ.keyed.lifecycle.heard hQ.collection d _, fun d n _ => ?_, fun d n _ => ?_⟩
    all_goals exact heard_zero_eq_ite ..

theorem states :
    Watch Account.states
      (fun k => k.factory.EntriesEquivalent ∧ k.dependency.mandatory = true) c (· == l.tag)
      (Hub.Ready c fun k => k.dependency.mandatory = true ∧ l ∈ k.stateListeners) := by
  refine .of_ready Account.fair_states (fun hg hk => ⟨?_, ?_⟩) (fun heq hk => ⟨heq, hk.1⟩)
    (fun hQ => ?_)
  · rw [hg.dependency]
    exact hk.1
  · obtain ⟨fresh, hall, -⟩ := hg.state
    rw [hall]
    exact List.mem_append_left _ hk.2
  · refine ⟨fun d e r => ?_, fun d e r => ?_,
      fun d n _ => hQ.keyed.state.heard hQ.collection.2 d _,
      fun d n _ => hQ.keyed.state.heard hQ.collection.2 d _⟩
    all_goals exact heard_zero_eq_ite ..

/-- Of the listeners that watch a collection without a mandatory dependency, all at once. -/
theorem notices :
    Watch Account.notices (fun k => k.dependency.mandatory = false) c (·.home == c)
      (Hub.Ready (E := E) c fun k => k.dependency.mandatory = false) := by
  refine .of_ready Account.fair_notices (fun hg hk => ?_) (fun _ hk => hk) (fun {h} hQ => ?_)
  · rw [hg.dependency]
    exact hk
  · have helsewhere : ∀ (d : Nat) (weight : Int), (h.collection d).dependency.mandatory = true →
        heard (·.home == c) weight (h.collection d).stateListeners =
          if d = c then weight else 0 := by
      intro d weight hm
      -- a mandatory collection is another one, and its listeners do not watch this one
      have hd : d ≠ c := by
        rintro rfl
        rw [hQ.collection] at hm
        cases hm
      rw [if_neg hd]
      refine heard_of_none (fun a ha hac => hd ?_) weight
      rw [← hQ.keyed.state.home ha]
      exact beq_iff_eq.1 hac
    refine ⟨fun d e r => ?_, fun d e r => ?_, fun d n => helsewhere d _, fun d n => helsewhere d _⟩
    all_goals exact heard_zero_eq_ite ..

end Watch

omit [ServiceEntry E] in
/-- In the hub of some plans nobody was told anything. -/
theorem Hub.told_ofPlans (plans : List (Plan E)) (who : ListenerTag → Bool) :
    (ofPlans plans).told who = [] := by
  refine ofPlans_induction (I := fun h => h.told who = []) plans rfl fun h plan _ hh => ?_
  rcases addCollection_eq h plan with ⟨k, -, hadd⟩ | hadd
  · rw [hadd]
    exact hh
  · rw [hadd]
    exact hh

/-- **Accounting.** Take a run from plans to a hub in which nothing happened to a collection
yet, and any run that goes on from there, and let equality be an equivalence on what the factory
makes. Of each service a lifecycle listener of the first hub was told one more addition than
removal if the service is in the collection in the end, and as many otherwise. If the dependency
is mandatory, a state listener of the first hub was told once more that it came to be met than
that it ceased to be, if the collection has an entry in the end, and as often otherwise. If it
is not mandatory, no state listener of the collection was ever told of the state. -/
theorem callbacks_balance {plans : List (Plan E)} {depth depth' : Nat}
    {setup commands : List (Command E)} {answers answers' : List Answer} {h₀ h : Hub E} {c : Nat}
    (hsetup : (Hub.ofPlans plans).runAll depth setup = .ok (answers, h₀))
    (hr : h₀.runAll depth' commands = .ok (answers', h)) (hu : h₀.Untouched c)
    (heq : (h₀.collection c).factory.EntriesEquivalent) :
    (∀ l ∈ (h₀.collection c).lifecycleListeners, ∀ id,
      ((h.history l.tag).countP (Callback.isBind id) : Int) -
        (h.history l.tag).countP (Callback.isUnbind id) =
          if id ∈ (h.collection c).identities then 1 else 0) ∧
    ((h₀.collection c).dependency.mandatory = true →
      ∀ l ∈ (h₀.collection c).stateListeners,
      ((h.history l.tag).countP Callback.isSatisfied : Int) -
        (h.history l.tag).countP Callback.isUnsatisfied =
          if (h.collection c).size = 0 then 0 else 1) ∧
    ((h₀.collection c).dependency.mandatory = false →
      ∀ l ∈ (h.collection c).stateListeners, ∀ callback ∈ h.history l.tag,
        callback.isNotice = false) := by
  have hkeyed := Hub.keyed_runAll hsetup
  have hcoherent := Hub.coherent_runAll hsetup
  have hids : (h₀.collection c).identities = [] := by
    rw [Collection.identities, hu.index, List.map_nil]
  refine ⟨fun l hl id => ?_, fun hm l hl => ?_, fun hm l hl callback hc => ?_⟩
  · have hstart : (Account.services id).balance c (· == l.tag) h₀ = 0 := by
      have htold : h₀.told (· == l.tag) = [] := hu.lifecycle l hl
      rw [Account.services, Account.balance_counting, htold, if_neg]
      · rfl
      · rw [hids]
        exact List.not_mem_nil
    have hend := (Watch.services id).balance_runAll ⟨hkeyed, hcoherent, heq, hl⟩ hr
    rw [hstart, Account.services, Account.balance_counting] at hend
    exact Int.sub_eq_zero.1 hend
  · have hstart : Account.states.balance c (· == l.tag) h₀ = 0 := by
      have htold : h₀.told (· == l.tag) = [] := hu.state l hl
      rw [Account.states, Account.balance_counting, htold, if_pos hu.size]
      rfl
    have hend := Watch.states.balance_runAll ⟨hkeyed, hcoherent, heq, hm, hl⟩ hr
    rw [hstart, Account.states, Account.balance_counting] at hend
    exact Int.sub_eq_zero.1 hend
  · -- This part is about all listeners of the collection, also those attached later, so the
    -- count starts from the plans.
    have hsetup' := (Hub.onward_runAll hsetup).collection c
    have hr' := (Hub.onward_runAll hr).collection c
    have hnone : Account.notices.balance c (·.home == c) (Hub.ofPlans plans) = 0 := by
      rw [Account.notices, Account.balance_counting, Hub.told_ofPlans]
      rfl
    have hfirst := Watch.notices.balance_runAll ⟨Hub.keyed_ofPlans plans, .ofPlans plans,
      hsetup'.factory ▸ heq, hsetup'.dependency ▸ hm⟩ hsetup
    have hthen := Watch.notices.balance_runAll ⟨hkeyed, hcoherent, heq, hm⟩ hr
    rw [hfirst, hnone, Account.notices, Account.balance_counting] at hthen
    have hcount : (h.told (·.home == c)).countP Callback.isNotice = 0 := by
      have hno : (h.told (·.home == c)).countP (fun _ => false) = 0 := by simp
      rw [hno] at hthen
      omega
    obtain ⟨tag, glimpse, hcalled, htag⟩ := Hub.mem_told.1 hc
    have hhome : (tag.home == c) = true := by
      rw [beq_iff_eq.1 htag]
      exact beq_iff_eq.2 ((hkeyed.of_runAll hr).state.home hl)
    have hmem : callback ∈ h.told (·.home == c) := Hub.mem_told.2 ⟨tag, glimpse, hcalled, hhome⟩
    simpa using List.countP_eq_zero.1 hcount callback hmem

/-! ### A replacement announced before the loss -/

/-- A mandatory dependency with a lifecycle listener that registers another service when the
first one was taken away, and then panics. -/
def Plan.relay : Plan Entry where
  hasRegistry := true
  factory := some .reference
  filter := some ⟨"", .and []⟩
  lifecycleListeners := [.mk "relay" .silent fun _ callback =>
    match callback with
    | .unbind _ r => if r.id == 1 then .mk [.register .empty] (.panic none) else .silent
    | _ => .silent]
  stateListeners := [.mk "watcher" .silent fun _ _ => .silent]

/-- The second service stands in for the first before the listeners have heard that it is gone;
in the end they were told what there is. -/
theorem callbacks_balance_relay : ∃ answers h,
    (Hub.ofPlans [Plan.relay]).runAll 0 [] = .ok ([], Hub.ofPlans [Plan.relay]) ∧
    (Hub.ofPlans [Plan.relay]).runAll 3 [.start 0, .register .empty, .unregister 1] =
      .ok (answers, h) ∧
    (Hub.ofPlans [Plan.relay]).Untouched 0 ∧
    ((Hub.ofPlans [Plan.relay]).collection 0).factory.EntriesEquivalent ∧
    (∀ l ∈ ((Hub.ofPlans [Plan.relay]).collection 0).lifecycleListeners, ∀ id,
      ((h.history l.tag).countP (Callback.isBind id) : Int) -
        (h.history l.tag).countP (Callback.isUnbind id) = if id ∈ [(2 : UInt64)] then 1 else 0) ∧
    ∀ l ∈ ((Hub.ofPlans [Plan.relay]).collection 0).stateListeners,
      ((h.history l.tag).countP Callback.isSatisfied : Int) -
        (h.history l.tag).countP Callback.isUnsatisfied = 1 := by
  obtain ⟨⟨answers, h⟩, hr, hseen⟩ := Run.exists_of_map_eq_ok
    (f := fun p : List Answer × Hub Entry =>
      ((p.2.collection 0).identities, (p.2.collection 0).size))
    (show ((Hub.ofPlans [Plan.relay]).runAll 3 [.start 0, .register .empty, .unregister 1]).map _ =
      .ok ([2], 1) by decide +kernel)
  obtain ⟨hids, hsize⟩ := Prod.mk.inj hseen
  have hsetup : (Hub.ofPlans [Plan.relay]).runAll 0 [] = .ok ([], Hub.ofPlans [Plan.relay]) := rfl
  have hu : (Hub.ofPlans [Plan.relay]).Untouched 0 :=
    ⟨rfl, rfl, fun l _ => Hub.told_ofPlans _ _, fun l _ => Hub.told_ofPlans _ _⟩
  have heq : ((Hub.ofPlans [Plan.relay]).collection 0).factory.EntriesEquivalent := by
    refine Factory.entriesEquivalent_of_no_ghost ?_
    rintro e ⟨serial, r, release, hmade⟩
    cases hmade
    rfl
  obtain ⟨hservices, hstates, -⟩ := callbacks_balance hsetup hr hu heq
  refine ⟨answers, h, hsetup, hr, hu, heq, fun l hl id => ?_, fun l hl => ?_⟩
  · rw [hservices l hl id, hids]
  · rw [hstates rfl l hl, hsize]
    rfl

end LiveServices
