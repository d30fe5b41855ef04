import LiveServices.Proofs.Index.Correspondence
import Mathlib.Algebra.Ring.Int.Defs

/-!
# Balances of callbacks

A listener is told of every change of its collection, but it is told after the change, and in
between other listeners change the collection again. So at no single moment can a listener work
out the state of the collection from what it was told so far. What is kept is the balance: the
difference between what the callbacks of some listeners count and the level that the collection
is at (`Account.balance`).

An account weighs callbacks. It is fair (`Account.Fair`) if the level goes up and down, when a
service enters or leaves, by the weights of just those callbacks that announce it. A section
changes the level at once and leaves the balance short by these weights; the announcement that
follows makes up for it, because the listeners that are counted hear it once (`Hub.Hears`) and
commands nested in it keep the balance by induction. This is `course_balance`, and with it
`balance_runAll`: a run as a whole keeps the balance.

A shutdown ends by throwing away what is left. Nothing is left then: the collection was closed
first, and a closed collection loses services only (`Run.index_of_removeAll`).
-/

namespace LiveServices

variable {E : Type} [ServiceEntry E]

/-! ## What runs are sure to keep -/

/-- The second hub comes after the first, and keeps the numbers of listeners apart and the
collections coherent if the first did. -/
def Hub.Sure (h h' : Hub E) : Prop :=
  h.Onward h' ∧ Hub.Preserves Hub.Keyed h h' ∧ Hub.Preserves Hub.Coherent h h'

namespace Hub.Sure

variable {h h' : Hub E}

instance : Law (Sure (E := E)) where
  aside ha := ⟨.of_aside ha, Law.aside ha, Law.aside ha⟩
  trans h₁₂ h₂₃ := ⟨h₁₂.1.trans h₂₃.1, Law.trans h₁₂.2.1 h₂₃.2.1, Law.trans h₁₂.2.2 h₂₃.2.2⟩

theorem onward (hs : h.Sure h') : h.Onward h' := hs.1

theorem keyed (hs : h.Sure h') (hk : h.Keyed) : h'.Keyed := hs.2.1 hk

theorem coherent (hs : h.Sure h') (hk : h.Coherent) : h'.Coherent := hs.2.2 hk

end Hub.Sure

namespace Run

/-- Every kind of step is sure to keep these. -/
theorem steps_sure : Steps (E := E) Hub.Sure :=
  steps_onward.and (steps_keyed.and steps_coherent)

end Run

/-! ## Accounts -/

/-- What the callbacks of a listener count, and the level of a collection that they should come
to. -/
structure Account (E : Type) where
  weight : Callback E → Int
  level : Collection E → Int

/-- What these listeners add to a tally when each is told something of this weight. -/
def heard (who : ListenerTag → Bool) (weight : Int) (listeners : List (Attached E)) : Int :=
  (listeners.map fun l => if who l.tag = true then weight else 0).sum

omit [ServiceEntry E] in
theorem heard_cons (who : ListenerTag → Bool) (weight : Int) (l : Attached E)
    (listeners : List (Attached E)) : heard who weight (l :: listeners) =
      (if who l.tag = true then weight else 0) + heard who weight listeners := List.sum_cons

namespace Account

/-- What the callbacks of some listeners come to, less the level of a collection. -/
def balance (a : Account E) (c : Nat) (who : ListenerTag → Bool) (h : Hub E) : Int :=
  ((h.told who).map a.weight).sum - a.level (h.collection c)

/-- The level of a collection goes up and down by the weights of the callbacks that tell of it. -/
structure Fair (a : Account E) (P : Collection E → Prop) : Prop where
  event : ∀ e, a.weight (.event e) = 0
  same : ∀ {k k' : Collection E}, k.SameEntries k' → a.level k' = a.level k
  enter : ∀ {k : Collection E} {holding : Holding E}, P k → k.Sound →
    k.hasIdentity holding.id = false → (k.storage.append k.mode holding.entry).1 = true →
    a.level (k.enter holding) = a.level k + a.weight (.bind holding.entry holding.reference) +
      if (k.dependency.mandatory && (k.enter holding).size == 1) = true
      then a.weight (.satisfied k.dependency) else 0
  leave : ∀ {k : Collection E} {holding : Holding E} {id : UInt64}, P k → k.Sound →
    Roster.find? Holding.id id k.index = some holding →
    a.level (k.leave holding) = a.level k + a.weight (.unbind holding.entry holding.reference) +
      if (k.dependency.mandatory && (k.leave holding).size == 0) = true
      then a.weight (.unsatisfied k.dependency) else 0
  clear : ∀ {k : Collection E}, P k → k.Sound → k.index = [] → a.level k.cleared = a.level k

end Account

/-- Of what is told about collections, these listeners hear once what is told about this one, as
far as it has a weight. -/
structure Hub.Hears (a : Account E) (c : Nat) (who : ListenerTag → Bool) (h : Hub E) : Prop where
  bind : ∀ d e r, heard who (a.weight (.bind e r)) (h.collection d).lifecycleListeners =
    if d = c then a.weight (.bind e r) else 0
  unbind : ∀ d e r, heard who (a.weight (.unbind e r)) (h.collection d).lifecycleListeners =
    if d = c then a.weight (.unbind e r) else 0
  satisfied : ∀ d n, (h.collection d).dependency.mandatory = true →
    heard who (a.weight (.satisfied n)) (h.collection d).stateListeners =
    if d = c then a.weight (.satisfied n) else 0
  unsatisfied : ∀ d n, (h.collection d).dependency.mandatory = true →
    heard who (a.weight (.unsatisfied n)) (h.collection d).stateListeners =
    if d = c then a.weight (.unsatisfied n) else 0

/-- As long as `Q` holds of the hub, `P` holds of the collection, the account is fair to it, and
the listeners hear of it. -/
structure Watch (a : Account E) (P : Collection E → Prop) (c : Nat) (who : ListenerTag → Bool)
    (Q : Hub E → Prop) : Prop where
  fair : a.Fair P
  sure : ∀ {h h'}, h.Sure h' → Q h → Q h'
  coherent : ∀ {h}, Q h → h.Coherent
  equivalent : ∀ {h}, Q h → (h.collection c).factory.EntriesEquivalent
  level : ∀ {h}, Q h → P (h.collection c)
  hears : ∀ {h}, Q h → h.Hears a c who

/-- What is sure is kept, and so is the balance as long as `Q` holds. -/
structure Hub.Balanced (a : Account E) (c : Nat) (who : ListenerTag → Bool) (Q : Hub E → Prop)
    (h h' : Hub E) : Prop where
  sure : h.Sure h'
  balance : Q h → a.balance c who h' = a.balance c who h

/-! ## Steps and balances -/

namespace Watch

variable {a : Account E} {P : Collection E → Prop} {c : Nat} {who : ListenerTag → Bool}
  {Q : Hub E → Prop} (w : Watch a P c who Q) {h h' : Hub E} {nested : Nested E}

omit [ServiceEntry E] in
theorem balance_eq (ht : ∃ recent, h'.trace = recent ++ h.trace ∧ ∀ m ∈ recent, m.IsSilent)
    (hl : a.level (h'.collection c) = a.level (h.collection c)) :
    a.balance c who h' = a.balance c who h := by
  rw [Account.balance, Hub.told_eq ht, hl, Account.balance]

omit [ServiceEntry E] in
/-- The beginning of a call adds the weight of the callback to the balance. -/
theorem balance_called (h : Hub E) (tag : ListenerTag) (callback : Callback E) (g : Glimpse) :
    a.balance c who (h.record (.called tag callback g)) =
      a.balance c who h + if who tag = true then a.weight callback else 0 := by
  rw [Account.balance, Hub.told_record_called, Hub.collection_record, Account.balance]
  split
  · rw [List.map_cons, List.sum_cons]
    omega
  · omega

include w

theorem law : Hub.Law (Hub.Balanced a c who Q) where
  aside ha := by
    refine ⟨Hub.Law.aside ha, fun _ => balance_eq ?_ ?_⟩
    · obtain ⟨recent, ht, hm⟩ := ha.trace
      exact ⟨recent, ht, fun m hmem => (hm m hmem).isSilent⟩
    · have hs := ha.stock c
      exact w.fair.same ⟨hs.factory, hs.index, hs.items⟩
  trans h₁₂ h₂₃ :=
    ⟨Hub.Law.trans h₁₂.sure h₂₃.sure,
      fun hQ => (h₂₃.balance (w.sure h₁₂.sure hQ)).trans (h₁₂.balance hQ)⟩

/-- A decision about a service leaves the balance short by what is to be announced. -/
theorem balance_considered {d : Nat} {r : ServiceReference}
    {result : Except Trouble (Admission E)} (hc : Considered d r h result h') (hQ : Q h) :
    a.balance c who h' = a.balance c who h -
      match result with
      | .ok (.admitted entry first) => if d = c then a.weight (.bind entry r) +
          (if first = true then a.weight (.satisfied (h.collection d).dependency) else 0) else 0
      | _ => 0 := by
  have hs := hc.toSection
  have hhist := Hub.told_eq hs.trace who
  by_cases hd : d = c
  · subst hd
    cases hc with
    | ignored | failed | panicked | refused =>
      rw [Account.balance, hhist, Account.balance]
      exact (Int.sub_zero _).symm
    | @admitted recent entry release ho hn hm ht hsh =>
      have hlen : d < (h.creation d r.id release.isSome).collections.length :=
        Hub.lt_length_of_open (h := h) ho
      have hlevel := w.fair.enter (w.level hQ) ((w.coherent hQ).now d)
        (show (h.collection d).hasIdentity
          (Holding.id ⟨h.attempts + 1, entry, r, release⟩) = false from hn) ht
      rw [Account.balance, hhist, Hub.collection_setTo_self hlen, hlevel, Account.balance]
      simp only [if_true]
      omega
  · -- a decision in another collection leaves this one alone, and announces nothing about it
    have hsame := hs.others c (fun hcd => hd hcd.symm)
    have hzero : (match result with
        | .ok (.admitted entry first) => if d = c then a.weight (.bind entry r) +
            (if first = true then a.weight (.satisfied (h.collection d).dependency) else 0) else 0
        | _ => 0) = (0 : Int) := by
      split
      · rw [if_neg hd]
      · rfl
    rw [hzero, Account.balance, hhist, hsame, Account.balance, Int.sub_zero]

/-- The retraction of a service leaves the balance over by what is to be announced. -/
theorem balance_retracted {d : Nat} {id : UInt64} {result : Option (Removal E)}
    (hc : Retracted d id h result h') (hQ : Q h) :
    a.balance c who h' = a.balance c who h -
      match result with
      | some removal => if d = c then
          a.weight (.unbind removal.holding.entry removal.holding.reference) +
          (if removal.isLast = true then a.weight (.unsatisfied (h.collection d).dependency) else 0)
          else 0
      | none => 0 := by
  have hs := hc.toSection
  have hhist := Hub.told_eq hs.trace who
  by_cases hd : d = c
  · subst hd
    cases hc with
    | absent =>
      rw [Account.balance, hhist, Account.balance]
      exact (Int.sub_zero _).symm
    | @found recent holding hf hsh =>
      have hlen : d < h.collections.length := by
        refine Hub.lt_length_of_index fun hnil => ?_
        rw [hnil] at hf
        cases hf
      have hlevel := w.fair.leave (w.level hQ) ((w.coherent hQ).now d) hf
      rw [Account.balance, hhist, Hub.collection_setTo_self hlen, hlevel, Account.balance]
      simp only [if_true]
      omega
  · have hsame := hs.others c (fun hcd => hd hcd.symm)
    have hzero : (match result with
        | some removal => if d = c then
            a.weight (.unbind removal.holding.entry removal.holding.reference) +
            (if removal.isLast = true then a.weight (.unsatisfied (h.collection d).dependency)
              else 0) else 0
        | none => 0) = (0 : Int) := by
      split
      · rw [if_neg hd]
      · rfl
    rw [hzero, Account.balance, hhist, hsame, Account.balance, Int.sub_zero]

variable (hn : ∀ command, Run.Keeps (Hub.Balanced a c who Q) (nested command))
include hn

omit w in
theorem nested_sure (command : Command E) : Run.Keeps Hub.Sure (nested command) :=
  (hn command).mono fun hs => hs.sure

/-- A call adds the weight of the callback to the balance, whatever commands the listener gives. -/
theorem balance_call {l : Attached E} {callback : Callback E} {finish : Finish}
    (hr : Run.call nested l callback h = .ok (finish, h')) (hQ : Q h) :
    a.balance c who h' =
      a.balance c who h + if who l.tag = true then a.weight callback else 0 := by
  have := w.law
  obtain ⟨g, hgive⟩ := Run.call_ok hr
  have hcalled := Run.steps_sure.called h l.tag callback g
  have hnote (command : Command E) (answer : Answer) : Run.Keeps (Hub.Balanced a c who Q)
      (Run.record (.commanded l.tag command.name answer)) := .record trivial
  have hrest := Run.Keeps.give (fun command _ => hn command) hnote _ hgive
  rw [hrest.balance (w.sure hcalled hQ), balance_called]

/-- A round of calls adds what the listeners hear of them. -/
theorem balance_callAll {what : Guarded} {service : UInt64} {callback : Callback E}
    {listeners : List (Attached E)} {u : Unit}
    (hr : Run.callAll nested what service callback listeners h = .ok (u, h')) (hQ : Q h) :
    a.balance c who h' = a.balance c who h + heard who (a.weight callback) listeners := by
  have := w.law
  -- the hub in which the round goes on is the one that the first listener leaves
  induction listeners generalizing h with
  | nil =>
    obtain ⟨-, rfl⟩ := Run.pure_eq_ok.1 hr
    exact (Int.add_zero _).symm
  | cons l listeners ih =>
    obtain ⟨_, h₂, hone, hrest⟩ := Run.bind_eq_ok.1 hr
    obtain ⟨finish, h₁, hcall, hsettle⟩ := Run.bind_eq_ok.1 hone
    have hcalled := Run.steps_sure.call (nested_sure hn) l callback hcall
    have hsettled : Hub.Balanced a c who Q h₁ h₂ :=
      Run.Keeps.bind (.settle ..) (fun _ => .pure _) hsettle
    have hQ₁ := w.sure hcalled hQ
    rw [ih hrest (w.sure hsettled.sure hQ₁), hsettled.balance hQ₁, w.balance_call hn hcall hQ,
      heard_cons]
    omega

/-- The listeners are read first, and the round is among those that were there then. -/
theorem balance_round {what : Guarded} {service : UInt64} {callback : Callback E}
    {read : Run E (List (Attached E))} {listeners : List (Attached E)} {u : Unit}
    (hkeeps : Run.Keeps (Hub.Balanced a c who Q) read)
    (hread : ∀ {found g}, read h = .ok (found, g) → found = listeners)
    (hr : (read >>= Run.callAll nested what service callback) h = .ok (u, h')) (hQ : Q h) :
    a.balance c who h' = a.balance c who h + heard who (a.weight callback) listeners := by
  obtain ⟨found, h₁, hfound, hcall⟩ := Run.bind_eq_ok.1 hr
  obtain rfl := hread hfound
  have hstep := hkeeps hfound
  rw [w.balance_callAll hn hcall (w.sure hstep.sure hQ), hstep.balance hQ]

theorem balance_bind {d : Nat} {entry : E} {r : ServiceReference} {u : Unit}
    (hr : Run.bind nested d entry r h = .ok (u, h')) (hQ : Q h) :
    a.balance c who h' =
      a.balance c who h + if d = c then a.weight (.bind entry r) else 0 := by
  have := w.law
  rw [w.balance_round hn (.lifecycleListeners d) Run.lifecycleListeners_ok hr hQ,
    (w.hears hQ).bind]

theorem balance_unbind {d : Nat} {entry : E} {r : ServiceReference} {u : Unit}
    (hr : Run.unbind nested d entry r h = .ok (u, h')) (hQ : Q h) :
    a.balance c who h' =
      a.balance c who h + if d = c then a.weight (.unbind entry r) else 0 := by
  have := w.law
  rw [w.balance_round hn (.lifecycleListeners d) Run.lifecycleListeners_ok hr hQ,
    (w.hears hQ).unbind]

theorem balance_satisfied {d : Nat} {service : UInt64} {u : Unit}
    (hr : Run.satisfied nested d service h = .ok (u, h')) (hQ : Q h)
    (hm : (h.collection d).dependency.mandatory = true) :
    a.balance c who h' = a.balance c who h +
      if d = c then a.weight (.satisfied (h.collection d).dependency) else 0 := by
  have := w.law
  rw [Run.satisfied, Run.collection_bind] at hr
  rw [w.balance_round hn (.stateListeners d) Run.stateListeners_ok hr hQ,
    (w.hears hQ).satisfied d _ hm]

theorem balance_unsatisfied {d : Nat} {service : UInt64} {u : Unit}
    (hr : Run.unsatisfied nested d service h = .ok (u, h')) (hQ : Q h)
    (hm : (h.collection d).dependency.mandatory = true) :
    a.balance c who h' = a.balance c who h +
      if d = c then a.weight (.unsatisfied (h.collection d).dependency) else 0 := by
  have := w.law
  rw [Run.unsatisfied, Run.collection_bind] at hr
  rw [w.balance_round hn (.stateListeners d) Run.stateListeners_ok hr hQ,
    (w.hears hQ).unsatisfied d _ hm]

/-- The announcement of an admission makes up for the rise of the level. -/
theorem balance_announceAdmission {d : Nat} {entry : E} {r : ServiceReference} {first : Bool}
    {u : Unit} (hr : Run.announceAdmission nested d entry r first h = .ok (u, h')) (hQ : Q h)
    (hm : first = true → (h.collection d).dependency.mandatory = true) :
    a.balance c who h' = a.balance c who h + if d = c then a.weight (.bind entry r) +
      (if first = true then a.weight (.satisfied (h.collection d).dependency) else 0) else 0 := by
  obtain ⟨_, h₁, hbind, hr⟩ := Run.bind_eq_ok.1 hr
  have hstep := Run.steps_sure.bind (nested_sure hn) d entry r hbind
  have hbal := w.balance_bind hn hbind hQ
  cases first with
  | true =>
    rw [if_pos rfl] at hr
    have hdep := (hstep.onward.collection d).dependency
    rw [w.balance_satisfied hn hr (w.sure hstep hQ) (hdep ▸ hm rfl), hdep, hbal]
    split
    · rw [if_pos rfl]
      omega
    · omega
  | false =>
    rw [if_neg Bool.false_ne_true] at hr
    obtain ⟨-, rfl⟩ := Run.pure_eq_ok.1 hr
    rw [hbal]
    split
    · rw [if_neg Bool.false_ne_true]
      omega
    · rfl

/-- The announcement of a removal makes up for the fall of the level. -/
theorem balance_announceRemoval {d : Nat} {removal : Removal E} {u : Unit}
    (hr : Run.announceRemoval nested d removal h = .ok (u, h')) (hQ : Q h)
    (hstored : d = c → removal.wasStored = true)
    (hm : removal.isLast = true → (h.collection d).dependency.mandatory = true) :
    a.balance c who h' = a.balance c who h + if d = c then
      a.weight (.unbind removal.holding.entry removal.holding.reference) +
      (if removal.isLast = true then a.weight (.unsatisfied (h.collection d).dependency) else 0)
      else 0 := by
  obtain ⟨holding, wasStored, isLast⟩ := removal
  cases wasStored with
  | false =>
    have hd : d ≠ c := fun hd => Bool.false_ne_true (hstored hd)
    obtain ⟨-, rfl⟩ := Run.pure_eq_ok.1 hr
    rw [if_neg hd]
    omega
  | true =>
    obtain ⟨_, h₁, hunbind, hr⟩ := Run.bind_eq_ok.1 hr
    have hstep := Run.steps_sure.unbind (nested_sure hn) d _ _ hunbind
    have hbal := w.balance_unbind hn hunbind hQ
    cases isLast with
    | true =>
      rw [if_pos rfl] at hr
      have hdep := (hstep.onward.collection d).dependency
      rw [w.balance_unsatisfied hn hr (w.sure hstep hQ) (hdep ▸ hm rfl), hdep, hbal]
      split
      · rw [if_pos rfl]
        omega
      · omega
    | false =>
      rw [if_neg Bool.false_ne_true] at hr
      obtain ⟨-, rfl⟩ := Run.pure_eq_ok.1 hr
      rw [hbal]
      split
      · rw [if_neg Bool.false_ne_true]
        omega
      · rfl

/-! ## Operations keep the balance -/

omit w hn in
/-- A release action is no callback. -/
theorem balanced_released (h : Hub E) (d serial : Nat) (service : UInt64) (census : Census)
    (announced : Bool) : Hub.Balanced a c who Q h
      { h.record (.releasing d serial service census announced) with
        released := serial :: h.released } :=
  ⟨Run.steps_sure.released h d serial service census announced, fun _ => rfl⟩

/-- A service that appears: the decision and its announcement cancel out. -/
theorem balanced_appeared (d : Nat) (r : ServiceReference) :
    Run.Keeps (Hub.Balanced a c who Q) (Run.apply nested d .appeared r) := by
  have := w.law
  intro h outcome h' hr
  refine ⟨(Run.steps_sure.course (nested_sure hn)).appeared d r hr, fun hQ => ?_⟩
  obtain ⟨result, h₁, hcons, hr⟩ := Run.bind_eq_ok.1 hr
  have hcons' := Run.consider_ok hcons
  have hstep := w.balance_considered hcons' hQ
  have hsure := Run.steps_sure.considered d r hcons
  have hQ₁ := w.sure hsure hQ
  cases result with
  | error t =>
    obtain ⟨-, rfl⟩ := Run.pure_eq_ok.1 hr
    rw [hstep, Int.sub_zero]
  | ok admission =>
    obtain ⟨_, h₂, hafter, hr⟩ := Run.bind_eq_ok.1 hr
    obtain ⟨-, rfl⟩ := Run.pure_eq_ok.1 hr
    cases admission with
    | ignored =>
      obtain ⟨-, rfl⟩ := Run.pure_eq_ok.1 hafter
      rw [hstep, Int.sub_zero]
    | refused serial release =>
      cases release with
      | none =>
        obtain ⟨-, rfl⟩ := Run.pure_eq_ok.1 hafter
        rw [hstep, Int.sub_zero]
      | some release =>
        have hrelease : Hub.Balanced a c who Q h₁ h₂ := by
          refine Run.Keeps.bind (.collection d) (fun k => ?_) hafter
          refine .bind (.runRelease (fun command _ => hn command) balanced_released ..)
            fun finish => ?_
          exact .bind (.settle ..) fun _ => .pure _
        rw [hrelease.balance hQ₁, hstep, Int.sub_zero]
    | admitted entry first =>
      obtain ⟨_, h₃, hannounce, hafter⟩ := Run.bind_eq_ok.1 hafter
      obtain ⟨-, rfl⟩ := Run.pure_eq_ok.1 hafter
      have hdep := (hsure.onward.collection d).dependency
      have hm : first = true → (h₁.collection d).dependency.mandatory = true := by
        intro hfirst
        rw [hdep]
        cases hcons'
        exact (Bool.and_eq_true_iff.1 hfirst).1
      rw [w.balance_announceAdmission hn hannounce hQ₁ hm, hstep, hdep]
      exact Int.sub_add_cancel ..

/-- A service that is taken away: the retraction and its announcement cancel out. -/
theorem balanced_removed (d : Nat) (id : UInt64) :
    Run.Keeps (Hub.Balanced a c who Q) (Run.remove nested d id) := by
  have := w.law
  intro h outcome h' hr
  refine ⟨Run.steps_sure.remove (nested_sure hn) d id hr, fun hQ => ?_⟩
  obtain ⟨result, h₁, hret, hr⟩ := Run.bind_eq_ok.1 hr
  have hret' := Run.retract_ok hret
  have hstep := w.balance_retracted hret' hQ
  have hsure := Run.steps_sure.retracted d id hret
  have hQ₁ := w.sure hsure hQ
  cases result with
  | none =>
    obtain ⟨-, rfl⟩ := Run.pure_eq_ok.1 hr
    rw [hstep, Int.sub_zero]
  | some removal =>
    -- A removal that found no item is not announced, so the balance needs one to be found.
    have hstored : d = c → removal.wasStored = true := by
      rintro rfl
      cases hret' with
      | found hf =>
        have hmem := List.mem_of_find?_eq_some hf
        exact ((w.coherent hQ).now d).removeOne_eq_true (w.equivalent hQ) hmem
    obtain ⟨_, h₂, hannounce, hr⟩ := Run.bind_eq_ok.1 hr
    obtain ⟨_, h₃, hlet, hr⟩ := Run.bind_eq_ok.1 hr
    obtain ⟨-, rfl⟩ := Run.pure_eq_ok.1 hr
    have hdep := (hsure.onward.collection d).dependency
    have hm : removal.isLast = true → (h₁.collection d).dependency.mandatory = true := by
      intro hlast
      rw [hdep]
      cases hret'
      exact (Bool.and_eq_true_iff.1 hlast).1
    have hannounced := Run.steps_sure.announceRemoval (nested_sure hn) d removal hannounce
    have hgone : Hub.Balanced a c who Q h₂ h₃ :=
      Run.Keeps.letGo (fun _ _ command _ => hn command) balanced_released _ hlet
    rw [hgone.balance (w.sure hannounced hQ₁),
      w.balance_announceRemoval hn hannounce hQ₁ hstored hm, hstep, hdep]
    exact Int.sub_add_cancel ..

theorem balanced_removeAll (d : Nat) (ids : List UInt64) :
    Run.Keeps (Hub.Balanced a c who Q) (Run.removeAll nested d ids) := by
  have := w.law
  induction ids with
  | nil => exact .pure _
  | cons id ids ih => exact .bind (w.balanced_removed hn d id) fun _ => .bind ih fun _ => .pure _

/-- A shutdown: the services are taken away one by one, and then there is nothing left. -/
theorem balanced_shutdown (d : Nat) :
    Run.Keeps (Hub.Balanced a c who Q) (Run.shutdown nested d) := by
  have := w.law
  intro h count h' hr
  refine ⟨(Run.steps_sure.course (nested_sure hn)).shutdown d hr, fun hQ => ?_⟩
  obtain ⟨live, h₁, hclose, hr⟩ := Run.bind_eq_ok.1 hr
  obtain ⟨n, h₂, hremove, hr⟩ := Run.bind_eq_ok.1 hr
  obtain ⟨_, h₃, hclear, hr⟩ := Run.bind_eq_ok.1 hr
  obtain ⟨-, rfl⟩ := Run.pure_eq_ok.1 hr
  have hclosed : Hub.Balanced a c who Q h h₁ := Run.Keeps.close d hclose
  have hQ₁ := w.sure hclosed.sure hQ
  have hremoved : Hub.Balanced a c who Q h₁ h₂ := w.balanced_removeAll hn d live hremove
  have hQ₂ := w.sure hremoved.sure hQ₁
  have hempty : (h₂.collection d).index = [] :=
    Run.index_of_removeAll (fun command => (nested_sure hn command).mono Hub.Sure.onward) hclose
      hremove
  rw [← hclosed.balance hQ, ← hremoved.balance hQ₁]
  refine balance_eq (Run.section_of_clear hclear).trace ?_
  obtain ⟨recent, -, rfl⟩ := Run.clear_ok hclear
  rw [Hub.collection_setTo]
  split
  · next hd =>
    obtain ⟨rfl, -⟩ := hd
    exact w.fair.clear (w.level hQ₂) ((w.coherent hQ₂).now c) hempty
  · rfl

/-- **Balance.** The operations keep the balance. -/
theorem course_balance : Run.Course nested (Hub.Balanced a c who Q) where
  observed l event h finish h' hr := by
    refine ⟨Run.steps_sure.call (nested_sure hn) l _ hr, fun hQ => ?_⟩
    rw [w.balance_call hn hr hQ, w.fair.event, ite_self, Int.add_zero]
  appeared := w.balanced_appeared hn
  removed := w.balanced_removed hn
  shutdown := w.balanced_shutdown hn
  lifecycle d l h u h' hr := by
    obtain ⟨hsame, ht⟩ := Run.addLifecycleListener_same hr
    exact ⟨Run.steps_sure.lifecycle d l hr,
      fun _ => balance_eq (Hub.silent_of_eq ht) (w.fair.same (hsame c))⟩
  state d l h u h' hr := by
    obtain ⟨hsame, ht⟩ := Run.addStateListener_same hr
    exact ⟨Run.steps_sure.state d l hr,
      fun _ => balance_eq (Hub.silent_of_eq ht) (w.fair.same (hsame c))⟩

omit hn in
/-- **Runs.** A run as a whole keeps the balance, from any hub of which `Q` holds. -/
theorem balance_runAll {depth : Nat} {commands : List (Command E)} {answers : List Answer}
    (hQ : Q h) (hr : h.runAll depth commands = .ok (answers, h')) :
    a.balance c who h' = a.balance c who h := by
  have := w.law
  have hcourse (nested : Nested E) (hn : ∀ command, Run.Keeps (Hub.Balanced a c who Q)
      (nested command)) : Run.Course nested (Hub.Balanced a c who Q) := w.course_balance hn
  exact (Run.keeps_runAll (Run.keeps_run hcourse depth) hr).balance hQ

end Watch

end LiveServices
