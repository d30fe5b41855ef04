import LiveServices.Replay
import Mathlib.Algebra.BigOperators.Group.List.Basic
import Mathlib.Data.Multiset.AddSub
import Mathlib.Data.Multiset.OrderedMonoid
import Mathlib.Logic.Function.Basic

/-!
# What a replay comes to

A tally is what is left of a transcript if the numbers of services are left out, and the order in
which services are bound and unbound between two reads (`Transcript.tally`).

A muster keeps the services of a scenario by their names, without numbers: which of the live ones
the filter accepts, under which label each of them is bound, and the labels of all that are bound
(`Muster`). A muster goes through the steps of a scenario, and `Muster.play` is the tally of that.
Registrations of different names commute in it (`Muster.silently_perm`), because a tally of binds
and notices can be added in any place (`Tally.IsLoose.comm`).
-/

namespace LiveServices

/-! ## Tallies -/

/-- The steps and reads of a transcript in their order, the names that were bound and unbound, the
numbers of notices of either kind, and the numbers of services at the end of the importer. -/
@[ext] structure Tally where
  steps : List (Nat × String) := []
  reads : List (Option Nat × Multiset String × Option String) := []
  binds : Multiset (Option String) := 0
  unbinds : Multiset (Option String) := 0
  satisfied : Nat := 0
  unsatisfied : Nat := 0
  destroyed : List Nat := []

namespace Tally

instance : Zero Tally := ⟨{}⟩

instance : Add Tally := ⟨fun a b => {
  steps := a.steps ++ b.steps
  reads := a.reads ++ b.reads
  binds := a.binds + b.binds
  unbinds := a.unbinds + b.unbinds
  satisfied := a.satisfied + b.satisfied
  unsatisfied := a.unsatisfied + b.unsatisfied
  destroyed := a.destroyed ++ b.destroyed }⟩

instance : AddMonoid Tally where
  add_assoc a b c := by
    refine Tally.ext ?_ ?_ ?_ ?_ ?_ ?_ ?_
    · exact List.append_assoc ..
    · exact List.append_assoc ..
    · exact Multiset.add_assoc ..
    · exact Multiset.add_assoc ..
    · exact Nat.add_assoc ..
    · exact Nat.add_assoc ..
    · exact List.append_assoc ..
  zero_add a := by
    refine Tally.ext rfl rfl ?_ ?_ ?_ ?_ rfl
    · exact Multiset.zero_add _
    · exact Multiset.zero_add _
    · exact Nat.zero_add _
    · exact Nat.zero_add _
  add_zero a := by
    refine Tally.ext ?_ ?_ ?_ ?_ rfl rfl ?_
    · exact List.append_nil _
    · exact List.append_nil _
    · exact Multiset.add_zero _
    · exact Multiset.add_zero _
    · exact List.append_nil _
  nsmul := nsmulRec

/-- The tally of what is told of steps. -/
def ofSteps (steps : List (Nat × String)) : Tally := { steps := steps }

theorem ofSteps_cons (step : Nat × String) (steps : List (Nat × String)) :
    ofSteps (step :: steps) = ofSteps [step] + ofSteps steps := rfl

/-- The tally of binds under labels while these were bound already. -/
def ofGain (mandatory : Bool) (bound gained : Multiset String) : Tally where
  binds := gained.map some
  satisfied := if mandatory = true ∧ bound = 0 ∧ gained ≠ 0 then 1 else 0

/-- The tally of unbinds under labels that leave these bound. -/
def ofLoss (mandatory : Bool) (left lost : Multiset String) : Tally where
  unbinds := lost.map some
  unsatisfied := if mandatory = true ∧ left = 0 ∧ lost ≠ 0 then 1 else 0

@[simp] theorem ofGain_zero (mandatory : Bool) (bound : Multiset String) :
    ofGain mandatory bound 0 = 0 := by
  simp only [ofGain, ne_eq, not_true_eq_false, and_false, if_false]
  rfl

@[simp] theorem ofLoss_zero (mandatory : Bool) (left : Multiset String) :
    ofLoss mandatory left 0 = 0 := by
  simp only [ofLoss, ne_eq, not_true_eq_false, and_false, if_false]
  rfl

/-- Of two gains either may come first. -/
theorem ofGain_comm (mandatory : Bool) (bound gained gained' : Multiset String) :
    ofGain mandatory bound gained + ofGain mandatory (gained + bound) gained' =
      ofGain mandatory bound gained' + ofGain mandatory (gained' + bound) gained := by
  refine Tally.ext rfl rfl (Multiset.add_comm ..) rfl ?_ rfl rfl
  show (if _ then 1 else 0) + (if _ then 1 else 0) = (if _ then 1 else 0) + (if _ then 1 else 0)
  by_cases hg : gained = 0 <;> by_cases hg' : gained' = 0 <;> simp [hg, hg']

/-- A loss after a loss. -/
theorem ofLoss_add (mandatory : Bool) (left lost lost' : Multiset String) :
    ofLoss mandatory (lost' + left) lost + ofLoss mandatory left lost' =
      ofLoss mandatory left (lost + lost') := by
  refine Tally.ext rfl rfl rfl (Multiset.map_add ..).symm rfl ?_ rfl
  show (if _ then 1 else 0) + (if _ then 1 else 0) = if _ then 1 else 0
  by_cases hl : lost = 0 <;> by_cases hl' : lost' = 0 <;> simp [hl, hl']

/-- A tally of binds, unbinds and notices only. -/
structure IsLoose (a : Tally) : Prop where
  steps : a.steps = []
  reads : a.reads = []
  destroyed : a.destroyed = []

namespace IsLoose

variable {a : Tally}

/-- It does not matter when such things happen. -/
theorem comm (ha : a.IsLoose) (b : Tally) : a + b = b + a := by
  refine Tally.ext ?_ ?_ (Multiset.add_comm ..) (Multiset.add_comm ..) (Nat.add_comm ..)
    (Nat.add_comm ..) ?_
  · show a.steps ++ b.steps = b.steps ++ a.steps
    rw [ha.steps, List.append_nil, List.nil_append]
  · show a.reads ++ b.reads = b.reads ++ a.reads
    rw [ha.reads, List.append_nil, List.nil_append]
  · show a.destroyed ++ b.destroyed = b.destroyed ++ a.destroyed
    rw [ha.destroyed, List.append_nil, List.nil_append]

/-- It can be added after what is told of later steps. -/
theorem past_ofSteps (ha : a.IsLoose) (step : Nat × String) (steps : List (Nat × String))
    (b : Tally) : ofSteps [step] + a + (ofSteps steps + b) = ofSteps (step :: steps) + (a + b) :=
  calc ofSteps [step] + a + (ofSteps steps + b)
    _ = ofSteps [step] + (a + ofSteps steps + b) := by rw [add_assoc, add_assoc]
    _ = ofSteps [step] + (ofSteps steps + a + b) := by rw [ha.comm]
    _ = ofSteps (step :: steps) + (a + b) := by
        rw [ofSteps_cons step steps, add_assoc, add_assoc]

end IsLoose

end Tally

/-- What a record adds to a tally. -/
def Record.tally : Record → Tally
  | .step n text => { steps := [(n, text)] }
  | .initialized _ _ => 0
  | .bind _ name => { binds := {name} }
  | .unbind _ name => { unbinds := {name} }
  | .satisfied _ => { satisfied := 1 }
  | .unsatisfied _ => { unsatisfied := 1 }
  | .read size services error => { reads := [(size, services, error)] }
  | .destroyed n => { destroyed := [n] }

/-- The tally of a transcript. -/
def Transcript.tally (records : List Record) : Tally := (records.map Record.tally).sum

@[simp] theorem Transcript.tally_append (records more : List Record) :
    tally (records ++ more) = tally records + tally more := by
  rw [tally, List.map_append, List.sum_append]
  rfl

@[simp] theorem Transcript.tally_singleton (r : Record) : tally [r] = r.tally := add_zero r.tally

/-- Steps that are told of are in the tally. -/
theorem Transcript.tally_steps (steps : List (Nat × String)) :
    tally (steps.map fun step => .step step.1 step.2) = .ofSteps steps := by
  induction steps with
  | nil => rfl
  | cons step steps ih =>
    rw [Tally.ofSteps_cons, ← ih]
    rfl

/-! ## Musters -/

/-- What is known of a live service: whether the filter accepts it, and under which label it is
bound. -/
@[ext] structure Standing where
  wanted : Bool
  label? : Option String

namespace Standing

/-- The label under which a service is bound already. -/
def held? (standing? : Option Standing) : Option String := standing?.bind Standing.label?

/-- What is known of a service after it came, or got other properties. -/
def offered (standing? : Option Standing) (wanted : Bool) (label : String) : Standing :=
  ⟨wanted, (held? standing?).or (if wanted = true then some label else none)⟩

/-- What is bound then that was not. -/
def gained (standing? : Option Standing) (wanted : Bool) (label : String) : Multiset String :=
  if wanted = true ∧ held? standing? = none then {label} else 0

/-- What was bound and is not when the service goes. One that is not wanted any more stays bound. -/
def lost : Option Standing → Multiset String
  | some ⟨true, some label⟩ => {label}
  | _ => 0

end Standing

/-- The live services under their keys, and the labels of the services that are bound. A service
that is live no more may still be bound. -/
@[ext] structure Muster (κ : Type) where
  live : κ → Option Standing := fun _ => none
  bound : Multiset String := 0

namespace Muster

/-! ## One thing after the other -/

variable {κ α : Type} {f : α → Muster κ → Tally × Muster κ} {l l' : List α}

/-- What becomes of a muster when these things happen to it, and what that comes to. -/
def through (f : α → Muster κ → Tally × Muster κ) : List α → Muster κ → Tally × Muster κ
  | [], m => (0, m)
  | a :: l, m => ((f a m).1 + (through f l (f a m).2).1, (through f l (f a m).2).2)

theorem through_append (l l' : List α) (m : Muster κ) : m.through f (l ++ l') =
    ((m.through f l).1 + ((m.through f l).2.through f l').1,
      ((m.through f l).2.through f l').2) := by
  induction l generalizing m with
  | nil => exact Prod.ext (zero_add _).symm rfl
  | cons a l ih =>
    rw [List.cons_append, through, through, ih]
    exact Prod.ext (add_assoc ..).symm rfl

/-- Things that commute may happen in any order. -/
theorem through_perm (hp : l.Perm l')
    (hcomm : l.Pairwise fun a b => ∀ m, through f [a, b] m = through f [b, a] m) (m : Muster κ) :
    m.through f l = m.through f l' := by
  induction hp generalizing m with
  | nil => rfl
  | cons a _ ih => rw [through, through, ih (List.pairwise_cons.1 hcomm).2]
  | swap a b l =>
    have hswap := (List.pairwise_cons.1 hcomm).1 a List.mem_cons_self m
    show m.through f ([b, a] ++ l) = m.through f ([a, b] ++ l)
    rw [through_append, through_append, hswap]
  | trans hp _ ih ih' =>
    refine (ih hcomm m).trans (ih' (hcomm.perm hp fun hab m => ?_) m)
    exact (hab m).symm

/-! ## What may happen -/

variable [DecidableEq κ] {mandatory : Bool} {m : Muster κ} {key other : κ}
  {standing? : Option Standing} {bound : Multiset String}

/-- The muster with this known of a service, and with these labels bound. -/
def put (m : Muster κ) (key : κ) (standing? : Option Standing) (bound : Multiset String) :
    Muster κ := ⟨Function.update m.live key standing?, bound⟩

@[simp] theorem live_put_self : (m.put key standing? bound).live key = standing? :=
  Function.update_self ..

theorem live_put_of_ne (hne : other ≠ key) :
    (m.put key standing? bound).live other = m.live other := Function.update_of_ne hne ..

/-- A service comes, or gets other properties. -/
def offer (mandatory : Bool) (key : κ) (wanted : Bool) (label : String) (m : Muster κ) :
    Tally × Muster κ :=
  let gained := Standing.gained (m.live key) wanted label
  (.ofGain mandatory m.bound gained,
    m.put key (some (.offered (m.live key) wanted label)) (gained + m.bound))

/-- A service goes. -/
def retire (mandatory : Bool) (key : κ) (m : Muster κ) : Tally × Muster κ :=
  let lost := Standing.lost (m.live key)
  (.ofLoss mandatory (m.bound - lost) lost,
    m.put key none (m.bound - lost))

/-- What a read tells. -/
def reading (mandatory : Bool) (filter : ServiceFilter) (m : Muster κ) :
    Option Nat × Multiset String × Option String :=
  if mandatory = true ∧ m.bound = 0 then
    (none, 0, some (Failure.serviceUnavailable filter.source).message)
  else
    (some m.bound.card, m.bound, none)

/-- What the end of the importer tells. -/
def finish (mandatory : Bool) (m : Muster κ) : Tally :=
  .ofLoss mandatory 0 m.bound + { destroyed := [m.bound.card] }

/-! ## Offers commute -/

/-- **Offers commute.** It does not matter which of two services is offered first. -/
theorem offer_comm (mandatory : Bool) {a b : κ} (hab : a ≠ b) (wanted wanted' : Bool)
    (label label' : String) (m : Muster κ) :
    let first := m.offer mandatory a wanted label
    let second := m.offer mandatory b wanted' label'
    let late := first.2.offer mandatory b wanted' label'
    let late' := second.2.offer mandatory a wanted label
    first.1 + late.1 = second.1 + late'.1 ∧ late.2 = late'.2 := by
  -- what is known of the one does not change by the offer of the other
  simp only [offer, live_put_of_ne hab, live_put_of_ne hab.symm]
  constructor
  · exact Tally.ofGain_comm ..
  · refine Muster.ext ?_ ?_
    · exact Function.update_comm hab _ _ _
    · exact add_left_comm ..

/-! ## Names for numbers -/

/-- One muster has under the names that are known what the other one has under the numbers. -/
structure Named (known : List (String × UInt64)) (byId : Muster UInt64) (m : Muster String) :
    Prop where
  names : (known.map Prod.fst).Nodup
  ids : (known.map Prod.snd).Nodup
  present : ∀ e ∈ known, (byId.live e.2).isSome = true
  live : ∀ e ∈ known, m.live e.1 = byId.live e.2
  unknown : ∀ name, name ∉ known.map Prod.fst → m.live name = none
  bound : m.bound = byId.bound

namespace Named

variable {known known' : List (String × UInt64)} {byId : Muster UInt64} {m : Muster String}
  {name : String} {id : UInt64}

theorem perm (hn : Named known byId m) (hp : known.Perm known') : Named known' byId m where
  names := (hp.map _).nodup_iff.1 hn.names
  ids := (hp.map _).nodup_iff.1 hn.ids
  present e he := hn.present e (hp.mem_iff.2 he)
  live e he := hn.live e (hp.mem_iff.2 he)
  unknown name hname := hn.unknown name (mt (hp.map _).mem_iff.1 hname)
  bound := hn.bound

/-- A name stands for one number, and a number has one name. -/
theorem ne_iff (hn : Named known byId m) (hmem : (name, id) ∈ known) {e : String × UInt64}
    (he : e ∈ known) : e.1 ≠ name ↔ e.2 ≠ id := by
  refine not_congr ⟨fun heq => ?_, fun heq => ?_⟩
  · rw [List.inj_on_of_nodup_map hn.names he hmem heq]
  · rw [List.inj_on_of_nodup_map hn.ids he hmem heq]

/-- Something else is known of a service. -/
theorem change (hn : Named known byId m) (hmem : (name, id) ∈ known) (standing : Standing)
    (bound : Multiset String) :
    Named known (byId.put id (some standing) bound) (m.put name (some standing) bound) where
  names := hn.names
  ids := hn.ids
  present e he := by
    by_cases heq : e.2 = id
    · simp [heq]
    · rw [live_put_of_ne heq]
      exact hn.present e he
  live e he := by
    by_cases heq : e.2 = id
    · have hname : e.1 = name := not_not.1 (mt (hn.ne_iff hmem he).1 (not_not.2 heq))
      rw [heq, hname, live_put_self, live_put_self]
    · rw [live_put_of_ne heq, live_put_of_ne ((hn.ne_iff hmem he).2 heq)]
      exact hn.live e he
  unknown other hnot := by
    have hne : other ≠ name := fun heq => hnot (heq ▸ List.mem_map_of_mem hmem)
    rw [live_put_of_ne hne]
    exact hn.unknown other hnot
  bound := rfl

/-- A service of a new name and a new number is there. -/
theorem enter (hn : Named known byId m) (hname : name ∉ known.map Prod.fst)
    (hid : byId.live id = none) (standing : Standing) (bound : Multiset String) :
    Named ((name, id) :: known) (byId.put id (some standing) bound)
      (m.put name (some standing) bound) := by
  have hnames : ∀ e ∈ known, e.1 ≠ name := fun e he heq => hname (heq ▸ List.mem_map_of_mem he)
  have hids : ∀ e ∈ known, e.2 ≠ id := by
    intro e he heq
    have hpresent := hn.present e he
    rw [heq, hid] at hpresent
    cases hpresent
  refine ⟨List.nodup_cons.2 ⟨hname, hn.names⟩, List.nodup_cons.2 ⟨?_, hn.ids⟩,
    List.forall_mem_cons.2 ⟨by simp, fun e he => ?_⟩, List.forall_mem_cons.2 ⟨?_, fun e he => ?_⟩,
    fun other hnot => ?_, rfl⟩
  · simpa using fun other hmem => hids (other, id) hmem rfl
  · rw [live_put_of_ne (hids e he)]
    exact hn.present e he
  · rw [live_put_self, live_put_self]
  · rw [live_put_of_ne (hids e he), live_put_of_ne (hnames e he)]
    exact hn.live e he
  · rw [List.map_cons, List.mem_cons, not_or] at hnot
    rw [live_put_of_ne hnot.1]
    exact hn.unknown other hnot.2

/-- A service is there no more. -/
theorem leave (hn : Named known byId m) (hmem : (name, id) ∈ known) (bound : Multiset String) :
    Named (known.filter (·.1 != name)) (byId.put id none bound) (m.put name none bound) := by
  have hsub : (known.filter (·.1 != name)).Sublist known := List.filter_sublist
  have hother : ∀ e ∈ known.filter (·.1 != name), e ∈ known ∧ e.1 ≠ name ∧ e.2 ≠ id := by
    intro e he
    obtain ⟨he, hne⟩ := List.mem_filter.1 he
    have hne : e.1 ≠ name := bne_iff_ne.1 hne
    exact ⟨he, hne, (hn.ne_iff hmem he).1 hne⟩
  refine ⟨(hsub.map _).nodup hn.names, (hsub.map _).nodup hn.ids, fun e he => ?_, fun e he => ?_,
    fun other hnot => ?_, rfl⟩
  · obtain ⟨he, -, hid⟩ := hother e he
    rw [live_put_of_ne hid]
    exact hn.present e he
  · obtain ⟨he, hname, hid⟩ := hother e he
    rw [live_put_of_ne hid, live_put_of_ne hname]
    exact hn.live e he
  · by_cases heq : other = name
    · rw [heq, live_put_self]
    · rw [live_put_of_ne heq]
      refine hn.unknown other fun hknown => hnot ?_
      obtain ⟨e, he, rfl⟩ := List.mem_map.1 hknown
      exact List.mem_map_of_mem (List.mem_filter.2 ⟨he, bne_iff_ne.2 heq⟩)

/-! Things under names are those under numbers. -/

variable {wanted : Bool} {label : String} {filter : ServiceFilter}

/-- A new service comes. -/
theorem enroll (hn : Named known byId m) (hname : name ∉ known.map Prod.fst)
    (hid : byId.live id = none) :
    Named ((name, id) :: known) (byId.offer mandatory id wanted label).2
      (m.offer mandatory name wanted label).2 ∧
    (m.offer mandatory name wanted label).1 = (byId.offer mandatory id wanted label).1 := by
  have hlive : m.live name = byId.live id := (hn.unknown name hname).trans hid.symm
  simp only [Muster.offer, hlive, hn.bound]
  exact ⟨hn.enter hname hid _ _, trivial⟩

/-- A service gets other properties. -/
theorem offer (hn : Named known byId m) (hmem : (name, id) ∈ known) :
    Named known (byId.offer mandatory id wanted label).2
      (m.offer mandatory name wanted label).2 ∧
    (m.offer mandatory name wanted label).1 = (byId.offer mandatory id wanted label).1 := by
  have hlive : m.live name = byId.live id := hn.live _ hmem
  simp only [Muster.offer, hlive, hn.bound]
  exact ⟨hn.change hmem _ _, trivial⟩

/-- A service goes. -/
theorem retire (hn : Named known byId m) (hmem : (name, id) ∈ known) :
    Named (known.filter (·.1 != name)) (byId.retire mandatory id).2
      (m.retire mandatory name).2 ∧
    (m.retire mandatory name).1 = (byId.retire mandatory id).1 := by
  have hlive : m.live name = byId.live id := hn.live _ hmem
  simp only [Muster.retire, hlive, hn.bound]
  exact ⟨hn.leave hmem _, trivial⟩

theorem reading_eq (hn : Named known byId m) :
    m.reading mandatory filter = byId.reading mandatory filter := by
  simp only [Muster.reading, hn.bound]

theorem finish_eq (hn : Named known byId m) : m.finish mandatory = byId.finish mandatory := by
  simp only [Muster.finish, hn.bound]

end Named

end Muster

/-! ## The steps of a scenario -/

/-- The muster after a step, and what the step comes to. -/
def Step.effect (config : ImporterConfig) (filter : ServiceFilter) :
    Step → Muster String → Tally × Muster String
  | .register name properties, m | .modify name properties, m =>
    let r := ServiceReference.new 0 (serviceProperties name properties)
    m.offer config.mandatory name (filter.accepts r.properties) r.label
  | .unregister name, m => m.retire config.mandatory name
  | .read, m => ({ reads := [m.reading config.mandatory filter] }, m)

/-- The name under which a step registers a service. -/
def Step.registered? : Step → Option String
  | .register name _ => some name
  | _ => none

namespace Muster

variable {config : ImporterConfig} {filter : ServiceFilter} {batch batch' : List Replay.Numbered}
  {m : Muster String}

/-- The muster after steps that are not told of, and what they come to. -/
abbrev silently (config : ImporterConfig) (filter : ServiceFilter) :
    List Replay.Numbered → Muster String → Tally × Muster String :=
  through fun step => step.2.effect config filter

/-- The names under which steps register services. -/
def names (batch : List Replay.Numbered) : List String :=
  batch.filterMap fun step => step.2.registered?

/-- The muster after a step that is told of, and what that comes to. -/
def advance (config : ImporterConfig) (filter : ServiceFilter) (step : Replay.Numbered)
    (m : Muster String) : Tally × Muster String :=
  (.ofSteps [(step.1, step.2.display)] + (step.2.effect config filter m).1,
    (step.2.effect config filter m).2)

/-- What a scenario of these steps comes to. -/
def play (config : ImporterConfig) (filter : ServiceFilter) (steps : List Replay.Numbered) :
    Tally :=
  let last := through (advance config filter) steps {}
  last.1 + last.2.finish config.mandatory

/-- **Any order.** Registrations of different names may be carried out in any order. -/
theorem silently_perm (hall : ∀ step ∈ batch, step.2.isRegister = true)
    (hnames : (names batch).Nodup) (hp : batch.Perm batch') (m : Muster String) :
    m.silently config filter batch = m.silently config filter batch' := by
  refine through_perm hp ?_ m
  rw [names, List.Nodup, List.pairwise_filterMap] at hnames
  refine hnames.imp_of_mem fun {a b} ha hb hne m => ?_
  have ha := hall a ha
  have hb := hall b hb
  obtain ⟨n, a⟩ := a
  obtain ⟨n', b⟩ := b
  cases a with
  | register name properties =>
    cases b with
    | register name' properties' =>
      obtain ⟨htold, hsame⟩ := offer_comm config.mandatory (hne name rfl name' rfl) _ _ _ _ m
      refine Prod.ext ?_ hsame
      show _ + (_ + 0) = _ + (_ + 0)
      rw [add_zero, add_zero]
      exact htold
    | _ => cases hb
  | _ => cases ha

/-- What registrations come to can be added after what is told of the steps. -/
theorem through_advance (hall : ∀ step ∈ batch, step.2.isRegister = true) (m : Muster String) :
    m.through (advance config filter) batch =
      (.ofSteps (batch.map fun step => (step.1, step.2.display)) +
        (m.silently config filter batch).1, (m.silently config filter batch).2) := by
  induction batch generalizing m with
  | nil => rfl
  | cons step batch ih =>
    rw [through, ih (fun other hmem => hall other (List.mem_cons_of_mem _ hmem))]
    have hloose : (step.2.effect config filter m).1.IsLoose := by
      have hregister := hall step List.mem_cons_self
      obtain ⟨n, step⟩ := step
      cases step with
      | register name properties => exact ⟨rfl, rfl, rfl⟩
      | _ => cases hregister
    exact Prod.ext (hloose.past_ofSteps ..) rfl

end Muster

end LiveServices
