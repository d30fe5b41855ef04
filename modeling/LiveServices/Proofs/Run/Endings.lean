import LiveServices.Proofs.Run.Built
import LiveServices.Proofs.Run.Glimpses

/-!
# How operations end

The operations on a collection are made of sections, of calls, of releases, and of the commands
that these give. The lemmas here say what follows for how an operation ends (`Run.Ends`) from how
its parts end; which relation it is does not matter.
-/

namespace LiveServices.Run

variable {E : Type} {S : Hub E → Except Halt (Hub E) → Prop} [Hub.Regime S] {nested : Nested E}

namespace Ends

/-! ## Calls and releases -/

theorem settle (what : Guarded) (name : String) (service : UInt64) (finish : Finish) :
    Ends S (Run.settle what name service finish) := by
  cases finish with
  | done => exact .pure _
  | fail f => exact .bind (.record trivial) fun _ => .pure _
  | panic message => exact .bind (.record trivial) fun _ => .pure _

/-- Commands are given one after the other, up to the first panic. -/
theorem give {note : Command E → Answer → Run E Unit} {finish : Finish}
    (hn : ∀ command, Ends S (nested command))
    (hnote : ∀ command answer, Ends S (note command answer)) (commands : List (Command E)) :
    Ends S (Run.give nested note finish commands) := by
  induction commands with
  | nil => exact .pure _
  | cons command commands ih =>
    refine .bind (hn command) fun answer => ?_
    split
    · exact .pure _
    · exact .bind (hnote _ _) fun _ => ih

/-- A release ends as its beginning and the commands of the action do. -/
theorem runRelease {release : Release E} (hn : ∀ command, Ends S (nested command)) {c serial : Nat}
    {service : UInt64}
    (hb : ∀ h : Hub E, S h (.ok (h.letting c serial service release.announced))) :
    Ends S (Run.runRelease nested c serial service release) := by
  intro h
  rw [runRelease_eq]
  exact Hub.Regime.chain (hb h) (give hn (fun _ _ => .pure _) _ _)

variable [ServiceEntry E]

/-- A call ends as its beginning and the commands of the listener do. -/
theorem call {l : Attached E} {callback : Callback E} (hn : ∀ command, Ends S (nested command))
    (hc : ∀ h : Hub E, S h (.ok (h.calling l callback))) : Ends S (Run.call nested l callback) := by
  intro h
  rw [call_eq]
  have hnote (command : Command E) (answer : Answer) :
      Ends S (Run.record (.commanded l.tag command.name answer)) := .record trivial
  exact Hub.Regime.chain (hc h) (give hn hnote _ _)

/-- Listeners are called one after the other under guard. -/
theorem callAll (what : Guarded) (service : UInt64) {callback : Callback E}
    {listeners : List (Attached E)} (hl : ∀ l ∈ listeners, Ends S (Run.call nested l callback)) :
    Ends S (Run.callAll nested what service callback listeners) :=
  .forM _ fun l hmem => .bind (hl l hmem) fun _ => .bind (.settle _ _ _ _) fun _ => .pure _

/-! ## What follows a section -/

/-- An admission is announced by a round of calls, or by two. -/
theorem announceAdmission {c : Nat} {entry : E} {r : ServiceReference}
    (hbind : Ends S (Run.bind nested c entry r)) (hsat : Ends S (Run.satisfied nested c r.id))
    (first : Bool) : Ends S (Run.announceAdmission nested c entry r first) := by
  refine .bind hbind fun _ => ?_
  split
  · exact hsat
  · exact .pure _

/-- A removal is announced in the same way, if the storage had the entry. -/
theorem announceRemoval {c : Nat} {removal : Removal E}
    (hunbind : Ends S (Run.unbind nested c removal.holding.entry removal.holding.reference))
    (hunsat : Ends S (Run.unsatisfied nested c removal.holding.id)) :
    Ends S (Run.announceRemoval nested c removal) := by
  unfold Run.announceRemoval
  split
  · refine .bind hunbind fun _ => ?_
    split
    · exact hunsat
    · exact .pure _
  · exact .pure _

/-- What follows a refusal. -/
theorem afterRefusal (hn : ∀ command, Ends S (nested command)) {c : Nat} (r : ServiceReference)
    (hb : ∀ (h : Hub E) serial announced, S h (.ok (h.letting c serial r.id announced)))
    (serial : Nat) (release : Option (Release E)) :
    Ends S (Run.afterAdmission nested c r (.refused serial release)) := by
  cases release with
  | none => exact .pure _
  | some release =>
    refine .bind (.collection c) fun k => .bind (.runRelease hn fun h => hb h ..) fun finish => ?_
    exact .bind (.settle _ _ _ _) fun _ => .pure _

/-- An entry is let go by a release, if it has one. -/
theorem letGo (hn : ∀ command, Ends S (nested command)) {c : Nat} {holding : Holding E}
    (hb : ∀ (h : Hub E) announced, S h (.ok (h.letting c holding.serial holding.id announced))) :
    Ends S (Run.letGo nested c holding) := by
  unfold Run.letGo
  split
  · exact .pure _
  · refine .bind (.collection c) fun k => .bind (.runRelease hn fun h => hb h _) fun finish => ?_
    refine .bind (.settle _ _ _ _) fun done => ?_
    split
    · exact .pure _
    · exact .bind .get fun _ => .record trivial

/-! ## Operations -/

/-- A service appears: it is considered, and what was decided is followed up. -/
theorem appeared {c : Nat} {r : ServiceReference} (hcons : Ends S (consider c r))
    (hafter : ∀ admission, Ends S (afterAdmission nested c r admission)) :
    Ends S (Run.apply nested c .appeared r) := by
  refine .bind hcons fun result => ?_
  cases result with
  | error t => exact .pure _
  | ok admission => exact .bind (hafter admission) fun _ => .pure _

/-- A service is taken away: it is retracted, its end is announced, and its entry is let go. -/
theorem removed {c : Nat} {id : UInt64} (hret : Ends S (retract c id))
    (hannounce : ∀ removal, Ends S (Run.announceRemoval nested c removal))
    (hlet : ∀ holding, Ends S (Run.letGo nested c holding)) : Ends S (remove nested c id) := by
  refine .bind hret fun removal => ?_
  cases removal with
  | none => exact .pure _
  | some removal => exact .bind (hannounce removal) fun _ => .bind (hlet _) fun _ => .pure _

theorem removeAll {c : Nat} (hremoved : ∀ id, Ends S (remove nested c id)) (ids : List UInt64) :
    Ends S (Run.removeAll nested c ids) := by
  induction ids with
  | nil => exact .pure _
  | cons id ids ih => exact .bind (hremoved id) fun _ => .bind ih fun _ => .pure _

/-- A collection is destroyed: it is unsubscribed and closed, its services are taken away, and what
is left is cleared. -/
theorem destroy {c : Nat} (hclose : Ends S (endSubscription c >>= fun _ => Run.close c))
    (hremoved : ∀ id, Ends S (remove nested c id)) (hclear : Ends S (Run.clear (E := E) c)) :
    Ends S (Run.destroy nested c) := by
  have hassoc : Run.destroy nested c = (endSubscription c >>= fun _ => Run.close c) >>= fun live =>
      Run.removeAll nested c live >>= fun count => Run.clear c >>= fun _ => Pure.pure count := by
    rw [bind_assoc]
    rfl
  rw [hassoc]
  exact .bind hclose fun live => .bind (.removeAll hremoved live) fun count =>
    .bind hclear fun _ => .pure _

end Ends

end LiveServices.Run
