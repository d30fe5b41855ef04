import LiveServices.Proofs.Run.Course
import LiveServices.Proofs.Run.Sections

/-!
# The steps of a run

The operations of a run are built from few kinds of steps that are not aside: the three sections
on a collection, the beginning of a call or of a release, and the attachment of a listener. A
law that each kind of step keeps is kept by the operations (`Steps.course`), whatever the
callees do in between as long as their commands keep it too, and so, by `keeps_run` and
`keeps_runAll`, by every run.

Where a law holds across an operation but not across each of its steps, `Keeps.give` and
`Keeps.call` still take care of the commands that a callee gives.
-/

namespace LiveServices.Run

variable {E : Type} [ServiceEntry E] {nested : Nested E} {S : Hub E → Hub E → Prop}

/-- Each kind of step that is not aside keeps a relation. -/
structure Steps (S : Hub E → Hub E → Prop) : Prop where
  considered : ∀ c r, Keeps S (consider c r)
  retracted : ∀ c id, Keeps S (retract c id)
  cleared : ∀ c, Keeps S (clear c)
  called : ∀ (h : Hub E) tag callback glimpse, S h (h.record (.called tag callback glimpse))
  released : ∀ (h : Hub E) c serial service census announced,
    S h { h.record (.releasing c serial service census announced) with
      released := serial :: h.released }
  lifecycle : ∀ c l, Keeps S (addLifecycleListener c l : Run E Unit)
  state : ∀ c l, Keeps S (addStateListener c l : Run E Unit)

/-! ## Callees -/

omit [ServiceEntry E] in
/-- The listeners to be told are those that are there. -/
theorem lifecycleListeners_ok {c : Nat} {h h' : Hub E} {listeners : List (Attached E)}
    (hr : lifecycleListeners c h = .ok (listeners, h')) :
    listeners = (h.collection c).lifecycleListeners := by
  obtain ⟨-, rfl, -⟩ := locked_pure_eq_ok.1 hr
  rw [Hub.collection_update]
  split <;> rfl

omit [ServiceEntry E] in
theorem stateListeners_ok {c : Nat} {h h' : Hub E} {listeners : List (Attached E)}
    (hr : stateListeners c h = .ok (listeners, h')) :
    listeners = (h.collection c).stateListeners := by
  obtain ⟨-, rfl, -⟩ := locked_pure_eq_ok.1 hr
  rw [Hub.collection_update]
  split <;> rfl

/-- A call begins with a moment of its own; then the listener gives its commands. -/
theorem call_ok {l : Attached E} {callback : Callback E} {h h' : Hub E} {finish : Finish}
    (hr : call nested l callback h = .ok (finish, h')) : ∃ glimpse,
      give nested (fun command answer => record (.commanded l.tag command.name answer))
        (l.listener.respond (h.history l.tag) callback).finish
        (l.listener.respond (h.history l.tag) callback).commands
        (h.record (.called l.tag callback glimpse)) = .ok (finish, h') := ⟨_, hr⟩

/-- A round over two lists is a round over the first and then one over the second. -/
theorem callAll_append_ok {what : Guarded} {service : UInt64} {callback : Callback E}
    {early late : List (Attached E)} {h h' : Hub E} {u : Unit}
    (hr : callAll nested what service callback (early ++ late) h = .ok (u, h')) :
    ∃ h₁, callAll nested what service callback early h = .ok ((), h₁) ∧
      callAll nested what service callback late h₁ = .ok (u, h') := by
  rw [callAll, List.forM_eq_forM, List.forM_append] at hr
  obtain ⟨_, h₁, hearly, hlate⟩ := bind_eq_ok.1 hr
  exact ⟨h₁, hearly, hlate⟩

namespace Keeps

omit [ServiceEntry E]

variable [Hub.Rule S]

/-- A guarded call that did not end well is noted, and goes no further. -/
theorem settle (what : Guarded) (name : String) (service : UInt64) (finish : Finish) :
    Keeps S (settle what name service finish : Run E Bool) := by
  cases finish with
  | done => exact .pure _
  | fail f => exact .bind (.note trivial rfl) fun _ => .pure _
  | panic message => exact .bind (.note trivial rfl) fun _ => .pure _

/-- What the commands of a callee keep is kept by giving them. -/
theorem give {note : Command E → Answer → Run E Unit} {commands : List (Command E)}
    (hn : ∀ command ∈ commands, Keeps S (nested command))
    (hnote : ∀ command answer, Keeps S (note command answer)) (finish : Finish) :
    Keeps S (give nested note finish commands) := by
  induction commands with
  | nil => exact .pure _
  | cons command commands ih =>
    -- a command that panics is the last one given
    refine .bind (hn command List.mem_cons_self) fun answer => ?_
    split
    · exact .pure _
    · exact .bind (hnote _ _) fun _ => ih fun other hmem => hn other (List.mem_cons_of_mem _ hmem)

/-- A call keeps what its beginning and the commands of the listener keep. -/
theorem call [ServiceEntry E] {l : Attached E} {callback : Callback E}
    (hn : ∀ history, ∀ command ∈ (l.listener.respond history callback).commands,
      Keeps S (nested command))
    (hc : ∀ (h : Hub E) glimpse, S h (h.record (.called l.tag callback glimpse))) :
    Keeps S (call nested l callback) := by
  refine .bind .get fun h => .bind (.bind .get fun _ => .pure _) fun glimpse => ?_
  refine .bind ?_ fun _ => .give (hn _) ?_ _
  · rintro h _ h' ⟨⟩
    exact hc h glimpse
  · exact fun _ _ => .note trivial rfl

/-- Listeners are called one after the other under guard. -/
theorem callAll [ServiceEntry E] (what : Guarded) (service : UInt64) {callback : Callback E}
    {listeners : List (Attached E)} (hl : ∀ l ∈ listeners, Keeps S (Run.call nested l callback)) :
    Keeps S (Run.callAll nested what service callback listeners) :=
  .forM _ fun l h => .bind (hl l h) fun _ => .bind (.settle ..) fun _ => .pure _

theorem lifecycleListeners (c : Nat) : Keeps S (lifecycleListeners c : Run E _) :=
  .locked c _ (.bind (.collection c) fun _ => .pure _)

theorem stateListeners (c : Nat) : Keeps S (stateListeners c : Run E _) :=
  .locked c _ (.bind (.collection c) fun _ => .pure _)

omit [Hub.Rule S] in
/-- A collection is closed, and its services are listed. -/
theorem close [Hub.Law S] (c : Nat) : Keeps S (close c : Run E _) := by
  refine .locked c _ (.bind (.update c fun k => ?_) fun _ => .bind (.collection c) fun _ => .pure _)
  exact ⟨rfl, rfl, rfl, rfl, rfl, rfl, rfl, fun _ => rfl⟩

/-! What the rounds of calls keep is kept by the announcements. -/

/-- An admission is announced by one round of callbacks, or by two if the dependency came to be
met. -/
theorem announceAdmission_of_rounds [ServiceEntry E] {c : Nat} {entry : E} {r : ServiceReference}
    (hbind : Keeps S (Run.bind nested c entry r)) (hsat : Keeps S (Run.satisfied nested c r.id))
    (first : Bool) : Keeps S (announceAdmission nested c entry r first) := by
  refine .bind hbind fun _ => ?_
  split
  · exact hsat
  · exact .pure _

/-- A removal is announced in the same way, if the storage had the entry. -/
theorem announceRemoval_of_rounds [ServiceEntry E] {c : Nat} {removal : Removal E}
    (hunbind : Keeps S (Run.unbind nested c removal.holding.entry removal.holding.reference))
    (hunsat : Keeps S (Run.unsatisfied nested c removal.holding.id)) :
    Keeps S (announceRemoval nested c removal) := by
  unfold Run.announceRemoval
  split
  · refine .bind hunbind fun _ => ?_
    split
    · exact hunsat
    · exact .pure _
  · exact .pure _

/-! What the beginning of every call keeps is kept by the rounds of calls. -/

section Rounds

variable [ServiceEntry E] (hn : ∀ command, Keeps S (nested command))
  (hc : ∀ (h : Hub E) tag callback glimpse, S h (h.record (.called tag callback glimpse)))
include hn hc

/-- A round of calls keeps what each of its calls keeps. -/
theorem lifecycleRound (c : Nat) (what : Guarded) (service : UInt64) (callback : Callback E) :
    Keeps S (do Run.callAll nested what service callback (← Run.lifecycleListeners c)) :=
  .bind (.lifecycleListeners c) fun _ => .callAll _ _ fun _ _ =>
    .call (fun _ command _ => hn command) fun h _ => hc h ..

theorem stateRound (c : Nat) (what : Guarded) (service : UInt64) (callback : Callback E) :
    Keeps S (do Run.callAll nested what service callback (← Run.stateListeners c)) :=
  .bind (.stateListeners c) fun _ => .callAll _ _ fun _ _ =>
    .call (fun _ command _ => hn command) fun h _ => hc h ..

theorem announceAdmission (c : Nat) (entry : E) (r : ServiceReference) (first : Bool) :
    Keeps S (announceAdmission nested c entry r first) :=
  announceAdmission_of_rounds (lifecycleRound hn hc c ..)
    (.bind (.collection c) fun _ => stateRound hn hc c ..) first

theorem announceRemoval (c : Nat) (removal : Removal E) :
    Keeps S (announceRemoval nested c removal) :=
  announceRemoval_of_rounds (lifecycleRound hn hc c ..)
    (.bind (.collection c) fun _ => stateRound hn hc c ..)

end Rounds

/-- A release keeps what its beginning and the commands of the action keep. -/
theorem runRelease {release : Release E}
    (hn : ∀ command ∈ release.response.commands, Keeps S (nested command))
    (hb : ∀ (h : Hub E) c serial service census announced,
      S h { h.record (.releasing c serial service census announced) with
        released := serial :: h.released })
    (c serial : Nat) (service : UInt64) :
    Keeps S (runRelease nested c serial service release) := by
  intro h finish h' hr
  -- the moment and the serial are noted in two changes of the hub, one step to the rule
  have hgive : Run.give nested (fun _ _ => Pure.pure ()) release.response.finish
      release.response.commands
      { h.record (.releasing c serial service h.census release.announced) with
        released := serial :: h.released } = .ok (finish, h') := hr
  exact Hub.Rule.trans (hb h ..) (give hn (fun _ _ => .pure _) _ hgive)

/-- An entry is let go by its release action, if it has one. -/
theorem letGo [ServiceEntry E] {holding : Holding E}
    (hn : ∀ release ∈ holding.release, ∀ command ∈ release.response.commands,
      Keeps S (nested command))
    (hb : ∀ (h : Hub E) c serial service census announced,
      S h { h.record (.releasing c serial service census announced) with
        released := serial :: h.released })
    (c : Nat) : Keeps S (letGo nested c holding) := by
  unfold Run.letGo
  split
  · exact .pure _
  · next release hrelease =>
    have hn : ∀ command ∈ release.response.commands, Keeps S (nested command) := hn release hrelease
    refine .bind (.collection c) fun k => .bind (.runRelease hn hb ..) fun finish => ?_
    refine .bind (.settle ..) fun done => ?_
    split
    · exact .pure _
    · exact .bind .get fun _ => .note trivial rfl

end Keeps

/-! ## Operations -/

namespace Steps

/-- What steps keep of two relations they keep of both at once. -/
theorem and {T : Hub E → Hub E → Prop} (hS : Steps S) (hT : Steps T) :
    Steps fun h h' => S h h' ∧ T h h' where
  considered c r := (hS.considered c r).and (hT.considered c r)
  retracted c id := (hS.retracted c id).and (hT.retracted c id)
  cleared c := (hS.cleared c).and (hT.cleared c)
  called h tag callback glimpse :=
    ⟨hS.called h tag callback glimpse, hT.called h tag callback glimpse⟩
  released h c serial service census announced :=
    ⟨hS.released h c serial service census announced,
      hT.released h c serial service census announced⟩
  lifecycle c l := (hS.lifecycle c l).and (hT.lifecycle c l)
  state c l := (hS.state c l).and (hT.state c l)

variable [Hub.Law S] (w : Steps S) (hn : ∀ command, Keeps S (nested command))
include w hn

/-- A listener is called, and gives commands. -/
theorem call (l : Attached E) (callback : Callback E) : Keeps S (call nested l callback) :=
  .call (fun _ command _ => hn command) fun h glimpse => w.called h _ _ glimpse

theorem bind (c : Nat) (entry : E) (r : ServiceReference) : Keeps S (bind nested c entry r) :=
  .lifecycleRound hn w.called c ..

theorem unbind (c : Nat) (entry : E) (r : ServiceReference) : Keeps S (unbind nested c entry r) :=
  .lifecycleRound hn w.called c ..

theorem satisfied (c : Nat) (service : UInt64) : Keeps S (satisfied nested c service) :=
  .bind (.collection c) fun _ => .stateRound hn w.called c ..

theorem unsatisfied (c : Nat) (service : UInt64) : Keeps S (unsatisfied nested c service) :=
  .bind (.collection c) fun _ => .stateRound hn w.called c ..

/-- A release action runs, and gives commands. -/
theorem runRelease (c serial : Nat) (service : UInt64) (release : Release E) :
    Keeps S (runRelease nested c serial service release) :=
  .runRelease (fun command _ => hn command) w.released ..

theorem announceAdmission (c : Nat) (entry : E) (r : ServiceReference) (first : Bool) :
    Keeps S (announceAdmission nested c entry r first) := .announceAdmission hn w.called ..

theorem announceRemoval (c : Nat) (removal : Removal E) :
    Keeps S (announceRemoval nested c removal) := .announceRemoval hn w.called ..

/-- What follows an admission is calls of listeners, and what follows a refusal is a release. -/
theorem afterAdmission (c : Nat) (r : ServiceReference) (admission : Admission E) :
    Keeps S (afterAdmission nested c r admission) := by
  cases admission with
  | ignored => exact .pure _
  | refused serial release =>
    cases release with
    | none => exact .pure _
    | some release =>
      refine .bind (.collection c) fun k => .bind (w.runRelease hn ..) fun finish => ?_
      exact .bind (.settle ..) fun _ => .pure _
  | admitted entry first => exact .bind (w.announceAdmission hn ..) fun _ => .pure _

theorem letGo (c : Nat) (holding : Holding E) : Keeps S (letGo nested c holding) :=
  .letGo (fun _ _ command _ => hn command) w.released c

/-- After a removal listeners are called, and the entry is let go. -/
theorem afterRemoval (c : Nat) (removal : Removal E) : Keeps S (afterRemoval nested c removal) :=
  .bind (w.announceRemoval hn c removal) fun _ => .bind (w.letGo hn c _) fun _ => .pure _

/-- A service is removed by a retraction and what follows it. -/
theorem remove (c : Nat) (id : UInt64) : Keeps S (remove nested c id) := by
  refine .bind (w.retracted c id) fun removal => ?_
  cases removal with
  | none => exact .pure _
  | some removal => exact w.afterRemoval hn c removal

/-- Services are removed one after the other. -/
theorem removeAll (c : Nat) (ids : List UInt64) : Keeps S (removeAll nested c ids) := by
  induction ids with
  | nil => exact .pure _
  | cons id ids ih => exact .bind (w.remove hn c id) fun _ => .bind ih fun _ => .pure _

/-- **Steps.** A law that each kind of step keeps is kept by the operations. -/
theorem course : Course nested S where
  observed l event := w.call hn l _
  appeared c r := by
    refine .bind (w.considered c r) fun result => ?_
    cases result with
    | error t => exact .pure _
    | ok admission => exact .bind (w.afterAdmission hn c r admission) fun _ => .pure _
  removed c id := w.remove hn c id
  shutdown c := by
    refine .bind (.close c) fun live => .bind (w.removeAll hn c live) fun count => ?_
    exact .bind (w.cleared c) fun _ => .pure _
  lifecycle := w.lifecycle
  state := w.state

end Steps

end LiveServices.Run
