import LiveServices.Proofs.Run.Built

/-!
# The course of a run

Whatever a command does to the entries and the listeners of collections, it does by six
operations: it calls an observer, lets a service appear or disappear in a collection, shuts a
collection down, or attaches a listener of one of the two kinds. All else are steps aside. So a
law that these six keep is respected by all that commands are built of (`Course.deliveries`,
`Course.lives`), and it is kept by every command (`Course.execute`).

The operations call listeners, and listeners give commands. `keeps_run` ties this knot: if the
operations keep a law whenever the nested commands do, then commands keep it at every depth, and
so does a sequence of them (`keeps_runAll`). `keeps_sequence` asks of those commands only that are
in the sequence.
-/

namespace LiveServices.Run

variable {E α β : Type} [ServiceEntry E] {nested : Nested E} {S : Hub E → Hub E → Prop}

/-- The six operations on entries and listeners keep a relation. -/
structure Course (nested : Nested E) (S : Hub E → Hub E → Prop) : Prop where
  observed : ∀ l event, Keeps S (call nested l (.event event))
  appeared : ∀ c r, Keeps S (apply nested c .appeared r)
  removed : ∀ c id, Keeps S (remove nested c id)
  shutdown : ∀ c, Keeps S (shutdown nested c)
  lifecycle : ∀ c l, Keeps S (addLifecycleListener c l : Run E Unit)
  state : ∀ c l, Keeps S (addStateListener c l : Run E Unit)

/-! ## Commands -/

namespace Keeps

omit [ServiceEntry E]

theorem available [Hub.Rule S] (c : Nat) : Keeps S (available c : Run E _) :=
  .locked c _ (.bind (.collection c) fun _ => .pure _)

theorem isClosed [Hub.Rule S] (c : Nat) : Keeps S (isClosed c : Run E _) :=
  .locked c _ (.bind (.collection c) fun _ => .pure _)

/-- The end of a subscription is a step aside. -/
theorem endSubscription [Hub.Law S] (c : Nat) : Keeps S (endSubscription c : Run E _) := by
  refine .locked c _ (.bind (.collection c) fun k => ?_)
  split
  · exact .pure _
  · refine .bind (.update c fun k => ⟨rfl, rfl, rfl, rfl, rfl, rfl, rfl, id⟩) fun _ => ?_
    exact .bind (.onRegistry _) fun _ => .pure _

end Keeps

variable [Hub.Law S]

namespace Course

variable (w : Course nested S)
include w

omit [Hub.Law S] in
/-- What the operations keep, deliveries respect. -/
theorem deliveries : Deliveries nested (Hub.Reaching S) where
  observed l event := ends_reaching.2 (w.observed l event)
  appeared c r := ends_reaching.2 (w.appeared c r)
  removed c id := ends_reaching.2 (w.removed c id)

/-- The life of a collection respects it as well. -/
theorem lives : Lives nested (Hub.Reaching S) where
  begun c := by
    have hnote (id : UInt64) : Ends (Hub.Reaching S)
        (Run.update (E := E) c fun k => { k with subscription := some id }) :=
      ends_reaching.2 (.update c fun _ => ⟨rfl, rfl, rfl, rfl, rfl, rfl, rfl, fun hk => hk⟩)
    exact ends_reaching.2 (.locked c _ (ends_reaching.1 (.begin w.deliveries hnote)))
  destroyed c := ends_reaching.2 (.bind (.endSubscription c) fun _ => w.shutdown c)
  lifecycle c l := ends_reaching.2 (w.lifecycle c l)
  state c l := ends_reaching.2 (w.state c l)

/-- A law that the six operations keep is kept by all that is built of them. -/
theorem built {x : Run E α} (hx : Built nested true x) : Keeps S x :=
  ends_reaching.1 (hx.ends w.deliveries fun _ => w.lives)

/-- **Commands.** It is kept by every command. -/
theorem execute (command : Command E) : Keeps S (execute nested command) :=
  w.built (.execute command)

end Course

/-- **Runs.** A law that the six operations keep whenever nested commands do is kept by commands
at every depth. -/
theorem keeps_run
    (hcourse : ∀ nested : Nested E, (∀ command, Keeps S (nested command)) → Course nested S)
    (depth : Nat) (command : Command E) : Keeps S (run depth command) := by
  refine ends_reaching.1 (ends_run (fun depth hn => ?_) (fun h => ?_) depth command)
  · have w := hcourse (run depth) fun command => ends_reaching.1 (hn command)
    exact ⟨w.deliveries, w.lives⟩
  · exact .ok (Hub.Law.aside (.record trivial))

omit [Hub.Law S] in
/-- What each of these commands keeps is kept by the sequence of them. -/
theorem keeps_sequence [Hub.Rule S] {depth : Nat} {commands : List (Command E)} {h h' : Hub E}
    {answers : List Answer} (hrun : ∀ command ∈ commands, Keeps S (run depth command))
    (hr : h.runAll depth commands = .ok (answers, h')) : S h h' := by
  induction commands generalizing h answers with
  | nil =>
    obtain ⟨-, rfl⟩ := Prod.mk.inj (Except.ok.inj hr)
    exact Hub.Rule.beside (.refl h)
  | cons command commands ih =>
    obtain ⟨answer, h₁, rest, h1, h2, -⟩ := Hub.runAll_cons_eq_ok.1 hr
    exact Hub.Rule.trans (hrun command List.mem_cons_self h1)
      (ih (fun other hmem => hrun other (List.mem_cons_of_mem _ hmem)) h2)

/-- What commands keep is kept by a sequence of them. -/
theorem keeps_runAll {depth : Nat} (hrun : ∀ command, Keeps S (run depth command : Run E _))
    {commands : List (Command E)} {h h' : Hub E} {answers : List Answer}
    (hr : h.runAll depth commands = .ok (answers, h')) : S h h' :=
  keeps_sequence (fun command _ => hrun command) hr

end LiveServices.Run
