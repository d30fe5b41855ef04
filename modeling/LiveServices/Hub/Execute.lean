import LiveServices.Hub.Reading

/-!
# Executing commands

`execute` carries out one command, given the way in which the commands of listeners are carried
out; `run` ties this knot for commands nested to a given depth. A run that halts for its depth
halts no more with a depth that is large enough, and then its result no longer depends on the
depth.

A panic ends the command that it reached, and with it the call in which a listener gave the
command, unless that was the first command of all: then the answer is that it panicked.
-/

namespace LiveServices

namespace Run

variable {E : Type} [ServiceEntry E] (nested : Nested E)

/-- The answer for the end of an operation. -/
def answered (f : α → Answer) (act : Act E α) : Run E Answer := do
  match ← act.run with
  | .ok a => pure (f a)
  | .error (.failed failure) => pure (.failed failure)
  | .error (.panicked message) => pure (.panicked message)

/-- An answer from a collection, if it is there. -/
def onCollection (c : Nat) (body : Run E Answer) : Run E Answer := do
  if (← collection c).dropped then pure .noCollection else body

/-- An answer from the work on a collection, if it is there. -/
def onWork (c : Nat) (body : Run E Answer) : Run E Answer :=
  onCollection c (workOn nested c body)

/-- The answer of a step that needs an available collection. -/
def stepped (f : α → Answer) : Except Failure α → Answer
  | .ok a => f a
  | .error failure => .failed failure

/-- The answer of a command that needs a filter. -/
def withFilter (text : String) (f : ServiceFilter → Run E Answer) : Run E Answer :=
  match ServiceFilter.parse text with
  | .ok filter => f filter
  | .error failure => pure (.failed failure)

/-- Carry out a command. -/
def execute : Command E → Run E Answer
  | .register properties => answered (fun r => .text r.display) (register nested properties)
  | .setProperties id properties =>
    answered (fun r => .text r.display) (setProperties nested id properties)
  | .unregister id => answered (fun _ => .done) (unregister nested id)
  | .getService id => do pure (.reference ((← get).registry.get? id))
  | .references text =>
    withFilter text fun filter => do
      pure (.ids (((← get).registry.references filter).map ServiceReference.id))
  | .registry => do
    let r := (← get).registry
    pure (.registry r.services.length r.subscriptions.length r.delivered)
  | .addListener home text listener =>
    withFilter text fun filter => do
      let l ← attach home listener
      answered (fun id => .text (Subscription.displayId id)) (subscribe nested filter (.observer l))
  | .removeListener id => do pure (.truth (← unsubscribe id))
  | .start c => onWork nested c (answered (fun _ => .done) (start nested c))
  | .destroy c => onWork nested c do pure (.count (← destroy nested c))
  | .drop c => do pure (.truth (← drop nested c))
  | .ask c question => onCollection c (ask c question)
  | .addLifecycleListener c listener => onCollection c do
    addLifecycleListener c listener
    pure .done
  | .addStateListener c listener => onCollection c do
    addStateListener c listener
    pure .done
  | .iter c name => onCollection c (iter c name)
  | .tryNext name => withTraversal name fun t => do
    match ← step t with
    | .ok entry => view entry
    | .error f => pure (.failed f)
  | .next name => withTraversal name fun t => do
    match ← step t with
    | .ok entry => view entry
    | .error _ => pure (.entry none)
  | .hasNext name => withTraversal name fun t => do pure (stepped .truth (← hasNext t))
  | .drain name => withTraversal name fun t => do
    let entries ← drain t
    pure (.entries (entries.map (ServiceEntry.view (← get).released)))
  | .iterRemove name => withTraversal name fun _ =>
    pure (.failed LiveSequence.removeThroughCursor)
  | .dropIter name => do pure (.truth (← dropIter name))
  | .hold c index name => onCollection c (hold c index name)
  | .probe name => probe name
  | .reconcile c event =>
    onWork nested c (answered .outcome (ExceptT.mk (reconcile nested c event)))
  | .apply c notification r =>
    onWork nested c (answered .outcome (ExceptT.mk (apply nested c notification r)))
  | .serviceChanged c event => onWork nested c do
    serviceChanged nested c event
    pure .done
  | .unreadable none _ answer => pure answer
  | .unreadable (some c) _ answer => onCollection c (pure answer)

/-- Carry out a command whose listeners nest commands to this depth. -/
def run : Nat → Command E → Run E Answer
  | 0, _ => throw .tooDeep
  | depth + 1, command => do
    let answer ← execute (run depth) command
    record (.ended (← get).census)
    pure answer

end Run

/-- The answer to a command, and the hub afterwards. -/
def Hub.run [ServiceEntry E] (depth : Nat) (h : Hub E) (command : Command E) :
    Except Halt (Answer × Hub E) :=
  Run.run depth command h

/-- The answers to commands carried out one after the other, and the hub afterwards. -/
def Hub.runAll [ServiceEntry E] (depth : Nat) :
    Hub E → List (Command E) → Except Halt (List Answer × Hub E)
  | h, [] => .ok ([], h)
  | h, command :: commands => do
    let (answer, h) ← h.run depth command
    let (answers, h) ← Hub.runAll depth h commands
    pure (answer :: answers, h)

/-- A sequence of commands reaches a result exactly when its first command does and the others
go on from there. -/
theorem Hub.runAll_cons_eq_ok [ServiceEntry E] {depth : Nat} {h h' : Hub E} {command : Command E}
    {commands : List (Command E)} {answers : List Answer} :
    h.runAll depth (command :: commands) = .ok (answers, h') ↔ ∃ answer h₁ rest,
      h.run depth command = .ok (answer, h₁) ∧ h₁.runAll depth commands = .ok (rest, h') ∧
      answers = answer :: rest := by
  rw [Hub.runAll]
  cases h.run depth command with
  | error halt =>
    constructor
    · intro hr
      cases hr
    · rintro ⟨_, _, _, hr, -⟩
      cases hr
  | ok p =>
    obtain ⟨answer, h₁⟩ := p
    show (Hub.runAll depth h₁ commands >>= fun q => pure (answer :: q.1, q.2)) = _ ↔ _
    cases hq : Hub.runAll depth h₁ commands with
    | error halt =>
      constructor
      · intro hr
        cases hr
      · rintro ⟨_, _, _, hr, hrest, -⟩
        cases hr
        rw [hq] at hrest
        cases hrest
    | ok q =>
      constructor
      · intro hr
        cases hr
        exact ⟨answer, h₁, q.1, rfl, hq, rfl⟩
      · rintro ⟨_, _, _, hr, hrest, rfl⟩
        cases hr
        rw [hq] at hrest
        cases hrest
        rfl

end LiveServices
