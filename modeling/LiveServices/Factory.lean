import LiveServices.Command

/-!
# Entry factories

A factory makes the entry of a service. It may fail or panic, and with the entry it may hand
over a release action, to be run once when the entry is taken away.

A factory is told the number of the attempt, counted over the whole run. Whatever a factory
remembers of earlier attempts, in one run it is a function of that number and the service.
-/

namespace LiveServices

/-- A release action: whether a log shows it, and what it does. -/
structure Release (E : Type) where
  announced : Bool
  response : Response E

/-- A release action that gives no commands. It may fail and panic. -/
def Release.IsPassive (release : Release E) : Prop := release.response.commands = []

/-- What came of an attempt to make an entry. -/
inductive Creation (E : Type) where
  | made (entry : E) (release : Option (Release E))
  | failed (failure : Failure)
  /-- A panic, with its message if it has one. -/
  | panicked (message : Option String)

namespace Creation

/-- The entry that was made. -/
def product? : Creation E → Option E
  | made entry _ => some entry
  | _ => none

/-- The release action that came with the entry. -/
def release? : Creation E → Option (Release E)
  | made _ release => release
  | _ => none

/-- The inspection text of what was made, after these releases. -/
def inspect? [ServiceEntry E] (released : List Nat) (c : Creation E) : Option String :=
  c.product?.map fun e => Text.record "CreatedEntry" [("entry", ServiceEntry.text released e),
    ("release", if c.release?.isSome then "true" else "false")]

end Creation

/-- A factory of entries. -/
structure Factory (E : Type) where
  name : String
  /-- The attempt of this number for this service. -/
  create : Nat → ServiceReference → Creation E

/-- A factory whose release actions give no commands. -/
def Factory.IsPassive (factory : Factory E) : Prop :=
  ∀ serial r entry release, factory.create serial r = .made entry (some release) → release.IsPassive

namespace Factory

/-- The factory that hands out the reference itself. -/
def reference : Factory Entry where
  name := "reference"
  create _ r := .made (.reference r) none

/-- The factory of proxies. The release of a proxy does nothing but end it. -/
def proxy : Factory Entry where
  name := "proxy"
  create serial r := .made (.proxy serial r) (some ⟨false, .silent⟩)

/-- The factory for proxies or for plain references. -/
def ofProxies (proxies : Bool) : Factory Entry := if proxies then proxy else reference

/-- What is made by the factory of proxies is released without commands. -/
theorem isPassive_ofProxies (proxies : Bool) : (ofProxies proxies).IsPassive := by
  intro serial r entry release hm
  cases proxies <;> cases hm
  rfl

end Factory

end LiveServices
