import LiveServices.Filter.Basic

/-!
# Dependencies

What an importer depends on: some service that its filter accepts, or at least one if the
dependency is mandatory. Only a mandatory dependency can be unavailable.
-/

namespace LiveServices

/-- The declared dependency of an importer. -/
structure Dependency where
  beanName : String
  filter : ServiceFilter
  mandatory : Bool

namespace Dependency

/-- The text of a dependency, as messages show it. -/
def display (d : Dependency) : String :=
  "DependencyService[Name=" ++ d.beanName ++ "][Filter=" ++ d.filter.source ++ "][Mandatory=" ++
    (if d.mandatory then "true" else "false") ++ "]"

/-- The inspection text of a dependency. -/
def inspect (d : Dependency) : String :=
  Text.record "ServiceDependency" [("bean_name", Text.quote d.beanName),
    ("filter", d.filter.inspect), ("mandatory", if d.mandatory then "true" else "false")]

/-- Whether a dependency is met by this many services. -/
def isSatisfied (d : Dependency) (size : Nat) : Bool := !d.mandatory || size != 0

/-- The failure of reading services while the dependency is not met. -/
def check (d : Dependency) (size : Nat) : Except Failure Unit :=
  if d.isSatisfied size then .ok () else .error (.serviceUnavailable d.filter.source)

end Dependency

end LiveServices
