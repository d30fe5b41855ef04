import LiveServices.Filter.Match
import LiveServices.Reference

/-!
# Keys that a filter tests

Whether a filter accepts properties depends on the keys that it tests, and on nothing else
(`ServiceFilter.Node.holds_congr`). A property is found under its key or under one that differs from
it in ASCII case only, so what stands under other keys makes no difference
(`lookup_insert_of_other`).

The identity of a service is a property too. A filter that does not test for it accepts a service
whatever its number is (`ServiceFilter.Unnumbered.accepts_new`).
-/

namespace LiveServices

namespace Properties

/-- An entry that does not pass a test on its key is not found by it. -/
theorem find?_insertEntry_of_fails {key : String} (test : String → Bool) (ht : test key = false)
    (value : PropertyValue) (entries : List (String × PropertyValue)) :
    (insertEntry key value entries).find? (fun e => test e.1) =
      entries.find? fun e => test e.1 := by
  fun_induction insertEntry key value entries with
  | case1 => simp [ht]
  | case2 k v rest hlt => simp [ht]
  | case3 k v rest hn hlt ih => rw [List.find?_cons, List.find?_cons, ih]
  | case4 k v rest hn₁ hn₂ =>
    obtain rfl : k = key := String.le_antisymm (String.not_lt.1 hn₁) (String.not_lt.1 hn₂)
    simp [ht]

/-- An insertion leaves alone what is looked up under a key that differs in more than its case. -/
theorem lookup_insert_of_other {k key : String}
    (hk : Text.sameIgnoringAsciiCase k key = false) (p : Properties) (value : PropertyValue) :
    (p.insert k value).lookup key = p.lookup key := by
  have hne : k ≠ key := by
    rintro rfl
    rw [Text.sameIgnoringAsciiCase_refl] at hk
    cases hk
  have hfind := find?_insertEntry_of_fails
    (fun other => Text.sameIgnoringAsciiCase other key) hk value p.entries
  rw [lookup, lookup, find?_insert, if_neg hne]
  exact congrArg (fun e => (p.find? key).or (e.map (·.2))) hfind

end Properties

namespace ServiceFilter

namespace Node

mutual
/-- The keys that a tree tests. -/
def keys : Node → List String
  | and nodes | or nodes => allKeys nodes
  | not node => node.keys
  | present key | equal key _ | approx key _ | greaterEq key _ | lessEq key _ => [key]

/-- The keys that trees test. -/
def allKeys : List Node → List String
  | [] => []
  | node :: nodes => node.keys ++ allKeys nodes
end

variable {p q : Properties}

mutual
/-- A condition holds or not by what is found under the keys that it tests. -/
theorem holds_congr : ∀ (node : Node), (∀ key ∈ node.keys, p.lookup key = q.lookup key) →
    node.holds p = node.holds q
  | and nodes, h => by rw [holds, holds, (holdAll_congr nodes h).1]
  | or nodes, h => by rw [holds, holds, (holdAll_congr nodes h).2]
  | not node, h => by rw [holds, holds, holds_congr node h]
  | present key, h => by rw [holds, holds, h key List.mem_cons_self]
  | equal key pattern, h => by rw [holds, holds, h key List.mem_cons_self]
  | approx key value, h => by rw [holds, holds, h key List.mem_cons_self]
  | greaterEq key value, h => by rw [holds, holds, h key List.mem_cons_self]
  | lessEq key value, h => by rw [holds, holds, h key List.mem_cons_self]

theorem holdAll_congr : ∀ (nodes : List Node),
    (∀ key ∈ allKeys nodes, p.lookup key = q.lookup key) →
    allHold p nodes = allHold q nodes ∧ anyHolds p nodes = anyHolds q nodes
  | [], _ => ⟨rfl, rfl⟩
  | node :: nodes, h => by
    have hfirst := holds_congr node fun key hmem => h key (List.mem_append_left _ hmem)
    have hrest := holdAll_congr nodes fun key hmem => h key (List.mem_append_right _ hmem)
    rw [allHold, allHold, anyHolds, anyHolds, hfirst, hrest.1, hrest.2]
    exact ⟨rfl, rfl⟩
end

end Node

/-- The filter does not test for the identity of a service. -/
def Unnumbered (filter : ServiceFilter) : Prop :=
  ∀ key ∈ filter.node.keys,
    Text.sameIgnoringAsciiCase ServiceReference.serviceIdKey key = false

instance (filter : ServiceFilter) : Decidable filter.Unnumbered :=
  inferInstanceAs (Decidable (∀ key ∈ filter.node.keys, _))

end ServiceFilter

namespace ServiceReference

/-- A property of a service that is not its identity. -/
theorem property_new {key : String} (hk : Text.sameIgnoringAsciiCase serviceIdKey key = false)
    (id : UInt64) (properties : Properties) :
    (new id properties).property key = properties.lookup key :=
  Properties.lookup_insert_of_other hk properties _

end ServiceReference

/-- Such a filter accepts a service whatever its number is. -/
theorem ServiceFilter.Unnumbered.accepts_new {filter : ServiceFilter} (hf : filter.Unnumbered)
    (id id' : UInt64) (properties : Properties) :
    filter.accepts (ServiceReference.new id properties).properties =
      filter.accepts (ServiceReference.new id' properties).properties :=
  Node.holds_congr filter.node fun key hmem =>
    (ServiceReference.property_new (hf key hmem) id properties).trans
      (ServiceReference.property_new (hf key hmem) id' properties).symm

end LiveServices
