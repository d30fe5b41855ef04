import LiveServices.Filter.Match
import LiveServices.Filter.Parser
import LiveServices.Proofs.Properties.Entries
import Mathlib.Data.List.Pairwise

/-!
# Attribute names in any case

A property is looked up under its key first and then under a key that differs from it in ASCII case
only, the first one in the order of the keys. Where no two keys of a map differ in case only there
is at most one such key, so what is found does not depend on how it is written
(`Properties.CaseDistinct.lookup_eq_some_iff`). The order of the keys does: a map with its keys in
another case has them in another order. It has the same entries, and that is enough
(`Properties.CaseDistinct.lookup_rekeyed`).

So the names in a filter and the keys of a map may be written in any case
(`ServiceFilter.attribute_names_caseless`).
-/

namespace LiveServices

namespace Text

theorem sameIgnoringAsciiCase_comm (a b : String) :
    sameIgnoringAsciiCase a b = sameIgnoringAsciiCase b a := Bool.beq_comm

theorem sameIgnoringAsciiCase_trans {a b c : String} (hab : sameIgnoringAsciiCase a b = true)
    (hbc : sameIgnoringAsciiCase b c = true) : sameIgnoringAsciiCase a c = true :=
  sameIgnoringAsciiCase_iff.2
    ((sameIgnoringAsciiCase_iff.1 hab).trans (sameIgnoringAsciiCase_iff.1 hbc))

end Text

/-! ## Maps -/

namespace Properties

variable {p : Properties} {key other : String} {value : PropertyValue} {rename : String → String}

/-- No two keys of the map differ in ASCII case only. -/
def CaseDistinct (p : Properties) : Prop :=
  p.keys.Pairwise fun a b => Text.sameIgnoringAsciiCase a b = false

instance (p : Properties) : Decidable p.CaseDistinct := List.instDecidablePairwise ..

/-- The map with its keys renamed. -/
def rekeyed (rename : String → String) (p : Properties) : Properties :=
  ofList (p.entries.map fun e => (rename e.1, e.2))

/-- Keys are renamed to keys that differ from them in ASCII case only. -/
def Recases (rename : String → String) (p : Properties) : Prop :=
  ∀ key ∈ p.keys, Text.sameIgnoringAsciiCase (rename key) key = true

instance (rename : String → String) (p : Properties) : Decidable (p.Recases rename) :=
  inferInstanceAs (Decidable (∀ key ∈ p.keys, _))

/-- The second map has under each key, in whatever case, what the first has under the key. -/
def AlikeInAnyCase (p q : Properties) : Prop :=
  ∀ key other, Text.sameIgnoringAsciiCase other key = true → q.lookup other = p.lookup key

namespace CaseDistinct

/-- A key that differs from a key of the map in case only is that key. -/
theorem eq_of_same (hp : p.CaseDistinct) {a b : String × PropertyValue} (ha : a ∈ p.entries)
    (hb : b ∈ p.entries) (hab : Text.sameIgnoringAsciiCase a.1 b.1 = true) : a = b := by
  by_contra hne
  have hsymm : Std.Symm fun a b : String × PropertyValue =>
      Text.sameIgnoringAsciiCase a.1 b.1 = false :=
    ⟨fun a b h => (Text.sameIgnoringAsciiCase_comm b.1 a.1).trans h⟩
  have hdistinct := (List.pairwise_map.1 hp).forall ha hb hne
  rw [hab] at hdistinct
  cases hdistinct

/-- What is found under a key is what stands under it in any case. -/
theorem lookup_eq_some_iff (hp : p.CaseDistinct) : p.lookup key = some value ↔
    ∃ k, Text.sameIgnoringAsciiCase k key = true ∧ (k, value) ∈ p.entries := by
  constructor
  · intro h
    rcases Option.or_eq_some_iff.1 h with hexact | ⟨-, hscan⟩
    · exact ⟨key, Text.sameIgnoringAsciiCase_refl key, find?_eq_some_iff.1 hexact⟩
    · obtain ⟨⟨k, v⟩, hfound, rfl⟩ := Option.map_eq_some_iff.1 hscan
      have hk := List.find?_some hfound
      exact ⟨k, hk, List.mem_of_find?_eq_some hfound⟩
  · rintro ⟨k, hk, hmem⟩
    cases hexact : p.find? key with
    | some v =>
      obtain ⟨-, rfl⟩ := Prod.mk.inj (hp.eq_of_same hmem (find?_eq_some_iff.1 hexact) hk)
      exact lookup_of_find? hexact
    | none =>
      rw [lookup, hexact, Option.none_or]
      cases hscan : p.entries.find? fun e => Text.sameIgnoringAsciiCase e.1 key with
      | none => exact absurd hk (List.find?_eq_none.1 hscan _ hmem)
      | some e =>
        -- the scan stops at a key that is written in another case, and there is one only
        have he := List.find?_some hscan
        rw [Text.sameIgnoringAsciiCase_comm] at he
        rw [← hp.eq_of_same hmem (List.mem_of_find?_eq_some hscan)
          (Text.sameIgnoringAsciiCase_trans hk he)]
        rfl

/-- Keys that are written in another case still differ in more than their case. -/
theorem pairwise_renamed (hp : p.CaseDistinct) (hrename : p.Recases rename) :
    (p.entries.map fun e => (rename e.1, e.2)).Pairwise fun a b =>
      Text.sameIgnoringAsciiCase a.1 b.1 = false := by
  refine List.pairwise_map.2 ((List.pairwise_map.1 hp).imp_of_mem fun {a b} ha hb hab => ?_)
  have hfirst := hrename a.1 (List.mem_map_of_mem ha)
  have hsecond := hrename b.1 (List.mem_map_of_mem hb)
  rw [Text.sameIgnoringAsciiCase_comm] at hfirst
  rw [← Bool.not_eq_true]
  intro hsame
  rw [Text.sameIgnoringAsciiCase_trans hfirst (Text.sameIgnoringAsciiCase_trans hsame hsecond)]
    at hab
  cases hab

/-- The entries of a map whose keys are written in another case. -/
theorem rekeyed_perm (hp : p.CaseDistinct) (hrename : p.Recases rename) :
    (p.rekeyed rename).entries.Perm (p.entries.map fun e => (rename e.1, e.2)) := by
  refine perm_ofList (List.pairwise_map.2 ((hp.pairwise_renamed hrename).imp ?_))
  intro a b hdiffer heq
  rw [heq, Text.sameIgnoringAsciiCase_refl] at hdiffer
  cases hdiffer

theorem rekeyed (hp : p.CaseDistinct) (hrename : p.Recases rename) :
    (p.rekeyed rename).CaseDistinct := by
  have hsymm {a b : String × PropertyValue}
      (h : Text.sameIgnoringAsciiCase a.1 b.1 = false) :
      Text.sameIgnoringAsciiCase b.1 a.1 = false :=
    (Text.sameIgnoringAsciiCase_comm b.1 a.1).trans h
  exact List.pairwise_map.2
    (((hp.rekeyed_perm hrename).pairwise_iff hsymm).2 (hp.pairwise_renamed hrename))

/-- **Keys.** What is found under a key does not depend on the case of the keys, and not on the
case in which it is looked up. -/
theorem lookup_rekeyed (hp : p.CaseDistinct) (hrename : p.Recases rename) :
    p.AlikeInAnyCase (p.rekeyed rename) := by
  intro key other hother
  refine Option.ext fun value => ?_
  rw [(hp.rekeyed hrename).lookup_eq_some_iff, hp.lookup_eq_some_iff]
  simp only [(hp.rekeyed_perm hrename).mem_iff, List.mem_map]
  constructor
  · rintro ⟨_, hk, ⟨k, v⟩, hmem, heq⟩
    obtain ⟨rfl, rfl⟩ := Prod.mk.inj heq
    have hrenamed := hrename k (List.mem_map_of_mem hmem)
    rw [Text.sameIgnoringAsciiCase_comm] at hrenamed
    exact ⟨k, Text.sameIgnoringAsciiCase_trans hrenamed
      (Text.sameIgnoringAsciiCase_trans hk hother), hmem⟩
  · rintro ⟨k, hk, hmem⟩
    rw [Text.sameIgnoringAsciiCase_comm] at hother
    exact ⟨rename k, Text.sameIgnoringAsciiCase_trans (hrename k (List.mem_map_of_mem hmem))
      (Text.sameIgnoringAsciiCase_trans hk hother), (k, value), hmem, rfl⟩

end CaseDistinct

end Properties

/-! ## Filters -/

namespace ServiceFilter

namespace Node

mutual
/-- Trees that differ in the ASCII case of the names of attributes only. -/
inductive Recased : Node → Node → Prop where
  | and {ns ms : List Node} (h : AllRecased ns ms) : Recased (.and ns) (.and ms)
  | or {ns ms : List Node} (h : AllRecased ns ms) : Recased (.or ns) (.or ms)
  | not {n m : Node} (h : Recased n m) : Recased (.not n) (.not m)
  | present {k l : String} (h : Text.sameIgnoringAsciiCase l k = true) :
    Recased (.present k) (.present l)
  | equal {k l : String} (h : Text.sameIgnoringAsciiCase l k = true) (pattern : Pattern) :
    Recased (.equal k pattern) (.equal l pattern)
  | approx {k l : String} (h : Text.sameIgnoringAsciiCase l k = true) (value : String) :
    Recased (.approx k value) (.approx l value)
  | greaterEq {k l : String} (h : Text.sameIgnoringAsciiCase l k = true) (value : String) :
    Recased (.greaterEq k value) (.greaterEq l value)
  | lessEq {k l : String} (h : Text.sameIgnoringAsciiCase l k = true) (value : String) :
    Recased (.lessEq k value) (.lessEq l value)

/-- Lists of such trees. -/
inductive AllRecased : List Node → List Node → Prop where
  | nil : AllRecased [] []
  | cons {n m : Node} {ns ms : List Node} (h : Recased n m) (hs : AllRecased ns ms) :
    AllRecased (n :: ns) (m :: ms)
end

variable {p q : Properties}

mutual
/-- A tree holds or not whatever the case of the names in it, if what is found under them does not
depend on their case. -/
theorem Recased.holds_eq (hpq : p.AlikeInAnyCase q) :
    ∀ {n m : Node}, n.Recased m → m.holds q = n.holds p
  | _, _, .and h => by rw [holds, holds, (h.holds_eq hpq).1]
  | _, _, .or h => by rw [holds, holds, (h.holds_eq hpq).2]
  | _, _, .not h => by rw [holds, holds, h.holds_eq hpq]
  | _, _, .present h | _, _, .equal h _ | _, _, .approx h _ | _, _, .greaterEq h _
  | _, _, .lessEq h _ => by rw [holds, holds, hpq _ _ h]

theorem AllRecased.holds_eq (hpq : p.AlikeInAnyCase q) :
    ∀ {ns ms : List Node}, AllRecased ns ms →
      allHold q ms = allHold p ns ∧ anyHolds q ms = anyHolds p ns
  | _, _, .nil => ⟨rfl, rfl⟩
  | _, _, .cons h hs => by
    obtain ⟨hall, hany⟩ := hs.holds_eq hpq
    rw [allHold, allHold, anyHolds, anyHolds, h.holds_eq hpq, hall, hany]
    exact ⟨rfl, rfl⟩
end

end Node

variable {p : Properties} {rename : String → String}

/-- **Attribute names in any case.** Take a map of which no two keys differ in ASCII case only, and
write its keys in another case. Each filter with names in whatever case accepts the renamed map
exactly if the filter accepts the map, and under each key in whatever case the same is found. -/
theorem attribute_names_caseless (hp : p.CaseDistinct) (hrename : p.Recases rename) :
    (∀ filter filter' : ServiceFilter, filter.node.Recased filter'.node →
      filter'.accepts (p.rekeyed rename) = filter.accepts p) ∧
    ∀ key key', Text.sameIgnoringAsciiCase key' key = true →
      (p.rekeyed rename).lookup key' = p.lookup key := by
  have hlookup := hp.lookup_rekeyed hrename
  exact ⟨fun _ _ hnode => hnode.holds_eq hlookup, hlookup⟩

/-- A service that speaks English. -/
def fluent : Properties :=
  .ofList [("Lang", .text "en"), ("objectClass", .list ["Greeter"]), ("rank", .long 7)]

/-- Other ways to write the keys; they put them in another order. -/
def recapitalized (key : String) : String :=
  if key = "Lang" then "lANG" else if key = "rank" then "RANK" else key

/-- A filter with all three connectives accepts the map, and with its names and those of the map in
other cases it accepts it still. One of its names is in neither map. -/
theorem attribute_names_caseless_mixed : fluent.CaseDistinct ∧ fluent.Recases recapitalized ∧
    (fluent.rekeyed recapitalized).keys = ["RANK", "lANG", "objectClass"] ∧
    (∃ filter filter' : ServiceFilter,
      parse "(&(objectClass=Greeter)(!(|(lang=fr)(rank<=3)(Beta=*))))" = .ok filter ∧
      parse "(&(OBJECTCLASS=Greeter)(!(|(LANG=fr)(rAnK<=3)(beta=*))))" = .ok filter' ∧
      filter.node.Recased filter'.node ∧ filter.accepts fluent = true ∧
      filter'.accepts (fluent.rekeyed recapitalized) = true) ∧
    Text.sameIgnoringAsciiCase "Rank" "rANK" = true ∧
    (fluent.rekeyed recapitalized).lookup "Rank" = fluent.lookup "rANK" := by
  have hp : fluent.CaseDistinct := by decide
  have hrename : fluent.Recases recapitalized := by decide
  have hrank : Text.sameIgnoringAsciiCase "Rank" "rANK" = true := by decide
  obtain ⟨haccepts, hlookup⟩ := attribute_names_caseless hp hrename
  refine ⟨hp, hrename, by decide, ⟨_, _, rfl, rfl, ?names, by decide,
    (haccepts _ _ ?names).trans (by decide)⟩, hrank, hlookup _ _ hrank⟩
  exact .and (.cons (.equal (by decide) _) (.cons (.not (.or (.cons (.equal (by decide) _)
    (.cons (.lessEq (by decide) _) (.cons (.present (by decide)) .nil))))) .nil))

end ServiceFilter

end LiveServices
