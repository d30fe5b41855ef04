import LiveServices.Filter.Basic
import LiveServices.Property
import LiveServices.Text.Blank

/-!
# What a filter matches

`ServiceFilter.accepts` decides a filter on a property map. A wildcard pattern is decided without
backtracking: its first part is cut off the front of the text, its last part off the end, and each
part between them is searched from the left in what remains.

The cuts are functions on characters, and each is pinned by the equation that it solves:
`after?_eq_some_iff` for a cut at the front, `before?_eq_some_iff` for one at the end.
-/

namespace LiveServices.ServiceFilter

/-- What follows a part at the front of a text. -/
def after? : List Char → List Char → Option (List Char)
  | [], v => some v
  | _ :: _, [] => none
  | c :: p, d :: v => if c = d then after? p v else none

/-- What precedes a part at the end of a text. -/
def before? (p v : List Char) : Option (List Char) := (after? p.reverse v.reverse).map List.reverse

/-- What follows the leftmost occurrence of a part in a text. -/
def afterFirst? (p : List Char) : List Char → Option (List Char)
  | [] => after? p []
  | d :: v =>
    match after? p (d :: v) with
    | some rest => some rest
    | none => afterFirst? p v

/-- Whether the parts occur in a text one after the other. -/
def occur : List (List Char) → List Char → Bool
  | [], _ => true
  | p :: ps, v =>
    match afterFirst? p v with
    | some rest => occur ps rest
    | none => false

/-- Whether a text starts with a first part, ends with a last part after it, and holds the parts
between them in order. -/
def fits (first : List Char) (between : List (List Char)) (last v : List Char) : Bool :=
  match (after? first v).bind (before? last) with
  | some rest => occur between rest
  | none => false

/-- What follows a part in a text is the rest of it. -/
theorem after?_eq_some_iff {p v r : List Char} : after? p v = some r ↔ v = p ++ r := by
  fun_induction after? p v with
  | case1 v => simp [eq_comm]
  | case2 c p => simp
  | case3 p d v ih => simp [ih]
  | case4 c p d v h => simp [Ne.symm h]

/-- What precedes a part in a text is the rest of it. -/
theorem before?_eq_some_iff {p v r : List Char} : before? p v = some r ↔ v = r ++ p := by
  rw [before?, Option.map_eq_some_iff]
  constructor
  · rintro ⟨a, ha, rfl⟩
    have := congrArg List.reverse (after?_eq_some_iff.1 ha)
    simpa using this
  · rintro rfl
    exact ⟨r.reverse, after?_eq_some_iff.2 (by simp), by simp⟩

namespace Pattern

/-- A text without wildcards: an integer numeral matches every numeral of the same integer, a
truth value matches it in any case, and any other text matches itself. -/
def matchesExactly (part value : String) : Bool :=
  match Text.long? (Text.trim part) with
  | some wanted => value == part || Text.long? value == some wanted
  | none =>
    if Text.sameIgnoringAsciiCase value "true" || Text.sameIgnoringAsciiCase value "false" then
      Text.sameIgnoringAsciiCase value (Text.trim part)
    else value == part

/-- Whether a text fits a pattern. -/
def matchesText (p : Pattern) (value : String) : Bool :=
  match p.more.getLast? with
  | none => matchesExactly p.first value
  | some last =>
    fits p.first.toList (p.more.dropLast.map String.toList) last.toList value.toList

end Pattern

/-- A text without its blanks and in lower case. -/
def loosened (s : String) : List Char :=
  (s.toList.filter fun c => !Text.isBlank c).flatMap Text.lower

/-- Whether a property has a text that passes a test; each item of a list is one of its texts. -/
def anyText (test : String → Bool) : Option PropertyValue → Bool
  | some (.list items) => items.any test
  | some value => test value.display
  | none => false

/-- Whether a property stands in a wanted order to a text. An integer is compared with the integer
that the text denotes, everything else with the text. -/
def anyOrder (wanted : Ordering → Bool) (value : String) : Option PropertyValue → Bool
  | some (.long actual) =>
    match Text.long? (Text.trim value) with
    | some bound => wanted (compare actual bound)
    | none => false
  | some (.list items) => items.any fun item => wanted (compare item value)
  | some other => wanted (compare other.display value)
  | none => false

namespace Node

mutual
/-- Whether the properties meet the condition. -/
def holds (p : Properties) : Node → Bool
  | and nodes => allHold p nodes
  | or nodes => anyHolds p nodes
  | not node => !node.holds p
  | present key => (p.lookup key).isSome
  | equal key pattern => anyText pattern.matchesText (p.lookup key)
  | approx key value => anyText (fun s => loosened s == loosened value) (p.lookup key)
  | greaterEq key value => anyOrder (· != .lt) value (p.lookup key)
  | lessEq key value => anyOrder (· != .gt) value (p.lookup key)

/-- Whether the properties meet every condition. -/
def allHold (p : Properties) : List Node → Bool
  | [] => true
  | node :: nodes => node.holds p && allHold p nodes

/-- Whether the properties meet one of the conditions. -/
def anyHolds (p : Properties) : List Node → Bool
  | [] => false
  | node :: nodes => node.holds p || anyHolds p nodes
end

end Node

/-- Whether a filter accepts these properties. -/
def accepts (f : ServiceFilter) (p : Properties) : Bool := f.node.holds p

end LiveServices.ServiceFilter
