import LiveServices.Failure
import LiveServices.Text.Quoted

/-!
# Filters

A filter is a condition on the properties of a service, written as a text such as
`(&(objectClass=Greeter)(!(beta=true)))`. Here are its tree and the ways in which a text can fail
to be one. `Filter/Parser` reads texts, `Filter/Match` decides trees.
-/

namespace LiveServices

namespace ServiceFilter

/-- The text that a property is compared with, cut at its wildcards: a pattern of one part has
none, and between two neighbouring parts anything may stand. -/
structure Pattern where
  first : String
  more : List String
  deriving DecidableEq

namespace Pattern

/-- The parts in order. -/
def parts (p : Pattern) : List String := p.first :: p.more

/-- The pattern of a list of parts; no parts count as one empty part. -/
def ofParts : List String → Pattern
  | [] => ⟨"", []⟩
  | first :: more => ⟨first, more⟩

/-- The parts with a star between neighbours, as the ordered and approximate comparisons take the
text. -/
def starred (p : Pattern) : String := "*".intercalate p.parts

/-- Whether the pattern is a single wildcard. -/
def isStar (p : Pattern) : Bool := p.parts == ["", ""]

/-- The inspection text of a pattern. -/
def inspect (p : Pattern) : String :=
  Text.record "Pattern" [("parts", Text.bracketed (p.parts.map Text.quote))]

end Pattern

/-- The tree of a filter. -/
inductive Node where
  /-- All of the conditions hold. -/
  | and (nodes : List Node)
  /-- One of the conditions holds. -/
  | or (nodes : List Node)
  /-- The condition does not hold. -/
  | not (node : Node)
  /-- The property is there. -/
  | present (key : String)
  /-- The property has a text that fits the pattern. -/
  | equal (key : String) (pattern : Pattern)
  /-- The property has this text, blanks and case aside. -/
  | approx (key value : String)
  /-- The property is at least this. -/
  | greaterEq (key value : String)
  /-- The property is at most this. -/
  | lessEq (key value : String)

namespace Node

mutual
/-- The inspection text of a tree. -/
def inspect : Node → String
  | and nodes => Text.applied "And" [Text.bracketed (inspectAll nodes)]
  | or nodes => Text.applied "Or" [Text.bracketed (inspectAll nodes)]
  | not node => Text.applied "Not" [node.inspect]
  | present key => Text.applied "Present" [Text.quote key]
  | equal key pattern => Text.applied "Equal" [Text.quote key, pattern.inspect]
  | approx key value => Text.applied "Approx" [Text.quote key, Text.quote value]
  | greaterEq key value => Text.applied "GreaterEq" [Text.quote key, Text.quote value]
  | lessEq key value => Text.applied "LessEq" [Text.quote key, Text.quote value]

/-- The inspection texts of trees. -/
def inspectAll : List Node → List String
  | [] => []
  | node :: nodes => node.inspect :: inspectAll nodes
end

mutual
/-- Whether two trees are the same. -/
def same : Node → Node → Bool
  | and ns, and ms | or ns, or ms => sameAll ns ms
  | not n, not m => n.same m
  | present k, present l => k == l
  | equal k p, equal l q => k == l && p == q
  | approx k v, approx l w | greaterEq k v, greaterEq l w | lessEq k v, lessEq l w =>
    k == l && v == w
  | _, _ => false

/-- Whether two lists of trees are the same. -/
def sameAll : List Node → List Node → Bool
  | [], [] => true
  | n :: ns, m :: ms => n.same m && sameAll ns ms
  | _, _ => false
end

end Node

/-- Why a text is not a filter. -/
inductive Cause where
  | expectedOpen
  | expectedClose
  | expectedEquals
  | expectedOperator
  | unexpectedEnd
  | missingName
  | emptyList
  | unterminatedValue
  | unescapedOpen
  | danglingEscape
  | trailing
  deriving DecidableEq

namespace Cause

/-- The wording of a cause. -/
def message : Cause → String
  | expectedOpen => "expected '('"
  | expectedClose => "expected ')'"
  | expectedEquals => "expected '='"
  | expectedOperator => "expected operator"
  | unexpectedEnd => "unexpected end of filter"
  | missingName => "missing attribute name"
  | emptyList => "empty filter list"
  | unterminatedValue => "unterminated value"
  | unescapedOpen => "unescaped '(' in value"
  | danglingEscape => "dangling escape"
  | trailing => "trailing characters after filter"

end Cause

/-- A text that is not a filter: why, and after how many characters that is certain. -/
structure SyntaxError where
  cause : Cause
  position : Nat
  deriving DecidableEq

/-- The wording of a syntax error. -/
def SyntaxError.message (e : SyntaxError) : String :=
  e.cause.message ++ " at position " ++ toString e.position

end ServiceFilter

/-- A filter: its text without the blanks at either end, and its tree. -/
structure ServiceFilter where
  source : String
  node : ServiceFilter.Node

namespace ServiceFilter

/-- The inspection text of a filter. -/
def inspect (f : ServiceFilter) : String :=
  Text.record "ServiceFilter" [("source", Text.quote f.source), ("node", f.node.inspect)]

instance : BEq ServiceFilter := ⟨fun f g => f.source == g.source && f.node.same g.node⟩

end ServiceFilter

end LiveServices
