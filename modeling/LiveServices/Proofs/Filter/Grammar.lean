import LiveServices.Filter.Parser

/-!
# The grammar of filters

Which texts are filters, and what tree such a text has, said without a reader. A condition stands
in parentheses, with blanks before it and after its opening; a conjunction and a disjunction hold
at least one condition, a negation holds one, and every other condition compares an attribute with
a value. Blanks may stand before the closing of a composite condition and after the whole filter;
before the closing of a comparison they belong to its value.

`Derives` is the relation between a text and its tree. `parse_iff_derives` in `Filter/Reading`
says that it is the one that `ServiceFilter.parse` decides.
-/

namespace LiveServices.ServiceFilter

/-- A run of blanks, which may be empty. -/
def Blanks (cs : List Char) : Prop := ∀ c ∈ cs, Text.isBlank c = true

/-- The text of an attribute name. It does not start as a composite condition does. -/
structure IsName (cs : List Char) : Prop where
  first : ∃ c rest, cs = c :: rest ∧ Text.isBlank c = false ∧ c ∉ ['&', '|', '!']
  plain : ∀ c ∈ cs, c ∉ ['=', '<', '>', '~', '(', ')']

/-- The text of a value, with its parts between the stars: those that are complete and the last
one. A backslash takes the next character as it is. -/
inductive Value : List Char → List (List Char) → List Char → Prop where
  | nil : Value [] [] []
  | plain {v : List Char} {done : List (List Char)} {last : List Char} {c : Char}
    (hv : Value v done last) (hc : c ∉ ['(', ')', '\\', '*']) :
    Value (v ++ [c]) done (last ++ [c])
  | escaped {v : List Char} {done : List (List Char)} {last : List Char} (c : Char)
    (hv : Value v done last) : Value (v ++ ['\\', c]) done (last ++ [c])
  | star {v : List Char} {done : List (List Char)} {last : List Char} (hv : Value v done last) :
    Value (v ++ ['*']) (done ++ [last]) []

/-- The pattern of the parts of a value. -/
def patternOf (done : List (List Char)) (last : List Char) : Pattern :=
  .ofParts ((done ++ [last]).map String.ofList)

namespace Relation

/-- How a relation is written. -/
def sign : Relation → List Char
  | equal => ['=']
  | approx => ['~', '=']
  | greaterEq => ['>', '=']
  | lessEq => ['<', '=']

/-- The condition that a relation makes of an attribute and a value: a lone star asks whether the
attribute is there, and a relation other than equality takes the stars as they stand. -/
def condition (relation : Relation) (key : String) (value : List Char) (pattern : Pattern) : Node :=
  match relation with
  | equal => if value = ['*'] then .present key else .equal key pattern
  | approx => .approx key pattern.starred
  | greaterEq => .greaterEq key pattern.starred
  | lessEq => .lessEq key pattern.starred

end Relation

/-- The text of a comparison, without its parentheses, and its tree. -/
inductive Comparison : List Char → Node → Prop where
  | mk {name value : List Char} {done : List (List Char)} {last : List Char} (relation : Relation)
    (hname : IsName name) (hvalue : Value value done last) :
    Comparison (name ++ (relation.sign ++ value))
      (relation.condition (String.ofList (Text.trimChars name)) value (patternOf done last))

/-- A text in parentheses, with blanks before it and after the opening. -/
def enclosed (before inside cs : List Char) : List Char :=
  before ++ '(' :: (inside ++ (cs ++ [')']))

/-- How several conditions are joined to one. -/
inductive Junction where
  | all
  | any

namespace Junction

/-- How a junction is written. -/
def sign : Junction → Char
  | all => '&'
  | any => '|'

/-- The condition that a junction makes of several. -/
def node : Junction → List Node → Node
  | all => .and
  | any => .or

end Junction

/-- The text of a condition, with the blanks before it, and its tree. -/
inductive Condition : List Char → Node → Prop where
  | joined {w₁ w₂ w₃ : List Char} {conds : List (List Char × Node)} (junction : Junction)
    (h₁ : Blanks w₁) (h₂ : Blanks w₂) (h₃ : Blanks w₃) (hne : conds ≠ [])
    (hc : ∀ c ∈ conds, Condition c.1 c.2) :
    Condition (enclosed w₁ w₂ (junction.sign :: (conds.flatMap Prod.fst ++ w₃)))
      (junction.node (conds.map Prod.snd))
  | not {w₁ w₂ w₃ cs : List Char} {node : Node} (h₁ : Blanks w₁) (h₂ : Blanks w₂) (h₃ : Blanks w₃)
    (hc : Condition cs node) : Condition (enclosed w₁ w₂ ('!' :: (cs ++ w₃))) (.not node)
  | comparison {w₁ w₂ cs : List Char} {node : Node} (h₁ : Blanks w₁) (h₂ : Blanks w₂)
    (hc : Comparison cs node) : Condition (enclosed w₁ w₂ cs) node

/-- The text of a filter and its tree. -/
def Derives (cs : List Char) (node : Node) : Prop :=
  ∃ condition blanks, cs = condition ++ blanks ∧ Condition condition node ∧ Blanks blanks

/-! ## Blanks -/

theorem Blanks.nil : Blanks [] := fun _ hc => absurd hc List.not_mem_nil

theorem Blanks.snoc {cs : List Char} {c : Char} (hcs : Blanks cs) (hc : Text.isBlank c = true) :
    Blanks (cs ++ [c]) := by
  intro d hd
  rcases List.mem_append.1 hd with hd | hd
  · exact hcs d hd
  · exact List.mem_singleton.1 hd ▸ hc

/-! ## Values -/

namespace Value

variable {v : List Char} {done : List (List Char)} {last : List Char}

/-- A value without a part is empty. -/
theorem eq_nil (hv : Value v done last) (hdone : done = []) (hlast : last = []) : v = [] := by
  cases hv with
  | nil => rfl
  | plain => simp at hlast
  | escaped => simp at hlast
  | star => simp at hdone

/-- An empty value has no parts but one that is empty. -/
theorem parts_of_nil (hv : Value v done last) (hnil : v = []) : done = [] ∧ last = [] := by
  cases hv with
  | nil => exact ⟨rfl, rfl⟩
  | plain => simp at hnil
  | escaped => simp at hnil
  | star => simp at hnil

/-- The pattern is a single wildcard exactly if the value is a lone star. -/
theorem isStar_iff (hv : Value v done last) : (patternOf done last).isStar = true ↔ v = ['*'] := by
  have hparts : (patternOf done last).isStar = true ↔ done = [[]] ∧ last = [] := by
    cases done with
    | nil => simp [patternOf, Pattern.isStar, Pattern.ofParts, Pattern.parts]
    | cons first more =>
      cases more with
      | nil => simp [patternOf, Pattern.isStar, Pattern.ofParts, Pattern.parts]
      | cons second more => simp [patternOf, Pattern.isStar, Pattern.ofParts, Pattern.parts]
  rw [hparts]
  constructor
  · rintro ⟨hdone, hlast⟩
    cases hv with
    | nil => cases hdone
    | plain => simp at hlast
    | escaped => simp at hlast
    | @star v done last hv =>
      -- before the star there was no part
      obtain ⟨rfl, hlast⟩ : done = [] ∧ last = [] := by
        cases done with
        | nil => exact ⟨rfl, by simpa using hdone⟩
        | cons first more => simp at hdone
      rw [hv.eq_nil rfl hlast]
      rfl
  · intro hstar
    cases hv with
    | nil => cases hstar
    | @plain v done last c hv hc =>
      obtain ⟨-, rfl⟩ : v = [] ∧ c = '*' := by simpa using List.append_eq_singleton_iff.1 hstar
      simp at hc
    | escaped c hv =>
      have hlen := congrArg List.length hstar
      simp at hlen
    | @star v done last hv =>
      have hnil : v = [] := by simpa using hstar
      obtain ⟨rfl, rfl⟩ := hv.parts_of_nil hnil
      exact ⟨rfl, rfl⟩

end Value

end LiveServices.ServiceFilter
