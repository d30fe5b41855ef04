import LiveServices.Filter.Basic
import LiveServices.Text.Blank

/-!
# Reading filters

The text of a filter is read one character at a time. What was read so far is a `State`: the
conditions that are still open around the reading point, innermost first, and what is expected
next. A state either goes on with the next character or names the cause why no filter goes on so;
the position of the cause is then the number of characters read before it.

Reading ends with the text (`ServiceFilter.parse`). Nothing is ever read twice, so the position of
an error and the recursion on the text need no further argument.
-/

namespace LiveServices.ServiceFilter

/-- How an attribute is compared. -/
inductive Relation where
  | equal
  | approx
  | greaterEq
  | lessEq
  deriving DecidableEq

/-- A condition that is still open. -/
inductive Frame where
  /-- A conjunction with the conditions read so far, the last one first. -/
  | and (done : List Node)
  /-- A disjunction with the conditions read so far, the last one first. -/
  | or (done : List Node)
  /-- A negation. -/
  | not

/-- An attribute value that is being read: its name, its relation, the parts that are complete and
the part at the reading point, both with the last one first. -/
structure Reading where
  key : String
  relation : Relation
  done : List (List Char)
  part : List Char

namespace Reading

/-- Read one more character of the value. -/
def push (r : Reading) (c : Char) : Reading := { r with part := c :: r.part }

/-- Read a wildcard. -/
def wildcard (r : Reading) : Reading := { r with done := r.part :: r.done, part := [] }

/-- The pattern that was read. -/
def pattern (r : Reading) : Pattern :=
  .ofParts ((r.part :: r.done).reverse.map fun part => String.ofList part.reverse)

/-- The condition that was read. -/
def node (r : Reading) : Node :=
  match r.relation with
  | .equal => if r.pattern.isStar then .present r.key else .equal r.key r.pattern
  | .approx => .approx r.key r.pattern.starred
  | .greaterEq => .greaterEq r.key r.pattern.starred
  | .lessEq => .lessEq r.key r.pattern.starred

end Reading

/-- What is expected at the reading point. -/
inductive Phase where
  /-- The opening of a condition, or the closing of a list that has one. -/
  | opening
  /-- What stands after an opening parenthesis. -/
  | body
  /-- The rest of an attribute name, of which this was read, the last character first. -/
  | name (read : List Char)
  /-- The equals sign of a relation of two characters. -/
  | equals (key : String) (relation : Relation)
  /-- The rest of a value. -/
  | value (reading : Reading)
  /-- The character after an escape. -/
  | escape (reading : Reading)
  /-- The closing of a negation. -/
  | closing (node : Node)
  /-- The end of the text. -/
  | finished (node : Node)

/-- The reading point: the conditions open around it and what is expected. -/
structure State where
  frames : List Frame
  phase : Phase

/-- The reading point at the start of a text. -/
def State.start : State := ⟨[], .opening⟩

/-- The reading point after a complete condition. -/
def deliver (node : Node) : List Frame → State
  | [] => ⟨[], .finished node⟩
  | .and done :: frames => ⟨.and (node :: done) :: frames, .opening⟩
  | .or done :: frames => ⟨.or (node :: done) :: frames, .opening⟩
  | .not :: frames => ⟨frames, .closing (.not node)⟩

/-- Whether a character ends an attribute name. -/
def endsName (c : Char) : Bool :=
  c == '=' || c == '<' || c == '>' || c == '~' || c == '(' || c == ')'

/-- The attribute name that was read, without the blanks after it. -/
def nameOf (read : List Char) : String := String.ofList (Text.trimChars read.reverse)

/-- Read a closing parenthesis, or whatever stands there instead, where a condition might open. -/
def closeList (c : Char) : List Frame → Except Cause State
  | .and [] :: _ | .or [] :: _ => .error .emptyList
  | .and done :: frames =>
    if c = ')' then .ok (deliver (.and done.reverse) frames) else .error .expectedClose
  | .or done :: frames =>
    if c = ')' then .ok (deliver (.or done.reverse) frames) else .error .expectedClose
  | .not :: _ | [] => .error .expectedOpen

/-- Read the character that ends an attribute name. -/
def endName (read : List Char) (frames : List Frame) (c : Char) : Except Cause State :=
  match c with
  | '=' => .ok ⟨frames, .value ⟨nameOf read, .equal, [], []⟩⟩
  | '~' => .ok ⟨frames, .equals (nameOf read) .approx⟩
  | '>' => .ok ⟨frames, .equals (nameOf read) .greaterEq⟩
  | '<' => .ok ⟨frames, .equals (nameOf read) .lessEq⟩
  | _ => .error .expectedOperator

/-- Read one character. -/
def step (s : State) (c : Char) : Except Cause State :=
  match s.phase with
  | .opening =>
    if Text.isBlank c then .ok s
    else if c = '(' then .ok ⟨s.frames, .body⟩
    else closeList c s.frames
  | .body =>
    if Text.isBlank c then .ok s
    else if c = '&' then .ok ⟨.and [] :: s.frames, .opening⟩
    else if c = '|' then .ok ⟨.or [] :: s.frames, .opening⟩
    else if c = '!' then .ok ⟨.not :: s.frames, .opening⟩
    else if endsName c then .error .missingName
    else .ok ⟨s.frames, .name [c]⟩
  | .name read =>
    if endsName c then endName read s.frames c else .ok ⟨s.frames, .name (c :: read)⟩
  | .equals key relation =>
    if c = '=' then .ok ⟨s.frames, .value ⟨key, relation, [], []⟩⟩ else .error .expectedEquals
  | .value reading =>
    match c with
    | ')' => .ok (deliver reading.node s.frames)
    | '(' => .error .unescapedOpen
    | '\\' => .ok ⟨s.frames, .escape reading⟩
    | '*' => .ok ⟨s.frames, .value reading.wildcard⟩
    | c => .ok ⟨s.frames, .value (reading.push c)⟩
  | .escape reading => .ok ⟨s.frames, .value (reading.push c)⟩
  | .closing node =>
    if Text.isBlank c then .ok s
    else if c = ')' then .ok (deliver node s.frames)
    else .error .expectedClose
  | .finished _ => if Text.isBlank c then .ok s else .error .trailing

/-- Read the end of the text. -/
def finish (s : State) : Except Cause Node :=
  match s.phase with
  | .opening =>
    match s.frames with
    | .and [] :: _ | .or [] :: _ => .error .emptyList
    | .and _ :: _ | .or _ :: _ => .error .expectedClose
    | .not :: _ | [] => .error .expectedOpen
  | .body => .error .unexpectedEnd
  | .name _ => .error .expectedOperator
  | .equals _ _ => .error .expectedEquals
  | .value _ => .error .unterminatedValue
  | .escape _ => .error .danglingEscape
  | .closing _ => .error .expectedClose
  | .finished node => .ok node

/-- Read the rest of a text from a reading point with this many characters before it. -/
def readFrom (s : State) (position : Nat) : List Char → Except SyntaxError Node
  | [] => (finish s).mapError fun cause => ⟨cause, position⟩
  | c :: cs =>
    match step s c with
    | .ok next => readFrom next (position + 1) cs
    | .error cause => .error ⟨cause, position⟩

/-- The tree of a filter text. -/
def readNode (cs : List Char) : Except SyntaxError Node := readFrom .start 0 cs

/-- The filter of a text, or why it is none. -/
def read (source : String) : Except SyntaxError ServiceFilter :=
  (readNode source.toList).map fun node => ⟨Text.trim source, node⟩

/-- The filter of a text, or the failure that names the text and what is wrong with it. -/
def parse (source : String) : Except Failure ServiceFilter :=
  (read source).mapError fun e => .invalidFilter source e.message

@[simp] theorem readFrom_nil (s : State) (n : Nat) :
    readFrom s n [] = (finish s).mapError fun cause => ⟨cause, n⟩ := rfl

/-- A character that is taken is left behind. -/
theorem readFrom_cons_ok {s t : State} {c : Char} (h : step s c = .ok t) (n : Nat)
    (cs : List Char) : readFrom s n (c :: cs) = readFrom t (n + 1) cs := by
  simp [readFrom, h]

/-- A character that is not taken is where the text fails. -/
theorem readFrom_cons_error {s : State} {c : Char} {cause : Cause} (h : step s c = .error cause)
    (n : Nat) (cs : List Char) : readFrom s n (c :: cs) = .error ⟨cause, n⟩ := by
  simp [readFrom, h]

/-- Blanks before a filter are skipped. -/
theorem step_start_of_isBlank {c : Char} (h : Text.isBlank c = true) :
    step .start c = .ok .start := by
  simp [step, State.start, h]

end LiveServices.ServiceFilter
