import LiveServices.Proofs.Documents.Tokens

/-!
# Documents are read back from their texts

A document is `Exact` if no part of it was lost when it was read. The text of an exact document is
read back as that document (`read?_compact`): a document, the items of an array up to the closing
bracket and the members of an object up to the closing brace are each read as what was written,
with the rest of the text left over. The induction is on the bound of the reader, which every call
lowers by one and which is always more than the text that is left of the part that is read.
-/

namespace LiveServices.Json

mutual
/-- A document that its text tells apart from every other: no part of it was lost when it was
read, and its integers are those of 64 bits. -/
def Exact : Json → Prop
  | null | bool _ | text _ => True
  | integer n => -(UInt64.size / 2 : Nat) ≤ n ∧ n < UInt64.size
  | decimal | unreadable => False
  | array items => ExactItems items
  | object members => ExactMembers members

/-- The items of an array are exact. -/
def ExactItems : List Json → Prop
  | [] => True
  | j :: js => j.Exact ∧ ExactItems js

/-- The values of an object are exact. -/
def ExactMembers : List (String × Json) → Prop
  | [] => True
  | (_, j) :: ms => j.Exact ∧ ExactMembers ms
end

theorem exactItems_iff {items : List Json} : ExactItems items ↔ ∀ j ∈ items, j.Exact := by
  induction items with
  | nil => simp [ExactItems]
  | cons j js ih => rw [ExactItems, ih, List.forall_mem_cons]

theorem exactMembers_iff {members : List (String × Json)} :
    ExactMembers members ↔ ∀ m ∈ members, m.2.Exact := by
  induction members with
  | nil => simp [ExactMembers]
  | cons m ms ih => rw [ExactMembers, ih, List.forall_mem_cons]

/-- A character at which no space and no array ends. -/
def OpensValue (c : Char) : Prop := isSpace c = false ∧ c ≠ ']'

instance : DecidablePred OpensValue := fun _ => inferInstanceAs (Decidable (_ ∧ _))

/-- The text of a document starts with a character that tells it from the end of an array. -/
theorem compact_opens (j : Json) : ∃ c cs, j.compact.toList = c :: cs ∧ OpensValue c := by
  cases j with
  | null | decimal | unreadable => exact ⟨'n', _, rfl, by decide⟩
  | bool b =>
    cases b
    · exact ⟨'f', _, rfl, by decide⟩
    · exact ⟨'t', _, rfl, by decide⟩
  | integer n =>
    cases n with
    | ofNat n =>
      obtain ⟨c, cs, hcs, hc⟩ := exists_digit n
      exact ⟨c, cs, hcs, isSpace_eq_false hc, ne_of_isDigit hc rfl⟩
    | negSucc n => exact ⟨'-', _, String.toList_append, by decide⟩
  | text s =>
    obtain ⟨cs, hcs, -⟩ := string?_quoted s []
    exact ⟨'"', cs, hcs, by decide⟩
  | array items =>
    exact ⟨'[', _, by rw [compact, String.toList_append, String.toList_append]; rfl, by decide⟩
  | object members =>
    exact ⟨'\x7b', _, by rw [compact, String.toList_append, String.toList_append]; rfl, by decide⟩

/-- What is written part by part is read back part by part. -/
theorem mapM_map {α β : Type} {write : α → β} {read : β → Option α}
    (hread : ∀ a, read (write a) = some a) (parts : List α) :
    (parts.map write).mapM read = some parts := by
  have hid : read ∘ write = fun a => pure (id a) := funext hread
  rw [List.mapM_map, hid, List.mapM_pure, List.map_id]
  rfl

/-- Members that all have a name are the members of an object. -/
theorem ofMembers_named (members : List (String × Json)) :
    ofMembers (members.map fun m => (some m.1, m.2)) = object members := by
  have hnames : (members.map fun m => (some m.1, m.2)).mapM
      (fun m : Option String × Json => m.1.map fun name => (name, m.2)) = some members :=
    mapM_map (fun _ => by rfl) members
  rw [ofMembers, hnames]

section Parts

variable {fuel : Nat} {j : Json} {cs rest : List Char}

/-- The last item of an array is followed by the closing bracket. -/
theorem items?_last (hvalue : value? fuel cs = some (j, ']' :: rest)) :
    items? (fuel + 1) cs = some ([j], rest) := by
  rw [items?, hvalue]
  rfl

/-- An item that is followed by a comma is followed by more items. -/
theorem items?_cons {js : List Json} {next : List Char}
    (hvalue : value? fuel cs = some (j, ',' :: next))
    (hitems : items? fuel next = some (js, rest)) :
    items? (fuel + 1) cs = some (j :: js, rest) := by
  rw [items?, hvalue]
  show (items? fuel next >>= fun r => _) = _
  rw [hitems]
  rfl

/-- A member is read up to its value; what follows decides whether it was the last one. -/
theorem members?_quoted (name : String) (hvalue : value? fuel cs = some (j, rest)) :
    members? (fuel + 1) ((quoted name ++ ":").toList ++ cs) =
      (match skip rest with
      | ',' :: next => (members? fuel next).map fun r => ((some name, j) :: r.1, r.2)
      | '\x7d' :: rest => some ([(some name, j)], rest)
      | _ => none) := by
  obtain ⟨text, htext, hread⟩ := string?_quoted name (':' :: cs)
  rw [String.toList_append, htext, members?]
  show (string? (text ++ [':'] ++ cs) >>= fun r => _) = _
  rw [List.append_assoc, List.singleton_append, hread]
  show (value? fuel cs >>= fun r => _) = _
  rw [hvalue]
  show (match skip rest with | ',' :: cs => _ | '\x7d' :: rest => _ | _ => _) = _
  split
  · next next _ => cases members? fuel next <;> rfl
  · rfl
  · rfl

/-- The last member of an object is followed by the closing brace. -/
theorem members?_last (name : String) (hvalue : value? fuel cs = some (j, '\x7d' :: rest)) :
    members? (fuel + 1) ((quoted name ++ ":").toList ++ cs) = some ([(some name, j)], rest) :=
  members?_quoted name hvalue

/-- A member that is followed by a comma is followed by more members. -/
theorem members?_cons (name : String) {ms : List (Option String × Json)} {next : List Char}
    (hvalue : value? fuel cs = some (j, ',' :: next))
    (hmembers : members? fuel next = some (ms, rest)) :
    members? (fuel + 1) ((quoted name ++ ":").toList ++ cs) =
      some ((some name, j) :: ms, rest) := by
  rw [members?_quoted name hvalue]
  show (members? fuel next).map _ = _
  rw [hmembers, Option.map_some]

/-- An array that is not empty is read by its items. -/
theorem value?_array {c : Char} (hc : OpensValue c) {items : List Json}
    (hitems : items? fuel (c :: cs) = some (items, rest)) :
    value? (fuel + 1) ('[' :: c :: cs) = some (array items, rest) := by
  simp only [value?, skip_cons (c := '[') rfl, skip_cons hc.1]
  split
  · next h => exact absurd (List.cons.inj h).1 hc.2
  · rw [hitems, Option.map_some]

/-- An object that is not empty is read by its members. -/
theorem value?_object {members : List (Option String × Json)}
    (hmembers : members? fuel ('"' :: cs) = some (members, rest)) :
    value? (fuel + 1) ('\x7b' :: '"' :: cs) = some (ofMembers members, rest) := by
  show (members? fuel ('"' :: cs)).map _ = _
  rw [hmembers, Option.map_some]

end Parts

/-- The text between the brackets of an array. -/
def itemsText (items : List Json) : String := ",".intercalate (compactItems items)

/-- The text between the braces of an object. -/
def membersText (members : List (String × Json)) : String :=
  ",".intercalate (compactMembers members)

theorem compact_array (items : List Json) :
    (array items).compact = "[" ++ itemsText items ++ "]" := by
  rw [compact, itemsText]

theorem compact_object (members : List (String × Json)) :
    (object members).compact = "\x7b" ++ membersText members ++ "\x7d" := by
  rw [compact, membersText]

theorem length_bracketed (opening closing s : String) (hopening : opening.length = 1)
    (hclosing : closing.length = 1) : (opening ++ s ++ closing).length = s.length + 2 := by
  rw [String.length_append, String.length_append]
  omega

theorem itemsText_singleton (j : Json) : itemsText [j] = j.compact := String.intercalate_singleton

/-- Items are written with commas between them. -/
theorem itemsText_cons_cons (j j' : Json) (js : List Json) :
    itemsText (j :: j' :: js) = j.compact ++ "," ++ itemsText (j' :: js) :=
  String.intercalate_cons_cons

/-- The text of items starts as that of the first one does. -/
theorem itemsText_opens (j : Json) (js : List Json) :
    ∃ c cs, (itemsText (j :: js)).toList = c :: cs ∧ OpensValue c := by
  obtain ⟨c, cs, hcs, hc⟩ := compact_opens j
  cases js with
  | nil => exact ⟨c, cs, by rw [itemsText_singleton, hcs], hc⟩
  | cons j' js =>
    exact ⟨c, _, by rw [itemsText_cons_cons, String.toList_append, String.toList_append, hcs]; rfl,
      hc⟩

theorem membersText_singleton (name : String) (j : Json) :
    membersText [(name, j)] = quoted name ++ ":" ++ j.compact :=
  String.intercalate_singleton

/-- So are members. -/
theorem membersText_cons_cons (name : String) (j : Json) (m : String × Json)
    (ms : List (String × Json)) :
    membersText ((name, j) :: m :: ms) =
      quoted name ++ ":" ++ j.compact ++ "," ++ membersText (m :: ms) :=
  String.intercalate_cons_cons

/-- The text of members starts with the quote of a name. -/
theorem membersText_opens (name : String) (j : Json) (ms : List (String × Json)) :
    ∃ cs, (membersText ((name, j) :: ms)).toList = '"' :: cs := by
  obtain ⟨cs, hcs, -⟩ := string?_quoted name []
  cases ms with
  | nil =>
    exact ⟨_, by rw [membersText_singleton, String.toList_append, String.toList_append, hcs]; rfl⟩
  | cons m ms =>
    refine ⟨cs ++ ':' :: (j.compact.toList ++ ',' :: (membersText (m :: ms)).toList), ?_⟩
    simp [membersText_cons_cons, hcs]

mutual
/-- **Documents.** The text of an exact document is read as that document. -/
theorem value?_compact {j : Json} (hj : j.Exact) {fuel : Nat} (hfuel : j.compact.length < fuel)
    {rest : List Char} (hrest : EndsNumber rest) :
    value? fuel (j.compact.toList ++ rest) = some (j, rest) := by
  cases fuel with
  | zero => exact absurd hfuel (Nat.not_lt_zero _)
  | succ fuel =>
    cases j with
    | null => rfl
    | bool b => cases b <;> rfl
    | integer n => exact value?_integer hj.1 hj.2 fuel hrest
    | decimal | unreadable => exact hj.elim
    | text s =>
      obtain ⟨cs, hcs, hread⟩ := string?_quoted s rest
      show value? (fuel + 1) ((quoted s).toList ++ rest) = _
      rw [hcs]
      show (string? (cs ++ rest)).map _ = _
      rw [hread]
      rfl
    | array items =>
      cases items with
      | nil => rfl
      | cons j js =>
        rw [compact_array] at hfuel ⊢
        rw [length_bracketed _ _ _ rfl rfl] at hfuel
        rw [String.toList_append, String.toList_append, List.append_assoc, List.append_assoc]
        have hitems : items? fuel ((itemsText (j :: js)).toList ++ ']' :: rest) =
            some (j :: js, rest) := items?_compact hj (Nat.lt_of_succ_lt_succ hfuel)
        obtain ⟨c, cs, hcs, hc⟩ := itemsText_opens j js
        rw [hcs] at hitems ⊢
        exact value?_array hc hitems
    | object members =>
      cases members with
      | nil => rfl
      | cons m ms =>
        rw [compact_object] at hfuel ⊢
        rw [length_bracketed _ _ _ rfl rfl] at hfuel
        rw [String.toList_append, String.toList_append, List.append_assoc, List.append_assoc]
        have hmembers : members? fuel ((membersText (m :: ms)).toList ++ '\x7d' :: rest) =
            some ((m :: ms).map fun m => (some m.1, m.2), rest) :=
          members?_compact hj (Nat.lt_of_succ_lt_succ hfuel)
        obtain ⟨cs, hcs⟩ := membersText_opens m.1 m.2 ms
        rw [hcs] at hmembers ⊢
        rw [← ofMembers_named (m :: ms)]
        exact value?_object hmembers
termination_by fuel

/-- The items of an array are read up to its closing bracket. -/
theorem items?_compact {j : Json} {js : List Json} (hjs : ExactItems (j :: js)) {fuel : Nat}
    (hfuel : (itemsText (j :: js)).length + 1 < fuel) {rest : List Char} :
    items? fuel ((itemsText (j :: js)).toList ++ ']' :: rest) = some (j :: js, rest) := by
  obtain ⟨hj, hjs⟩ := hjs
  cases fuel with
  | zero => exact absurd hfuel (Nat.not_lt_zero _)
  | succ fuel =>
    cases js with
    | nil =>
      rw [itemsText_singleton] at hfuel ⊢
      exact items?_last (value?_compact hj (by omega) (endsNumber_cons (by decide) rest))
    | cons j' js =>
      rw [itemsText_cons_cons] at hfuel ⊢
      have hcomma : ",".length = 1 := rfl
      rw [String.length_append, String.length_append] at hfuel
      rw [String.toList_append, String.toList_append, List.append_assoc, List.append_assoc]
      exact items?_cons (value?_compact hj (by omega) (endsNumber_cons (by decide) _))
        (items?_compact hjs (by omega))
termination_by fuel

/-- The members of an object are read up to its closing brace. -/
theorem members?_compact {m : String × Json} {ms : List (String × Json)}
    (hms : ExactMembers (m :: ms)) {fuel : Nat}
    (hfuel : (membersText (m :: ms)).length + 1 < fuel) {rest : List Char} :
    members? fuel ((membersText (m :: ms)).toList ++ '\x7d' :: rest) =
      some ((m :: ms).map fun m => (some m.1, m.2), rest) := by
  obtain ⟨name, j⟩ := m
  obtain ⟨hj, hms⟩ := hms
  cases fuel with
  | zero => exact absurd hfuel (Nat.not_lt_zero _)
  | succ fuel =>
    cases ms with
    | nil =>
      rw [membersText_singleton] at hfuel ⊢
      rw [String.length_append] at hfuel
      rw [String.toList_append, List.append_assoc]
      exact members?_last name (value?_compact hj (by omega) (endsNumber_cons (by decide) rest))
    | cons m ms =>
      rw [membersText_cons_cons] at hfuel ⊢
      have hcomma : ",".length = 1 := rfl
      rw [String.length_append, String.length_append, String.length_append] at hfuel
      rw [String.toList_append, String.toList_append, String.toList_append, List.append_assoc,
        List.append_assoc, List.append_assoc]
      exact members?_cons name (value?_compact hj (by omega) (endsNumber_cons (by decide) _))
        (members?_compact hms (by omega))
termination_by fuel
end

/-- **Texts.** An exact document is read back from its text. -/
theorem read?_compact {j : Json} (hj : j.Exact) : read? j.compact = some j := by
  have hvalue : value? (j.compact.toList.length + 1) (j.compact.toList ++ []) = some (j, []) :=
    value?_compact hj (String.length_toList ▸ Nat.lt_succ_self _) nofun
  rw [List.append_nil] at hvalue
  rw [read?]
  show (value? (j.compact.toList.length + 1) j.compact.toList >>= fun r => _) = _
  rw [hvalue]
  rfl

end LiveServices.Json
