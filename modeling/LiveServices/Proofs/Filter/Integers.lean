import LiveServices.Filter.Match
import LiveServices.Proofs.Filter.Numerals
import LiveServices.Proofs.Filter.Reading
import LiveServices.Reference
import Mathlib.Algebra.Group.Nat.Defs
import Mathlib.Data.List.Induction

/-!
# Integers

An attribute that holds an integer is compared with the integer that a value denotes, under every
sign: equality goes by the printed integer and the texts, the two orders by the integers, and they
say the same (`integer_comparisons`).

For equality this rests on printing: a printed integer is a numeral that is read back as the
integer it was, so equal texts denote equal integers, and a value that is no numeral is no printed
integer (`matchesExactly_ofLong`). Blanks around a value and escapes inside it make no difference,
since a value is what is left when its escapes are resolved, and it is trimmed before it is read.
-/

namespace LiveServices.ServiceFilter

variable {name written value key : String} {p : Properties} {n : Int64}

/-! ## The texts of comparisons -/

/-- What a comparison is read as. -/
theorem parse_comparison (source : String) (relation : Relation) {done : List (List Char)}
    {last : List Char} (hname : IsName name.toList) (hvalue : Value written.toList done last)
    (hsource : source.toList =
      '(' :: (name.toList ++ (relation.sign ++ (written.toList ++ [')'])))) :
    ∃ filter, parse source = .ok filter ∧ filter.node =
      relation.condition (Text.trim name) written.toList (patternOf done last) := by
  rw [(parse_iff_derives source).1]
  have hcondition : Condition (enclosed [] [] (name.toList ++ (relation.sign ++ written.toList)))
      (relation.condition (Text.trim name) written.toList (patternOf done last)) :=
    .comparison .nil .nil (.mk relation hname hvalue)
  refine ⟨_, [], ?_, hcondition, .nil⟩
  rw [hsource, enclosed]
  simp only [List.nil_append, List.append_nil, List.append_assoc]

/-- A value in which every star is escaped is one part. -/
theorem patternOf_whole (value : String) : patternOf [] value.toList = ⟨value, []⟩ := by
  show Pattern.mk (String.ofList value.toList) [] = _
  rw [String.ofList_toList]

theorem starred_whole (value : String) : (Pattern.mk value []).starred = value := rfl

/-- Such a value is no lone star, so it is compared as a whole. -/
theorem Value.ne_star (hvalue : Value written.toList [] value.toList) : written.toList ≠ ['*'] := by
  intro hstar
  have hparts := hvalue.isStar_iff.2 hstar
  rw [patternOf_whole] at hparts
  simp [Pattern.isStar, Pattern.parts] at hparts

/-! ## Integers in comparisons -/

/-- A printed integer matches the values that denote it. -/
theorem matchesExactly_ofLong :
    Pattern.matchesExactly value (Text.ofLong n) = true ↔
      Text.long? (Text.trim value) = some n := by
  unfold Pattern.matchesExactly
  split
  · next wanted hwanted =>
    rw [Text.long?_ofLong, hwanted, Bool.or_eq_true, beq_iff_eq, beq_iff_eq]
    constructor
    · rintro (rfl | h)
      · -- the value is the printed integer, and that is read back
        rw [Text.trim_ofLong, Text.long?_ofLong] at hwanted
        exact hwanted.symm
      · exact h.symm
    · intro h
      exact .inr h.symm
  · next hnone =>
    have htrue := Text.sameIgnoringAsciiCase_ofLong "true" (by decide) (by decide) n
    have hfalse := Text.sameIgnoringAsciiCase_ofLong "false" (by decide) (by decide) n
    rw [htrue, hfalse, hnone, if_neg (by decide), beq_iff_eq]
    constructor
    · rintro rfl
      rw [Text.trim_ofLong, Text.long?_ofLong] at hnone
      cases hnone
    · intro h
      cases h

theorem anyText_long (test : String → Bool) :
    anyText test (some (.long n)) = test (Text.ofLong n) := rfl

theorem matchesText_whole (value text : String) :
    (Pattern.mk value []).matchesText text = Pattern.matchesExactly value text := rfl

theorem holds_equal_long (hn : p.lookup key = some (.long n)) :
    (Node.equal key ⟨value, []⟩).holds p = true ↔ Text.long? (Text.trim value) = some n := by
  rw [Node.holds, hn, anyText_long, matchesText_whole, matchesExactly_ofLong]

theorem anyOrder_long {wanted : Ordering → Bool} :
    anyOrder wanted value (some (.long n)) = true ↔
      ∃ w, Text.long? (Text.trim value) = some w ∧ wanted (compare n w) = true := by
  unfold anyOrder
  dsimp only
  split
  · next w hw => simp [hw]
  · next hnone => simp [hnone]

theorem holds_greaterEq_long (hn : p.lookup key = some (.long n)) :
    (Node.greaterEq key value).holds p = true ↔
      ∃ w, Text.long? (Text.trim value) = some w ∧ n ≥ w := by
  rw [Node.holds, hn, anyOrder_long]
  refine exists_congr fun w => and_congr_right fun _ => ?_
  rw [bne_iff_ne, Ne, Std.compare_eq_lt, Int64.not_lt]

theorem holds_lessEq_long (hn : p.lookup key = some (.long n)) :
    (Node.lessEq key value).holds p = true ↔
      ∃ w, Text.long? (Text.trim value) = some w ∧ n ≤ w := by
  rw [Node.holds, hn, anyOrder_long]
  refine exists_congr fun w => and_congr_right fun _ => ?_
  rw [bne_iff_ne, Ne, Std.compare_eq_gt, Int64.not_lt]

/-- What `=` between a name and a value is read as. -/
theorem parse_equal_long (hname : IsName name.toList)
    (hvalue : Value written.toList [] value.toList)
    (hn : p.lookup (Text.trim name) = some (.long n)) :
    ∃ filter, parse ("(" ++ name ++ "=" ++ written ++ ")") = .ok filter ∧
      (filter.accepts p = true ↔ Text.long? (Text.trim value) = some n) := by
  obtain ⟨filter, hfilter, hnode⟩ := parse_comparison
    ("(" ++ name ++ "=" ++ written ++ ")") .equal hname hvalue (by simp [Relation.sign])
  simp only [Relation.condition, if_neg hvalue.ne_star, patternOf_whole] at hnode
  refine ⟨filter, hfilter, ?_⟩
  rw [accepts, hnode]
  exact holds_equal_long hn

/-- What `>=` between a name and a value is read as. -/
theorem parse_greaterEq_long (hname : IsName name.toList)
    (hvalue : Value written.toList [] value.toList)
    (hn : p.lookup (Text.trim name) = some (.long n)) :
    ∃ filter, parse ("(" ++ name ++ ">=" ++ written ++ ")") = .ok filter ∧
      (filter.accepts p = true ↔ ∃ w, Text.long? (Text.trim value) = some w ∧ n ≥ w) := by
  obtain ⟨filter, hfilter, hnode⟩ := parse_comparison
    ("(" ++ name ++ ">=" ++ written ++ ")") .greaterEq hname hvalue (by simp [Relation.sign])
  simp only [Relation.condition, patternOf_whole, starred_whole] at hnode
  refine ⟨filter, hfilter, ?_⟩
  rw [accepts, hnode]
  exact holds_greaterEq_long hn

/-- What `<=` between a name and a value is read as. -/
theorem parse_lessEq_long (hname : IsName name.toList)
    (hvalue : Value written.toList [] value.toList)
    (hn : p.lookup (Text.trim name) = some (.long n)) :
    ∃ filter, parse ("(" ++ name ++ "<=" ++ written ++ ")") = .ok filter ∧
      (filter.accepts p = true ↔ ∃ w, Text.long? (Text.trim value) = some w ∧ n ≤ w) := by
  obtain ⟨filter, hfilter, hnode⟩ := parse_comparison
    ("(" ++ name ++ "<=" ++ written ++ ")") .lessEq hname hvalue (by simp [Relation.sign])
  simp only [Relation.condition, patternOf_whole, starred_whole] at hnode
  refine ⟨filter, hfilter, ?_⟩
  rw [accepts, hnode]
  exact holds_lessEq_long hn

/-- **Integers.** An attribute that is the integer `n` is compared with the value of a comparison as
an integer, if the value is a numeral of one between its blanks: it is equal to it, at least it or
at most it as `n` is. A value that is no numeral of a 64-bit integer is matched by none of the three
comparisons. So an integer is equal to a value exactly if it is both at least and at most it. -/
theorem integer_comparisons (hname : IsName name.toList)
    (hvalue : Value written.toList [] value.toList)
    (hn : p.lookup (Text.trim name) = some (.long n)) :
    ∃ equal atLeast atMost : ServiceFilter,
      parse ("(" ++ name ++ "=" ++ written ++ ")") = .ok equal ∧
      parse ("(" ++ name ++ ">=" ++ written ++ ")") = .ok atLeast ∧
      parse ("(" ++ name ++ "<=" ++ written ++ ")") = .ok atMost ∧
      (∀ w : Int64, Text.Denotes (Text.trim value).toList w.toInt →
        (equal.accepts p = true ↔ n = w) ∧ (atLeast.accepts p = true ↔ n ≥ w) ∧
        (atMost.accepts p = true ↔ n ≤ w)) ∧
      ((∀ w : Int64, ¬ Text.Denotes (Text.trim value).toList w.toInt) →
        equal.accepts p = false ∧ atLeast.accepts p = false ∧ atMost.accepts p = false) ∧
      equal.accepts p = (atLeast.accepts p && atMost.accepts p) := by
  obtain ⟨equal, hequal, hequalIff⟩ := parse_equal_long hname hvalue hn
  obtain ⟨atLeast, hatLeast, hatLeastIff⟩ := parse_greaterEq_long hname hvalue hn
  obtain ⟨atMost, hatMost, hatMostIff⟩ := parse_lessEq_long hname hvalue hn
  refine ⟨equal, atLeast, atMost, hequal, hatLeast, hatMost, ?_, ?_, ?_⟩
  · intro w hw
    have hw := Text.long?_eq_some_iff.2 hw
    rw [hequalIff, hatLeastIff, hatMostIff, hw]
    simp [eq_comm]
  · intro hnone
    have hnone : ∀ w, Text.long? (Text.trim value) ≠ some w :=
      fun w hw => hnone w (Text.long?_eq_some_iff.1 hw)
    rw [← Bool.not_eq_true, ← Bool.not_eq_true, ← Bool.not_eq_true, hequalIff, hatLeastIff,
      hatMostIff]
    refine ⟨hnone n, ?_, ?_⟩
    · rintro ⟨w, hw, -⟩
      exact hnone w hw
    · rintro ⟨w, hw, -⟩
      exact hnone w hw
  · rw [Bool.eq_iff_iff, Bool.and_eq_true, hequalIff, hatLeastIff, hatMostIff]
    constructor
    · intro h
      exact ⟨⟨n, h, Int64.le_refl n⟩, ⟨n, h, Int64.le_refl n⟩⟩
    · rintro ⟨⟨w, hw, hge⟩, ⟨w', hw', hle⟩⟩
      obtain rfl : w = w' := Option.some.inj (hw.symm.trans hw')
      rw [hw, Int64.le_antisymm hge hle]

/-- A value with a sign, zeros, an escape and blanks around it, of a key in another case. -/
theorem integer_comparisons_padded :
    ∃ equal atLeast atMost : ServiceFilter,
      parse "(rank = +\\007\u3000)" = .ok equal ∧
      parse "(rank >= +\\007\u3000)" = .ok atLeast ∧
      parse "(rank <= +\\007\u3000)" = .ok atMost ∧
      equal.accepts (.ofList [("Rank", .long 7)]) = true ∧
      atLeast.accepts (.ofList [("Rank", .long 7)]) = true ∧
      atMost.accepts (.ofList [("Rank", .long 7)]) = true := by
  have hname : IsName "rank ".toList :=
    ⟨⟨'r', "ank ".toList, rfl, by decide, by decide⟩, by simp⟩
  have hplain : Value
      (((((([] ++ [' ']) ++ ['+']) ++ ['\\', '0']) ++ ['0']) ++ ['7']) ++ ['\u3000']) []
      " +007\u3000".toList :=
    .plain (.plain (.plain (.escaped '0' (.plain (.plain .nil (by decide)) (by decide)))
      (by decide)) (by decide)) (by decide)
  have hvalue : Value " +\\007\u3000".toList [] " +007\u3000".toList := hplain
  have hrank : (Properties.ofList [("Rank", .long 7)]).lookup (Text.trim "rank ") =
      some (.long 7) := by decide
  obtain ⟨equal, atLeast, atMost, hequal, hatLeast, hatMost, hnumeral, -, -⟩ :=
    integer_comparisons hname hvalue hrank
  obtain ⟨hequalIff, hatLeastIff, hatMostIff⟩ := hnumeral 7 (Text.long?_eq_some_iff.1 (by decide))
  exact ⟨equal, atLeast, atMost, hequal, hatLeast, hatMost, hequalIff.2 rfl,
    hatLeastIff.2 (by decide), hatMostIff.2 (by decide)⟩

/-! ## The identity of a service -/

/-- A value in which nothing has to be escaped stands for itself. -/
theorem Value.of_plain {cs : List Char} (h : ∀ c ∈ cs, c ∉ ['(', ')', '\\', '*']) :
    Value cs [] cs := by
  induction cs using List.reverseRecOn with
  | nil => exact .nil
  | append_singleton cs c ih =>
    exact .plain (ih fun d hd => h d (List.mem_append_left _ hd))
      (h c (List.mem_append_right _ List.mem_cons_self))

/-- The signed integer of the same 64 bits is the unsigned one only in the lower half. -/
theorem toInt_toInt64_eq_iff {id number : UInt64} :
    (number.toNat : Int) = id.toInt64.toInt ↔ number = id ∧ id.toNat < 2 ^ 63 := by
  have hsigned : id.toInt64.toInt =
      if 2 * id.toNat < 2 ^ 64 then (id.toNat : Int) else id.toNat - 2 ^ 64 :=
    BitVec.toInt_eq_toNat_cond id.toBitVec
  have hid := id.toNat_lt
  rw [hsigned, ← UInt64.toNat_inj]
  split <;> omega

theorem IsName.serviceIdKey : IsName ServiceReference.serviceIdKey.toList :=
  ⟨⟨'s', "ervice.id".toList, rfl, by decide, by decide⟩, by simp [ServiceReference.serviceIdKey]⟩

/-- A printed number is a value as it stands. -/
theorem Value.ofId (number : UInt64) :
    Value (Text.ofId number).toList [] (Text.ofId number).toList := by
  refine Value.of_plain fun c hc => ?_
  obtain ⟨hfirst, hlast⟩ :=
    Text.toNat_mem_of_isDigit_or_sign ((Text.denotes_ofId number).isDigit_or_sign c hc)
  simp only [List.mem_cons, List.not_mem_nil, or_false, not_or]
  refine ⟨?_, ?_, ?_, ?_⟩
  all_goals
    rintro rfl
    revert hfirst hlast
    decide

/-- **Identities.** The filter on the number of a service, as it is written, accepts the service
with that number and no other one. It does so in the lower half of the numbers only: the property
of a service holds its number as a signed integer, and from `2 ^ 63` on no numeral of the number
denotes that. -/
theorem identity_comparison (id number : UInt64) (properties : Properties) :
    ∃ filter, parse ("(service.id=" ++ Text.ofId number ++ ")") = .ok filter ∧
      (filter.accepts (ServiceReference.new id properties).properties = true ↔
        number = id ∧ id.toNat < 2 ^ 63) := by
  have hlookup : (ServiceReference.new id properties).properties.lookup
      (Text.trim ServiceReference.serviceIdKey) = some (.long id.toInt64) :=
    Properties.lookup_insert_self properties _ _
  obtain ⟨filter, hfilter, haccepts⟩ :=
    parse_equal_long IsName.serviceIdKey (Value.ofId number) hlookup
  refine ⟨filter, hfilter, ?_⟩
  have hnumber : Text.trim (Text.ofId number) = Text.ofId number := by
    rw [Text.trim, (Text.denotes_ofId number).trimChars, String.ofList_toList]
  rw [haccepts, hnumber, Text.long?_eq_some_iff, ← toInt_toInt64_eq_iff]
  constructor
  · intro h
    exact (Text.denotes_ofId number).unique h
  · intro h
    exact h ▸ Text.denotes_ofId number

/-- The first number of the upper half: its filter does not accept the service. -/
theorem identity_comparison_wraps :
    ∃ filter, parse ("(service.id=" ++ Text.ofId 9223372036854775808 ++ ")") = .ok filter ∧
      filter.accepts (ServiceReference.new 9223372036854775808 .empty).properties = false := by
  have hfilter : parse "(service.id=9223372036854775808)" = .ok
      ⟨"(service.id=9223372036854775808)",
        .equal "service.id" ⟨"9223372036854775808", []⟩⟩ := rfl
  exact ⟨_, hfilter, by decide⟩

end LiveServices.ServiceFilter
