import LiveServices.Json.Reader
import LiveServices.Json.Writer
import LiveServices.Proofs.Filter.Numerals
import Mathlib.Data.List.Basic
import Mathlib.Data.List.TakeDrop

/-!
# Strings and integers are read back from their texts

The writer escapes one character at a time and the reader consumes one escape at a time, so a
string is read back by induction on its characters (`string?_quoted`). An integer is printed
without a fraction and without a zero in front, so the reader finds the digits that were printed,
provided that what follows does not go on with the number (`EndsNumber`); integers of 64 bits,
signed or unsigned, come back as integers (`value?_integer`).
-/

namespace LiveServices.Json

/-! ## Strings -/

theorem toList_hexByte (n : Nat) :
    (hexByte n).toList = [Nat.digitChar (n / 16), Nat.digitChar (n % 16)] :=
  String.toList_ofList

/-- The digits of a byte are read as the byte. -/
theorem hexNumber?_hexByte : ∀ n < 0x20, Text.hexNumber?
    ['0', '0', Nat.digitChar (n / 16), Nat.digitChar (n % 16)] = some n := by decide

/-- An escape of one letter is read as the character that it stands for. -/
theorem units?_letter (letter : Char) {c : Char} (hletter : letterEscape? letter = some c)
    (cs : List Char) :
    units? ('\\' :: letter :: cs) = (units? cs).map fun r => (c.toNat :: r.1, r.2) := by
  have hu : ∀ a b d e rest, letter = 'u' → cs = a :: b :: d :: e :: rest → False := by
    rintro _ _ _ _ _ rfl -
    cases hletter
  rw [units?.eq_3 _ _ hu, hletter]
  cases units? cs <;> rfl

/-- A character is read as its code point, however it is written. -/
theorem units?_escapeChar (c : Char) (cs : List Char) :
    units? ((escapeChar c).toList ++ cs) = (units? cs).map fun r => (c.toNat :: r.1, r.2) := by
  unfold escapeChar
  split
  · exact units?_letter '"' rfl cs
  · exact units?_letter '\\' rfl cs
  · exact units?_letter 'n' rfl cs
  · exact units?_letter 'r' rfl cs
  · exact units?_letter 't' rfl cs
  · exact units?_letter 'b' rfl cs
  · exact units?_letter 'f' rfl cs
  · next hquote hslash _ _ _ _ _ =>
    split
    · next h =>
      rw [String.toList_append, toList_hexByte]
      show units? ('\\' :: 'u' :: '0' :: '0' :: _ :: _ :: cs) = _
      rw [units?, hexNumber?_hexByte _ h]
      cases units? cs <;> rfl
    · next h =>
      -- every other character stands for itself
      have hplain : units? (c :: cs) = (units? cs).map fun r => (c.toNat :: r.1, r.2) := by
        rw [units?.eq_4 c cs hquote (fun _ _ _ _ _ hc _ => hslash hc) fun _ _ hc _ => hslash hc,
          if_neg h]
        cases units? cs <;> rfl
      rw [Char.toString_eq_singleton, String.toList_singleton]
      exact hplain

/-- A string is read up to its closing quote. -/
theorem units?_escaped (cs rest : List Char) :
    units? (cs.flatMap (fun c => (escapeChar c).toList) ++ '"' :: rest) =
      some (cs.map Char.toNat, rest) := by
  induction cs with
  | nil => rw [List.flatMap_nil, List.nil_append, units?, List.map_nil]
  | cons c cs ih =>
    rw [List.flatMap_cons, List.append_assoc, units?_escapeChar, ih]
    rfl

/-- A character is no half of a surrogate pair. -/
theorem not_surrogate (c : Char) : isHigh c.toNat = false ∧ isLow c.toNat = false := by
  have hvalid : c.toNat < 0xD800 ∨ 0xDFFF < c.toNat ∧ c.toNat < 0x110000 := c.valid
  simp only [isHigh, isLow, Bool.and_eq_false_iff, decide_eq_false_iff_not]
  omega

/-- Code points of characters are read as these characters. -/
theorem charsOfUnits?_map_toNat (cs : List Char) :
    charsOfUnits? (cs.map Char.toNat) = some cs := by
  induction cs with
  | nil => rfl
  | cons c cs ih =>
    obtain ⟨hhigh, hlow⟩ := not_surrogate c
    cases cs with
    | nil =>
      show (if isHigh c.toNat || isLow c.toNat then none else some [Char.ofNat c.toNat]) = _
      rw [hhigh, hlow, Char.ofNat_toNat]
      rfl
    | cons d ds =>
      rw [List.map_cons, List.map_cons, charsOfUnits?, hhigh, hlow, if_neg Bool.false_ne_true,
        if_neg Bool.false_ne_true, ← List.map_cons, ih, Char.ofNat_toNat]
      rfl

/-- **Strings.** A string is read back after its opening quote. -/
theorem string?_quoted (s : String) (rest : List Char) : ∃ cs,
    (quoted s).toList = '"' :: cs ∧ string? (cs ++ rest) = some (some s, rest) := by
  refine ⟨s.toList.flatMap (fun c => (escapeChar c).toList) ++ ['"'], ?_, ?_⟩
  · rw [quoted, String.toList_append, String.toList_append, String.toList_join, List.flatMap_map]
    rfl
  · rw [List.append_assoc, string?, List.cons_append, List.nil_append, units?_escaped]
    show some ((charsOfUnits? (s.toList.map Char.toNat)).map String.ofList, rest) = _
    rw [charsOfUnits?_map_toNat, Option.map_some, String.ofList_toList]

/-! ## Numbers -/

/-- What may follow a number: nothing that goes on with it. -/
def EndsNumber (rest : List Char) : Prop :=
  ∀ c ∈ rest.head?, c.isDigit = false ∧ c ≠ '.' ∧ c ≠ 'e' ∧ c ≠ 'E'

/-- A separator or a closing bracket ends a number. -/
theorem endsNumber_cons {c : Char} (hc : c = ',' ∨ c = ']' ∨ c = '\x7d') (rest : List Char) :
    EndsNumber (c :: rest) := by
  rintro _ ⟨⟩
  rcases hc with rfl | rfl | rfl <;> decide

theorem digits_append {ds rest : List Char} (hds : ∀ c ∈ ds, c.isDigit = true)
    (hrest : EndsNumber rest) : digits (ds ++ rest) = (ds, rest) := by
  rw [digits, List.span_eq_takeWhile_dropWhile, List.takeWhile_append_of_pos hds,
    List.dropWhile_append_of_pos hds]
  cases rest with
  | nil => simp
  | cons c rest =>
    obtain ⟨hc, -⟩ := hrest c rfl
    simp [hc]

theorem fraction?_of_ends {rest : List Char} (hrest : EndsNumber rest) :
    fraction? rest = some (false, rest) := by
  unfold fraction?
  split
  · exact absurd rfl (hrest '.' rfl).2.1
  · rfl

theorem exponent?_of_ends {rest : List Char} (hrest : EndsNumber rest) :
    exponent? rest = some (false, rest) := by
  cases rest with
  | nil => rfl
  | cons c rest =>
    obtain ⟨-, -, hlower, hupper⟩ := hrest c rfl
    unfold exponent?
    exact if_neg (not_or.2 ⟨hlower, hupper⟩)

/-- A printed number starts with a digit. -/
theorem exists_digit (n : Nat) : ∃ c cs, n.repr.toList = c :: cs ∧ c.isDigit = true := by
  have hdigits := Text.isDigits_repr n
  obtain ⟨c, cs, hcs⟩ := List.exists_cons_of_ne_nil hdigits.ne_nil
  exact ⟨c, cs, hcs, hdigits.digits c (hcs ▸ List.mem_cons_self)⟩

/-- Only zero is printed with a zero in front. -/
theorem head?_toDigits {n : Nat} (hn : n ≠ 0) : (Nat.toDigits 10 n).head? ≠ some '0' := by
  induction n using Nat.strongRecOn with
  | ind n ih =>
    by_cases hlt : n < 10
    · rw [Nat.toDigits_of_lt_base hlt, List.head?_cons, Ne, Option.some_inj]
      intro hzero
      have hcode := congrArg Char.toNat hzero
      rw [Nat.toNat_digitChar_of_lt_ten hlt] at hcode
      exact hn (Nat.add_left_cancel hcode)
    · have hfirst := ih (n / 10) (by omega) (by omega)
      rwa [Nat.toDigits_of_base_le (by decide) (by omega),
        List.head?_append_of_ne_nil _ Nat.toDigits_ne_nil]

/-- A printed number is read as its digits. -/
theorem number?_repr (negative : Bool) (n : Nat) {rest : List Char} (hrest : EndsNumber rest) :
    number? negative (n.repr.toList ++ rest) = some (ofDigits negative n.repr.toList, rest) := by
  have hdigits := Text.isDigits_repr n
  have hzero : (n.repr.toList.isEmpty ||
      (n.repr.toList.head? == some '0' && decide (n.repr.toList.length > 1))) = false := by
    rw [Bool.or_eq_false_iff, List.isEmpty_eq_false_iff, Bool.and_eq_false_iff, beq_eq_false_iff_ne,
      decide_eq_false_iff_not]
    refine ⟨hdigits.ne_nil, ?_⟩
    by_cases hn : n = 0
    · subst hn
      exact .inr (by decide)
    · rw [Nat.toList_repr]
      exact .inl (head?_toDigits hn)
  rw [number?, digits_append hdigits.digits hrest]
  dsimp only
  rw [hzero, fraction?_of_ends hrest]
  show (exponent? rest >>= fun r => _) = _
  rw [exponent?_of_ends hrest]
  rfl

theorem ofDigits_natural {n : Nat} (hn : n < UInt64.size) :
    ofDigits false n.repr.toList = integer n := by
  rw [ofDigits, Text.natural?_eq_some_iff.2 ⟨Text.isDigits_repr n, Text.ofDigitChars_repr n⟩]
  exact if_pos hn

theorem ofDigits_negative {n : Nat} (hn : n ≠ 0) (hle : n ≤ UInt64.size / 2) :
    ofDigits true n.repr.toList = integer (-n) := by
  rw [ofDigits, Text.natural?_eq_some_iff.2 ⟨Text.isDigits_repr n, Text.ofDigitChars_repr n⟩]
  exact if_neg (not_or.2 ⟨hn, Nat.not_lt.2 hle⟩)

theorem skip_cons {c : Char} (hc : isSpace c = false) (cs : List Char) :
    skip (c :: cs) = c :: cs :=
  List.dropWhile_cons_of_neg (by simp [hc])

theorem ne_of_isDigit {c d : Char} (hc : c.isDigit = true) (hd : d.isDigit = false) : c ≠ d := by
  rintro rfl
  exact Bool.false_ne_true (hd.symm.trans hc)

theorem isSpace_eq_false {c : Char} (hc : c.isDigit = true) : isSpace c = false := by
  simp only [isSpace, Bool.or_eq_false_iff, beq_eq_false_iff_ne]
  exact ⟨⟨⟨ne_of_isDigit hc rfl, ne_of_isDigit hc rfl⟩, ne_of_isDigit hc rfl⟩,
    ne_of_isDigit hc rfl⟩

/-- A digit opens a number. -/
theorem value?_digit (fuel : Nat) {c : Char} (hc : c.isDigit = true) (cs : List Char) :
    value? (fuel + 1) (c :: cs) = number? false (c :: cs) := by
  rw [value?, skip_cons (isSpace_eq_false hc)]
  split <;> first
    | rfl
    | next h => exact absurd (List.cons.inj h).1 (ne_of_isDigit hc rfl)

/-- **Numbers.** An integer of 64 bits is read as itself, wherever a number stands. -/
theorem value?_integer {n : Int} (hlow : -(UInt64.size / 2 : Nat) ≤ n) (hhigh : n < UInt64.size)
    (fuel : Nat) {rest : List Char} (hrest : EndsNumber rest) :
    value? (fuel + 1) ((toString n).toList ++ rest) = some (integer n, rest) := by
  cases n with
  | ofNat n =>
    obtain ⟨c, cs, hcs, hc⟩ := exists_digit n
    show value? (fuel + 1) (n.repr.toList ++ rest) = _
    rw [hcs, List.cons_append, value?_digit fuel hc, ← List.cons_append, ← hcs,
      number?_repr false n hrest, ofDigits_natural (Int.ofNat_lt.1 hhigh)]
    rfl
  | negSucc n =>
    show value? (fuel + 1) (("-" ++ (n + 1).repr).toList ++ rest) = _
    rw [String.toList_append, List.append_assoc]
    show number? true ((n + 1).repr.toList ++ rest) = _
    rw [number?_repr true (n + 1) hrest, ofDigits_negative (by omega) (by omega)]
    rfl

end LiveServices.Json
