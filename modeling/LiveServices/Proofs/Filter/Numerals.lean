import LiveServices.Text.Blank
import LiveServices.Text.Case
import LiveServices.Text.Numeral

/-!
# Numerals and the integers that they denote

Which texts are decimal numerals and what they denote, said without a reader: digits after an
optional sign, with the value that the core library gives to digits. `long?_eq_some_iff` says that
the reader of 64-bit integers decides it, and `long?_ofLong` that a printed integer is read back.

A printed integer is a numeral like every other. It holds no blank and no capital letter, so it is
what is left of it when it is trimmed (`trim_ofLong`) and it is no word in any case
(`sameIgnoringAsciiCase_ofLong`).
-/

namespace LiveServices.Text

/-- One or more ASCII digits. -/
structure IsDigits (cs : List Char) : Prop where
  ne_nil : cs ≠ []
  digits : ∀ c ∈ cs, c.isDigit = true

/-- The integer that a decimal numeral denotes. -/
inductive Denotes : List Char → Int → Prop where
  | unsigned {cs : List Char} (hcs : IsDigits cs) : Denotes cs (Nat.ofDigitChars 10 cs 0)
  | plus {cs : List Char} (hcs : IsDigits cs) : Denotes ('+' :: cs) (Nat.ofDigitChars 10 cs 0)
  | minus {cs : List Char} (hcs : IsDigits cs) :
    Denotes ('-' :: cs) (-(Nat.ofDigitChars 10 cs 0 : Nat))

/-! ## Reading numerals -/

/-- A character has the value of a digit if it is one. -/
theorem digitValue?_eq_some_iff {c : Char} {d : Nat} :
    digitValue? c = some d ↔ c.isDigit = true ∧ c.toNat - '0'.toNat = d := by
  have hdigit : c.isDigit = true ↔ '0' ≤ c ∧ c ≤ '9' := Char.isDigit_iff_toNat
  unfold digitValue?
  rw [hdigit]
  split
  · next h => rw [Option.some_inj, and_iff_right h]
  · next h => simp [h]

/-- Digits are folded into the number that they write after the number before them. -/
theorem foldDigits?_eq_some_iff {cs : List Char} {n m : Nat} :
    foldDigits? n cs = some m ↔
      (∀ c ∈ cs, c.isDigit = true) ∧ Nat.ofDigitChars 10 cs n = m := by
  induction cs generalizing n with
  | nil => simp [foldDigits?]
  | cons c cs ih =>
    rw [foldDigits?, Option.bind_eq_some_iff, Nat.ofDigitChars_cons, List.forall_mem_cons]
    constructor
    · rintro ⟨d, hd, hrest⟩
      obtain ⟨hc, rfl⟩ := digitValue?_eq_some_iff.1 hd
      obtain ⟨hcs, hm⟩ := ih.1 hrest
      exact ⟨⟨hc, hcs⟩, hm⟩
    · rintro ⟨⟨hc, hcs⟩, hm⟩
      exact ⟨_, digitValue?_eq_some_iff.2 ⟨hc, rfl⟩, ih.2 ⟨hcs, hm⟩⟩

/-- A numeral without a sign is one digit or more. -/
theorem natural?_eq_some_iff {cs : List Char} {n : Nat} :
    natural? cs = some n ↔ IsDigits cs ∧ Nat.ofDigitChars 10 cs 0 = n := by
  unfold natural?
  cases cs with
  | nil =>
    constructor
    · intro h
      cases h
    · rintro ⟨hcs, -⟩
      exact absurd rfl hcs.ne_nil
  | cons c cs =>
    rw [List.isEmpty_cons, if_neg Bool.false_ne_true, foldDigits?_eq_some_iff]
    exact ⟨fun h => ⟨⟨List.cons_ne_nil c cs, h.1⟩, h.2⟩, fun h => ⟨h.1.digits, h.2⟩⟩

theorem integer?_minus (cs : List Char) :
    integer? ('-' :: cs) = (natural? cs).map fun n : Nat => -(n : Int) := by
  rw [integer?]
  cases natural? cs <;> rfl

theorem integer?_plus (cs : List Char) :
    integer? ('+' :: cs) = (natural? cs).map fun n : Nat => (n : Int) := by
  rw [integer?]
  cases natural? cs <;> rfl

/-- A numeral that starts with no sign is read as a natural number. -/
theorem integer?_unsigned {cs : List Char} (hminus : ∀ rest, cs ≠ '-' :: rest)
    (hplus : ∀ rest, cs ≠ '+' :: rest) :
    integer? cs = (natural? cs).map fun n : Nat => (n : Int) := by
  rw [integer?.eq_3 cs hminus hplus]
  cases natural? cs <;> rfl

/-- The reader of integers accepts the numerals, and gives what they denote. -/
theorem integer?_eq_some_iff {cs : List Char} {n : Int} :
    integer? cs = some n ↔ Denotes cs n := by
  constructor
  · intro h
    by_cases hminus : ∃ rest, cs = '-' :: rest
    · obtain ⟨rest, rfl⟩ := hminus
      rw [integer?_minus] at h
      obtain ⟨m, hm, rfl⟩ := Option.map_eq_some_iff.1 h
      obtain ⟨hrest, rfl⟩ := natural?_eq_some_iff.1 hm
      exact .minus hrest
    · by_cases hplus : ∃ rest, cs = '+' :: rest
      · obtain ⟨rest, rfl⟩ := hplus
        rw [integer?_plus] at h
        obtain ⟨m, hm, rfl⟩ := Option.map_eq_some_iff.1 h
        obtain ⟨hrest, rfl⟩ := natural?_eq_some_iff.1 hm
        exact .plus hrest
      · rw [integer?_unsigned (not_exists.1 hminus) (not_exists.1 hplus)] at h
        obtain ⟨m, hm, rfl⟩ := Option.map_eq_some_iff.1 h
        obtain ⟨hcs, rfl⟩ := natural?_eq_some_iff.1 hm
        exact .unsigned hcs
  · intro h
    cases h with
    | minus hcs => rw [integer?_minus, natural?_eq_some_iff.2 ⟨hcs, rfl⟩, Option.map_some]
    | plus hcs => rw [integer?_plus, natural?_eq_some_iff.2 ⟨hcs, rfl⟩, Option.map_some]
    | unsigned hcs =>
      -- a sign is no digit
      have hsign : ∀ c : Char, c.isDigit = false → ∀ rest, cs ≠ c :: rest := by
        rintro c hc rest rfl
        rw [hcs.digits c List.mem_cons_self] at hc
        cases hc
      rw [integer?_unsigned (hsign '-' rfl) (hsign '+' rfl), natural?_eq_some_iff.2 ⟨hcs, rfl⟩,
        Option.map_some]

/-- A numeral denotes one integer. -/
theorem Denotes.unique {cs : List Char} {n m : Int} (hn : Denotes cs n) (hm : Denotes cs m) :
    n = m :=
  Option.some.inj ((integer?_eq_some_iff.2 hn).symm.trans (integer?_eq_some_iff.2 hm))

/-- An integer is accepted as a long if it is one of 64 bits. -/
theorem toLong?_eq_some_iff {n : Int} {v : Int64} : toLong? n = some v ↔ n = v.toInt := by
  constructor
  · intro h
    unfold toLong? at h
    split at h
    · next hn =>
      cases h
      have hmin : Int64.minValue.toInt = -2 ^ 63 := by decide
      have hmax : Int64.maxValue.toInt = 2 ^ 63 - 1 := by decide
      rw [hmin, hmax] at hn
      exact (Int64.toInt_ofInt_of_le hn.1 (by omega)).symm
    · cases h
  · rintro rfl
    exact toLong?_toInt v

/-- A text is read as a 64-bit integer exactly if it is a numeral of that integer. -/
theorem long?_eq_some_iff {s : String} {v : Int64} :
    long? s = some v ↔ Denotes s.toList v.toInt := by
  rw [long?, Option.bind_eq_some_iff]
  constructor
  · rintro ⟨n, hn, hv⟩
    rw [← toLong?_eq_some_iff.1 hv]
    exact integer?_eq_some_iff.1 hn
  · intro h
    exact ⟨v.toInt, integer?_eq_some_iff.2 h, toLong?_toInt v⟩

/-! ## Printed integers -/

/-- A natural number is printed in digits. -/
theorem isDigits_repr (n : Nat) : IsDigits n.repr.toList := by
  rw [Nat.toList_repr]
  exact ⟨Nat.toDigits_ne_nil, fun c hc =>
    Nat.isDigit_of_mem_toDigits (by decide) (Nat.le_refl 10) hc⟩

/-- The digits that are printed denote the number. -/
theorem ofDigitChars_repr (n : Nat) : Nat.ofDigitChars 10 n.repr.toList 0 = n := by
  rw [Nat.toList_repr, Nat.ofDigitChars_ten_toDigits]

theorem denotes_repr (n : Nat) : Denotes n.repr.toList n := by
  have h := Denotes.unsigned (isDigits_repr n)
  rwa [ofDigitChars_repr] at h

theorem denotes_ofId (id : UInt64) : Denotes (ofId id).toList id.toNat := denotes_repr id.toNat

/-- The decimal text of an integer is a numeral of it. -/
theorem denotes_toString (n : Int) : Denotes (toString n).toList n := by
  cases n with
  | ofNat m => exact denotes_repr m
  | negSucc m =>
    have h := Denotes.minus (isDigits_repr (m + 1))
    rw [ofDigitChars_repr] at h
    have htext : (toString (Int.negSucc m)).toList = '-' :: (m + 1).repr.toList := by
      rw [Int.toString_eq_repr, Int.repr, String.toList_append]
      rfl
    rw [htext]
    exact h

theorem denotes_ofLong (v : Int64) : Denotes (ofLong v).toList v.toInt := denotes_toString v.toInt

/-- A printed integer is read back. -/
@[simp] theorem long?_ofLong (v : Int64) : long? (ofLong v) = some v :=
  long?_eq_some_iff.2 (denotes_ofLong v)

/-- A numeral holds digits and signs. -/
theorem Denotes.isDigit_or_sign {cs : List Char} {n : Int} (h : Denotes cs n) :
    ∀ c ∈ cs, c.isDigit = true ∨ c = '+' ∨ c = '-' := by
  intro c hc
  cases h with
  | unsigned hcs => exact .inl (hcs.digits c hc)
  | plus hcs =>
    rcases List.mem_cons.1 hc with rfl | hc
    · exact .inr (.inl rfl)
    · exact .inl (hcs.digits c hc)
  | minus hcs =>
    rcases List.mem_cons.1 hc with rfl | hc
    · exact .inr (.inr rfl)
    · exact .inl (hcs.digits c hc)

/-- Digits and signs lie between the blanks and the letters of ASCII. -/
theorem toNat_mem_of_isDigit_or_sign {c : Char} (h : c.isDigit = true ∨ c = '+' ∨ c = '-') :
    43 ≤ c.toNat ∧ c.toNat ≤ 57 := by
  rcases h with h | rfl | rfl
  · have hdigit := Char.isDigit_iff_toNat.1 h
    have hfirst : 48 ≤ c.toNat := hdigit.1
    exact ⟨by omega, hdigit.2⟩
  · decide
  · decide

/-- What numerals are written with is not blank. -/
theorem isBlank_eq_false {c : Char} (h : c.isDigit = true ∨ c = '+' ∨ c = '-') :
    isBlank c = false := by
  obtain ⟨hfirst, hlast⟩ := toNat_mem_of_isDigit_or_sign h
  simp only [isBlank, Bool.or_eq_false_iff, Bool.and_eq_false_iff, decide_eq_false_iff_not,
    beq_eq_false_iff_ne]
  omega

/-- A numeral has no blanks to trim. -/
theorem Denotes.trimChars {cs : List Char} {n : Int} (h : Denotes cs n) :
    Text.trimChars cs = cs :=
  trimChars_of_ends (fun c hc => isBlank_eq_false (h.isDigit_or_sign c (List.mem_of_mem_head? hc)))
    fun c hc => isBlank_eq_false (h.isDigit_or_sign c (List.mem_of_mem_getLast? hc))

/-- So nothing is trimmed from a printed integer. -/
@[simp] theorem trim_ofLong (v : Int64) : trim (ofLong v) = ofLong v := by
  rw [trim, (denotes_ofLong v).trimChars, String.ofList_toList]

/-- Nor does any of it have a lower case. -/
theorem toLower_eq_self {c : Char} (h : c.isDigit = true ∨ c = '+' ∨ c = '-') :
    c.toLower = c := by
  have hlast : c.val.toNat ≤ 57 := (toNat_mem_of_isDigit_or_sign h).2
  have hcapital : ¬ (c.val ≥ 'A'.val ∧ c.val ≤ 'Z'.val) := by
    intro hcapital
    have hfirst : 65 ≤ c.val.toNat := hcapital.1
    omega
  exact dif_neg hcapital

/-- A printed integer is no word, in any case. -/
theorem sameIgnoringAsciiCase_ofLong (word : String) (hword : long? word = none)
    (hlower : word.toList.map Char.toLower = word.toList) (v : Int64) :
    sameIgnoringAsciiCase (ofLong v) word = false := by
  rw [← Bool.not_eq_true, sameIgnoringAsciiCase_iff, hlower]
  intro hsame
  have hself : (ofLong v).toList.map Char.toLower = (ofLong v).toList :=
    (List.map_congr_left fun c hc =>
      toLower_eq_self ((denotes_ofLong v).isDigit_or_sign c hc)).trans (List.map_id _)
  rw [hself, String.toList_inj] at hsame
  rw [← hsame, long?_ofLong] at hword
  cases hword

end LiveServices.Text
