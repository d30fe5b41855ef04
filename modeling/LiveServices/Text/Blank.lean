/-!
# Blank characters

Filters and names are trimmed by Unicode's `White_Space` property, not by ASCII blanks. This file
holds that set and the two cuts made with it.

`trimChars` is stated on characters so that the filter parser, which works on characters, and
`trim`, which works on strings, share one definition. `dropBlanks_eq_self_iff` and
`trimChars_of_ends` say when a cut takes nothing away, `exists_append_trimChars` that it takes
nothing but blanks.
-/

namespace LiveServices.Text

/-- The characters with Unicode's `White_Space` property. -/
def isBlank (c : Char) : Bool :=
  let n := c.toNat
  (9 ≤ n && n ≤ 13) || n == 0x20 || n == 0x85 || n == 0xA0 || n == 0x1680 ||
    (0x2000 ≤ n && n ≤ 0x200A) || n == 0x2028 || n == 0x2029 || n == 0x202F || n == 0x205F ||
    n == 0x3000

/-- The characters from the first one that is not blank. -/
def dropBlanks (cs : List Char) : List Char := cs.dropWhile isBlank

/-- The characters without the blanks at either end. -/
def trimChars (cs : List Char) : List Char := (dropBlanks (dropBlanks cs).reverse).reverse

/-- A text without the blanks at either end. -/
def trim (s : String) : String := String.ofList (trimChars s.toList)

/-- A text that has no character but blanks, the empty text included. -/
def isBlankText (s : String) : Bool := s.toList.all isBlank

@[simp] theorem dropBlanks_nil : dropBlanks [] = [] := rfl

theorem dropBlanks_cons (c : Char) (cs : List Char) :
    dropBlanks (c :: cs) = if isBlank c then dropBlanks cs else c :: cs := by
  simp only [dropBlanks, List.dropWhile_cons]

theorem length_dropBlanks_le (cs : List Char) : (dropBlanks cs).length ≤ cs.length :=
  (List.dropWhile_sublist _).length_le

/-- Nothing is dropped from characters that start with no blank. -/
theorem dropBlanks_eq_self_iff {cs : List Char} :
    dropBlanks cs = cs ↔ ∀ c ∈ cs.head?, isBlank c = false := by
  cases cs with
  | nil => simp
  | cons c cs =>
    rw [dropBlanks_cons]
    split
    · next h =>
      have : (dropBlanks cs).length < (c :: cs).length := by
        have := length_dropBlanks_le cs
        simp only [List.length_cons]; omega
      simp only [List.head?_cons, Option.mem_def, Option.some.injEq, forall_eq', h]
      constructor
      · intro e; rw [e] at this; omega
      · intro e; simp at e
    · next h => simpa using h

/-- Nothing is trimmed from characters that neither start nor end with a blank. -/
theorem trimChars_of_ends {cs : List Char} (hfirst : ∀ c ∈ cs.head?, isBlank c = false)
    (hlast : ∀ c ∈ cs.getLast?, isBlank c = false) : trimChars cs = cs := by
  have h₁ := dropBlanks_eq_self_iff.2 hfirst
  have h₂ : dropBlanks cs.reverse = cs.reverse :=
    dropBlanks_eq_self_iff.2 (by simpa [List.head?_reverse] using hlast)
  simp [trimChars, h₁, h₂]

/-- What was dropped is blanks. -/
theorem exists_append_dropBlanks (cs : List Char) :
    ∃ blanks : List Char, (∀ c ∈ blanks, isBlank c = true) ∧ cs = blanks ++ dropBlanks cs :=
  ⟨cs.takeWhile isBlank, List.all_eq_true.1 List.all_takeWhile,
    List.takeWhile_append_dropWhile.symm⟩

/-- What is trimmed at the end is blanks. -/
theorem exists_dropBlanks_eq_append (cs : List Char) :
    ∃ blanks : List Char, (∀ c ∈ blanks, isBlank c = true) ∧
      dropBlanks cs = trimChars cs ++ blanks := by
  obtain ⟨blanks, hblanks, hrest⟩ := exists_append_dropBlanks (dropBlanks cs).reverse
  have hrest := congrArg List.reverse hrest
  rw [List.reverse_reverse, List.reverse_append] at hrest
  exact ⟨blanks.reverse, fun c hc => hblanks c (List.mem_reverse.1 hc), hrest⟩

/-- A text is what is left of it when it is trimmed, between blanks. -/
theorem exists_append_trimChars (cs : List Char) :
    ∃ before after : List Char, (∀ c ∈ before, isBlank c = true) ∧
      (∀ c ∈ after, isBlank c = true) ∧ cs = before ++ (trimChars cs ++ after) := by
  obtain ⟨before, hbefore, hcs⟩ := exists_append_dropBlanks cs
  obtain ⟨after, hafter, hrest⟩ := exists_dropBlanks_eq_append cs
  rw [hrest] at hcs
  exact ⟨before, after, hbefore, hafter, hcs⟩

theorem dropBlanks_append {blanks : List Char} (h : ∀ c ∈ blanks, isBlank c = true)
    (cs : List Char) : dropBlanks (blanks ++ cs) = dropBlanks cs := List.dropWhile_append_of_pos h

/-- Blanks around characters are trimmed with the rest. -/
theorem trimChars_append {before after : List Char} (hbefore : ∀ c ∈ before, isBlank c = true)
    (hafter : ∀ c ∈ after, isBlank c = true) (cs : List Char) :
    trimChars (before ++ (cs ++ after)) = trimChars cs := by
  rw [trimChars, trimChars, dropBlanks_append hbefore]
  cases hcs : dropBlanks cs with
  | nil =>
    have hall : ∀ c ∈ cs ++ after, isBlank c = true := by
      obtain ⟨blanks, hblanks, hwhole⟩ := exists_append_dropBlanks cs
      rw [hcs, List.append_nil] at hwhole
      intro c hc
      rcases List.mem_append.1 hc with hc | hc
      · exact hblanks c (hwhole ▸ hc)
      · exact hafter c hc
    have hrest : dropBlanks (cs ++ after) = [] := by
      rw [← List.append_nil (cs ++ after), dropBlanks_append hall]
      rfl
    rw [hrest]
  | cons c rest =>
    have hrest : dropBlanks (cs ++ after) = c :: rest ++ after := by
      rw [dropBlanks, List.dropWhile_append, ← dropBlanks, hcs]
      rfl
    rw [hrest, List.reverse_append, dropBlanks_append fun d hd => hafter d (List.mem_reverse.1 hd)]

end LiveServices.Text
