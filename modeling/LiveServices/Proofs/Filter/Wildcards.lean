import LiveServices.Filter.Match

/-!
# Wildcards

A pattern with wildcards is decided without backtracking: the first part is cut off the front, the
last one off the end, and each part between them is taken where it first occurs in what remains.
What a pattern means says nothing of an order of search: a text fits if it is the parts in order
with some text in each gap (`Pattern.filled`).

The search misses nothing, by an exchange: wherever a part stands, its first occurrence leaves at
least as much of the text behind it (`exists_afterFirst?`), and more text at the front hides no
part (`occur_append`). So the parts occur for the search if they can be placed at all
(`occur_iff`), and the two cuts at the ends only fix the first and the last part
(`Pattern.matchesText_iff_filled`).
-/

namespace LiveServices.ServiceFilter

/-- The text of parts that each stand after a gap. -/
def spread (gaps parts : List (List Char)) : List Char :=
  (List.zipWith (· ++ ·) gaps parts).flatten

@[simp] theorem spread_nil (gaps : List (List Char)) : spread gaps [] = [] := by simp [spread]

@[simp] theorem spread_cons (gap part : List Char) (gaps parts : List (List Char)) :
    spread (gap :: gaps) (part :: parts) = gap ++ (part ++ spread gaps parts) := by
  simp [spread]

/-- The last gap and the last part stand at the end. -/
theorem spread_append_singleton {gaps parts : List (List Char)}
    (hlength : gaps.length = parts.length) (gap part : List Char) :
    spread (gaps ++ [gap]) (parts ++ [part]) = spread gaps parts ++ (gap ++ part) := by
  rw [spread, List.zipWith_append hlength, List.flatten_append]
  simp [spread]

/-! ## The first occurrence -/

/-- What is searched is found after some gap. -/
theorem eq_of_afterFirst? {p v rest : List Char} (h : afterFirst? p v = some rest) :
    ∃ gap, v = gap ++ (p ++ rest) := by
  induction v with
  | nil =>
    have htext : [] = p ++ rest := after?_eq_some_iff.1 h
    exact ⟨[], htext⟩
  | cons d v ih =>
    rw [afterFirst?] at h
    split at h
    case h_1 found hfound =>
      have htext : d :: v = p ++ found := after?_eq_some_iff.1 hfound
      cases h
      exact ⟨[], htext⟩
    case h_2 =>
      obtain ⟨gap, hgap⟩ := ih h
      exact ⟨d :: gap, congrArg (d :: ·) hgap⟩

/-- Wherever a part stands in a text, its first occurrence leaves what follows it there, and
perhaps more. -/
theorem exists_afterFirst? (gap p rest : List Char) :
    ∃ more, afterFirst? p (gap ++ (p ++ rest)) = some (more ++ rest) := by
  induction gap with
  | nil =>
    have hafter : after? p (p ++ rest) = some rest := after?_eq_some_iff.2 rfl
    refine ⟨[], ?_⟩
    rw [List.nil_append, List.nil_append]
    cases hv : p ++ rest with
    | nil =>
      rw [hv] at hafter
      exact hafter
    | cons d v =>
      rw [hv] at hafter
      rw [afterFirst?, hafter]
  | cons d gap ih =>
    rw [List.cons_append, afterFirst?]
    split
    case h_1 found hfound =>
      -- found at the front: what remains and the rest both end the text, and the rest is shorter
      have htext : d :: (gap ++ (p ++ rest)) = p ++ found := after?_eq_some_iff.1 hfound
      have hlength : rest.length ≤ found.length := by
        have := congrArg List.length htext
        simp only [List.length_cons, List.length_append] at this
        omega
      have hrest : rest <:+ p ++ found := htext ▸ ⟨d :: gap ++ p, by simp⟩
      obtain ⟨more, hmore⟩ := List.suffix_of_suffix_length_le hrest (List.suffix_append p found)
        hlength
      exact ⟨more, congrArg some hmore.symm⟩
    case h_2 => exact ih

/-! ## The parts between -/

/-- Parts occur in order if the first is found and the others occur after it. -/
theorem occur_cons_iff {p : List Char} {ps : List (List Char)} {v : List Char} :
    occur (p :: ps) v = true ↔ ∃ rest, afterFirst? p v = some rest ∧ occur ps rest = true := by
  rw [occur]
  cases afterFirst? p v with
  | none => simp
  | some rest => simp

/-- More text at the front hides no part. -/
theorem occur_append {ps : List (List Char)} (u : List Char) {v : List Char}
    (h : occur ps v = true) : occur ps (u ++ v) = true := by
  induction ps generalizing u v with
  | nil => rfl
  | cons p ps ih =>
    obtain ⟨rest, hfirst, hrest⟩ := occur_cons_iff.1 h
    obtain ⟨gap, rfl⟩ := eq_of_afterFirst? hfirst
    obtain ⟨more, hmore⟩ := exists_afterFirst? (u ++ gap) p rest
    rw [List.append_assoc] at hmore
    exact occur_cons_iff.2 ⟨more ++ rest, hmore, ih more hrest⟩

/-- The search finds the parts if they can be placed at all. -/
theorem occur_iff {ps : List (List Char)} {v : List Char} :
    occur ps v = true ↔
      ∃ gaps rest, gaps.length = ps.length ∧ v = spread gaps ps ++ rest := by
  induction ps generalizing v with
  | nil =>
    constructor
    · intro _
      exact ⟨[], v, rfl, by simp⟩
    · intro _
      rfl
  | cons p ps ih =>
    rw [occur_cons_iff]
    constructor
    · rintro ⟨rest, hfirst, hrest⟩
      obtain ⟨gap, rfl⟩ := eq_of_afterFirst? hfirst
      obtain ⟨gaps, tail, hlength, rfl⟩ := ih.1 hrest
      exact ⟨gap :: gaps, tail, congrArg (· + 1) hlength, by simp⟩
    · rintro ⟨gaps, tail, hlength, rfl⟩
      obtain ⟨gap, gaps, rfl⟩ := List.exists_cons_of_length_eq_add_one hlength
      obtain ⟨more, hmore⟩ := exists_afterFirst? gap p (spread gaps ps ++ tail)
      have hplaced : occur ps (spread gaps ps ++ tail) = true :=
        ih.2 ⟨gaps, tail, Nat.succ.inj hlength, rfl⟩
      refine ⟨_, ?_, occur_append more hplaced⟩
      rw [← hmore]
      simp

/-! ## The cuts at the ends -/

/-- A text fits if it starts and ends with the outer parts and the others occur between them. -/
theorem fits_iff {first last v : List Char} {between : List (List Char)} :
    fits first between last v = true ↔
      ∃ rest, v = first ++ (rest ++ last) ∧ occur between rest = true := by
  have hcut (rest : List Char) :
      (after? first v).bind (before? last) = some rest ↔ v = first ++ (rest ++ last) := by
    rw [Option.bind_eq_some_iff]
    constructor
    · rintro ⟨after, hafter, hbefore⟩
      rw [after?_eq_some_iff.1 hafter, before?_eq_some_iff.1 hbefore]
    · rintro rfl
      exact ⟨rest ++ last, after?_eq_some_iff.2 rfl, before?_eq_some_iff.2 rfl⟩
  rw [fits]
  constructor
  · intro h
    split at h
    case h_1 rest hrest => exact ⟨rest, (hcut rest).1 hrest, h⟩
    case h_2 => cases h
  · rintro ⟨rest, hv, hoccur⟩
    rw [(hcut rest).2 hv]
    exact hoccur

/-- A text fits a first part and the parts after it if it can be filled in between them. -/
theorem fits_iff_spread {first last v : List Char} {between : List (List Char)} :
    fits first between last v = true ↔
      ∃ gaps, gaps.length = (between ++ [last]).length ∧
        v = first ++ spread gaps (between ++ [last]) := by
  rw [fits_iff]
  constructor
  · rintro ⟨rest, rfl, hoccur⟩
    obtain ⟨gaps, tail, hlength, rfl⟩ := occur_iff.1 hoccur
    refine ⟨gaps ++ [tail], by simp [hlength], ?_⟩
    rw [spread_append_singleton hlength, List.append_assoc]
  · rintro ⟨gaps, hlength, rfl⟩
    -- the last gap is the one before the last part
    have hne : gaps ≠ [] := by
      rintro rfl
      simp at hlength
    obtain ⟨front, gap, rfl⟩ : ∃ front gap, gaps = front ++ [gap] :=
      ⟨_, _, (List.dropLast_concat_getLast hne).symm⟩
    have hfront : front.length = between.length := by simpa using hlength
    refine ⟨spread front between ++ gap, ?_, occur_iff.2 ⟨front, gap, hfront, rfl⟩⟩
    rw [spread_append_singleton hfront, List.append_assoc]

namespace Pattern

/-- The text of a pattern with a text for each of its gaps. -/
def filled (p : Pattern) (gaps : List String) : String :=
  p.first ++ String.join (List.zipWith (· ++ ·) gaps p.more)

/-- A filled pattern is its first part and then each gap with the part after it. -/
theorem toList_filled (p : Pattern) (gaps : List String) :
    (p.filled gaps).toList =
      p.first.toList ++ spread (gaps.map String.toList) (p.more.map String.toList) := by
  have hzip : (List.zipWith (· ++ ·) gaps p.more).map String.toList =
      List.zipWith (· ++ ·) (gaps.map String.toList) (p.more.map String.toList) := by
    rw [List.map_zipWith, List.zipWith_map]
    simp only [String.toList_append]
  rw [filled, String.toList_append, String.toList_join, List.flatMap_def, hzip, spread]

/-- **Wildcards.** A text fits a pattern with wildcards exactly if it is the parts of the pattern
with some text in each of the gaps between them. -/
theorem matchesText_iff_filled (first next : String) (more : List String) (value : String) :
    (Pattern.mk first (next :: more)).matchesText value = true ↔
      ∃ gaps : List String, gaps.length = (next :: more).length ∧
        value = (Pattern.mk first (next :: more)).filled gaps := by
  have hne : next :: more ≠ [] := List.cons_ne_nil next more
  have hmatches : (Pattern.mk first (next :: more)).matchesText value =
      fits first.toList ((next :: more).dropLast.map String.toList)
        ((next :: more).getLast hne).toList value.toList := by
    rw [matchesText, List.getLast?_eq_some_getLast hne]
  have hparts : (next :: more).dropLast.map String.toList ++ [((next :: more).getLast hne).toList] =
      (next :: more).map String.toList := by
    have h := congrArg (List.map String.toList) (List.dropLast_concat_getLast hne)
    rwa [List.map_append] at h
  rw [hmatches, fits_iff_spread, hparts, List.length_map]
  constructor
  · rintro ⟨gaps, hlength, hvalue⟩
    refine ⟨gaps.map String.ofList, by rw [List.length_map, hlength], ?_⟩
    have hgaps : (gaps.map String.ofList).map String.toList = gaps := by
      simp [Function.comp_def]
    rw [← String.toList_inj, toList_filled, hgaps]
    exact hvalue
  · rintro ⟨gaps, hlength, rfl⟩
    exact ⟨gaps.map String.toList, by rw [List.length_map, hlength], toList_filled _ _⟩

-- the first and the last part do not share characters
example : (Pattern.mk "aba" ["aba"]).matchesText "ababa" = false := by decide +kernel

end Pattern

end LiveServices.ServiceFilter
