import LiveServices.Sequence.Search

/-!
# What the search finds

On a list whose elements come first below a place, then at it, then above it (`Ascending`), the
search finds the place: an element that is at it, or else the index that has all that is below
before it and all that is above from it on (`suits_search`). The halving is what needs the order:
`narrow_eq` says which candidate it leaves.
-/

namespace LiveServices.Sequence

variable {α : Type} {side : α → Ordering} {items : List α}

/-- The elements come below a place, then at it, then above it. -/
def Ascending (side : α → Ordering) (items : List α) : Prop :=
  items.Pairwise fun a b => (side b = .lt → side a = .lt) ∧ (side a = .gt → side b = .gt)

/-- What is found is right: an element is at a place that is taken, and a place that is free has
what is below it before it and what is above it from it on. -/
def Place.Suits (side : α → Ordering) (items : List α) : Place → Prop
  | .taken index => ∃ x, items[index]? = some x ∧ side x = .eq
  | .free index => (∀ x ∈ items.take index, side x = .lt) ∧ ∀ x ∈ items.drop index, side x = .gt

/-- If exactly the candidates from some index on are above, the last one before it is left, or the
first candidate if there is none before it. -/
theorem narrow_eq {isAbove : Nat → Bool} {size base n : Nat}
    (h : ∀ i, base ≤ i → i < base + size → (isAbove i = true ↔ n ≤ i)) :
    narrow isAbove size base = max base (min n (base + size) - 1) := by
  fun_induction narrow isAbove size base with
  | case1 size base hsize => omega
  | case2 size base hsize half ih =>
    have hhalf : half = size / 2 := rfl
    have hat := h (base + half) (by omega) (by omega)
    by_cases ha : isAbove (base + half) = true
    · simp only [dif_pos ha] at ih
      rw [if_pos ha, ih fun i hi hlt => h i hi (by omega)]
      have := hat.1 ha
      omega
    · simp only [dif_neg ha] at ih
      rw [if_neg ha, ih fun i hi hlt => h i (by omega) (by omega)]
      have := mt hat.2 ha
      omega

/-- In ascending items the elements above the place are those from the first one on. -/
theorem Ascending.above_iff (h : Ascending side items) {i : Nat} (hi : i < items.length) :
    side items[i] = .gt ↔ items.findIdx (side · == .gt) ≤ i := by
  constructor
  · intro hgt
    refine Nat.le_of_not_lt fun hlt => ?_
    have hnot := List.not_of_lt_findIdx hlt
    simp [hgt] at hnot
  · intro hle
    have hfirst : side items[items.findIdx (side · == .gt)] = .gt := by
      simpa using List.findIdx_getElem (p := (side · == .gt)) (w := Nat.lt_of_le_of_lt hle hi)
    obtain heq | hlt := Nat.eq_or_lt_of_le hle
    · simpa only [heq] using hfirst
    · exact (List.pairwise_iff_getElem.1 h _ _ _ hi hlt).2 hfirst

/-- **Search.** In ascending items the search is right. -/
theorem suits_search (h : Ascending side items) : (search side items).Suits side items := by
  generalize hn : items.findIdx (side · == .gt) = n
  have habove : ∀ i (hi : i < items.length), side items[i] = .gt ↔ n ≤ i := fun i hi =>
    hn ▸ h.above_iff hi
  have hle : n ≤ items.length := hn ▸ List.findIdx_le_length
  have hnarrow : narrow (fun i => (items[i]?.map side) == some .gt) items.length 0 = n - 1 := by
    rw [narrow_eq (n := n)]
    · omega
    · intro i _ hi
      rw [Nat.zero_add] at hi
      rw [List.getElem?_eq_getElem hi, ← habove i hi]
      simp
  have hdrop : ∀ x ∈ items.drop n, side x = .gt := by
    intro x hx
    obtain ⟨i, hi, rfl⟩ := List.mem_drop_iff_getElem.1 hx
    exact (habove _ (by omega)).2 (by omega)
  unfold search
  rw [hnarrow]
  cases n with
  | zero =>
    have hfree : (Place.free 0).Suits side items := ⟨by simp, hdrop⟩
    cases hat : items[0]? with
    | none => simpa [hat] using hfree
    | some x =>
      obtain ⟨hpos, rfl⟩ := List.getElem?_eq_some_iff.1 hat
      simpa [hat, (habove 0 hpos).2 (Nat.le_refl 0)] using hfree
  | succ k =>
    -- the candidate is the last element that is not above
    have hk : k < items.length := by omega
    have hnot : side items[k] ≠ .gt := fun hgt => by
      have := (habove k hk).1 hgt
      omega
    simp only [Nat.add_sub_cancel, List.getElem?_eq_getElem hk, Option.map_some]
    cases hside : side items[k] with
    | gt => exact absurd hside hnot
    | eq => exact ⟨items[k], List.getElem?_eq_getElem hk, hside⟩
    | lt =>
      refine ⟨fun x hx => ?_, hdrop⟩
      obtain ⟨i, hi, rfl⟩ := List.mem_take_iff_getElem.1 hx
      obtain rfl | hlt : i = k ∨ i < k := by omega
      · exact hside
      · exact (List.pairwise_iff_getElem.1 h i k _ hk hlt).1 hside

/-- A place is taken exactly if an element is at it. -/
theorem search_taken_iff (h : Ascending side items) :
    (∃ index, search side items = .taken index) ↔ ∃ x ∈ items, side x = .eq := by
  have hs := suits_search h
  constructor
  · rintro ⟨index, ht⟩
    rw [ht] at hs
    obtain ⟨x, hx, heq⟩ := hs
    exact ⟨x, List.mem_of_getElem? hx, heq⟩
  · rintro ⟨x, hx, heq⟩
    cases hp : search side items with
    | taken index => exact ⟨index, rfl⟩
    | free index =>
      rw [hp] at hs
      rw [← List.take_append_drop index items] at hx
      rcases List.mem_append.1 hx with hx | hx
      · exact absurd (heq.symm.trans (hs.1 x hx)) (by decide)
      · exact absurd (heq.symm.trans (hs.2 x hx)) (by decide)

/-- A place that is taken is taken by an element. -/
theorem exists_of_search_taken {index : Nat} (hs : search side items = .taken index) :
    ∃ x ∈ items, side x = .eq := by
  simp only [search] at hs
  split at hs
  · cases hs
  · next hat =>
    obtain ⟨x, hx, hside⟩ := Option.map_eq_some_iff.1 hat
    exact ⟨x, List.mem_of_getElem? hx, hside⟩
  · cases hs
  · cases hs

/-- A search looks at the sides of the elements only. -/
theorem search_of_map_eq {items' : List α} {side' : α → Ordering}
    (h : items'.map side' = items.map side) : search side' items' = search side items := by
  have hat (i : Nat) : items'[i]?.map side' = items[i]?.map side := by
    rw [← List.getElem?_map, h, List.getElem?_map]
  have hlength : items'.length = items.length := by simpa using congrArg List.length h
  simp only [search, hat, hlength]

theorem search_congr {side' : α → Ordering} (h : ∀ x ∈ items, side x = side' x) :
    search side items = search side' items := search_of_map_eq (List.map_congr_left h)

/-- A search that meets no element at its place is the search for the partition point. -/
theorem search_eq_free (hne : ∀ x ∈ items, side x ≠ .eq) :
    search side items = .free (partitionPoint (fun x => side x != .gt) items) := by
  have hsame : search (fun x => if side x != .gt then .lt else .gt) items = search side items := by
    refine search_congr fun x hx => ?_
    have := hne x hx
    cases hside : side x <;> simp_all
  rw [partitionPoint, hsame]
  cases hs : search side items with
  | taken index =>
    obtain ⟨x, hx, heq⟩ := exists_of_search_taken hs
    exact absurd heq (hne x hx)
  | free index => rfl

/-- Where those that pass a test come first, the partition point divides them from the others. -/
theorem partitionPoint_spec {test : α → Bool}
    (h : items.Pairwise fun a b => test b = true → test a = true) :
    (∀ x ∈ items.take (partitionPoint test items), test x = true) ∧
      ∀ x ∈ items.drop (partitionPoint test items), test x = false := by
  have hlt : ∀ x, (if test x = true then Ordering.lt else .gt) = .lt ↔ test x = true := by
    intro x
    cases test x <;> simp
  have hgt : ∀ x, (if test x = true then Ordering.lt else .gt) = .gt ↔ test x = false := by
    intro x
    cases test x <;> simp
  have hasc : Ascending (fun x => if test x then .lt else .gt) items := by
    refine h.imp fun {a b} hab => ⟨fun hb => (hlt a).2 (hab ((hlt b).1 hb)), fun ha => ?_⟩
    rw [hgt] at ha ⊢
    exact Bool.eq_false_iff.2 fun hb => absurd (hab hb) (by simp [ha])
  have hs := suits_search hasc
  unfold partitionPoint
  cases hp : search (fun x => if test x then .lt else .gt) items with
  | taken index =>
    rw [hp] at hs
    obtain ⟨x, -, heq⟩ := hs
    cases hx : test x <;> simp [hx] at heq
  | free index =>
    rw [hp] at hs
    exact ⟨fun x hx => (hlt x).1 (hs.1 x hx), fun x hx => (hgt x).1 (hs.2 x hx)⟩

/-- An element that is put between those it comes after and those it comes before. -/
theorem pairwise_insert {R : α → α → Prop} {a : α} {index : Nat} (hi : items.Pairwise R)
    (hbefore : ∀ x ∈ items.take index, R x a) (hafter : ∀ x ∈ items.drop index, R a x) :
    (items.take index ++ a :: items.drop index).Pairwise R := by
  rw [← List.take_append_drop index items, List.pairwise_append] at hi
  obtain ⟨htake, hdrop, hacross⟩ := hi
  refine List.pairwise_append.2 ⟨htake, List.pairwise_cons.2 ⟨hafter, hdrop⟩, fun x hx y hy => ?_⟩
  rcases List.mem_cons.1 hy with rfl | hy
  · exact hbefore x hx
  · exact hacross x hx y hy

end LiveServices.Sequence
