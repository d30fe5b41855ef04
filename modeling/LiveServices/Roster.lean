/-!
# Rosters

A roster is a list of things with identities, in rising order of the identities and without
repetition. Registries and collections keep theirs in this form, so that a walk over one meets the
older thing first.
-/

namespace LiveServices.Roster

/-- The thing with this identity. -/
def find? (key : α → UInt64) (id : UInt64) (items : List α) : Option α :=
  items.find? fun a => key a == id

/-- The roster without the thing of this identity. -/
def erase (key : α → UInt64) (id : UInt64) (items : List α) : List α :=
  items.filter fun a => key a != id

/-- The roster with this thing, in place of the one with its identity. -/
def insert (key : α → UInt64) (a : α) : List α → List α
  | [] => [a]
  | b :: bs =>
    if key a < key b then a :: b :: bs
    else if key a == key b then a :: bs
    else b :: insert key a bs

/-- What is in a roster after an insertion. -/
theorem mem_insert {key : α → UInt64} {a x : α} {items : List α}
    (h : x ∈ insert key a items) : x = a ∨ x ∈ items := by
  induction items with
  | nil => simpa [insert] using h
  | cons b bs ih =>
    unfold insert at h
    split at h
    · simpa using h
    · split at h
      · rcases List.mem_cons.1 h with rfl | h
        · exact .inl rfl
        · exact .inr (List.mem_cons_of_mem _ h)
      · rcases List.mem_cons.1 h with rfl | h
        · exact .inr List.mem_cons_self
        · exact (ih h).imp id (List.mem_cons_of_mem _)

theorem mem_insert_self {key : α → UInt64} {a : α} {items : List α} :
    a ∈ insert key a items := by
  induction items with
  | nil => simp [insert]
  | cons b bs ih =>
    unfold insert
    split
    · simp
    · split
      · simp
      · exact List.mem_cons_of_mem _ ih

/-- A thing whose identity is new comes to those that were there. -/
theorem insert_perm {key : α → UInt64} {a : α} {items : List α}
    (hnew : ∀ b ∈ items, key b ≠ key a) :
    (insert key a items).Perm (a :: items) := by
  induction items with
  | nil => exact .refl _
  | cons b bs ih =>
    have hne : key a ≠ key b := (hnew b List.mem_cons_self).symm
    unfold insert
    rw [if_neg (c := (key a == key b) = true) (by simpa using hne)]
    split
    · exact .refl _
    · exact ((ih fun x hx => hnew x (List.mem_cons_of_mem _ hx)).cons b).trans (.swap a b bs)

/-- All else stays. -/
theorem mem_insert_of_ne {key : α → UInt64} {a x : α} {items : List α} (hx : x ∈ items)
    (hne : key x ≠ key a) : x ∈ insert key a items := by
  induction items with
  | nil => cases hx
  | cons b bs ih =>
    unfold insert
    split
    · exact List.mem_cons_of_mem _ hx
    · split
      · next heq =>
        rcases List.mem_cons.1 hx with rfl | hx
        · exact absurd (eq_of_beq heq).symm hne
        · exact List.mem_cons_of_mem _ hx
      · rcases List.mem_cons.1 hx with rfl | hx
        · exact List.mem_cons_self
        · exact List.mem_cons_of_mem _ (ih hx)

/-- An insertion keeps the order of the identities. -/
theorem rising_insert {key : α → UInt64} {a : α} {items : List α}
    (hi : items.Pairwise (key · < key ·)) : (insert key a items).Pairwise (key · < key ·) := by
  induction items with
  | nil => simp [insert]
  | cons b bs ih =>
    obtain ⟨hb, hbs⟩ := List.pairwise_cons.1 hi
    unfold insert
    split
    · next hlt =>
      refine List.pairwise_cons.2 ⟨fun x hx => ?_, hi⟩
      rcases List.mem_cons.1 hx with rfl | hx
      · exact hlt
      · exact UInt64.lt_trans hlt (hb x hx)
    · split
      · next heq => exact List.pairwise_cons.2 ⟨fun x hx => eq_of_beq heq ▸ hb x hx, hbs⟩
      · next hlt hne =>
        refine List.pairwise_cons.2 ⟨fun x hx => ?_, ih hbs⟩
        rcases mem_insert hx with rfl | hx
        · have hle := UInt64.not_lt.1 hlt
          exact UInt64.lt_of_le_of_ne hle fun heq => hne (beq_iff_eq.2 heq.symm)
        · exact hb x hx

/-- An insertion keeps a symmetric relation in which the new thing stands to all others. -/
theorem pairwise_insert {key : α → UInt64} {R : α → α → Prop} {a : α} {items : List α}
    (hsymm : ∀ x y, R x y → R y x) (hi : items.Pairwise R) (ha : ∀ b ∈ items, R a b) :
    (insert key a items).Pairwise R := by
  induction items with
  | nil => simp [insert]
  | cons b bs ih =>
    obtain ⟨hb, hbs⟩ := List.pairwise_cons.1 hi
    have hrest : ∀ x ∈ bs, R a x := fun x hx => ha x (List.mem_cons_of_mem _ hx)
    unfold insert
    split
    · exact List.pairwise_cons.2 ⟨ha, hi⟩
    · split
      · exact List.pairwise_cons.2 ⟨hrest, hbs⟩
      · refine List.pairwise_cons.2 ⟨fun x hx => ?_, ih hbs hrest⟩
        rcases mem_insert hx with rfl | hx
        · exact hsymm _ _ (ha b List.mem_cons_self)
        · exact hb x hx

/-- A thing is found under its identity, where identities rise. -/
theorem find?_of_mem {key : α → UInt64} {a : α} {items : List α}
    (hi : items.Pairwise (key · < key ·)) (ha : a ∈ items) : find? key (key a) items = some a := by
  induction items with
  | nil => cases ha
  | cons b bs ih =>
    obtain ⟨hb, hbs⟩ := List.pairwise_cons.1 hi
    rcases List.mem_cons.1 ha with rfl | ha
    · simp [find?]
    · have hne : key b ≠ key a := UInt64.ne_of_lt (hb a ha)
      rw [find?, List.find?_cons_of_neg (by simpa using hne)]
      exact ih hbs ha

/-- The identities of a roster after a thing was taken out. -/
theorem map_erase (key : α → UInt64) (id : UInt64) (items : List α) :
    (erase key id items).map key = (items.map key).filter (· != id) := by
  rw [erase, List.filter_map]
  rfl

/-- What is found is taken out, and all else stays, where identities are not repeated. -/
theorem perm_cons_erase {key : α → UInt64} {id : UInt64} {a : α} {items : List α}
    (hnodup : (items.map key).Nodup) (hf : find? key id items = some a) :
    items.Perm (a :: erase key id items) := by
  induction items with
  | nil => cases hf
  | cons b bs ih =>
    obtain ⟨hb, hbs⟩ := List.nodup_cons.1 hnodup
    unfold find? at hf
    rw [List.find?_cons] at hf
    cases hid : key b == id with
    | true =>
      rw [hid] at hf
      obtain rfl := Option.some.inj hf
      have hrest : erase key id bs = bs := by
        refine List.filter_eq_self.2 fun x hx => ?_
        have hne : key x ≠ key b := fun hxb => hb (hxb ▸ List.mem_map_of_mem hx)
        rw [← beq_iff_eq.1 hid]
        simpa using hne
      rw [erase, List.filter_cons_of_neg (by simp [hid, bne]), ← erase, hrest]
    | false =>
      rw [hid] at hf
      rw [erase, List.filter_cons_of_pos (by simp [hid, bne])]
      exact ((ih hbs hf).cons b).trans (.swap a b _)

/-- What is found has the identity that was looked for. -/
theorem key_of_find? {key : α → UInt64} {id : UInt64} {a : α} {items : List α}
    (hf : find? key id items = some a) : key a = id := by
  simpa using List.find?_some hf

/-- What was inserted is found. -/
theorem find?_insert_self {key : α → UInt64} {a : α} {items : List α} :
    find? key (key a) (insert key a items) = some a := by
  induction items with
  | nil => simp [insert, find?]
  | cons b bs ih =>
    unfold insert
    split
    · simp [find?]
    · split
      · simp [find?]
      · next hne =>
        rw [find?, List.find?_cons_of_neg (by simpa using Ne.symm (by simpa using hne))]
        exact ih

/-- What is in a roster after an insertion, where identities rise. -/
theorem mem_insert_iff {key : α → UInt64} {a x : α} {items : List α}
    (hi : items.Pairwise (key · < key ·)) :
    x ∈ insert key a items ↔ x = a ∨ x ∈ items ∧ key x ≠ key a := by
  constructor
  · intro hx
    rcases mem_insert hx with rfl | hmem
    · exact .inl rfl
    by_cases hkey : key x = key a
    · -- both are found under the one identity
      have hfound := find?_of_mem (rising_insert (a := a) hi) hx
      rw [hkey, find?_insert_self] at hfound
      exact .inl (Option.some.inj hfound).symm
    · exact .inr ⟨hmem, hkey⟩
  · rintro (rfl | ⟨hx, hne⟩)
    · exact mem_insert_self
    · exact mem_insert_of_ne hx hne

/-- An insertion is seen under its own identity only. -/
theorem find?_insert_of_ne {key : α → UInt64} {id : UInt64} {a : α} {items : List α}
    (hne : key a ≠ id) : find? key id (insert key a items) = find? key id items := by
  have hskip (bs : List α) : find? key id (a :: bs) = find? key id bs :=
    List.find?_cons_of_neg (by simpa using hne)
  induction items with
  | nil => exact hskip []
  | cons b bs ih =>
    unfold insert
    split
    · exact hskip _
    · split
      · next heq =>
        rw [hskip]
        refine (List.find?_cons_of_neg ?_).symm
        rw [← eq_of_beq heq]
        simpa using hne
      · unfold find? at ih ⊢
        rw [List.find?_cons, List.find?_cons, ih]

/-- What was erased is not found. -/
theorem find?_erase_self {key : α → UInt64} {id : UInt64} {items : List α} :
    find? key id (erase key id items) = none := by
  refine List.find?_eq_none.2 fun a ha => ?_
  simpa using (List.mem_filter.1 ha).2

/-- An erasure is seen under its own identity only. -/
theorem find?_erase_of_ne {key : α → UInt64} {id id' : UInt64} {items : List α} (hne : id ≠ id') :
    find? key id' (erase key id items) = find? key id' items := by
  rw [find?, erase, List.find?_filter, find?]
  congr 1
  funext a
  by_cases ha : key a = id'
  · simp [ha, hne.symm]
  · simp [ha]

end LiveServices.Roster
