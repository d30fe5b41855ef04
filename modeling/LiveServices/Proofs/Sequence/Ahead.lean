import LiveServices.Proofs.Sequence.Traversal

/-!
# What lies ahead of a cursor

The items that a cursor stands before are those that it would return if nothing changed any more
(`LiveSequence.ahead`). A step returns the first of them and a drain returns them all, and what was
returned is not ahead any more (`ahead_next`, `ahead_drain`). No change of the sequence brings an
item ahead of a cursor but the insertion of just this item (`mem_ahead_append`), and what is done
through one cursor brings nothing ahead of another one.
-/

namespace LiveServices.LiveSequence

variable {α : Type} {s : LiveSequence α} {item x : α} {c d index : Nat}

/-- The items that a cursor stands before; none if it is closed. -/
def ahead (s : LiveSequence α) (c : Nat) : List α :=
  match s.cursors.find? (·.id == c) with
  | some k => s.items.drop k.position
  | none => []

/-- What is ahead of a cursor is in the sequence, in its order. -/
theorem ahead_sublist (s : LiveSequence α) (c : Nat) : (s.ahead c).Sublist s.items := by
  unfold ahead
  split
  · exact List.drop_sublist _ _
  · exact List.nil_sublist _

/-- What is ahead of a cursor when the cursors were moved and each kept its name. -/
theorem ahead_moved {t : LiveSequence α} {f : Cursor → Cursor}
    (ht : t.cursors = s.cursors.map f) (hf : ∀ d, (f d).id = d.id) :
    t.ahead c = match s.cursors.find? (·.id == c) with
      | some k => t.items.drop (f k).position
      | none => [] := by
  have hname : (fun d : Cursor => d.id == c) ∘ f = fun d => d.id == c := by
    funext d
    exact congrArg (· == c) (hf d)
  rw [ahead, ht, List.find?_map, hname]
  cases s.cursors.find? (·.id == c) with
  | none => rfl
  | some k => rfl

/-! ## Reads -/

/-- The first item that is ahead is the next one. -/
theorem next_fst (s : LiveSequence α) (c : Nat) : (s.next c).1 = (s.ahead c).head? := by
  unfold next ahead position?
  cases s.cursors.find? (·.id == c) with
  | none => rfl
  | some k =>
    rw [List.head?_drop]
    cases hitem : s.items[k.position]? with
    | none => simp [hitem]
    | some item => simp [hitem]

/-- A step leaves what is ahead of a cursor; of the cursor itself it takes the first item away. -/
theorem ahead_after_next (s : LiveSequence α) (c d : Nat) :
    (s.next c).2.ahead d = if d = c then (s.ahead c).tail else s.ahead d := by
  have hfirst := next_fst s c
  cases hitem : (s.position? c).bind (s.items[·]?) with
  | none =>
    have hstay : s.next c = (none, s) := by rw [next, hitem]
    -- a cursor that has no next item has nothing ahead
    rw [hstay] at hfirst ⊢
    split
    · next hd => rw [hd, List.head?_eq_none_iff.1 hfirst.symm, List.tail_nil]
    · rfl
  | some item =>
    have hmoved : (s.next c).2 =
        { s with cursors := s.cursors.map fun k => if k.id == c then k.advanced else k } := by
      rw [next, hitem]
    have hname (k : Cursor) : (if k.id == c then k.advanced else k).id = k.id := by
      split <;> rfl
    rw [hmoved, ahead_moved (s := s) rfl hname]
    by_cases hd : d = c
    · subst hd
      rw [if_pos rfl, ahead]
      cases hk : s.cursors.find? (·.id == d) with
      | none => rfl
      | some k =>
        have hkd := List.find?_some hk
        simp [hkd, Cursor.advanced]
    · rw [if_neg hd, ahead]
      cases hk : s.cursors.find? (·.id == d) with
      | none => rfl
      | some k =>
        have hkd : k.id = d := by simpa using List.find?_some hk
        simp [hkd, hd]

/-- What a step returned was ahead and is not any more. -/
theorem ahead_next (s : LiveSequence α) (c : Nat) :
    s.ahead c = (s.next c).1.toList ++ (s.next c).2.ahead c := by
  rw [ahead_after_next, if_pos rfl, next_fst]
  cases s.ahead c with
  | nil => rfl
  | cons item rest => rfl

/-- A step brings nothing ahead of any cursor. -/
theorem ahead_next_subset (s : LiveSequence α) (c d : Nat) :
    (s.next c).2.ahead d ⊆ s.ahead d := by
  rw [ahead_after_next]
  split
  · next hd => exact hd ▸ (List.tail_sublist _).subset
  · exact fun _ hx => hx

/-- What a drain returned was ahead and is not any more. -/
theorem ahead_drain (s : LiveSequence α) (c : Nat) :
    s.ahead c = (s.drain c).1 ++ (s.drain c).2.ahead c :=
  ahead_drain_go s.items.length s
where
  ahead_drain_go (n : Nat) (s : LiveSequence α) :
      s.ahead c = (drain.go c n s).1 ++ (drain.go c n s).2.ahead c := by
    induction n generalizing s with
    | zero => rfl
    | succ n ih =>
      have hnext := ahead_next s c
      unfold drain.go
      split
      · next item t ht =>
        rw [ht] at hnext
        rw [hnext, ih t]
        rfl
      · next t ht =>
        rw [ht] at hnext
        exact hnext

/-- A drain brings nothing ahead of any cursor. -/
theorem ahead_drain_subset (s : LiveSequence α) (c d : Nat) :
    (s.drain c).2.ahead d ⊆ s.ahead d :=
  ahead_drain_go_subset s.items.length s
where
  ahead_drain_go_subset (n : Nat) (s : LiveSequence α) :
      (drain.go c n s).2.ahead d ⊆ s.ahead d := by
    induction n generalizing s with
    | zero => exact fun _ hx => hx
    | succ n ih =>
      have hnext := ahead_next_subset s c d
      unfold drain.go
      split
      · next item t ht =>
        rw [ht] at hnext
        exact fun _ hx => hnext (ih t hx)
      · next t ht =>
        rw [ht] at hnext
        exact hnext

/-! ## Changes -/

/-- An insertion brings only its own item ahead of a cursor. -/
theorem mem_ahead_insertAt (hx : x ∈ (s.insertAt index item).ahead c) :
    x ∈ s.ahead c ∨ x = item := by
  rw [ahead_moved (s := s) (f := (·.afterInsert index)) rfl (Cursor.id_afterInsert index)] at hx
  rw [ahead]
  cases hk : s.cursors.find? (·.id == c) with
  | none =>
    rw [hk] at hx
    cases hx
  | some k =>
    rw [hk] at hx
    change x ∈ (s.items.take index ++ item :: s.items.drop index).drop
      (k.afterInsert index).position at hx
    show x ∈ s.items.drop k.position ∨ _
    rw [Cursor.position_afterInsert, List.drop_append, List.mem_append] at hx
    split at hx
    · -- below the cursor: it moved along with the items that it stands before
      next hlt =>
      rcases hx with hx | hx
      · rw [List.drop_eq_nil_of_le (by rw [List.length_take]; omega)] at hx
        cases hx
      · have hsplit : k.position + 1 - (s.items.take index).length =
            k.position - (s.items.take index).length + 1 := by
          rw [List.length_take]
          omega
        rw [hsplit, List.drop_succ_cons, List.drop_drop] at hx
        refine .inl (List.drop_subset_drop_left _ ?_ hx)
        rw [List.length_take]
        omega
    · next hge =>
      rcases hx with hx | hx
      · rw [List.drop_take] at hx
        exact .inl (List.mem_of_mem_take hx)
      · rcases List.mem_cons.1 (List.mem_of_mem_drop hx) with rfl | hx
        · exact .inr rfl
        · exact .inl (List.drop_subset_drop_left _ (Nat.le_of_not_lt hge) hx)

/-- A removal brings nothing ahead of a cursor. -/
theorem ahead_eraseAt_subset (s : LiveSequence α) (index c : Nat) :
    (s.eraseAt index).ahead c ⊆ s.ahead c := by
  intro x hx
  rw [ahead_moved (s := s) (f := (·.afterRemove index)) rfl (Cursor.id_afterRemove index)] at hx
  rw [ahead]
  cases hk : s.cursors.find? (·.id == c) with
  | none =>
    rw [hk] at hx
    cases hx
  | some k =>
    rw [hk] at hx
    change x ∈ (s.items.eraseIdx index).drop (k.afterRemove index).position at hx
    show x ∈ s.items.drop k.position
    rw [Cursor.position_afterRemove, List.eraseIdx_eq_take_drop_succ, List.drop_append,
      List.mem_append] at hx
    split at hx
    · next hlt =>
      rcases hx with hx | hx
      · rw [List.drop_eq_nil_of_le (by rw [List.length_take]; omega)] at hx
        cases hx
      · rw [List.drop_drop] at hx
        refine List.drop_subset_drop_left _ ?_ hx
        rw [List.length_take]
        omega
    · next hge =>
      rcases hx with hx | hx
      · rw [List.drop_take] at hx
        exact List.mem_of_mem_take hx
      · exact List.drop_subset_drop_left _ (by omega) (List.mem_of_mem_drop hx)

/-- What is appended brings only itself ahead of a cursor. -/
theorem mem_ahead_append [BEq α] {m : Mode α} (hx : x ∈ (s.append m item).2.ahead c) :
    x ∈ s.ahead c ∨ x = item := by
  unfold append at hx
  split at hx
  · exact mem_ahead_insertAt hx
  · exact .inl hx

theorem ahead_removeOne_subset [BEq α] (s : LiveSequence α) (item : α) (c : Nat) :
    (s.removeOne item).2.ahead c ⊆ s.ahead c := by
  unfold removeOne
  split
  · exact ahead_eraseAt_subset s _ c
  · exact fun _ hx => hx

/-! ## Cursors that open and close -/

/-- A cursor that closes brings nothing ahead of any cursor. -/
theorem ahead_closeCursor_subset (s : LiveSequence α) (c d : Nat) :
    (s.closeCursor c).ahead d ⊆ s.ahead d := by
  intro x hx
  rw [ahead, closeCursor, List.find?_filter] at hx
  rw [ahead]
  by_cases hd : d = c
  · -- the cursor itself is not found any more
    have hnone : s.cursors.find? (fun k => decide ((k.id != c) = true ∧ (k.id == d) = true)) =
        none := by
      rw [List.find?_eq_none]
      intro k _
      simp [hd]
    rw [hnone] at hx
    cases hx
  · have hsame : (fun k : Cursor => decide ((k.id != c) = true ∧ (k.id == d) = true)) =
        fun k => k.id == d := by
      funext k
      by_cases hk : k.id = d
      · simp [hk, hd]
      · simp [hk]
    rwa [hsame] at hx

/-- A cursor that opens brings nothing ahead of those that were opened before. -/
theorem ahead_openCursor (hd : d < s.opened) : s.openCursor.2.ahead d = s.ahead d := by
  have hother : (s.opened == d) = false := by simp [Nat.ne_of_gt hd]
  rw [ahead, openCursor, List.find?_append, List.find?_singleton, hother, ahead]
  simp

@[simp] theorem opened_append [BEq α] (m : Mode α) (s : LiveSequence α) (item : α) :
    (s.append m item).2.opened = s.opened := by
  unfold append
  split <;> rfl

@[simp] theorem opened_removeOne [BEq α] (s : LiveSequence α) (item : α) :
    (s.removeOne item).2.opened = s.opened := by
  unfold removeOne
  split <;> rfl

@[simp] theorem opened_next (s : LiveSequence α) (c : Nat) : (s.next c).2.opened = s.opened := by
  unfold next
  split <;> rfl

@[simp] theorem opened_drain (s : LiveSequence α) (c : Nat) : (s.drain c).2.opened = s.opened :=
  opened_drain_go s.items.length s
where
  opened_drain_go (n : Nat) (s : LiveSequence α) : (drain.go c n s).2.opened = s.opened := by
    induction n generalizing s with
    | zero => rfl
    | succ n ih =>
      have hnext := opened_next s c
      unfold drain.go
      split
      · next item t ht =>
        rw [ht] at hnext
        exact (ih t).trans hnext
      · next t ht =>
        rw [ht] at hnext
        exact hnext

end LiveServices.LiveSequence
