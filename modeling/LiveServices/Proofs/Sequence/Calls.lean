import LiveServices.Sequence.Live

/-!
# Calls on a live sequence

The calls that a live sequence answers, as data, with what each returns. A sequence looks at its
items only through their equality and the order of its mode, so a renaming of the items that
keeps both (`Mode.comap`) changes no answer (`LiveSequence.answer_map`).
-/

namespace LiveServices

variable {α β : Type}

/-- The mode that looks at items through a function. -/
def Mode.comap (f : α → β) : Mode β → Mode α
  | list => list
  | set => set
  | sortedList order => sortedList fun a b => order (f a) (f b)
  | sortedSet order => sortedSet fun a b => order (f a) (f b)

/-- The search sees the items only through the side they are on. -/
theorem Sequence.search_map (f : α → β) (side : β → Ordering) (items : List α) :
    search side (items.map f) = search (fun x => side (f x)) items := by
  unfold search
  simp only [List.length_map, List.getElem?_map, Option.map_map, Function.comp_def]

/-- A partition point is found by the images of the items. -/
theorem Sequence.partitionPoint_map (f : α → β) (test : β → Bool) (items : List α) :
    partitionPoint test (items.map f) = partitionPoint (fun x => test (f x)) items := by
  unfold partitionPoint
  rw [search_map]

section Relabelling

variable [BEq α] [BEq β] {f : α → β}

/-- Where an item goes depends on its image alone. -/
theorem Mode.place?_comap (hf : ∀ a b : α, (a == b) = (f a == f b)) (m : Mode β)
    (items : List α) (item : α) :
    (m.comap f).place? items item = m.place? (items.map f) (f item) := by
  cases m with
  | list => simp [comap, place?]
  | set => simp [comap, place?, List.any_map, Function.comp_def, hf]
  | sortedList order => simp only [comap, place?, Sequence.partitionPoint_map]
  | sortedSet order => simp only [comap, place?, Sequence.search_map]

end Relabelling

namespace LiveSequence

/-- A call on a live sequence. -/
inductive Call (α : Type) where
  | append (item : α)
  | removeOne (item : α)
  | removeAt (index : Nat)
  | clear
  | openCursor
  | closeCursor (id : Nat)
  | next (id : Nat)

/-- What a call returns. -/
inductive Reply (α : Type) where
  | done
  /-- Whether the items changed. -/
  | changed (b : Bool)
  | gave (item : Option α)
  /-- The cursor that is now open. -/
  | opened (id : Nat)

def Call.map (f : α → β) : Call α → Call β
  | append item => append (f item)
  | removeOne item => removeOne (f item)
  | removeAt index => removeAt index
  | clear => clear
  | openCursor => openCursor
  | closeCursor id => closeCursor id
  | next id => next id

def Reply.map (f : α → β) : Reply α → Reply β
  | done => done
  | changed b => changed b
  | gave item => gave (item.map f)
  | opened id => opened id

/-- The sequence with every item renamed. -/
def map (f : α → β) (s : LiveSequence α) : LiveSequence β :=
  { items := s.items.map f, cursors := s.cursors, opened := s.opened }

@[simp] theorem items_map (f : α → β) (s : LiveSequence α) : (s.map f).items = s.items.map f := rfl

/-- The answer to a call, and the sequence after it. -/
def answer [BEq α] (m : Mode α) (s : LiveSequence α) : Call α → Reply α × LiveSequence α
  | .append item => let (taken, s') := s.append m item; (.changed taken, s')
  | .removeOne item => let (found, s') := s.removeOne item; (.changed found, s')
  | .removeAt index => let (item, s') := s.removeAt index; (.gave item, s')
  | .clear => (.done, s.clear)
  | .openCursor => let (id, s') := s.openCursor; (.opened id, s')
  | .closeCursor id => (.done, s.closeCursor id)
  | .next id => let (item, s') := s.next id; (.gave item, s')

/-- The answers to calls made one after the other. -/
def answerAll [BEq α] (m : Mode α) (s : LiveSequence α) :
    List (Call α) → List (Reply α) × LiveSequence α
  | [] => ([], s)
  | call :: calls =>
    let (reply, s') := s.answer m call
    let (replies, s'') := s'.answerAll m calls
    (reply :: replies, s'')

/-- An item is inserted at the same place of the images. -/
theorem map_insertAt (f : α → β) (s : LiveSequence α) (index : Nat) (item : α) :
    (s.insertAt index item).map f = (s.map f).insertAt index (f item) := by
  simp [map, insertAt, List.map_append, List.map_take, List.map_drop]

/-- An item is erased at the same place of the images. -/
theorem map_eraseAt (f : α → β) (s : LiveSequence α) (index : Nat) :
    (s.eraseAt index).map f = (s.map f).eraseAt index := by
  simp [map, eraseAt, List.eraseIdx_eq_take_drop_succ]

section Relabelling

variable [BEq α] [BEq β] {f : α → β}

/-- A renaming that keeps equality and order goes through a call. -/
theorem answer_map (hf : ∀ a b : α, (a == b) = (f a == f b)) (m : Mode β)
    (s : LiveSequence α) (call : Call α) :
    (s.map f).answer m (call.map f) =
      ((s.answer (m.comap f) call).1.map f, (s.answer (m.comap f) call).2.map f) := by
  cases call with
  | append item =>
    simp only [Call.map, answer, append, Mode.place?_comap hf, items_map]
    cases m.place? (s.items.map f) (f item) with
    | none => rfl
    | some index => simp [Reply.map, map_insertAt]
  | removeOne item =>
    have hidx : (s.items.map f).findIdx? (· == f item) = s.items.findIdx? (· == item) := by
      simp [List.findIdx?_map, Function.comp_def, hf]
    simp only [Call.map, answer, removeOne, items_map, hidx]
    cases s.items.findIdx? (· == item) with
    | none => rfl
    | some index => simp [Reply.map, map_eraseAt]
  | removeAt index =>
    simp only [Call.map, answer, removeAt, items_map,
      List.getElem?_map]
    cases s.items[index]? with
    | none => rfl
    | some item => simp [Reply.map, map_eraseAt]
  | clear => rfl
  | openCursor => rfl
  | closeCursor id => rfl
  | next id =>
    have hat : ((s.map f).position? id).bind ((s.map f).items[·]?) =
        ((s.position? id).bind (s.items[·]?)).map f := by
      show (s.position? id).bind _ = _
      cases s.position? id with
      | none => rfl
      | some position => simp [map]
    simp only [Call.map, answer, next, hat]
    cases (s.position? id).bind (s.items[·]?) with
    | none => rfl
    | some item => rfl

end Relabelling

end LiveSequence

end LiveServices
