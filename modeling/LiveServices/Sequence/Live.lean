import LiveServices.CollectionKind
import LiveServices.Failure
import LiveServices.Sequence.Search

/-!
# Sequences that change while they are read

A live sequence holds items and any number of cursors. A cursor stands before an index; reading
moves it one item on. A change of the items moves the cursors along: an insertion below a cursor
and a removal below it shift it, so a cursor never returns an item twice and never skips one that
stays. An insertion exactly at a cursor is still ahead of it.

The mode of a sequence decides where an appended item goes and whether it is taken at all.
-/

namespace LiveServices

/-- How a sequence takes items. -/
inductive Mode (α : Type) where
  /-- At the end, always. -/
  | list
  /-- At the end, unless an equal item is there. -/
  | set
  /-- After the items that are not greater, always. -/
  | sortedList (order : α → α → Ordering)
  /-- In order, unless an item of the same rank is there. -/
  | sortedSet (order : α → α → Ordering)

namespace Mode

/-- The mode of a kind, with this order if it is sorted. -/
def ofKind (kind : CollectionKind) (order : α → α → Ordering) : Mode α :=
  match kind with
  | .list => list
  | .set => set
  | .sortedList => sortedList order
  | .sortedSet => sortedSet order

/-- The kind of a mode. -/
def kind : Mode α → CollectionKind
  | list => .list
  | set => .set
  | sortedList _ => .sortedList
  | sortedSet _ => .sortedSet

@[simp] theorem kind_ofKind (k : CollectionKind) (order : α → α → Ordering) :
    (ofKind k order).kind = k := by cases k <;> rfl

/-- The inspection text of a mode. -/
def inspect (m : Mode α) : String := "StorageMode::" ++ m.kind.name

/-- Where an item goes among these items; absent if it is refused. -/
def place? [BEq α] (m : Mode α) (items : List α) (item : α) : Option Nat :=
  match m with
  | list => some items.length
  | set => if items.any (· == item) then none else some items.length
  | sortedList order =>
    some (Sequence.partitionPoint (fun existing => order existing item != .gt) items)
  | sortedSet order =>
    match Sequence.search (fun existing => order existing item) items with
    | .taken _ => none
    | .free index => some index

end Mode

/-- A cursor: its name and the number of items before it. -/
structure Cursor where
  id : Nat
  position : Nat
  deriving DecidableEq

namespace Cursor

/-- The cursor after an item was inserted at an index. -/
def afterInsert (index : Nat) (c : Cursor) : Cursor :=
  if index < c.position then { c with position := c.position + 1 } else c

/-- The cursor after the item at an index was removed. -/
def afterRemove (index : Nat) (c : Cursor) : Cursor :=
  if index < c.position then { c with position := c.position - 1 } else c

/-- The cursor at the start. -/
def rewound (c : Cursor) : Cursor := { c with position := 0 }

/-- The cursor after it returned an item. -/
def advanced (c : Cursor) : Cursor := { c with position := c.position + 1 }

end Cursor

/-- Items, the cursors that are open, and how many were ever opened. -/
structure LiveSequence (α : Type) where
  items : List α
  cursors : List Cursor
  opened : Nat

namespace LiveSequence

variable {α : Type}

/-- The sequence without items and cursors. -/
def empty : LiveSequence α := ⟨[], [], 0⟩

/-! ## Changes -/

/-- Insert an item before an index. -/
def insertAt (s : LiveSequence α) (index : Nat) (item : α) : LiveSequence α :=
  { s with
    items := s.items.take index ++ item :: s.items.drop index
    cursors := s.cursors.map (·.afterInsert index) }

/-- Remove the item at an index that is in range. -/
def eraseAt (s : LiveSequence α) (index : Nat) : LiveSequence α :=
  { s with items := s.items.eraseIdx index, cursors := s.cursors.map (·.afterRemove index) }

/-- Add an item in the way of a mode; says whether it was taken. -/
def append [BEq α] (m : Mode α) (s : LiveSequence α) (item : α) : Bool × LiveSequence α :=
  match m.place? s.items item with
  | some index => (true, s.insertAt index item)
  | none => (false, s)

/-- Remove the first item that equals this one; says whether there was one. -/
def removeOne [BEq α] (s : LiveSequence α) (item : α) : Bool × LiveSequence α :=
  match s.items.findIdx? (· == item) with
  | some index => (true, s.eraseAt index)
  | none => (false, s)

/-- Remove the item at an index and return it. -/
def removeAt (s : LiveSequence α) (index : Nat) : Option α × LiveSequence α :=
  match s.items[index]? with
  | some item => (some item, s.eraseAt index)
  | none => (none, s)

/-- Remove all items and return every cursor to the start. -/
def clear (s : LiveSequence α) : LiveSequence α :=
  { s with items := [], cursors := s.cursors.map Cursor.rewound }

/-! ## Cursors -/

/-- Open a cursor at the start. -/
def openCursor (s : LiveSequence α) : Nat × LiveSequence α :=
  (s.opened, { s with cursors := s.cursors ++ [⟨s.opened, 0⟩], opened := s.opened + 1 })

/-- Close a cursor. -/
def closeCursor (s : LiveSequence α) (id : Nat) : LiveSequence α :=
  { s with cursors := s.cursors.filter (·.id != id) }

/-- The position of an open cursor. -/
def position? (s : LiveSequence α) (id : Nat) : Option Nat :=
  (s.cursors.find? (·.id == id)).map (·.position)

/-- Whether a cursor stands before an item. -/
def hasNext (s : LiveSequence α) (id : Nat) : Bool :=
  match s.position? id with
  | some position => position < s.items.length
  | none => false

/-- The item that a cursor stands before, with the cursor moved past it. -/
def next (s : LiveSequence α) (id : Nat) : Option α × LiveSequence α :=
  match (s.position? id).bind (s.items[·]?) with
  | some item =>
    (some item, { s with cursors := s.cursors.map fun c => if c.id == id then c.advanced else c })
  | none => (none, s)

/-- The items that a cursor still stands before, with the cursor moved past them all. -/
def drain (s : LiveSequence α) (id : Nat) : List α × LiveSequence α :=
  go s.items.length s
where
  /-- Read at most this many items. -/
  go : Nat → LiveSequence α → List α × LiveSequence α
    | 0, s => ([], s)
    | n + 1, s =>
      match s.next id with
      | (some item, s) => let (items, s) := go n s; (item :: items, s)
      | (none, s) => ([], s)

/-! ## Reads -/

/-- Whether an item equals this one. -/
def contains [BEq α] (s : LiveSequence α) (item : α) : Bool := s.items.any (· == item)

/-- Whether for each of these some item equals it. -/
def containsAll [BEq α] (s : LiveSequence α) (items : List α) : Bool := items.all s.contains

/-- The items after the buffer was cleared for them, and their number. -/
def copyInto (s : LiveSequence α) (_buffer : List α) : Nat × List α := (s.items.length, s.items)

/-- The failure of removing an item through a cursor: the items are read-only to cursors. -/
def removeThroughCursor : Failure := .unsupportedOperation "iterator.remove"

/-! ## What the changes do to the items -/

@[simp] theorem items_insertAt (s : LiveSequence α) (index : Nat) (item : α) :
    (s.insertAt index item).items = s.items.take index ++ item :: s.items.drop index := rfl

@[simp] theorem items_eraseAt (s : LiveSequence α) (index : Nat) :
    (s.eraseAt index).items = s.items.eraseIdx index := rfl

@[simp] theorem items_closeCursor (s : LiveSequence α) (id : Nat) :
    (s.closeCursor id).items = s.items := rfl

/-- Reading moves cursors only. -/
@[simp] theorem items_next (s : LiveSequence α) (id : Nat) : (s.next id).2.items = s.items := by
  unfold next
  split
  · rfl
  · rfl

@[simp] theorem items_drain (s : LiveSequence α) (id : Nat) : (s.drain id).2.items = s.items :=
  items_drain_go s.items.length s
where
  items_drain_go (n : Nat) (s : LiveSequence α) : (drain.go id n s).2.items = s.items := by
    induction n generalizing s with
    | zero => rfl
    | succ n ih =>
      unfold drain.go
      split
      · next item t ht =>
        rw [ih t, ← items_next s id, ht]
      · next t ht =>
        rw [← items_next s id, ht]

/-- A refused item changes nothing. -/
theorem append_of_refused [BEq α] {m : Mode α} {s : LiveSequence α} {item : α}
    (h : (s.append m item).1 = false) : (s.append m item).2 = s := by
  unfold append at h ⊢
  split
  · next hp => simp [hp] at h
  · rfl

end LiveSequence

end LiveServices
