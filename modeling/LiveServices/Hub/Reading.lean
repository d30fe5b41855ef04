import LiveServices.Hub.Lifecycle

/-!
# Reading a collection

Questions take the locks they need and change nothing. Iterators stand in the storage of a
collection, follow its changes, and go on when the collection is dropped; a step of one asks first
whether the collection has what it needs. An entry may be kept under a name and looked at later,
when it is perhaps no longer valid.
-/

namespace LiveServices.Run

variable {E : Type} [ServiceEntry E]

/-- Ask a collection. -/
def ask (c : Nat) (question : Question E) : Run E Answer := do
  question.locks.forM fun lock => locked c lock (pure ())
  let h ← get
  pure ((h.collection c).answer h.released question)

/-! ## Iterators -/

/-- The iterator of a name. -/
def traversal? (name : String) : Run E (Option Traversal) := do
  pure ((← get).traversals.lookup name)

/-- Forget the iterator of a name; says whether there was one. -/
def dropIter (name : String) : Run E Bool := do
  match ← traversal? name with
  | none => pure false
  | some t =>
    update t.collection fun k => { k with storage := k.storage.closeCursor t.cursor }
    modify fun h => { h with traversals := h.traversals.filter fun entry => entry.1 != name }
    pure true

/-- Open an iterator under a name, in place of the one that has it. -/
def iter (c : Nat) (name : String) : Run E Answer := do
  match ← available c with
  | .error f => pure (.failed f)
  | .ok () =>
    let _ ← dropIter name
    let (cursor, storage) := (← collection c).storage.openCursor
    update c fun k => { k with storage := storage }
    modify fun h => { h with traversals := (name, ⟨c, cursor⟩) :: h.traversals }
    pure .done

/-- The entry at which an iterator stands, with the iterator moved past it. -/
def step (t : Traversal) : Run E (Except Failure (Option E)) := do
  match ← available t.collection with
  | .error f => pure (.error f)
  | .ok () =>
    let (entry, storage) := (← collection t.collection).storage.next t.cursor
    update t.collection fun k => { k with storage := storage }
    pure (.ok entry)

/-- The entries that are left for an iterator, with the iterator moved past them. -/
def drain (t : Traversal) : Run E (List E) := do
  match ← available t.collection with
  | .error _ => pure []
  | .ok () =>
    let (entries, storage) := (← collection t.collection).storage.drain t.cursor
    update t.collection fun k => { k with storage := storage }
    pure entries

/-- Whether entries are left for an iterator. -/
def hasNext (t : Traversal) : Run E (Except Failure Bool) := do
  match ← available t.collection with
  | .error f => pure (.error f)
  | .ok () => pure (.ok ((← collection t.collection).storage.hasNext t.cursor))

/-- An answer from the iterator of a name. -/
def withTraversal (name : String) (f : Traversal → Run E Answer) : Run E Answer := do
  match ← traversal? name with
  | some t => f t
  | none => pure .noIterator

/-- The view of an entry now. -/
def view (entry : Option E) : Run E Answer := do
  let released := (← get).released
  pure (.entry (entry.map (ServiceEntry.view released)))

/-! ## Kept entries -/

/-- Keep the entry at an index under a name, if there is one. -/
def hold (c index : Nat) (name : String) : Run E Answer := do
  match ← available c with
  | .error f => pure (.failed f)
  | .ok () =>
    let entry := (← collection c).storage.items[index]?
    if let some e := entry then
      modify fun h => { h with kept := (name, e) :: h.kept }
    view entry

/-- Look at the entry that is kept under a name. -/
def probe (name : String) : Run E Answer := do
  let h ← get
  match h.kept.lookup name with
  | none => pure .noEntry
  | some e =>
    pure (.probe ((ServiceEntry.serial? e).map fun _ =>
      (ServiceEntry.isValid h.released e,
        (ServiceEntry.invoke h.released e).map ServiceReference.display,
        ServiceEntry.text h.released e)))

end LiveServices.Run
