import LiveServices.Collection
import LiveServices.Proofs.Sequence.Places
import Mathlib.Data.List.Forall2

/-!
# Entries that are alike

A factory that is asked for a service twice may make two entries, each with a life of its own, as
the factory of proxies does. To a collection they are alike: they stand for the same service, equal
the same entries, and have the same rank (`Interchangeable`, `Mode.Overlooks`). So two collections
with entries that are alike one by one (`Collection.Resembles`) are changed in the same way by what
is done to both: an entry goes to the same place or is refused by both, the same entry is removed,
and all cursors are moved alike. In collections of configured importers, be it of references or of
proxies, entries are alike that stand for the same service (`Mode.Overlooks.ofKind`,
`Factory.repeats_ofProxies`).
-/

namespace LiveServices

variable {E α β : Type} {like : α → α → Prop}

/-- What is asked of items that are alike one by one is answered in the same way. -/
theorem map_eq_of_forall₂ {items items' : List α} {f f' : α → β}
    (hs : List.Forall₂ like items items') (hf : ∀ a a', like a a' → f' a' = f a) :
    items'.map f' = items.map f := by
  have hanswers : List.Forall₂ Eq (items.map f) (items'.map f') :=
    List.rel_map (fun a a' ha => (hf a a' ha).symm) hs
  rw [List.forall₂_eq_eq_eq] at hanswers
  exact hanswers.symm

/-- At each index there are two items that are alike, or none. -/
theorem getElem?_of_forall₂ {items items' : List α} (hs : List.Forall₂ like items items')
    (i : Nat) : Option.Rel like items[i]? items'[i]? := by
  induction hs generalizing i with
  | nil => exact .none
  | cons ha _ ih =>
    cases i with
    | zero => exact .some ha
    | succ i => exact ih i

/-! ## Places -/

/-- A relation between entries that neither their references nor equality tell apart. -/
structure Interchangeable [ServiceEntry E] (like : E → E → Prop) : Prop where
  refl : ∀ a, like a a
  reference : ∀ {a a'}, like a a' → ServiceEntry.reference a' = ServiceEntry.reference a
  beq : ∀ {a a' b b'}, like a a' → like b b' → (a' == b') = (a == b)

/-- An entry is interchangeable with itself. -/
theorem Interchangeable.eq [ServiceEntry E] : Interchangeable (E := E) Eq where
  refl _ := rfl
  reference := by
    rintro _ _ rfl
    rfl
  beq := by
    rintro _ _ _ _ rfl rfl
    rfl

namespace Mode

/-- A mode that gives entries that are alike the same rank. -/
def Overlooks (like : α → α → Prop) : Mode α → Prop
  | list | set => True
  | sortedList order | sortedSet order =>
    ∀ a a' b b', like a a' → like b b' → order a' b' = order a b

/-- No mode tells an item from itself. -/
theorem Overlooks.eq (m : Mode α) : m.Overlooks Eq := by
  cases m with
  | list | set => trivial
  | sortedList order | sortedSet order =>
    rintro _ _ _ _ rfl rfl
    rfl

/-- An order of references does not tell entries apart that are alike. -/
theorem Overlooks.ofKind [ServiceEntry E] {like : E → E → Prop} (hl : Interchangeable like)
    (kind : CollectionKind) (order : ServiceReference → ServiceReference → Ordering) :
    (Mode.ofKind kind fun a b : E =>
      order (ServiceEntry.reference a) (ServiceEntry.reference b)).Overlooks like := by
  cases kind with
  | list | set => trivial
  | sortedList | sortedSet =>
    intro a a' b b' ha hb
    simp only [hl.reference ha, hl.reference hb]

/-- An entry goes to the same place among items that are alike. -/
theorem Overlooks.place?_eq [ServiceEntry E] {like : E → E → Prop} {m : Mode E}
    (hm : m.Overlooks like) (hl : Interchangeable like) {items items' : List E}
    (hs : List.Forall₂ like items items') {a a' : E} (ha : like a a') :
    m.place? items' a' = m.place? items a := by
  cases m with
  | list => rw [place?, place?, hs.length_eq]
  | set =>
    have hequal : items'.map (· == a') = items.map (· == a) :=
      map_eq_of_forall₂ hs fun _ _ hx => hl.beq hx ha
    have hany : items'.any (· == a') = items.any (· == a) := by
      simpa [List.any_map] using congrArg (List.any · id) hequal
    rw [place?, place?, hany, hs.length_eq]
  | sortedList order =>
    have hsides : items'.map (fun x => if order x a' != .gt then Ordering.lt else .gt) =
        items.map fun x => if order x a != .gt then .lt else .gt :=
      map_eq_of_forall₂ hs fun x x' hx => by rw [hm x x' a a' hx ha]
    rw [place?, place?, Sequence.partitionPoint, Sequence.search_of_map_eq hsides,
      Sequence.partitionPoint]
  | sortedSet order =>
    have hsides : items'.map (fun x => order x a') = items.map fun x => order x a :=
      map_eq_of_forall₂ hs fun x x' hx => hm x x' a a' hx ha
    rw [place?, place?, Sequence.search_of_map_eq hsides]

end Mode

/-! ## Sequences -/

namespace LiveSequence

variable {s s' : LiveSequence α}

/-- Two sequences with the same cursors and with items that are alike one by one. -/
structure Resembles (like : α → α → Prop) (s s' : LiveSequence α) : Prop where
  items : List.Forall₂ like s.items s'.items
  cursors : s'.cursors = s.cursors
  opened : s'.opened = s.opened

namespace Resembles

theorem refl (hl : ∀ a, like a a) (s : LiveSequence α) : Resembles like s s :=
  ⟨List.forall₂_same.2 fun a _ => hl a, rfl, rfl⟩

/-! ### Changes -/

/-- Items that are alike are put at the same index. -/
theorem insertAt (hs : Resembles like s s') (index : Nat) {a a' : α} (ha : like a a') :
    Resembles like (s.insertAt index a) (s'.insertAt index a') where
  items := List.rel_append (List.forall₂_take index hs.items)
    (.cons ha (List.forall₂_drop index hs.items))
  cursors := congrArg (List.map (Cursor.afterInsert index)) hs.cursors
  opened := hs.opened

/-- At the same index both lose an item. -/
theorem eraseAt (hs : Resembles like s s') (index : Nat) :
    Resembles like (s.eraseAt index) (s'.eraseAt index) where
  items := by
    rw [items_eraseAt, items_eraseAt, List.eraseIdx_eq_take_drop_succ,
      List.eraseIdx_eq_take_drop_succ]
    exact List.rel_append (List.forall₂_take _ hs.items) (List.forall₂_drop _ hs.items)
  cursors := congrArg (List.map (Cursor.afterRemove index)) hs.cursors
  opened := hs.opened

section Entries

variable [ServiceEntry E] {like : E → E → Prop} {s s' : LiveSequence E} {a a' : E}

/-- Both sequences take an entry, or both refuse it. -/
theorem append (hs : Resembles like s s') (hl : Interchangeable like) {m : Mode E}
    (hm : m.Overlooks like) (ha : like a a') :
    (s'.append m a').1 = (s.append m a).1 ∧
      Resembles like (s.append m a).2 (s'.append m a').2 := by
  unfold LiveSequence.append
  rw [hm.place?_eq hl hs.items ha]
  cases m.place? s.items a with
  | none => exact ⟨rfl, hs⟩
  | some index => exact ⟨rfl, hs.insertAt index ha⟩

/-- Both sequences give an entry back, or neither has one. -/
theorem removeOne (hs : Resembles like s s') (hl : Interchangeable like) (ha : like a a') :
    (s'.removeOne a').1 = (s.removeOne a).1 ∧
      Resembles like (s.removeOne a).2 (s'.removeOne a').2 := by
  have hequal : s'.items.map (· == a') = s.items.map (· == a) :=
    map_eq_of_forall₂ hs.items fun _ _ hx => hl.beq hx ha
  have hfind : s'.items.findIdx? (· == a') = s.items.findIdx? (· == a) := by
    simpa [List.findIdx?_map] using congrArg (List.findIdx? id) hequal
  unfold LiveSequence.removeOne
  rw [hfind]
  cases s.items.findIdx? (· == a) with
  | none => exact ⟨rfl, hs⟩
  | some index => exact ⟨rfl, hs.eraseAt index⟩

end Entries

/-! ### Cursors -/

/-- Cursors are numbered and placed without a look at the items. -/
theorem openCursor (hs : Resembles like s s') :
    s'.openCursor.1 = s.openCursor.1 ∧ Resembles like s.openCursor.2 s'.openCursor.2 := by
  refine ⟨hs.opened, hs.items, ?_, congrArg (· + 1) hs.opened⟩
  show s'.cursors ++ [⟨s'.opened, 0⟩] = s.cursors ++ [⟨s.opened, 0⟩]
  rw [hs.cursors, hs.opened]

theorem closeCursor (hs : Resembles like s s') (id : Nat) :
    Resembles like (s.closeCursor id) (s'.closeCursor id) :=
  ⟨hs.items, congrArg (List.filter fun c : Cursor => c.id != id) hs.cursors, hs.opened⟩

theorem position? (hs : Resembles like s s') (id : Nat) : s'.position? id = s.position? id := by
  rw [LiveSequence.position?, hs.cursors, LiveSequence.position?]

theorem hasNext (hs : Resembles like s s') (id : Nat) : s'.hasNext id = s.hasNext id := by
  rw [LiveSequence.hasNext, hs.position?, ← hs.items.length_eq, LiveSequence.hasNext]

/-- A cursor stands before items that are alike, and goes on after both or after neither. -/
theorem next (hs : Resembles like s s') (id : Nat) :
    Option.Rel like (s.next id).1 (s'.next id).1 ∧
      Resembles like (s.next id).2 (s'.next id).2 := by
  have hitem : Option.Rel like ((s.position? id).bind (s.items[·]?))
      ((s'.position? id).bind (s'.items[·]?)) := by
    rw [hs.position?]
    cases s.position? id with
    | none => exact .none
    | some position => exact getElem?_of_forall₂ hs.items position
  unfold LiveSequence.next
  generalize (s.position? id).bind (s.items[·]?) = item at hitem
  generalize (s'.position? id).bind (s'.items[·]?) = item' at hitem
  cases hitem with
  | none => exact ⟨.none, hs⟩
  | some ha => exact ⟨.some ha, hs.items, congrArg (List.map _) hs.cursors, hs.opened⟩

/-- What is left is alike item by item, and the cursors move to the end. -/
theorem drain (hs : Resembles like s s') (id : Nat) :
    List.Forall₂ like (s.drain id).1 (s'.drain id).1 ∧
      Resembles like (s.drain id).2 (s'.drain id).2 := by
  unfold LiveSequence.drain
  rw [← hs.items.length_eq]
  generalize s.items.length = n
  induction n generalizing s s' with
  | zero => exact ⟨.nil, hs⟩
  | succ n ih =>
    obtain ⟨hitem, hrest⟩ := hs.next id
    unfold drain.go
    generalize s.next id = step at hitem hrest
    generalize s'.next id = step' at hitem hrest
    obtain ⟨item, s⟩ := step
    obtain ⟨item', s'⟩ := step'
    cases hitem with
    | none => exact ⟨.nil, hrest⟩
    | some ha =>
      obtain ⟨hitems, hend⟩ := ih hrest
      exact ⟨.cons ha hitems, hend⟩

end Resembles

end LiveSequence

/-! ## Collections -/

/-- Two holdings of the same service whose entries are alike. -/
structure Holding.Resembles (like : E → E → Prop) (x x' : Holding E) : Prop where
  reference : x'.reference = x.reference
  entry : like x.entry x'.entry

theorem Holding.Resembles.id {like : E → E → Prop} {x x' : Holding E} (hx : x.Resembles like x') :
    x'.id = x.id := congrArg ServiceReference.id hx.reference

namespace Roster

variable {like : E → E → Prop} {index index' : List (Holding E)}

/-- The index is searched by identities, which are the same. -/
theorem find?_resembles (hs : List.Forall₂ (Holding.Resembles like) index index') (id : UInt64) :
    Option.Rel (Holding.Resembles like) (find? Holding.id id index)
      (find? Holding.id id index') := by
  induction hs with
  | nil => exact .none
  | @cons x x' _ _ hx _ ih =>
    unfold find? at ih ⊢
    rw [List.find?_cons, List.find?_cons, hx.id]
    cases x.id == id with
    | true => exact .some hx
    | false => exact ih

/-- What is put into the index goes to the same place. -/
theorem insert_resembles (hs : List.Forall₂ (Holding.Resembles like) index index')
    {x x' : Holding E} (hx : x.Resembles like x') :
    List.Forall₂ (Holding.Resembles like) (insert Holding.id x index)
      (insert Holding.id x' index') := by
  induction hs with
  | nil => exact .cons hx .nil
  | cons hy hys ih =>
    unfold insert
    rw [hx.id, hy.id]
    split
    · exact .cons hx (.cons hy hys)
    · split
      · exact .cons hx hys
      · exact .cons hy ih

/-- What is taken out of the index is taken from the same place. -/
theorem erase_resembles (hs : List.Forall₂ (Holding.Resembles like) index index') (id : UInt64) :
    List.Forall₂ (Holding.Resembles like) (erase Holding.id id index)
      (erase Holding.id id index') := by
  refine List.rel_filter (fun x x' hx => ?_) hs
  show (x.id != id) = true ↔ (x'.id != id) = true
  rw [hx.id]

end Roster

namespace Collection

/-- Two states of a collection that differ in no more than that their entries are alike, one by
one. -/
structure Resembles (like : E → E → Prop) (k k' : Collection E) : Prop where
  rest : k' = { k with index := k'.index, storage := k'.storage }
  index : List.Forall₂ (Holding.Resembles like) k.index k'.index
  storage : k.storage.Resembles like k'.storage

namespace Resembles

variable {like : E → E → Prop} {k k' : Collection E}

theorem refl (hl : ∀ a, like a a) (k : Collection E) : Resembles like k k :=
  ⟨rfl, List.forall₂_same.2 fun x _ => ⟨rfl, hl x.entry⟩, .refl hl k.storage⟩

/-- The same services are there, for their references are the same. -/
theorem identities (hk : Resembles like k k') : k'.identities = k.identities :=
  map_eq_of_forall₂ hk.index fun _ _ hx => hx.id

theorem hasIdentity (hk : Resembles like k k') (id : UInt64) :
    k'.hasIdentity id = k.hasIdentity id := by
  rw [Collection.hasIdentity, hk.identities, Collection.hasIdentity]

theorem size (hk : Resembles like k k') : k'.size = k.size := hk.storage.items.length_eq.symm

theorem dependency (hk : Resembles like k k') : k'.dependency = k.dependency := by rw [hk.rest]

theorem mode (hk : Resembles like k k') : k'.mode = k.mode := by rw [hk.rest]

theorem factory (hk : Resembles like k k') : k'.factory = k.factory := by rw [hk.rest]

theorem closed (hk : Resembles like k k') : k'.closed = k.closed := by rw [hk.rest]

theorem dropped (hk : Resembles like k k') : k'.dropped = k.dropped := by rw [hk.rest]

theorem locks (hk : Resembles like k k') : k'.locks = k.locks := by rw [hk.rest]

theorem lifecycleListeners (hk : Resembles like k k') :
    k'.lifecycleListeners = k.lifecycleListeners := by rw [hk.rest]

theorem stateListeners (hk : Resembles like k k') : k'.stateListeners = k.stateListeners := by
  rw [hk.rest]

/-- Whether a collection is available depends on how many items it has, not on which. -/
theorem check (hk : Resembles like k k') : k'.check = k.check := by
  rw [Collection.check, hk.dependency, hk.size, Collection.check]

/-- The services and entries of both are changed. -/
theorem withEntries (hk : Resembles like k k') {index index' : List (Holding E)}
    {storage storage' : LiveSequence E}
    (hi : List.Forall₂ (Holding.Resembles like) index index')
    (hs : storage.Resembles like storage') :
    Resembles like { k with index := index, storage := storage }
      { k' with index := index', storage := storage' } := by
  refine ⟨?_, hi, hs⟩
  rw [hk.rest]

/-- The locks of both are changed. -/
theorem withLocks (hk : Resembles like k k') (f : List Lock → List Lock) :
    Resembles like { k with locks := f k.locks } { k' with locks := f k'.locks } := by
  refine ⟨?_, hk.index, hk.storage⟩
  rw [hk.rest]

end Resembles

end Collection

/-! ## What is made and what is told -/

/-- Two attempts that came to the same, with entries that are alike. -/
inductive Creation.Resembles (like : E → E → Prop) : Creation E → Creation E → Prop where
  | made {entry entry' : E} (release release' : Option (Release E)) (he : like entry entry') :
    Resembles like (.made entry release) (.made entry' release')
  | failed (f : Failure) : Resembles like (.failed f) (.failed f)
  | panicked (message : Option String) : Resembles like (.panicked message) (.panicked message)

/-- A factory that does the same whenever it is asked for a service, with entries that are alike. -/
def Factory.Repeats (like : E → E → Prop) (f : Factory E) : Prop :=
  ∀ n m r, (f.create n r).Resembles like (f.create m r)

/-- A factory that is a function of the reference repeats itself. -/
theorem Factory.Repeats.of_eq {f : Factory E} (hf : ∀ n m r, f.create n r = f.create m r) :
    f.Repeats Eq := fun n m r => by
  rw [hf m n]
  cases f.create n r with
  | made entry release => exact .made release release rfl
  | failed failure => exact .failed failure
  | panicked message => exact .panicked message

/-- Two entries that stand for the same service, and of which both are ghosts or neither is. -/
def Entry.Alike (a a' : Entry) : Prop := a'.service = a.service ∧ a'.isGhost = a.isGhost

/-- Entries that stand for the same service cannot be told apart by what reads or compares them. -/
theorem Entry.interchangeable_alike : Interchangeable Entry.Alike where
  refl _ := ⟨rfl, rfl⟩
  reference ha := ha.1
  beq ha hb := by rw [Bool.eq_iff_iff, beq_iff, beq_iff, ha.1, ha.2, hb.1, hb.2]

/-- Two proxies of one service are alike. -/
theorem Factory.repeats_ofProxies (proxies : Bool) : (ofProxies proxies).Repeats Entry.Alike := by
  intro n m r
  cases proxies with
  | false => exact .made _ _ ⟨rfl, rfl⟩
  | true => exact .made _ _ ⟨rfl, rfl⟩

/-- Two callbacks about the same, with entries that are alike. -/
inductive Callback.Resembles (like : E → E → Prop) : Callback E → Callback E → Prop where
  | bind {entry entry' : E} (r : ServiceReference) (he : like entry entry') :
    Resembles like (.bind entry r) (.bind entry' r)
  | unbind {entry entry' : E} (r : ServiceReference) (he : like entry entry') :
    Resembles like (.unbind entry r) (.unbind entry' r)
  | same (callback : Callback E) : Resembles like callback callback

end LiveServices
