import LiveServices.Proofs.Index.Canonical
import Mathlib.Data.List.Forall2

/-!
# Kinds that make no difference

A set refuses an entry that is equal to one that is there, and a sorted set one that compares equal.
Where entries are told apart by their services that never comes to pass, for the storage has no
entry of a service that is not in the index. Then a set puts an entry where a list does, and a
sorted set where a sorted list does (`Mode.SameFor.append_eq`).

Two collections are akin if they are the same but for such a mode, and two hubs if all their
collections are akin and all else is the same (`Hub.Akin`). What is shown of a collection for
inspection names its kind, so the traces of the two may differ in the answers that were given to
that question.
-/

namespace LiveServices

variable {E : Type}

/-! ## Modes -/

/-- The kind that refuses nothing and has the same order. -/
def CollectionKind.accepting : CollectionKind → CollectionKind
  | set => list
  | sortedSet => sortedList
  | kind => kind

/-- The mode that refuses nothing and puts at the same place what this one takes. -/
def Mode.accepting : Mode E → Mode E
  | set => list
  | sortedSet order => sortedList order
  | mode => mode

/-- The mode that refuses nothing is that of the kind that refuses nothing. -/
theorem Mode.accepting_ofKind (kind : CollectionKind) (order : E → E → Ordering) :
    (ofKind kind order).accepting = ofKind kind.accepting order := by
  cases kind <;> rfl

variable [ServiceEntry E]

/-- What tells entries apart by their services takes the entry of a service that is not there. -/
theorem Mode.TellsApart.place?_accepting {m : Mode E} (hm : m.TellsApart) {items : List E}
    {entry : E} (hequal : ∀ x ∈ items, (x == entry) = false)
    (hid : ∀ x ∈ items, (ServiceEntry.reference x).id ≠ (ServiceEntry.reference entry).id) :
    m.place? items entry = m.accepting.place? items entry := by
  cases hm with
  | list => rfl
  | set =>
    have hnone : items.any (· == entry) = false :=
      List.any_eq_false.2 fun x hx => Bool.eq_false_iff.1 (hequal x hx)
    rw [place?, hnone]
    rfl
  | sortedList order => rfl
  | @sortedSet order ho =>
    have hne : ∀ x ∈ items, order x entry ≠ .eq := fun x hx heq => hid x hx (ho x entry heq)
    rw [place?, Sequence.search_eq_free hne]
    rfl

/-- Two modes that store the entries of a factory in the same way: they are the same, or they tell
the entries apart by their services, as the factory does, and have the same order. -/
def Mode.SameFor (f : Factory E) (m m' : Mode E) : Prop :=
  m = m' ∨ f.EntriesIdentified ∧ m.TellsApart ∧ m'.TellsApart ∧ m.accepting = m'.accepting

/-- The entry of a service that is not in the collection is stored in the same way. -/
theorem Mode.SameFor.append_eq {k : Collection E} {m : Mode E} (hm : m.SameFor k.factory k.mode)
    (hs : k.Sound) (hx : k.factory.EntriesIdentified → k.Exact) {serial : Nat}
    {r : ServiceReference} {entry : E} {release : Option (Release E)}
    (hmade : k.factory.create serial r = .made entry release) (hn : k.hasIdentity r.id = false) :
    k.storage.append m entry = k.storage.append k.mode entry := by
  rcases hm with rfl | ⟨hf, hm, hk, hsame⟩
  · rfl
  · obtain rfl := hf.carries hmade
    have hequal := (hx hf).not_any_equal hs hf ⟨serial, _, release, hmade⟩ hn
    have hid := (hx hf).id_ne_of_not_hasIdentity hn
    rw [LiveSequence.append, LiveSequence.append, hm.place?_accepting hequal hid, hsame,
      ← hk.place?_accepting hequal hid]

/-! ## Collections -/

/-- A collection that is the same but for its mode, which makes no difference to its entries. -/
inductive Collection.Akin (k : Collection E) : Collection E → Prop where
  | intro (m : Mode E) (hm : m.SameFor k.factory k.mode) : Akin k { k with mode := m }

namespace Collection.Akin

variable {k k' : Collection E}

theorem refl (k : Collection E) : k.Akin k := .intro k.mode (.inl rfl)

theorem dependency (hk : k.Akin k') : k'.dependency = k.dependency := by
  obtain ⟨m, -⟩ := hk
  rfl

theorem factory (hk : k.Akin k') : k'.factory = k.factory := by
  obtain ⟨m, -⟩ := hk
  rfl

theorem subscription (hk : k.Akin k') : k'.subscription = k.subscription := by
  obtain ⟨m, -⟩ := hk
  rfl

theorem dropped (hk : k.Akin k') : k'.dropped = k.dropped := by
  obtain ⟨m, -⟩ := hk
  rfl

theorem index (hk : k.Akin k') : k'.index = k.index := by
  obtain ⟨m, -⟩ := hk
  rfl

theorem closed (hk : k.Akin k') : k'.closed = k.closed := by
  obtain ⟨m, -⟩ := hk
  rfl

/-- The same services are there. -/
theorem identities (hk : k.Akin k') : k'.identities = k.identities := by
  obtain ⟨m, -⟩ := hk
  rfl

theorem hasIdentity (hk : k.Akin k') (id : UInt64) : k'.hasIdentity id = k.hasIdentity id := by
  rw [Collection.hasIdentity, hk.identities, Collection.hasIdentity]

/-- The same services are in both collections, by the same entries. -/
theorem census (hk : k.Akin k') : k'.census = k.census := by
  obtain ⟨m, -⟩ := hk
  rfl

/-- What differs is how entries are stored from now on, and not what is stored. -/
theorem storage (hk : k.Akin k') : k'.storage = k.storage := by
  obtain ⟨m, -⟩ := hk
  rfl

theorem lifecycleListeners (hk : k.Akin k') : k'.lifecycleListeners = k.lifecycleListeners := by
  obtain ⟨m, -⟩ := hk
  rfl

theorem stateListeners (hk : k.Akin k') : k'.stateListeners = k.stateListeners := by
  obtain ⟨m, -⟩ := hk
  rfl

theorem locks (hk : k.Akin k') : k'.locks = k.locks := by
  obtain ⟨m, -⟩ := hk
  rfl

end Collection.Akin

/-! ## Answers and moments -/

/-- The inspection text of a collection of this kind. -/
def Dependency.inspectAs (dependency : Dependency) (kind : CollectionKind) (size : Nat) : String :=
  Text.record "ServiceCollection" [("dependency", dependency.inspect),
    ("mode", "StorageMode::" ++ kind.name), ("size", toString size)]

omit [ServiceEntry E] in
/-- The kind is all that an inspection text tells of the mode. -/
theorem Collection.inspect_eq (k : Collection E) :
    k.inspect = k.dependency.inspectAs k.mode.kind k.size := rfl

/-- Two answers that are the same, but for the kind if they show a collection. -/
inductive Answer.Akin : Answer → Answer → Prop where
  | same (a : Answer) : Akin a a
  | shown (dependency : Dependency) (kind kind' : CollectionKind) (size : Nat) :
    Akin (.inspection (dependency.inspectAs kind size))
      (.inspection (dependency.inspectAs kind' size))

/-- Two answers to this command that differ in no more than the kind that is shown, and that only if
the command asks for it. -/
def Command.Answers : Command E → Answer → Answer → Prop
  | .ask _ .debug => Answer.Akin
  | _ => Eq

/-- Two moments that are the same, but for the kind that was shown to a listener. -/
inductive Moment.Akin : Moment E → Moment E → Prop where
  | same (m : Moment E) : Akin m m
  | commanded (tag : ListenerTag) (command : String) {a a' : Answer} (ha : a.Akin a') :
    Akin (.commanded tag command a) (.commanded tag command a')

omit [ServiceEntry E] in
/-- Answers to a command are akin, and the same unless the command asks for an inspection text. -/
theorem Command.Answers.akin {command : Command E} {a a' : Answer} (ha : command.Answers a a') :
    a.Akin a' := by
  unfold Command.Answers at ha
  split at ha
  · exact ha
  · exact ha ▸ .same a

omit [ServiceEntry E] in
theorem Command.Answers.refl (command : Command E) (a : Answer) : command.Answers a a := by
  unfold Command.Answers
  split
  · exact .same a
  · rfl

/-- A question to collections that are akin is answered as it has to be. -/
theorem Collection.Akin.answers {k k' : Collection E} (hk : k.Akin k') (released : List Nat)
    (c : Nat) (question : Question E) :
    (Command.ask c question).Answers (k.answer released question)
      (k'.answer released question) := by
  obtain ⟨m, -⟩ := hk
  cases question with
  | debug =>
    show Answer.Akin (.inspection k.inspect) (.inspection { k with mode := m }.inspect)
    rw [Collection.inspect_eq, Collection.inspect_eq]
    exact .shown k.dependency k.mode.kind m.kind k.size
  | _ => rfl

/-! ## Hubs -/

namespace Hub

/-- Two hubs that are the same, but for modes that make no difference. -/
structure Akin (h h' : Hub E) : Prop where
  registry : h'.registry = h.registry
  length : h'.collections.length = h.collections.length
  collection : ∀ c, (h.collection c).Akin (h'.collection c)
  traversals : h'.traversals = h.traversals
  kept : h'.kept = h.kept
  attempts : h'.attempts = h.attempts
  released : h'.released = h.released
  listeners : h'.listeners = h.listeners
  trace : List.Forall₂ Moment.Akin h.trace h'.trace
  past : List.Forall₂ (fun p p' => p'.1 = p.1 ∧ p.2.Akin p'.2) h.past h'.past

namespace Akin

variable {h h' : Hub E}

/-- The same services are in each collection, by the same entries. -/
theorem census (hs : h.Akin h') : h'.census = h.census := by
  refine List.ext_getElem (by simp [Hub.census, hs.length]) fun c hc' hc => ?_
  rw [Hub.census, List.length_map] at hc hc'
  have hk := (hs.collection c).census
  rw [Hub.collection, Hub.collection, List.getElem?_eq_getElem hc,
    List.getElem?_eq_getElem hc'] at hk
  simpa [Hub.census] using hk

/-- Listeners were told the same. -/
theorem told (hs : h.Akin h') (who : ListenerTag → Bool) : h'.told who = h.told who := by
  have htrace := hs.trace
  unfold Hub.told
  generalize h.trace = trace at htrace
  generalize h'.trace = trace' at htrace
  induction htrace with
  | nil => rfl
  | cons hm _ ih =>
    cases hm with
    | same m => rw [List.filterMap_cons, List.filterMap_cons, ih]
    | commanded tag command ha =>
      rw [List.filterMap_cons_none rfl, List.filterMap_cons_none rfl, ih]

/-- The same change is made to a collection. -/
theorem update (hs : h.Akin h') {c : Nat} {f f' : Collection E → Collection E}
    (hf : ∀ k k', k.Akin k' → (f k).Akin (f' k')) : (h.update c f).Akin (h'.update c f') where
  registry := hs.registry
  length := by rw [length_collections_update, length_collections_update, hs.length]
  collection d := by
    rw [collection_update, collection_update, hs.length]
    split
    · exact hf _ _ (hs.collection d)
    · exact hs.collection d
  traversals := hs.traversals
  kept := hs.kept
  attempts := hs.attempts
  released := hs.released
  listeners := hs.listeners
  trace := hs.trace
  past := .cons ⟨rfl, hs.collection c⟩ hs.past

/-- Traces stay akin when moments that are akin are added. -/
theorem record (hs : h.Akin h') {m m' : Moment E} (hm : m.Akin m') :
    (h.record m).Akin (h'.record m') := { hs with trace := .cons hm hs.trace }

/-- A listener sees the same. -/
theorem sight (hs : h.Akin h') (home : Nat) (callback : Callback E) :
    h'.sight home callback = h.sight home callback := by
  have hk := hs.collection home
  rw [Hub.sight, Hub.sight, hs.census, hs.released]
  generalize h.collection home = k at hk
  generalize h'.collection home = k' at hk
  obtain ⟨m, -⟩ := hk
  rfl

end Akin

end Hub

end LiveServices
