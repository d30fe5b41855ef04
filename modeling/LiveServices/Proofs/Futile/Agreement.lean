import LiveServices.Proofs.Futile.Likeness
import LiveServices.Proofs.Futile.Upshots
import LiveServices.Proofs.Kinds.Agreement

/-!
# Hubs that resemble each other

Two hubs resemble each other if their collections do, the same iterators were handed out, and the
same calls were made, about entries that are alike (`Hub.Resembles`). Nothing is said of how often a
factory was asked and of what was released meanwhile.

What comes of an event is the same in both (`Hub.Resembles.heeds`), and a command to an iterator is
answered in the same way, but for the validity of the entries that it shows
(`Run.Agree.traversal_alike`).
-/

namespace LiveServices

variable {E : Type} {like : E → E → Prop}

/-! ## Calls and upshots -/

/-- Two calls of one listener about the same, with entries that are alike. -/
structure Callback.CalledAlike (like : E → E → Prop) (call call' : ListenerTag × Callback E) :
    Prop where
  listener : call'.1 = call.1
  callback : call.2.Resembles like call'.2

/-- A round calls the same listeners, each with callbacks that are alike. -/
theorem Callback.Resembles.round {callback callback' : Callback E}
    (hc : callback.Resembles like callback') (listeners : List (Attached E)) :
    List.Forall₂ (CalledAlike like) (callback.round listeners) (callback'.round listeners) := by
  refine List.rel_reverse ?_
  rw [List.forall₂_map_left_iff, List.forall₂_map_right_iff, List.forall₂_same]
  exact fun _ _ => ⟨rfl, hc⟩

/-- Two upshots with the same outcome, after which the collections resemble each other. -/
structure Upshot.Resembles (like : E → E → Prop) (u u' : Upshot E) : Prop where
  result : u'.result = u.result
  index : List.Forall₂ (Holding.Resembles like) u.index u'.index
  storage : u.storage.Resembles like u'.storage
  calls : List.Forall₂ (Callback.CalledAlike like) u.calls u'.calls

/-- Upshots that are alike are answered in the same way. -/
theorem Upshot.Resembles.answer {u u' : Upshot E} (hu : u.Resembles like u') :
    u'.answer = u.answer := by
  rw [Upshot.answer, hu.result, Upshot.answer]

namespace Collection.Resembles

variable {k k' : Collection E}

/-- Collections are alike after upshots that are. -/
theorem after (hk : k.Resembles like k') {u u' : Upshot E} (hu : u.Resembles like u') :
    (k.after u).Resembles like (k'.after u') := hk.withEntries hu.index hu.storage

/-- An upshot that leaves a collection as it is does so to both. -/
theorem unmoved (hk : k.Resembles like k') (result : Except Trouble Reconciled) :
    (k.unmoved result).Resembles like (k'.unmoved result) := ⟨rfl, hk.index, hk.storage, .nil⟩

variable [ServiceEntry E] (hl : Interchangeable like)
include hl

/-- An entry is taken by both storages or by neither. -/
theorem joined (hk : k.Resembles like k') (hm : k.mode.Overlooks like) {x x' : Holding E}
    (hx : x.Resembles like x') : (k.joined x).Resembles like (k'.joined x') := by
  obtain ⟨htaken, hstorage⟩ := hk.storage.append hl hm hx.entry
  have hentered : (k.enter x).storage.Resembles like (k'.enter x').storage := by
    rw [Collection.enter, Collection.enter, hk.mode]
    exact hstorage
  have hsize : (k'.enter x').size = (k.enter x).size := hentered.items.length_eq.symm
  unfold Collection.joined
  rw [hk.mode, htaken, hk.dependency, hk.lifecycleListeners, hk.stateListeners, hsize, hx.reference]
  split
  · refine ⟨rfl, Roster.insert_resembles hk.index hx, hentered,
      List.rel_append ?_ ((Callback.Resembles.bind _ hx.entry).round _)⟩
    split
    · exact (Callback.Resembles.same _).round _
    · exact .nil
  · exact hk.unmoved _

/-- An attempt that comes to the same leads to the same. -/
theorem received (hk : k.Resembles like k') (hm : k.mode.Overlooks like) (n n' : Nat)
    (r : ServiceReference) {made made' : Creation E} (hc : made.Resembles like made') :
    (k.received n r made).Resembles like (k'.received n' r made') := by
  cases hc with
  | failed f => exact hk.unmoved _
  | panicked message => exact hk.unmoved _
  | made release release' he => exact hk.joined hl hm ⟨rfl, he⟩

/-- A service that appears is admitted by both collections or by neither. -/
theorem offered (hk : k.Resembles like k') (hm : k.mode.Overlooks like)
    (hf : k.factory.Repeats like) (n n' : Nat) (r : ServiceReference) :
    (k.offered n r).Resembles like (k'.offered n' r) := by
  unfold Collection.offered
  rw [hk.closed, hk.hasIdentity, hk.factory]
  split
  · exact hk.unmoved _
  · exact hk.received hl hm n n' r (hf n n' r)

/-- An entry is given back by both storages or by neither. -/
theorem parted (hk : k.Resembles like k') {x x' : Holding E} (hx : x.Resembles like x') :
    (k.parted x).Resembles like (k'.parted x') := by
  obtain ⟨hstored, hstorage⟩ := hk.storage.removeOne hl hx.entry
  have hindex : List.Forall₂ (Holding.Resembles like) (k.leave x).index (k'.leave x').index := by
    rw [Collection.leave, Collection.leave, hx.id]
    exact Roster.erase_resembles hk.index _
  have hsize : (k'.leave x').size = (k.leave x).size := hstorage.items.length_eq.symm
  unfold Collection.parted
  rw [hstored, hk.dependency, hk.lifecycleListeners, hk.stateListeners, hsize, hx.reference]
  split
  · refine ⟨rfl, hindex, hstorage,
      List.rel_append ?_ ((Callback.Resembles.unbind _ hx.entry).round _)⟩
    split
    · exact (Callback.Resembles.same _).round _
    · exact .nil
  · exact ⟨rfl, hindex, hstorage, .nil⟩

/-- A service that disappears is taken away from both or from neither. -/
theorem withdrawn (hk : k.Resembles like k') (id : UInt64) :
    (k.withdrawn id).Resembles like (k'.withdrawn id) := by
  have hfound := Roster.find?_resembles hk.index id
  unfold Collection.withdrawn
  generalize Roster.find? Holding.id id k.index = found at hfound
  generalize Roster.find? Holding.id id k'.index = found' at hfound
  cases hfound with
  | none => exact hk.unmoved _
  | some hx => exact hk.parted hl hx

/-- **Upshots.** The same comes of an event in both collections. -/
theorem upshot (hk : k.Resembles like k') (hm : k.mode.Overlooks like)
    (hf : k.factory.Repeats like) (n n' : Nat) (event : ServiceEvent) :
    (k.upshot n event).Resembles like (k'.upshot n' event) := by
  unfold Collection.upshot
  split
  · exact hk.offered hl hm hf n n' _
  · exact hk.offered hl hm hf n n' _
  · exact hk.withdrawn hl _
  · exact hk.unmoved _

end Collection.Resembles

/-! ## Hubs -/

namespace Hub

/-- Two hubs whose collections resemble each other, with the same iterators, and in which the same
calls were made. -/
structure Resembles (like : E → E → Prop) (h h' : Hub E) : Prop where
  length : h'.collections.length = h.collections.length
  collection : ∀ c, (h.collection c).Resembles like (h'.collection c)
  traversals : h'.traversals = h.traversals
  calls : List.Forall₂ (Callback.CalledAlike like) h.calls h'.calls

namespace Resembles

variable {h h' h₁ h₁' : Hub E} {c : Nat}

theorem refl (hl : ∀ a, like a a) (h : Hub E) : Resembles like h h :=
  ⟨rfl, fun _ => .refl hl _, rfl, List.forall₂_same.2 fun _ _ => ⟨rfl, .same _⟩⟩

/-- Both hubs are changed by what came of an event. -/
theorem heeds (hs : Resembles like h h') {u u' : Upshot E} (hu : u.Resembles like u')
    (hh : h.Heeds c u h₁) (hh' : h'.Heeds c u' h₁') : Resembles like h₁ h₁' where
  length := by rw [hh'.length, hs.length, hh.length]
  collection d := by
    by_cases hd : d = c
    · rw [hd, hh.here, hh'.here]
      exact (hs.collection c).after hu
    · rw [hh.elsewhere d hd, hh'.elsewhere d hd]
      exact hs.collection d
  traversals := by rw [hh'.traversals, hs.traversals, hh.traversals]
  calls := by
    rw [hh.calls, hh'.calls]
    exact List.rel_append hu.calls hs.calls

/-- An event of which nothing comes in the first hub is not missed in the second. -/
theorem unmoved (hs : Resembles like h h') {result : Except Trouble Reconciled}
    (hh : h.Heeds c ((h.collection c).unmoved result) h₁) : Resembles like h₁ h' where
  length := hs.length.trans hh.length.symm
  collection d := by
    by_cases hd : d = c
    · rw [hd, hh.here, Collection.after_unmoved]
      exact hs.collection c
    · rw [hh.elsewhere d hd]
      exact hs.collection d
  traversals := hs.traversals.trans hh.traversals.symm
  calls := by
    rw [hh.calls]
    exact hs.calls

/-- Hubs stay alike when a collection of both is replaced by one that is alike. -/
theorem update (hs : Resembles like h h') (c : Nat) {f f' : Collection E → Collection E}
    (hf : (f (h.collection c)).Resembles like (f' (h'.collection c))) :
    Resembles like (h.update c f) (h'.update c f') where
  length := by rw [length_collections_update, length_collections_update, hs.length]
  collection d := by
    rw [collection_update, collection_update, hs.length]
    split
    · next hd =>
      rw [hd.1]
      exact hf
    · exact hs.collection d
  traversals := hs.traversals
  calls := hs.calls

end Resembles

end Hub

/-! ## Iterators -/

/-- An entry as an answer shows it, but for its validity. -/
def EntryView.plain (v : EntryView) : EntryView := { v with valid? := none }

/-- An answer without the validity of the entries that it shows. -/
def Answer.plain : Answer → Answer
  | .entry value => .entry (value.map EntryView.plain)
  | .entries values => .entries (values.map EntryView.plain)
  | answer => answer

/-- Two answers that differ in no more than the validity of the entries that they show. -/
def Answer.Resembles (a a' : Answer) : Prop := a'.plain = a.plain

/-- The commands that are about iterators. -/
def Command.IsTraversal : Command E → Prop
  | .iter _ _ | .tryNext _ | .next _ | .hasNext _ | .drain _ | .iterRemove _ | .dropIter _ => True
  | _ => False

/-- Entries that are alike are shown in the same way, but for whether they were released. -/
theorem plain_view [ServiceEntry E] (hl : Interchangeable like) {a a' : E} (ha : like a a')
    (released released' : List Nat) : (ServiceEntry.view released' a').plain =
      (ServiceEntry.view released a).plain := by
  rw [ServiceEntry.view, EntryView.plain, hl.reference ha, ServiceEntry.view, EntryView.plain]

namespace Run.Agree

variable {α α' : Type} {R : α → α' → Prop}

/-- Runs that agree on their results agree on anything that follows from them. -/
theorem mono {Q : Hub E → Hub E → Prop} {S : α → α' → Prop} {x : Run E α} {x' : Run E α'}
    (hx : Agree Q R x x') (hRS : ∀ a a', R a a' → S a a') : Agree Q S x x' := fun h h' hs => by
  have hmeets := hx hs
  generalize x h = result at hmeets
  generalize x' h' = result' at hmeets
  cases hmeets with
  | reached hR hQ => exact .reached (hRS _ _ hR) hQ
  | halted halt => exact .halted halt

/-- Two runs that read the state of a collection. -/
theorem collection_alike (c : Nat) {f : Collection E → Run E α} {f' : Collection E → Run E α'}
    (hf : ∀ k k', k.Resembles like k' → Agree (Hub.Resembles like) R (f k) (f' k')) :
    Agree (Hub.Resembles like) R (Run.collection c >>= f) (Run.collection c >>= f') :=
  fun h h' hs => by
    rw [collection_bind, collection_bind]
    exact hf _ _ (hs.collection c) hs

theorem update_alike (c : Nat) {f f' : Collection E → Collection E}
    (hf : ∀ k k', k.Resembles like k' → (f k).Resembles like (f' k')) :
    Agree (Hub.Resembles like) Eq (Run.update c f) (Run.update c f') :=
  .change fun _ _ hs => hs.update c (hf _ _ (hs.collection c))

theorem locked_alike (c : Nat) (lock : Lock) {body : Run E α} {body' : Run E α'}
    (hb : Agree (Hub.Resembles like) R body body') :
    Agree (Hub.Resembles like) R (Run.locked c lock body) (Run.locked c lock body') := by
  have htake : Agree (Hub.Resembles like) Eq
      (Run.update c fun k : Collection E => { k with locks := lock :: k.locks })
      (Run.update c fun k => { k with locks := lock :: k.locks }) :=
    .update_alike c fun _ _ hk => hk.withLocks (lock :: ·)
  have hgive : Agree (Hub.Resembles like) Eq (Run.giveBack (E := E) c lock)
      (Run.giveBack c lock) := .update_alike c fun _ _ hk => hk.withLocks (·.erase lock)
  have hacquire : Agree (Hub.Resembles like) Eq (Run.acquire (E := E) c lock)
      (Run.acquire c lock) := by
    refine .collection_alike c fun k k' hk => ?_
    rw [hk.locks]
    exact .ite (.next (.throw _) fun _ => htake) htake
  exact .next hacquire fun _ => .bind hb fun _ _ hR => .next hgive fun _ => .pure hR

theorem traversal?_alike (name : String) :
    Agree (Hub.Resembles like) Eq (Run.traversal? (E := E) name) (Run.traversal? name) :=
  .bind .get fun _ _ hs => .pure (by rw [hs.traversals])

/-- The same iterators are handed out or forgotten. -/
theorem traversals_alike {f : List (String × Traversal) → List (String × Traversal)} :
    Agree (Hub.Resembles like) Eq
      (modify fun h : Hub E => { h with traversals := f h.traversals } : Run E Unit)
      (modify fun h : Hub E => { h with traversals := f h.traversals }) :=
  .change fun _ _ hs => ⟨hs.length, hs.collection, congrArg f hs.traversals, hs.calls⟩

theorem available_alike (c : Nat) :
    Agree (Hub.Resembles like) Eq (Run.available (E := E) c) (Run.available c) :=
  .locked_alike c _ (.collection_alike c fun _ _ hk => .pure hk.check.symm)

/-- Work on storages that comes to results that are related. -/
theorem storage_alike {γ : Type} {S : γ → γ → Prop} (c : Nat)
    (f : LiveSequence E → γ × LiveSequence E) {g : γ → Run E α} {g' : γ → Run E α'}
    (hf : ∀ s s', s.Resembles like s' → S (f s).1 (f s').1 ∧ (f s).2.Resembles like (f s').2)
    (hg : ∀ a a', S a a' → Agree (Hub.Resembles like) R (g a) (g' a')) :
    Agree (Hub.Resembles like) R
      (do
        let (a, storage) := f (← Run.collection c).storage
        Run.update c fun k => { k with storage := storage }
        g a)
      (do
        let (a, storage) := f (← Run.collection c).storage
        Run.update c fun k => { k with storage := storage }
        g' a) := by
  refine .collection_alike c fun k k' hk => ?_
  obtain ⟨ha, hstorage⟩ := hf _ _ hk.storage
  exact .next (.update_alike c fun _ _ hk => hk.withEntries hk.index hstorage) fun _ => hg _ _ ha

/-- An iterator is forgotten, and its cursor closed, in both. -/
theorem dropIter_alike (name : String) :
    Agree (Hub.Resembles like) Eq (Run.dropIter (E := E) name) (Run.dropIter name) := by
  refine .next (.traversal?_alike name) fun t => ?_
  split
  · exact .pure rfl
  · next t =>
    refine .next (.update_alike _ fun k k' hk => ?_) fun _ =>
      .next .traversals_alike fun _ => .pure rfl
    exact hk.withEntries hk.index (hk.storage.closeCursor t.cursor)

/-- An iterator is opened in both or refused in both. -/
theorem iter_alike (c : Nat) (name : String) :
    Agree (Hub.Resembles like) Eq (Run.iter (E := E) c name) (Run.iter c name) := by
  refine .next (.available_alike c) fun checked => ?_
  split
  · exact .pure rfl
  · have hname (cursor cursor' : Nat) (heq : cursor = cursor') :
        Agree (Hub.Resembles like) Eq
          (do
            modify fun h : Hub E => { h with traversals := (name, ⟨c, cursor⟩) :: h.traversals }
            Pure.pure Answer.done : Run E Answer)
          (do
            modify fun h : Hub E => { h with traversals := (name, ⟨c, cursor'⟩) :: h.traversals }
            Pure.pure Answer.done) := by
      rw [heq]
      exact .next .traversals_alike fun _ => .pure rfl
    exact .next (.dropIter_alike name) fun _ => .storage_alike c LiveSequence.openCursor
      (fun _ _ hs => ⟨hs.openCursor.1.symm, hs.openCursor.2⟩) hname

/-- What steps through an iterator come to. -/
inductive SteppedAlike (S : α → α' → Prop) : Except Failure α → Except Failure α' → Prop where
  | ok {a : α} {a' : α'} (ha : S a a') : SteppedAlike S (.ok a) (.ok a')
  | error (f : Failure) : SteppedAlike S (.error f) (.error f)

/-- An iterator moves past entries that are alike. -/
theorem step_alike (t : Traversal) : Agree (Hub.Resembles like) (SteppedAlike (Option.Rel like))
    (Run.step (E := E) t) (Run.step t) := by
  refine .next (.available_alike t.collection) fun checked => ?_
  split
  · exact .pure (.error _)
  · exact .storage_alike t.collection (fun s => s.next t.cursor) (fun _ _ hs => hs.next t.cursor)
      fun _ _ ha => .pure (.ok ha)

/-- What is left for an iterator is alike entry by entry. -/
theorem drain_alike (t : Traversal) :
    Agree (Hub.Resembles like) (List.Forall₂ like) (Run.drain (E := E) t) (Run.drain t) := by
  refine .next (.available_alike t.collection) fun checked => ?_
  split
  · exact .pure .nil
  · exact .storage_alike t.collection (fun s => s.drain t.cursor)
      (fun _ _ hs => hs.drain t.cursor) fun _ _ ha => .pure ha

/-- Whether there is more is the same, as the storages have the same size. -/
theorem hasNext_alike (t : Traversal) :
    Agree (Hub.Resembles like) Eq (Run.hasNext (E := E) t) (Run.hasNext t) := by
  refine .next (.available_alike t.collection) fun checked => ?_
  split
  · exact .pure rfl
  · exact .collection_alike t.collection fun k k' hk => .pure (by rw [hk.storage.hasNext])

/-! ### Commands -/

section Commands

theorem withTraversal_alike (name : String) {f : Traversal → Run E Answer}
    (hf : ∀ t, Agree (Hub.Resembles like) Answer.Resembles (f t) (f t)) :
    Agree (Hub.Resembles like) Answer.Resembles (Run.withTraversal name f)
      (Run.withTraversal name f) := by
  refine .next (.traversal?_alike name) fun t => ?_
  split
  · exact hf _
  · exact .pure rfl

variable [ServiceEntry E] (hl : Interchangeable like)
include hl

/-- The views of entries that are alike are alike. -/
theorem view_alike {entry entry' : Option E} (he : Option.Rel like entry entry') :
    Agree (Hub.Resembles like) Answer.Resembles (Run.view entry) (Run.view entry') := by
  refine .bind .get fun h h' _ => .pure ?_
  cases he with
  | none => rfl
  | some ha => exact congrArg (fun v => Answer.entry (some v)) (plain_view hl ha _ _)

/-- **Iterators.** A command to an iterator is answered in the same way in hubs that resemble each
other, but for the validity of the entries that it shows. -/
theorem traversal_alike (nested : Nested E) {command : Command E} (hc : command.IsTraversal) :
    Agree (Hub.Resembles like) Answer.Resembles (Run.execute nested command)
      (Run.execute nested command) := by
  cases command with
  | iter c name =>
    refine .collection_alike c fun k k' hk => ?_
    rw [hk.dropped]
    exact .ite (.pure rfl) ((iter_alike c name).mono fun _ _ heq => congrArg Answer.plain heq.symm)
  | tryNext name =>
    refine .withTraversal_alike name fun t => .bind (.step_alike t) fun result result' hr => ?_
    cases hr with
    | ok he => exact .view_alike hl he
    | error f => exact .pure rfl
  | next name =>
    refine .withTraversal_alike name fun t => .bind (.step_alike t) fun result result' hr => ?_
    cases hr with
    | ok he => exact .view_alike hl he
    | error f => exact .pure rfl
  | hasNext name =>
    exact .withTraversal_alike name fun t => .next (.hasNext_alike t) fun _ => .pure rfl
  | drain name =>
    refine .withTraversal_alike name fun t => .bind (.drain_alike t) fun entries entries' he => ?_
    refine .bind .get fun h h' _ => .pure ?_
    show Answer.entries _ = Answer.entries _
    rw [List.map_map, List.map_map]
    exact congrArg Answer.entries
      (map_eq_of_forall₂ he fun _ _ ha => plain_view hl ha h.released h'.released)
  | iterRemove name => exact .withTraversal_alike name fun _ => .pure rfl
  | dropIter name => exact .next (.dropIter_alike name) fun _ => .pure rfl
  | _ => cases hc

end Commands

end Run.Agree

end LiveServices
