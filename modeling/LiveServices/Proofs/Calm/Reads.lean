import LiveServices.Proofs.Calm.Calls

/-!
# Reads

Collections are read by questions, through iterators and at an index. While no lock is taken every
read reaches an answer, and of collections and the registry it changes nothing but where iterators
stand (`Hub.Browsed`). It answers that something is unavailable only if a collection lacks what it
needs at that moment (`Hub.read_total`); such a collection is mandatory and has no entry
(`Collection.size_of_check`).
-/

namespace LiveServices

variable {E : Type}

/-- The commands that read collections. -/
def Command.IsRead : Command E → Prop
  | .ask _ _ | .iter _ _ | .tryNext _ | .next _ | .hasNext _ | .drain _ | .hold _ _ _ => True
  | _ => False

/-- An answer that says that no service is there. -/
def Answer.IsUnavailable : Answer → Prop
  | .failed (.serviceUnavailable _) | .copied (.error (.serviceUnavailable _)) _ => True
  | _ => False

/-- A collection lacks what it needs only if it is without entries. -/
theorem Collection.size_of_check {k : Collection E} (hk : k.check ≠ .ok ()) :
    k.dependency.mandatory = true ∧ k.size = 0 := by
  unfold check Dependency.check Dependency.isSatisfied at hk
  split at hk
  · exact absurd rfl hk
  · next hunmet => simpa using hunmet

/-- A collection that answers that no service is there lacks what it needs. -/
theorem Collection.check_of_answer [ServiceEntry E] {k : Collection E} {released : List Nat}
    {question : Question E} (hu : (k.answer released question).IsUnavailable) :
    k.check ≠ .ok () := by
  intro hk
  cases question <;> simp [answer, checked, hk, Answer.IsUnavailable] at hu

/-! ## Changes by reads -/

/-- The second hub comes after the first by reads: in a collection only the cursors of the storage
may have changed. -/
structure Hub.Browsed (h h' : Hub E) : Prop where
  registry : h'.registry = h.registry
  collection : ∀ c, ∃ storage, storage.items = (h.collection c).storage.items ∧
    h'.collection c = { h.collection c with storage := storage }

/-- No lock is taken. -/
def Hub.Idle (h : Hub E) : Prop := ∀ c, (h.collection c).locks = []

namespace Hub

variable {h h₁ h₂ h₃ : Hub E} {c : Nat}

/-- Where the collections stay as they are, not even cursors have moved. -/
theorem Hush.browsed (hh : h₁.Hush h₂) : h₁.Browsed h₂ :=
  ⟨hh.registry, fun c => ⟨_, rfl, hh.collection c⟩⟩

namespace Browsed

theorem refl (h : Hub E) : Browsed h h := (Hush.refl h).browsed

theorem trans (h₁₂ : Browsed h₁ h₂) (h₂₃ : Browsed h₂ h₃) : Browsed h₁ h₃ where
  registry := h₂₃.registry.trans h₁₂.registry
  collection c := by
    obtain ⟨storage, hitems, heq⟩ := h₁₂.collection c
    obtain ⟨storage', hitems', heq'⟩ := h₂₃.collection c
    rw [heq] at hitems' heq'
    exact ⟨storage', hitems'.trans hitems, heq'⟩

/-- No lock is held after a look if none was before. -/
theorem idle (hb : Browsed h₁ h₂) (hi : h₁.Idle) : h₂.Idle := fun c => by
  obtain ⟨storage, -, heq⟩ := hb.collection c
  rw [heq]
  exact hi c

/-- A collection that was calm before a look is calm after it. -/
theorem calm (hb : Browsed h₁ h₂) (hc : h₁.Calm) : h₂.Calm := fun c => by
  obtain ⟨storage, -, heq⟩ := hb.collection c
  rw [heq]
  exact (hc c).of_eq (fun _ => .inr) rfl rfl rfl rfl

/-- A look does not make a collection available or unavailable. -/
theorem check (hb : Browsed h₁ h₂) (c : Nat) :
    (h₂.collection c).check = (h₁.collection c).check := by
  obtain ⟨storage, hitems, heq⟩ := hb.collection c
  rw [heq, Collection.check, Collection.size, hitems]
  rfl

/-- The cursors of a collection are moved. -/
theorem cursors {f : LiveSequence E → LiveSequence E}
    (hf : (f (h.collection c).storage).items = (h.collection c).storage.items) :
    Browsed h (h.update c fun k => { k with storage := f k.storage }) where
  registry := rfl
  collection d := by
    rw [collection_update]
    split
    · next hd => exact ⟨_, hd.1 ▸ hf, rfl⟩
    · exact ⟨_, rfl, rfl⟩

end Browsed

end Hub

namespace Run

variable {α β : Type} {h : Hub E} {c : Nat}

/-- A run reaches a result of which this holds, and it reads only. -/
def Browses (Q : α → Prop) (x : Run E α) (h : Hub E) : Prop :=
  ∃ a h', x h = .ok (a, h') ∧ h.Browsed h' ∧ Q a

/-- A failure is given only if a collection lacks what it needs. -/
def Excused (h : Hub E) (failed : Prop) : Prop :=
  failed → ∃ c, (h.collection c).check ≠ .ok ()

namespace Browses

theorem pure {Q : α → Prop} {a : α} (hq : Q a) : Browses Q (pure a) h := ⟨a, h, rfl, .refl h, hq⟩

theorem bind {P : α → Prop} {Q : β → Prop} {x : Run E α} {f : α → Run E β} (hx : Browses P x h)
    (hf : ∀ a h', P a → h.Browsed h' → Browses Q (f a) h') : Browses Q (x >>= f) h := by
  obtain ⟨a, h₁, h1, hb₁, hp⟩ := hx
  obtain ⟨b, h₂, h2, hb₂, hq⟩ := hf a h₁ hp hb₁
  exact ⟨b, h₂, bind_eq_ok.2 ⟨a, h₁, h1, h2⟩, hb₁.trans hb₂, hq⟩

/-- A change of a hub that is seen neither in a collection nor in the registry. -/
theorem modify {Q : β → Prop} {f : Hub E → Hub E} {g : Unit → Run E β}
    (hf : h.Hush (f h)) (hg : Browses Q (g ()) (f h)) : Browses Q (modify f >>= g) h := by
  obtain ⟨b, h', hr, hb, hq⟩ := hg
  exact ⟨b, h', hr, hf.browsed.trans hb, hq⟩

theorem get {Q : β → Prop} {g : Hub E → Run E β} (hg : Browses Q (g h) h) :
    Browses Q (get >>= g) h := hg

theorem collection {Q : β → Prop} {g : Collection E → Run E β}
    (hg : Browses Q (g (h.collection c)) h) : Browses Q (collection c >>= g) h := hg

/-- The cursors of a collection are moved. -/
theorem cursors {Q : β → Prop} {f : LiveSequence E → LiveSequence E} {g : Unit → Run E β}
    (hf : (f (h.collection c).storage).items = (h.collection c).storage.items)
    (hg : ∀ h', h.Browsed h' → Browses Q (g ()) h') :
    Browses Q (update c (fun k => { k with storage := f k.storage }) >>= g) h := by
  have hmoved : h.Browsed (h.update c fun k => { k with storage := f k.storage }) := .cursors hf
  obtain ⟨b, h', hr, hb, hq⟩ := hg _ hmoved
  exact ⟨b, h', hr, hmoved.trans hb, hq⟩

/-- Whether a collection has what it needs is found out under the lock of its storage. -/
theorem available (hi : h.Idle) (c : Nat) :
    Browses (· = (h.collection c).check) (available c) h := by
  have hfree : .storage ∉ (h.collection c).locks := by simp [hi c]
  obtain ⟨a, h', hr, hh⟩ : Hushed (Run.available c) h := .look hfree
  obtain ⟨-, ha, -⟩ := locked_pure_eq_ok.1 hr
  refine ⟨a, h', hr, hh.browsed, ?_⟩
  rw [← ha, Hub.collection_update]
  split <;> rfl

/-- A loop of looks is a look. -/
theorem forM {l : List α} {f : α → Run E PUnit}
    (hf : ∀ a ∈ l, ∀ h', h.Browsed h' → Browses (fun _ => True) (f a) h') :
    Browses (fun _ => True) (l.forM f) h := by
  induction l generalizing h with
  | nil => exact .pure trivial
  | cons a l ih =>
    refine .bind (hf a List.mem_cons_self h (.refl h)) fun _ h₁ _ hb => ih fun b hmem h' hb' => ?_
    exact hf b (List.mem_cons_of_mem _ hmem) h' (hb.trans hb')

end Browses

/-! ## What is read -/

variable [ServiceEntry E]

/-- A question comes to an answer, since none of its locks is held. -/
theorem ask_browses (hi : h.Idle) (c : Nat) (question : Question E) :
    Browses (fun a => Excused h a.IsUnavailable) (ask c question) h := by
  have hlocks : Browses (fun _ => True)
      (question.locks.forM fun lock => locked c lock (Pure.pure () : Run E Unit)) h := by
    refine .forM fun lock _ h' hb => ?_
    have hfree : lock ∉ (h'.collection c).locks := by simp [hb.idle hi c]
    obtain ⟨a, h₁, hr, hh⟩ : Hushed (locked c lock (Pure.pure () : Run E Unit)) h' :=
      .look (f := fun _ => ()) hfree
    exact ⟨a, h₁, hr, hh.browsed, trivial⟩
  refine hlocks.bind fun _ h' _ hb => .get (.pure fun hu => ⟨c, ?_⟩)
  rw [← hb.check]
  exact Collection.check_of_answer hu

omit [ServiceEntry E]

/-- An iterator is forgotten without a look at its collection. -/
theorem dropIter_browses (name : String) : Browses (fun _ => True) (dropIter name : Run E _) h := by
  unfold dropIter traversal?
  refine .bind (P := fun _ => True) (.get (.pure trivial)) fun t h₁ _ _ => ?_
  cases t with
  | none => exact .pure trivial
  | some t =>
    refine .cursors (f := fun s => s.closeCursor t.cursor) (by simp) fun h₂ _ => ?_
    exact .modify ⟨rfl, rfl⟩ (.pure trivial)

/-- An iterator is refused only if its collection is unavailable. -/
theorem iter_browses (hi : h.Idle) (c : Nat) (name : String) :
    Browses (fun a => Excused h a.IsUnavailable) (iter c name) h := by
  refine .bind (.available hi c) fun r h₁ hr _ => ?_
  split
  · exact .pure fun _ => ⟨c, by simp [← hr]⟩
  · refine .bind (dropIter_browses name) fun _ h₂ _ _ => .collection ?_
    refine .cursors (f := fun _ => (h₂.collection c).storage.openCursor.2) rfl fun h₃ _ => ?_
    exact .modify ⟨rfl, rfl⟩ (.pure False.elim)

/-- An iterator moves unless its collection is unavailable. -/
theorem step_browses (hi : h.Idle) (t : Traversal) :
    Browses (fun r => Excused h (∃ f, r = .error f)) (step t) h := by
  refine .bind (.available hi t.collection) fun r h₁ hr _ => ?_
  split
  · exact .pure fun _ => ⟨t.collection, by simp [← hr]⟩
  · refine .collection (.cursors (f := fun _ => _) (LiveSequence.items_next _ _) fun h₂ _ => ?_)
    exact .pure fun ⟨_, hf⟩ => by cases hf

/-- Whether there is more is told unless the collection is unavailable. -/
theorem hasNext_browses (hi : h.Idle) (t : Traversal) :
    Browses (fun r => Excused h (∃ f, r = .error f)) (hasNext t) h := by
  refine .bind (.available hi t.collection) fun r h₁ hr _ => ?_
  split
  · exact .pure fun _ => ⟨t.collection, by simp [← hr]⟩
  · exact .collection (.pure fun ⟨_, hf⟩ => by cases hf)

/-- What is left is told in any case; it is nothing if the collection is unavailable. -/
theorem drain_browses (hi : h.Idle) (t : Traversal) : Browses (fun _ => True) (drain t) h := by
  refine .bind (.available hi t.collection) fun r h₁ hr _ => ?_
  split
  · exact .pure trivial
  · refine .collection (.cursors (f := fun _ => _) (LiveSequence.items_drain _ _) fun h₂ _ => ?_)
    exact .pure trivial

theorem withTraversal_browses {Q : Answer → Prop} {f : Traversal → Run E Answer} {name : String}
    (hf : ∀ t, Browses Q (f t) h) (hq : Q .noIterator) : Browses Q (withTraversal name f) h := by
  unfold withTraversal traversal?
  refine .get ?_
  cases hfound : h.traversals.lookup name with
  | none =>
    have hnone : Browses Q (Pure.pure .noIterator) h := .pure hq
    simpa [hfound] using hnone
  | some t => simpa [hfound] using hf t

variable [ServiceEntry E]

/-- An entry can always be looked at. -/
theorem view_browses {h₁ : Hub E} (entry : Option E) :
    Browses (fun a => Excused h a.IsUnavailable) (view entry) h₁ := .get (.pure False.elim)

/-- An entry is kept unless its collection is unavailable. -/
theorem hold_browses (hi : h.Idle) (c index : Nat) (name : String) :
    Browses (fun a => Excused h a.IsUnavailable) (hold c index name) h := by
  refine .bind (.available hi c) fun r h₁ hr _ => ?_
  split
  · exact .pure fun _ => ⟨c, by simp [← hr]⟩
  · refine .collection ?_
    cases (h₁.collection c).storage.items[index]? with
    | none => exact view_browses _
    | some e => exact .modify ⟨rfl, rfl⟩ (view_browses _)

/-- The answer of a step through an iterator. -/
theorem excused_view {r : Except Failure (Option E)} {h₁ : Hub E}
    (hr : Excused h (∃ f, r = .error f)) : Browses (fun a => Excused h a.IsUnavailable)
      (match r with | .ok entry => view entry | .error f => Pure.pure (.failed f)) h₁ := by
  cases r with
  | ok entry => exact view_browses entry
  | error f => exact .pure fun _ => hr ⟨f, rfl⟩

/-- **Reads.** While no lock is taken a read reaches an answer. -/
theorem execute_browses (nested : Nested E) (hi : h.Idle) {command : Command E}
    (hr : command.IsRead) :
    Browses (fun a => Excused h a.IsUnavailable) (execute nested command) h := by
  have there {c : Nat} {body : Run E Answer}
      (hb : Browses (fun a => Excused h a.IsUnavailable) body h) :
      Browses (fun a => Excused h a.IsUnavailable) (onCollection c body) h := by
    refine .collection ?_
    split
    · exact .pure False.elim
    · exact hb
  cases command with
  | ask c question => exact there (ask_browses hi c question)
  | iter c name => exact there (iter_browses hi c name)
  | hold c index name => exact there (hold_browses hi c index name)
  | tryNext name =>
    refine withTraversal_browses (fun t => ?_) False.elim
    exact (step_browses hi t).bind fun r _ hr _ => excused_view hr
  | next name =>
    refine withTraversal_browses (fun t => ?_) False.elim
    refine (step_browses hi t).bind fun r _ hr _ => ?_
    cases r with
    | ok entry => exact view_browses entry
    | error f => exact .pure False.elim
  | hasNext name =>
    refine withTraversal_browses (fun t => ?_) False.elim
    refine (hasNext_browses hi t).bind fun r _ hr _ => .pure ?_
    cases r with
    | ok b => exact False.elim
    | error f => exact fun _ => hr ⟨f, rfl⟩
  | drain name =>
    refine withTraversal_browses (fun t => ?_) False.elim
    exact (drain_browses hi t).bind fun entries _ _ _ => .get (.pure False.elim)
  | _ => cases hr

end Run

/-- A command that reads is carried out, and it answers that no service is there only if a
collection lacks what it needs. -/
theorem Hub.read_total [ServiceEntry E] {h : Hub E} (hi : h.Idle) {command : Command E}
    (hr : command.IsRead) (depth : Nat) :
    ∃ answer h', h.run (depth + 1) command = .ok (answer, h') ∧ h.Browsed h' ∧
    (answer.IsUnavailable → ∃ c, (h.collection c).check ≠ .ok ()) := by
  obtain ⟨answer, h₁, hrun, hb, hq⟩ := Run.execute_browses (Run.run depth) hi hr
  exact ⟨answer, _, run_ok hrun, hb.trans (Hush.browsed ⟨rfl, rfl⟩), hq⟩

end LiveServices
