import LiveServices.Proofs.Once.Yields

/-!
# Reads through iterators

What the reads of a collection do to its iterators, one command after the other: an iterator that is
asked for entries answers with what was ahead of its cursor, an iterator that is opened gets a
cursor of its own, and all other reads leave the iterators where they are (`Run.reads_execute`).
Nobody is told anything by a read.
-/

namespace LiveServices

variable {E : Type}

/-- The second hub differs from the first by what was looked at only. -/
structure Hub.Looked (h h' : Hub E) : Prop where
  collections : h'.collections = h.collections
  traversals : h'.traversals = h.traversals
  trace : h'.trace = h.trace

namespace Hub

variable {h h₁ h' : Hub E}

theorem Looked.refl (h : Hub E) : Looked h h := ⟨rfl, rfl, rfl⟩

theorem Looked.trans (h₁₂ : h.Looked h₁) (h₂₃ : h₁.Looked h') : h.Looked h' :=
  ⟨h₂₃.collections.trans h₁₂.collections, h₂₃.traversals.trans h₁₂.traversals,
    h₂₃.trace.trans h₁₂.trace⟩

theorem Looked.collection (hs : h.Looked h') (c : Nat) : h'.collection c = h.collection c := by
  rw [Hub.collection, hs.collections, Hub.collection]

theorem Looked.update (hs : h.Looked h') (c : Nat) (f : Collection E → Collection E) :
    (h.update c f).Looked (h'.update c f) :=
  ⟨congrArg (·.modify c f) hs.collections, hs.traversals, hs.trace⟩

/-- A collection that is not dropped is one of the hub. -/
theorem lt_length_of_present {c : Nat} (hd : (h.collection c).dropped = false) :
    c < h.collections.length := by
  refine Nat.lt_of_not_le fun hle => ?_
  rw [collection_of_length_le hle] at hd
  cases hd

end Hub

namespace Run

open Hub

variable {α : Type} {c : Nat} {lock : Lock} {h h' : Hub E} {t : Traversal} {answer : Answer}
  {name : String}

/-! ## Looking -/

/-- A section that only looks at its collection. -/
theorem looked_section {f : Collection E → α} {a : α}
    (hr : locked c lock (do pure (f (← collection c))) h = .ok (a, h')) : h.Looked h' := by
  obtain ⟨-, -, rfl⟩ := locked_pure_eq_ok.1 hr
  rw [update_update_of_inverse fun k => by rw [List.erase_cons_head]]
  exact ⟨rfl, rfl, rfl⟩

/-- Locks that are taken and given back. -/
theorem looked_locks {locks : List Lock} {u : PUnit}
    (hr : locks.forM (fun lock => locked c lock (pure () : Run E Unit)) h = .ok (u, h')) :
    h.Looked h' := by
  induction locks generalizing h with
  | nil =>
    obtain ⟨-, rfl⟩ := pure_eq_ok.1 hr
    exact .refl _
  | cons lock locks ih =>
    obtain ⟨_, h₁, hone, hrest⟩ := bind_eq_ok.1 hr
    exact (looked_section (f := fun _ => ()) hone).trans (ih hrest)

/-- The answer of the iterator of a name, if there is one. -/
theorem withTraversal_ok {f : Traversal → Run E Answer}
    (hr : withTraversal name f h = .ok (answer, h')) :
    answer = .noIterator ∧ h' = h ∨
      ∃ t, h.traversals.lookup name = some t ∧ f t h = .ok (answer, h') := by
  obtain ⟨found, h₁, hlook, hr⟩ := bind_eq_ok.1 hr
  obtain ⟨rfl, rfl⟩ : h.traversals.lookup name = found ∧ h = h₁ := pure_eq_ok.1 hlook
  cases hfound : h.traversals.lookup name with
  | none =>
    rw [hfound] at hr
    obtain ⟨rfl, rfl⟩ := pure_eq_ok.1 hr
    exact .inl ⟨rfl, rfl⟩
  | some t =>
    rw [hfound] at hr
    exact .inr ⟨t, rfl, hr⟩

/-- The answer of a collection, if it is there. -/
theorem onCollection_ok {body : Run E Answer} (hr : onCollection c body h = .ok (answer, h')) :
    answer = .noCollection ∧ h' = h ∨
      (h.collection c).dropped = false ∧ body h = .ok (answer, h') := by
  rw [onCollection, collection_bind] at hr
  cases hd : (h.collection c).dropped with
  | true =>
    rw [hd] at hr
    obtain ⟨rfl, rfl⟩ := pure_eq_ok.1 hr
    exact .inl ⟨rfl, rfl⟩
  | false =>
    rw [hd] at hr
    exact .inr ⟨rfl, hr⟩

/-! ## Iterators -/

/-- A storage of which the cursors were moved. -/
def stored (c : Nat) (s : LiveSequence E) (h : Hub E) : Hub E :=
  h.update c fun k => { k with storage := s }

/-- A step of an iterator. -/
theorem step_ok {r : Except Failure (Option E)} (hr : step t h = .ok (r, h')) :
    (∃ f, r = .error f) ∧ h.Looked h' ∨
      r = .ok ((h.collection t.collection).storage.next t.cursor).1 ∧
      (stored t.collection ((h.collection t.collection).storage.next t.cursor).2 h).Looked h' := by
  obtain ⟨checked, h₁, havailable, hr⟩ := bind_eq_ok.1 hr
  have hlook : h.Looked h₁ := looked_section havailable
  cases checked with
  | error f =>
    obtain ⟨rfl, rfl⟩ := pure_eq_ok.1 hr
    exact .inl ⟨⟨f, rfl⟩, hlook⟩
  | ok _ =>
    obtain ⟨rfl, rfl⟩ := pure_eq_ok.1 hr
    rw [← hlook.collection]
    exact .inr ⟨rfl, hlook.update ..⟩

/-- A drain of an iterator. -/
theorem drain_ok {entries : List E} (hr : drain t h = .ok (entries, h')) :
    entries = [] ∧ h.Looked h' ∨
      entries = ((h.collection t.collection).storage.drain t.cursor).1 ∧
      (stored t.collection ((h.collection t.collection).storage.drain t.cursor).2 h).Looked h' := by
  obtain ⟨checked, h₁, havailable, hr⟩ := bind_eq_ok.1 hr
  have hlook : h.Looked h₁ := looked_section havailable
  cases checked with
  | error f =>
    obtain ⟨rfl, rfl⟩ := pure_eq_ok.1 hr
    exact .inl ⟨rfl, hlook⟩
  | ok _ =>
    obtain ⟨rfl, rfl⟩ := pure_eq_ok.1 hr
    rw [← hlook.collection]
    exact .inr ⟨rfl, hlook.update ..⟩

theorem looked_hasNext {r : Except Failure Bool} (hr : hasNext t h = .ok (r, h')) : h.Looked h' := by
  obtain ⟨checked, h₁, havailable, hr⟩ := bind_eq_ok.1 hr
  have hlook : h.Looked h₁ := looked_section havailable
  cases checked with
  | error f =>
    obtain ⟨-, rfl⟩ := pure_eq_ok.1 hr
    exact hlook
  | ok _ =>
    obtain ⟨-, rfl⟩ := pure_eq_ok.1 hr
    exact hlook

/-- An iterator that is forgotten closes its cursor. -/
theorem dropIter_ok {dropped : Bool} (hr : dropIter name h = .ok (dropped, h')) :
    h.traversals.lookup name = none ∧ h' = h ∨
      ∃ t, h.traversals.lookup name = some t ∧
        h'.traversals = h.traversals.filter (fun entry => entry.1 != name) ∧
        h'.collections = (h.update t.collection fun k =>
          { k with storage := k.storage.closeCursor t.cursor }).collections ∧
        h'.trace = h.trace := by
  obtain ⟨found, h₁, hlook, hr⟩ := bind_eq_ok.1 hr
  obtain ⟨rfl, rfl⟩ : h.traversals.lookup name = found ∧ h = h₁ := pure_eq_ok.1 hlook
  cases hfound : h.traversals.lookup name with
  | none =>
    rw [hfound] at hr
    obtain ⟨-, rfl⟩ := pure_eq_ok.1 hr
    exact .inl ⟨rfl, rfl⟩
  | some t =>
    rw [hfound] at hr
    obtain ⟨_, h₂, hforgotten, hdone⟩ := bind_eq_ok.1 hr
    cases hforgotten
    obtain ⟨_, h₃, hfiltered, hdone⟩ := bind_eq_ok.1 hdone
    cases hfiltered
    obtain ⟨-, rfl⟩ := pure_eq_ok.1 hdone
    exact .inr ⟨t, rfl, rfl, rfl, rfl⟩

/-- The second hub comes after the first by a new iterator, with a cursor of its own. -/
structure Enters (c : Nat) (name : String) (h h' : Hub E) : Prop where
  collections : h'.collections = (stored c (h.collection c).storage.openCursor.2 h).collections
  traversals : h'.traversals = (name, ⟨c, (h.collection c).storage.opened⟩) :: h.traversals
  trace : h'.trace = h.trace

/-- An iterator that is opened takes the place of the one that has its name. -/
theorem iter_ok (hr : iter c name h = .ok (answer, h')) :
    (∃ f, answer = .failed f) ∧ h.Looked h' ∨
      answer = .done ∧ ∃ dropped h₁ h₂, h.Looked h₁ ∧ dropIter name h₁ = .ok (dropped, h₂) ∧
        Enters c name h₂ h' := by
  obtain ⟨checked, h₁, havailable, hr⟩ := bind_eq_ok.1 hr
  have hlook : h.Looked h₁ := looked_section havailable
  cases checked with
  | error f =>
    obtain ⟨rfl, rfl⟩ := pure_eq_ok.1 hr
    exact .inl ⟨⟨f, rfl⟩, hlook⟩
  | ok _ =>
    obtain ⟨dropped, h₂, hdropped, hr⟩ := bind_eq_ok.1 hr
    obtain ⟨_, _, hread, hr⟩ := bind_eq_ok.1 hr
    cases hread
    obtain ⟨_, _, hstored, hr⟩ := bind_eq_ok.1 hr
    cases hstored
    obtain ⟨_, _, hentered, hr⟩ := bind_eq_ok.1 hr
    cases hentered
    obtain ⟨rfl, rfl⟩ := pure_eq_ok.1 hr
    exact .inr ⟨rfl, dropped, h₁, h₂, hlook, hdropped, rfl, rfl, rfl⟩

/-- An iterator that is forgotten is not found any more, and the others are found as before. -/
theorem lookup_forgotten (l : List (String × Traversal)) (name other : String) :
    (l.filter fun entry => entry.1 != name).lookup other =
      if other = name then none else l.lookup other := by
  induction l with
  | nil => simp
  | cons entry l ih =>
    obtain ⟨key, t⟩ := entry
    rw [List.filter_cons]
    by_cases hkey : key = name
    · subst hkey
      rw [if_neg (by simp), ih, List.lookup_cons]
      split
      · rfl
      · next hother => rw [beq_eq_false_iff_ne.2 hother]
    · rw [if_pos (by simpa using hkey), List.lookup_cons, List.lookup_cons, ih]
      cases hother : other == key with
      | true =>
        obtain rfl := beq_iff_eq.1 hother
        rw [if_neg hkey, if_neg hkey]
      | false => rfl

end Run

/-! ## Commands -/

namespace Run

open Hub

variable {c : Nat} {h h' : Hub Entry} {t : Traversal} {answer : Answer} {name : String}

/-- The view of an entry shows its service. -/
theorem view_ok {entry : Option Entry} (hr : view entry h = .ok (answer, h')) :
    h' = h ∧ ∃ shown : Option EntryView, answer = .entry shown ∧
      shown.toList.map EntryView.id = entry.toList.map fun e => e.service.id := by
  obtain ⟨g, h₁, hget, hr⟩ := bind_eq_ok.1 hr
  cases hget
  obtain ⟨rfl, rfl⟩ := pure_eq_ok.1 hr
  refine ⟨rfl, _, rfl, ?_⟩
  cases entry <;> rfl

/-- A read that leaves the iterators where they are. -/
theorem reads_of_looked {command : Command Entry} (hs : h.Looked h')
    (hlog : ∀ log : Yields, log.noted command answer = log) :
    h.Reads c command answer h'.traversals (h'.collection c) ∧ h'.trace = h.trace := by
  rw [hs.traversals, hs.collection]
  exact ⟨.rests (fun _ _ hfound => hfound) (fun _ _ hid => hid) rfl hlog, hs.trace⟩

/-- A read that moves the cursor of an iterator past what it answers with. -/
theorem reads_of_stored {command : Command Entry} {s : LiveSequence Entry} {out : List Entry}
    (hlen : c < h.collections.length) (hfound : h.traversals.lookup name = some t)
    (hout : (h.collection c).storage.ahead t.cursor = out ++ s.ahead t.cursor)
    (ha : ∀ d, s.ahead d ⊆ (h.collection c).storage.ahead d)
    (ho : s.opened = (h.collection c).storage.opened) (hs : (stored c s h).Looked h')
    (hlog : ∀ log : Yields, log.noted command answer =
      log.give name (out.map fun e => e.service.id)) :
    h.Reads c command answer h'.traversals (h'.collection c) ∧ h'.trace = h.trace := by
  have hk : h'.collection c = { h.collection c with storage := s } := by
    rw [hs.collection]
    exact collection_update_self hlen
  rw [hk]
  refine ⟨.yields hfound hs.traversals ?_ (fun d => List.map_subset _ (ha d)) ho hlog, hs.trace⟩
  rw [Collection.ahead, hout, List.map_append]
  rfl

/-- A read that finds nothing ahead of an iterator, or that is refused. -/
theorem reads_of_nothing {command : Command Entry} (hfound : h.traversals.lookup name = some t)
    (hs : h.Looked h') (hlog : ∀ log : Yields, log.noted command answer = log.give name []) :
    h.Reads c command answer h'.traversals (h'.collection c) ∧ h'.trace = h.trace := by
  rw [hs.traversals, hs.collection]
  exact ⟨.yields hfound rfl rfl (fun _ _ hid => hid) rfl hlog, hs.trace⟩

/-- A step of an iterator, with the answer to it. -/
theorem reads_of_step {command : Command Entry} {entry : Option Entry} {h₁ : Hub Entry}
    (hlen : t.collection < h.collections.length) (hfound : h.traversals.lookup name = some t)
    (hstep : step t h = .ok (.ok entry, h₁)) (hview : view entry h₁ = .ok (answer, h'))
    (hlog : ∀ (log : Yields) (shown : Option EntryView), log.noted command (.entry shown) =
      log.give name (shown.toList.map EntryView.id)) :
    h.Reads t.collection command answer h'.traversals (h'.collection t.collection) ∧
      h'.trace = h.trace := by
  obtain ⟨rfl, shown, rfl, hshown⟩ := view_ok hview
  rcases step_ok hstep with ⟨⟨f, hf⟩, -⟩ | ⟨hentry, hs⟩
  · cases hf
  · cases hentry
    refine reads_of_stored hlen hfound (LiveSequence.ahead_next ..)
      (LiveSequence.ahead_next_subset _ _) (LiveSequence.opened_next ..) hs fun log => ?_
    rw [hlog, hshown]

theorem looked_of_failed {f : Failure} (hstep : step t h = .ok (.error f, h')) : h.Looked h' := by
  rcases step_ok hstep with ⟨-, hs⟩ | ⟨hr, -⟩
  · exact hs
  · cases hr

/-- A drain of an iterator, with the answer to it. -/
theorem reads_of_drain {entries : List Entry} (hlen : t.collection < h.collections.length)
    (hfound : h.traversals.lookup name = some t) (hdrain : drain t h = .ok (entries, h')) :
    h.Reads t.collection (.drain name) (.entries (entries.map (ServiceEntry.view h'.released)))
      h'.traversals (h'.collection t.collection) ∧ h'.trace = h.trace := by
  have hshown : (entries.map (ServiceEntry.view h'.released)).map EntryView.id =
      entries.map fun e => e.service.id := by
    rw [List.map_map]
    rfl
  have hlog (log : Yields) : log.noted (.drain name : Command Entry)
      (.entries (entries.map (ServiceEntry.view h'.released))) =
        log.give name (entries.map fun e => e.service.id) := congrArg (log.give name) hshown
  rcases drain_ok hdrain with ⟨rfl, hs⟩ | ⟨rfl, hs⟩
  · exact reads_of_nothing hfound hs hlog
  · exact reads_of_stored hlen hfound (LiveSequence.ahead_drain ..)
      (LiveSequence.ahead_drain_subset _ _) (LiveSequence.opened_drain ..) hs hlog

/-- What is left of the iterators when one of them is forgotten. -/
theorem dropIter_rests {dropped : Bool} (hlen : c < h.collections.length)
    (hown : ∀ t, h.traversals.lookup name = some t → t.collection = c)
    (hr : dropIter name h = .ok (dropped, h')) :
    (∀ other t, h'.traversals.lookup other = some t → h.traversals.lookup other = some t) ∧
    (∀ d, (h'.collection c).ahead d ⊆ (h.collection c).ahead d) ∧
    (h'.collection c).storage.opened = (h.collection c).storage.opened ∧
    c < h'.collections.length ∧ h'.trace = h.trace := by
  rcases dropIter_ok hr with ⟨-, rfl⟩ | ⟨t, hfound, ht, hcollections, htrace⟩
  · exact ⟨fun _ _ hl => hl, fun _ _ hid => hid, rfl, hlen, rfl⟩
  · obtain rfl := hown t hfound
    have hk : h'.collection t.collection = { h.collection t.collection with
        storage := (h.collection t.collection).storage.closeCursor t.cursor } := by
      rw [Hub.collection, hcollections]
      exact collection_update_self hlen
    refine ⟨fun other t' hl => ?_, fun d => ?_, ?_, ?_, htrace⟩
    · rw [ht, lookup_forgotten] at hl
      split at hl
      · cases hl
      · exact hl
    · rw [hk]
      exact List.map_subset _ (LiveSequence.ahead_closeCursor_subset _ _ d)
    · rw [hk]
      rfl
    · rw [hcollections]
      simpa [Hub.update] using hlen

/-- An iterator that is opened. -/
theorem reads_iter (hlen : c < h.collections.length)
    (hown : ∀ t, h.traversals.lookup name = some t → t.collection = c)
    (hr : iter c name h = .ok (answer, h')) :
    h.Reads c (.iter c name) answer h'.traversals (h'.collection c) ∧ h'.trace = h.trace := by
  rcases iter_ok hr with ⟨⟨f, rfl⟩, hlook⟩ | ⟨rfl, dropped, h₁, h₂, hlook, hdropped, hentered⟩
  · exact reads_of_looked hlook fun _ => rfl
  obtain ⟨ht, ha, ho, hlen₂, htrace⟩ := dropIter_rests (c := c) (hlook.collections ▸ hlen)
    (hlook.traversals ▸ hown) hdropped
  rw [hlook.traversals] at ht
  rw [hlook.collection] at ha ho
  have hk : h'.collection c =
      { h₂.collection c with storage := (h₂.collection c).storage.openCursor.2 } := by
    rw [Hub.collection, hentered.collections]
    exact collection_update_self hlen₂
  have hfound (other : String) (t : Traversal) (hl : h'.traversals.lookup other = some t) :
      other = name ∧ t = ⟨c, (h.collection c).storage.opened⟩ ∨
        other ≠ name ∧ h.traversals.lookup other = some t := by
    rw [hentered.traversals, List.lookup_cons] at hl
    by_cases hother : other = name
    · subst hother
      rw [beq_self_eq_true] at hl
      exact .inl ⟨rfl, ho ▸ (Option.some.inj hl).symm⟩
    · rw [beq_eq_false_iff_ne.2 hother] at hl
      exact .inr ⟨hother, ht other t hl⟩
  refine ⟨.opens hfound (fun d hd => ?_) ?_ fun _ => rfl,
    (hentered.trace.trans htrace).trans hlook.trace⟩
  · refine List.Subset.trans ?_ (ha d)
    rw [hk, Collection.ahead, LiveSequence.ahead_openCursor (ho ▸ hd)]
    exact fun _ hid => hid
  · rw [hk, ← ho]
    rfl

theorem looked_hold {index : Nat} (hr : hold c index name h = .ok (answer, h')) : h.Looked h' := by
  obtain ⟨checked, h₁, havailable, hr⟩ := bind_eq_ok.1 hr
  have hlook : h.Looked h₁ := looked_section havailable
  cases checked with
  | error f =>
    obtain ⟨-, rfl⟩ := pure_eq_ok.1 hr
    exact hlook
  | ok _ =>
    obtain ⟨k, h₂, hread, hr⟩ := bind_eq_ok.1 hr
    cases hread
    cases hitem : (h₁.collection c).storage.items[index]? with
    | none =>
      simp only [hitem] at hr
      obtain ⟨rfl, -⟩ := view_ok hr
      exact hlook
    | some e =>
      simp only [hitem] at hr
      obtain ⟨_, h₂, hkept, hr⟩ := bind_eq_ok.1 hr
      cases hkept
      obtain ⟨rfl, -⟩ := view_ok hr
      exact ⟨hlook.collections, hlook.traversals, hlook.trace⟩

/-- **Reads.** What a read of the one collection that is there does to its iterators. -/
theorem reads_execute (nested : Nested Entry) {command : Command Entry}
    (hpresent : (h.collection c).dropped = false)
    (halone : ∀ d, d ≠ c → (h.collection d).dropped = true)
    (hown : ∀ name t, h.traversals.lookup name = some t → t.collection = c)
    (hcommand : command.IsRead ∨ ∃ name, command = .dropIter name)
    (hr : execute nested command h = .ok (answer, h')) :
    h.Reads c command answer h'.traversals (h'.collection c) ∧ h'.trace = h.trace := by
  have hlen := lt_length_of_present hpresent
  rcases hcommand with hread | ⟨name, rfl⟩
  · cases command with
    | ask d question =>
      rcases onCollection_ok hr with ⟨rfl, rfl⟩ | ⟨-, hr⟩
      · exact reads_of_looked (.refl _) fun _ => rfl
      · obtain ⟨_, h₁, hlocks, hr⟩ := bind_eq_ok.1 hr
        obtain ⟨g, h₂, hget, hr⟩ := bind_eq_ok.1 hr
        cases hget
        obtain ⟨-, rfl⟩ := pure_eq_ok.1 hr
        exact reads_of_looked (looked_locks hlocks) fun _ => rfl
    | iter d name =>
      rcases onCollection_ok hr with ⟨rfl, rfl⟩ | ⟨hthere, hr⟩
      · exact reads_of_looked (.refl _) fun _ => rfl
      · obtain rfl : d = c := by
          by_contra hd
          rw [halone d hd] at hthere
          cases hthere
        exact reads_iter hlen (hown name) hr
    | hold d index name =>
      rcases onCollection_ok hr with ⟨rfl, rfl⟩ | ⟨-, hr⟩
      · exact reads_of_looked (.refl _) fun _ => rfl
      · exact reads_of_looked (looked_hold hr) fun _ => rfl
    | tryNext name =>
      rcases withTraversal_ok hr with ⟨rfl, rfl⟩ | ⟨t, hfound, hr⟩
      · exact reads_of_looked (.refl _) fun _ => rfl
      · obtain rfl := hown name t hfound
        obtain ⟨r, h₁, hstep, hr⟩ := bind_eq_ok.1 hr
        cases r with
        | ok entry => exact reads_of_step hlen hfound hstep hr fun _ _ => rfl
        | error f =>
          obtain ⟨rfl, rfl⟩ := pure_eq_ok.1 hr
          exact reads_of_looked (looked_of_failed hstep) fun _ => rfl
    | next name =>
      rcases withTraversal_ok hr with ⟨rfl, rfl⟩ | ⟨t, hfound, hr⟩
      · exact reads_of_looked (.refl _) fun _ => rfl
      · obtain rfl := hown name t hfound
        obtain ⟨r, h₁, hstep, hr⟩ := bind_eq_ok.1 hr
        cases r with
        | ok entry => exact reads_of_step hlen hfound hstep hr fun _ _ => rfl
        | error f =>
          -- an iterator that is refused answers like one that is at its end
          obtain ⟨rfl, rfl⟩ := pure_eq_ok.1 hr
          exact reads_of_nothing hfound (looked_of_failed hstep) fun _ => rfl
    | hasNext name =>
      rcases withTraversal_ok hr with ⟨rfl, rfl⟩ | ⟨t, hfound, hr⟩
      · exact reads_of_looked (.refl _) fun _ => rfl
      · obtain ⟨r, h₁, hnext, hr⟩ := bind_eq_ok.1 hr
        obtain ⟨-, rfl⟩ := pure_eq_ok.1 hr
        exact reads_of_looked (looked_hasNext hnext) fun _ => rfl
    | drain name =>
      rcases withTraversal_ok hr with ⟨rfl, rfl⟩ | ⟨t, hfound, hr⟩
      · exact reads_of_looked (.refl _) fun _ => rfl
      · obtain rfl := hown name t hfound
        obtain ⟨entries, h₁, hdrain, hr⟩ := bind_eq_ok.1 hr
        obtain ⟨g, h₂, hget, hr⟩ := bind_eq_ok.1 hr
        cases hget
        obtain ⟨rfl, rfl⟩ := pure_eq_ok.1 hr
        exact reads_of_drain hlen hfound hdrain
    | _ => cases hread
  · obtain ⟨dropped, h₁, hdropped, hr⟩ := bind_eq_ok.1 hr
    obtain ⟨rfl, rfl⟩ := pure_eq_ok.1 hr
    obtain ⟨ht, ha, ho, -, htrace⟩ := dropIter_rests hlen (hown name) hdropped
    exact ⟨.rests ht ha ho fun _ => rfl, htrace⟩

end Run

end LiveServices
