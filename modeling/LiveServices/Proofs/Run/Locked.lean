import LiveServices.Proofs.Run.Keeps

/-!
# Work under a lock

A section is work under a lock of one collection. It is computed here on hubs of the form
`h.setTo c k past`, in which every change of the collection `c` is one more step of `k`
(`Hub.update_setTo`): `locked_eq_ok` says when a section reaches a result, and `store_setTo`,
`unstore_setTo` and `storedSize_setTo` say what the work on the storage comes to.

The states that a collection goes through under a lock are in the past of the hub like all
others. But whoever has the lock of the index has it in all of them. `Hub.Shielded` says so of a
section: the only state of it that others can see is the one that it found.
-/

namespace LiveServices

variable {E : Type}

/-! ## One collection at a time -/

namespace Hub

variable {h : Hub E} {c d : Nat} {k : Collection E} {past recent : List (Nat × Collection E)}

/-- The hub with a collection in this state, and with this past. -/
def setTo (h : Hub E) (c : Nat) (k : Collection E) (past : List (Nat × Collection E)) : Hub E :=
  { h with collections := h.collections.set c k, past := past }

/-- A collection that stays in its state leaves the past only. -/
theorem setTo_self (h : Hub E) (c : Nat) (past : List (Nat × Collection E)) :
    h.setTo c (h.collection c) past = { h with past := past } := by
  have hset : h.collections.set c (h.collection c) = h.collections := by
    apply List.ext_getElem?
    intro i
    by_cases hi : c = i
    · subst hi
      -- A number without a collection names the absent one, but the list has nothing there.
      cases hk : h.collections[c]? with
      | none => simp [List.getElem?_eq_none_iff.1 hk]
      | some k =>
        obtain ⟨hc, rfl⟩ := List.getElem?_eq_some_iff.1 hk
        simp [collection, hc]
    · simp [hi]
  rw [setTo, hset]

/-- A collection that is not there is absent. -/
theorem collection_of_length_le (hc : h.collections.length ≤ c) : h.collection c = .absent := by
  rw [collection, List.getElem?_eq_none hc]
  rfl

/-- A collection that is not absent is one of the hub. -/
theorem lt_length_of_open (ho : (h.collection c).closed = false) : c < h.collections.length := by
  refine Nat.lt_of_not_le fun hc => ?_
  rw [collection_of_length_le hc] at ho
  cases ho

/-- A collection that has services is one of the hub. -/
theorem lt_length_of_index (hi : (h.collection c).index ≠ []) : c < h.collections.length := by
  refine Nat.lt_of_not_le fun hc => ?_
  rw [collection_of_length_le hc] at hi
  exact hi rfl

theorem collection_setTo (h : Hub E) (c d : Nat) (k : Collection E)
    (past : List (Nat × Collection E)) :
    (h.setTo c k past).collection d =
      if d = c ∧ c < h.collections.length then k else h.collection d := by
  by_cases hd : d = c
  · subst hd
    by_cases hc : d < h.collections.length
    · simp [setTo, collection, hc]
    · simp [setTo, collection, hc]
  · simp [setTo, collection, hd, Ne.symm hd]

theorem collection_setTo_self (hc : c < h.collections.length) :
    (h.setTo c k past).collection c = k := by
  rw [collection_setTo, if_pos ⟨rfl, hc⟩]

theorem collection_setTo_of_ne (hd : d ≠ c) :
    (h.setTo c k past).collection d = h.collection d := by
  rw [collection_setTo, if_neg fun hdc => hd hdc.1]

/-- The change of a collection puts it into another state. -/
theorem update_eq_setTo (f : Collection E → Collection E) :
    h.update c f = h.setTo c (f (h.collection c)) ((c, h.collection c) :: h.past) := by
  have hset : h.collections.modify c f = h.collections.set c (f (h.collection c)) := by
    apply List.ext_getElem?
    intro i
    by_cases hi : c = i
    · subst hi
      -- past its end, both ways of changing a list leave it alone
      cases hk : h.collections[c]? with
      | none => simp [List.getElem?_eq_none_iff.1 hk]
      | some k => simp [collection, (List.getElem?_eq_some_iff.1 hk).1]
    · simp [hi]
  rw [update, hset, setTo]

/-- One more change of the collection. -/
theorem update_setTo (hc : c < h.collections.length) (f : Collection E → Collection E) :
    (h.setTo c k past).update c f = h.setTo c (f k) ((c, k) :: past) := by
  rw [update_eq_setTo, collection_setTo_self hc]
  simp [setTo]

/-- A change of a collection that is not there leaves the past only. -/
theorem update_of_length_le (hc : h.collections.length ≤ c) (f : Collection E → Collection E) :
    h.update c f = { h with past := (c, .absent) :: h.past } := by
  rw [update, collection_of_length_le hc, List.modify_eq_self hc]

theorem update_past_of_length_le (hc : h.collections.length ≤ c) (f : Collection E → Collection E) :
    ({ h with past := past } : Hub E).update c f = { h with past := (c, .absent) :: past } :=
  update_of_length_le (h := { h with past := past }) hc f

theorem setTo_of_length_le (hc : h.collections.length ≤ c) :
    h.setTo c k past = { h with past := past } := by
  rw [setTo, List.set_eq_of_length_le hc]

/-- A change that is undone leaves the past only. -/
theorem update_update_of_inverse {f g : Collection E → Collection E} (hfg : ∀ k, g (f k) = k) :
    (h.update c f).update c g =
      { h with past := (c, (h.update c f).collection c) :: (c, h.collection c) :: h.past } := by
  have hmod : (h.collections.modify c f).modify c g = h.collections := by
    apply List.ext_getElem?
    intro i
    by_cases hi : c = i
    · subst hi
      simp [Function.comp_def, hfg]
    · simp [hi]
  simp only [update, hmod]

/-- The states that a section on a collection went through: all but the one that it found were
under the lock of the index. -/
def Shielded (h : Hub E) (c : Nat) (recent : List (Nat × Collection E)) : Prop :=
  ∀ p ∈ recent, Lock.index ∈ p.2.locks ∨ p = (c, h.collection c)

/-- A section that changes its collection: it found a state, went through others, and gives the
lock back in the last of them. -/
theorem shielded_of_work (hp : ∀ p ∈ recent, Lock.index ∈ p.2.locks) (hk : Lock.index ∈ k.locks) :
    h.Shielded c ((c, k) :: recent ++ [(c, h.collection c)]) := by
  intro p hp'
  rcases List.mem_append.1 hp' with hp' | hp'
  · rcases List.mem_cons.1 hp' with rfl | hp'
    · exact .inl hk
    · exact .inl (hp p hp')
  · exact .inr (List.mem_singleton.1 hp')

theorem past_of_work (k k' : Collection E) :
    (c, k') :: (recent ++ (c, k) :: past) = (c, k') :: recent ++ [(c, k)] ++ past := by simp

/-- A section that gives the lock back with its collection as it was found leaves the past only. -/
theorem giveBack_of_idle (hc : c < h.collections.length) (hk : h.collection c = k) :
    (h.setTo c { k with locks := .index :: k.locks } (recent ++ (c, k) :: past)).update c
        (fun k => { k with locks := k.locks.erase .index }) =
      { h with past :=
          (c, { k with locks := .index :: k.locks }) :: recent ++ [(c, k)] ++ past } := by
  subst hk
  rw [update_setTo hc, past_of_work, List.erase_cons_head]
  exact setTo_self h c _

/-- A section that ends without a change of its collection. -/
theorem shielded_of_idle (h : Hub E) (c : Nat) :
    h.Shielded c [(c, (h.update c fun k => { k with locks := .index :: k.locks }).collection c),
      (c, h.collection c)] := by
  intro p hp
  rcases List.mem_cons.1 hp with rfl | hp
  · rw [collection_update]
    split
    · exact .inl List.mem_cons_self
    · exact .inr rfl
  · exact .inr (List.mem_singleton.1 hp)

end Hub

/-! ## Locks -/

namespace Hub

variable {c d : Nat} {lock : Lock} {h h₁ : Hub E}

/-- The hub with a lock taken. -/
def taking (h : Hub E) (d : Nat) (lock : Lock) : Hub E :=
  h.update d fun k => { k with locks := lock :: k.locks }

/-- The hub with a lock given back. -/
def giving (h : Hub E) (d : Nat) (lock : Lock) : Hub E :=
  h.update d fun k => { k with locks := k.locks.erase lock }

theorem length_taking : (h.taking d lock).collections.length = h.collections.length :=
  length_collections_update

theorem length_giving : (h.giving d lock).collections.length = h.collections.length :=
  length_collections_update

/-- A lock is given back as it was taken. -/
theorem locks_giving (hl : (h₁.collection c).locks = ((h.taking d lock).collection c).locks)
    (hlength : h₁.collections.length = (h.taking d lock).collections.length) :
    ((h₁.giving d lock).collection c).locks = (h.collection c).locks := by
  rw [taking, collection_update] at hl
  rw [giving, collection_update, hlength, length_taking]
  split at hl
  · next hd =>
    rw [if_pos hd]
    show List.erase (h₁.collection c).locks _ = _
    rw [hl, List.erase_cons_head]
  · next hd =>
    rw [if_neg hd]
    exact hl

end Hub

namespace Run

variable {α : Type} {c : Nat} {lock : Lock} {h h' : Hub E}

theorem collection_bind {f : Collection E → Run E α} :
    (collection c >>= f) h = f (h.collection c) h := rfl

theorem update_bind {f : Collection E → Collection E} {g : Unit → Run E α} :
    (update c f >>= g) h = g () (h.update c f) := rfl

theorem record_bind {m : Moment E} {g : Unit → Run E α} :
    (record m >>= g) h = g () (h.record m) := rfl

theorem nextAttempt_bind {g : Nat → Run E α} :
    (nextAttempt >>= g) h = g (h.attempts + 1) { h with attempts := h.attempts + 1 } := rfl

theorem update_eq_ok {f : Collection E → Collection E} {u : Unit} :
    update c f h = .ok (u, h') ↔ h.update c f = h' := by
  show (.ok ((), h.update c f) : Except Halt (Unit × Hub E)) = _ ↔ _
  simp

theorem acquire_of_held (hl : lock ∈ (h.collection c).locks) :
    acquire c lock h = .error (.deadlock lock) := by
  have hc : (h.collection c).locks.contains lock = true := List.contains_iff_mem.2 hl
  show (if (h.collection c).locks.contains lock = true then _ else _ : Run E Unit) h = _
  rw [if_pos hc]
  rfl

theorem acquire_of_free (hl : lock ∉ (h.collection c).locks) :
    acquire c lock h = .ok ((), h.update c fun k => { k with locks := lock :: k.locks }) := by
  have hc : ¬ (h.collection c).locks.contains lock = true :=
    fun hc => hl (List.contains_iff_mem.1 hc)
  show (if (h.collection c).locks.contains lock = true then _ else _ : Run E Unit) h = _
  rw [if_neg hc]
  rfl

/-- A section whose lock is held waits for it. -/
theorem locked_of_held {body : Run E α} (hl : lock ∈ (h.collection c).locks) :
    locked c lock body h = .error (.deadlock lock) := by
  show (acquire c lock h >>= _) = _
  rw [acquire_of_held hl]
  rfl

/-- A section whose lock is free ends as its work does, and gives the lock back. -/
theorem locked_of_free {body : Run E α} (hl : lock ∉ (h.collection c).locks) :
    locked c lock body h =
      (body (h.update c fun k => { k with locks := lock :: k.locks })).map fun p =>
        (p.1, p.2.update c fun k => { k with locks := k.locks.erase lock }) := by
  show (acquire c lock h >>= fun p => body p.2 >>= fun q => _) = _
  rw [acquire_of_free hl]
  show (body (h.update c fun k => { k with locks := lock :: k.locks }) >>= fun q => _) = _
  cases body (h.update c fun k => { k with locks := lock :: k.locks }) with
  | error halt => rfl
  | ok p => rfl

/-- **Locks.** A section reaches a result exactly when its lock was free and its work reaches
one. -/
theorem locked_eq_ok {body : Run E α} {a : α} :
    locked c lock body h = .ok (a, h') ↔ lock ∉ (h.collection c).locks ∧ ∃ h₁,
      body (h.update c fun k => { k with locks := lock :: k.locks }) = .ok (a, h₁) ∧
      h₁.update c (fun k => { k with locks := k.locks.erase lock }) = h' := by
  constructor
  · intro hr
    obtain ⟨_, h₀, hacq, hr⟩ := bind_eq_ok.1 hr
    -- A lock that is held halts the run before the work.
    by_cases hl : lock ∈ (h.collection c).locks
    · rw [acquire_of_held hl] at hacq
      cases hacq
    · rw [acquire_of_free hl] at hacq
      cases hacq
      obtain ⟨b, h₁, hb, hr⟩ := bind_eq_ok.1 hr
      obtain ⟨_, h₂, hg, hr⟩ := bind_eq_ok.1 hr
      obtain ⟨rfl, rfl⟩ := pure_eq_ok.1 hr
      exact ⟨hl, h₁, hb, update_eq_ok.1 hg⟩
  · rintro ⟨hl, h₁, hb, rfl⟩
    refine bind_eq_ok.2 ⟨(), _, acquire_of_free hl, ?_⟩
    refine bind_eq_ok.2 ⟨a, h₁, hb, ?_⟩
    rfl

/-- A section that only looks at its collection. -/
theorem locked_pure_eq_ok {f : Collection E → α} {a : α} :
    locked c lock (do pure (f (← collection c))) h = .ok (a, h') ↔
      lock ∉ (h.collection c).locks ∧
      f ((h.update c fun k => { k with locks := lock :: k.locks }).collection c) = a ∧
      (h.update c fun k => { k with locks := lock :: k.locks }).update c
        (fun k => { k with locks := k.locks.erase lock }) = h' := by
  simp only [locked_eq_ok, collection_bind, pure_eq_ok]
  constructor
  · rintro ⟨hl, h₁, ⟨ha, rfl⟩, hh⟩
    exact ⟨hl, ha, hh⟩
  · rintro ⟨hl, ha, hh⟩
    exact ⟨hl, _, ⟨ha, rfl⟩, hh⟩

end Run

/-! ## The storage within a section -/

namespace Run

variable {α : Type} {c : Nat} {h h' : Hub E} {k : Collection E} {past : List (Nat × Collection E)}

/-- Work on the storage that does not depend on which locks are held. -/
theorem onStorage_setTo (hc : c < h.collections.length) {f : Collection E → α × LiveSequence E}
    {a : α} (hf : ∀ locks, f { k with locks := locks } = f k)
    (hr : locked c .storage (do
      let done := f (← collection c)
      update c fun k => { k with storage := done.2 }
      pure done.1) (h.setTo c k past) = .ok (a, h')) :
    (f k).1 = a ∧ ∃ recent, h' = h.setTo c { k with storage := (f k).2 } (recent ++ past) ∧
      (.index ∈ k.locks → ∀ p ∈ recent, .index ∈ p.2.locks) := by
  simp only [locked_eq_ok, Hub.collection_setTo_self hc, Hub.update_setTo hc,
    collection_bind, update_bind, pure_eq_ok, hf] at hr
  obtain ⟨hs, h₁, ⟨rfl, rfl⟩, rfl⟩ := hr
  -- The states in between: changed under the lock, unchanged under the lock, as it was found.
  refine ⟨rfl, [(c, { k with storage := (f k).2, locks := .storage :: k.locks }),
    (c, { k with locks := .storage :: k.locks }), (c, k)], ?_, ?_⟩
  · rw [Hub.update_setTo hc]
    simp
  · intro hi
    simp [hi]

variable [ServiceEntry E]

/-- The storage takes an entry or refuses it. -/
theorem store_setTo (hc : c < h.collections.length) {entry : E} {taken : Bool}
    (hr : store c entry (h.setTo c k past) = .ok (taken, h')) :
    (k.storage.append k.mode entry).1 = taken ∧ ∃ recent,
      h' = h.setTo c { k with storage := (k.storage.append k.mode entry).2 } (recent ++ past) ∧
      (.index ∈ k.locks → ∀ p ∈ recent, .index ∈ p.2.locks) :=
  onStorage_setTo (f := fun k => k.storage.append k.mode entry) hc (fun _ => rfl) hr

/-- The storage gives an entry back, if it has an equal one. -/
theorem unstore_setTo (hc : c < h.collections.length) {entry : E} {found : Bool}
    (hr : unstore c entry (h.setTo c k past) = .ok (found, h')) :
    (k.storage.removeOne entry).1 = found ∧ ∃ recent,
      h' = h.setTo c { k with storage := (k.storage.removeOne entry).2 } (recent ++ past) ∧
      (.index ∈ k.locks → ∀ p ∈ recent, .index ∈ p.2.locks) :=
  onStorage_setTo (f := fun k => k.storage.removeOne entry) hc (fun _ => rfl) hr

omit [ServiceEntry E] in
theorem storedSize_setTo (hc : c < h.collections.length) {size : Nat}
    (hr : storedSize c (h.setTo c k past) = .ok (size, h')) :
    k.size = size ∧ ∃ recent, h' = h.setTo c k (recent ++ past) ∧
      (.index ∈ k.locks → ∀ p ∈ recent, .index ∈ p.2.locks) := by
  simp only [storedSize, locked_pure_eq_ok, Hub.collection_setTo_self hc, Hub.update_setTo hc,
    List.erase_cons_head] at hr
  obtain ⟨hs, rfl, rfl⟩ := hr
  refine ⟨rfl, [(c, { k with locks := .storage :: k.locks }), (c, k)], rfl, ?_⟩
  intro hi
  simp [hi]

end Run

end LiveServices
