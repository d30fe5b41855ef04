import LiveServices.Proofs.Run.Locked

/-!
# Critical sections

What is decided about a service is decided under the lock of the index. This file says exactly
what the hub is after each of these sections: `consider_ok` for the admission of a service,
`retract_ok` for its retraction, `close_ok` and `clear_ok` for the two sections of a shutdown. A
section on one collection changes that collection by a pure function (`Collection.enter`,
`Collection.leave`, `Collection.cleared`) and leaves the others and the registry alone;
`Hub.Section` collects what all of them leave alone. The attachment of a listener is a section
of its own kind, under the lock of the listeners (`addLifecycleListener_ok`,
`addStateListener_ok`).
-/

namespace LiveServices

variable {E : Type}

namespace Collection

variable [ServiceEntry E]

/-- The collection with a service admitted: its holding is indexed and its entry is stored. -/
def enter (k : Collection E) (holding : Holding E) : Collection E :=
  { k with
    index := Roster.insert Holding.id holding k.index
    storage := (k.storage.append k.mode holding.entry).2 }

/-- The collection without the service of a holding. -/
def leave (k : Collection E) (holding : Holding E) : Collection E :=
  { k with
    index := Roster.erase Holding.id holding.id k.index
    storage := (k.storage.removeOne holding.entry).2 }

omit [ServiceEntry E] in
/-- The collection without services. -/
def cleared (k : Collection E) : Collection E := { k with index := [], storage := k.storage.clear }

omit [ServiceEntry E] in
theorem hasIdentity_iff {k : Collection E} {id : UInt64} :
    k.hasIdentity id = true ↔ id ∈ k.identities := List.contains_iff_mem

/-- A service that is new comes to those that were in the collection. -/
theorem identities_enter {k : Collection E} {holding : Holding E}
    (hn : k.hasIdentity holding.id = false) :
    (k.enter holding).identities.Perm (holding.id :: k.identities) := by
  refine (Roster.insert_perm fun b hb hid => ?_).map Holding.id
  have hmem : holding.id ∈ k.identities := hid ▸ List.mem_map_of_mem hb
  rw [hasIdentity_iff.2 hmem] at hn
  cases hn

theorem identities_leave (k : Collection E) (holding : Holding E) :
    (k.leave holding).identities = k.identities.filter (· != holding.id) :=
  Roster.map_erase ..

end Collection

/-! ## Admission -/

namespace Hub

/-- The hub after an attempt to make an entry began. -/
def attempt (h : Hub E) (c : Nat) (id : UInt64) : Hub E :=
  { h with
    attempts := h.attempts + 1
    trace := .attempted c (h.attempts + 1) id :: h.trace }

/-- The hub after an attempt made an entry. -/
def creation (h : Hub E) (c : Nat) (id : UInt64) (hasRelease : Bool) : Hub E :=
  (h.attempt c id).record (.created c (h.attempts + 1) id hasRelease)

end Hub

section Decisions

variable [ServiceEntry E]

/-- What may be decided about a service that appeared, and the hub after it. -/
inductive Considered (c : Nat) (r : ServiceReference) (h : Hub E) :
    Except Trouble (Admission E) → Hub E → Prop where
  | ignored {recent : List (Nat × Collection E)}
    (hk : (h.collection c).closed = true ∨ (h.collection c).hasIdentity r.id = true)
    (hs : h.Shielded c recent) :
    Considered c r h (.ok .ignored) { h with past := recent ++ h.past }
  | failed {recent : List (Nat × Collection E)} {f : Failure}
    (ho : (h.collection c).closed = false) (hn : (h.collection c).hasIdentity r.id = false)
    (hf : (h.collection c).factory.create (h.attempts + 1) r = .failed f)
    (hs : h.Shielded c recent) :
    Considered c r h (.error (.failed (.entryCreation r.id f.message)))
      { h.attempt c r.id with past := recent ++ h.past }
  | panicked {recent : List (Nat × Collection E)} {message : Option String}
    (ho : (h.collection c).closed = false) (hn : (h.collection c).hasIdentity r.id = false)
    (hf : (h.collection c).factory.create (h.attempts + 1) r = .panicked message)
    (hs : h.Shielded c recent) :
    Considered c r h (.error (.panicked message))
      { h.attempt c r.id with past := recent ++ h.past }
  | refused {recent : List (Nat × Collection E)} {entry : E} {release : Option (Release E)}
    (ho : (h.collection c).closed = false) (hn : (h.collection c).hasIdentity r.id = false)
    (hm : (h.collection c).factory.create (h.attempts + 1) r = .made entry release)
    (ht : ((h.collection c).storage.append (h.collection c).mode entry).1 = false)
    (hs : h.Shielded c recent) :
    Considered c r h (.ok (.refused (h.attempts + 1) release))
      { h.creation c r.id release.isSome with past := recent ++ h.past }
  | admitted {recent : List (Nat × Collection E)} {entry : E} {release : Option (Release E)}
    (ho : (h.collection c).closed = false) (hn : (h.collection c).hasIdentity r.id = false)
    (hm : (h.collection c).factory.create (h.attempts + 1) r = .made entry release)
    (ht : ((h.collection c).storage.append (h.collection c).mode entry).1 = true)
    (hs : h.Shielded c recent) :
    Considered c r h
      (.ok (.admitted entry ((h.collection c).dependency.mandatory &&
        ((h.collection c).enter ⟨h.attempts + 1, entry, r, release⟩).size == 1)))
      ((h.creation c r.id release.isSome).setTo c
        ((h.collection c).enter ⟨h.attempts + 1, entry, r, release⟩) (recent ++ h.past))

namespace Run

variable {c : Nat} {r : ServiceReference} {id : UInt64} {h h' : Hub E}

/-- What is judged about a service while the collection is in this state. -/
theorem judge_setTo {k : Collection E} {past : List (Nat × Collection E)}
    {result : Except Trouble (Admission E)} (hc : c < h.collections.length)
    (hi : .index ∈ k.locks) (ho : k.closed = false) (hn : k.hasIdentity r.id = false)
    (hr : judge c r (h.setTo c k past) = .ok (result, h')) :
    ∃ recent, (∀ p ∈ recent, Lock.index ∈ p.2.locks) ∧
      match k.factory.create (h.attempts + 1) r with
      | .failed f => result = .error (.failed (.entryCreation r.id f.message)) ∧
        h' = (h.attempt c r.id).setTo c k (recent ++ past)
      | .panicked message => result = .error (.panicked message) ∧
        h' = (h.attempt c r.id).setTo c k (recent ++ past)
      | .made entry release =>
        if (k.storage.append k.mode entry).1 then
          let k' := k.enter ⟨h.attempts + 1, entry, r, release⟩
          result = .ok (.admitted entry (k.dependency.mandatory && k'.size == 1)) ∧
          h' = (h.creation c r.id release.isSome).setTo c k' (recent ++ past)
        else
          result = .ok (.refused (h.attempts + 1) release) ∧
          h' = (h.creation c r.id release.isSome).setTo c k (recent ++ past) := by
  have hk : ¬ (k.closed || k.hasIdentity r.id) = true := by simp [ho, hn]
  have hh : ({ h.setTo c k past with attempts := h.attempts + 1 }.record
      (.attempted c (h.attempts + 1) r.id)) = (h.attempt c r.id).setTo c k past := rfl
  rw [judge, collection_bind, Hub.collection_setTo_self hc, if_neg hk, nextAttempt_bind,
    record_bind, show (h.setTo c k past).attempts = h.attempts from rfl, hh] at hr
  cases hf : k.factory.create (h.attempts + 1) r with
  | failed f =>
    rw [hf] at hr
    obtain ⟨rfl, rfl⟩ := pure_eq_ok.1 hr
    exact ⟨[], by simp, rfl, rfl⟩
  | panicked message =>
    rw [hf] at hr
    obtain ⟨rfl, rfl⟩ := pure_eq_ok.1 hr
    exact ⟨[], by simp, rfl, rfl⟩
  | made entry release =>
    have hcreated : ((h.attempt c r.id).setTo c k past).record
        (.created c (h.attempts + 1) r.id release.isSome) =
        (h.creation c r.id release.isSome).setTo c k past := rfl
    rw [hf] at hr
    simp only [record_bind] at hr
    rw [hcreated] at hr
    obtain ⟨taken, h₂, hst, hr⟩ := bind_eq_ok.1 hr
    obtain ⟨rfl, past₁, rfl, hp₁⟩ := store_setTo (h := h.creation c r.id release.isSome) hc hst
    -- only an entry that was taken is indexed and counted
    by_cases ht : (k.storage.append k.mode entry).1 = true
    · rw [if_pos ht] at hr
      obtain ⟨size, h₃, hsize, hr⟩ := bind_eq_ok.1 hr
      obtain ⟨rfl, past₂, rfl, hp₂⟩ :=
        storedSize_setTo (h := h.creation c r.id release.isSome) hc hsize
      rw [update_bind, Hub.update_setTo (h := h.creation c r.id release.isSome) hc] at hr
      obtain ⟨rfl, rfl⟩ := pure_eq_ok.1 hr
      refine ⟨(c, { k with storage := (k.storage.append k.mode entry).2 }) :: past₂ ++ past₁,
        ?_, ?_⟩
      · -- The storage gives its own lock back, and the lock of the index stays.
        intro p hp
        rcases List.mem_cons.1 hp with rfl | hp
        · exact hi
        · rcases List.mem_append.1 hp with hp | hp
          · exact hp₂ hi p hp
          · exact hp₁ hi p hp
      · show if (k.storage.append k.mode entry).1 = true then _ else _
        rw [if_pos ht, List.append_assoc]
        exact ⟨rfl, rfl⟩
    · rw [if_neg ht] at hr
      obtain ⟨rfl, rfl⟩ := pure_eq_ok.1 hr
      -- a storage that refuses an entry is left as it was
      refine ⟨past₁, hp₁ hi, ?_⟩
      show if (k.storage.append k.mode entry).1 = true then _ else _
      rw [if_neg ht, LiveSequence.append_of_refused (Bool.eq_false_iff.2 ht)]
      exact ⟨rfl, rfl⟩

/-- **Admission.** What is decided about a service that appeared. -/
theorem consider_ok {result : Except Trouble (Admission E)}
    (hr : consider c r h = .ok (result, h')) : Considered c r h result h' := by
  obtain ⟨-, h₁, hb, rfl⟩ := locked_eq_ok.1 hr
  have hundo : ∀ k : Collection E,
    { k with locks := (Lock.index :: k.locks).erase .index } = k := by simp
  by_cases hk : (h.collection c).closed = true ∨ (h.collection c).hasIdentity r.id = true
  · -- This also covers a number without a collection: the absent one is closed.
    have hk₁ : (((h.update c fun k => { k with locks := .index :: k.locks }).collection c).closed ||
        ((h.update c fun k => { k with locks := .index :: k.locks }).collection c).hasIdentity r.id)
        = true := by
      rw [Hub.collection_update, Bool.or_eq_true]
      split <;> exact hk
    rw [judge, collection_bind, if_pos hk₁] at hb
    obtain ⟨rfl, rfl⟩ := pure_eq_ok.1 hb
    rw [Hub.update_update_of_inverse hundo]
    have hidle : Considered c r h _ _ := .ignored hk (Hub.shielded_of_idle h c)
    exact hidle
  · obtain ⟨ho, hn⟩ : (h.collection c).closed = false ∧
        (h.collection c).hasIdentity r.id = false := by
      simpa using hk
    have hc := Hub.lt_length_of_open ho
    rw [Hub.update_eq_setTo] at hb
    obtain ⟨recent, hp, hres⟩ := judge_setTo
      (k := { h.collection c with locks := .index :: (h.collection c).locks })
      hc List.mem_cons_self ho hn hb
    cases hf : (h.collection c).factory.create (h.attempts + 1) r with
    | failed f =>
      rw [hf] at hres
      obtain ⟨rfl, rfl⟩ := hres
      rw [Hub.giveBack_of_idle (h := h.attempt c r.id) (k := h.collection c) hc rfl]
      exact .failed ho hn hf (Hub.shielded_of_work hp List.mem_cons_self)
    | panicked message =>
      rw [hf] at hres
      obtain ⟨rfl, rfl⟩ := hres
      rw [Hub.giveBack_of_idle (h := h.attempt c r.id) (k := h.collection c) hc rfl]
      exact .panicked ho hn hf (Hub.shielded_of_work hp List.mem_cons_self)
    | made entry release =>
      rw [hf] at hres
      by_cases ht : ((h.collection c).storage.append (h.collection c).mode entry).1 = true
      · simp only [ht, if_true] at hres
        obtain ⟨rfl, rfl⟩ := hres
        rw [Hub.update_setTo (h := h.creation c r.id release.isSome) hc, Hub.past_of_work]
        exact .admitted ho hn hf ht (Hub.shielded_of_work hp List.mem_cons_self)
      · simp only [ht] at hres
        obtain ⟨rfl, rfl⟩ := hres
        rw [Hub.giveBack_of_idle (h := h.creation c r.id release.isSome) (k := h.collection c)
          hc rfl]
        have hno := Bool.eq_false_iff.2 ht
        exact .refused ho hn hf hno (Hub.shielded_of_work hp List.mem_cons_self)

end Run

/-! ## Retraction -/

omit [ServiceEntry E] in
/-- A holding that is found has the identity that was looked for. -/
theorem Collection.id_of_find? {k : Collection E} {id : UInt64} {holding : Holding E}
    (hf : Roster.find? Holding.id id k.index = some holding) : holding.id = id :=
  Roster.key_of_find? hf

omit [ServiceEntry E] in
/-- A service that is in the collection has a holding. -/
theorem Collection.find?_eq_none_iff {k : Collection E} {id : UInt64} :
    Roster.find? Holding.id id k.index = none ↔ k.hasIdentity id = false := by
  simp [Roster.find?, Collection.hasIdentity, Collection.identities]

/-- What may come of taking a service away, and the hub after it. -/
inductive Retracted (c : Nat) (id : UInt64) (h : Hub E) : Option (Removal E) → Hub E → Prop where
  | absent {recent : List (Nat × Collection E)} (hk : (h.collection c).hasIdentity id = false)
    (hs : h.Shielded c recent) :
    Retracted c id h none { h with past := recent ++ h.past }
  | found {recent : List (Nat × Collection E)} {holding : Holding E}
    (hf : Roster.find? Holding.id id (h.collection c).index = some holding)
    (hs : h.Shielded c recent) :
    Retracted c id h
      (some ⟨holding, ((h.collection c).storage.removeOne holding.entry).1,
        (h.collection c).dependency.mandatory && ((h.collection c).leave holding).size == 0⟩)
      (h.setTo c ((h.collection c).leave holding) (recent ++ h.past))

namespace Run

variable {c : Nat} {id : UInt64} {h h' : Hub E}

/-- How a service is taken out while the collection is in this state. -/
theorem takeOut_setTo {k : Collection E} {past : List (Nat × Collection E)} {holding : Holding E}
    {result : Option (Removal E)} (hc : c < h.collections.length) (hi : .index ∈ k.locks)
    (hf : Roster.find? Holding.id id k.index = some holding)
    (hr : takeOut c id (h.setTo c k past) = .ok (result, h')) :
    ∃ recent, (∀ p ∈ recent, Lock.index ∈ p.2.locks) ∧
      result = some ⟨holding, (k.storage.removeOne holding.entry).1,
        k.dependency.mandatory && (k.leave holding).size == 0⟩ ∧
      h' = h.setTo c (k.leave holding) (recent ++ past) := by
  have hid := Collection.id_of_find? hf
  rw [takeOut, collection_bind, Hub.collection_setTo_self hc, hf] at hr
  simp only [update_bind, Hub.update_setTo hc] at hr
  obtain ⟨wasStored, h₂, hun, hr⟩ := bind_eq_ok.1 hr
  obtain ⟨rfl, past₁, rfl, hp₁⟩ := unstore_setTo hc hun
  obtain ⟨size, h₃, hsize, hr⟩ := bind_eq_ok.1 hr
  obtain ⟨rfl, past₂, rfl, hp₂⟩ := storedSize_setTo hc hsize
  rw [collection_bind, Hub.collection_setTo_self hc] at hr
  obtain ⟨rfl, rfl⟩ := pure_eq_ok.1 hr
  subst hid
  refine ⟨past₂ ++ past₁ ++ [(c, k)], ?_, rfl, ?_⟩
  · intro p hp
    rcases List.mem_append.1 hp with hp | hp
    · rcases List.mem_append.1 hp with hp | hp
      · exact hp₂ hi p hp
      · exact hp₁ hi p hp
    · rw [List.mem_singleton.1 hp]
      exact hi
  · rw [List.append_assoc, List.append_assoc]
    rfl

/-- **Retraction.** What comes of taking a service away. -/
theorem retract_ok {result : Option (Removal E)} (hr : retract c id h = .ok (result, h')) :
    Retracted c id h result h' := by
  obtain ⟨-, h₁, hb, rfl⟩ := locked_eq_ok.1 hr
  cases hf : Roster.find? Holding.id id (h.collection c).index with
  | none =>
    have hundo : ∀ k : Collection E,
      { k with locks := (Lock.index :: k.locks).erase .index } = k := by simp
    -- The lock that was taken does not change what the index has.
    have hf₁ : Roster.find? Holding.id id ((h.update c fun k =>
        { k with locks := .index :: k.locks }).collection c).index = none := by
      rw [Hub.collection_update]
      split <;> exact hf
    rw [takeOut, collection_bind, hf₁] at hb
    obtain ⟨rfl, rfl⟩ := pure_eq_ok.1 hb
    rw [Hub.update_update_of_inverse hundo]
    have hidle : Retracted c id h _ _ :=
      .absent (Collection.find?_eq_none_iff.1 hf) (Hub.shielded_of_idle h c)
    exact hidle
  | some holding =>
    have hc : c < h.collections.length := by
      refine Hub.lt_length_of_index fun hnil => ?_
      rw [hnil] at hf
      cases hf
    rw [Hub.update_eq_setTo] at hb
    obtain ⟨recent, hp, rfl, rfl⟩ := takeOut_setTo
      (k := { h.collection c with locks := .index :: (h.collection c).locks })
      hc List.mem_cons_self hf hb
    rw [Hub.update_setTo hc, Hub.past_of_work]
    exact .found hf (Hub.shielded_of_work hp List.mem_cons_self)

end Run

end Decisions

/-! ## Shutdown -/

namespace Run

variable {c : Nat} {h h' : Hub E}

/-- A collection is closed when its services are counted up. -/
theorem close_ok {live : List UInt64} (hr : close c h = .ok (live, h')) :
    live = (h'.collection c).identities ∧ (h'.collection c).closed = true := by
  simp only [close, locked_eq_ok, update_bind, collection_bind, pure_eq_ok] at hr
  obtain ⟨-, h₁, ⟨rfl, rfl⟩, rfl⟩ := hr
  by_cases hc : c < h.collections.length
  · simp only [Hub.update_eq_setTo (h := h), Hub.update_setTo hc, Hub.collection_setTo_self hc]
    exact ⟨rfl, trivial⟩
  · have hle := Nat.le_of_not_lt hc
    simp only [Hub.collection_update, Hub.length_collections_update, hc, and_false, if_false]
    rw [Hub.collection_of_length_le hle]
    exact ⟨trivial, rfl⟩

/-- The last section of a shutdown. -/
theorem clear_ok {u : Unit} (hr : clear c h = .ok (u, h')) :
    ∃ recent, h.Shielded c recent ∧
      h' = h.setTo c (h.collection c).cleared (recent ++ h.past) := by
  simp only [clear, locked_eq_ok, update_bind, update_eq_ok] at hr
  obtain ⟨-, h₁, ⟨-, h₂, rfl, rfl⟩, rfl⟩ := hr
  by_cases hc : c < h.collections.length
  · simp only [Hub.update_eq_setTo (h := h), Hub.update_setTo hc]
    refine ⟨(c, _) :: [(c, _), (c, _), (c, _), (c, _)] ++ [(c, h.collection c)],
      Hub.shielded_of_work ?_ List.mem_cons_self, rfl⟩
    simp
  · -- Nothing but the past changes where there is no collection.
    have hle := Nat.le_of_not_lt hc
    simp only [Hub.update_of_length_le hle, Hub.update_past_of_length_le hle,
      Hub.setTo_of_length_le hle]
    refine ⟨[(c, .absent), (c, .absent), (c, .absent), (c, .absent), (c, .absent), (c, .absent)],
      fun p hp => .inr ?_, rfl⟩
    rw [Hub.collection_of_length_le hle]
    simpa using hp

end Run

/-! ## Work that nobody hears of -/

/-- The second hub comes after the first by work that nobody heard of. At most one collection was
changed by it, and its locks were given back. -/
structure Hub.Discreet (d : Nat) (h h' : Hub E) : Prop where
  length : h'.collections.length = h.collections.length
  locks : ∀ e, (h'.collection e).locks = (h.collection e).locks
  others : ∀ e, e ≠ d → h'.collection e = h.collection e
  trace : h'.trace = h.trace

namespace Hub.Discreet

variable {α : Type} {d : Nat} {lock : Lock} {h h₁ h' : Hub E}

theorem refl (h : Hub E) : Discreet d h h := ⟨rfl, fun _ => rfl, fun _ _ => rfl, rfl⟩

theorem trans (h₁₂ : Discreet d h h₁) (h₂₃ : Discreet d h₁ h') : Discreet d h h' where
  length := h₂₃.length.trans h₁₂.length
  locks e := (h₂₃.locks e).trans (h₁₂.locks e)
  others e he := (h₂₃.others e he).trans (h₁₂.others e he)
  trace := h₂₃.trace.trans h₁₂.trace

theorem update {f : Collection E → Collection E} (hf : ∀ k, (f k).locks = k.locks) :
    Discreet d h (h.update d f) where
  length := length_collections_update
  locks e := by
    rw [collection_update]
    split
    · exact hf _
    · rfl
  others _ he := collection_update_of_ne (Ne.symm he)
  trace := rfl

/-- A section gives its lock back. -/
theorem locked {body : Run E α} {a : α}
    (hbody : ∀ {h a h'}, body h = .ok (a, h') → Discreet d h h')
    (hr : Run.locked d lock body h = .ok (a, h')) : Discreet d h h' := by
  obtain ⟨-, h₁, hb, rfl⟩ := Run.locked_eq_ok.1 hr
  have hwork := hbody hb
  refine ⟨?_, fun e => locks_giving (hwork.locks e) hwork.length, fun e he => ?_, hwork.trace⟩
  · exact length_giving.trans (hwork.length.trans length_taking)
  · rw [collection_update_of_ne (Ne.symm he), hwork.others e he,
      collection_update_of_ne (Ne.symm he)]

end Hub.Discreet

namespace Run

variable {d : Nat} {h h' : Hub E}

theorem discreet_endSubscription {u : Unit} (hr : endSubscription d h = .ok (u, h')) :
    h.Discreet d h' := by
  refine .locked (fun {h u h'} hr => ?_) hr
  rw [collection_bind] at hr
  cases hs : (h.collection d).subscription with
  | none =>
    rw [hs] at hr
    obtain ⟨-, rfl⟩ := pure_eq_ok.1 hr
    exact .refl h
  | some id =>
    rw [hs] at hr
    cases hr
    have hupdate : h.Discreet d (h.update d fun k => { k with subscription := none }) :=
      .update fun _ => rfl
    exact ⟨hupdate.length, hupdate.locks, hupdate.others, hupdate.trace⟩

theorem discreet_close {live : List UInt64} (hr : close d h = .ok (live, h')) :
    h.Discreet d h' := by
  refine .locked (fun {h live h'} hr => ?_) hr
  rw [update_bind, collection_bind] at hr
  obtain ⟨-, rfl⟩ := pure_eq_ok.1 hr
  exact .update fun _ => rfl

end Run

/-! ## Attachment -/

/-- Two states of a collection with the same entries, made by the same factory. -/
structure Collection.SameEntries (k k' : Collection E) : Prop where
  factory : k'.factory = k.factory
  index : k'.index = k.index
  items : k'.storage.items = k.storage.items

namespace Collection.SameEntries

variable {k k' : Collection E}

theorem identities (hs : k.SameEntries k') : k'.identities = k.identities := by
  rw [Collection.identities, hs.index, Collection.identities]

theorem size (hs : k.SameEntries k') : k'.size = k.size := by
  rw [Collection.size, hs.items, Collection.size]

end Collection.SameEntries

/-- Where one collection keeps its entries, all do. -/
theorem Hub.sameEntries_setTo {h : Hub E} {c : Nat} {k : Collection E}
    (hk : (h.collection c).SameEntries k) (d : Nat) (past : List (Nat × Collection E)) :
    (h.collection d).SameEntries ((h.setTo c k past).collection d) := by
  rw [Hub.collection_setTo]
  split
  · next hd =>
    rw [hd.1]
    exact hk
  · exact ⟨rfl, rfl, rfl⟩

namespace Run

variable {c : Nat} {lock : Lock} {h h' : Hub E}

/-- A section that does one change to its collection, and none to its entries or locks. -/
theorem locked_update_ok {f : Collection E → Collection E} {u : Unit}
    (hf : ∀ k, Collection.SameEntries k (f k))
    (hlocks : ∀ k locks, f { k with locks := locks } = { f k with locks := locks })
    (hr : locked c lock (update c f) h = .ok (u, h')) : ∃ recent : List (Nat × Collection E),
      (∀ p ∈ recent, p.1 = c ∧ (h.collection c).SameEntries p.2) ∧
      h' = h.setTo c (f (h.collection c)) (recent ++ h.past) := by
  simp only [locked_eq_ok, update_eq_ok] at hr
  obtain ⟨-, h₁, rfl, rfl⟩ := hr
  -- The change passes by the lock that is held meanwhile.
  have hend : { f { h.collection c with locks := lock :: (h.collection c).locks } with
      locks :=
        (f { h.collection c with locks := lock :: (h.collection c).locks }).locks.erase lock } =
      f (h.collection c) := by
    rw [hlocks]
    simpa using (hlocks (h.collection c) (h.collection c).locks).symm
  have hmid : (h.collection c).SameEntries
      (f { h.collection c with locks := lock :: (h.collection c).locks }) := by
    rw [hlocks]
    exact ⟨(hf _).factory, (hf _).index, (hf _).items⟩
  by_cases hc : c < h.collections.length
  · simp only [Hub.update_eq_setTo (h := h), Hub.update_setTo hc]
    refine ⟨[(c, _), (c, _), (c, h.collection c)], ?_, by rw [hend]; rfl⟩
    simp only [List.mem_cons, List.not_mem_nil, or_false, forall_eq_or_imp, forall_eq, true_and]
    exact ⟨hmid, ⟨rfl, rfl, rfl⟩, ⟨rfl, rfl, rfl⟩⟩
  · -- Nothing but the past changes where there is no collection.
    have hle := Nat.le_of_not_lt hc
    simp only [Hub.update_of_length_le hle, Hub.update_past_of_length_le hle,
      Hub.setTo_of_length_le hle]
    refine ⟨[(c, .absent), (c, .absent), (c, .absent)], ?_, rfl⟩
    rw [Hub.collection_of_length_le hle]
    simp only [List.mem_cons, List.not_mem_nil, or_false, forall_eq_or_imp, forall_eq, true_and]
    exact ⟨⟨rfl, rfl, rfl⟩, ⟨rfl, rfl, rfl⟩, ⟨rfl, rfl, rfl⟩⟩

theorem addLifecycleListener_ok {l : Listener E} {u : Unit}
    (hr : addLifecycleListener c l h = .ok (u, h')) : ∃ recent : List (Nat × Collection E),
      (∀ p ∈ recent, p.1 = c ∧ (h.collection c).SameEntries p.2) ∧
      h' = ({ h with listeners := h.listeners + 1 } : Hub E).setTo c
        { h.collection c with
          lifecycleListeners := (h.collection c).lifecycleListeners ++ [⟨h.listeners, c, l⟩] }
        (recent ++ h.past) :=
  locked_update_ok (h := { h with listeners := h.listeners + 1 })
    (f := fun k => { k with lifecycleListeners := k.lifecycleListeners ++ [⟨h.listeners, c, l⟩] })
    (fun _ => ⟨rfl, rfl, rfl⟩) (fun _ _ => rfl) hr

theorem addStateListener_ok {l : Listener E} {u : Unit}
    (hr : addStateListener c l h = .ok (u, h')) : ∃ recent : List (Nat × Collection E),
      (∀ p ∈ recent, p.1 = c ∧ (h.collection c).SameEntries p.2) ∧
      h' = ({ h with listeners := h.listeners + 1 } : Hub E).setTo c
        { h.collection c with
          stateListeners := (h.collection c).stateListeners ++ [⟨h.listeners, c, l⟩] }
        (recent ++ h.past) :=
  locked_update_ok (h := { h with listeners := h.listeners + 1 })
    (f := fun k => { k with stateListeners := k.stateListeners ++ [⟨h.listeners, c, l⟩] })
    (fun _ => ⟨rfl, rfl, rfl⟩) (fun _ _ => rfl) hr

/-- A listener that is attached to one collection changes the entries of none, and nobody hears. -/
theorem addLifecycleListener_same {l : Listener E} {u : Unit}
    (hr : addLifecycleListener c l h = .ok (u, h')) :
    (∀ d, (h.collection d).SameEntries (h'.collection d)) ∧ h'.trace = h.trace := by
  obtain ⟨recent, -, rfl⟩ := addLifecycleListener_ok hr
  refine ⟨fun d => ?_, rfl⟩
  apply Hub.sameEntries_setTo (h := { h with listeners := h.listeners + 1 })
  exact ⟨rfl, rfl, rfl⟩

theorem addStateListener_same {l : Listener E} {u : Unit}
    (hr : addStateListener c l h = .ok (u, h')) :
    (∀ d, (h.collection d).SameEntries (h'.collection d)) ∧ h'.trace = h.trace := by
  obtain ⟨recent, -, rfl⟩ := addStateListener_ok hr
  refine ⟨fun d => ?_, rfl⟩
  apply Hub.sameEntries_setTo (h := { h with listeners := h.listeners + 1 })
  exact ⟨rfl, rfl, rfl⟩

end Run

/-! ## What sections leave alone -/

/-- A moment that tells neither of a call of a listener nor of a release. -/
def Moment.IsSilent : Moment E → Prop
  | .called _ _ _ | .releasing _ _ _ _ _ => False
  | _ => True

/-- The second hub comes after the first by a section on a collection. The section may change the
index and the storage of that collection and nothing else that listeners can tell. -/
structure Hub.Section (c : Nat) (h h' : Hub E) : Prop where
  registry : h'.registry = h.registry
  length : h'.collections.length = h.collections.length
  others : ∀ d, d ≠ c → h'.collection d = h.collection d
  dependency : (h'.collection c).dependency = (h.collection c).dependency
  mode : (h'.collection c).mode = (h.collection c).mode
  factory : (h'.collection c).factory = (h.collection c).factory
  lifecycle : (h'.collection c).lifecycleListeners = (h.collection c).lifecycleListeners
  state : (h'.collection c).stateListeners = (h.collection c).stateListeners
  closed : (h'.collection c).closed = (h.collection c).closed
  trace : ∃ recent, h'.trace = recent ++ h.trace ∧ ∀ m ∈ recent, m.IsSilent
  past : ∃ recent, h'.past = recent ++ h.past ∧ h.Shielded c recent
  released : h'.released = h.released
  listeners : h'.listeners = h.listeners

namespace Hub.Section

variable {c : Nat} {h h' : Hub E} {recent : List (Nat × Collection E)}

/-- A section that leaves all collections as they are. -/
theorem of_collections (hreg : h'.registry = h.registry) (hc : h'.collections = h.collections)
    (ht : ∃ recent, h'.trace = recent ++ h.trace ∧ ∀ m ∈ recent, m.IsSilent)
    (hp : h'.past = recent ++ h.past) (hs : h.Shielded c recent) (hr : h'.released = h.released)
    (hl : h'.listeners = h.listeners) : Section c h h' := by
  have hk : ∀ d, h'.collection d = h.collection d := by
    intro d
    rw [collection, hc, collection]
  exact ⟨hreg, by rw [hc], fun d _ => hk d, by rw [hk], by rw [hk], by rw [hk], by rw [hk],
    by rw [hk], by rw [hk], ht, ⟨recent, hp, hs⟩, hr, hl⟩

/-- A section that puts its collection into another state. -/
theorem of_setTo {g : Hub E} {k : Collection E} (hreg : g.registry = h.registry)
    (hg : g.collections = h.collections)
    (hk : k = { h.collection c with index := k.index, storage := k.storage })
    (ht : ∃ recent, g.trace = recent ++ h.trace ∧ ∀ m ∈ recent, m.IsSilent)
    (hs : h.Shielded c recent) (hr : g.released = h.released) (hl : g.listeners = h.listeners) :
    Section c h (g.setTo c k (recent ++ h.past)) := by
  have hself : (g.setTo c k (recent ++ h.past)).collection c = h.collection c ∨
      (g.setTo c k (recent ++ h.past)).collection c = k := by
    rw [collection_setTo]
    split
    · exact .inr rfl
    · rw [collection, hg]
      exact .inl rfl
  -- the lists of collections come first; the rest reads one field of the collection each
  refine ⟨hreg, ?_, fun d hd => ?_, ?_, ?_, ?_, ?_, ?_, ?_, ht, ⟨recent, rfl, hs⟩, hr, hl⟩
  · rw [setTo, List.length_set, hg]
  · rw [collection_setTo_of_ne hd, collection, hg, collection]
  all_goals
    rcases hself with hself | hself
    · rw [hself]
    · rw [hself, hk]

end Hub.Section

section Outcomes

variable {c : Nat} {r : ServiceReference} {id : UInt64} {h h' : Hub E}

theorem Hub.silent_attempt :
    ∃ recent, (h.attempt c id).trace = recent ++ h.trace ∧ ∀ m ∈ recent, m.IsSilent := by
  refine ⟨[.attempted c (h.attempts + 1) id], rfl, fun m hm => ?_⟩
  rw [List.mem_singleton.1 hm]
  trivial

theorem Hub.silent_creation (hasRelease : Bool) :
    ∃ recent, (h.creation c id hasRelease).trace = recent ++ h.trace ∧
      ∀ m ∈ recent, m.IsSilent := by
  refine ⟨[.created c (h.attempts + 1) id hasRelease, .attempted c (h.attempts + 1) id], rfl,
    fun m hm => ?_⟩
  rcases List.mem_cons.1 hm with rfl | hm
  · trivial
  · rw [List.mem_singleton.1 hm]
    trivial

theorem Hub.silent_of_eq (ht : h'.trace = h.trace) :
    ∃ recent, h'.trace = recent ++ h.trace ∧ ∀ m ∈ recent, m.IsSilent :=
  ⟨[], ht, fun _ hm => absurd hm List.not_mem_nil⟩

/-- Deciding about a service that appeared is a section. -/
theorem Considered.toSection [ServiceEntry E] {result : Except Trouble (Admission E)}
    (hr : Considered c r h result h') : h.Section c h' := by
  cases hr with
  | ignored hk hs => exact .of_collections rfl rfl (Hub.silent_of_eq rfl) rfl hs rfl rfl
  | failed ho hn hf hs => exact .of_collections rfl rfl Hub.silent_attempt rfl hs rfl rfl
  | panicked ho hn hf hs => exact .of_collections rfl rfl Hub.silent_attempt rfl hs rfl rfl
  | refused ho hn hm ht hs => exact .of_collections rfl rfl (Hub.silent_creation _) rfl hs rfl rfl
  | admitted ho hn hm ht hs => exact .of_setTo rfl rfl rfl (Hub.silent_creation _) hs rfl rfl

/-- Taking a service away is a section. -/
theorem Retracted.toSection [ServiceEntry E] {result : Option (Removal E)}
    (hr : Retracted c id h result h') : h.Section c h' := by
  cases hr with
  | absent hk hs => exact .of_collections rfl rfl (Hub.silent_of_eq rfl) rfl hs rfl rfl
  | found hf hs => exact .of_setTo rfl rfl rfl (Hub.silent_of_eq rfl) hs rfl rfl

/-- The last section of a shutdown is one. -/
theorem Run.section_of_clear {u : Unit} (hr : clear c h = .ok (u, h')) : h.Section c h' := by
  obtain ⟨recent, hs, rfl⟩ := clear_ok hr
  exact .of_setTo rfl rfl rfl (Hub.silent_of_eq rfl) hs rfl rfl

end Outcomes

/-! ## What can be heard of sections -/

/-- Silent moments tell nobody anything. -/
theorem Hub.told_eq {h h' : Hub E}
    (ht : ∃ recent, h'.trace = recent ++ h.trace ∧ ∀ m ∈ recent, m.IsSilent)
    (who : ListenerTag → Bool) : h'.told who = h.told who := by
  obtain ⟨recent, ht, hm⟩ := ht
  rw [told, ht, List.filterMap_append, told]
  refine (congrArg (· ++ _) (List.filterMap_eq_nil_iff.2 fun m hmem => ?_)).trans
    (List.nil_append _)
  have := hm m hmem
  cases m with
  | called | releasing => exact absurd this id
  | _ => rfl

theorem Moment.IsPlain.isSilent {m : Moment E} (hm : m.IsPlain) : m.IsSilent := by
  cases m with
  | called | created | releasing => exact absurd hm id
  | _ => trivial

end LiveServices
