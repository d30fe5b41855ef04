import LiveServices.Proofs.Run.Onward

/-!
# Serial numbers of entries

Every attempt to make an entry has a number of its own, and the numbers rise. So an entry that
has left its collection does not come back: what comes into a collection later has a later number
(`Hub.Younger`, which every run keeps).

`Hub.Numbered` collects what is true of the numbers in every hub that is reached: each names one
holding and one entry made, none is beyond the last attempt, and the entry of a release that has
begun is in the index neither at its beginning nor later. A release must be due to keep this: its
number was given, and its entry is out of the index (`Hub.Releasable`).
-/

namespace LiveServices

variable {E : Type}

/-! ## Numbers in a collection -/

namespace Collection

/-- The serial numbers of the entries in the index. -/
def serials (k : Collection E) : List Nat := k.index.map Holding.serial

theorem census_eq (k : Collection E) :
    k.census.map Prod.fst = k.serials ∧ k.census.map Prod.snd = k.identities := by
  simp [census, serials, identities, Function.comp_def]

variable [ServiceEntry E] {k : Collection E} {holding : Holding E}

/-- A service that is new comes with the holding it is given. -/
theorem index_enter (hn : k.hasIdentity holding.id = false) :
    (k.enter holding).index.Perm (holding :: k.index) := by
  refine Roster.insert_perm fun b hb hid => ?_
  have hmem : holding.id ∈ k.identities := hid ▸ List.mem_map_of_mem hb
  rw [hasIdentity_iff.2 hmem] at hn
  cases hn

/-- A service that leaves takes its holding along and no other. -/
theorem index_leave {id : UInt64} (hk : k.identities.Nodup)
    (hf : Roster.find? Holding.id id k.index = some holding) :
    k.index.Perm (holding :: (k.leave holding).index) := by
  have hid := id_of_find? hf
  subst hid
  exact Roster.perm_cons_erase hk hf

theorem index_leave_sublist (k : Collection E) (holding : Holding E) :
    (k.leave holding).index.Sublist k.index := List.filter_sublist

end Collection

namespace Hub

/-- The row of a collection in the census of a hub. -/
theorem census_getD (h : Hub E) (c : Nat) : h.census[c]?.getD [] = (h.collection c).census := by
  rw [census, List.getElem?_map, collection]
  cases h.collections[c]? with
  | none => rfl
  | some k => rfl

/-! ## What comes later has a later number -/

/-- What came into a collection between the two hubs has a later number than every attempt before
the first one. -/
structure Younger (h h' : Hub E) : Prop where
  attempts : h.attempts ≤ h'.attempts
  serials : ∀ c, ∀ n ∈ (h'.collection c).serials,
    n ∈ (h.collection c).serials ∨ h.attempts < n

namespace Younger

variable {h h' : Hub E}

theorem of_sublist (ha : h.attempts ≤ h'.attempts)
    (hs : ∀ c, (h'.collection c).index.Sublist (h.collection c).index) : Younger h h' :=
  ⟨ha, fun c _ hn => .inl (((hs c).map _).subset hn)⟩

instance : Law (Younger (E := E)) where
  aside ha := .of_sublist ha.attempts fun c => (ha.stock c).index ▸ .refl _
  trans h₁₂ h₂₃ := by
    refine ⟨Nat.le_trans h₁₂.attempts h₂₃.attempts, fun c n hn => ?_⟩
    obtain hn | hn := h₂₃.serials c n hn
    · exact h₁₂.serials c n hn
    · exact .inr (Nat.lt_of_le_of_lt h₁₂.attempts hn)

end Younger

/-- The index of a collection where another one, or this one, was put into another state. -/
theorem index_setTo_sublist {h g : Hub E} {c : Nat} {k : Collection E}
    (hg : g.collections = h.collections) (hk : k.index.Sublist (h.collection c).index)
    (past : List (Nat × Collection E)) (d : Nat) :
    ((g.setTo c k past).collection d).index.Sublist (h.collection d).index := by
  rw [collection_setTo]
  split
  · next hd =>
    rw [hd.1]
    exact hk
  · rw [collection, hg]
    exact .refl _

end Hub

namespace Run

open Hub

variable [ServiceEntry E]

/-- Every kind of step that is no admission leaves an index with what it had. -/
theorem index_retracted {c : Nat} {id : UInt64} {h h' : Hub E} {result : Option (Removal E)}
    (hr : Retracted c id h result h') (d : Nat) :
    (h'.collection d).index.Sublist (h.collection d).index := by
  cases hr with
  | absent => exact .refl _
  | found => exact index_setTo_sublist rfl (Collection.index_leave_sublist ..) _ d

omit [ServiceEntry E] in
theorem index_clear {c : Nat} {h h' : Hub E} {u : Unit} (hr : clear c h = .ok (u, h'))
    (d : Nat) : (h'.collection d).index.Sublist (h.collection d).index := by
  obtain ⟨recent, -, rfl⟩ := clear_ok hr
  exact index_setTo_sublist rfl (List.nil_sublist _) _ d

theorem steps_younger : Steps (E := E) Younger where
  considered c r h result h' hr := by
    cases consider_ok hr with
    | ignored => exact .of_sublist (Nat.le_refl _) fun _ => .refl _
    | failed | panicked | refused => exact .of_sublist (Nat.le_succ _) fun _ => .refl _
    | admitted ho hn hm ht hs =>
      refine ⟨Nat.le_succ _, fun d n hmem => ?_⟩
      rw [collection_setTo] at hmem
      split at hmem
      · next hd =>
        rw [hd.1]
        obtain rfl | hmem := List.mem_cons.1 (((Collection.index_enter hn).map _).subset hmem)
        · exact .inr (Nat.lt_succ_self _)
        · exact .inl hmem
      · exact .inl hmem
  retracted c id h result h' hr := by
    refine .of_sublist ?_ (index_retracted (retract_ok hr))
    cases retract_ok hr <;> exact Nat.le_refl _
  cleared c h u h' hr := by
    refine .of_sublist ?_ (index_clear hr)
    obtain ⟨recent, -, rfl⟩ := clear_ok hr
    exact Nat.le_refl _
  called _ _ _ _ := .of_sublist (Nat.le_refl _) fun _ => .refl _
  released _ _ _ _ _ _ := .of_sublist (Nat.le_refl _) fun _ => .refl _
  lifecycle c l h u h' hr := by
    refine .of_sublist ?_ fun d => ?_
    · obtain ⟨recent, -, rfl⟩ := addLifecycleListener_ok hr
      exact Nat.le_refl _
    · exact ((addLifecycleListener_same hr).1 d).index ▸ .refl _
  state c l h u h' hr := by
    refine .of_sublist ?_ fun d => ?_
    · obtain ⟨recent, -, rfl⟩ := addStateListener_ok hr
      exact Nat.le_refl _
    · exact ((addStateListener_same hr).1 d).index ▸ .refl _

end Run

/-! ## Numbers in a hub -/

/-- The number of the entry that a moment tells was made. -/
def Moment.made? : Moment E → Option Nat
  | .created _ serial _ _ => some serial
  | _ => none

/-- What is true of the numbers of entries between the operations of a run. -/
structure Hub.Numbered (h : Hub E) : Prop where
  identities : ∀ c, (h.collection c).identities.Nodup
  serials : ∀ c, (h.collection c).serials.Nodup
  indexed : ∀ c, ∀ n ∈ (h.collection c).serials, n ≤ h.attempts
  made : (h.trace.filterMap Moment.made?).Nodup
  numbered : ∀ n ∈ h.trace.filterMap Moment.made?, n ≤ h.attempts
  released : ∀ c n id census announced, .releasing c n id census announced ∈ h.trace →
    n ≤ h.attempts ∧ n ∉ (h.collection c).serials ∧ n ∉ (census[c]?.getD []).map Prod.fst

/-- The release of an entry may begin: its number was given, and it is out of the index. -/
def Hub.Releasable (c n : Nat) (h : Hub E) : Prop := n ≤ h.attempts ∧ n ∉ (h.collection c).serials

theorem Hub.Releasable.of_younger {c n : Nat} {h h' : Hub E} (hd : h.Releasable c n)
    (hy : h.Younger h') : h'.Releasable c n := by
  refine ⟨Nat.le_trans hd.1 hy.attempts, fun hn => ?_⟩
  obtain hn | hn := hy.serials c n hn
  · exact hd.2 hn
  · exact Nat.not_le_of_lt hn hd.1

/-- In the hub of some plans there is nothing and nothing happened. -/
theorem Hub.blank_ofPlans (plans : List (Plan E)) :
    (∀ c, ((Hub.ofPlans plans).collection c).index = []) ∧ (Hub.ofPlans plans).trace = [] := by
  refine ofPlans_induction (I := fun h => (∀ c, (h.collection c).index = []) ∧ h.trace = []) plans
    ⟨fun c => by rw [collection_of_length_le c.zero_le]; rfl, rfl⟩ fun h plan _ hh => ?_
  rcases addCollection_eq h plan with ⟨k, hb, hadd⟩ | hadd
  · obtain ⟨factory, filter, -, rfl⟩ := Plan.build_ok hb
    rw [hadd]
    refine ⟨fun c => ?_, hh.2⟩
    rw [collection_append rfl]
    split
    · rfl
    · exact hh.1 c
  · rw [hadd]
    refine ⟨fun c => ?_, hh.2⟩
    rw [collection_append rfl]
    split
    · rfl
    · exact hh.1 c

namespace Hub.Numbered

variable {h h' : Hub E} {c : Nat}

/-- Nothing was made or released, and each index has what it had. -/
theorem of_sublist (hn : h.Numbered) (ha : h.attempts ≤ h'.attempts)
    (hs : ∀ c, (h'.collection c).index.Sublist (h.collection c).index)
    (hm : h'.trace.filterMap Moment.made? = h.trace.filterMap Moment.made?)
    (ht : ∀ c n id census announced, .releasing c n id census announced ∈ h'.trace →
      .releasing c n id census announced ∈ h.trace) : h'.Numbered where
  identities c := (hn.identities c).sublist ((hs c).map _)
  serials c := (hn.serials c).sublist ((hs c).map _)
  indexed c n hmem := Nat.le_trans (hn.indexed c n (((hs c).map _).subset hmem)) ha
  made := hm ▸ hn.made
  numbered n hmem := Nat.le_trans (hn.numbered n (hm ▸ hmem)) ha
  released c n id census announced hmem := by
    obtain ⟨hle, hout, hcensus⟩ := hn.released c n id census announced (ht _ _ _ _ _ hmem)
    exact ⟨Nat.le_trans hle ha, fun hin => hout (((hs c).map _).subset hin), hcensus⟩

instance : Stable (Numbered (E := E)) where
  aside ha hn := by
    obtain ⟨recent, ht, hm⟩ := ha.trace
    have hnone : recent.filterMap Moment.made? = [] := by
      refine List.filterMap_eq_nil_iff.2 fun m hmem => ?_
      have := hm m hmem
      cases m with
      | created => exact this.elim
      | _ => rfl
    refine hn.of_sublist ha.attempts (fun c => (ha.stock c).index ▸ .refl _) ?_ ?_
    · rw [ht, List.filterMap_append, hnone, List.nil_append]
    · intro c n id census announced hmem
      rw [ht] at hmem
      obtain hmem | hmem := List.mem_append.1 hmem
      · exact (hm _ hmem).elim
      · exact hmem

theorem of_trace (hn : h.Numbered) (ha : h'.attempts = h.attempts) (ht : h'.trace = h.trace)
    (hs : ∀ c, (h'.collection c).index.Sublist (h.collection c).index) : h'.Numbered :=
  hn.of_sublist (Nat.le_of_eq ha.symm) hs (by rw [ht]) fun _ _ _ _ _ hmem => ht ▸ hmem

theorem called (hn : h.Numbered) (tag : ListenerTag) (callback : Callback E) (g : Glimpse) :
    (h.record (.called tag callback g)).Numbered :=
  hn.of_sublist (Nat.le_refl _) (fun _ => .refl _) rfl fun _ _ _ _ _ hmem => by simpa using hmem

/-- The beginning of a release. -/
theorem releasing {n : Nat} (hn : h.Numbered) (hd : h.Releasable c n) (id : UInt64)
    (announced : Bool) :
    ({ h.record (.releasing c n id h.census announced) with
      released := n :: h.released } : Hub E).Numbered where
  identities := hn.identities
  serials := hn.serials
  indexed := hn.indexed
  made := hn.made
  numbered := hn.numbered
  released d m id' census announced' hmem := by
    obtain heq | hmem := List.mem_cons.1 hmem
    · cases heq
      refine ⟨hd.1, hd.2, ?_⟩
      rw [census_getD, (Collection.census_eq _).1]
      exact hd.2
    · exact hn.released d m id' census announced' hmem

/-- An attempt that made an entry. -/
theorem creation (hn : h.Numbered) (c : Nat) (id : UInt64) (hasRelease : Bool)
    (past : List (Nat × Collection E)) :
    ({ h.creation c id hasRelease with past := past } : Hub E).Numbered where
  identities := hn.identities
  serials := hn.serials
  indexed d n hmem := Nat.le_succ_of_le (hn.indexed d n hmem)
  made := by
    refine List.nodup_cons.2 ⟨fun hmem => ?_, hn.made⟩
    exact Nat.not_succ_le_self _ (hn.numbered _ hmem)
  numbered n hmem := by
    obtain rfl | hmem := List.mem_cons.1 hmem
    · exact Nat.le_refl _
    · exact Nat.le_succ_of_le (hn.numbered n hmem)
  released d n id' census announced hmem := by
    have hmem : .releasing d n id' census announced ∈ h.trace := by
      simpa [Hub.creation, Hub.attempt] using hmem
    obtain ⟨hle, hout⟩ := hn.released d n id' census announced hmem
    exact ⟨Nat.le_succ_of_le hle, hout⟩

/-- A holding with a number of its own comes into a collection. -/
theorem admission {k : Collection E} {holding : Holding E} (hn : h.Numbered)
    (hperm : k.index.Perm (holding :: (h.collection c).index))
    (hid : holding.id ∉ (h.collection c).identities)
    (hnew : holding.serial ∉ (h.collection c).serials) (hle : holding.serial ≤ h.attempts)
    (hrelease : ∀ id census announced,
      .releasing c holding.serial id census announced ∉ h.trace)
    (past : List (Nat × Collection E)) : (h.setTo c k past).Numbered := by
  have hids : k.identities.Perm (holding.id :: (h.collection c).identities) := hperm.map _
  have hserials : k.serials.Perm (holding.serial :: (h.collection c).serials) := hperm.map _
  have hself : ∀ d, (h.setTo c k past).collection d = h.collection d ∨
      d = c ∧ (h.setTo c k past).collection d = k := by
    intro d
    rw [collection_setTo]
    split
    · next hd => exact .inr ⟨hd.1, rfl⟩
    · exact .inl rfl
  refine ⟨fun d => ?_, fun d => ?_, fun d n hmem => ?_, hn.made, hn.numbered,
    fun d n id census announced hmem => ?_⟩
  · obtain hd | ⟨rfl, hd⟩ := hself d
    · exact hd ▸ hn.identities d
    · rw [hd]
      exact hids.nodup_iff.2 (List.nodup_cons.2 ⟨hid, hn.identities d⟩)
  · obtain hd | ⟨rfl, hd⟩ := hself d
    · exact hd ▸ hn.serials d
    · rw [hd]
      exact hserials.nodup_iff.2 (List.nodup_cons.2 ⟨hnew, hn.serials d⟩)
  · obtain hd | ⟨rfl, hd⟩ := hself d
    · exact hn.indexed d n (hd ▸ hmem)
    · rw [hd] at hmem
      obtain rfl | hmem := List.mem_cons.1 (hserials.subset hmem)
      · exact hle
      · exact hn.indexed d n hmem
  · obtain ⟨hn', hout, hcensus⟩ := hn.released d n id census announced hmem
    refine ⟨hn', ?_, hcensus⟩
    obtain hd | ⟨rfl, hd⟩ := hself d
    · exact hd ▸ hout
    · rw [hd]
      intro hin
      obtain rfl | hin := List.mem_cons.1 (hserials.subset hin)
      · exact hrelease _ _ _ hmem
      · exact hout hin

variable [ServiceEntry E]

theorem considered {r : ServiceReference} {result : Except Trouble (Admission E)}
    (hn : h.Numbered) (hc : Considered c r h result h') : h'.Numbered := by
  cases hc with
  | ignored => exact hn.of_trace rfl rfl fun _ => .refl _
  | failed | panicked =>
    refine hn.of_sublist (Nat.le_succ _) (fun _ => .refl _) rfl fun _ _ _ _ _ hmem => ?_
    simpa [Hub.attempt] using hmem
  | refused => exact hn.creation ..
  | @admitted recent entry release ho hno hm ht hs =>
    -- the number of this attempt was given to nothing before
    have hbeyond : ∀ n ≤ h.attempts, n ≠ h.attempts + 1 := fun n hle heq => by omega
    have hperm : ((h.collection c).enter ⟨h.attempts + 1, entry, r, release⟩).index.Perm
        (⟨h.attempts + 1, entry, r, release⟩ :: (h.collection c).index) :=
      Collection.index_enter hno
    refine (hn.creation c r.id release.isSome h.past).admission
      (h := h.creation c r.id release.isSome) hperm (fun hin => ?_) (fun hin => ?_) (Nat.le_refl _)
      (fun id census announced hmem => ?_) _
    · exact Bool.false_ne_true (hno ▸ Collection.hasIdentity_iff.2 hin)
    · exact hbeyond _ (hn.indexed c _ hin) rfl
    · have hmem : .releasing c (h.attempts + 1) id census announced ∈ h.trace := by
        simpa [Hub.creation, Hub.attempt] using hmem
      exact hbeyond _ (hn.released c _ id census announced hmem).1 rfl

theorem retracted {id : UInt64} {result : Option (Removal E)} (hn : h.Numbered)
    (hc : Retracted c id h result h') : h'.Numbered := by
  refine hn.of_trace ?_ ?_ (Run.index_retracted hc)
  · cases hc <;> rfl
  · cases hc <;> rfl

omit [ServiceEntry E] in
/-- The hub of some plans, in which no entry was made yet. -/
theorem ofPlans (plans : List (Plan E)) : (Hub.ofPlans plans).Numbered := by
  obtain ⟨hi, ht⟩ := Hub.blank_ofPlans plans
  refine ⟨fun c => ?_, fun c => ?_, fun c n hmem => ?_, ?_, fun n hmem => ?_,
    fun c n id census announced hmem => ?_⟩
  · simp [Collection.identities, hi]
  · simp [Collection.serials, hi]
  · simp [Collection.serials, hi] at hmem
  · simp [ht]
  · simp [ht] at hmem
  · simp [ht] at hmem

end Hub.Numbered

end LiveServices
