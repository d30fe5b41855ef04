import LiveServices.Proofs.Locks.Unheld

/-!
# Calls outside of the locks

Sections give back the locks that they take, and a section on the index or on the storage finds
its lock free. Listeners are called and entries are released between sections. So wherever events
are delivered, whoever is called finds the locks that were held before the delivery
(`Run.deliveries_free`).
-/

namespace LiveServices

variable {E : Type} [ServiceEntry E]

namespace Run

open Hub

variable {α : Type} {c d : Nat} {h h' : Hub E} {nested : Nested E}

/-! ## Sections -/

/-- Work that reaches a result where no lock but that of subscriptions is held, and gives back the
locks that it takes. -/
theorem ends_of_steady {x : Run E α} (ht : ∀ {h : Hub E}, h.Unheld → Total x h)
    (hs : ∀ {h a h'}, x h = .ok (a, h') → h.Steady h') : Ends (Frees c) x := by
  intro h
  cases hr : x h with
  | error halt =>
    cases halt with
    | deadlock lock =>
      intro hu
      obtain ⟨a, h', hok⟩ := ht hu
      rw [hr] at hok
      cases hok
    | tooDeep => trivial
  | ok p => exact fun hu => (hs hr).passed hu

omit [ServiceEntry E] in
/-- A lock that is not that of the subscription is free. -/
theorem free_of_unheld (hu : h.Unheld) {lock : Lock} (hl : lock ≠ .subscription) :
    lock ∉ (h.collection d).locks := by
  rcases hu d with hnone | hone
  · rw [hnone]
    exact List.not_mem_nil
  · rw [hone]
    exact fun hmem => hl (List.mem_singleton.1 hmem)

/-- A decision takes the lock of the index, and that of the storage within it, and gives both
back. -/
theorem ends_considered (d : Nat) (r : ServiceReference) :
    Ends (Frees c) (consider (E := E) d r) := by
  refine ends_of_steady (fun {h} hu => ?_) fun {h result h'} hr => ?_
  · exact consider_total (free_of_unheld hu (by decide)) (free_of_unheld hu (by decide)) r
  · cases consider_ok hr with
    | ignored => exact .of_collections rfl ⟨[], rfl, by simp⟩
    | failed | panicked => exact .of_collections rfl ⟨[.attempted d _ r.id], rfl, by simp⟩
    | refused =>
      exact .of_collections rfl ⟨[.created d _ r.id _, .attempted d _ r.id], rfl, by simp⟩
    | admitted =>
      exact .of_setTo rfl ⟨[.created d _ r.id _, .attempted d _ r.id], rfl, by simp⟩ rfl
        (fun hclosed => hclosed) rfl

/-- So does a retraction. -/
theorem ends_retracted (d : Nat) (id : UInt64) : Ends (Frees c) (retract (E := E) d id) := by
  refine ends_of_steady (fun {h} hu => ?_) fun {h result h'} hr => ?_
  · exact retract_total (free_of_unheld hu (by decide)) (free_of_unheld hu (by decide)) id
  · cases retract_ok hr with
    | absent => exact .of_collections rfl ⟨[], rfl, by simp⟩
    | found => exact .of_setTo rfl ⟨[], rfl, by simp⟩ rfl (fun hclosed => hclosed) rfl

/-- So does the clearing of a collection. -/
theorem ends_cleared (d : Nat) : Ends (Frees c) (clear (E := E) d) := by
  refine ends_of_steady (fun {h} hu => ?_) fun {h u h'} hr => ?_
  · have hs : .storage ∉ ((h.update d fun k =>
        { k with locks := .index :: k.locks }).collection d).locks :=
      free_of_update (free_of_unheld hu (by decide)) (by decide)
    refine .locked (free_of_unheld hu (by decide)) (.update (.locked ?_ ⟨_, _, rfl⟩))
    rw [collection_update]
    split <;> exact hs
  · obtain ⟨recent, -, rfl⟩ := clear_ok hr
    exact .of_setTo rfl ⟨[], rfl, by simp⟩ rfl (fun hclosed => hclosed) rfl

theorem ends_lifecycle (d : Nat) (l : Listener E) :
    Ends (Frees c) (addLifecycleListener d l) := by
  refine ends_of_steady (fun {h} hu => ?_) fun {h u h'} hr => ?_
  · refine .bind ⟨_, _, rfl⟩ fun a h₁ hattach => .locked ?_ ⟨_, _, rfl⟩
    cases hattach
    exact free_of_unheld (h := h) hu (by decide)
  · obtain ⟨recent, -, rfl⟩ := addLifecycleListener_ok hr
    exact .of_setTo rfl ⟨[], rfl, by simp⟩ rfl (fun hclosed => hclosed) rfl

theorem ends_state (d : Nat) (l : Listener E) : Ends (Frees c) (addStateListener d l) := by
  refine ends_of_steady (fun {h} hu => ?_) fun {h u h'} hr => ?_
  · refine .bind ⟨_, _, rfl⟩ fun a h₁ hattach => .locked ?_ ⟨_, _, rfl⟩
    cases hattach
    exact free_of_unheld (h := h) hu (by decide)
  · obtain ⟨recent, -, rfl⟩ := addStateListener_ok hr
    exact .of_setTo rfl ⟨[], rfl, by simp⟩ rfl (fun hclosed => hclosed) rfl

/-! ## Calls -/

/-- A listener that is called finds the locks that are held. -/
theorem frees_calling (l : Attached E) (callback : Callback E) :
    Frees c h (.ok (h.calling l callback)) := by
  intro hu
  refine ⟨hu, rfl, fun _ => rfl, fun _ => id, .steady [_] rfl ?_⟩
  intro tag callback' glimpse hmem hhome
  cases List.mem_singleton.1 hmem
  subst hhome
  rfl

/-- The beginning of a release takes no lock. -/
theorem frees_letting (d serial : Nat) (service : UInt64) (announced : Bool) :
    Frees c h (.ok (h.letting d serial service announced)) := by
  intro hu
  exact ⟨hu, rfl, fun _ => rfl, fun _ => id, .steady [_] rfl (.of_uncalled (by simp))⟩

/-- Rounds of calls. -/
theorem ends_callAll (hn : ∀ command, Ends (Frees c) (nested command)) (what : Guarded)
    (service : UInt64) (callback : Callback E) (listeners : List (Attached E)) :
    Ends (Frees c) (callAll nested what service callback listeners) :=
  .callAll _ _ fun l _ => .call hn fun _ => frees_calling l callback

/-- A round of the lifecycle listeners begins when their lock was given back. -/
theorem ends_lifecycleRound (hn : ∀ command, Ends (Frees c) (nested command)) (d : Nat)
    (what : Guarded) (service : UInt64) (callback : Callback E) :
    Ends (Frees c) (lifecycleListeners d >>= callAll nested what service callback) :=
  .bind (.look d .lifecycleListeners Collection.lifecycleListeners) fun _ => ends_callAll hn _ _ _ _

theorem ends_stateRound (hn : ∀ command, Ends (Frees c) (nested command)) (d : Nat)
    (what : Guarded) (service : UInt64) (callback : Callback E) :
    Ends (Frees c) (stateListeners d >>= callAll nested what service callback) :=
  .bind (.look d .stateListeners Collection.stateListeners) fun _ => ends_callAll hn _ _ _ _

/-! ## Deliveries -/

/-- What follows a decision happens when the lock of the index was given back. -/
theorem ends_afterAdmission (hn : ∀ command, Ends (Frees c) (nested command)) (d : Nat)
    (r : ServiceReference) (admission : Admission E) :
    Ends (Frees c) (afterAdmission nested d r admission) := by
  cases admission with
  | ignored => exact .pure _
  | refused serial release => exact .afterRefusal hn r (fun _ _ _ => frees_letting _ _ _ _) _ _
  | admitted entry first =>
    refine .bind (.announceAdmission (ends_lifecycleRound hn d _ _ _) ?_ first) fun _ => .pure _
    exact .bind (.collection d) fun _ => ends_stateRound hn d _ _ _

/-- A service is retracted under the lock, and its listeners are called after it. -/
theorem ends_removed (hn : ∀ command, Ends (Frees c) (nested command)) (d : Nat) (id : UInt64) :
    Ends (Frees c) (remove nested d id) := by
  refine .removed (ends_retracted d id) (fun removal => ?_) fun holding => ?_
  · refine .announceRemoval (ends_lifecycleRound hn d _ _ _) ?_
    exact .bind (.collection d) fun _ => ends_stateRound hn d _ _ _
  · exact .letGo hn fun _ _ => frees_letting _ _ _ _

/-- **Deliveries.** Whoever is called in a delivery finds the locks that were held before it. -/
theorem deliveries_free (hn : ∀ command, Ends (Frees c) (nested command)) :
    Deliveries nested (Frees c) where
  observed l _ := .call hn fun _ => frees_calling l _
  appeared d r := .appeared (ends_considered d r) (ends_afterAdmission hn d r)
  removed d id := ends_removed hn d id

end Run

end LiveServices
