import LiveServices.Proofs.Isolation.Shadows

/-!
# Operations shadow each other

What is decided in a section on a collection depends on the services that are in it and on the
entries that its factory makes; the release actions are only handed on. So the sections shadow each
other, with the release action in their results unfailing (`Shadows.consider`, `Shadows.retract`),
and then so do the operations that follow a decision up.
-/

namespace LiveServices

variable {E : Type} [ServiceEntry E]

omit [ServiceEntry E] in
/-- A decision with the release action of a refused entry unfailing. -/
def Admission.unfailing : Admission E → Admission E
  | .refused serial release => .refused serial (release.map Release.unfailing)
  | admission => admission

omit [ServiceEntry E] in
/-- A removal with the release action unfailing. -/
def Removal.unfailing (removal : Removal E) : Removal E :=
  { removal with holding := removal.holding.unfailing }

/-- Two outcomes: related results, or the same trouble. -/
def Outcomes (R : α → β → Prop) : Except Trouble α → Except Trouble β → Prop
  | .ok a, .ok b => R a b
  | .error t, .error t' => t = t'
  | _, _ => False

/-- Outcomes are related by equality if they are equal. -/
theorem outcomes_eq_iff {r r' : Except Trouble α} : Outcomes Eq r r' ↔ r = r' := by
  cases r <;> cases r' <;> simp [Outcomes]

namespace Run

/-- The note of an entry that could not be released is no part of what is compared. -/
theorem notes_unreleased (done : Bool) (holding : Holding E) :
    Notes (E := E) (do
      unless done do
        record (.unreleased holding.id (ServiceEntry.text (← get).released holding.entry))) := by
  intro h
  cases done with
  | true => exact ⟨(), h, rfl, .inl rfl⟩
  | false =>
    exact ⟨(), _, rfl, .inr ⟨.unreleased holding.id (ServiceEntry.text h.released holding.entry),
      rfl, rfl⟩⟩

namespace Shadows

variable {α α' β β' γ : Type} {R : α → α' → Prop} {S : β → β' → Prop}
  {nested nested' : Nested E}

/-! ## Sections -/

/-- An entry is stored or refused in the same way, for a storage calls nobody. -/
theorem store (c : Nat) (entry : E) : Shadows Eq (store c entry) (store c entry) :=
  .locked c _ (.reading (f := fun k => k.storage.append k.mode entry) c (fun _ => rfl)
    fun _ => .pure rfl)

theorem unstore (c : Nat) (entry : E) : Shadows Eq (unstore c entry) (unstore c entry) :=
  .locked c _ (.reading (f := fun k => k.storage.removeOne entry) c (fun _ => rfl)
    fun _ => .pure rfl)

omit [ServiceEntry E] in
theorem storedSize (c : Nat) : Shadows Eq (storedSize (E := E) c) (storedSize c) :=
  .look c _ fun _ => rfl

omit [ServiceEntry E] in
/-- Attempts to make an entry have the same numbers. -/
theorem nextAttempt : Shadows Eq (nextAttempt (E := E)) nextAttempt :=
  .changeGet fun _ _ hs =>
    ⟨by rw [hs.attempts], { hs with attempts := by rw [hs.attempts] }⟩

/-- The same is decided about a service that appeared. -/
theorem consider (c : Nat) (r : ServiceReference) :
    Shadows (Outcomes fun admission admission' => admission' = admission.unfailing)
      (consider (E := E) c r) (consider c r) := by
  refine .locked c _ (.bind (.collection c) fun k k' hk => ?_)
  subst hk
  rw [Collection.hasIdentity_unfailing]
  refine .ite (.pure rfl) (.bind .nextAttempt fun serial serial' hserial => ?_)
  subst hserial
  refine .bind (.record _) fun _ _ _ => ?_
  rw [show k.unfailing.factory.create serial r = (k.factory.create serial r).unfailing from rfl]
  cases k.factory.create serial r with
  | failed f => exact .pure rfl
  | panicked message => exact .pure rfl
  | made entry release =>
    have hrelease : (release.map Release.unfailing).isSome = release.isSome := by
      cases release <;> rfl
    show Shadows _ _ (do
      Run.record (.created c serial r.id (release.map Release.unfailing).isSome)
      _)
    rw [hrelease]
    refine .bind (.record _) fun _ _ _ => .bind (.store c entry) fun taken taken' htaken => ?_
    subst htaken
    refine .ite (.bind (.storedSize c) fun size size' hsize => ?_) (.pure rfl)
    subst hsize
    refine .bind (.update c fun k => ?_) fun _ _ _ => .pure rfl
    simp only [Collection.unfailing, Collection.mk.injEq, true_and, and_true]
    exact (Roster.insert_map Holding.id_unfailing _ _).symm

/-- The same is taken away. -/
theorem retract (c : Nat) (id : UInt64) :
    Shadows (fun removal removal' => removal' = removal.map Removal.unfailing)
      (retract (E := E) c id) (retract c id) := by
  refine .locked c _ (.bind (.collection c) fun k k' hk => ?_)
  subst hk
  have hfind : Roster.find? Holding.id id k.unfailing.index =
      (Roster.find? Holding.id id k.index).map Holding.unfailing :=
    Roster.find?_map Holding.id_unfailing id k.index
  rw [hfind]
  cases Roster.find? Holding.id id k.index with
  | none => exact .pure rfl
  | some holding =>
    refine .bind (.update c fun k => ?_) fun _ _ _ => ?_
    · simp only [Collection.unfailing, Collection.mk.injEq, true_and, and_true]
      exact (Roster.erase_map Holding.id_unfailing id k.index).symm
    · refine .bind (.unstore c holding.entry) fun wasStored wasStored' hstored => ?_
      subst hstored
      refine .bind (.storedSize c) fun size size' hsize => ?_
      subst hsize
      refine .bind (.collection c) fun k k' hk => ?_
      subst hk
      exact .pure rfl

omit [ServiceEntry E] in
/-- The services that a collection is closed with are the same. -/
theorem close (c : Nat) : Shadows Eq (close (E := E) c) (close c) := by
  refine .locked c _ (.bind (.update c fun _ => rfl) fun _ _ _ => ?_)
  refine .bind (.collection c) fun k k' hk => .pure ?_
  rw [hk, Collection.identities_unfailing]

omit [ServiceEntry E] in
theorem clear (c : Nat) : Shadows Eq (clear (E := E) c) (clear c) :=
  .locked c _ (.bind (.update c fun _ => rfl) fun _ _ _ =>
    .locked c _ (.update c fun _ => rfl))

/-! ## Operations -/

section Operations

variable (hn : ∀ command, Shadows Eq (nested command) (nested' command.unfailing))
include hn

/-- An admission is announced to the same listeners. -/
theorem announceAdmission (c : Nat) (entry : E) (r : ServiceReference) (first : Bool) :
    Shadows Eq (announceAdmission nested c entry r first)
      (announceAdmission nested' c entry r first) :=
  .bind (lifecycleRound hn c ..) fun _ _ _ =>
    .ite (stateRound hn c _ _ Callback.satisfied) (.pure rfl)

/-- What follows a decision: calls of listeners, or the release of what was refused. -/
theorem afterAdmission (c : Nat) (r : ServiceReference) (admission : Admission E) :
    Shadows Eq (afterAdmission nested c r admission)
      (afterAdmission nested' c r admission.unfailing) := by
  cases admission with
  | ignored => exact .pure rfl
  | refused serial release =>
    cases release with
    | none => exact .pure rfl
    | some release =>
      refine .bind (.collection c) fun k k' hk => ?_
      subst hk
      exact .bind (runRelease hn ..) fun _ _ _ => .bind (.settle ..) fun _ _ _ => .pure rfl
  | admitted entry first => exact .bind (announceAdmission hn ..) fun _ _ _ => .pure rfl

/-- A service appears. -/
theorem appeared (c : Nat) (r : ServiceReference) :
    Shadows Eq (apply nested c .appeared r) (apply nested' c .appeared r) := by
  refine .bind (.consider c r) fun result result' hresult => ?_
  cases result with
  | error t =>
    cases result' with
    | error t' => exact .pure (congrArg Except.error hresult)
    | ok admission' => exact hresult.elim
  | ok admission =>
    cases result' with
    | error t' => exact hresult.elim
    | ok admission' =>
      obtain rfl : admission' = admission.unfailing := hresult
      exact .bind (afterAdmission hn c r admission) fun _ _ heq => .pure (congrArg Except.ok heq)

/-- A removal is announced if the storage had the entry, and it had it in both. -/
theorem announceRemoval (c : Nat) (removal : Removal E) :
    Shadows Eq (announceRemoval nested c removal)
      (announceRemoval nested' c removal.unfailing) :=
  .ite (.bind (lifecycleRound hn c ..) fun _ _ _ =>
    .ite (stateRound hn c _ _ Callback.unsatisfied) (.pure rfl)) (.pure rfl)

/-- An entry is let go. Whether its release failed is noted, and makes no difference. -/
theorem letGo (c : Nat) (holding : Holding E) :
    Shadows Eq (letGo nested c holding) (letGo nested' c holding.unfailing) := by
  obtain ⟨serial, entry, r, release⟩ := holding
  cases release with
  | none => exact .pure rfl
  | some release =>
    refine .bind (.collection c) fun k k' hk => ?_
    subst hk
    refine .bind (runRelease hn ..) fun _ _ _ => .bind (.settle ..) fun done done' _ => ?_
    have hnotes : Shadows (fun _ _ => True) _ _ :=
      .notes (notes_unreleased done ⟨serial, entry, r, some release⟩)
        (notes_unreleased done' ⟨serial, entry, r, some release.unfailing⟩)
    exact hnotes.mono fun _ _ _ => rfl

/-- A service is taken away. -/
theorem remove (c : Nat) (id : UInt64) :
    Shadows Eq (remove nested c id) (remove nested' c id) := by
  refine .bind (.retract c id) fun removal removal' hremoval => ?_
  subst hremoval
  cases removal with
  | none => exact .pure rfl
  | some removal =>
    exact .bind (announceRemoval hn c removal) fun _ _ _ =>
      .bind (letGo hn c removal.holding) fun _ _ _ => .pure rfl

/-- Services are taken away one by one, and as many of them are counted. -/
theorem removeAll (c : Nat) (ids : List UInt64) :
    Shadows Eq (removeAll nested c ids) (removeAll nested' c ids) := by
  induction ids with
  | nil => exact .pure rfl
  | cons id ids ih =>
    refine .bind (remove hn c id) fun outcome outcome' houtcome => ?_
    subst houtcome
    refine .bind ih fun rest rest' hrest => ?_
    subst hrest
    exact .pure rfl

/-- A collection is closed, emptied, and cleared. -/
theorem shutdown (c : Nat) : Shadows Eq (shutdown nested c) (shutdown nested' c) := by
  refine .bind (.close c) fun live live' hlive => ?_
  subst hlive
  refine .bind (removeAll hn c live) fun count count' hcount => ?_
  subst hcount
  exact .bind (.clear c) fun _ _ _ => .pure rfl

end Operations

end Shadows

end Run

end LiveServices
