import LiveServices.Proofs.Isolation.Unfailing
import LiveServices.Proofs.Run.Glimpses

/-!
# Runs that shadow each other

`Shadows R x x'` compares a run with another one that starts in the same hub with all unfailing:
where the first reaches a result, so does the second, the results are related by `R`, and the hubs
that they leave are again the same but for failures. It passes through sequencing, locks, loops and
branches, whatever the runs are made of (`Shadows.bind`, `Shadows.locked`, `Shadows.forM`,
`Shadows.ite`).

The one place where the finish of a guarded call is looked at is the note of its failure. Such a
note is no part of what is compared (`Shadows.notes`), and so two guarded calls may be compared
however they finish (`Shadows.call`, `Shadows.callAll`).
-/

namespace LiveServices

variable {E : Type}

/-! ## Rosters -/

section Rosters

variable {α β : Type} {key : α → UInt64} {key' : β → UInt64} {f : α → β}

/-- A search by identities finds the image of what it finds. -/
theorem Roster.find?_map (hf : ∀ a, key' (f a) = key a) (id : UInt64) (items : List α) :
    find? key' id (items.map f) = (find? key id items).map f := by
  simp only [find?, List.find?_map, Function.comp_def, hf]

/-- What is erased by its identity is erased from the images. -/
theorem Roster.erase_map (hf : ∀ a, key' (f a) = key a) (id : UInt64) (items : List α) :
    erase key' id (items.map f) = (erase key id items).map f := by
  simp only [erase, List.filter_map, Function.comp_def, hf]

/-- The image of what is put in goes to the same place. -/
theorem Roster.insert_map (hf : ∀ a, key' (f a) = key a) (a : α) (items : List α) :
    insert key' (f a) (items.map f) = (insert key a items).map f := by
  induction items with
  | nil => rfl
  | cons b bs ih =>
    rw [List.map_cons, insert, insert, hf, hf, ih]
    split
    · rfl
    · split
      · rfl
      · rfl

end Rosters

namespace Run

variable {α α' β β' γ : Type}

/-- Where the first run reaches a result, the second one reaches a related result from a hub in
which all is unfailing, and it leaves such a hub. -/
def Shadows (R : α → α' → Prop) (x : Run E α) (x' : Run E α') : Prop :=
  ∀ ⦃h h' : Hub E⦄, h.Spared h' → ∀ ⦃a g⦄, x h = .ok (a, g) →
    ∃ b g', x' h' = .ok (b, g') ∧ R a b ∧ g.Spared g'

namespace Shadows

variable {R : α → α' → Prop} {S : β → β' → Prop} {c : Nat} {lock : Lock}

theorem pure {a : α} {b : α'} (hR : R a b) :
    Shadows R (pure a : Run E α) (pure b) := by
  intro h h' hs a g hr
  obtain ⟨rfl, rfl⟩ := pure_eq_ok.1 hr
  exact ⟨b, h', rfl, hR, hs⟩

/-- A run that halts reaches no result to compare. -/
theorem throw (halt : Halt) (x' : Run E α') : Shadows R (throw halt : Run E α) x' := by
  rintro h h' - a g ⟨⟩

/-- Results may be compared in a weaker sense. -/
theorem mono {R' : α → α' → Prop} {x : Run E α} {x' : Run E α'} (hx : Shadows R x x')
    (hR : ∀ a b, R a b → R' a b) : Shadows R' x x' := by
  intro h h' hs a g hr
  obtain ⟨b, g', hr', hab, hs'⟩ := hx hs hr
  exact ⟨b, g', hr', hR a b hab, hs'⟩

/-- The second parts are compared from where the first parts ended. -/
theorem bind {x : Run E α} {x' : Run E α'} {f : α → Run E β} {f' : α' → Run E β'}
    (hx : Shadows R x x') (hf : ∀ a b, R a b → Shadows S (f a) (f' b)) :
    Shadows S (x >>= f) (x' >>= f') := by
  intro h h' hs b g hr
  obtain ⟨a, h₁, hone, htwo⟩ := bind_eq_ok.1 hr
  obtain ⟨a', h₁', hone', hab, hs₁⟩ := hx hs hone
  obtain ⟨b', g', htwo', hb, hs'⟩ := hf a a' hab hs₁ htwo
  exact ⟨b', g', bind_eq_ok.2 ⟨a', h₁', hone', htwo'⟩, hb, hs'⟩

theorem ite {p : Prop} [Decidable p] {x y : Run E α} {x' y' : Run E α'} (ht : Shadows R x x')
    (he : Shadows R y y') : Shadows R (if p then x else y) (if p then x' else y') := by
  split
  · exact ht
  · exact he

/-- A change of the hub with a result. -/
theorem changeGet {f : Hub E → α × Hub E} {g : Hub E → α' × Hub E}
    (hf : ∀ h h' : Hub E, h.Spared h' → R (f h).1 (g h').1 ∧ (f h).2.Spared (g h').2) :
    Shadows R (modifyGet f : Run E α) (modifyGet g) := by
  intro h h' hs a h₁ hr
  have hfh : f h = (a, h₁) := Except.ok.inj hr
  obtain ⟨hR, hs'⟩ := hf h h' hs
  rw [hfh] at hR hs'
  exact ⟨_, _, rfl, hR, hs'⟩

/-- Both hubs are changed, so that the second one is again the first one with all unfailing. -/
theorem change {f f' : Hub E → Hub E}
    (hf : ∀ h h' : Hub E, h.Spared h' → (f h).Spared (f' h')) :
    Shadows Eq (modify f : Run E Unit) (modify f') :=
  .changeGet (f := fun h => ((), f h)) (g := fun h => ((), f' h)) fun h h' hs => ⟨rfl, hf h h' hs⟩

theorem get : Shadows Hub.Spared (MonadState.get : Run E (Hub E)) MonadState.get :=
  .changeGet (f := fun h => (h, h)) (g := fun h => (h, h)) fun _ _ hs => ⟨hs, hs⟩

/-- A collection is seen as it is, with all that belongs to it unfailing. -/
theorem collection (c : Nat) :
    Shadows (fun k k' => k' = k.unfailing) (Run.collection (E := E) c) (Run.collection c) :=
  .bind .get fun _ _ hs => .pure (hs.collection c)

/-- A change of a collection is made to the unfailing one. -/
theorem update (c : Nat) {f f' : Collection E → Collection E}
    (hf : ∀ k, (f k).unfailing = f' k.unfailing) :
    Shadows Eq (Run.update c f) (Run.update c f') := .change fun _ _ hs => hs.update hf

/-- The same moment is recorded in both. -/
theorem record (m : Moment E) : Shadows Eq (Run.record m) (Run.record m) :=
  .change fun _ _ hs => hs.record m

/-- A lock that is free in one hub is free in the other. -/
theorem acquire (c : Nat) (lock : Lock) :
    Shadows Eq (Run.acquire (E := E) c lock) (Run.acquire c lock) := by
  have htake : Shadows Eq (Run.update c fun k : Collection E => { k with locks := lock :: k.locks })
      (Run.update c fun k => { k with locks := lock :: k.locks }) := .update c fun _ => rfl
  refine .bind (.collection c) fun k k' hk => ?_
  subst hk
  exact .ite (.bind (R := Eq) (.throw _ _) fun _ _ _ => htake) htake

/-- Work under a lock. -/
theorem locked (c : Nat) (lock : Lock) {body : Run E α} {body' : Run E α'}
    (hb : Shadows R body body') : Shadows R (Run.locked c lock body) (Run.locked c lock body') :=
  .bind (.acquire c lock) fun _ _ _ => .bind hb fun _ _ hR =>
    .bind (.update c fun _ => rfl) fun _ _ _ => .pure hR

/-- A look at a collection under a lock. -/
theorem look (c : Nat) (lock : Lock) {f : Collection E → α} {f' : Collection E → α'}
    (hf : ∀ k, R (f k) (f' k.unfailing)) :
    Shadows R (Run.locked c lock do Pure.pure (f (← Run.collection c)))
      (Run.locked c lock do Pure.pure (f' (← Run.collection c))) := by
  refine .locked c lock (.bind (.collection c) fun k k' hk => .pure ?_)
  subst hk
  exact hf k

/-- Work on a storage, which is the same in both hubs. -/
theorem reading (c : Nat) {f : Collection E → γ × LiveSequence E} {g : γ → Run E α}
    {g' : γ → Run E α'} (hf : ∀ k, f k.unfailing = f k) (hg : ∀ a, Shadows R (g a) (g' a)) :
    Shadows R
      (do
        let (a, storage) := f (← Run.collection c)
        Run.update c fun k => { k with storage := storage }
        g a)
      (do
        let (a, storage) := f (← Run.collection c)
        Run.update c fun k => { k with storage := storage }
        g' a) := by
  refine .bind (.collection c) fun k k' hk => ?_
  subst hk
  rw [hf]
  exact .bind (.update c fun _ => rfl) fun _ _ _ => hg _

/-- The loop over a list. -/
theorem forM {e : γ → γ} {f f' : γ → Run E PUnit} :
    ∀ l : List γ, (∀ a, Shadows Eq (f a) (f' (e a))) →
      Shadows Eq (l.forM f) ((l.map e).forM f')
  | [], _ => .pure rfl
  | a :: l, hf => .bind (hf a) fun _ _ _ => forM l hf

end Shadows

/-! ## Calls -/

/-- A run that does no more than to note the failure of a guarded call. -/
def Notes (x : Run E α) : Prop := ∀ h : Hub E, ∃ a g, x h = .ok (a, g) ∧
  (g = h ∨ ∃ m : Moment E, m.isMishap = true ∧ g = h.record m)

/-- What a guarded call comes to is noted, if it failed, and nothing else happens. -/
theorem notes_settle (what : Guarded) (name : String) (service : UInt64) (finish : Finish) :
    Notes (settle (E := E) what name service finish) := by
  intro h
  cases finish with
  | done => exact ⟨true, h, rfl, .inl rfl⟩
  | fail f => exact ⟨false, _, rfl, .inr ⟨.guardedFailure what name service f.message, rfl, rfl⟩⟩
  | panic message =>
    exact ⟨false, _, rfl, .inr ⟨.guardedPanic what name service message, rfl, rfl⟩⟩

namespace Shadows

/-- Whatever is noted of failures in either run, it makes no difference. -/
theorem notes {x : Run E α} {x' : Run E α'} (hx : Notes x) (hx' : Notes x') :
    Shadows (fun _ _ => True) x x' := by
  intro h h' hs a g hr
  obtain ⟨_, g₁, hr₁, hg⟩ := hx h
  obtain ⟨b, g', hr', hg'⟩ := hx' h'
  cases hr₁.symm.trans hr
  refine ⟨b, g', hr', trivial, ?_⟩
  have hone : g.Spared h' := by
    rcases hg with rfl | ⟨m, hm, rfl⟩
    · exact hs
    · exact (hs.mishap hm).1
  rcases hg' with rfl | ⟨m, hm, rfl⟩
  · exact hone
  · exact (hone.mishap hm).2

/-- However two guarded calls finished, it makes no difference. -/
theorem settle (what : Guarded) (name : String) (service : UInt64) (finish finish' : Finish) :
    Shadows (fun _ _ => True) (settle (E := E) what name service finish)
      (settle what name service finish') :=
  .notes (notes_settle what name service finish) (notes_settle what name service finish')

variable {nested nested' : Nested E} {R : Finish → Finish → Prop}

section Callees

variable (hn : ∀ command, Shadows Eq (nested command) (nested' command.unfailing))
include hn

/-- The same commands are given. A panic in one of them is the end of both. -/
theorem give {note note' : Command E → Answer → Run E Unit} {finish finish' : Finish}
    (hnote : ∀ command answer, Shadows Eq (note command answer) (note' command.unfailing answer))
    (hR : R finish finish') (hpanic : ∀ message, R (.panic message) (.panic message))
    (commands : List (Command E)) :
    Shadows R (give nested note finish commands)
      (give nested' note' finish' (commands.map Command.unfailing)) := by
  induction commands with
  | nil => exact .pure hR
  | cons command commands ih =>
    refine .bind (hn command) fun answer answer' hanswer => ?_
    subst hanswer
    split
    · exact .pure (hpanic _)
    · exact .bind (hnote command _) fun _ _ _ => ih

/-- A release action runs. -/
theorem runRelease (c serial : Nat) (service : UInt64) (release : Release E) :
    Shadows (fun _ _ => True) (runRelease nested c serial service release)
      (runRelease nested' c serial service release.unfailing) := by
  intro h h' hs finish g hr
  rw [runRelease_eq] at hr ⊢
  have hlet : (h.letting c serial service release.announced).Spared
      (h'.letting c serial service release.unfailing.announced) := by
    have hrec := hs.record (.releasing c serial service h.census release.announced)
    rw [Hub.letting, Hub.letting, hs.census, hs.released]
    exact { hrec with released := rfl }
  rw [show release.unfailing.response = release.response.unfailing true from rfl,
    Response.commands_unfailing]
  exact give (R := fun _ _ => True) hn (fun _ _ => .pure rfl) trivial (fun _ => trivial) _ hlet hr

variable [ServiceEntry E]

/-- A listener is called. If it is not guarded then it finishes in the same way. -/
theorem call (l : Attached E) (callback : Callback E) :
    Shadows (fun finish finish' => callback.isGuarded = false → finish = finish')
      (call nested l callback) (call nested' l.unfailing callback) := by
  intro h h' hs finish g hr
  rw [call_eq] at hr ⊢
  have hsight : h'.sight l.unfailing.home callback = h.sight l.home callback := by
    simp only [Hub.sight, hs.census, hs.released,
      show l.unfailing.home = l.home from rfl, hs.collection]
    rfl
  have hcall : (h.calling l callback).Spared (h'.calling l.unfailing callback) := by
    rw [Hub.calling, Hub.calling, hsight, Attached.tag_unfailing]
    exact hs.record _
  rw [Attached.tag_unfailing, Hub.history, hs.told, show l.unfailing.listener =
    l.listener.unfailing from rfl, Listener.respond_unfailing, Response.commands_unfailing]
  refine give (R := fun finish finish' => callback.isGuarded = false → finish = finish') hn
    (fun command answer => ?_) (fun hguarded => ?_) (fun _ _ => rfl) _ hcall hr
  · rw [Command.name_unfailing]
    exact .record _
  · rw [hguarded, Response.finish_unfailing]
    rfl

/-- Listeners are called under guard, one after the other. -/
theorem callAll (what : Guarded) (service : UInt64) (callback : Callback E)
    (listeners : List (Attached E)) :
    Shadows Eq (callAll nested what service callback listeners)
      (callAll nested' what service callback (listeners.map Attached.unfailing)) := by
  refine .forM listeners fun l => .bind (call hn l callback) fun finish finish' _ => ?_
  rw [show l.unfailing.listener.name = l.listener.name from l.listener.name_unfailing]
  exact .bind (.settle ..) fun _ _ _ => .pure rfl

/-- A round of the lifecycle listeners is the same, however its calls finish. -/
theorem lifecycleRound (c : Nat) (what : Guarded) (service : UInt64) (callback : Callback E) :
    Shadows Eq (do Run.callAll nested what service callback (← lifecycleListeners c))
      (do Run.callAll nested' what service callback (← lifecycleListeners c)) := by
  refine .bind (.look c _ (R := fun l l' => l' = l.map Attached.unfailing) fun _ => rfl) ?_
  rintro listeners _ rfl
  exact callAll hn ..

/-- So is a round of the state listeners. -/
theorem stateRound (c : Nat) (what : Guarded) (service : UInt64)
    (callback : Dependency → Callback E) :
    Shadows Eq (do
        let dependency := (← Run.collection c).dependency
        Run.callAll nested what service (callback dependency) (← stateListeners c))
      (do
        let dependency := (← Run.collection c).dependency
        Run.callAll nested' what service (callback dependency) (← stateListeners c)) := by
  refine .bind (.collection c) fun k k' hk => ?_
  subst hk
  refine .bind (.look c _ (R := fun l l' => l' = l.map Attached.unfailing) fun _ => rfl) ?_
  rintro listeners _ rfl
  exact callAll hn ..

end Callees

end Shadows

end Run

end LiveServices
