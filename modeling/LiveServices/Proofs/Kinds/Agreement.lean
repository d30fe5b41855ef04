import LiveServices.Proofs.Isolation.Commands
import LiveServices.Proofs.Kinds.Akin

/-!
# Runs that agree

Two runs agree if from hubs that are related they end in related results and related hubs, or halt
for the same reason (`Run.Agree`). Runs that read and change the hub agree from hubs that are akin,
if they do not ask for the mode of a collection.

There is one run that does, the one that stores an entry; it agrees if the entry is that of a
service that the collection does not have, and the storage has entries of services in the index
only (`Agree.consider`). So from here on the hubs are known to be matched as well (`Hub.Peers`).
-/

namespace LiveServices

variable {E : Type} [ServiceEntry E]

namespace Hub

/-- Two hubs that are akin, and in which the storages have just the entries of the indexes. -/
structure Peers (h h' : Hub E) : Prop where
  akin : h.Akin h'
  matched : h.Matched

/-- A relation between hubs that are akin. -/
class Likeness (Q : Hub E → Hub E → Prop) : Prop where
  akin : ∀ {h h' : Hub E}, Q h h' → h.Akin h'

instance : Likeness (Hub.Akin (E := E)) := ⟨id⟩

instance : Likeness (Hub.Peers (E := E)) := ⟨Peers.akin⟩

end Hub

namespace Run

variable {α α' β β' γ : Type} {Q Q' : Hub E → Hub E → Prop} {R : α → α' → Prop} {S : β → β' → Prop}

/-- What two runs ended in: results and hubs that are related, or the same halt. -/
inductive Meets (Q : Hub E → Hub E → Prop) (R : α → α' → Prop) :
    Except Halt (α × Hub E) → Except Halt (α' × Hub E) → Prop where
  | reached {a : α} {a' : α'} {h h' : Hub E} (hR : R a a') (hQ : Q h h') :
    Meets Q R (.ok (a, h)) (.ok (a', h'))
  | halted (halt : Halt) : Meets Q R (.error halt) (.error halt)

/-- From related hubs two runs end in the same way. -/
def Agree (Q : Hub E → Hub E → Prop) (R : α → α' → Prop) (x : Run E α) (x' : Run E α') : Prop :=
  ∀ ⦃h h' : Hub E⦄, Q h h' → Meets Q R (x h) (x' h')

omit [ServiceEntry E] in
/-- What two runs ended in goes on. -/
theorem Meets.bind {x : Run E α} {x' : Run E α'} {f : α → Run E β} {f' : α' → Run E β'}
    {h h' : Hub E} (hx : Meets Q R (x h) (x' h'))
    (hf : ∀ a a' g g', x h = .ok (a, g) → R a a' → Q g g' → Meets Q' S (f a g) (f' a' g')) :
    Meets Q' S ((x >>= f) h) ((x' >>= f') h') := by
  show Meets Q' S (x h >>= fun p => f p.1 p.2) (x' h' >>= fun p => f' p.1 p.2)
  generalize hr : x h = r at hx
  generalize x' h' = r' at hx
  cases hx with
  | reached hR hQ => exact hf _ _ _ _ hr hR hQ
  | halted halt => exact .halted halt

namespace Agree

/-! ## Rules -/

section Rules

omit [ServiceEntry E]

theorem pure {a : α} {a' : α'} (hR : R a a') : Agree Q R (pure a : Run E α) (pure a') :=
  fun _ _ hs => .reached hR hs

theorem throw (halt : Halt) : Agree Q R (throw halt : Run E α) (throw halt : Run E α') :=
  fun _ _ _ => .halted halt

/-- Sequences agree if their parts do. -/
theorem bind {x : Run E α} {x' : Run E α'} {f : α → Run E β} {f' : α' → Run E β'}
    (hx : Agree Q R x x') (hf : ∀ a a', R a a' → Agree Q S (f a) (f' a')) :
    Agree Q S (x >>= f) (x' >>= f') :=
  fun _ _ hs => (hx hs).bind fun a a' _ _ _ hR hQ => hf a a' hR hQ

/-- What follows a run with the same result in both hubs. -/
theorem next {x x' : Run E α} {f : α → Run E β} {f' : α → Run E β'} (hx : Agree Q Eq x x')
    (hf : ∀ a, Agree Q S (f a) (f' a)) : Agree Q S (x >>= f) (x' >>= f') :=
  .bind hx fun a _ heq => heq ▸ hf a

theorem ite {p : Prop} [Decidable p] {x y : Run E α} {x' y' : Run E α'} (ht : Agree Q R x x')
    (he : Agree Q R y y') : Agree Q R (if p then x else y) (if p then x' else y') := by
  split
  · exact ht
  · exact he

/-- A change of the hub with a result. -/
theorem changeGet {f : Hub E → α × Hub E}
    (hf : ∀ h h' : Hub E, Q h h' → (f h).1 = (f h').1 ∧ Q (f h).2 (f h').2) :
    Agree Q Eq (modifyGet f : Run E α) (modifyGet f) := fun h h' hs =>
  .reached (hf h h' hs).1 (hf h h' hs).2

theorem change {f f' : Hub E → Hub E} (hf : ∀ h h' : Hub E, Q h h' → Q (f h) (f' h')) :
    Agree Q Eq (modify f : Run E Unit) (modify f') := fun h h' hs => .reached rfl (hf h h' hs)

theorem get : Agree Q Q (MonadState.get : Run E (Hub E)) MonadState.get :=
  fun _ _ hs => .reached hs hs

/-- The loop over a list. -/
theorem forM {f f' : γ → Run E PUnit} (l : List γ) (hf : ∀ a, Agree Q Eq (f a) (f' a)) :
    Agree Q Eq (l.forM f) (l.forM f') := by
  induction l with
  | nil => exact .pure rfl
  | cons a l ih => exact .next (hf a) fun _ => ih

/-! ### Operations that may end before their result -/

/-- Operations that end in the same trouble do nothing more. -/
theorem act_bind {x x' : Act E α} {f : α → Act E β} {f' : α → Act E β}
    (hx : Agree Q Eq x.run x'.run) (hf : ∀ a, Agree Q Eq (f a).run (f' a).run) :
    Agree Q Eq (x >>= f).run (x' >>= f').run := by
  refine .next hx fun result => ?_
  cases result with
  | ok a => exact hf a
  | error t => exact .pure rfl

theorem act_lift {x x' : Run E α} (hx : Agree Q Eq x x') :
    Agree Q Eq (liftM x : Act E α).run (liftM x' : Act E α).run :=
  .next hx fun _ => .pure rfl

/-- What is done after a look at the hub may rely on how the hubs are related. -/
theorem act_get {f f' : Hub E → Act E α} (hf : ∀ h h', Q h h' → Agree Q Eq (f h).run (f' h').run) :
    Agree Q Eq (MonadState.get >>= f : Act E α).run (MonadState.get >>= f' : Act E α).run :=
  .bind .get hf

theorem act_forM {f f' : γ → Act E PUnit} (l : List γ)
    (hf : ∀ a, Agree Q Eq (f a).run (f' a).run) : Agree Q Eq (l.forM f).run (l.forM f').run := by
  induction l with
  | nil => exact .pure rfl
  | cons a l ih => exact .act_bind (hf a) fun _ => ih

theorem answered {f : α → Answer} {act act' : Act E α} (ha : Agree Q Eq act.run act'.run) :
    Agree Q Eq (answered f act) (answered f act') := by
  refine .next ha fun result => ?_
  split
  · exact .pure rfl
  · exact .pure rfl
  · exact .pure rfl

end Rules

/-! ## Hubs that are akin -/

section Readings

/-- Two runs that read the state of a collection. -/
theorem collection [Hub.Likeness Q] (c : Nat) {f : Collection E → Run E α}
    {f' : Collection E → Run E α'} (hf : ∀ k k', k.Akin k' → Agree Q R (f k) (f' k')) :
    Agree Q R (Run.collection c >>= f) (Run.collection c >>= f') := fun h h' hs => by
  rw [collection_bind, collection_bind]
  exact hf _ _ ((Hub.Likeness.akin hs).collection c) hs

/-- It may rely on that the collections are akin. -/
theorem act_collection [Hub.Likeness Q] (c : Nat) {f f' : Collection E → Act E α}
    (hf : ∀ k k', k.Akin k' → Agree Q Eq (f k).run (f' k').run) :
    Agree Q Eq (Run.collection (E := E) c >>= f : Act E α).run
      (Run.collection (E := E) c >>= f' : Act E α).run := .collection c hf

/-- A change that does not look at the mode keeps collections akin. -/
theorem update (c : Nat) {f : Collection E → Collection E}
    (hf : ∀ k k', k.Akin k' → (f k).Akin (f k')) :
    Agree Hub.Akin Eq (Run.update c f) (Run.update c f) := .change fun _ _ hs => hs.update hf

/-- Moments that are akin are recorded in both. -/
theorem record {m m' : Moment E} (hm : m.Akin m') :
    Agree Hub.Akin Eq (Run.record m) (Run.record m') := .change fun _ _ hs => hs.record hm

/-- A lock is taken in both hubs or waited for in both. -/
theorem acquire (c : Nat) (lock : Lock) :
    Agree Hub.Akin Eq (Run.acquire (E := E) c lock) (Run.acquire c lock) := by
  refine .collection c fun k k' hk => ?_
  rw [hk.locks]
  have htake : Agree Hub.Akin Eq
      (Run.update (E := E) c fun k => { k with locks := lock :: k.locks })
      (Run.update c fun k => { k with locks := lock :: k.locks }) :=
    .update c fun _ _ ⟨m, hm⟩ => .intro m hm
  exact .ite (.next (.throw _) fun _ => htake) htake

theorem giveBack (c : Nat) (lock : Lock) :
    Agree Hub.Akin Eq (Run.giveBack (E := E) c lock) (Run.giveBack c lock) :=
  .update c fun _ _ ⟨m, hm⟩ => .intro m hm

theorem locked (c : Nat) (lock : Lock) {body body' : Run E α} (hb : Agree Hub.Akin Eq body body') :
    Agree Hub.Akin Eq (Run.locked c lock body) (Run.locked c lock body') :=
  .next (.acquire c lock) fun _ => .next hb fun _ => .next (.giveBack c lock) fun _ => .pure rfl

/-- A look at a collection under a lock. -/
theorem look (c : Nat) (lock : Lock) {f : Collection E → α} (hf : ∀ k k', k.Akin k' → f k = f k') :
    Agree Hub.Akin Eq (Run.locked c lock do Pure.pure (f (← Run.collection c)))
      (Run.locked c lock do Pure.pure (f (← Run.collection c))) :=
  .locked c lock (.collection c fun k k' hk => .pure (hf k k' hk))

/-- Work on a storage, which is the same in both hubs. -/
theorem reading (c : Nat) (f : LiveSequence E → γ × LiveSequence E) {g : γ → Run E α}
    (hg : ∀ a, Agree Hub.Akin Eq (g a) (g a)) :
    Agree Hub.Akin Eq
      (do
        let (a, storage) := f (← Run.collection c).storage
        Run.update c fun k => { k with storage := storage }
        g a)
      (do
        let (a, storage) := f (← Run.collection c).storage
        Run.update c fun k => { k with storage := storage }
        g a) := by
  refine .collection c fun k k' hk => ?_
  rw [hk.storage]
  exact .next (.update c fun _ _ ⟨m, hm⟩ => .intro m hm) fun _ => hg _

/-- Whether a collection is available depends on its dependency and its size. -/
theorem available (c : Nat) : Agree Hub.Akin Eq (available (E := E) c) (available c) :=
  .look c _ fun _ _ ⟨_, _⟩ => rfl

theorem isClosed (c : Nat) : Agree Hub.Akin Eq (isClosed (E := E) c) (isClosed c) :=
  .look c _ fun _ _ ⟨_, _⟩ => rfl

theorem storedSize (c : Nat) : Agree Hub.Akin Eq (storedSize (E := E) c) (storedSize c) :=
  .look c _ fun _ _ ⟨_, _⟩ => rfl

/-! ### Sections -/

omit [ServiceEntry E] in
/-- A collection whose lock was taken. -/
theorem collection_taking (h : Hub E) (c : Nat) (lock : Lock) :
    ∃ locks, (h.taking c lock).collection c = { h.collection c with locks := locks } := by
  rw [Hub.taking, Hub.collection_update]
  split
  · exact ⟨_, rfl⟩
  · exact ⟨_, rfl⟩

/-- Two sections agree if their work does, once the lock was taken. -/
theorem meets_locked {h h' : Hub E} (hs : h.Akin h') {c : Nat} {lock : Lock}
    {body body' : Run E α} (hb : (h.taking c lock).Akin (h'.taking c lock) →
      Meets Hub.Akin Eq (body (h.taking c lock)) (body' (h'.taking c lock))) :
    Meets Hub.Akin Eq (Run.locked c lock body h) (Run.locked c lock body' h') := by
  have hlocks : (h'.collection c).locks = (h.collection c).locks := (hs.collection c).locks
  by_cases hl : lock ∈ (h.collection c).locks
  · rw [locked_of_held hl, locked_of_held (hlocks ▸ hl)]
    exact .halted _
  · rw [locked_of_free hl, locked_of_free (hlocks ▸ hl)]
    have htaking : (h.taking c lock).Akin (h'.taking c lock) :=
      hs.update fun _ _ ⟨m, hm⟩ => .intro m hm
    have hbody := hb htaking
    unfold Hub.taking at hbody
    generalize body _ = result at hbody
    generalize body' _ = result' at hbody
    cases hbody with
    | reached hR hQ => exact .reached hR (hQ.update fun _ _ ⟨m, hm⟩ => .intro m hm)
    | halted halt => exact .halted halt

/-- An entry that is stored in the same way whatever the mode. -/
theorem meets_store {h h' : Hub E} (hs : h.Akin h') {c : Nat} {entry : E}
    (happend : ∀ m : Mode E, m.SameFor (h.collection c).factory (h.collection c).mode →
      (h.collection c).storage.append m entry =
        (h.collection c).storage.append (h.collection c).mode entry) :
    Meets Hub.Akin Eq (store c entry h) (store c entry h') := by
  refine meets_locked hs fun hs => ?_
  obtain ⟨locks, htaking⟩ := collection_taking h c .storage
  have hk := hs.collection c
  rw [collection_bind, collection_bind, htaking] at *
  generalize (h'.taking c .storage).collection c = k' at hk
  obtain ⟨m, hm⟩ := hk
  rw [happend m hm]
  have hput (storage : LiveSequence E) :
      Agree Hub.Akin Eq (Run.update c fun k => { k with storage := storage })
        (Run.update c fun k => { k with storage := storage }) :=
    .update c fun _ _ ⟨m, hm⟩ => .intro m hm
  exact Agree.next (hput _) (fun _ => .pure rfl) hs

theorem nextAttempt : Agree Hub.Akin Eq (nextAttempt (E := E)) nextAttempt :=
  .changeGet fun _ _ hs =>
    ⟨by rw [hs.attempts], { hs with attempts := congrArg (· + 1) hs.attempts }⟩

/-- The same is judged about a service that appeared. -/
theorem meets_judge {h h' : Hub E} (hs : h.Akin h') {c : Nat} (hsound : (h.collection c).Sound)
    (hexact : (h.collection c).factory.EntriesIdentified → (h.collection c).Exact)
    (r : ServiceReference) : Meets Hub.Akin Eq (judge c r h) (judge c r h') := by
  have hk := hs.collection c
  rw [judge, collection_bind, collection_bind, hk.closed, hk.hasIdentity, hk.factory, hk.dependency]
  by_cases hno : ((h.collection c).closed || (h.collection c).hasIdentity r.id) = true
  · rw [if_pos hno]
    exact .reached rfl hs
  · rw [if_neg hno]
    have hn : (h.collection c).hasIdentity r.id = false :=
      (Bool.or_eq_false_iff.1 (Bool.eq_false_iff.2 hno)).2
    refine (Agree.nextAttempt hs).bind fun serial _ g g' hserial heq hs => ?_
    subst heq
    obtain ⟨-, rfl⟩ := Prod.mk.inj (Except.ok.inj hserial)
    refine (Agree.record (.same _) hs).bind fun _ _ g g' hattempted _ hs => ?_
    obtain ⟨-, rfl⟩ := Prod.mk.inj (Except.ok.inj hattempted)
    cases hmade : (h.collection c).factory.create serial r with
    | failed f => exact .reached rfl hs
    | panicked message => exact .reached rfl hs
    | made entry release =>
      refine (Agree.record (.same _) hs).bind fun _ _ g g' hcreated _ hs => ?_
      obtain ⟨-, rfl⟩ := Prod.mk.inj (Except.ok.inj hcreated)
      refine (meets_store hs fun m hm => hm.append_eq hsound hexact hmade hn).bind
        fun taken _ g g' _ heq hs => ?_
      subst heq
      refine Agree.ite (.next (.storedSize c) fun size => ?_) (.pure rfl) hs
      refine .next (.update c fun k k' hk => ?_) fun _ => .pure rfl
      obtain ⟨m, hm⟩ := hk
      exact .intro m hm

/-- An entry is removed from both storages at the same place, since they are the same. -/
theorem unstore (c : Nat) (entry : E) : Agree Hub.Akin Eq (unstore c entry) (unstore c entry) :=
  .locked c _ (.reading c (fun s => s.removeOne entry) fun _ => .pure rfl)

/-- The same is taken out. -/
theorem retract (c : Nat) (id : UInt64) :
    Agree Hub.Akin Eq (retract (E := E) c id) (retract c id) := by
  refine .locked c _ (.collection c fun k k' hk => ?_)
  rw [hk.index]
  cases Roster.find? Holding.id id k.index with
  | none => exact .pure rfl
  | some holding =>
    refine .next (.update c fun _ _ ⟨m, hm⟩ => .intro m hm) fun _ => ?_
    refine .next (.unstore c holding.entry) fun wasStored => .next (.storedSize c) fun size => ?_
    exact .collection c fun k k' hk => .pure (by rw [hk.dependency])

/-- Both collections are closed with the same services in them. -/
theorem close (c : Nat) : Agree Hub.Akin Eq (close (E := E) c) (close c) :=
  .locked c _ (.next (.update c fun _ _ ⟨m, hm⟩ => .intro m hm) fun _ =>
    .collection c fun _ _ hk => .pure hk.identities.symm)

/-- Both collections are left empty. -/
theorem clear (c : Nat) : Agree Hub.Akin Eq (clear (E := E) c) (clear c) :=
  .locked c _ (.next (.update c fun _ _ ⟨m, hm⟩ => .intro m hm) fun _ =>
    .locked c _ (.update c fun _ _ ⟨m, hm⟩ => .intro m hm))

end Readings

/-! ## Hubs that are matched as well -/

section Peers

/-- Runs that agree keep the hubs matched if one of them does. -/
theorem meets_peers {x : Run E α} {x' : Run E α'} {h h' : Hub E}
    (hx : Meets Hub.Akin R (x h) (x' h')) (hk : Keeps (Hub.Preserves Hub.Matched) x)
    (hm : h.Matched) : Meets Hub.Peers R (x h) (x' h') := by
  have hkeep := hk (h := h)
  generalize x h = result at hx hkeep
  generalize x' h' = result' at hx
  cases hx with
  | reached hR hQ => exact .reached hR ⟨hQ, hkeep rfl hm⟩
  | halted halt => exact .halted halt

/-- Runs that agree from hubs that are akin agree from peers, if they keep the storage matched. -/
theorem peers {x : Run E α} {x' : Run E α'} (hx : Agree Hub.Akin R x x')
    (hk : Keeps (Hub.Preserves Hub.Matched) x) : Agree Hub.Peers R x x' :=
  fun _ _ hs => meets_peers (hx hs.akin) hk hs.matched

/-- What commands are built of keeps the hubs matched. -/
theorem leaf {x : Run E α} {x' : Run E α'} (hx : Agree Hub.Akin R x x')
    (hb : Built (fun _ => MonadExcept.throw .tooDeep) true x) : Agree Hub.Peers R x x' :=
  hx.peers ((steps_matched.course fun _ => .throw _).built hb)

/-- A change of a collection in which its stock stays. -/
theorem adjust (c : Nat) {f : Collection E → Collection E}
    (hf : ∀ k k', k.Akin k' → (f k).Akin (f k')) (hs : ∀ k, Collection.SameStock k (f k)) :
    Agree Hub.Peers Eq (Run.update c f) (Run.update c f) := (update c hf).peers (.update c hs)

/-- A plain moment is recorded, and the storages stay matched. -/
theorem note {m : Moment E} (hm : m.IsPlain) : Agree Hub.Peers Eq (Run.record m) (Run.record m) :=
  (record (.same m)).peers (.record hm)

/-- **Deciding.** The same is decided about a service that appeared. -/
theorem consider (c : Nat) (r : ServiceReference) :
    Agree Hub.Peers Eq (consider (E := E) c r) (consider c r) := fun h h' hs => by
  refine meets_peers (meets_locked hs.akin fun htaking => ?_) (steps_matched.considered c r)
    hs.matched
  obtain ⟨locks, hk⟩ := collection_taking h c .index
  have hsame : (h.collection c).SameEntries ((h.taking c .index).collection c) :=
    hk ▸ ⟨rfl, rfl, rfl⟩
  exact meets_judge htaking (.of_sameEntries hsame (hs.matched.coherent.now c))
    (fun hf => (hs.matched.exact c (hsame.factory ▸ hf)).of_sameEntries hsame) r

end Peers

end Agree

end Run

end LiveServices
