import LiveServices.Hub.Execute
import LiveServices.Hub.Lemmas

/-!
# What runs keep

`Keeps S x` says that the relation `S` holds between the hub before and the hub after whenever
the run `x` reaches a result. A run that halts reaches none, so this is partial correctness,
stated with the state before at hand: "nothing was forgotten" and "the balance is what it was"
are such relations.

A relation is worth keeping step by step if it is a `Law`: it holds across every step aside, a
step that touches neither the entries of a collection nor its listeners (`Hub.Aside`), and it
can be chained. A `Rule` asks for less: it holds across the steps aside that leave the registry
and what subscriptions were told alone too (`Hub.Beside`). For a rule, `Keeps` passes through
sequencing, locks, loops and operations that end in a failure, whatever the relation is
(`Keeps.bind`, `Keeps.locked`, `Keeps.forM`, `Keeps.act_bind`).
-/

namespace LiveServices

/-! ## Steps aside -/

/-- Two states of a collection that hold the same entries for the same listeners. The second may
be closed where the first is not. -/
structure Collection.SameStock (k k' : Collection E) : Prop where
  dependency : k'.dependency = k.dependency
  mode : k'.mode = k.mode
  factory : k'.factory = k.factory
  index : k'.index = k.index
  items : k'.storage.items = k.storage.items
  lifecycle : k'.lifecycleListeners = k.lifecycleListeners
  state : k'.stateListeners = k.stateListeners
  closed : k.closed = true → k'.closed = true

namespace Collection.SameStock

variable {k k₁ k₂ k₃ : Collection E}

theorem refl (k : Collection E) : SameStock k k :=
  ⟨rfl, rfl, rfl, rfl, rfl, rfl, rfl, id⟩

theorem trans (h₁ : SameStock k₁ k₂) (h₂ : SameStock k₂ k₃) : SameStock k₁ k₃ where
  dependency := h₂.dependency.trans h₁.dependency
  mode := h₂.mode.trans h₁.mode
  factory := h₂.factory.trans h₁.factory
  index := h₂.index.trans h₁.index
  items := h₂.items.trans h₁.items
  lifecycle := h₂.lifecycle.trans h₁.lifecycle
  state := h₂.state.trans h₁.state
  closed hk := h₂.closed (h₁.closed hk)

/-- The same services are in both. -/
theorem identities (h : SameStock k₁ k₂) : k₂.identities = k₁.identities := by
  rw [Collection.identities, h.index, Collection.identities]

end Collection.SameStock

/-- Two states of a collection that is in both closed or in neither, with one subscription. -/
structure Collection.SameStanding (k k' : Collection E) : Prop where
  closed : k'.closed = k.closed
  subscription : k'.subscription = k.subscription
  dropped : k'.dropped = k.dropped

namespace Collection.SameStanding

variable {k k₁ k₂ k₃ : Collection E}

theorem refl (k : Collection E) : SameStanding k k := ⟨rfl, rfl, rfl⟩

theorem trans (h₁ : SameStanding k₁ k₂) (h₂ : SameStanding k₂ k₃) : SameStanding k₁ k₃ :=
  ⟨h₂.closed.trans h₁.closed, h₂.subscription.trans h₁.subscription, h₂.dropped.trans h₁.dropped⟩

end Collection.SameStanding

/-- Which subscription was told of which event at this moment. -/
def Moment.report? : Moment E → Option (UInt64 × ServiceEvent)
  | .delivered subscription event => some (subscription, event)
  | _ => none

/-- A moment that tells of no call of a listener or a factory, of no entry made and of no
release. -/
def Moment.IsPlain : Moment E → Prop
  | .called _ _ _ | .attempted _ _ _ | .created _ _ _ _ | .releasing _ _ _ _ _ => False
  | _ => True

/-- The second hub comes after the first by steps that left the entries, the listeners and the
calls alone. -/
structure Hub.Aside (h h' : Hub E) : Prop where
  length : h'.collections.length = h.collections.length
  stock : ∀ c, (h.collection c).SameStock (h'.collection c)
  trace : ∃ recent, h'.trace = recent ++ h.trace ∧ ∀ m ∈ recent, m.IsPlain
  past : ∃ recent, h'.past = recent ++ h.past ∧
    ∀ p ∈ recent, (h.collection p.1).SameStock p.2
  released : h'.released = h.released
  listeners : h.listeners ≤ h'.listeners
  attempts : h.attempts ≤ h'.attempts

namespace Hub

variable {E : Type} {h h₁ h₂ h₃ : Hub E} {c d : Nat} {f : Collection E → Collection E}

/-- A collection after a change of one of them. -/
theorem collection_update (h : Hub E) (c d : Nat) (f : Collection E → Collection E) :
    (h.update c f).collection d =
      if d = c ∧ c < h.collections.length then f (h.collection d) else h.collection d := by
  by_cases hd : c = d
  · subst hd
    by_cases hc : c < h.collections.length
    · simp [collection_update_self hc, hc]
    · simp [update, collection, hc]
  · rw [collection_update_of_ne hd, if_neg (fun h => hd h.1.symm)]

namespace Aside

theorem refl (h : Hub E) : Aside h h :=
  ⟨rfl, fun _ => .refl _, ⟨[], rfl, by simp⟩, ⟨[], rfl, by simp⟩, rfl, Nat.le_refl _, Nat.le_refl _⟩

theorem trans (h₁₂ : Aside h₁ h₂) (h₂₃ : Aside h₂ h₃) : Aside h₁ h₃ where
  length := h₂₃.length.trans h₁₂.length
  stock c := (h₁₂.stock c).trans (h₂₃.stock c)
  trace := by
    obtain ⟨older, ho, hop⟩ := h₁₂.trace
    obtain ⟨newer, hn, hnp⟩ := h₂₃.trace
    refine ⟨newer ++ older, by rw [hn, ho, List.append_assoc], fun m hm => ?_⟩
    rcases List.mem_append.1 hm with hm | hm
    · exact hnp m hm
    · exact hop m hm
  past := by
    obtain ⟨older, ho, hop⟩ := h₁₂.past
    obtain ⟨newer, hn, hnp⟩ := h₂₃.past
    refine ⟨newer ++ older, by rw [hn, ho, List.append_assoc], fun p hp => ?_⟩
    rcases List.mem_append.1 hp with hp | hp
    · -- a state that the second half passed: it is compared with the start of the first
      exact (h₁₂.stock p.1).trans (hnp p hp)
    · exact hop p hp
  released := h₂₃.released.trans h₁₂.released
  listeners := Nat.le_trans h₁₂.listeners h₂₃.listeners
  attempts := Nat.le_trans h₁₂.attempts h₂₃.attempts

/-- A change of a collection that leaves its entries and listeners alone is a step aside. -/
theorem update_here (c : Nat) (hf : (h.collection c).SameStock (f (h.collection c))) :
    Aside h (h.update c f) where
  length := length_collections_update
  stock d := by
    rw [collection_update]
    split
    · next hd => rwa [hd.1]
    · exact .refl _
  trace := ⟨[], rfl, by simp⟩
  past := by
    refine ⟨[(c, h.collection c)], rfl, fun p hp => ?_⟩
    rw [List.mem_singleton.1 hp]
    exact .refl _
  released := rfl
  listeners := Nat.le_refl _
  attempts := Nat.le_refl _

/-- So is a change that leaves those of every collection alone. -/
theorem update (c : Nat) (hf : ∀ k, Collection.SameStock k (f k)) : Aside h (h.update c f) :=
  .update_here c (hf _)

/-- Noting a plain moment is a step aside. -/
theorem record {m : Moment E} (hm : m.IsPlain) : Aside h (h.record m) :=
  ⟨rfl, fun _ => .refl _, ⟨[m], rfl, by simpa using hm⟩, ⟨[], rfl, by simp⟩, rfl, Nat.le_refl _,
    Nat.le_refl _⟩

/-- What happens outside of the collections and the trace happens aside. -/
theorem of_eq {h' : Hub E} (hc : h'.collections = h.collections) (ht : h'.trace = h.trace)
    (hp : h'.past = h.past) (hr : h'.released = h.released) (hl : h.listeners ≤ h'.listeners)
    (ha : h.attempts ≤ h'.attempts) : Aside h h' where
  length := by rw [hc]
  stock c := by
    rw [show h'.collection c = h.collection c by rw [collection, hc, collection]]
    exact .refl _
  trace := ⟨[], by simpa using ht, by simp⟩
  past := ⟨[], by simpa using hp, by simp⟩
  released := hr
  listeners := hl
  attempts := ha

end Aside

/-- The reports that were made, the latest first: which subscription was told of which event. -/
def reports (h : Hub E) : List (UInt64 × ServiceEvent) := h.trace.filterMap Moment.report?

/-- The second hub comes after the first by steps aside that left the registry and the standing of
each collection alone, and in which no subscription was told of anything. -/
structure Beside (h h' : Hub E) : Prop where
  aside : h.Aside h'
  registry : h'.registry = h.registry
  reports : h'.reports = h.reports
  standing : ∀ c, (h.collection c).SameStanding (h'.collection c)

namespace Beside

theorem refl (h : Hub E) : Beside h h := ⟨.refl h, rfl, rfl, fun _ => .refl _⟩

theorem trans (h₁₂ : Beside h₁ h₂) (h₂₃ : Beside h₂ h₃) : Beside h₁ h₃ where
  aside := h₁₂.aside.trans h₂₃.aside
  registry := h₂₃.registry.trans h₁₂.registry
  reports := h₂₃.reports.trans h₁₂.reports
  standing c := (h₁₂.standing c).trans (h₂₃.standing c)

/-- If it leaves the standing of the collection alone too, it is a step beside the registry. -/
theorem update (c : Nat) (hf : ∀ k, Collection.SameStock k (f k))
    (hs : ∀ k, Collection.SameStanding k (f k)) : Beside h (h.update c f) where
  aside := .update c hf
  registry := rfl
  reports := rfl
  standing d := by
    rw [collection_update]
    split
    · exact hs _
    · exact .refl _

/-- A plain moment that reports nothing may be recorded. -/
theorem record {m : Moment E} (hm : m.IsPlain) (hr : m.report? = none) : Beside h (h.record m) where
  aside := .record hm
  registry := rfl
  reports := List.filterMap_cons_none hr
  standing _ := .refl _

end Beside

/-- A relation between hubs that holds across steps aside and can be chained. -/
class Law (S : Hub E → Hub E → Prop) : Prop where
  aside : ∀ {h h' : Hub E}, h.Aside h' → S h h'
  trans : ∀ {h₁ h₂ h₃ : Hub E}, S h₁ h₂ → S h₂ h₃ → S h₁ h₃

/-- A relation between hubs that holds across those steps aside that leave the registry alone, and
can be chained. -/
class Rule (S : Hub E → Hub E → Prop) : Prop where
  beside : ∀ {h h' : Hub E}, h.Beside h' → S h h'
  trans : ∀ {h₁ h₂ h₃ : Hub E}, S h₁ h₂ → S h₂ h₃ → S h₁ h₃

instance : Rule (Beside (E := E)) := ⟨id, Beside.trans⟩

instance (S : Hub E → Hub E → Prop) [Law S] : Rule S := ⟨fun hb => Law.aside hb.aside, Law.trans⟩

instance : Law (Aside (E := E)) := ⟨id, Aside.trans⟩

/-- The second hub has a property if the first has it. -/
def Preserves (I : Hub E → Prop) (h h' : Hub E) : Prop := I h → I h'

/-- A property of hubs that no step aside ends. -/
class Stable (I : Hub E → Prop) : Prop where
  aside : ∀ {h h' : Hub E}, h.Aside h' → I h → I h'

instance (I : Hub E → Prop) [Stable I] : Law (Preserves I) :=
  ⟨Stable.aside, fun h₁₂ h₂₃ hI => h₂₃ (h₁₂ hI)⟩

end Hub

/-! ## Kept relations -/

namespace Run

variable {E α β : Type} {S T : Hub E → Hub E → Prop}

/-- The relation holds between the hubs before and after a run that reaches a result. -/
def Keeps (S : Hub E → Hub E → Prop) (x : Run E α) : Prop :=
  ∀ ⦃h : Hub E⦄ ⦃a : α⦄ ⦃h' : Hub E⦄, x h = .ok (a, h') → S h h'

namespace Keeps

/-- What is kept is kept in any weaker sense. -/
theorem mono {x : Run E α} (hx : Keeps S x) (hST : ∀ {h h'}, S h h' → T h h') : Keeps T x :=
  fun _ _ _ hr => hST (hx hr)

theorem and {x : Run E α} (hS : Keeps S x) (hT : Keeps T x) :
    Keeps (fun h h' => S h h' ∧ T h h') x := fun _ _ _ hr => ⟨hS hr, hT hr⟩

/-- A run that halts reaches no hub, so it keeps everything. -/
theorem throw (e : Halt) : Keeps S (throw e : Run E α) := by
  rintro h a h' ⟨⟩

section Rules

variable [Hub.Rule S]

theorem pure (a : α) : Keeps S (pure a : Run E α) := by
  intro h b h' hr
  obtain ⟨-, rfl⟩ := pure_eq_ok.1 hr
  exact Hub.Rule.beside (.refl h)

/-- A sequence keeps a relation that can be chained. -/
theorem bind {x : Run E α} {f : α → Run E β} (hx : Keeps S x) (hf : ∀ a, Keeps S (f a)) :
    Keeps S (x >>= f) := by
  intro h b h' hr
  obtain ⟨a, h₁, h1, h2⟩ := bind_eq_ok.1 hr
  exact Hub.Rule.trans (hx h1) (hf a h2)

theorem get : Keeps S (get : Run E (Hub E)) := by
  rintro h _ h' ⟨⟩
  exact Hub.Rule.beside (.refl h)

theorem collection (c : Nat) : Keeps S (collection c : Run E _) := .bind .get fun _ => .pure _

/-- A change of a collection in which its stock and its standing stay. -/
theorem adjust (c : Nat) {f : Collection E → Collection E}
    (hf : ∀ k, Collection.SameStock k (f k)) (hs : ∀ k, Collection.SameStanding k (f k)) :
    Keeps S (Run.update c f) := by
  rintro h _ h' ⟨⟩
  exact Hub.Rule.beside (.update c hf hs)

/-- A moment at which no subscription is told of anything. -/
theorem note {m : Moment E} (hm : m.IsPlain) (hr : m.report? = none) : Keeps S (record m) := by
  rintro h _ h' ⟨⟩
  exact Hub.Rule.beside (.record hm hr)

/-- A lock is no part of what a step aside leaves alone, so it may be taken. -/
theorem acquire (c : Nat) (lock : Lock) : Keeps S (acquire c lock : Run E Unit) := by
  have htake : Keeps S (Run.update c fun k : Collection E => { k with locks := lock :: k.locks }) :=
    .adjust c (fun _ => ⟨rfl, rfl, rfl, rfl, rfl, rfl, rfl, id⟩) fun _ => ⟨rfl, rfl, rfl⟩
  refine .bind (.collection c) fun k => ?_
  -- a lock that is held halts the run; the step after the halt is the one that a free lock takes
  split
  · exact .bind (.throw _) fun _ => htake
  · exact htake

theorem giveBack (c : Nat) (lock : Lock) : Keeps S (giveBack c lock : Run E Unit) :=
  .adjust c (fun _ => ⟨rfl, rfl, rfl, rfl, rfl, rfl, rfl, id⟩) fun _ => ⟨rfl, rfl, rfl⟩

/-- A rule that is kept by the work under a lock is kept with the lock. -/
theorem locked (c : Nat) (lock : Lock) {body : Run E α} (hb : Keeps S body) :
    Keeps S (locked c lock body) :=
  .bind (.acquire c lock) fun _ => .bind hb fun _ => .bind (.giveBack c lock) fun _ => .pure _

/-- The loop over a list. -/
theorem forM {γ : Type} {f : γ → Run E PUnit} :
    ∀ (l : List γ), (∀ a ∈ l, Keeps S (f a)) → Keeps S (l.forM f)
  | [], _ => .pure _
  | a :: l, hf =>
    .bind (hf a List.mem_cons_self) fun _ => forM l fun b hb => hf b (List.mem_cons_of_mem _ hb)

/-! ### Operations that may end before their result -/

theorem act_pure (a : α) : Keeps S (Pure.pure a : Act E α).run := .pure _

theorem act_throw (t : Trouble) : Keeps S (MonadExcept.throw t : Act E α).run := .pure _

/-- After a step that failed nothing more is done. -/
theorem act_bind {x : Act E α} {f : α → Act E β} (hx : Keeps S x.run)
    (hf : ∀ a, Keeps S (f a).run) : Keeps S (x >>= f).run := by
  refine .bind hx fun a => ?_
  cases a with
  | ok a => exact hf a
  | error t => exact .pure _

theorem act_lift {x : Run E α} (hx : Keeps S x) : Keeps S (liftM x : Act E α).run :=
  .bind hx fun _ => .pure _

end Rules

/-! ### Steps aside -/

variable [Hub.Law S]

/-- A change of the hub that is a step aside. -/
theorem change {f : Hub E → Hub E} (hf : ∀ h : Hub E, h.Aside (f h)) :
    Keeps S (modify f : Run E Unit) := by
  rintro h _ h' ⟨⟩
  exact Hub.Law.aside (hf h)

/-- A change of the hub that is a step aside, with a result. -/
theorem changeGet {f : Hub E → α × Hub E} (hf : ∀ h : Hub E, h.Aside (f h).2) :
    Keeps S (modifyGet f : Run E α) := by
  intro h a h' hr
  have hfh : f h = (a, h') := Except.ok.inj hr
  have ha := hf h
  rw [hfh] at ha
  exact Hub.Law.aside ha

/-- A change of the registry is a step aside. -/
theorem onRegistry (f : Registry E → α × Registry E) : Keeps S (onRegistry f) :=
  .changeGet fun _ => .of_eq rfl rfl rfl rfl (Nat.le_refl _) (Nat.le_refl _)

theorem update (c : Nat) {f : Collection E → Collection E}
    (hf : ∀ k, Collection.SameStock k (f k)) : Keeps S (update c f) := .change fun _ => .update c hf

theorem record {m : Moment E} (hm : m.IsPlain) : Keeps S (record m) := .change fun _ => .record hm

end Keeps

end Run

end LiveServices
