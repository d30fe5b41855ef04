import LiveServices.Proofs.Run.Steps

/-!
# What a run never takes back

`Hub.Onward h h'` says what is certain of a later hub: the collections are what they were built
as, what was attached to them stays attached and what is attached later has a greater number,
what was noted stays noted, and a closed collection stays closed and loses services only. Every
run goes onward (`onward_run`, `onward_runAll`).

`Hub.KeyedBy select h` says of one kind of listeners that a number names one of them in a
collection, and that they know which collection they watch. A number is given once, so this
holds of every hub that a run reaches (`keyed_runAll`).
-/

namespace LiveServices

variable {E : Type}

/-- The second state of a collection comes after the first, with listeners attached in between
that have at least the number `n`. -/
structure Collection.Grown (n : Nat) (k k' : Collection E) : Prop where
  dependency : k'.dependency = k.dependency
  mode : k'.mode = k.mode
  factory : k'.factory = k.factory
  lifecycle : ∃ fresh, k'.lifecycleListeners = k.lifecycleListeners ++ fresh ∧
    ∀ a ∈ fresh, n ≤ a.key
  state : ∃ fresh, k'.stateListeners = k.stateListeners ++ fresh ∧ ∀ a ∈ fresh, n ≤ a.key
  closed : k.closed = true → k'.closed = true ∧ k'.identities ⊆ k.identities

namespace Collection.Grown

variable {n n₁ n₂ : Nat} {k k' k₁ k₂ k₃ : Collection E}

theorem of_sameStock (h : k.SameStock k') : Grown n k k' where
  dependency := h.dependency
  mode := h.mode
  factory := h.factory
  lifecycle := ⟨[], by simpa using h.lifecycle, by simp⟩
  state := ⟨[], by simpa using h.state, by simp⟩
  closed hk := ⟨h.closed hk, by rw [h.identities]; exact List.Subset.refl _⟩

theorem refl (n : Nat) (k : Collection E) : Grown n k k := of_sameStock (.refl k)

/-- What was attached first and what was attached then was attached in the end. -/
theorem attached_trans {l₁ l₂ l₃ : List (Attached E)} (hn : n₁ ≤ n₂)
    (h₁ : ∃ fresh, l₂ = l₁ ++ fresh ∧ ∀ a ∈ fresh, n₁ ≤ a.key)
    (h₂ : ∃ fresh, l₃ = l₂ ++ fresh ∧ ∀ a ∈ fresh, n₂ ≤ a.key) :
    ∃ fresh, l₃ = l₁ ++ fresh ∧ ∀ a ∈ fresh, n₁ ≤ a.key := by
  obtain ⟨f₁, rfl, hf₁⟩ := h₁
  obtain ⟨f₂, rfl, hf₂⟩ := h₂
  refine ⟨f₁ ++ f₂, List.append_assoc .., fun a ha => ?_⟩
  rcases List.mem_append.1 ha with ha | ha
  · exact hf₁ a ha
  · exact Nat.le_trans hn (hf₂ a ha)

theorem trans (hn : n₁ ≤ n₂) (h₁ : Grown n₁ k₁ k₂) (h₂ : Grown n₂ k₂ k₃) : Grown n₁ k₁ k₃ where
  dependency := h₂.dependency.trans h₁.dependency
  mode := h₂.mode.trans h₁.mode
  factory := h₂.factory.trans h₁.factory
  lifecycle := attached_trans hn h₁.lifecycle h₂.lifecycle
  state := attached_trans hn h₁.state h₂.state
  closed hk := by
    obtain ⟨hk₂, hsub₁⟩ := h₁.closed hk
    obtain ⟨hk₃, hsub₂⟩ := h₂.closed hk₂
    exact ⟨hk₃, List.Subset.trans hsub₂ hsub₁⟩

end Collection.Grown

namespace Hub

/-- The second hub comes after the first. -/
structure Onward (h h' : Hub E) : Prop where
  length : h'.collections.length = h.collections.length
  collection : ∀ c, (h.collection c).Grown h.listeners (h'.collection c)
  trace : ∃ recent, h'.trace = recent ++ h.trace
  past : ∃ recent, h'.past = recent ++ h.past
  listeners : h.listeners ≤ h'.listeners

namespace Onward

variable {h h' h₁ h₂ h₃ : Hub E} {c : Nat}

theorem of_aside (ha : h.Aside h') : Onward h h' where
  length := ha.length
  collection c := .of_sameStock (ha.stock c)
  trace := ha.trace.imp fun _ ht => ht.1
  past := ha.past.imp fun _ hp => hp.1
  listeners := ha.listeners

theorem trans (h₁₂ : Onward h₁ h₂) (h₂₃ : Onward h₂ h₃) : Onward h₁ h₃ where
  length := h₂₃.length.trans h₁₂.length
  collection c := (h₁₂.collection c).trans h₁₂.listeners (h₂₃.collection c)
  trace := by
    obtain ⟨older, ho⟩ := h₁₂.trace
    obtain ⟨newer, hn⟩ := h₂₃.trace
    exact ⟨newer ++ older, by rw [hn, ho, List.append_assoc]⟩
  past := by
    obtain ⟨older, ho⟩ := h₁₂.past
    obtain ⟨newer, hn⟩ := h₂₃.past
    exact ⟨newer ++ older, by rw [hn, ho, List.append_assoc]⟩
  listeners := Nat.le_trans h₁₂.listeners h₂₃.listeners

instance : Law (Onward (E := E)) := ⟨of_aside, trans⟩

/-- A section goes onward if it adds no service to a closed collection. -/
theorem of_section (hs : h.Section c h')
    (hk : (h.collection c).closed = true →
      (h'.collection c).identities ⊆ (h.collection c).identities) : Onward h h' where
  length := hs.length
  collection d := by
    by_cases hd : d = c
    · subst hd
      exact ⟨hs.dependency, hs.mode, hs.factory, ⟨[], by simpa using hs.lifecycle, by simp⟩,
        ⟨[], by simpa using hs.state, by simp⟩, fun hcl => ⟨hs.closed.trans hcl, hk hcl⟩⟩
    · -- a section changes one collection only
      rw [hs.others d hd]
      exact .refl _ _
  trace := hs.trace.imp fun _ ht => ht.1
  past := hs.past.imp fun _ hp => hp.1
  listeners := Nat.le_of_eq hs.listeners.symm

/-- Attaching a listener to a collection goes onward. -/
theorem of_attached {k : Collection E} {past : List (Nat × Collection E)}
    (hk : (h.collection c).Grown h.listeners k) (hp : ∃ recent, past = recent ++ h.past) :
    Onward h (({ h with listeners := h.listeners + 1 } : Hub E).setTo c k past) where
  length := List.length_set
  collection d := by
    rw [collection_setTo]
    split
    · next hd => rwa [hd.1]
    · exact .refl _ _
  trace := ⟨[], rfl⟩
  past := hp
  listeners := Nat.le_succ _

end Onward

end Hub

namespace Run

open Hub

variable [ServiceEntry E]

/-- Every kind of step goes onward. -/
theorem steps_onward : Steps (E := E) Onward where
  considered c r h result h' hr := by
    have hc := consider_ok hr
    refine .of_section hc.toSection fun hk => ?_
    cases hc with
    -- nothing is admitted to a closed collection
    | admitted ho => rw [ho] at hk; cases hk
    | ignored | failed | panicked | refused => exact List.Subset.refl _
  retracted c id h result h' hr := by
    have hc := retract_ok hr
    refine .of_section hc.toSection fun hk => ?_
    cases hc with
    | absent => exact List.Subset.refl _
    | found hf =>
      rw [collection_setTo]
      split
      · rw [Collection.identities_leave]
        exact fun _ hx => (List.mem_filter.1 hx).1
      · exact List.Subset.refl _
  cleared c h u h' hr := by
    refine .of_section (section_of_clear hr) fun hk => ?_
    obtain ⟨recent, -, rfl⟩ := clear_ok hr
    rw [collection_setTo]
    split
    · exact List.nil_subset _
    · exact List.Subset.refl _
  called _ _ _ _ := ⟨rfl, fun _ => .refl _ _, ⟨[_], rfl⟩, ⟨[], rfl⟩, Nat.le_refl _⟩
  released _ _ _ _ _ _ :=
    ⟨rfl, fun _ => .refl _ _, ⟨[_], rfl⟩, ⟨[], rfl⟩, Nat.le_refl _⟩
  lifecycle c l h u h' hr := by
    obtain ⟨recent, -, rfl⟩ := addLifecycleListener_ok hr
    refine .of_attached ⟨rfl, rfl, rfl, ⟨_, rfl, by simp⟩, ⟨[], by simp, by simp⟩, ?_⟩ ⟨_, rfl⟩
    exact fun hk => ⟨hk, List.Subset.refl _⟩
  state c l h u h' hr := by
    obtain ⟨recent, -, rfl⟩ := addStateListener_ok hr
    refine .of_attached ⟨rfl, rfl, rfl, ⟨[], by simp, by simp⟩, ⟨_, rfl, by simp⟩, ?_⟩ ⟨_, rfl⟩
    exact fun hk => ⟨hk, List.Subset.refl _⟩

/-- A service that was taken out of a closed collection does not come back. -/
theorem remove_of_closed {nested : Nested E} (hn : ∀ command, Keeps Onward (nested command))
    {c : Nat} {id : UInt64} {h h' : Hub E} {outcome : Reconciled}
    (hk : (h.collection c).closed = true) (hr : remove nested c id h = .ok (outcome, h')) :
    id ∉ (h'.collection c).identities := by
  obtain ⟨removal, h₁, hret, hr⟩ := bind_eq_ok.1 hr
  have hk₁ := (((steps_onward.retracted c id hret).collection c).closed hk).1
  have hgone : id ∉ (h₁.collection c).identities := by
    cases retract_ok hret with
    | absent hno => exact fun hmem => Bool.false_ne_true (hno ▸ Collection.hasIdentity_iff.2 hmem)
    | found hf =>
      obtain rfl := Collection.id_of_find? hf
      rw [collection_setTo_self, Collection.identities_leave]
      · simp
      · -- a collection with a holding is one of the hub
        refine lt_length_of_index fun hnil => ?_
        rw [hnil] at hf
        cases hf
  cases removal with
  | none =>
    obtain ⟨-, rfl⟩ := pure_eq_ok.1 hr
    exact hgone
  | some removal =>
    -- the listeners that are told may start anything, but not bring a service back
    have hafter := steps_onward.afterRemoval hn c removal hr
    exact fun hmem => hgone (((hafter.collection c).closed hk₁).2 hmem)

/-- What was in a closed collection is gone once all of it was taken away. -/
theorem removeAll_of_closed {nested : Nested E} (hn : ∀ command, Keeps Onward (nested command))
    {c : Nat} {ids : List UInt64} {h h' : Hub E} {count : Nat}
    (hk : (h.collection c).closed = true) (hr : removeAll nested c ids h = .ok (count, h')) :
    ∀ id ∈ ids, id ∉ (h'.collection c).identities := by
  induction ids generalizing h count with
  | nil => exact fun id hid => absurd hid List.not_mem_nil
  | cons id ids ih =>
    -- the first service is gone after its own step, and all that follows goes onward
    obtain ⟨outcome, h₁, hone, hr⟩ := bind_eq_ok.1 hr
    obtain ⟨rest, h₂, hrest, hr⟩ := bind_eq_ok.1 hr
    obtain ⟨-, rfl⟩ := pure_eq_ok.1 hr
    have hk₁ := (((steps_onward.remove hn c id hone).collection c).closed hk).1
    have hlater := (steps_onward.removeAll hn c ids hrest).collection c
    intro x hx
    rcases List.mem_cons.1 hx with rfl | hx
    · exact fun hmem => remove_of_closed hn hk hone ((hlater.closed hk₁).2 hmem)
    · exact ih hk₁ hrest x hx

/-- Closing a collection and taking away all that is in it leaves nothing. -/
theorem index_of_removeAll {nested : Nested E} (hn : ∀ command, Keeps Onward (nested command))
    {c : Nat} {live : List UInt64} {h h₁ h₂ : Hub E} {count : Nat}
    (hclose : close c h = .ok (live, h₁)) (hr : removeAll nested c live h₁ = .ok (count, h₂)) :
    (h₂.collection c).index = [] := by
  obtain ⟨rfl, hk⟩ := close_ok hclose
  have hless := (((steps_onward.removeAll hn c _ hr).collection c).closed hk).2
  cases hi : (h₂.collection c).index with
  | nil => rfl
  | cons holding rest =>
    -- what is left was there at the closing, so it was on the list
    have hmem : holding.id ∈ (h₂.collection c).identities := by
      rw [Collection.identities, hi]
      exact List.mem_cons_self
    exact absurd hmem (removeAll_of_closed hn hk hr _ (hless hmem))

/-- **Onward.** Every command goes onward. -/
theorem onward_run (depth : Nat) (command : Command E) : Keeps Onward (run depth command) :=
  keeps_run (fun _ hn => steps_onward.course hn) depth command

end Run

/-- Every sequence of commands goes onward. -/
theorem Hub.onward_runAll [ServiceEntry E] {depth : Nat} {commands : List (Command E)}
    {h h' : Hub E} {answers : List Answer}
    (hr : h.runAll depth commands = .ok (answers, h')) : Onward h h' :=
  Run.keeps_runAll (Run.onward_run depth) hr

/-! ## Numbers of listeners -/

/-- A number names one of these listeners in a collection, and they all watch that collection. -/
structure Hub.KeyedBy (select : Collection E → List (Attached E)) (h : Hub E) : Prop where
  nodup : ∀ c, ((select (h.collection c)).map Attached.key).Nodup
  below : ∀ {c a}, a ∈ select (h.collection c) → a.key < h.listeners
  home : ∀ {c a}, a ∈ select (h.collection c) → a.home = c

namespace Hub.KeyedBy

variable {select : Collection E → List (Attached E)} {h h' : Hub E} {c : Nat} {l : Listener E}

/-- New listeners of one collection have new numbers. -/
theorem of_attached (hnew : ∀ d, ∃ fresh,
      select (h'.collection d) = select (h.collection d) ++ fresh ∧
      (fresh.map Attached.key).Nodup ∧
      ∀ a ∈ fresh, d = c ∧ h.listeners ≤ a.key ∧ a.key < h'.listeners ∧ a.home = c)
    (hle : h.listeners ≤ h'.listeners) (hk : KeyedBy select h) : KeyedBy select h' := by
  have hmem : ∀ {d a}, a ∈ select (h'.collection d) →
      a ∈ select (h.collection d) ∨
        d = c ∧ h.listeners ≤ a.key ∧ a.key < h'.listeners ∧ a.home = c := by
    intro d a ha
    obtain ⟨fresh, hd, -, hf⟩ := hnew d
    rw [hd] at ha
    rcases List.mem_append.1 ha with ha | ha
    · exact .inl ha
    · exact .inr (hf a ha)
  refine ⟨fun d => ?_, fun {d a} ha => ?_, fun {d a} ha => ?_⟩
  · obtain ⟨fresh, hd, hn, hf⟩ := hnew d
    rw [hd, List.map_append, List.nodup_append]
    -- the old numbers are below the counter, the new ones are not
    refine ⟨hk.nodup d, hn, fun n hn m hm => ?_⟩
    obtain ⟨a, ha, rfl⟩ := List.mem_map.1 hn
    obtain ⟨b, hb, rfl⟩ := List.mem_map.1 hm
    exact Nat.ne_of_lt (Nat.lt_of_lt_of_le (hk.below ha) (hf b hb).2.1)
  · rcases hmem ha with ha | ⟨-, -, ha, -⟩
    · exact Nat.lt_of_lt_of_le (hk.below ha) hle
    · exact ha
  · rcases hmem ha with ha | ⟨hd, -, -, ha⟩
    · exact hk.home ha
    · exact ha.trans hd.symm

/-- Where the listeners stay they keep their numbers. -/
theorem of_same (hsame : ∀ d, select (h'.collection d) = select (h.collection d))
    (hle : h.listeners ≤ h'.listeners) : KeyedBy select h → KeyedBy select h' :=
  of_attached (c := 0) (fun d => ⟨[], by simpa using hsame d, List.nodup_nil, by simp⟩) hle

/-- A collection that was given one listener more has a new number in it. -/
theorem of_setTo {k : Collection E} {past : List (Nat × Collection E)}
    (hsel : select k = select (h.collection c) ++ [⟨h.listeners, c, l⟩])
    (hk : KeyedBy select h) :
    KeyedBy select (({ h with listeners := h.listeners + 1 } : Hub E).setTo c k past) := by
  refine .of_attached (c := c) (fun d => ?_) (Nat.le_succ _) hk
  rw [collection_setTo]
  split
  · next hd =>
    rw [hd.1]
    exact ⟨[⟨h.listeners, c, l⟩], hsel, by simp, by simp [setTo]⟩
  · exact ⟨[], (List.append_nil _).symm, List.nodup_nil, by simp⟩

/-- A collection that was given a listener of another kind has the numbers it had. -/
theorem of_setTo_same {k : Collection E} {past : List (Nat × Collection E)}
    (hsel : select k = select (h.collection c)) (hk : KeyedBy select h) :
    KeyedBy select (({ h with listeners := h.listeners + 1 } : Hub E).setTo c k past) := by
  refine .of_same (fun d => ?_) (Nat.le_succ _) hk
  rw [collection_setTo]
  split
  · next hd => rw [hd.1, hsel]
  · rfl

end Hub.KeyedBy

/-- A number names one lifecycle listener and one state listener at most. -/
structure Hub.Keyed (h : Hub E) : Prop where
  lifecycle : h.KeyedBy Collection.lifecycleListeners
  state : h.KeyedBy Collection.stateListeners

namespace Hub.Keyed

variable {h h' : Hub E} {c : Nat}

theorem of_same
    (hl : ∀ d, (h'.collection d).lifecycleListeners = (h.collection d).lifecycleListeners)
    (hs : ∀ d, (h'.collection d).stateListeners = (h.collection d).stateListeners)
    (hle : h.listeners ≤ h'.listeners) (hk : Keyed h) : Keyed h' :=
  ⟨.of_same hl hle hk.lifecycle, .of_same hs hle hk.state⟩

instance : Stable (Keyed (E := E)) :=
  ⟨fun ha => of_same (fun d => (ha.stock d).lifecycle) (fun d => (ha.stock d).state) ha.listeners⟩

theorem of_section (hs : h.Section c h') : Keyed h → Keyed h' := by
  refine of_same (fun d => ?_) (fun d => ?_) (Nat.le_of_eq hs.listeners.symm)
  all_goals
    by_cases hd : d = c
    · subst hd
      first | exact hs.lifecycle | exact hs.state
    · rw [hs.others d hd]

/-- A new lifecycle listener has a new number. -/
theorem of_addLifecycleListener {l : Listener E} {u : Unit}
    (hr : Run.addLifecycleListener c l h = .ok (u, h')) : Keyed h → Keyed h' := by
  obtain ⟨recent, -, rfl⟩ := Run.addLifecycleListener_ok hr
  exact fun hk => ⟨hk.lifecycle.of_setTo rfl, hk.state.of_setTo_same rfl⟩

/-- A new state listener has a new number. -/
theorem of_addStateListener {l : Listener E} {u : Unit}
    (hr : Run.addStateListener c l h = .ok (u, h')) : Keyed h → Keyed h' := by
  obtain ⟨recent, -, rfl⟩ := Run.addStateListener_ok hr
  exact fun hk => ⟨hk.lifecycle.of_setTo_same rfl, hk.state.of_setTo rfl⟩

end Hub.Keyed

/-! ## From the plans on -/

namespace Plan

/-- The numbers that a plan gives its listeners. -/
theorem mem_attach {home key : Nat} {listeners : List (Listener E)} {a : Attached E}
    (ha : a ∈ attach home key listeners) :
    key ≤ a.key ∧ a.key < key + listeners.length ∧ a.home = home := by
  obtain ⟨i, hi, rfl⟩ := List.mem_mapIdx.1 ha
  exact ⟨Nat.le_add_right _ _, Nat.add_lt_add_left hi _, rfl⟩

theorem nodup_attach (home key : Nat) (listeners : List (Listener E)) :
    ((attach home key listeners).map Attached.key).Nodup := by
  have hkeys : (attach home key listeners).map Attached.key =
      List.range' key listeners.length := by
    apply List.ext_getElem
    · simp [attach]
    · simp [attach]
  rw [hkeys]
  exact List.nodup_range'

/-- What a plan builds, if it builds a collection: one without services that nobody closed. -/
theorem build_ok {plan : Plan E} {number key : Nat} {k : Collection E}
    (hb : plan.build number key = .ok k) : ∃ factory filter, plan.factory = some factory ∧
      k = {
        dependency := ⟨plan.beanName, filter, plan.mandatory⟩
        mode := plan.mode
        factory := factory
        lifecycleListeners := attach number key plan.lifecycleListeners
        stateListeners :=
          attach number (key + plan.lifecycleListeners.length) plan.stateListeners } := by
  unfold build at hb
  split at hb
  · cases hb
  · split at hb
    · cases hb
    · cases hb
    · next factory filter hfactory _ =>
      cases hb
      exact ⟨factory, filter, hfactory, rfl⟩

end Plan

namespace Hub

variable {h : Hub E}

/-- What holds without collections, and with one more if it held before, holds for all plans. -/
theorem ofPlans_induction {I : Hub E → Prop} (plans : List (Plan E)) (hnone : I {})
    (hadd : ∀ h, ∀ plan ∈ plans, I h → I (h.addCollection plan).2) : I (ofPlans plans) := by
  -- the fold starts at any hub here, or the induction would not go through
  have hfold : ∀ (more : List (Plan E)), more ⊆ plans → ∀ h : Hub E, I h →
      I (more.foldl (fun h plan => (h.addCollection plan).2) h) := by
    intro more
    induction more with
    | nil => exact fun _ _ hI => hI
    | cons plan more ih =>
      intro hmore h hI
      obtain ⟨hplan, hmore⟩ := List.cons_subset.1 hmore
      exact ih hmore _ (hadd h plan hplan hI)
  exact hfold plans (List.Subset.refl _) {} hnone

/-- What a plan adds to a hub: a collection, absent if the plan lacks something. -/
theorem addCollection_eq (h : Hub E) (plan : Plan E) :
    (∃ k, plan.build h.collections.length h.listeners = .ok k ∧
      (h.addCollection plan).2 =
        { h with collections := h.collections ++ [k]
                 listeners := h.listeners + plan.listenerCount }) ∨
    (h.addCollection plan).2 = { h with collections := h.collections ++ [.absent] } := by
  unfold addCollection
  split
  · next k hk => exact .inl ⟨k, hk, rfl⟩
  · exact .inr rfl

/-- The collections of a hub with one more. -/
theorem collection_append {h' : Hub E} {k : Collection E}
    (hc : h'.collections = h.collections ++ [k]) (d : Nat) :
    h'.collection d = if d = h.collections.length then k else h.collection d := by
  rw [collection, hc, collection]
  split
  · next hd => rw [hd, List.getElem?_concat_length, Option.getD_some]
  · next hd =>
    by_cases hlt : d < h.collections.length
    · rw [List.getElem?_append_left hlt]
    · rw [List.getElem?_eq_none (by simp; omega), List.getElem?_eq_none (by omega)]

namespace KeyedBy

variable {select : Collection E → List (Attached E)}

/-- A hub without collections. -/
theorem empty (habsent : select .absent = []) : KeyedBy select {} := by
  have hnone : ∀ d, select (({} : Hub E).collection d) = [] := by
    intro d
    rw [collection_of_length_le d.zero_le, habsent]
  refine ⟨fun d => ?_, fun {c a} ha => ?_, fun {c a} ha => ?_⟩
  · rw [hnone]
    exact List.nodup_nil
  all_goals
    rw [hnone] at ha
    cases ha

/-- A hub with one more collection, whose listeners have new numbers. -/
theorem of_append {h' : Hub E} {k : Collection E} (habsent : select .absent = [])
    (hc : h'.collections = h.collections ++ [k]) (hn : ((select k).map Attached.key).Nodup)
    (hb : ∀ a ∈ select k,
      h.listeners ≤ a.key ∧ a.key < h'.listeners ∧ a.home = h.collections.length)
    (hle : h.listeners ≤ h'.listeners) : KeyedBy select h → KeyedBy select h' := by
  refine of_attached (c := h.collections.length) (fun d => ?_) hle
  rw [collection_append hc]
  split
  · next hd =>
    -- before, the place of the new collection was past the end, where no listener is
    rw [hd, collection_of_length_le (Nat.le_refl _), habsent]
    exact ⟨_, rfl, hn, fun a ha => ⟨rfl, hb a ha⟩⟩
  · exact ⟨[], (List.append_nil _).symm, List.nodup_nil, by simp⟩

end KeyedBy

/-- **Numbers.** In the hub of some plans a number names one listener. -/
theorem keyed_ofPlans (plans : List (Plan E)) : Keyed (ofPlans plans) := by
  refine ofPlans_induction plans ⟨.empty rfl, .empty rfl⟩ fun h plan _ hk => ?_
  rcases addCollection_eq h plan with ⟨k, hb, hadd⟩ | hadd
  · obtain ⟨factory, filter, -, rfl⟩ := Plan.build_ok hb
    rw [hadd]
    have hle : h.listeners ≤ h.listeners + plan.listenerCount := Nat.le_add_right _ _
    refine ⟨.of_append rfl rfl (Plan.nodup_attach ..) (fun a ha => ?_) hle hk.lifecycle,
      .of_append rfl rfl (Plan.nodup_attach ..) (fun a ha => ?_) hle hk.state⟩
    all_goals
      have hkey := Plan.mem_attach ha
      show h.listeners ≤ a.key ∧ a.key < h.listeners + plan.listenerCount ∧ _
      unfold Plan.listenerCount
      omega
  · rw [hadd]
    exact ⟨.of_append rfl rfl List.nodup_nil (by simp [Collection.absent]) (Nat.le_refl _)
      hk.lifecycle, .of_append rfl rfl List.nodup_nil (by simp [Collection.absent]) (Nat.le_refl _)
      hk.state⟩

end Hub

namespace Run

variable [ServiceEntry E]

/-- Every kind of step leaves the numbers of listeners apart. -/
theorem steps_keyed : Steps (E := E) (Hub.Preserves Hub.Keyed) where
  considered _ _ _ _ _ hr := .of_section (consider_ok hr).toSection
  retracted _ _ _ _ _ hr := .of_section (retract_ok hr).toSection
  cleared _ _ _ _ hr := .of_section (section_of_clear hr)
  called _ _ _ _ := .of_same (fun _ => rfl) (fun _ => rfl) (Nat.le_refl _)
  released _ _ _ _ _ _ := .of_same (fun _ => rfl) (fun _ => rfl) (Nat.le_refl _)
  lifecycle _ _ _ _ _ hr := .of_addLifecycleListener hr
  state _ _ _ _ _ hr := .of_addStateListener hr

end Run

/-- A run leaves the numbers of listeners apart. -/
theorem Hub.Keyed.of_runAll [ServiceEntry E] {depth : Nat} {commands : List (Command E)}
    {answers : List Answer} {h h' : Hub E} (hk : h.Keyed)
    (hr : h.runAll depth commands = .ok (answers, h')) : h'.Keyed :=
  Run.keeps_runAll (Run.keeps_run (fun _ hn => Run.steps_keyed.course hn) depth) hr hk

/-- In every hub that is reached from plans a number names one listener of a collection. -/
theorem Hub.keyed_runAll [ServiceEntry E] {plans : List (Plan E)} {depth : Nat}
    {commands : List (Command E)} {h : Hub E} {answers : List Answer}
    (hr : (Hub.ofPlans plans).runAll depth commands = .ok (answers, h)) : h.Keyed :=
  (keyed_ofPlans plans).of_runAll hr

end LiveServices
