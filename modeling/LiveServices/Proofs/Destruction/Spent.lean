import LiveServices.Proofs.Run.Endings
import LiveServices.Proofs.Run.Onward

/-!
# Collections that are spent

A collection that was destroyed is spent: it is closed, and nothing is in its index or its
storage. This is final. A section on a spent collection only looks at it, so whatever a run does,
the collection stays spent in every state that it passes, and nothing of it is asked for work: no
listener of it is called, no entry is made for it, and none is released (`Hub.StaysSpent`,
`Run.rests_run`).

For a section on another collection nothing has to be known. For a call it has to be known whose
listener is called: the listeners of a collection watch that collection (`Hub.Keyed`), which is
why `Hub.Rests` carries the numbers of the listeners along.
-/

namespace LiveServices

variable {E : Type}

/-- A closed collection with nothing in it. -/
structure Collection.Spent (k : Collection E) : Prop where
  closed : k.closed = true
  index : k.index = []
  items : k.storage.items = []

/-- A collection with the same stock is spent too. -/
theorem Collection.Spent.of_sameStock {k k' : Collection E} (hk : k.Spent) (hs : k.SameStock k') :
    k'.Spent where
  closed := hs.closed hk.closed
  index := hs.index.trans hk.index
  items := hs.items.trans hk.items

/-- A moment at which something of a collection is asked for work: one of its listeners is called,
its factory is, or the release action of one of its entries begins. A listener that is told of the
events of the registry is called by the registry, not by the collection that it watches. -/
def Moment.IsWorkOf (c : Nat) : Moment E → Prop
  | .called _ (.event _) _ => False
  | .called tag _ _ => tag.home = c
  | .attempted d _ _ | .created d _ _ _ | .releasing d _ _ _ _ => d = c
  | _ => False

theorem Moment.IsPlain.not_isWorkOf {m : Moment E} (hm : m.IsPlain) (c : Nat) : ¬ m.IsWorkOf c := by
  cases m with
  | called | attempted | created | releasing => exact absurd hm id
  | _ => exact id

/-- A call of a listener of another collection is no work of this one. -/
theorem Moment.not_isWorkOf_called {c : Nat} {tag : ListenerTag} (hhome : tag.home ≠ c)
    (callback : Callback E) (glimpse : Glimpse) :
    ¬ (Moment.called tag callback glimpse).IsWorkOf c := by
  cases callback with
  | event => exact id
  | _ => exact hhome

namespace Hub

variable {c d : Nat} {h h₁ h₂ h' : Hub E} {f : Collection E → Collection E}

/-- The second hub comes after the first, and on the way a collection was spent in every state and
nothing of it was asked for work. -/
structure StaysSpent (c : Nat) (h h' : Hub E) : Prop where
  now : (h'.collection c).Spent
  past : ∃ recent, h'.past = recent ++ h.past ∧ ∀ k, (c, k) ∈ recent → k.Spent
  trace : ∃ recent, h'.trace = recent ++ h.trace ∧ ∀ m ∈ recent, ¬ m.IsWorkOf c

theorem StaysSpent.trans (h₁₂ : h.StaysSpent c h₁) (h₂₃ : h₁.StaysSpent c h₂) :
    h.StaysSpent c h₂ where
  now := h₂₃.now
  past := by
    obtain ⟨older, ho, hop⟩ := h₁₂.past
    obtain ⟨newer, hn, hnp⟩ := h₂₃.past
    refine ⟨newer ++ older, by rw [hn, ho, List.append_assoc], fun k hk => ?_⟩
    exact (List.mem_append.1 hk).elim (hnp k) (hop k)
  trace := by
    obtain ⟨older, ho, hop⟩ := h₁₂.trace
    obtain ⟨newer, hn, hnp⟩ := h₂₃.trace
    refine ⟨newer ++ older, by rw [hn, ho, List.append_assoc], fun m hm => ?_⟩
    exact (List.mem_append.1 hm).elim (hnp m) (hop m)

/-- If a collection is spent then it stays so. -/
def Idles (c : Nat) (h h' : Hub E) : Prop := (h.collection c).Spent → h.StaysSpent c h'

/-- Steps aside leave a spent collection as it is. -/
theorem idles_of_aside (ha : h.Aside h') : h.Idles c h' := by
  intro hk
  obtain ⟨recent, ht, hplain⟩ := ha.trace
  obtain ⟨states, hp, hstock⟩ := ha.past
  exact ⟨hk.of_sameStock (ha.stock c), ⟨states, hp, fun k hmem => hk.of_sameStock (hstock _ hmem)⟩,
    ⟨recent, ht, fun m hm => (hplain m hm).not_isWorkOf c⟩⟩

instance : Law (Idles (E := E) c) :=
  ⟨idles_of_aside, fun h₁₂ h₂₃ hk => (h₁₂ hk).trans (h₂₃ (h₁₂ hk).now)⟩

/-- A change of a collection that does not bring anything into it. -/
theorem idles_update (hf : d = c → ∀ k, k.Spent → (f k).Spent) : h.Idles c (h.update d f) := by
  intro hk
  refine ⟨?_, ⟨[(d, h.collection d)], rfl, fun k hmem => ?_⟩, ⟨[], rfl, by simp⟩⟩
  · rw [collection_update]
    split
    · next hd => exact hf hd.1.symm _ hk
    · exact hk
  · cases List.mem_singleton.1 hmem
    exact hk

/-- A moment at which nothing of the collection is asked for work. -/
theorem idles_record {m : Moment E} (hm : ¬ m.IsWorkOf c) : h.Idles c (h.record m) :=
  fun hk => ⟨hk, ⟨[], rfl, by simp⟩, ⟨[m], rfl, by simpa using hm⟩⟩

/-- Numbers name listeners as before, and while they do, a collection that is spent stays so. -/
def Rests (c : Nat) (h h' : Hub E) : Prop :=
  (h.Keyed → h'.Keyed) ∧ (h.Keyed → h.Idles c h')

instance : Law (Rests (E := E) c) where
  aside ha := ⟨Stable.aside ha, fun _ => idles_of_aside ha⟩
  trans h₁₂ h₂₃ :=
    ⟨fun hk => h₂₃.1 (h₁₂.1 hk), fun hk => Law.trans (h₁₂.2 hk) (h₂₃.2 (h₁₂.1 hk))⟩

end Hub

namespace Run

open Hub

variable {α : Type} {c d : Nat} {r : ServiceReference} {id : UInt64} {h h' : Hub E}
  {nested : Nested E}

/-- A change of another collection does, too. -/
theorem keeps_idles_update {f : Collection E → Collection E}
    (hf : d = c → ∀ k, k.Spent → (f k).Spent) : Keeps (Idles c) (update d f) := by
  rintro h _ h' ⟨⟩
  exact idles_update hf

theorem keeps_idles_record {m : Moment E} (hm : ¬ m.IsWorkOf c) : Keeps (Idles c) (record m) := by
  rintro h _ h' ⟨⟩
  exact idles_record hm

/-- What leaves the numbers of listeners apart and a spent collection spent. -/
theorem keeps_rests {x : Run E α} (hkeyed : Keeps (Preserves Keyed) x)
    (hidles : Keeps (Idles c) x) : Keeps (Rests c) x :=
  fun _ _ _ hr => ⟨hkeyed hr, fun _ => hidles hr⟩

variable [ServiceEntry E]

/-! ## Sections on other collections -/

/-- A decision in another collection is no work of this one. -/
theorem idles_considered_of_ne (hd : d ≠ c) (r : ServiceReference) :
    Keeps (Idles c) (consider (E := E) d r) := by
  have helse {f : Collection E → Collection E} : Keeps (Idles c) (update d f) :=
    keeps_idles_update fun heq => absurd heq hd
  refine .locked d _ (.bind (.collection d) fun k => ?_)
  split
  · exact .pure _
  · refine .bind (.changeGet fun h => ?_) fun serial => ?_
    · exact .of_eq rfl rfl rfl rfl (Nat.le_refl _) (Nat.le_succ _)
    · refine .bind (keeps_idles_record hd) fun _ => ?_
      split
      · exact .pure _
      · exact .pure _
      · have hstore (entry : E) : Keeps (Idles c) (store d entry) :=
          .locked d _ (.bind (.collection d) fun _ => .bind helse fun _ => .pure _)
        refine .bind (keeps_idles_record hd) fun _ => .bind (hstore _) fun taken => ?_
        split
        · refine .bind (.locked d _ (.bind (.collection d) fun _ => .pure _)) fun size => ?_
          exact .bind helse fun _ => .pure _
        · exact .pure _

/-- Nor is a retraction there. -/
theorem idles_retracted_of_ne (hd : d ≠ c) (id : UInt64) :
    Keeps (Idles c) (retract (E := E) d id) := by
  have helse {f : Collection E → Collection E} : Keeps (Idles c) (update d f) :=
    keeps_idles_update fun heq => absurd heq hd
  refine .locked d _ (.bind (.collection d) fun k => ?_)
  split
  · exact .pure _
  · next holding _ =>
    have hunstore : Keeps (Idles c) (unstore d holding.entry) :=
      .locked d _ (.bind (.collection d) fun _ => .bind helse fun _ => .pure _)
    refine .bind helse fun _ => .bind hunstore fun _ => ?_
    refine .bind (.locked d _ (.bind (.collection d) fun _ => .pure _)) fun _ => ?_
    exact .bind (.collection d) fun _ => .pure _

/-! ## Sections on the collection itself -/

omit [ServiceEntry E] in
/-- A section that finds nothing to do gives the lock back. -/
theorem aside_of_idle (h : Hub E) (d : Nat) (lock : Lock) :
    h.Aside ((h.taking d lock).giving d lock) := by
  have hsame (locks : List Lock → List Lock) (k : Collection E) :
      k.SameStock { k with locks := locks k.locks } := ⟨rfl, rfl, rfl, rfl, rfl, rfl, rfl, id⟩
  exact Aside.trans (.update d (hsame (lock :: ·))) (.update d (hsame (List.erase · lock)))

/-- A closed collection ignores every service. -/
theorem consider_of_closed {result : Except Trouble (Admission E)}
    (hk : (h.collection d).closed = true) (hr : consider d r h = .ok (result, h')) :
    result = .ok .ignored ∧ h.Aside h' := by
  obtain ⟨-, h₁, hb, rfl⟩ := locked_eq_ok.1 hr
  have hk₁ : ((h.taking d .index).collection d).closed = true := by
    rw [taking, collection_update]
    split <;> exact hk
  have hb : judge d r (h.taking d .index) = .ok (result, h₁) := hb
  have hignored : (((h.taking d .index).collection d).closed ||
      ((h.taking d .index).collection d).hasIdentity r.id) = true := by rw [hk₁, Bool.true_or]
  rw [judge, collection_bind, if_pos hignored] at hb
  obtain ⟨rfl, rfl⟩ := pure_eq_ok.1 hb
  exact ⟨rfl, aside_of_idle h d .index⟩

/-- From an empty index nothing is taken away. -/
theorem retract_of_empty {removal : Option (Removal E)} (hk : (h.collection d).index = [])
    (hr : retract d id h = .ok (removal, h')) : removal = none ∧ h.Aside h' := by
  obtain ⟨-, h₁, hb, rfl⟩ := locked_eq_ok.1 hr
  have hk₁ : ((h.taking d .index).collection d).index = [] := by
    rw [taking, collection_update]
    split <;> exact hk
  have hb : takeOut d id (h.taking d .index) = .ok (removal, h₁) := hb
  rw [takeOut, collection_bind, hk₁] at hb
  obtain ⟨rfl, rfl⟩ := pure_eq_ok.1 hb
  exact ⟨rfl, aside_of_idle h d .index⟩

omit [ServiceEntry E] in
/-- A collection that is spent is cleared for nothing. -/
theorem idles_cleared (d : Nat) : Keeps (Idles c) (clear (E := E) d) := by
  refine .locked d _ (.bind (keeps_idles_update ?_) fun _ => .locked d _ (keeps_idles_update ?_))
  · exact fun _ k hk => ⟨hk.closed, rfl, hk.items⟩
  · exact fun _ k hk => ⟨hk.closed, hk.index, rfl⟩

/-! ## Calls and releases -/

section Calls

variable (hn : ∀ command, Keeps (Rests c) (nested command))
include hn

/-- A listener of another collection is called, and its commands may concern this one. -/
theorem rests_call {l : Attached E} {callback : Callback E}
    (hc : ∀ glimpse, ¬ (Moment.called l.tag callback glimpse).IsWorkOf c) :
    Keeps (Rests c) (call nested l callback) :=
  .call (fun _ command _ => hn command) fun h glimpse =>
    ⟨steps_keyed.called h _ _ _, fun _ => idles_record (hc glimpse)⟩

/-- Listeners that are called because of another collection are not those of this one. -/
theorem rests_callAll {hub : Hub E} {select : Collection E → List (Attached E)} (hd : d ≠ c)
    (hkeyed : hub.KeyedBy select) (what : Guarded) (service : UInt64) (callback : Callback E) :
    Keeps (Rests c) (callAll nested what service callback (select (hub.collection d))) := by
  refine .callAll _ _ fun l hl => rests_call hn fun glimpse => ?_
  refine Moment.not_isWorkOf_called (fun hhome => hd ?_) callback glimpse
  rw [← hkeyed.home hl]
  exact hhome

/-- A round of calls in another collection leaves this one spent. -/
theorem rests_lifecycleRound (hd : d ≠ c) (what : Guarded) (service : UInt64)
    (callback : Callback E) :
    Keeps (Rests c) (do callAll nested what service callback (← lifecycleListeners d)) := by
  intro h u h' hr
  obtain ⟨listeners, h₁, hask, hcall⟩ := bind_eq_ok.1 hr
  have hasked : h.Rests c h₁ := Keeps.lifecycleListeners d hask
  obtain rfl := lifecycleListeners_ok hask
  have hcalled (hk : h.Keyed) : h₁.Rests c h' := rests_callAll hn hd hk.lifecycle _ _ _ hcall
  exact ⟨fun hk => (hcalled hk).1 (hasked.1 hk),
    fun hk => Law.trans (hasked.2 hk) ((hcalled hk).2 (hasked.1 hk))⟩

theorem rests_stateRound (hd : d ≠ c) (what : Guarded) (service : UInt64)
    (callback : Callback E) :
    Keeps (Rests c) (do callAll nested what service callback (← stateListeners d)) := by
  intro h u h' hr
  obtain ⟨listeners, h₁, hask, hcall⟩ := bind_eq_ok.1 hr
  have hasked : h.Rests c h₁ := Keeps.stateListeners d hask
  obtain rfl := stateListeners_ok hask
  have hcalled (hk : h.Keyed) : h₁.Rests c h' := rests_callAll hn hd hk.state _ _ _ hcall
  exact ⟨fun hk => (hcalled hk).1 (hasked.1 hk),
    fun hk => Law.trans (hasked.2 hk) ((hcalled hk).2 (hasked.1 hk))⟩

omit [ServiceEntry E] in
/-- So does a release there. -/
theorem rests_runRelease (hd : d ≠ c) (serial : Nat) (service : UInt64) (release : Release E) :
    Keeps (Rests c) (runRelease nested d serial service release) := by
  intro h finish h' hr
  refine Keeps.runRelease_seen (fun command _ => hn command) ⟨?_, fun _ hk => ?_⟩ hr
  · exact Keyed.of_same (fun _ => rfl) (fun _ => rfl) (Nat.le_refl _)
  · exact ⟨hk, ⟨[], rfl, by simp⟩, ⟨[.releasing d serial service h.census release.announced], rfl,
      by simpa [Moment.IsWorkOf] using hd⟩⟩

/-! ## Operations -/

theorem rests_afterAdmission (hd : d ≠ c) (r : ServiceReference) (admission : Admission E) :
    Keeps (Rests c) (afterAdmission nested d r admission) := by
  cases admission with
  | ignored => exact .pure _
  | refused serial release =>
    cases release with
    | none => exact .pure _
    | some release =>
      refine .bind (.collection d) fun k => .bind (rests_runRelease hn hd ..) fun finish => ?_
      exact .bind (.settle ..) fun _ => .pure _
  | admitted entry first =>
    refine .bind (.announceAdmission_of_rounds (rests_lifecycleRound hn hd ..) ?_ first)
      fun _ => .pure _
    exact .bind (.collection d) fun _ => rests_stateRound hn hd ..

theorem rests_afterRemoval (hd : d ≠ c) (removal : Removal E) :
    Keeps (Rests c) (afterRemoval nested d removal) := by
  have hletGo : Keeps (Rests c) (letGo nested d removal.holding) := by
    unfold letGo
    split
    · exact .pure _
    · refine .bind (.collection d) fun k => .bind (rests_runRelease hn hd ..) fun finish => ?_
      refine .bind (.settle ..) fun done => ?_
      split
      · exact .pure _
      · exact .bind .get fun _ => .note trivial rfl
  refine .bind (.announceRemoval_of_rounds (rests_lifecycleRound hn hd ..) ?_) fun _ => ?_
  · exact .bind (.collection d) fun _ => rests_stateRound hn hd ..
  · exact .bind hletGo fun _ => .pure _

/-- A service appears: in a spent collection it is ignored. -/
theorem rests_appeared (d : Nat) (r : ServiceReference) :
    Keeps (Rests c) (apply nested d .appeared r) := by
  by_cases hd : d = c
  · subst hd
    refine keeps_rests ((steps_keyed.course fun command => (hn command).mono And.left).appeared d r)
      fun h reconciled h' hr hk => ?_
    obtain ⟨result, h₁, hconsider, hrest⟩ := bind_eq_ok.1 hr
    obtain ⟨rfl, ha⟩ := consider_of_closed hk.closed hconsider
    obtain ⟨-, rfl⟩ := pure_eq_ok.1 hrest
    exact idles_of_aside ha hk
  · refine .bind (keeps_rests (steps_keyed.considered d r) (idles_considered_of_ne hd r)) ?_
    intro result
    cases result with
    | error t => exact .pure _
    | ok admission => exact .bind (rests_afterAdmission hn hd r admission) fun _ => .pure _

/-- A service is taken away: from a spent collection there is none to take. -/
theorem rests_removed (d : Nat) (id : UInt64) : Keeps (Rests c) (remove nested d id) := by
  by_cases hd : d = c
  · subst hd
    refine keeps_rests ((steps_keyed.course fun command => (hn command).mono And.left).removed d id)
      fun h reconciled h' hr hk => ?_
    obtain ⟨result, h₁, hretract, hrest⟩ := bind_eq_ok.1 hr
    obtain ⟨rfl, ha⟩ := retract_of_empty hk.index hretract
    obtain ⟨-, rfl⟩ := pure_eq_ok.1 hrest
    exact idles_of_aside ha hk
  · refine .bind (keeps_rests (steps_keyed.retracted d id) (idles_retracted_of_ne hd id)) ?_
    intro removal
    cases removal with
    | none => exact .pure _
    | some removal => exact rests_afterRemoval hn hd removal

/-- The shutdown of a spent collection removes nothing. -/
theorem rests_shutdown (d : Nat) : Keeps (Rests c) (shutdown nested d) := by
  have hall (ids : List UInt64) : Keeps (Rests c) (removeAll nested d ids) := by
    induction ids with
    | nil => exact .pure _
    | cons id ids ih => exact .bind (rests_removed hn d id) fun _ => .bind ih fun _ => .pure _
  refine .bind (.close d) fun live => .bind (hall live) fun count => ?_
  exact .bind (keeps_rests (steps_keyed.cleared d) (idles_cleared d)) fun _ => .pure _

omit hn [ServiceEntry E] in
/-- A listener that is attached brings no service with it. -/
theorem idles_attached (d : Nat) (lock : Lock) (l : Listener E)
    {f : Attached E → Collection E → Collection E} (hf : ∀ a k, k.Spent → (f a k).Spent) :
    Keeps (Idles c) (do
      let a ← attach d l
      locked d lock (update d (f a)) : Run E Unit) := by
  refine .bind (.changeGet fun h => ?_) fun a => ?_
  · exact .of_eq rfl rfl rfl rfl (Nat.le_succ _) (Nat.le_refl _)
  · exact .locked d _ (keeps_idles_update fun _ => hf a)

/-- **Rest.** The operations leave a spent collection spent. -/
theorem rests_course : Course nested (Rests c) where
  observed _ _ := rests_call hn fun _ => id
  appeared := rests_appeared hn
  removed := rests_removed hn
  shutdown := rests_shutdown hn
  lifecycle d l := keeps_rests (steps_keyed.lifecycle d l)
    (idles_attached d _ l fun _ _ hk => ⟨hk.closed, hk.index, hk.items⟩)
  state d l := keeps_rests (steps_keyed.state d l)
    (idles_attached d _ l fun _ _ hk => ⟨hk.closed, hk.index, hk.items⟩)

end Calls

/-- **Rest.** Commands leave a spent collection spent. -/
theorem rests_run (depth : Nat) (command : Command E) : Keeps (Rests c) (run depth command) :=
  keeps_run (fun _ hn => rests_course hn) depth command

end Run

end LiveServices
