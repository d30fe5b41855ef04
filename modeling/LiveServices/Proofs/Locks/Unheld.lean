import LiveServices.Proofs.Calm.Sections
import LiveServices.Proofs.Run.Endings

/-!
# Which locks are held

Between the steps of a run no lock of a collection is held but that of its subscription
(`Hub.Unheld`). So a section never waits: the only lock that a run waits for is that of a
subscription (`Hub.Frees`).

The lock of a subscription is held while the collection is subscribed, and this includes the
replay of the services that are there already. A collection is subscribed once at most
(`Hub.Begun`): so of all calls that its listeners get, those that found the lock held are in one
stretch, and that is the replay (`Hub.Stretch`).
-/

namespace LiveServices

variable {E : Type}

namespace Hub

/-- No lock of a collection is held but that of its subscription. -/
def Unheld (h : Hub E) : Prop :=
  ∀ c, (h.collection c).locks = [] ∨ (h.collection c).locks = [.subscription]

/-- A collection was subscribed or closed: it will not be subscribed again. -/
def Begun (c : Nat) (h : Hub E) : Prop :=
  (h.collection c).subscription.isSome = true ∨ (h.collection c).closed = true

/-- Listeners that watch a collection found these locks of it taken when they were called. -/
def Found (c : Nat) (locks : List Lock) (recent : List (Moment E)) : Prop :=
  ∀ tag callback glimpse, .called tag callback glimpse ∈ recent → tag.home = c →
    glimpse.locks = locks

namespace Found

variable {c : Nat} {locks : List Lock} {recent newer : List (Moment E)}

theorem nil : Found c locks ([] : List (Moment E)) :=
  fun _ _ _ hmem => absurd hmem List.not_mem_nil

/-- Where no listener is called, none of them can see a lock. -/
theorem of_uncalled (hm : ∀ tag callback glimpse, .called tag callback glimpse ∉ recent) :
    Found c locks recent := fun tag callback glimpse hmem => absurd hmem (hm tag callback glimpse)

/-- If listeners found these locks in two parts of a trace, they did in the whole of it. -/
theorem append (hn : Found c locks newer) (hr : Found c locks recent) :
    Found c locks (newer ++ recent) := fun tag callback glimpse hmem =>
  (List.mem_append.1 hmem).elim (hn tag callback glimpse) (hr tag callback glimpse)

end Found

/-- The second hub comes after the first by work that nobody heard of: all locks were given back,
and what was begun stayed so. -/
structure Steady (h h' : Hub E) : Prop where
  length : h'.collections.length = h.collections.length
  locks : ∀ c, (h'.collection c).locks = (h.collection c).locks
  begun : ∀ c, h.Begun c → h'.Begun c
  trace : ∃ recent, h'.trace = recent ++ h.trace ∧
    ∀ tag callback glimpse, .called tag callback glimpse ∉ recent

namespace Steady

variable {h h₁ h' g : Hub E} {c : Nat} {k : Collection E} {past : List (Nat × Collection E)}

/-- A quiet step leaves the locks alone. -/
theorem of_quiet (hq : h.Quiet h') : Steady h h' where
  length := hq.aside.length
  locks := hq.locks
  begun c hb := by
    rw [Begun, hq.subscription, hq.closed]
    exact hb
  trace := by
    obtain ⟨recent, ht, hm⟩ := hq.trace
    exact ⟨recent, ht, fun tag callback glimpse hmem => hm _ hmem⟩

/-- Work that leaves the collections as they are. -/
theorem of_collections (hc : h'.collections = h.collections)
    (ht : ∃ recent, h'.trace = recent ++ h.trace ∧
      ∀ tag callback glimpse, .called tag callback glimpse ∉ recent) : Steady h h' := by
  have hsame (c : Nat) : h'.collection c = h.collection c := by
    rw [collection, hc, collection]
  refine ⟨by rw [hc], fun c => by rw [hsame], fun c hb => ?_, ht⟩
  rw [Begun, hsame]
  exact hb

/-- Work that puts a collection into another state. -/
theorem of_setTo (hg : g.collections = h.collections)
    (ht : ∃ recent, g.trace = recent ++ h.trace ∧
      ∀ tag callback glimpse, .called tag callback glimpse ∉ recent)
    (hlocks : k.locks = (h.collection c).locks)
    (hclosed : (h.collection c).closed = true → k.closed = true)
    (hsubscription : k.subscription = (h.collection c).subscription) :
    Steady h (g.setTo c k past) := by
  have hsame (d : Nat) : g.collection d = h.collection d := by
    rw [collection, hg, collection]
  refine ⟨?_, fun d => ?_, fun d hb => ?_, ht⟩
  · rw [setTo, List.length_set, hg]
  · rw [collection_setTo]
    split
    · next hd => rw [hd.1, hlocks]
    · rw [hsame]
  · rw [Begun, collection_setTo]
    split
    · next hd =>
      rw [hd.1] at hb
      rw [hsubscription]
      exact hb.imp_right hclosed
    · rw [hsame]
      exact hb

end Steady

/-- The hub was reached from another one by the begin of the subscription of a collection, with
these traces before and after. -/
def Replays [ServiceEntry E] (c : Nat) (before after : List (Moment E)) : Prop :=
  ∃ depth h₁ h₂, (Run.begin (Run.run depth) c).run h₁ = .ok (.ok (), h₂) ∧ h₁.trace = before ∧
    h₂.trace = after

/-- What listeners that watch a collection found in a stretch of a run: the locks that are held
before and after it; or those of its subscription, in the replay, and none before and after. -/
inductive Stretch [ServiceEntry E] (c : Nat) (h h' : Hub E) : Prop where
  | steady (recent : List (Moment E)) (ht : h'.trace = recent ++ h.trace)
    (hf : Found c (h.collection c).locks recent)
  | begins (early replay late : List (Moment E)) (hfree : (h.collection c).locks = [])
    (hnot : ¬ h.Begun c) (hbegun : h'.Begun c)
    (ht : h'.trace = late ++ (replay ++ (early ++ h.trace))) (he : Found c [] early)
    (hr : Found c [.subscription] replay) (hl : Found c [] late)
    (hreplays : Replays c (early ++ h.trace) (replay ++ (early ++ h.trace)))

/-- What holds after a stretch of a run. -/
structure Passed [ServiceEntry E] (c : Nat) (h h' : Hub E) : Prop where
  unheld : h'.Unheld
  length : h'.collections.length = h.collections.length
  locks : ∀ d, (h'.collection d).locks = (h.collection d).locks
  begun : ∀ d, h.Begun d → h'.Begun d
  stretch : Stretch c h h'

/-- A run from a hub in which no lock is held but that of subscriptions leads to another one, or its
commands are nested too deeply; or it waits for the lock of a subscription, because one is held
already or a collection is yet to be subscribed. -/
def Frees [ServiceEntry E] (c : Nat) (h : Hub E) : Except Halt (Hub E) → Prop
  | .ok h' => h.Unheld → Passed c h h'
  | .error (.deadlock lock) =>
    h.Unheld → lock = .subscription ∧
      ∃ d, .subscription ∈ (h.collection d).locks ∨ ¬ h.Begun d
  | .error .tooDeep => True

variable [ServiceEntry E] {c : Nat} {h h₁ h' : Hub E}

/-- Steps that leave the locks alone and call nobody are a stretch of a run. -/
theorem Steady.passed (hs : h.Steady h') (hu : h.Unheld) : Passed c h h' where
  unheld d := by
    rw [hs.locks]
    exact hu d
  length := hs.length
  locks := hs.locks
  begun := hs.begun
  stretch := by
    obtain ⟨recent, ht, hm⟩ := hs.trace
    exact .steady recent ht (.of_uncalled hm)

/-- A stretch after a stretch. The collection begins in one of them at most. -/
theorem Passed.trans (h₁₂ : Passed c h h₁) (h₂₃ : Passed c h₁ h') : Passed c h h' where
  unheld := h₂₃.unheld
  length := h₂₃.length.trans h₁₂.length
  locks d := (h₂₃.locks d).trans (h₁₂.locks d)
  begun d hb := h₂₃.begun d (h₁₂.begun d hb)
  stretch := by
    cases h₁₂.stretch with
    | steady older ht hf =>
      cases h₂₃.stretch with
      | steady newer ht' hf' =>
        rw [h₁₂.locks] at hf'
        exact .steady (newer ++ older) (by rw [ht', ht, List.append_assoc]) (hf'.append hf)
      | begins early replay late hfree hnot hbegun ht' he hr hl hreplays =>
        rw [h₁₂.locks] at hfree
        rw [hfree] at hf
        rw [ht, ← List.append_assoc early] at ht' hreplays
        exact .begins _ _ _ hfree (fun hb => hnot (h₁₂.begun c hb)) hbegun ht' (he.append hf) hr hl
          hreplays
    | begins early replay late hfree hnot hbegun ht he hr hl hreplays =>
      cases h₂₃.stretch with
      | steady recent ht' hf' =>
        rw [h₁₂.locks, hfree] at hf'
        refine .begins early replay (recent ++ late) hfree hnot (h₂₃.begun c hbegun) ?_ he hr
          (hf'.append hl) hreplays
        rw [ht', ht, List.append_assoc]
      | begins _ _ _ _ hnot' => exact absurd hbegun hnot'

instance : Regime (Frees (E := E) c) where
  quiet hq hu := (Steady.of_quiet hq).passed hu
  chain {h h₁ r} h₁₂ h₂₃ := by
    cases r with
    | ok h' => exact fun hu => (h₁₂ hu).trans (h₂₃ (h₁₂ hu).unheld)
    | error halt =>
      cases halt with
      | deadlock lock =>
        intro hu
        obtain ⟨hlock, d, hd⟩ := h₂₃ (h₁₂ hu).unheld
        rw [(h₁₂ hu).locks] at hd
        exact ⟨hlock, d, hd.imp_right fun hn hb => hn ((h₁₂ hu).begun d hb)⟩
      | tooDeep => trivial
  stuck {h d lock} hl hu := by
    rcases hu d with hnone | hone
    · rw [hnone] at hl
      cases hl
    · rw [hone] at hl
      obtain rfl := List.mem_singleton.1 hl
      exact ⟨rfl, d, .inl (hone ▸ hl)⟩
  deep := trivial

end Hub

end LiveServices
