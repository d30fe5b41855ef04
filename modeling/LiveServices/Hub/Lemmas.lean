import LiveServices.Hub.Basic

/-!
# The views of a hub

What the changes of a hub do to its views: a change of one collection is seen in that collection
and in no other, and it leaves the trace alone; a new moment is the latest of the trace and
leaves the collections alone. `Run.bind_eq_ok` takes the run of a sequence apart.
-/

namespace LiveServices

namespace Hub

variable {E : Type} {h : Hub E} {c d : Nat} {f : Collection E → Collection E}

/-- A change of a collection is seen in it. -/
theorem collection_update_self (hc : c < h.collections.length) :
    (h.update c f).collection c = f (h.collection c) := by
  simp [update, collection, hc]

/-- A change of a collection is seen in no other one. -/
theorem collection_update_of_ne (hne : c ≠ d) :
    (h.update c f).collection d = h.collection d := by
  simp [update, collection, hne]

@[simp] theorem length_collections_update :
    (h.update c f).collections.length = h.collections.length := by simp [update]

@[simp] theorem collection_record (m : Moment E) :
    (h.record m).collection c = h.collection c := rfl

@[simp] theorem trace_record (m : Moment E) : (h.record m).trace = m :: h.trace := rfl

/-- A call adds to what the listener that was called was told. -/
theorem told_record_called (tag : ListenerTag) (callback : Callback E) (g : Glimpse)
    (who : ListenerTag → Bool) :
    (h.record (.called tag callback g)).told who =
      if who tag = true then callback :: h.told who else h.told who := by
  by_cases hk : who tag <;> simp [told, record, hk]

/-- The history of a listener after a call of a listener. -/
theorem history_record_called (h : Hub E) (who tag : ListenerTag) (callback : Callback E)
    (g : Glimpse) : (h.record (.called who callback g)).history tag =
      if who = tag then callback :: h.history tag else h.history tag := by
  rw [history, told_record_called]
  by_cases hwho : who = tag
  · simp [hwho, history]
  · simp [hwho, history]

/-- What listeners were told was told to one of them. -/
theorem mem_told {who : ListenerTag → Bool} {callback : Callback E} :
    callback ∈ h.told who ↔
      ∃ tag glimpse, .called tag callback glimpse ∈ h.trace ∧ who tag = true := by
  unfold told
  rw [List.mem_filterMap]
  constructor
  · rintro ⟨m, hm, hsome⟩
    cases m with
    | called tag callback' glimpse =>
      have hsome : (if who tag = true then some callback' else none) = some callback := hsome
      by_cases hw : who tag = true
      · rw [if_pos hw] at hsome
        obtain rfl := Option.some.inj hsome
        exact ⟨tag, glimpse, hm, hw⟩
      · rw [if_neg hw] at hsome
        cases hsome
    | _ => cases hsome
  · rintro ⟨tag, glimpse, hm, hw⟩
    exact ⟨_, hm, if_pos hw⟩

end Hub

namespace Run

variable {E : Type}

/-- A sequence reaches a result exactly when its first part does and the rest goes on from
there. -/
theorem bind_eq_ok {x : Run E α} {f : α → Run E β} {h h' : Hub E} {b : β} :
    (x >>= f) h = .ok (b, h') ↔ ∃ a h₁, x h = .ok (a, h₁) ∧ f a h₁ = .ok (b, h') := by
  show (x h >>= fun p => f p.1 p.2) = _ ↔ _
  cases hx : x h with
  | error e =>
    constructor
    · intro hf
      cases hf
    · rintro ⟨a, h₁, hp, -⟩
      cases hp
  | ok p =>
    obtain ⟨a, h₁⟩ := p
    constructor
    · intro hf
      exact ⟨a, h₁, rfl, hf⟩
    · rintro ⟨a', h', hp, hf⟩
      cases hp
      exact hf

theorem pure_eq_ok {a b : α} {h h' : Hub E} :
    (pure a : Run E α) h = .ok (b, h') ↔ a = b ∧ h = h' := by
  show Except.ok (a, h) = _ ↔ _
  simp

/-- What is seen of a result is seen of some result. -/
theorem exists_of_map_eq_ok {ε : Type} {x : Except ε α} {f : α → β} {b : β} (hx : x.map f = .ok b) :
    ∃ a, x = .ok a ∧ f a = b := by
  cases x with
  | error e => cases hx
  | ok a => exact ⟨a, rfl, Except.ok.inj hx⟩

end Run

end LiveServices
