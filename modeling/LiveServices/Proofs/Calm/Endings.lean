import LiveServices.Proofs.Calm.Start
import LiveServices.Proofs.Calm.Reads
import LiveServices.Proofs.Locks.Replay

/-!
# The ends of a calm collection

A start of a collection that was neither started nor destroyed can fail in one way only: the
collection is mandatory and no service is there (`Run.start_lacks`). A calm hub in which no lock
is taken can destroy a collection at any time (`Run.destroy_total`): each service that is in it is
taken away, and what is called for it gives no commands.
-/

namespace LiveServices

variable {E : Type} {h h' : Hub E} {c : Nat}

/-- A hub stays calm by steps that leave the entries, the listeners and the locks alone. -/
theorem Hub.Calm.aside (hc : h.Calm) (ha : h.Aside h')
    (hl : ∀ d, (h'.collection d).locks = (h.collection d).locks) : h'.Calm := fun d =>
  (hc d).of_eq (fun _ hmem => .inr (hl d ▸ hmem)) (ha.stock d).lifecycle (ha.stock d).state
    (ha.stock d).factory (ha.stock d).index

namespace Run

variable [ServiceEntry E] (nested : Nested E)

/-! ## The start -/

/-- The one trouble of a collection that starts is that it lacks what it needs. -/
theorem start_lacks (hc : h.Calm) (hs : (h.collection c).subscription = none)
    (ho : (h.collection c).closed = false) {t : Trouble}
    (hr : (start nested c).run h = .ok (.error t, h')) :
    ∃ filter, t = .failed (.serviceUnavailable filter) := by
  obtain ⟨begun, h₁, hbegun, hrest⟩ := act_bind_ok hr
  obtain ⟨-, h₂, hbegin, -⟩ := locked_eq_ok.1 hbegun
  -- nothing stands in the way of the subscription
  obtain rfl : begun = .ok () := by
    have hk : (h.taking c .subscription).collection c = _ :=
      Hub.collection_update_self (Hub.lt_length_of_open ho)
    have hcalm : (h.taking c .subscription).Calm :=
      hc.update ((hc c).of_eq (fun _ hmem => List.mem_cons.1 hmem) rfl rfl rfl rfl)
    obtain ⟨h₃, hdone, -⟩ := begin_total nested hcalm
      (by rw [hk]; exact hs) (by rw [hk]; exact ho)
    exact (Prod.mk.inj (Except.ok.inj (hbegin.symm.trans hdone))).1
  obtain ⟨checked, h₃, hchecked, hrest⟩ := act_bind_ok (hrest () rfl)
  obtain ⟨result, havail, hresult⟩ := act_lift_ok hchecked
  have hrest := hrest result hresult
  cases result with
  | ok _ => cases hrest
  | error f =>
    cases hrest
    obtain ⟨-, hcheck, -⟩ := locked_pure_eq_ok.1 havail
    unfold Collection.check Dependency.check at hcheck
    split at hcheck
    · cases hcheck
    · exact ⟨_, congrArg Trouble.failed (Except.error.inj hcheck).symm⟩

/-! ## The destruction -/

/-- A service is taken away, if the collection has it. -/
theorem remove_total (hc : h.Calm) (id : UInt64) : ∃ outcome h',
    remove nested c id h = .ok (outcome, h') ∧ h.Changes c (Collection.Drops id) h' ∧ h'.Calm := by
  obtain ⟨outcome, h₁, happly, hch, hcalm⟩ := disappeared_total nested hc (.new id {})
  obtain ⟨removed, h₂, hremove, hdone⟩ := bind_eq_ok.1 happly
  obtain ⟨-, rfl⟩ := pure_eq_ok.1 hdone
  exact ⟨removed, h₂, hremove, hch, hcalm⟩

/-- A removal gives its locks back. -/
theorem locks_of_drops {id : UInt64} (hch : h.Changes c (Collection.Drops id) h') (d : Nat) :
    (h'.collection d).locks = (h.collection d).locks := by
  by_cases hd : d = c
  · subst hd
    have hdrops := hch.here
    generalize h'.collection d = k' at hdrops
    cases hdrops with
    | absent => rfl
    | found => rfl
  · rw [hch.elsewhere d hd]

theorem removeAll_total (hc : h.Calm) (ids : List UInt64) :
    ∃ n h', removeAll nested c ids h = .ok (n, h') ∧
    (∀ d, (h'.collection d).locks = (h.collection d).locks) := by
  induction ids generalizing h with
  | nil => exact ⟨0, h, rfl, fun _ => rfl⟩
  | cons id ids ih =>
    obtain ⟨outcome, h₁, hremove, hch, hcalm⟩ := remove_total nested (c := c) hc id
    obtain ⟨n, h', hrest, hlocks⟩ := ih hcalm
    refine ⟨_, h', bind_eq_ok.2 ⟨outcome, h₁, hremove, bind_eq_ok.2 ⟨n, h', hrest, rfl⟩⟩, ?_⟩
    intro d
    rw [hlocks, locks_of_drops hch]

/-- **The destruction** of a collection in a calm hub in which no lock is taken. -/
theorem destroy_total (hc : h.Calm) (hi : h.Idle) : Total (destroy nested c) h := by
  have hu : h.Unheld := fun d => .inl (hi d)
  obtain ⟨live, h₂, hclosed⟩ := closed_total (d := c) hu (by rw [hi c]; exact List.not_mem_nil)
  obtain ⟨_, h₁, hend, hclose⟩ := bind_eq_ok.1 hclosed
  have hlocks₂ (d : Nat) : (h₂.collection d).locks = (h.collection d).locks := by
    rw [(discreet_close hclose).locks, (discreet_endSubscription hend).locks]
  have haside : h.Aside h₂ := Hub.Law.trans (Keeps.endSubscription c hend) (Keeps.close c hclose)
  have hcalm₂ : h₂.Calm := hc.aside haside hlocks₂
  obtain ⟨n, h₃, hremoved, hlocks₃⟩ := removeAll_total nested (c := c) hcalm₂ live
  have hfree (lock : Lock) : lock ∉ (h₃.collection c).locks := by
    rw [hlocks₃, hlocks₂, hi c]
    exact List.not_mem_nil
  obtain ⟨_, h₄, hclear⟩ := clear_total (hfree .index) (hfree .storage)
  have hshutdown : shutdown nested c h₁ = .ok (n, h₄) := bind_eq_ok.2 ⟨live, h₂, hclose,
    bind_eq_ok.2 ⟨n, h₃, hremoved, bind_eq_ok.2 ⟨_, h₄, hclear, rfl⟩⟩⟩
  exact ⟨n, h₄, bind_eq_ok.2 ⟨_, h₁, hend, hshutdown⟩⟩

end Run

end LiveServices
