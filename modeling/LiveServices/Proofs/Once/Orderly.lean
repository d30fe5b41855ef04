import LiveServices.Proofs.Callbacks.Accounting
import LiveServices.Proofs.Once.Advances

/-!
# Orderly hubs

A hub is orderly (`Hub.Orderly`) if nobody who is called in it gives commands, no command is at
work, and it has one collection, of references or of proxies, to which alone the registry is
linked. Calls of the registry, starts and destructions reach a result in an orderly hub and leave it
orderly. In each of them services only come to the collection or only go from it
(`Hub.Orderly.change`).
-/

namespace LiveServices

variable {E : Type}

/-- The commands that change what a collection has. -/
def Command.IsChange (c : Nat) (command : Command E) : Prop :=
  command.IsRegistryCall ∨ command = .start c ∨ command = .destroy c

namespace Callback

theorem apartFromAdmission_isUnbind (id : UInt64) :
    ApartFromAdmission (isUnbind id : Callback E → Bool) := ⟨fun _ _ => rfl, fun _ => rfl⟩

theorem apartFromRemoval_isBind (id : UInt64) :
    ApartFromRemoval (isBind id : Callback E → Bool) := ⟨fun _ _ => rfl, fun _ => rfl⟩

end Callback

/-- Whoever is still subscribed was subscribed before. -/
theorem Registry.Linked.exists_of_sublist {c : Nat} {r r' : Registry E}
    {link : Option ServiceFilter} (hl : r.Linked c link)
    (hs : r'.subscriptions.Sublist r.subscriptions) : ∃ link', r'.Linked c link' := by
  cases hl with
  | unheard hnone =>
    rw [hnone] at hs
    exact ⟨none, .unheard (List.sublist_nil.1 hs)⟩
  | heard hone =>
    rw [hone] at hs
    rcases List.sublist_singleton.1 hs with hnone | hone
    · exact ⟨none, .unheard hnone⟩
    · exact ⟨_, .heard hone⟩

namespace Hub

variable {c n depth : Nat} {h h' : Hub Entry} {command : Command Entry} {answer : Answer}

/-- Between two commands of callers, where the registry gave out this many numbers and is linked to
one collection of references or of proxies. -/
structure Orderly (c n : Nat) (h : Hub Entry) : Prop where
  calm : h.Calm
  idle : h.Idle
  issued : h.registry.Issued n
  stocked : (h.collection c).Stocked
  present : (h.collection c).dropped = false
  alone : ∀ d, d ≠ c → (h.collection d).dropped = true
  linked : ∃ link, h.registry.Linked c link ∧ (link = none ∨ h.Begun c)

/-- Services only come, or they only go: nobody is told of a removal, or nobody is told of an
addition. -/
def OneWay (h h' : Hub Entry) : Prop :=
  (∀ id, h.Untold (Callback.isUnbind id) h') ∨ ∀ id, h.Untold (Callback.isBind id) h'

theorem OneWay.traversals (ho : h.OneWay h') : h'.traversals = h.traversals :=
  ho.elim (fun hu => (hu 0).traversals) fun hu => (hu 0).traversals

namespace Orderly

/-- A collection that was not begun is fresh, and nobody is subscribed. -/
theorem fresh (ho : h.Orderly c n) (hb : ¬ h.Begun c) :
    (h.collection c).Fresh ∧ h.registry.Linked c none := by
  obtain ⟨link, hlinked, rfl | hbegun⟩ := ho.linked
  · refine ⟨⟨ho.idle c, ?_, ?_, ho.present⟩, hlinked⟩
    · cases hs : (h.collection c).subscription with
      | none => rfl
      | some id => exact absurd (.inl (by rw [hs]; rfl)) hb
    · exact Bool.eq_false_iff.2 fun hclosed => hb (.inr hclosed)
  · exact absurd hbegun hb

/-- Reads leave a hub orderly. -/
theorem browse (ho : h.Orderly c n) (hb : h.Browsed h') : h'.Orderly c n := by
  obtain ⟨storage, hitems, hk⟩ := hb.collection c
  have hsame : (h.collection c).SameEntries (h'.collection c) := hk ▸ ⟨rfl, rfl, hitems⟩
  refine ⟨hb.calm ho.calm, hb.idle ho.idle, hb.registry ▸ ho.issued,
    ho.stocked.of_sameEntries hsame, ?_, fun d hd => ?_, ?_⟩
  · rw [hk]
    exact ho.present
  · obtain ⟨_, -, hk⟩ := hb.collection d
    rw [hk]
    exact ho.alone d hd
  · rw [hb.registry, Begun, hk]
    exact ho.linked

/-- A call of the registry tells of additions only, or of removals only. -/
theorem oneWay_call (ho : h.Orderly c n) {link : Option ServiceFilter}
    (hl : h.registry.Linked c link) (hcall : command.IsRegistryCall)
    (hr : h.run (depth + 1) command = .ok (answer, h')) : h.OneWay h' := by
  obtain ⟨_, h₁, hexecute, hdone⟩ := Run.bind_eq_ok.1 hr
  cases hdone
  have hrecord {kind : Callback Entry → Bool} (hu : h.Untold kind h₁) :
      h.Untold kind (h₁.record (.ended h₁.census)) := hu.trans (.record trivial)
  cases command with
  | register properties =>
    obtain ⟨a, hact⟩ := Run.run_of_answered hexecute
    exact .inl fun id => hrecord
      (Run.untold_register (Callback.apartFromAdmission_isUnbind id) ho.calm hl hact)
  | setProperties service properties =>
    obtain ⟨a, hact⟩ := Run.run_of_answered hexecute
    exact .inl fun id => hrecord
      (Run.untold_setProperties (Callback.apartFromAdmission_isUnbind id) ho.calm hl hact)
  | unregister service =>
    obtain ⟨a, hact⟩ := Run.run_of_answered hexecute
    exact .inr fun id => hrecord
      (Run.untold_unregister (Callback.apartFromRemoval_isBind id) ho.calm hl hact)
  | _ => cases hcall

/-- What an orderly hub comes to by a change. -/
structure Changed (c n n' : Nat) (h h' : Hub Entry) : Prop where
  orderly : h'.Orderly c n'
  advances : h.Advances c n n' h'
  oneWay : h.OneWay h'

/-- A call of the registry. -/
theorem call (ho : h.Orderly c n) (hcall : command.IsRegistryCall)
    (hn : n + (if command.isRegister = true then 1 else 0) < 2 ^ 64) (depth : Nat) :
    ∃ answer h', h.run (depth + 1) command = .ok (answer, h') ∧
    Changed c n (n + if command.isRegister = true then 1 else 0) h h' := by
  obtain ⟨link, hl, hbegun⟩ := ho.linked
  obtain ⟨answer, h', hr, hcalls, hcalm, hl'⟩ := call_total ho.calm hl hcall depth
  obtain ⟨hstocked, hadvances⟩ := hcalls.advances ho.stocked ho.issued hn
  obtain ⟨index, storage, hframe⟩ := hcalls.frame
  refine ⟨answer, h', hr, ⟨hcalm, fun d => (hcalls.locks d).trans (ho.idle d),
    hcalls.issued ho.issued hn, hstocked, ?_, ?_, link, hl', ?_⟩, hadvances,
    ho.oneWay_call hl hcall hr⟩
  · rw [hframe]
    exact ho.present
  · intro d hd
    rw [hcalls.elsewhere hd]
    exact ho.alone d hd
  · rw [Begun, hframe]
    exact hbegun

/-- A start that is refused. -/
theorem refusal (ho : h.Orderly c n) (hb : h.Begun c) (depth : Nat) :
    ∃ answer h', h.run (depth + 1) (.start c) = .ok (answer, h') ∧ Changed c n n h h' := by
  obtain ⟨f, h', hr, hh, -⟩ := refusal_total (Callback.apartFromAdmission_isUnbind 0) ho.calm
    ho.idle ho.present hb depth
  have huntold (id : UInt64) : h.Untold (Callback.isUnbind id) h' := by
    obtain ⟨_, _, hagain, -, hu⟩ := refusal_total (Callback.apartFromAdmission_isUnbind id) ho.calm
      ho.idle ho.present hb depth
    cases hr.symm.trans hagain
    exact hu
  exact ⟨_, h', hr, ho.browse hh.browsed, .of_eq (hh.collection c) (by rw [hh.registry]),
    .inl huntold⟩

/-- The first start. -/
theorem join (ho : h.Orderly c n) (hb : ¬ h.Begun c) (depth : Nat) :
    ∃ answer h', h.run (depth + 1) (.start c) = .ok (answer, h') ∧ Changed c n n h h' := by
  obtain ⟨hfresh, hl⟩ := ho.fresh hb
  obtain ⟨answer, h', hr, hcalm, hl', hj⟩ := join_total ho.calm hl hfresh depth
  obtain ⟨hstocked, hadvances⟩ := hj.advances (n := n) ho.stocked
  obtain ⟨index, storage, id, hframe⟩ := hj.here.frame
  refine ⟨answer, h', hr, ⟨hcalm, ?_, ?_, hstocked, ?_, ?_, _, hl', .inr (.inl ?_)⟩, hadvances,
    .inl fun id => untold_join (Callback.apartFromAdmission_isUnbind id) ho.calm hfresh hr⟩
  · intro d
    by_cases hd : d = c
    · rw [hd, hframe]
      exact ho.idle c
    · rw [hj.elsewhere d hd]
      exact ho.idle d
  · exact ⟨hj.registry.nextService.trans ho.issued.next, hj.registry.services ▸ ho.issued.bound⟩
  · rw [hj.starts.keeps.2]
    exact ho.present
  · intro d hd
    rw [hj.elsewhere d hd]
    exact ho.alone d hd
  · rw [hframe]
    rfl

/-- A destruction. -/
theorem destruction (ho : h.Orderly c n) (depth : Nat) :
    ∃ answer h', h.run (depth + 1) (.destroy c) = .ok (answer, h') ∧ Changed c n n h h' := by
  obtain ⟨count, h', hr, hspent, hw, -⟩ := destruction_total (Callback.apartFromRemoval_isBind 0)
    ho.calm ho.idle ho.present depth
  have huntold (id : UInt64) : h.Untold (Callback.isBind id) h' := by
    obtain ⟨_, _, hagain, -, -, hu⟩ := destruction_total (Callback.apartFromRemoval_isBind id)
      ho.calm ho.idle ho.present depth
    cases hr.symm.trans hagain
    exact hu
  obtain ⟨hstocked, hadvances⟩ := hw.advances (n := n) hspent ho.stocked
  refine ⟨_, h', hr, ⟨?_, ?_, ⟨hw.nextService.trans ho.issued.next, hw.services ▸ ho.issued.bound⟩,
    hstocked, hw.here.dropped.trans ho.present, ?_, ?_⟩, hadvances, .inr huntold⟩
  · intro d
    by_cases hd : d = c
    · -- nothing is left in the index, so there is nothing to be released
      subst hd
      refine ⟨?_, ?_, ?_, ?_, ?_⟩
      · rw [hw.here.locks]
        exact (ho.calm d).locks
      · rw [hw.here.lifecycle]
        exact (ho.calm d).lifecycle
      · rw [hw.here.state]
        exact (ho.calm d).state
      · rw [hw.here.factory]
        exact (ho.calm d).factory
      · rw [hspent.index]
        exact fun _ hmem => absurd hmem List.not_mem_nil
    · rw [hw.elsewhere d hd]
      exact ho.calm d
  · intro d
    by_cases hd : d = c
    · rw [hd, hw.here.locks]
      exact ho.idle c
    · rw [hw.elsewhere d hd]
      exact ho.idle d
  · intro d hd
    rw [hw.elsewhere d hd]
    exact ho.alone d hd
  · obtain ⟨link, hl, -⟩ := ho.linked
    obtain ⟨link', hl'⟩ := hl.exists_of_sublist hw.subscriptions
    exact ⟨link', hl', .inr (.inr hspent.closed)⟩

/-- **Changes.** A command that changes what the collection has reaches a result in an orderly hub;
in it services only come or only go, and none comes that was known. -/
theorem change (ho : h.Orderly c n) (hcommand : command.IsChange c)
    (hn : n + (if command.isRegister = true then 1 else 0) < 2 ^ 64) (depth : Nat) :
    ∃ answer h', h.run (depth + 1) command = .ok (answer, h') ∧
    Changed c n (n + if command.isRegister = true then 1 else 0) h h' := by
  rcases hcommand with hcall | rfl | rfl
  · exact ho.call hcall hn depth
  · by_cases hb : h.Begun c
    · exact ho.refusal hb depth
    · exact ho.join hb depth
  · exact ho.destruction depth

end Orderly

end Hub

end LiveServices
