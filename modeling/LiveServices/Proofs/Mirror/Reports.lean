import LiveServices.Proofs.Mirror.Tracking
import LiveServices.Proofs.Run.Glimpses

/-!
# Reports and what they lead to

A report is counted and noted (`Hub.report`), and then the collection that it was made to does as
it is told, in one section: it takes the service that comes or drops the one that goes
(`Tracked.considered`, `Tracked.retracted`). So the hub is tracked again before anybody else is
called.

Only then the listeners of the collection are called and the entry that was dropped is released.
The listeners may let services come and go; if such commands keep a hub tracked and settle what
they make due, so does the report as a whole (`Run.serviceChanged_settles`).
-/

namespace LiveServices

namespace Hub

variable {h h₁ h' : Hub Entry} {sub : Subscription Entry} {c : Nat} {r : ServiceReference}
  {event : ServiceEvent}

/-- What is settled after a report was made settles the report. -/
theorem Settles.of_report {s : UInt64} (hs : (h.report s event).Settles [] h') :
    h.Settles [(s, event)] h' where
  subscriptions := hs.subscriptions
  standing := hs.standing
  dependency := hs.dependency
  length := Nat.le_of_succ_le hs.length
  ledger later hroom hl := by
    have hlen : h.trace.length + 1 ≤ h'.trace.length := hs.length
    -- the report goes from those that are due to those that were made
    have hperm : ((s, event) :: (later ++ h.reports)).Perm (later ++ (s, event) :: h.reports) :=
      List.perm_middle.symm
    have hmade : (h.report s event).registry.Ledger (later ++ (h.report s event).reports) :=
      (hl.of_perm hperm).deliver _
    obtain ⟨hl', hissues⟩ := hs.ledger later
      (show h.registry.issues + h'.trace.length < 2 ^ 64 + (h.trace.length + 1) by omega) hmade
    have hissues : h'.registry.issues + (h.trace.length + 1) ≤
      h.registry.issues + h'.trace.length := hissues
    exact ⟨hl', by omega⟩

/-- **A report.** A hub is tracked after a report if the collection that it was made to did as it
was told. -/
theorem Tracked.of_report (ht : h.Tracked) (hsub : sub ∈ h.registry.subscriptions)
    (hc : sub.target = .importer c)
    (hsubs : h₁.registry.subscriptions = h.registry.subscriptions)
    (hreports : h₁.reports = (sub.id, event) :: h.reports)
    (hothers : ∀ d, d ≠ c → h₁.collection d = h.collection d)
    (hframe : ∃ index storage,
      h₁.collection c = { h.collection c with index := index, storage := storage })
    (hattentive : (h₁.collection c).Attentive)
    (hids : ∀ id, id ∈ (h₁.collection c).identities ↔
      if id = event.reference.id then event.kind = .registered
      else id ∈ (h.collection c).identities) : h₁.Tracked := by
  obtain ⟨index, storage, hframe⟩ := hframe
  have hstay : ∀ d, (h₁.collection d).dropped = (h.collection d).dropped ∧
      (h₁.collection d).dependency = (h.collection d).dependency ∧
      (h₁.collection d).lifecycleListeners = (h.collection d).lifecycleListeners ∧
      (h₁.collection d).stateListeners = (h.collection d).stateListeners := fun d => by
    by_cases hd : d = c
    · rw [hd, hframe]
      exact ⟨rfl, rfl, rfl, rfl⟩
    · rw [hothers d hd]
      exact ⟨rfl, rfl, rfl, rfl⟩
  refine ⟨hsubs ▸ ht.rising, fun d => ?_, fun d hd => ?_, ?_, hsubs ▸ ht.apart, ?_, ?_⟩
  · obtain ⟨-, -, hlifecycle, hstate⟩ := hstay d
    exact ⟨hlifecycle ▸ (ht.confined d).lifecycle, hstate ▸ (ht.confined d).state⟩
  · by_cases hdc : d = c
    · exact hdc ▸ hattentive
    · rw [hothers d hdc] at hd ⊢
      exact ht.attentive d hd
  · intro sub' hsub'
    rw [hsubs] at hsub'
    obtain ⟨d, htarget, hdropped, hfilter⟩ := ht.target sub' hsub'
    obtain ⟨hdropped', hdependency, -, -⟩ := hstay d
    exact ⟨d, htarget, hdropped'.trans hdropped, hdependency ▸ hfilter⟩
  · intro sub' hsub' d hd id
    rw [hsubs] at hsub'
    rw [hreports, Registry.lastKind?_cons]
    by_cases hdc : d = c
    · -- the collection that was told: no other subscription leads to it
      subst hdc
      obtain rfl := ht.apart sub hsub sub' hsub' d hc hd
      have hconcerns : Report.concerns sub'.id id (sub'.id, event) = true ↔
          id = event.reference.id := by
        rw [Report.concerns_iff]
        exact ⟨fun h => h.2.symm, fun h => ⟨rfl, h.symm⟩⟩
      simp only [hids id, hconcerns]
      split
      · rw [Option.some.injEq]
      · exact ht.current sub' hsub' d hd id
    · have hne : sub.id ≠ sub'.id := fun hid => by
        obtain rfl := Registry.eq_of_subscription_id ht.rising hsub hsub' hid
        rw [hc] at hd
        exact hdc (Target.importer.inj hd).symm
      have hconcerns : ¬ Report.concerns sub'.id id (sub.id, event) = true :=
        fun h => hne (Report.concerns_iff.1 h).1
      rw [hothers d hdc, if_neg hconcerns]
      exact ht.current sub' hsub' d hd id
  · intro d hd
    rw [hsubs] at hd
    by_cases hdc : d = c
    · exact absurd (hdc ▸ hc) (hd sub hsub)
    · rw [hothers d hdc]
      exact ht.blank d hd

/-- A section in which nothing is reported. -/
theorem Settles.of_section (hs : h.Section c h') (hreports : h'.reports = h.reports)
    (hframe : ∃ index storage,
      h'.collection c = { h.collection c with index := index, storage := storage }) :
    h.Settles [] h' := by
  obtain ⟨index, storage, hframe⟩ := hframe
  obtain ⟨recent, htrace, -⟩ := hs.trace
  refine .of_same hs.registry hreports (fun d => ?_) (fun d => ?_) ?_
  · by_cases hd : d = c
    · rw [hd, hframe]
      exact ⟨rfl, rfl, rfl⟩
    · rw [hs.others d hd]
      exact .refl _
  · by_cases hd : d = c
    · rw [hd, hframe]
    · rw [hs.others d hd]
  · rw [htrace, List.length_append]
    exact Nat.le_add_left _ _

/-- A service that is reported to come is taken, or the collection has it. -/
theorem Tracked.considered {result : Except Trouble (Admission Entry)} (ht : h.Tracked)
    (hsub : sub ∈ h.registry.subscriptions) (htarget : sub.target = .importer c)
    (hc : Considered c r (h.report sub.id (.registered r)) result h₁) :
    h₁.Tracked ∧ (h.report sub.id (.registered r)).Settles [] h₁ ∧
    (result = .ok .ignored ∨ ∃ entry first, result = .ok (.admitted entry first)) := by
  have hk := ht.attentive c (ht.of_target hsub htarget).1
  have htakes : ((h.report sub.id (.registered r)).collection c).Takes r (h₁.collection c) :=
    Run.takes_of_considered hc
  obtain ⟨hattentive, hids⟩ := hk.takes htakes
  have hreports : h₁.reports = (sub.id, .registered r) :: h.reports := by cases hc <;> rfl
  refine ⟨?_, .of_section hc.toSection hreports htakes.gains.frame, ?_⟩
  · refine ht.of_report hsub htarget ?_ hreports hc.toSection.others htakes.gains.frame
      hattentive fun id => ?_
    · rw [hc.toSection.registry]
      rfl
    · rw [hids]
      by_cases hid : id = r.id
      · simp [ServiceEvent.registered, hid]
      · simp [ServiceEvent.registered, hid]
  · obtain ⟨proxies, hfactory⟩ := hk.faithful.factory
    cases hc with
    | ignored => exact .inl rfl
    | failed _ _ hf =>
      obtain ⟨entry, release, hm⟩ := Factory.exists_made_ofProxies proxies (h.attempts + 1) r
      have hf : (h.collection c).factory.create (h.attempts + 1) r = .failed _ := hf
      rw [hfactory, hm] at hf
      cases hf
    | panicked _ _ hf =>
      obtain ⟨entry, release, hm⟩ := Factory.exists_made_ofProxies proxies (h.attempts + 1) r
      have hf : (h.collection c).factory.create (h.attempts + 1) r = .panicked _ := hf
      rw [hfactory, hm] at hf
      cases hf
    | refused _ hn hm hr =>
      have hself := (Factory.made_ofProxies (hfactory ▸ hm)).1
      rw [← hself] at hn
      have htaken := hk.faithful.append_eq_true hn
      have hr : ((h.collection c).storage.append (h.collection c).mode _).1 = false := hr
      rw [htaken] at hr
      cases hr
    | admitted => exact .inr ⟨_, _, rfl⟩

/-- A service that is reported to go is dropped, if the collection has it. -/
theorem Tracked.retracted {result : Option (Removal Entry)} (ht : h.Tracked)
    (hsub : sub ∈ h.registry.subscriptions) (htarget : sub.target = .importer c)
    (hc : Retracted c r.id (h.report sub.id (.unregistering r)) result h₁) :
    h₁.Tracked ∧ (h.report sub.id (.unregistering r)).Settles [] h₁ ∧
    ∀ removal ∈ result, ∀ release ∈ removal.holding.release, release.IsPassive := by
  have hk := ht.attentive c (ht.of_target hsub htarget).1
  have hdrops : ((h.report sub.id (.unregistering r)).collection c).Drops r.id
      (h₁.collection c) := Run.drops_of_retracted hc
  have hreports : h₁.reports = (sub.id, .unregistering r) :: h.reports := by cases hc <;> rfl
  refine ⟨?_, .of_section hc.toSection hreports hdrops.frame, ?_⟩
  · refine ht.of_report hsub htarget ?_ hreports hc.toSection.others hdrops.frame
      (hk.drops hdrops) fun id => ?_
    · rw [hc.toSection.registry]
      rfl
    · rw [hdrops.mem_identities]
      by_cases hid : id = r.id
      · simp [ServiceEvent.unregistering, hid]
      · show id ∈ (h.collection c).identities ∧ id ≠ r.id ↔ if id = r.id then _ else _
        rw [if_neg hid]
        exact and_iff_left hid
  · cases hc with
    | absent => exact fun removal hmem => by cases hmem
    | found hf =>
      rintro removal ⟨⟩
      exact hk.releases _ (List.mem_of_find?_eq_some hf)

end Hub

/-! ## What a report leads to -/

namespace Run

open Hub (Tracks)

variable {nested : Nested Entry} {h h' : Hub Entry} {c : Nat}

section Calls

variable (hn : ∀ command, command.IsTransit → Keeps Tracks (nested command))
include hn

theorem tracks_call {l : Attached Entry} (hl : l.listener.IsTransit) (callback : Callback Entry) :
    Keeps Tracks (call nested l callback) :=
  .call (fun told command hmem => hn command (hl told callback command hmem))
    fun h glimpse => h.tracks_called _ _ glimpse

/-- Whoever is called lets services come and go and does no more. -/
theorem tracks_lifecycleRound (c : Nat) (what : Guarded) (service : UInt64)
    (callback : Callback Entry) :
    Keeps Tracks (do callAll nested what service callback (← lifecycleListeners c)) := by
  intro h u h' hr ht
  obtain ⟨listeners, h₁, hlook, hcalls⟩ := bind_eq_ok.1 hr
  obtain rfl := lifecycleListeners_ok hlook
  have hcall : Keeps Tracks
      (callAll nested what service callback (h.collection c).lifecycleListeners) :=
    .callAll _ _ fun l hmem => tracks_call hn ((ht.confined c).lifecycle l hmem) callback
  exact Hub.Rule.trans (Keeps.lifecycleListeners c hlook) (hcall hcalls) ht

theorem tracks_stateRound (c : Nat) (what : Guarded) (service : UInt64)
    (callback : Callback Entry) :
    Keeps Tracks (do callAll nested what service callback (← stateListeners c)) := by
  intro h u h' hr ht
  obtain ⟨listeners, h₁, hlook, hcalls⟩ := bind_eq_ok.1 hr
  obtain rfl := stateListeners_ok hlook
  have hcall : Keeps Tracks
      (callAll nested what service callback (h.collection c).stateListeners) :=
    .callAll _ _ fun l hmem => tracks_call hn ((ht.confined c).state l hmem) callback
  exact Hub.Rule.trans (Keeps.stateListeners c hlook) (hcall hcalls) ht

theorem tracks_announceAdmission (c : Nat) (entry : Entry) (r : ServiceReference) (first : Bool) :
    Keeps Tracks (announceAdmission nested c entry r first) :=
  .announceAdmission_of_rounds (tracks_lifecycleRound hn c ..)
    (.bind (.collection c) fun _ => tracks_stateRound hn c ..) first

theorem tracks_announceRemoval (c : Nat) (removal : Removal Entry) :
    Keeps Tracks (announceRemoval nested c removal) :=
  .announceRemoval_of_rounds (tracks_lifecycleRound hn c ..)
    (.bind (.collection c) fun _ => tracks_stateRound hn c ..)

/-- A release gives no commands. -/
theorem tracks_afterRemoval (c : Nat) {removal : Removal Entry}
    (hrelease : ∀ release ∈ removal.holding.release, release.IsPassive) :
    Keeps Tracks (afterRemoval nested c removal) := by
  have hnone : ∀ release ∈ removal.holding.release, ∀ command ∈ release.response.commands,
      Keeps Tracks (nested command) := fun release hmem command hcommand => by
    rw [hrelease release hmem] at hcommand
    cases hcommand
  refine .bind (tracks_announceRemoval hn c removal) fun _ => ?_
  exact .bind (.letGo hnone Hub.tracks_released c) fun _ => .pure _

/-- A service that comes is taken, and the listeners are told. -/
theorem appeared_settles {sub : Subscription Entry} {r : ServiceReference}
    {outcome : Except Trouble Reconciled} (ht : h.Tracked) (hsub : sub ∈ h.registry.subscriptions)
    (htarget : sub.target = .importer c)
    (hr : apply nested c .appeared r (h.report sub.id (.registered r)) = .ok (outcome, h')) :
    h'.Tracked ∧ (h.report sub.id (.registered r)).Settles [] h' := by
  obtain ⟨result, h₁, hconsider, hafter⟩ := bind_eq_ok.1 hr
  obtain ⟨ht₁, hs₁, hresult⟩ := ht.considered hsub htarget (consider_ok hconsider)
  rcases hresult with rfl | ⟨entry, first, rfl⟩
  · obtain ⟨-, rfl⟩ := pure_eq_ok.1 hafter
    exact ⟨ht₁, hs₁⟩
  · obtain ⟨reconciled, h₂, htell, hdone⟩ := bind_eq_ok.1 hafter
    obtain ⟨-, rfl⟩ := pure_eq_ok.1 hdone
    have hannounce : Keeps Tracks (afterAdmission nested c r (.admitted entry first)) :=
      .bind (tracks_announceAdmission hn c entry r first) fun _ => .pure _
    obtain ⟨ht', hs⟩ := hannounce htell ht₁
    exact ⟨ht', hs₁.trans hs⟩

/-- A service that goes is dropped, the listeners are told, and its entry is released. -/
theorem disappeared_settles {sub : Subscription Entry} {r : ServiceReference}
    {outcome : Except Trouble Reconciled} (ht : h.Tracked) (hsub : sub ∈ h.registry.subscriptions)
    (htarget : sub.target = .importer c)
    (hr : apply nested c .disappeared r (h.report sub.id (.unregistering r)) =
      .ok (outcome, h')) :
    h'.Tracked ∧ (h.report sub.id (.unregistering r)).Settles [] h' := by
  obtain ⟨reconciled, h₂, hremove, hdone⟩ := bind_eq_ok.1 hr
  obtain ⟨-, rfl⟩ := pure_eq_ok.1 hdone
  obtain ⟨result, h₁, hretract, hafter⟩ := bind_eq_ok.1 hremove
  obtain ⟨ht₁, hs₁, hrelease⟩ := ht.retracted hsub htarget (retract_ok hretract)
  cases result with
  | none =>
    obtain ⟨-, rfl⟩ := pure_eq_ok.1 hafter
    exact ⟨ht₁, hs₁⟩
  | some removal =>
    obtain ⟨ht', hs⟩ := tracks_afterRemoval hn c (hrelease removal rfl) hafter ht₁
    exact ⟨ht', hs₁.trans hs⟩

/-- **One report.** The collection that is told of a service that comes or goes does as it is told,
and what its listeners do then is settled when they are through. -/
theorem serviceChanged_settles {sub : Subscription Entry} {event : ServiceEvent} {u : Unit}
    (ht : h.Tracked) (hsub : sub ∈ h.registry.subscriptions) (htarget : sub.target = .importer c)
    (hkind : event.kind = .registered ∨ event.kind = .unregistering)
    (hr : serviceChanged nested c event (h.report sub.id event) = .ok (u, h')) :
    h'.Tracked ∧ (h.report sub.id event).Settles [] h' := by
  obtain ⟨outcome, h₁, hreconcile, hnote⟩ := bind_eq_ok.1 hr
  have hdone : h₁.Tracked ∧ (h.report sub.id event).Settles [] h₁ := by
    obtain ⟨kind, r⟩ := event
    rcases hkind with hkind | hkind
    · obtain rfl : kind = .registered := hkind
      exact appeared_settles hn ht hsub htarget hreconcile
    · obtain rfl : kind = .unregistering := hkind
      exact disappeared_settles hn ht hsub htarget hreconcile
  have hend : Tracks h₁ h' := by
    rcases outcome with (f | message) | reconciled
    · exact Keeps.note (m := .eventFailure f.message) trivial rfl hnote
    · exact Keeps.note (m := .eventPanic) trivial rfl hnote
    · exact Keeps.pure _ hnote
  obtain ⟨ht', hs'⟩ := hend hdone.1
  exact ⟨ht', hdone.2.trans hs'⟩

end Calls

end Run

end LiveServices
