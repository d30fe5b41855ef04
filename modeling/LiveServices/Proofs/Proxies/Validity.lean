import LiveServices.Proofs.Callbacks.Balance
import LiveServices.Proofs.Proxies.Handles
import LiveServices.Proofs.Run.Glimpses

/-!
# Proxies while they are taken away

A proxy that is taken away is out of the index at once, but it is released last: the listeners are
told before. So each of these calls is followed by the release of the proxy that it is about
(`Parts`), and a release comes once at most, so none came before. That is why the proxy is
valid in the calls.

The listeners may give any commands in between, and these may retract the same service again
under another number. `Hub.Escorts` is the law of a stretch of a run in which the release of some
proxies is still pending; the retraction of one makes it pending, its release ends that
(`Run.escorts_removed`).
-/

namespace LiveServices

/-! ## What calls tell of a proxy -/

/-- A proxy of this number was made for this service, it is not among those that are seen in the
index, and these listeners were told that it is gone. -/
structure Retiring (c : Nat) (first : List (Attached Entry)) (n : Nat) (r : ServiceReference)
    (past : List (Moment Entry)) (census : Census) : Prop where
  created : .created c n r.id true ∈ past
  out : n ∉ (census[c]?.getD []).map Prod.fst
  told : ∀ l ∈ first, ∃ glimpse, .called l.tag (.unbind (.proxy n r) r) glimpse ∈ past

/-- The release of a proxy comes, or is pending. -/
def Comes (c : Nat) (pending : List (Nat × ServiceReference)) (late : List (Moment Entry)) (n : Nat)
    (r : ServiceReference) : Prop :=
  (n, r) ∈ pending ∨ ∃ census announced, .releasing c n r.id census announced ∈ late

/-- A call that tells of the end of a proxy comes before its release, and shows it valid unless it
was released before. -/
def Parts (c : Nat) (first : List (Attached Entry)) (pending : List (Nat × ServiceReference))
    (late : List (Moment Entry)) : Moment Entry → List (Moment Entry) → Prop
  | .called tag (.unbind entry r) glimpse, past => tag.home = c →
    ∃ n, entry = .proxy n r ∧ Comes c pending late n r ∧
      ((∀ d id census announced, .releasing d n id census announced ∉ past) →
        glimpse.entry = some ⟨r.id, some true⟩)
  | .called tag (.unsatisfied _) glimpse, past => tag.home = c →
    ∃ n r, Retiring c first n r past glimpse.census ∧ Comes c pending late n r
  | _, _ => True

/-- A callback that tells of the end of an entry. -/
def Callback.IsParting : Callback E → Prop
  | .unbind _ _ | .unsatisfied _ => True
  | _ => False

section Stretches

variable {c : Nat} {first : List (Attached Entry)}
  {pending pending' : List (Nat × ServiceReference)}
  {late newer past recent : List (Moment Entry)} {m : Moment Entry}

theorem Parts.mono (hmore : ∀ {n r}, Comes c pending late n r → Comes c pending' newer n r)
    (hp : Parts c first pending late m past) : Parts c first pending' newer m past := by
  cases m with
  | called tag callback glimpse =>
    cases callback with
    | unbind entry r =>
      intro hhome
      obtain ⟨n, hentry, hcomes, hvalid⟩ := hp hhome
      exact ⟨n, hentry, hmore hcomes, hvalid⟩
    | unsatisfied d =>
      intro hhome
      obtain ⟨n, r, hretiring, hcomes⟩ := hp hhome
      exact ⟨n, r, hretiring, hmore hcomes⟩
    | _ => trivial
  | _ => trivial

/-- What comes after a stretch adds to what comes after its moments. -/
theorem Parts.later (newer : List (Moment Entry)) (hp : Parts c first pending late m past) :
    Parts c first pending (newer ++ late) m past := by
  refine hp.mono fun hcomes => hcomes.imp_right ?_
  rintro ⟨census, announced, hmem⟩
  exact ⟨census, announced, List.mem_append_right _ hmem⟩

theorem Parts.of_not_called (hm : ∀ tag callback glimpse, m ≠ .called tag callback glimpse) :
    Parts c first pending late m past := by
  cases m with
  | called tag callback glimpse => exact absurd rfl (hm tag callback glimpse)
  | _ => trivial

/-- Moments in which nobody is called. -/
theorem Parts.throughout (hm : ∀ tag callback glimpse, .called tag callback glimpse ∉ recent) :
    Throughout (Parts c first pending) past recent :=
  .of_forall fun _ hmem _ _ => .of_not_called fun tag callback glimpse heq =>
    hm tag callback glimpse (heq ▸ hmem)

/-- The release that was pending comes. -/
theorem Parts.release {n : Nat} {r : ServiceReference} {census : Census} {announced : Bool}
    (hmem : .releasing c n r.id census announced ∈ newer)
    (hnew : ∀ tag callback glimpse, .called tag callback glimpse ∉ newer)
    (hp : Throughout (Parts c first [(n, r)]) past recent) :
    Throughout (Parts c first []) past (newer ++ recent) := by
  intro late m early heq
  rcases List.append_eq_append_iff.1 heq with ⟨rest, rfl, hrest⟩ | ⟨rest, rfl, hrest⟩
  · -- all that was pending in the stretch is released after it
    refine (hp rest m early hrest).mono ?_
    rintro n' r' (hpending | ⟨census', announced', hcame⟩)
    · cases List.mem_singleton.1 hpending
      exact .inr ⟨census, announced, List.mem_append_left _ hmem⟩
    · exact .inr ⟨census', announced', List.mem_append_right _ hcame⟩
  · cases rest with
    | nil =>
      refine (hp [] m early hrest.symm).mono ?_
      rintro n' r' (hpending | ⟨census', announced', hcame⟩)
      · cases List.mem_singleton.1 hpending
        exact .inr ⟨census, announced, by simpa using hmem⟩
      · cases hcame
    | cons m' rest =>
      obtain ⟨rfl, -⟩ := List.cons.inj hrest
      exact .of_not_called fun tag callback glimpse hm => hnew tag callback glimpse
        (hm ▸ List.mem_append_right _ List.mem_cons_self)

end Stretches

/-! ## The law -/

namespace Hub

section Law

variable (c : Nat) (first : List (Attached Entry)) (retired : List (Nat × ServiceReference))

/-- What holds of a collection of proxies at any time, and of proxies that are being retired. -/
structure Handled (h : Hub Entry) : Prop where
  keyed : h.Keyed
  numbered : h.Numbered
  recounted : h.Recounted
  proxied : h.Proxied c
  attached : ∀ l ∈ first, l ∈ (h.collection c).lifecycleListeners
  gone : ∀ p ∈ retired, .created c p.1 p.2.id true ∈ h.trace ∧ h.Releasable c p.1 ∧
    ∀ l ∈ first, ∃ glimpse, .called l.tag (.unbind (.proxy p.1 p.2) p.2) glimpse ∈ h.trace

/-- A stretch of a run in which the calls that tell of the end of a proxy come before its release,
where the release of some is pending. -/
def Escorts (pending : List (Nat × ServiceReference)) (h h' : Hub Entry) : Prop :=
  h.Handled c first retired → h'.Handled c first retired ∧ h.Sure h' ∧ h.Younger h' ∧
    ∃ recent, h'.trace = recent ++ h.trace ∧ Throughout (Parts c first pending) h.trace recent

end Law

variable {c d : Nat} {first : List (Attached Entry)}
  {retired pending pending' : List (Nat × ServiceReference)} {h h' h₁ h₂ h₃ : Hub Entry}

namespace Handled

/-- What is retired stays retired. -/
theorem of_sure (hr : h.Handled c first retired) (hsure : h.Sure h') (hyounger : h.Younger h')
    (hn : h'.Numbered) (hk : h'.Recounted) (hp : h'.Proxied c) : h'.Handled c first retired where
  keyed := hsure.keyed hr.keyed
  numbered := hn
  recounted := hk
  proxied := hp
  attached l hl := by
    obtain ⟨fresh, hall, -⟩ := (hsure.onward.collection c).lifecycle
    exact hall ▸ List.mem_append_left _ (hr.attached l hl)
  gone p hmem := by
    obtain ⟨recent, ht⟩ := hsure.onward.trace
    obtain ⟨hcreated, hout, htold⟩ := hr.gone p hmem
    refine ⟨ht ▸ List.mem_append_right _ hcreated, hout.of_younger hyounger, fun l hl => ?_⟩
    obtain ⟨glimpse, hcall⟩ := htold l hl
    exact ⟨glimpse, ht ▸ List.mem_append_right _ hcall⟩

theorem without (hr : h.Handled c first retired) : h.Handled c first [] :=
  ⟨hr.keyed, hr.numbered, hr.recounted, hr.proxied, hr.attached,
    fun _ hmem => absurd hmem List.not_mem_nil⟩

end Handled

namespace Escorts

theorem trans (h₁₂ : Escorts c first retired pending h₁ h₂)
    (h₂₃ : Escorts c first retired pending h₂ h₃) : Escorts c first retired pending h₁ h₃ := by
  intro hhandled
  obtain ⟨hhandled₂, hsure₁, hyounger₁, older, hold, hp₁⟩ := h₁₂ hhandled
  obtain ⟨hhandled₃, hsure₂, hyounger₂, newer, hnew, hp₂⟩ := h₂₃ hhandled₂
  refine ⟨hhandled₃, Law.trans hsure₁ hsure₂, Law.trans hyounger₁ hyounger₂, newer ++ older, ?_, ?_⟩
  · rw [hnew, hold, List.append_assoc]
  · exact hp₁.append Parts.later (hold ▸ hp₂)

instance : Law (Escorts c first retired pending) where
  aside ha hhandled := by
    obtain ⟨recent, ht, hm⟩ := ha.trace
    refine ⟨hhandled.of_sure (Law.aside ha) (Law.aside ha) (Stable.aside ha hhandled.numbered)
      (Stable.aside ha hhandled.recounted) (Stable.aside ha hhandled.proxied), Law.aside ha,
      Law.aside ha, recent, ht, Parts.throughout fun tag callback glimpse hmem => hm _ hmem⟩
  trans := Escorts.trans

/-- Where nothing is retired or pending, whatever is may be. -/
theorem widen (he : Escorts c first [] [] h h') : Escorts c first retired pending h h' := by
  intro hhandled
  obtain ⟨hhandled', hsure, hyounger, recent, ht, hp⟩ := he hhandled.without
  refine ⟨hhandled.of_sure hsure hyounger hhandled'.numbered hhandled'.recounted hhandled'.proxied,
    hsure, hyounger, recent, ht, hp.mono fun hparts => hparts.mono ?_⟩
  rintro n r (hno | hcomes)
  · cases hno
  · exact .inr hcomes

/-- A section. -/
theorem of_section (hsure : h.Sure h') (hyounger : h.Younger h') (hs : h.Section d h')
    (hn : h.Numbered → h'.Numbered) (hk : h.Recounted → h'.Recounted)
    (hp : h.Proxied c → h'.Proxied c) : Escorts c first retired pending h h' := by
  intro hhandled
  obtain ⟨recent, ht, hm⟩ := hs.trace
  exact ⟨hhandled.of_sure hsure hyounger (hn hhandled.numbered) (hk hhandled.recounted)
    (hp hhandled.proxied), hsure, hyounger, recent, ht,
    Parts.throughout fun tag callback glimpse hmem => hm _ hmem⟩

/-- The beginning of a call. -/
theorem calling {l : Attached Entry} {callback : Callback Entry}
    (hp : h.Handled c first retired → Parts c first pending []
      (.called l.tag callback (h.sight l.home callback)) h.trace) :
    Escorts c first retired pending h (h.calling l callback) := by
  intro hhandled
  have hsure := Run.steps_sure.called h l.tag callback (h.sight l.home callback)
  have hyounger := Run.steps_younger.called h l.tag callback (h.sight l.home callback)
  refine ⟨hhandled.of_sure hsure hyounger (hhandled.numbered.called ..)
    (Run.steps_recounted.called h _ _ _ hhandled.recounted)
    (Run.steps_proxied c |>.called h _ _ _ hhandled.proxied), hsure, hyounger,
    [.called l.tag callback (h.sight l.home callback)], rfl, ?_⟩
  exact .singleton (hp hhandled)

/-- The beginning of a call that tells of no end of a proxy of this collection. -/
theorem calling_of_not_parting {l : Attached Entry} {callback : Callback Entry}
    (hq : l.home = c → ¬ callback.IsParting) :
    Escorts c first retired pending h (h.calling l callback) := by
  refine calling fun _ => ?_
  cases callback with
  | unbind entry r => exact fun hhome => absurd trivial (hq hhome)
  | unsatisfied d => exact fun hhome => absurd trivial (hq hhome)
  | _ => trivial

/-- The beginning of a release that is due. -/
theorem letting {n : Nat} {id : UInt64} {announced : Bool} (hfree : h.Releasable d n) :
    Escorts c first retired pending h (h.letting d n id announced) := by
  intro hhandled
  have hsure := Run.steps_sure.released h d n id h.census announced
  have hyounger := Run.steps_younger.released h d n id h.census announced
  refine ⟨hhandled.of_sure hsure hyounger (hhandled.numbered.releasing hfree id announced)
    (Run.steps_recounted.released h _ _ _ _ _ hhandled.recounted)
    (Run.steps_proxied c |>.released h _ _ _ _ _ hhandled.proxied), hsure, hyounger,
    [.releasing d n id h.census announced], rfl, ?_⟩
  exact Parts.throughout fun tag callback glimpse hmem => by simp at hmem

end Escorts

end Hub

/-! ## Operations -/

namespace Run

open Hub

variable {c d : Nat} {first : List (Attached Entry)}
  {retired pending : List (Nat × ServiceReference)} {h h' : Hub Entry} {nested : Nested Entry}

theorem escorts_considered (d : Nat) (r : ServiceReference) :
    Keeps (Escorts c first retired pending) (consider d r) := fun _ _ _ hr =>
  have hc := consider_ok hr
  .of_section (steps_sure.considered d r hr) (steps_younger.considered d r hr) hc.toSection
    (fun hn => hn.considered hc) (fun hk => hk.considered hc) (fun hp => hp.considered hc)

theorem escorts_retracted (d : Nat) (id : UInt64) :
    Keeps (Escorts c first retired pending) (retract d id) := fun _ _ _ hr =>
  have hc := retract_ok hr
  .of_section (steps_sure.retracted d id hr) (steps_younger.retracted d id hr) hc.toSection
    (fun hn => hn.retracted hc) (steps_recounted.retracted d id hr)
    ((steps_proxied c).retracted d id hr)

theorem escorts_cleared (d : Nat) : Keeps (Escorts c first retired pending) (clear d) := by
  intro h u h' hr
  refine .of_section (steps_sure.cleared d hr) (steps_younger.cleared d hr) (section_of_clear hr)
    (fun hn => ?_) (steps_recounted.cleared d hr) ((steps_proxied c).cleared d hr)
  have hsub := index_clear hr
  obtain ⟨recent, -, rfl⟩ := clear_ok hr
  exact hn.of_trace rfl rfl hsub

variable (hn : ∀ command, Keeps (Escorts c first [] []) (nested command))
include hn

/-- A call, whatever commands the listener gives. -/
theorem escorts_call {l : Attached Entry} {callback : Callback Entry}
    (hc : ∀ h : Hub Entry, Escorts c first retired pending h (h.calling l callback)) :
    Keeps (Escorts c first retired pending) (call nested l callback) :=
  .call_seen (fun _ command _ => (hn command).mono Escorts.widen) hc

/-- A round of calls of lifecycle listeners. -/
theorem escorts_lifecycle {what : Guarded} {service : UInt64} {callback : Callback Entry} {u : Unit}
    (hc : ∀ l ∈ (h.collection d).lifecycleListeners, ∀ g : Hub Entry,
      Escorts c first retired pending g (g.calling l callback))
    (hr : (lifecycleListeners d >>= callAll nested what service callback) h = .ok (u, h')) :
    Escorts c first retired pending h h' := by
  obtain ⟨listeners, h₁, hread, hcall⟩ := bind_eq_ok.1 hr
  obtain rfl := lifecycleListeners_ok hread
  have hstep : Escorts c first retired pending h h₁ := Keeps.lifecycleListeners d hread
  exact hstep.trans (Keeps.callAll _ _ (fun l hl => escorts_call hn (hc l hl)) hcall)

/-- A round of calls of state listeners. -/
theorem escorts_state {what : Guarded} {service : UInt64} {callback : Callback Entry} {u : Unit}
    (hc : ∀ l ∈ (h.collection d).stateListeners, ∀ g : Hub Entry,
      Escorts c first retired pending g (g.calling l callback))
    (hr : (stateListeners d >>= callAll nested what service callback) h = .ok (u, h')) :
    Escorts c first retired pending h h' := by
  obtain ⟨listeners, h₁, hread, hcall⟩ := bind_eq_ok.1 hr
  obtain rfl := stateListeners_ok hread
  have hstep : Escorts c first retired pending h h₁ := Keeps.stateListeners d hread
  exact hstep.trans (Keeps.callAll _ _ (fun l hl => escorts_call hn (hc l hl)) hcall)

theorem escorts_announceAdmission (d : Nat) (entry : Entry) (r : ServiceReference) (first' : Bool) :
    Keeps (Escorts c first retired pending) (announceAdmission nested d entry r first') := by
  refine .announceAdmission_of_rounds (fun h u h' hr => ?_) (fun h u h' hr => ?_) first'
  · refine escorts_lifecycle hn (fun l _ g => ?_) hr
    exact .calling_of_not_parting fun _ hno => hno
  · rw [satisfied, collection_bind] at hr
    refine escorts_state hn (fun l _ g => ?_) hr
    exact .calling_of_not_parting fun _ hno => hno

/-- The removal of an entry of another collection is announced to listeners of that one. -/
theorem escorts_announceRemoval_of_ne (hd : d ≠ c) (removal : Removal Entry) :
    Keeps (Escorts c first retired pending) (announceRemoval nested d removal) := by
  refine .announceRemoval_of_rounds (fun h u h' hr hhandled => ?_) (fun h u h' hr hhandled => ?_)
  · refine escorts_lifecycle hn (fun l hl g => .calling_of_not_parting fun hhome => ?_) hr hhandled
    exact absurd ((hhandled.keyed.lifecycle.home hl).symm.trans hhome) hd
  · rw [unsatisfied, collection_bind] at hr
    refine escorts_state hn (fun l hl g => .calling_of_not_parting fun hhome => ?_) hr hhandled
    exact absurd ((hhandled.keyed.state.home hl).symm.trans hhome) hd

/-- A release that is due. -/
theorem escorts_runRelease {n : Nat} {id : UInt64} {release : Release Entry} {finish : Finish}
    (hfree : h.Releasable d n) (hr : runRelease nested d n id release h = .ok (finish, h')) :
    Escorts c first retired pending h h' :=
  Keeps.runRelease_seen (fun command _ => (hn command).mono Escorts.widen) (.letting hfree) hr

theorem escorts_afterAdmission {r : ServiceReference} {admission : Admission Entry}
    {outcome : Reconciled} (hfree : ∀ n release, admission = .refused n release → h.Releasable d n)
    (hr : afterAdmission nested d r admission h = .ok (outcome, h')) :
    Escorts c first retired pending h h' := by
  cases admission with
  | ignored => exact Keeps.pure _ hr
  | refused n release =>
    cases release with
    | none => exact Keeps.pure _ hr
    | some release =>
      rw [afterAdmission, collection_bind] at hr
      obtain ⟨finish, h₁, hrelease, hr⟩ := bind_eq_ok.1 hr
      have hbegun : Escorts c first retired pending h h₁ :=
        escorts_runRelease hn (hfree n _ rfl) hrelease
      exact hbegun.trans (Keeps.bind (.settle ..) (fun _ => .pure _) hr)
  | admitted entry first' =>
    exact Keeps.bind (escorts_announceAdmission hn d entry r first') (fun _ => .pure _) hr

/-- A service that appears. A refused entry is released at once, and nobody is told of it. -/
theorem escorts_appeared (d : Nat) (r : ServiceReference) :
    Keeps (Escorts c first retired pending) (apply nested d .appeared r) := by
  intro h outcome h' hr hhandled
  obtain ⟨result, h₁, hcons, hr⟩ := bind_eq_ok.1 hr
  have hstep : Escorts c first retired pending h h₁ := escorts_considered d r hcons
  cases result with
  | error t =>
    obtain ⟨-, rfl⟩ := pure_eq_ok.1 hr
    exact hstep hhandled
  | ok admission =>
    obtain ⟨_, h₂, hafter, hr⟩ := bind_eq_ok.1 hr
    obtain ⟨-, rfl⟩ := pure_eq_ok.1 hr
    refine hstep.trans (escorts_afterAdmission hn ?_ hafter) hhandled
    rintro n release rfl
    exact releasable_refused hhandled.numbered (consider_ok hcons)

theorem escorts_letGo {holding : Holding Entry} {u : Unit} (hfree : h.Releasable d holding.serial)
    (hr : letGo nested d holding h = .ok (u, h')) : Escorts c first retired pending h h' := by
  cases hrelease : holding.release with
  | none =>
    rw [letGo, hrelease] at hr
    exact Keeps.pure _ hr
  | some release =>
    rw [letGo, hrelease] at hr
    simp only [collection_bind] at hr
    obtain ⟨finish, h₁, hrun, hr⟩ := bind_eq_ok.1 hr
    have hbegun : Escorts c first retired pending h h₁ := escorts_runRelease hn hfree hrun
    refine hbegun.trans (Keeps.bind (.settle ..) (fun done => ?_) hr)
    split
    · exact .pure _
    · exact .bind .get fun _ => .record trivial

/-- Every listener of a round is called. -/
theorem told_of_callAll {what : Guarded} {service : UInt64} {callback : Callback Entry}
    {listeners : List (Attached Entry)} {u : Unit}
    (hc : ∀ l ∈ listeners, ∀ g : Hub Entry,
      Escorts c first retired pending g (g.calling l callback))
    (hr : callAll nested what service callback listeners h = .ok (u, h'))
    (hhandled : h.Handled c first retired) :
    ∀ l ∈ listeners, ∃ glimpse, .called l.tag callback glimpse ∈ h'.trace := by
  induction listeners generalizing h with
  | nil => exact fun l hl => absurd hl List.not_mem_nil
  | cons l listeners ih =>
    obtain ⟨_, h₁, hone, hrest⟩ := bind_eq_ok.1 hr
    obtain ⟨finish, h₂, hcall, hsettle⟩ := bind_eq_ok.1 hone
    rw [call_eq] at hcall
    have hlater : ∀ a ∈ listeners, ∀ g : Hub Entry,
        Escorts c first retired pending g (g.calling a callback) :=
      fun a ha => hc a (List.mem_cons_of_mem _ ha)
    have hnote (command : Command Entry) (answer : Answer) : Keeps (Escorts c first retired pending)
        (record (.commanded l.tag command.name answer)) := .record trivial
    have hbegun : Escorts c first retired pending h (h.calling l callback) :=
      hc l List.mem_cons_self h
    have hgiven : Escorts c first retired pending (h.calling l callback) h₂ :=
      Keeps.give (fun command _ => (hn command).mono Escorts.widen) hnote _ hcall
    have hsettled : Escorts c first retired pending h₂ h₁ :=
      Keeps.bind (.settle ..) (fun _ => .pure _) hsettle
    have hround : Escorts c first retired pending h₁ h' :=
      Keeps.callAll _ _ (fun a ha => escorts_call hn (hlater a ha)) hrest
    have hhandled₁ : h₁.Handled c first retired := ((hbegun.trans hgiven).trans hsettled hhandled).1
    intro a ha
    rcases List.mem_cons.1 ha with rfl | ha
    · obtain ⟨-, hsure, -⟩ := (hgiven.trans (hsettled.trans hround)) (hbegun hhandled).1
      obtain ⟨recent, ht⟩ := hsure.onward.trace
      exact ⟨_, ht ▸ List.mem_append_right _ List.mem_cons_self⟩
    · exact ih hlater hrest hhandled₁ a ha

omit hn in
/-- The call that tells of the end of a proxy shows it valid unless it was released before. -/
theorem escorts_calling_unbind {l : Attached Entry} {n : Nat} {r : ServiceReference}
    (hpending : (n, r) ∈ pending) (g : Hub Entry) :
    Escorts c first retired pending g (g.calling l (.unbind (.proxy n r) r)) := by
  refine .calling fun hhandled _ => ⟨n, rfl, .inl hpending, fun hnone => ?_⟩
  have hvalid : g.released.contains n = false := by
    rw [← Bool.not_eq_true, List.contains_iff_mem, hhandled.recounted.released]
    rintro ⟨d, id, census, announced, hmem⟩
    exact hnone d id census announced hmem
  show some (⟨r.id, some (!g.released.contains n)⟩ : EntryView) = _
  rw [hvalid]
  rfl

omit hn in
/-- The call that tells that a dependency is unmet comes while the proxy is being retired. -/
theorem escorts_calling_unsatisfied {l : Attached Entry} {n : Nat} {r : ServiceReference}
    {dependency : Dependency} (hpending : (n, r) ∈ pending) (hretired : (n, r) ∈ retired)
    (g : Hub Entry) :
    Escorts c first retired pending g (g.calling l (.unsatisfied dependency)) := by
  refine .calling fun hhandled _ => ⟨n, r, ?_, .inl hpending⟩
  obtain ⟨hcreated, hout, htold⟩ := hhandled.gone _ hretired
  refine ⟨hcreated, ?_, htold⟩
  show n ∉ (g.census[c]?.getD []).map Prod.fst
  rw [census_getD, (Collection.census_eq _).1]
  exact hout.2

/-- What is announced of a proxy that was taken out. -/
theorem escorts_announceRemoval {removal : Removal Entry} {n : Nat} {r : ServiceReference}
    {u : Unit}
    (hentry : removal.holding.entry = .proxy n r) (hreference : removal.holding.reference = r)
    (hcreated : .created c n r.id true ∈ h.trace) (hfree : h.Releasable c n)
    (hr : announceRemoval nested c removal h = .ok (u, h')) :
    Escorts c first [] [(n, r)] h h' := by
  obtain ⟨holding, wasStored, isLast⟩ := removal
  cases wasStored with
  | false => exact Keeps.pure _ hr
  | true =>
    intro hhandled
    obtain ⟨_, h₁, hunbind, hrest⟩ := bind_eq_ok.1 hr
    rw [hentry, hreference] at hunbind
    have hcalling (l : Attached Entry) (g : Hub Entry) :
        Escorts c first [] [(n, r)] g (g.calling l (.unbind (.proxy n r) r)) :=
      escorts_calling_unbind List.mem_cons_self g
    have hunbound : Escorts c first [] [(n, r)] h h₁ :=
      escorts_lifecycle hn (fun l _ g => hcalling l g) hunbind
    cases isLast with
    | false =>
      obtain ⟨-, rfl⟩ := pure_eq_ok.1 hrest
      exact hunbound hhandled
    | true =>
      obtain ⟨hhandled₁, hsure, hyounger, recent, ht, hp⟩ := hunbound hhandled
      -- all listeners of the beginning were among those of the round
      have htold : ∀ l ∈ first, ∃ glimpse,
          .called l.tag (.unbind (.proxy n r) r) glimpse ∈ h₁.trace := by
        obtain ⟨listeners, h₂, hread, hcall⟩ := bind_eq_ok.1 hunbind
        obtain rfl := lifecycleListeners_ok hread
        have hstep : Escorts c first [] [(n, r)] h h₂ := Keeps.lifecycleListeners c hread
        intro l hl
        exact told_of_callAll hn (fun a _ g => hcalling a g) hcall (hstep hhandled).1 l
          (hhandled.attached l hl)
      have hretired : h₁.Handled c first [(n, r)] := by
        refine ⟨hhandled₁.keyed, hhandled₁.numbered, hhandled₁.recounted, hhandled₁.proxied,
          hhandled₁.attached, fun p hmem => ?_⟩
        obtain rfl := List.mem_singleton.1 hmem
        exact ⟨ht ▸ List.mem_append_right _ hcreated, hfree.of_younger hyounger, htold⟩
      rw [if_pos rfl, unsatisfied, collection_bind] at hrest
      have hlast : Escorts c first [(n, r)] [(n, r)] h₁ h' :=
        escorts_state hn (fun l _ g =>
          escorts_calling_unsatisfied List.mem_cons_self List.mem_cons_self g) hrest
      obtain ⟨hhandled', hsure', hyounger', newer, hnew, hp'⟩ := hlast hretired
      refine ⟨hhandled'.without, Law.trans hsure hsure', Law.trans hyounger hyounger',
        newer ++ recent, ?_, hp.append Parts.later (ht ▸ hp')⟩
      rw [hnew, ht, List.append_assoc]

omit hn in
/-- The release of a proxy that was pending. -/
theorem letGo_proxy {holding : Holding Entry} {u : Unit}
    (hrelease : holding.release = some ⟨false, .silent⟩)
    (hr : letGo nested c holding h = .ok (u, h')) :
    h' = h.letting c holding.serial holding.id false := by
  rw [letGo, hrelease] at hr
  exact (pure_eq_ok.1 hr).2.symm

/-- **Retraction.** The listeners are told of a proxy that is taken away before it is released. -/
theorem escorts_removed (d : Nat) (id : UInt64) :
    Keeps (Escorts c first [] []) (remove nested d id) := by
  intro h outcome h' hr hhandled
  obtain ⟨result, h₁, hret, hr⟩ := bind_eq_ok.1 hr
  have hstep (pending : List (Nat × ServiceReference)) : Escorts c first [] pending h h₁ :=
    escorts_retracted d id hret
  have hc := retract_ok hret
  cases result with
  | none =>
    obtain ⟨-, rfl⟩ := pure_eq_ok.1 hr
    exact hstep [] hhandled
  | some removal =>
    obtain ⟨_, h₂, hannounce, hr⟩ := bind_eq_ok.1 hr
    obtain ⟨_, h₃, hlet, hr⟩ := bind_eq_ok.1 hr
    obtain ⟨-, rfl⟩ := pure_eq_ok.1 hr
    have hfree := releasable_retracted hhandled.numbered hc
    by_cases hd : d = c
    · subst hd
      -- the holding was in the index of this collection of proxies
      have hmem : removal.holding ∈ (h.collection d).index := by
        cases hc with
        | found hf hs => exact List.mem_of_find?_eq_some hf
      obtain ⟨hentry, hrelease⟩ := hhandled.proxied.held _ hmem
      obtain ⟨hhandled₁, -⟩ := hstep [] hhandled
      have hcreated : .created d removal.holding.serial removal.holding.reference.id true ∈
          h₁.trace := by
        have hmade := hhandled.recounted.created d _ hmem
        rw [hrelease] at hmade
        obtain ⟨recent, ht, -⟩ := hc.toSection.trace
        exact ht ▸ List.mem_append_right _ hmade
      have hannounced : Escorts d first []
          [(removal.holding.serial, removal.holding.reference)] h₁ h₂ :=
        escorts_announceRemoval hn hentry rfl hcreated hfree hannounce
      obtain ⟨-, -, hyounger₂, -⟩ := hannounced hhandled₁
      obtain ⟨hhandled₂, hsure, hyounger, recent, ht, hp⟩ := (hstep _).trans hannounced hhandled
      obtain rfl := letGo_proxy hrelease hlet
      have hlast : Escorts d first [] [] h₂
          (h₂.letting d removal.holding.serial removal.holding.id false) :=
        .letting (hfree.of_younger hyounger₂)
      obtain ⟨hhandled₃, hsure', hyounger', -⟩ := hlast hhandled₂
      refine ⟨hhandled₃, Law.trans hsure hsure', Law.trans hyounger hyounger',
        [.releasing d removal.holding.serial removal.holding.id h₂.census false] ++ recent, ?_,
        Parts.release List.mem_cons_self (fun _ _ _ hmem => by simp at hmem) hp⟩
      show _ :: h₂.trace = _
      rw [ht]
      rfl
    · have hannounced : Escorts c first [] [] h₁ h₂ :=
        escorts_announceRemoval_of_ne hn hd removal hannounce
      obtain ⟨-, -, hyounger, -⟩ := hannounced (hstep [] hhandled).1
      exact ((hstep []).trans hannounced).trans
        (escorts_letGo hn (hfree.of_younger hyounger) hlet) hhandled

theorem escorts_removeAll (d : Nat) (ids : List UInt64) :
    Keeps (Escorts c first [] []) (removeAll nested d ids) := by
  induction ids with
  | nil => exact .pure _
  | cons id ids ih => exact .bind (escorts_removed hn d id) fun _ => .bind ih fun _ => .pure _

/-- **Escorts.** The operations keep the law. -/
theorem course_escorts : Course nested (Escorts c first [] []) where
  observed l event := escorts_call hn fun _ => .calling_of_not_parting fun _ hno => hno
  appeared := escorts_appeared hn
  removed := escorts_removed hn
  shutdown d := .bind (.close d) fun live => .bind (escorts_removeAll hn d live) fun _ =>
    .bind (escorts_cleared d) fun _ => .pure _
  lifecycle d l h u h' hr hhandled := by
    obtain ⟨hsame, ht⟩ := addLifecycleListener_same hr
    have hsure := steps_sure.lifecycle d l hr
    have hyounger := steps_younger.lifecycle d l hr
    refine ⟨hhandled.of_sure hsure hyounger (hhandled.numbered.of_trace ?_ ht fun d =>
      (hsame d).index ▸ .refl _) (steps_recounted.lifecycle d l hr hhandled.recounted)
      ((steps_proxied c).lifecycle d l hr hhandled.proxied), hsure, hyounger, [], ht, .nil⟩
    obtain ⟨recent, -, rfl⟩ := addLifecycleListener_ok hr
    rfl
  state d l h u h' hr hhandled := by
    obtain ⟨hsame, ht⟩ := addStateListener_same hr
    have hsure := steps_sure.state d l hr
    have hyounger := steps_younger.state d l hr
    refine ⟨hhandled.of_sure hsure hyounger (hhandled.numbered.of_trace ?_ ht fun d =>
      (hsame d).index ▸ .refl _) (steps_recounted.state d l hr hhandled.recounted)
      ((steps_proxied c).state d l hr hhandled.proxied), hsure, hyounger, [], ht, .nil⟩
    obtain ⟨recent, -, rfl⟩ := addStateListener_ok hr
    rfl

end Run

/-! ## Whole runs -/

/-- A collection of proxies that was just built is ready. -/
theorem Hub.Handled.ofPlans {plans : List (Plan Entry)} {c : Nat}
    (hf : ((Hub.ofPlans plans).collection c).factory = .proxy) :
    (Hub.ofPlans plans).Handled c ((Hub.ofPlans plans).collection c).lifecycleListeners [] where
  keyed := keyed_ofPlans plans
  numbered := .ofPlans plans
  recounted := .ofPlans plans
  proxied := .ofPlans hf
  attached _ hl := hl
  gone _ hmem := absurd hmem List.not_mem_nil

section Runs

variable {plans : List (Plan Entry)} {depth : Nat} {commands : List (Command Entry)}
  {answers : List Answer} {h : Hub Entry} {c : Nat}
  (hr : (Hub.ofPlans plans).runAll depth commands = .ok (answers, h))
include hr

/-- The calls of a run from plans come before the releases of the proxies that they tell of. -/
theorem Hub.throughout_runAll (hf : (h.collection c).factory = .proxy) :
    Throughout (Parts c ((Hub.ofPlans plans).collection c).lifecycleListeners []) [] h.trace := by
  rw [((Hub.onward_runAll hr).collection c).factory] at hf
  have hescorts : Hub.Escorts c ((Hub.ofPlans plans).collection c).lifecycleListeners [] []
      (Hub.ofPlans plans) h :=
    Run.keeps_runAll (Run.keeps_run (fun _ hn => Run.course_escorts hn) depth) hr
  obtain ⟨-, -, -, recent, ht, hp⟩ := hescorts (.ofPlans hf)
  rw [(Hub.blank_ofPlans plans).2] at ht hp
  rw [ht, List.append_nil]
  exact hp

/-- A release comes once at most: what is still to be released was not released before. -/
theorem Hub.unreleased_before {late early : List (Moment Entry)} {m : Moment Entry} {n : Nat}
    {r : ServiceReference} (ht : h.trace = late ++ m :: early) (hcomes : Comes c [] late n r) :
    ∀ d id census announced, .releasing d n id census announced ∉ early := by
  intro d id census announced hmem
  obtain ⟨census', announced', hlate⟩ := hcomes.resolve_left List.not_mem_nil
  have hearly : (.releasing d n id census announced : Moment Entry) ∈ h.trace :=
    ht ▸ List.mem_append_right _ (List.mem_cons_of_mem _ hmem)
  have hlater : (.releasing c n r.id census' announced' : Moment Entry) ∈ h.trace :=
    ht ▸ List.mem_append_left _ hlate
  -- both releases are of the collection that the number was given to
  obtain ⟨rfl, -, -⟩ := (Hub.Numbered.promises_eq hr).1.created_unique
    (Hub.created_of_releasing hr hearly) (Hub.created_of_releasing hr hlater)
  have honce := (releases_conserved hr d).1 n
  rw [ht, List.countP_append, List.countP_cons] at honce
  have hone : 0 < late.countP (Moment.releases d fun serial _ => serial == n) :=
    List.countP_pos_iff.2 ⟨_, hlate, by simp [Moment.releases]⟩
  have htwo : 0 < early.countP (Moment.releases d fun serial _ => serial == n) :=
    List.countP_pos_iff.2 ⟨_, hmem, by simp [Moment.releases]⟩
  omega

/-- **Validity.** Take any run from plans that comes to an end, with any listeners, and a
collection of proxies of any mode. In the end a proxy that was made for the collection is valid
if and only if it is the entry that the index holds for its service; the storage holds the same
proxies as the index, and all of them are valid. Each call that tells that an entry was taken
away tells of a proxy and shows it valid. And each call that tells that the dependency is unmet
comes while a proxy of the collection is being taken away: it was made before, it is out of the
index, every lifecycle listener of the plan was told that it is gone, and it is valid, because it
was not released before; it is released after the call. -/
theorem proxies_valid (hf : (h.collection c).factory = .proxy) :
    (∀ n id hasRelease, .created c n id hasRelease ∈ h.trace → ∀ r : ServiceReference,
      (ServiceEntry.isValid h.released (Entry.proxy n r) = true ↔
        ∃ x, Roster.find? Holding.id id (h.collection c).index = some x ∧
          x.entry = .proxy n x.reference)) ∧
    (h.collection c).storage.items.Perm (h.collection c).entries ∧
    (∀ e ∈ (h.collection c).storage.items,
      (∃ n r, e = .proxy n r) ∧ ServiceEntry.isValid h.released e = true) ∧
    (∀ tag entry r glimpse, .called tag (.unbind entry r) glimpse ∈ h.trace → tag.home = c →
      (∃ n, entry = .proxy n r) ∧ glimpse.entry = some ⟨r.id, some true⟩) ∧
    ∀ late tag dependency glimpse early,
      h.trace = late ++ .called tag (.unsatisfied dependency) glimpse :: early → tag.home = c →
      ∃ n r, .created c n r.id true ∈ early ∧
        n ∉ (glimpse.census[c]?.getD []).map Prod.fst ∧
        (∀ l ∈ ((Hub.ofPlans plans).collection c).lifecycleListeners, ∃ glimpse',
          .called l.tag (.unbind (.proxy n r) r) glimpse' ∈ early) ∧
        (∀ d id census announced, .releasing d n id census announced ∉ early) ∧
        ∃ census announced, .releasing c n r.id census announced ∈ late := by
  have hproxied := Hub.proxied_runAll hr hf
  have hparts := Hub.throughout_runAll hr hf
  have hvalid : ∀ n (r : ServiceReference),
      ServiceEntry.isValid h.released (Entry.proxy n r) = true ↔ n ∉ h.released := by
    intro n r
    show (!h.released.contains n) = true ↔ _
    simp
  have hexact : (h.collection c).Exact := by
    refine (Hub.matched_runAll hr).exact c ?_
    rw [hf]
    exact Factory.entriesIdentified_proxy
  refine ⟨fun n id b hmade r => ?_, hexact.stored, fun e he => ?_,
    fun tag entry r glimpse hmem hhome => ?_, fun late tag dependency glimpse early ht hhome => ?_⟩
  · rw [hvalid]
    exact Hub.valid_iff_held hr hf hmade
  · obtain ⟨x, hx, rfl, -⟩ := hexact.of_mem_items he
    have hentry := (hproxied.held x hx).1
    have hnodup := (Hub.Numbered.promises_eq hr).1.identities c
    refine ⟨⟨_, _, hentry⟩, ?_⟩
    rw [hentry, hvalid,
      Hub.valid_iff_held hr hf ((Hub.recounted_runAll hr).created c x hx)]
    exact ⟨x, Collection.find?_of_mem hnodup hx, hentry⟩
  · obtain ⟨late, early, ht⟩ := List.append_of_mem hmem
    obtain ⟨n, hentry, hcomes, hshown⟩ := hparts late _ early ht hhome
    rw [List.append_nil] at hshown
    exact ⟨⟨n, hentry⟩, hshown (Hub.unreleased_before hr ht hcomes)⟩
  · obtain ⟨n, r, hretiring, hcomes⟩ := hparts late _ early ht hhome
    have hunreleased := Hub.unreleased_before hr ht hcomes
    rw [List.append_nil] at hretiring
    exact ⟨n, r, hretiring.created, hretiring.out, hretiring.told, hunreleased,
      hcomes.resolve_left List.not_mem_nil⟩

end Runs

/-! ### Replacements amid a retraction -/

/-- A mandatory set of proxies. When the first service is gone its listener registers a second one
and panics; when the dependency is unmet this one is unregistered and a third one registered. -/
def Plan.leases : Plan Entry where
  hasRegistry := true
  factory := some .proxy
  filter := some ⟨"", .and []⟩
  mode := .set
  lifecycleListeners := [.mk "relay" .silent fun told callback =>
    match callback with
    | .unbind _ _ => .mk (if told.length < 3 then [.register .empty] else []) (.panic none)
    | _ => .silent]
  stateListeners := [.mk "relief" .silent fun told callback =>
    match callback with
    | .unsatisfied _ =>
      .mk (if told.length < 3 then [.unregister 2, .register .empty] else []) .done
    | _ => .silent]

/-- The second proxy is released before the first, in the midst of its retraction. In the end the
third one is valid and the others are not; whoever was told that one is gone saw it valid. -/
theorem proxies_valid_leases : ∃ answers h,
    (Hub.ofPlans [Plan.leases]).runAll 5 [.start 0, .register .empty, .unregister 1] =
      .ok (answers, h) ∧
    (h.collection 0).factory = .proxy ∧
    (∀ r : ServiceReference, ServiceEntry.isValid h.released (Entry.proxy 1 r) = false ∧
      ServiceEntry.isValid h.released (Entry.proxy 2 r) = false ∧
      ServiceEntry.isValid h.released (Entry.proxy 3 r) = true) ∧
    ∀ tag entry r glimpse, .called tag (.unbind entry r) glimpse ∈ h.trace → tag.home = 0 →
      (∃ n, entry = .proxy n r) ∧ glimpse.entry = some ⟨r.id, some true⟩ := by
  obtain ⟨⟨answers, h⟩, hr, hseen⟩ := Run.exists_of_map_eq_ok
    (f := fun p : List Answer × Hub Entry =>
      ((p.2.collection 0).index.map fun x => (x.id, x.entry.serial?),
        p.2.trace.filterMap (Moment.releasable? 0)))
    (show ((Hub.ofPlans [Plan.leases]).runAll 5 [.start 0, .register .empty, .unregister 1]).map _ =
      .ok ([((3 : UInt64), some 3)], [((3 : Nat), (3 : UInt64)), (2, 2), (1, 1)])
      by decide +kernel)
  obtain ⟨hindex, hmade⟩ := Prod.mk.inj hseen
  have hf : (h.collection 0).factory = .proxy := ((Hub.onward_runAll hr).collection 0).factory
  obtain ⟨hvalid, -, -, hunbind, -⟩ := proxies_valid hr hf
  have hcreated : ∀ n id, (n, id) ∈ [((3 : Nat), (3 : UInt64)), (2, 2), (1, 1)] →
      .created 0 n id true ∈ h.trace := fun n id hmem => Moment.created_of_releasable (hmade ▸ hmem)
  -- the index holds one entry, the third
  obtain ⟨x, hx, hone⟩ := List.map_eq_singleton_iff.1 hindex
  obtain ⟨hid, hserial⟩ := Prod.mk.inj hone
  have hgone : ∀ n id, .created 0 n id true ∈ h.trace → id ≠ 3 → ∀ r : ServiceReference,
      ServiceEntry.isValid h.released (Entry.proxy n r) = false := by
    intro n id hm hne r
    rw [← Bool.not_eq_true, hvalid n id true hm r, hx]
    rintro ⟨y, hfind, -⟩
    obtain rfl := List.mem_singleton.1 (List.mem_of_find?_eq_some hfind)
    exact hne ((Roster.key_of_find? hfind).symm.trans hid)
  refine ⟨answers, h, hr, hf, fun r => ⟨hgone 1 1 (hcreated 1 1 (by simp)) (by decide) r,
    hgone 2 2 (hcreated 2 2 (by simp)) (by decide) r, ?_⟩, hunbind⟩
  have hmem : x ∈ (h.collection 0).index := hx ▸ List.mem_singleton_self x
  have hentry := ((Hub.proxied_runAll hr hf).held x hmem).1
  have hnumber : x.serial = 3 := by
    rw [hentry] at hserial
    exact Option.some.inj hserial
  rw [hnumber] at hentry
  rw [hvalid 3 3 true (hcreated 3 3 (by simp)) r, ← hid]
  exact ⟨x, Collection.find?_of_mem ((Hub.Numbered.promises_eq hr).1.identities 0) hmem, hentry⟩

end LiveServices
