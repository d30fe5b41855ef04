import LiveServices.Proofs.Releases.Serials
import Mathlib.Algebra.Ring.Int.Defs
import Mathlib.Data.List.Nodup

/-!
# Release actions are conserved

A release action that was made with an entry has either run or is kept with the entry in the
index, as soon as nothing is under way. `Hub.overdue` counts those of which neither is so. A
decision in which an entry is refused, and the retraction of an entry, raise it by one; the
release that follows, after all listeners were told, lowers it again. In between the listeners
and the action itself may give any commands, which leave the count as it is by induction. So
every operation as a whole keeps it (`course_conserves`), whatever the equality of entries is: the
index alone decides what is released.

The same induction shows that a release begins when its entry is out of the index
(`Hub.Releasable`). A shutdown ends by throwing away what is left in the index. Nothing is
(`Run.index_of_removeAll`), so it throws away no release action either.
-/

namespace LiveServices

variable {E : Type}

/-! ## The count -/

namespace Moment

/-- Whether a moment tells that an entry with a release action was made for this collection, of
those numbers and services that are asked for. -/
def promises (c : Nat) (q : Nat → UInt64 → Bool) : Moment E → Bool
  | .created d serial service hasRelease => d == c && q serial service && hasRelease
  | _ => false

/-- Whether a moment tells that the release of an entry of this collection began. -/
def releases (c : Nat) (q : Nat → UInt64 → Bool) : Moment E → Bool
  | .releasing d serial service _ _ => d == c && q serial service
  | _ => false

variable {c : Nat} {q : Nat → UInt64 → Bool}

theorem IsPlain.not_promises {m : Moment E} (hm : m.IsPlain) : ¬ m.promises c q = true := by
  cases m with
  | created => exact hm.elim
  | _ => exact Bool.false_ne_true

theorem IsPlain.not_releases {m : Moment E} (hm : m.IsPlain) : ¬ m.releases c q = true := by
  cases m with
  | releasing => exact hm.elim
  | _ => exact Bool.false_ne_true

end Moment

/-- The number of release actions that a collection keeps, of those asked for. -/
def Collection.pending (q : Nat → UInt64 → Bool) (k : Collection E) : Nat :=
  k.index.countP fun x => q x.serial x.id && x.release.isSome

/-! What has yet to be released when a service was decided about or taken out. -/

section Owed

variable (c d : Nat) (q : Nat → UInt64 → Bool)

/-- One for a release action of this collection that is asked for. -/
def owed (n : Nat) (id : UInt64) (release : Option (Release E)) : Int :=
  if (d == c && q n id && release.isSome) = true then 1 else 0

variable {c d q} in
theorem owed_of_ne (hd : d ≠ c) (n : Nat) (id : UInt64) (release : Option (Release E)) :
    owed c d q n id release = 0 := by simp [owed, hd]

variable {q} in
/-- A holding brings its release action. -/
theorem pending_of_perm {k k' : Collection E} {x : Holding E}
    (hperm : k'.index.Perm (x :: k.index)) :
    (k'.pending q : Int) = k.pending q + owed c c q x.serial x.id x.release := by
  rw [Collection.pending, hperm.countP_eq, List.countP_cons, Collection.pending, owed]
  simp only [beq_self_eq_true, Bool.true_and]
  split <;> omega

/-- An entry that was refused has yet to be released. -/
def owedDecision (r : ServiceReference) : Except Trouble (Admission E) → Int
  | .ok (.refused n release) => owed c d q n r.id release
  | _ => 0

/-- An entry that was taken out has yet to be released. -/
def owedRemoval : Option (Removal E) → Int
  | some removal => owed c d q removal.holding.serial removal.holding.id removal.holding.release
  | none => 0

end Owed

namespace Hub

/-- The release actions that were made, less those that ran or are kept. -/
def overdue (c : Nat) (q : Nat → UInt64 → Bool) (h : Hub E) : Int :=
  (h.trace.countP (Moment.promises c q) : Int) - h.trace.countP (Moment.releases c q) -
    (h.collection c).pending q

/-- What is kept by a run as a whole: the numbers, and the release actions that are overdue. -/
structure Conserves (c : Nat) (q : Nat → UInt64 → Bool) (h h' : Hub E) : Prop where
  onward : h.Onward h'
  younger : h.Younger h'
  numbered : h.Numbered → h'.Numbered
  overdue : h.Numbered → h'.overdue c q = h.overdue c q

variable {c d : Nat} {q : Nat → UInt64 → Bool} {h h' : Hub E}

theorem overdue_of_plain
    (ht : ∃ recent, h'.trace = recent ++ h.trace ∧ ∀ m ∈ recent, m.IsPlain)
    (hi : (h'.collection c).index = (h.collection c).index) :
    h'.overdue c q = h.overdue c q := by
  obtain ⟨recent, ht, hm⟩ := ht
  have hp : recent.countP (Moment.promises c q) = 0 :=
    List.countP_eq_zero.2 fun m hmem => (hm m hmem).not_promises
  have hr : recent.countP (Moment.releases c q) = 0 :=
    List.countP_eq_zero.2 fun m hmem => (hm m hmem).not_releases
  rw [overdue, overdue, ht, List.countP_append, List.countP_append, hp, hr, Collection.pending, hi,
    Collection.pending, Nat.zero_add, Nat.zero_add]

theorem overdue_of_eq (ht : h'.trace = h.trace)
    (hi : (h'.collection c).index = (h.collection c).index) : h'.overdue c q = h.overdue c q :=
  overdue_of_plain ⟨[], by simpa using ht, by simp⟩ hi

/-- A moment that comes to the trace. -/
theorem overdue_cons (h h' : Hub E) (m : Moment E) (ht : h'.trace = m :: h.trace)
    (hi : (h'.collection c).index = (h.collection c).index) :
    h'.overdue c q = h.overdue c q + (if m.promises c q = true then 1 else 0) -
      if m.releases c q = true then 1 else 0 := by
  rw [overdue, overdue, ht, List.countP_cons, List.countP_cons, Collection.pending, hi,
    Collection.pending]
  split <;> split <;> omega

/-- A collection that is put into another state keeps other release actions. -/
theorem overdue_setTo {k : Collection E} (hd : d < h.collections.length)
    (past : List (Nat × Collection E)) :
    (h.setTo d k past).overdue c q =
      h.overdue c q + if d = c then ((h.collection d).pending q : Int) - k.pending q else 0 := by
  rw [overdue, overdue, collection_setTo]
  show ((h.trace.countP _ : Int) - h.trace.countP _ - _) = _
  by_cases hc : d = c
  · subst hc
    rw [if_pos ⟨rfl, hd⟩, if_pos rfl]
    omega
  · rw [if_neg fun hcd => hc hcd.1.symm, if_neg hc]
    omega

instance law_conserves : Law (Conserves (E := E) c q) where
  aside ha := ⟨Law.aside ha, Law.aside ha, Stable.aside ha,
    fun _ => overdue_of_plain ha.trace (ha.stock c).index⟩
  trans h₁₂ h₂₃ := ⟨Law.trans h₁₂.onward h₂₃.onward, Law.trans h₁₂.younger h₂₃.younger,
    fun hn => h₂₃.numbered (h₁₂.numbered hn),
    fun hn => (h₂₃.overdue (h₁₂.numbered hn)).trans (h₁₂.overdue hn)⟩

/-- An entry that was made raises the count, if it has a release action. -/
theorem overdue_creation (h : Hub E) (id : UInt64) (hasRelease : Bool)
    (past : List (Nat × Collection E)) :
    ({ h.creation d id hasRelease with past := past } : Hub E).overdue c q = h.overdue c q +
      if (d == c && q (h.attempts + 1) id && hasRelease) = true then 1 else 0 := by
  have hattempt : (h.attempt d id).overdue c q = h.overdue c q := by
    rw [overdue_cons h (h.attempt d id) (.attempted d (h.attempts + 1) id) rfl rfl]
    exact (Int.sub_zero _).trans (Int.add_zero _)
  rw [overdue_cons (h.attempt d id) { h.creation d id hasRelease with past := past }
    (.created d (h.attempts + 1) id hasRelease) rfl rfl, hattempt]
  exact Int.sub_zero _

variable [ServiceEntry E]

/-- After a decision only a refused entry is overdue: an admitted one is kept. -/
theorem overdue_considered {r : ServiceReference} {result : Except Trouble (Admission E)}
    (hc : Considered d r h result h') :
    h'.overdue c q = h.overdue c q + owedDecision c d q r result := by
  cases hc with
  | ignored => exact (overdue_of_eq rfl rfl).trans (Int.add_zero _).symm
  | @failed recent | @panicked recent =>
    exact (overdue_cons h { h.attempt d r.id with past := recent ++ h.past }
      (.attempted d (h.attempts + 1) r.id) rfl rfl).trans (Int.sub_zero _)
  | refused => exact overdue_creation ..
  | @admitted recent entry release ho hno hm ht hs =>
    have hperm : ((h.collection d).enter ⟨h.attempts + 1, entry, r, release⟩).index.Perm
        (⟨h.attempts + 1, entry, r, release⟩ :: (h.collection d).index) :=
      Collection.index_enter hno
    have hmade : (h.creation d r.id release.isSome).overdue c q =
        h.overdue c q + owed c d q (h.attempts + 1) r.id release :=
      overdue_creation h r.id release.isSome h.past
    rw [overdue_setTo (h := h.creation d r.id release.isSome) (lt_length_of_open (h := h) ho),
      hmade]
    show _ + (if d = c then ((h.collection d).pending q : Int) - _ else 0) = h.overdue c q + 0
    by_cases hd : d = c
    · subst hd
      rw [if_pos rfl, pending_of_perm d hperm]
      show _ + ((h.collection d).pending q - (_ + owed d d q (h.attempts + 1) r.id release)) = _
      omega
    · rw [if_neg hd, owed_of_ne hd, Int.add_zero]

/-- After a retraction the entry that was taken out is overdue. -/
theorem overdue_retracted {id : UInt64} {result : Option (Removal E)} (hn : h.Numbered)
    (hc : Retracted d id h result h') :
    h'.overdue c q = h.overdue c q + owedRemoval c d q result := by
  cases hc with
  | absent => exact (overdue_of_eq rfl rfl).trans (Int.add_zero _).symm
  | @found recent holding hf hs =>
    have hd : d < h.collections.length := by
      refine lt_length_of_index fun hnil => ?_
      rw [hnil] at hf
      cases hf
    have hperm := Collection.index_leave (hn.identities d) hf
    rw [overdue_setTo hd]
    show _ = _ + owed c d q holding.serial holding.id holding.release
    by_cases hdc : d = c
    · subst hdc
      rw [if_pos rfl, pending_of_perm d hperm]
      omega
    · rw [if_neg hdc, owed_of_ne hdc]

/-- A refused entry was never in the index. -/
theorem releasable_refused {r : ServiceReference} {n : Nat} {release : Option (Release E)}
    (hn : h.Numbered) (hc : Considered d r h (.ok (.refused n release)) h') :
    h'.Releasable d n := by
  cases hc with
  | refused =>
    exact ⟨Nat.le_refl _, fun hin => Nat.not_succ_le_self _ (hn.indexed d _ hin)⟩

/-- A retracted entry is out of the index. -/
theorem releasable_retracted {id : UInt64} {removal : Removal E} (hn : h.Numbered)
    (hc : Retracted d id h (some removal) h') : h'.Releasable d removal.holding.serial := by
  cases hc with
  | @found recent holding hf hs =>
    have hd : d < h.collections.length := by
      refine lt_length_of_index fun hnil => ?_
      rw [hnil] at hf
      cases hf
    have hperm : (h.collection d).serials.Perm
        (holding.serial :: ((h.collection d).leave holding).serials) :=
      (Collection.index_leave (hn.identities d) hf).map _
    refine ⟨hn.indexed d _ (hperm.symm.subset List.mem_cons_self), ?_⟩
    rw [collection_setTo_self hd]
    exact (List.nodup_cons.1 (hperm.nodup_iff.1 (hn.serials d))).1

end Hub

/-! ## Operations -/

namespace Run

open Hub

variable [ServiceEntry E] {c d : Nat} {q : Nat → UInt64 → Bool} {h h' : Hub E} {nested : Nested E}

/-- The beginning of a call keeps everything. -/
theorem conserves_called (h : Hub E) (tag : ListenerTag) (callback : Callback E) (g : Glimpse) :
    Conserves c q h (h.record (.called tag callback g)) := by
  refine ⟨steps_onward.called .., steps_younger.called .., fun hn => hn.called .., fun _ => ?_⟩
  rw [overdue_cons h (h.record (.called tag callback g)) (.called tag callback g) rfl rfl]
  exact (Int.sub_zero _).trans (Int.add_zero _)

variable (hn : ∀ command, Keeps (Conserves c q) (nested command))
include hn

omit [ServiceEntry E] in
/-- A release that is due lowers the count by one, whatever commands the action gives. -/
theorem conserves_runRelease {n : Nat} {id : UInt64} {release : Release E} {finish : Finish}
    (hr : runRelease nested d n id release h = .ok (finish, h')) (hnum : h.Numbered)
    (hfree : h.Releasable d n) :
    h'.Numbered ∧ h'.overdue c q = h.overdue c q - if (d == c && q n id) = true then 1 else 0 := by
  have hgive : give nested (fun _ _ => pure ()) release.response.finish
      release.response.commands
      { h.record (.releasing d n id h.census release.announced) with
        released := n :: h.released } = .ok (finish, h') := hr
  have hrest := Keeps.give (fun command _ => hn command) (fun _ _ => .pure _) _ hgive
  have hbegun := hnum.releasing hfree id release.announced
  refine ⟨hrest.numbered hbegun, ?_⟩
  rw [hrest.overdue hbegun,
    overdue_cons h { h.record (.releasing d n id h.census release.announced) with
      released := n :: h.released } (.releasing d n id h.census release.announced) rfl rfl]
  exact congrArg (· - _) (Int.add_zero _)

/-- What follows a decision makes up for it: a refused entry is released at once. -/
theorem conserves_afterAdmission {r : ServiceReference} {admission : Admission E}
    {outcome : Reconciled} (hr : afterAdmission nested d r admission h = .ok (outcome, h'))
    (hnum : h.Numbered)
    (hfree : ∀ n release, admission = .refused n release → h.Releasable d n) :
    h'.Numbered ∧ h'.overdue c q = h.overdue c q - owedDecision c d q r (.ok admission) := by
  cases admission with
  | ignored =>
    obtain ⟨-, rfl⟩ := pure_eq_ok.1 hr
    exact ⟨hnum, (Int.sub_zero _).symm⟩
  | refused n release =>
    cases release with
    | none =>
      obtain ⟨-, rfl⟩ := pure_eq_ok.1 hr
      exact ⟨hnum, by simp [owedDecision, owed]⟩
    | some release =>
      rw [afterAdmission, collection_bind] at hr
      obtain ⟨finish, h₁, hrelease, hr⟩ := bind_eq_ok.1 hr
      have hsettled : Conserves c q h₁ h' := Keeps.bind (.settle ..) (fun _ => .pure _) hr
      obtain ⟨hnum₁, hover⟩ := conserves_runRelease hn hrelease hnum (hfree n _ rfl)
      refine ⟨hsettled.numbered hnum₁, ?_⟩
      rw [hsettled.overdue hnum₁, hover]
      simp [owedDecision, owed]
  | admitted entry first =>
    have hannounced : Conserves c q h h' :=
      Keeps.bind (.announceAdmission hn conserves_called ..) (fun _ => .pure _) hr
    exact ⟨hannounced.numbered hnum, (hannounced.overdue hnum).trans (Int.sub_zero _).symm⟩

/-- A service that appears: the decision and what follows it cancel out. -/
theorem conserves_appeared (d : Nat) (r : ServiceReference) :
    Keeps (Conserves c q) (apply nested d .appeared r) := by
  intro h outcome h' hr
  have honward : Keeps Onward (apply nested d .appeared r) :=
    (steps_onward.course fun command => (hn command).mono Conserves.onward).appeared d r
  have hyounger : Keeps Younger (apply nested d .appeared r) :=
    (steps_younger.course fun command => (hn command).mono Conserves.younger).appeared d r
  suffices hboth : h.Numbered → h'.Numbered ∧ h'.overdue c q = h.overdue c q from
    ⟨honward hr, hyounger hr, fun hnum => (hboth hnum).1, fun hnum => (hboth hnum).2⟩
  intro hnum
  obtain ⟨result, h₁, hcons, hr⟩ := bind_eq_ok.1 hr
  have hc := consider_ok hcons
  have hstep := overdue_considered (c := c) (q := q) hc
  have hnum₁ := hnum.considered hc
  cases result with
  | error t =>
    obtain ⟨-, rfl⟩ := pure_eq_ok.1 hr
    exact ⟨hnum₁, hstep.trans (Int.add_zero _)⟩
  | ok admission =>
    obtain ⟨_, h₂, hafter, hr⟩ := bind_eq_ok.1 hr
    obtain ⟨-, rfl⟩ := pure_eq_ok.1 hr
    obtain ⟨hnum₂, hback⟩ := conserves_afterAdmission hn hafter hnum₁
      (by rintro n release rfl; exact releasable_refused hnum hc)
    refine ⟨hnum₂, ?_⟩
    rw [hback, hstep]
    exact Int.add_sub_cancel ..

/-- What was taken out is let go, if that is due. -/
theorem conserves_letGo {holding : Holding E} {u : Unit}
    (hr : letGo nested d holding h = .ok (u, h')) (hnum : h.Numbered)
    (hfree : h.Releasable d holding.serial) :
    h'.Numbered ∧
      h'.overdue c q = h.overdue c q - owed c d q holding.serial holding.id holding.release := by
  cases hrelease : holding.release with
  | none =>
    rw [letGo, hrelease] at hr
    obtain ⟨-, rfl⟩ := pure_eq_ok.1 hr
    exact ⟨hnum, by simp [owed]⟩
  | some release =>
    rw [letGo, hrelease] at hr
    simp only [collection_bind] at hr
    obtain ⟨finish, h₁, hrun, hr⟩ := bind_eq_ok.1 hr
    have hsettled : Conserves c q h₁ h' := by
      refine Keeps.bind (.settle ..) (fun done => ?_) hr
      split
      · exact .pure _
      · exact .bind .get fun _ => .record trivial
    obtain ⟨hnum₁, hover⟩ := conserves_runRelease hn hrun hnum hfree
    refine ⟨hsettled.numbered hnum₁, ?_⟩
    rw [hsettled.overdue hnum₁, hover]
    simp [owed]

/-- A service that is taken away: its entry is let go after the listeners were told, and none of
them can bring it back. -/
theorem conserves_removed (d : Nat) (id : UInt64) :
    Keeps (Conserves c q) (remove nested d id) := by
  intro h outcome h' hr
  have honward : Keeps Onward (remove nested d id) :=
    steps_onward.remove (fun command => (hn command).mono Conserves.onward) d id
  have hyounger : Keeps Younger (remove nested d id) :=
    steps_younger.remove (fun command => (hn command).mono Conserves.younger) d id
  suffices hboth : h.Numbered → h'.Numbered ∧ h'.overdue c q = h.overdue c q from
    ⟨honward hr, hyounger hr, fun hnum => (hboth hnum).1, fun hnum => (hboth hnum).2⟩
  intro hnum
  obtain ⟨result, h₁, hret, hr⟩ := bind_eq_ok.1 hr
  have hc := retract_ok hret
  have hstep := overdue_retracted (c := c) (q := q) hnum hc
  have hnum₁ := hnum.retracted hc
  cases result with
  | none =>
    obtain ⟨-, rfl⟩ := pure_eq_ok.1 hr
    exact ⟨hnum₁, hstep.trans (Int.add_zero _)⟩
  | some removal =>
    obtain ⟨_, h₂, hannounce, hr⟩ := bind_eq_ok.1 hr
    obtain ⟨_, h₃, hlet, hr⟩ := bind_eq_ok.1 hr
    obtain ⟨-, rfl⟩ := pure_eq_ok.1 hr
    have hannounced : Conserves c q h₁ h₂ := Keeps.announceRemoval hn conserves_called _ _ hannounce
    have hfree := (releasable_retracted hnum hc).of_younger hannounced.younger
    obtain ⟨hnum₃, hback⟩ := conserves_letGo hn hlet (hannounced.numbered hnum₁) hfree
    refine ⟨hnum₃, ?_⟩
    rw [hback, hannounced.overdue hnum₁, hstep, owedRemoval]
    exact Int.add_sub_cancel ..

theorem conserves_removeAll (d : Nat) (ids : List UInt64) :
    Keeps (Conserves c q) (removeAll nested d ids) := by
  induction ids with
  | nil => exact .pure _
  | cons id ids ih => exact .bind (conserves_removed hn d id) fun _ => .bind ih fun _ => .pure _

/-- A shutdown: when the index is cleared there is nothing left in it. -/
theorem conserves_shutdown (d : Nat) : Keeps (Conserves c q) (shutdown nested d) := by
  intro h count h' hr
  obtain ⟨live, h₁, hclose, hr⟩ := bind_eq_ok.1 hr
  obtain ⟨n, h₂, hremove, hr⟩ := bind_eq_ok.1 hr
  obtain ⟨_, h₃, hclear, hr⟩ := bind_eq_ok.1 hr
  obtain ⟨-, rfl⟩ := pure_eq_ok.1 hr
  have hclosed : Conserves c q h h₁ := Keeps.close d hclose
  have hremoved : Conserves c q h₁ h₂ := conserves_removeAll hn d live hremove
  have hempty : (h₂.collection d).index = [] :=
    index_of_removeAll (fun command => (hn command).mono Conserves.onward) hclose hremove
  have hleft : Conserves c q h₂ h₃ := by
    have hsub := index_clear hclear
    refine ⟨steps_onward.cleared d hclear, steps_younger.cleared d hclear, ?_, fun _ => ?_⟩
    · obtain ⟨recent, -, rfl⟩ := clear_ok hclear
      exact fun hnum => hnum.of_trace rfl rfl hsub
    · obtain ⟨recent, -, rfl⟩ := clear_ok hclear
      refine overdue_of_eq rfl ?_
      rw [collection_setTo]
      split
      · next hd =>
        rw [hd.1, hempty]
        rfl
      · rfl
  exact Law.trans hclosed (Law.trans hremoved hleft)

/-- **Conservation.** The operations keep the release actions that are overdue. -/
theorem course_conserves : Course nested (Conserves c q) where
  observed l _ := .call (fun _ command _ => hn command) fun h glimpse =>
    conserves_called h l.tag _ glimpse
  appeared := conserves_appeared hn
  removed := conserves_removed hn
  shutdown := conserves_shutdown hn
  lifecycle d l h u h' hr := by
    obtain ⟨hsame, ht⟩ := addLifecycleListener_same hr
    refine ⟨steps_onward.lifecycle d l hr, steps_younger.lifecycle d l hr, fun hnum => ?_,
      fun _ => overdue_of_eq ht (hsame c).index⟩
    refine hnum.of_trace ?_ ht fun d => (hsame d).index ▸ .refl _
    obtain ⟨recent, -, rfl⟩ := addLifecycleListener_ok hr
    rfl
  state d l h u h' hr := by
    obtain ⟨hsame, ht⟩ := addStateListener_same hr
    refine ⟨steps_onward.state d l hr, steps_younger.state d l hr, fun hnum => ?_,
      fun _ => overdue_of_eq ht (hsame c).index⟩
    refine hnum.of_trace ?_ ht fun d => (hsame d).index ▸ .refl _
    obtain ⟨recent, -, rfl⟩ := addStateListener_ok hr
    rfl

end Run

/-! ## Whole runs -/

/-- A release action that was made has run or is kept in the index. -/
theorem Hub.Numbered.promises_eq [ServiceEntry E] {plans : List (Plan E)} {depth : Nat}
    {commands : List (Command E)} {answers : List Answer} {h : Hub E}
    (hr : (Hub.ofPlans plans).runAll depth commands = .ok (answers, h)) :
    h.Numbered ∧ ∀ c q, h.trace.countP (Moment.promises c q) =
      h.trace.countP (Moment.releases c q) + (h.collection c).pending q := by
  have hall : ∀ c q, Hub.Conserves c q (Hub.ofPlans plans) h := fun c q =>
    Run.keeps_runAll (Run.keeps_run (fun _ hn => Run.course_conserves hn) depth) hr
  have hstart := Hub.Numbered.ofPlans plans
  refine ⟨(hall 0 fun _ _ => true).numbered hstart, fun c q => ?_⟩
  have hover := (hall c q).overdue hstart
  obtain ⟨hindex, htrace⟩ := Hub.blank_ofPlans plans
  have hzero : (Hub.ofPlans plans).overdue c q = 0 := by
    rw [Hub.overdue, htrace, Collection.pending, hindex]
    rfl
  rw [hzero, Hub.overdue] at hover
  omega

/-- Of one number at most one entry is made. -/
theorem Hub.Numbered.promises_le_one {h : Hub E} (hn : h.Numbered) (c n : Nat) :
    h.trace.countP (Moment.promises c fun serial _ => serial == n) ≤ 1 := by
  calc h.trace.countP (Moment.promises c fun serial _ => serial == n)
      ≤ h.trace.countP (fun m => (m.made?.map (· == n)).getD false) := by
        refine List.countP_mono_left fun m _ hm => ?_
        cases m with
        | created d serial service hasRelease =>
          simp only [Moment.promises, Bool.and_eq_true] at hm
          simpa [Moment.made?] using hm.1.2
        | _ => cases hm
    _ = (h.trace.filterMap Moment.made?).count n := by
        rw [List.count, List.countP_filterMap]
    _ ≤ 1 := List.nodup_iff_count.1 hn.made n

/-- Of one service at most one release action is kept. -/
theorem Collection.pending_id {k : Collection E} (hk : k.identities.Nodup) (id : UInt64) :
    k.pending (fun _ service => service == id) =
      if (k.index.any fun x => x.id == id && x.release.isSome) = true then 1 else 0 := by
  have hle : k.pending (fun _ service => service == id) ≤ 1 :=
    calc k.pending (fun _ service => service == id)
        ≤ k.index.countP (fun x => x.id == id) :=
          List.countP_mono_left fun x _ hx => (Bool.and_eq_true_iff.1 hx).1
      _ = k.identities.count id := by
          rw [List.count, Collection.identities, List.countP_map]
          rfl
      _ ≤ 1 := List.nodup_iff_count.1 hk id
  split
  · next hany =>
    obtain ⟨x, hx, hid⟩ := List.any_eq_true.1 hany
    have hpos : 0 < k.pending (fun _ service => service == id) :=
      List.countP_pos_iff.2 ⟨x, hx, hid⟩
    omega
  · next hany =>
    refine List.countP_eq_zero.2 fun x hx hid => hany ?_
    exact List.any_eq_true.2 ⟨x, hx, hid⟩

/-! ## Destruction -/

/-- A collection that was closed without services stays so. -/
theorem Hub.Onward.emptied {c : Nat} {h h' : Hub E} (ho : h.Onward h')
    (hk : (h.collection c).closed = true ∧ (h.collection c).index = []) :
    (h'.collection c).closed = true ∧ (h'.collection c).index = [] := by
  obtain ⟨hclosed, hless⟩ := (ho.collection c).closed hk.1
  rw [Collection.identities, Collection.identities, hk.2] at hless
  exact ⟨hclosed, List.map_eq_nil_iff.1 (List.subset_nil.1 hless)⟩

namespace Run

open Hub

variable [ServiceEntry E] {c n : Nat} {h h' : Hub E}

theorem shutdown_ok {nested : Nested E} (hn : ∀ command, Keeps Onward (nested command))
    (hr : shutdown nested c h = .ok (n, h')) :
    (h'.collection c).closed = true ∧ (h'.collection c).index = [] := by
  obtain ⟨live, h₁, hclose, hr⟩ := bind_eq_ok.1 hr
  obtain ⟨count, h₂, hremove, hr⟩ := bind_eq_ok.1 hr
  obtain ⟨_, h₃, hclear, hr⟩ := bind_eq_ok.1 hr
  obtain ⟨-, rfl⟩ := pure_eq_ok.1 hr
  have hclosed := (((steps_onward.removeAll hn c _ hremove).collection c).closed
    (close_ok hclose).2).1
  exact (steps_onward.cleared c hclear).emptied ⟨hclosed, index_of_removeAll hn hclose hremove⟩

/-- A command that destroyed a collection leaves it closed and without services. -/
theorem destroy_ok {depth : Nat} (hr : h.run depth (.destroy c) = .ok (.count n, h')) :
    (h'.collection c).closed = true ∧ (h'.collection c).index = [] := by
  cases depth with
  | zero => cases hr
  | succ depth =>
    have hn := onward_run (E := E) depth
    obtain ⟨answer, h₁, hwork, hr⟩ := bind_eq_ok.1 hr
    obtain ⟨rfl, rfl⟩ : answer = .count n ∧ h₁.record (.ended h₁.census) = h' := by
      cases hr
      exact ⟨rfl, rfl⟩
    rw [execute, onWork, onCollection, collection_bind] at hwork
    split at hwork
    · cases (pure_eq_ok.1 hwork).1
    · rw [workOn, update_bind] at hwork
      obtain ⟨_, h₂, hbody, hrest⟩ := bind_eq_ok.1 hwork
      obtain ⟨count, h₃, hdestroy, hbody⟩ := bind_eq_ok.1 hbody
      obtain ⟨-, rfl⟩ := pure_eq_ok.1 hbody
      obtain ⟨_, h₄, -, hshutdown⟩ := bind_eq_ok.1 hdestroy
      -- what is done after the work does not bring a service back
      have hlater : Onward h₃ h₁ := by
        refine Keeps.bind (.update c ?_) (fun _ => ?_) hrest
        · exact fun k => ⟨rfl, rfl, rfl, rfl, rfl, rfl, rfl, id⟩
        · exact .bind ((steps_onward.course hn).built (.dispose c)) fun _ => .pure _
      exact hlater.emptied (shutdown_ok hn hshutdown)

end Run

/-- A sequence of commands up to one of them, that command, and those after it. -/
theorem Hub.runAll_at [ServiceEntry E] {depth i : Nat} {commands : List (Command E)}
    {answers : List Answer} {command : Command E} {answer : Answer} {h h' : Hub E}
    (hr : h.runAll depth commands = .ok (answers, h')) (hc : commands[i]? = some command)
    (ha : answers[i]? = some answer) :
    ∃ (h₁ h₂ : Hub E) (rest : List (Command E)) (answers' : List Answer),
      h₁.run depth command = .ok (answer, h₂) ∧ h₂.runAll depth rest = .ok (answers', h') := by
  induction commands generalizing h answers i with
  | nil => cases hc
  | cons first commands ih =>
    obtain ⟨answer₁, h₁, rest, hfirst, hrest, rfl⟩ := Hub.runAll_cons_eq_ok.1 hr
    cases i with
    | zero =>
      obtain rfl : first = command := by simpa using hc
      obtain rfl : answer₁ = answer := by simpa using ha
      exact ⟨h, h₁, commands, rest, hfirst, hrest⟩
    | succ i => exact ih hrest (by simpa using hc) (by simpa using ha)

/-- **Releases.** Take any run from plans, with any factories, listeners and release actions that
come to an end. Each entry is released once at most; a release begins for an entry that was made
with a release action and that is not in the index then nor in the end. Of each service as many
release actions were made as have run, and one more if its entry in the index has one. And once
a collection was destroyed, each release action that was made for it has run exactly once. -/
theorem releases_conserved [ServiceEntry E] {plans : List (Plan E)} {depth : Nat}
    {commands : List (Command E)} {answers : List Answer} {h : Hub E}
    (hr : (Hub.ofPlans plans).runAll depth commands = .ok (answers, h)) (c : Nat) :
    (∀ n, h.trace.countP (Moment.releases c fun serial _ => serial == n) ≤ 1) ∧
    (∀ n id census announced, .releasing c n id census announced ∈ h.trace →
      .created c n id true ∈ h.trace ∧ n ∉ (census[c]?.getD []).map Prod.fst ∧
        n ∉ (h.collection c).serials) ∧
    (∀ id, h.trace.countP (Moment.promises c fun _ service => service == id) =
      h.trace.countP (Moment.releases c fun _ service => service == id) +
        if ((h.collection c).index.any fun x => x.id == id && x.release.isSome) = true then 1
        else 0) ∧
    ∀ (i count : Nat), commands[i]? = some (.destroy c) → answers[i]? = some (.count count) →
      ∀ n id, .created c n id true ∈ h.trace →
        h.trace.countP (Moment.releases c fun serial _ => serial == n) = 1 := by
  obtain ⟨hn, hall⟩ := Hub.Numbered.promises_eq hr
  refine ⟨fun n => ?_, fun n id census announced hmem => ⟨?_, ?_⟩, fun id => ?_,
    fun i count hc ha n id hmem => ?_⟩
  · have := hn.promises_le_one c n
    have := hall c fun serial _ => serial == n
    omega
  · have hpos : 0 < h.trace.countP
        (Moment.releases c fun serial service => serial == n && service == id) :=
      List.countP_pos_iff.2 ⟨_, hmem, by simp [Moment.releases]⟩
    have hmade := hall c fun serial service => serial == n && service == id
    obtain ⟨m, hm, hp⟩ : ∃ m ∈ h.trace, m.promises c
        (fun serial service => serial == n && service == id) = true :=
      List.countP_pos_iff.1 (by omega)
    cases m with
    | created d serial service hasRelease =>
      simp only [Moment.promises, Bool.and_eq_true, beq_iff_eq] at hp
      obtain ⟨⟨rfl, rfl, rfl⟩, rfl⟩ := hp
      exact hm
    | _ => cases hp
  · obtain ⟨-, hout, hcensus⟩ := hn.released c n id census announced hmem
    exact ⟨hcensus, hout⟩
  · rw [hall, Collection.pending_id (hn.identities c)]
  · obtain ⟨h₁, h₂, rest, answers', hdestroy, hrest⟩ := Hub.runAll_at hr hc ha
    have hempty := ((Hub.onward_runAll hrest).emptied (Run.destroy_ok hdestroy)).2
    have hnone : (h.collection c).pending (fun serial _ => serial == n) = 0 := by
      rw [Collection.pending, hempty, List.countP_nil]
    have hpos : 0 < h.trace.countP (Moment.promises c fun serial _ => serial == n) :=
      List.countP_pos_iff.2 ⟨_, hmem, by simp [Moment.promises]⟩
    have := hn.promises_le_one c n
    have := hall c fun serial _ => serial == n
    omega

/-! ### A refused entry whose release takes the other one away -/

/-- The number and the service of an entry that was made for a collection, with a release action. -/
def Moment.releasable? (c : Nat) : Moment E → Option (Nat × UInt64)
  | .created d n id true => if d = c then some (n, id) else none
  | _ => none

theorem Moment.created_of_releasable {c n : Nat} {id : UInt64} {trace : List (Moment E)}
    (hmade : (n, id) ∈ trace.filterMap (Moment.releasable? c)) : .created c n id true ∈ trace := by
  obtain ⟨m, hm, hsome⟩ := List.mem_filterMap.1 hmade
  unfold releasable? at hsome
  split at hsome
  · split at hsome
    · next hd =>
      subst hd
      cases hsome
      exact hm
    · cases hsome
  · cases hsome

/-- The number that an answer is. -/
def Answer.count? : Answer → Option Nat
  | .count n => some n
  | _ => none

theorem Answer.eq_count {answer : Answer} {n : Nat} (hn : answer.count? = some n) :
    answer = .count n := by
  cases answer with
  | count => exact congrArg Answer.count (Option.some.inj hn)
  | _ => cases hn

/-- A set of entries that are all equal. The release of one takes the first service away, and
then it fails. -/
def Plan.doubles : Plan Entry where
  hasRegistry := true
  factory := some ⟨"doubles", fun _ _ => .made (.reference (.new 7 .empty))
    (some ⟨true, .mk [.unregister 1] (.panic none)⟩)⟩
  filter := some ⟨"", .and []⟩
  mandatory := false
  mode := .set

/-- The second entry is refused, and its release takes the first one away, so that the third is
admitted; after the collection was destroyed each was released exactly once. -/
theorem releases_conserved_doubles : ∃ answers h,
    (Hub.ofPlans [Plan.doubles]).runAll 4
      [.start 0, .register .empty, .register .empty, .register .empty, .destroy 0] =
      .ok (answers, h) ∧ answers[4]? = some (.count 1) ∧
    ∀ n ∈ [(1 : Nat), 2, 3],
      h.trace.countP (Moment.releases 0 fun serial _ => serial == n) = 1 := by
  obtain ⟨⟨answers, h⟩, hr, hseen⟩ := Run.exists_of_map_eq_ok
    (f := fun p : List Answer × Hub Entry =>
      (p.1[4]?.bind Answer.count?, p.2.trace.filterMap (Moment.releasable? 0)))
    (show ((Hub.ofPlans [Plan.doubles]).runAll 4
      [.start 0, .register .empty, .register .empty, .register .empty, .destroy 0]).map _ =
      .ok (some 1, [((3 : Nat), (3 : UInt64)), (2, 2), (1, 1)]) by decide +kernel)
  obtain ⟨hcount, hmade⟩ := Prod.mk.inj hseen
  have hanswer : answers[4]? = some (.count 1) := by
    obtain ⟨answer, ha, hone⟩ := Option.bind_eq_some_iff.1 hcount
    rw [ha, Answer.eq_count hone]
  have hcreated : ∀ n id, (n, id) ∈ [((3 : Nat), (3 : UInt64)), (2, 2), (1, 1)] →
      .created 0 n id true ∈ h.trace := fun n id hin => Moment.created_of_releasable (hmade ▸ hin)
  have hlast := (releases_conserved hr 0).2.2.2 4 1 rfl hanswer
  refine ⟨answers, h, hr, hanswer, fun n hn => ?_⟩
  simp only [List.mem_cons, List.not_mem_nil, or_false] at hn
  rcases hn with rfl | rfl | rfl
  · exact hlast 1 1 (hcreated 1 1 (by simp))
  · exact hlast 2 2 (hcreated 2 2 (by simp))
  · exact hlast 3 3 (hcreated 3 3 (by simp))

end LiveServices
