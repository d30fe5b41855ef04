import LiveServices.Proofs.Callbacks.Settled

/-!
# What state listeners take the state to be

A change of the state is announced to the state listeners in the order in which they were
attached. A listener that answers with commands may change the state again, and that change is
announced to all of them before the first round reaches those that come later: they are told of
the two changes in the wrong order (`notices_crossed`). A listener with none but passive ones
before it is told in time, and then the notices alternate and the last of them agrees with the
state (`notices_agree`), whatever it and the listeners after it do.

One change of the state is announced to nobody: a shutdown throws away entries that could not be
removed because they equal nothing. `notices_agree` leaves such collections out once they are
closed, and `notices_of_ghost` shows why.
-/

namespace LiveServices

variable {E : Type} [ServiceEntry E]

section Settling

variable {c d : Nat} {early : List (Attached E)} {l : Attached E} {h h' : Hub E} {nested : Nested E}

/-! ## Operations -/

namespace Run

theorem nested_of_settling
    (hn : ∀ command, Keeps (Hub.Settling c early l) (nested command)) (command : Command E) :
    Keeps Hub.Sure (nested command) := (hn command).mono fun hs => hs.sure

/-- A release action is no notice. -/
theorem settling_released (h : Hub E) (d serial : Nat) (service : UInt64) (census : Census)
    (announced : Bool) : Hub.Settling c early l h
      { h.record (.releasing d serial service census announced) with
        released := serial :: h.released } :=
  .of_still ⟨steps_sure.released h d serial service census announced, ⟨rfl, rfl, rfl⟩, rfl⟩

/-- The last section of a shutdown throws away what could not be removed, which nobody is told. -/
theorem settling_clear {u : Unit} (hr : clear d h = .ok (u, h'))
    (hclosed : (h.collection d).closed = true) (hindex : (h.collection d).index = []) :
    Hub.Settling c early l h h' := by
  have hsure := steps_sure.cleared d hr
  have hsec := section_of_clear hr
  by_cases hd : d = c
  · subst hd
    refine ⟨hsure, fun _ hs => ?_⟩
    obtain ⟨b, hi, hb⟩ := hs
    have hnot := Hub.notices_eq hsec.trace l.tag
    have hnil : (h'.collection d).index = [] ∧ (h'.collection d).storage.items = [] ∨
        h'.collection d = h.collection d := by
      obtain ⟨recent, -, rfl⟩ := clear_ok hr
      rw [Hub.collection_setTo]
      split
      · exact .inl ⟨rfl, rfl⟩
      · exact .inr rfl
    by_cases heq : (h.collection d).factory.EntriesEquivalent
    · -- the storage has as many items as the index, so it was empty already
      refine Hub.Settled.of_still ⟨hsure, ⟨hsec.factory, ?_, ?_⟩, hnot⟩ ⟨b, hi, hb⟩
      · rcases hnil with ⟨hnil, -⟩ | hsame
        · rw [hnil, hindex]
        · rw [hsame]
      · have hsize := (hi.coherent.now d).size_eq heq
        rw [Collection.identities, hindex] at hsize
        rcases hnil with ⟨-, hnil⟩ | hsame
        · rw [hnil, List.length_eq_zero_iff.1 hsize]
        · rw [hsame]
    · refine ⟨b, hi.of_sure hsure hnot, .inr ⟨hsec.closed.trans hclosed, ?_, ?_⟩⟩
      · rcases hnil with ⟨hnil, -⟩ | hsame
        · exact hnil
        · rw [hsame]
          exact hindex
      · rw [hsec.factory]
        exact heq
  · exact .of_still (.of_section hsure hsec hd)

variable (hn : ∀ command, Keeps (Hub.Settling c early l) (nested command))
include hn

theorem settling_satisfied (hd : d ≠ c) (service : UInt64) :
    Keeps (Hub.Settling c early l) (satisfied nested d service) := by
  intro h u h' hr
  refine ⟨steps_sure.satisfied (nested_of_settling hn) d service hr, fun hu hs => ?_⟩
  exact settling_elsewhere hn hd hr hs hu

theorem settling_unsatisfied (hd : d ≠ c) (service : UInt64) :
    Keeps (Hub.Settling c early l) (unsatisfied nested d service) := by
  intro h u h' hr
  refine ⟨steps_sure.unsatisfied (nested_of_settling hn) d service hr, fun hu hs => ?_⟩
  exact settling_elsewhere hn hd hr hs hu

variable (hearly : ∀ a ∈ early, a.listener.IsPassive)
include hearly

/-- The announcement of an admission settles what is due. -/
theorem settled_of_announceAdmission {entry : E} {r : ServiceReference} {first : Bool} {u : Unit}
    (hr : announceAdmission nested d entry r first h = .ok (u, h')) (hu : h'.Unattended c)
    (hs : (d = c ∧ first = true) ∧ h.Due c early l true ∨
      ¬ (d = c ∧ first = true) ∧ h.Settled c early l) : h'.Settled c early l := by
  have hsure := steps_sure.announceAdmission (nested_of_settling hn) d entry r first hr
  obtain ⟨_, h₁, hbind, hrest⟩ := bind_eq_ok.1 hr
  rcases hs with ⟨⟨rfl, rfl⟩, hdue⟩ | ⟨hno, hs⟩
  · -- what is due stays due while the passive lifecycle listeners are told
    have hstill : h.Still d l.tag h₁ := still_lifecycle rfl (hu.of_sure hsure) hbind
    exact settled_of_due hn hearly rfl hrest (hdue.of_still hstill) hu
  · have hbound : Hub.Settling c early l h h₁ := settling_lifecycle hn d rfl hbind
    cases first with
    | false =>
      obtain ⟨-, rfl⟩ := pure_eq_ok.1 hrest
      exact hbound.settled hu hs
    | true =>
      have hd : d ≠ c := fun hd => hno ⟨hd, rfl⟩
      exact (Hub.Law.trans hbound (settling_satisfied hn hd r.id hrest)).settled hu hs

/-- The announcement of a removal settles what is due. -/
theorem settled_of_announceRemoval {removal : Removal E} {u : Unit}
    (hr : announceRemoval nested d removal h = .ok (u, h')) (hu : h'.Unattended c)
    (hs : (∃ holding, d = c ∧ removal = ⟨holding, true, true⟩) ∧ h.Due c early l false ∨
      ¬ (∃ holding, d = c ∧ removal = ⟨holding, true, true⟩) ∧ h.Settled c early l) :
    h'.Settled c early l := by
  have hsure := steps_sure.announceRemoval (nested_of_settling hn) d removal hr
  obtain ⟨holding, wasStored, isLast⟩ := removal
  cases wasStored with
  | false =>
    obtain ⟨-, rfl⟩ := pure_eq_ok.1 hr
    rcases hs with ⟨⟨_, -, hno⟩, -⟩ | ⟨-, hs⟩
    · cases hno
    · exact hs
  | true =>
    obtain ⟨_, h₁, hunbind, hrest⟩ := bind_eq_ok.1 hr
    rcases hs with ⟨⟨_, rfl, heq⟩, hdue⟩ | ⟨hno, hs⟩
    · cases heq
      have hstill : h.Still d l.tag h₁ := still_lifecycle rfl (hu.of_sure hsure) hunbind
      exact settled_of_due hn hearly rfl hrest (hdue.of_still hstill) hu
    · have hunbound : Hub.Settling c early l h h₁ := settling_lifecycle hn d rfl hunbind
      cases isLast with
      | false =>
        obtain ⟨-, rfl⟩ := pure_eq_ok.1 hrest
        exact hunbound.settled hu hs
      | true =>
        have hd : d ≠ c := fun hd => hno ⟨holding, hd, rfl⟩
        exact (Hub.Law.trans hunbound (settling_unsatisfied hn hd _ hrest)).settled hu hs

theorem settling_appeared (d : Nat) (r : ServiceReference) :
    Keeps (Hub.Settling c early l) (apply nested d .appeared r) := by
  intro h outcome h' hr
  refine ⟨(steps_sure.course (nested_of_settling hn)).appeared d r hr, fun hu hs => ?_⟩
  obtain ⟨result, h₁, hcons, hr⟩ := bind_eq_ok.1 hr
  have hmid := Hub.settled_of_considered (consider_ok hcons) (steps_sure.considered d r hcons) hs
  cases result with
  | error t =>
    obtain ⟨-, rfl⟩ := pure_eq_ok.1 hr
    rcases hmid with ⟨⟨_, -, hno⟩, -⟩ | ⟨-, hs₁⟩
    · cases hno
    · exact hs₁
  | ok admission =>
    obtain ⟨_, h₂, hafter, hr⟩ := bind_eq_ok.1 hr
    obtain ⟨-, rfl⟩ := pure_eq_ok.1 hr
    cases admission with
    | ignored =>
      obtain ⟨-, rfl⟩ := pure_eq_ok.1 hafter
      rcases hmid with ⟨⟨_, -, hno⟩, -⟩ | ⟨-, hs₁⟩
      · cases hno
      · exact hs₁
    | refused serial release =>
      -- a refused entry changes no state, and its release action may give commands
      rcases hmid with ⟨⟨_, -, hno⟩, -⟩ | ⟨-, hs₁⟩
      · cases hno
      · have hrelease : Hub.Settling c early l h₁ h₂ := by
          cases release with
          | none => exact Keeps.pure _ hafter
          | some release =>
            refine Keeps.bind (.collection d) (fun k => ?_) hafter
            refine .bind (.runRelease (fun command _ => hn command) settling_released ..)
              fun finish => ?_
            exact .bind (.settle ..) fun _ => .pure _
        exact hrelease.settled hu hs₁
    | admitted entry first =>
      obtain ⟨_, h₃, hannounce, hafter⟩ := bind_eq_ok.1 hafter
      obtain ⟨-, rfl⟩ := pure_eq_ok.1 hafter
      refine settled_of_announceAdmission hn hearly hannounce hu ?_
      rcases hmid with ⟨⟨_, hd, heq⟩, hdue⟩ | ⟨hno, hs₁⟩
      · cases heq
        exact .inl ⟨⟨hd, rfl⟩, hdue⟩
      · refine .inr ⟨fun hyes => hno ⟨entry, hyes.1, ?_⟩, hs₁⟩
        rw [hyes.2]

theorem settling_removed (d : Nat) (id : UInt64) :
    Keeps (Hub.Settling c early l) (remove nested d id) := by
  intro h outcome h' hr
  refine ⟨steps_sure.remove (nested_of_settling hn) d id hr, fun hu hs => ?_⟩
  obtain ⟨result, h₁, hret, hr⟩ := bind_eq_ok.1 hr
  have hmid := Hub.settled_of_retracted (retract_ok hret) (steps_sure.retracted d id hret) hs
  cases result with
  | none =>
    obtain ⟨-, rfl⟩ := pure_eq_ok.1 hr
    rcases hmid with ⟨⟨_, -, hno⟩, -⟩ | ⟨-, hs₁⟩
    · cases hno
    · exact hs₁
  | some removal =>
    obtain ⟨_, h₂, hannounce, hr⟩ := bind_eq_ok.1 hr
    obtain ⟨_, h₃, hlet, hr⟩ := bind_eq_ok.1 hr
    obtain ⟨-, rfl⟩ := pure_eq_ok.1 hr
    have hgone : Hub.Settling c early l h₂ h₃ :=
      Keeps.letGo (fun _ _ command _ => hn command) settling_released _ hlet
    refine hgone.settled hu ?_
    refine settled_of_announceRemoval hn hearly hannounce (hu.of_sure hgone.sure) ?_
    rcases hmid with ⟨⟨holding, hd, heq⟩, hdue⟩ | ⟨hno, hs₁⟩
    · exact .inl ⟨⟨holding, hd, Option.some.inj heq⟩, hdue⟩
    · exact .inr ⟨fun ⟨holding, hd, heq⟩ => hno ⟨holding, hd, congrArg some heq⟩, hs₁⟩

theorem settling_removeAll (d : Nat) (ids : List UInt64) :
    Keeps (Hub.Settling c early l) (removeAll nested d ids) := by
  induction ids with
  | nil => exact .pure _
  | cons id ids ih =>
    exact .bind (settling_removed hn hearly d id) fun _ => .bind ih fun _ => .pure _

theorem settling_shutdown (d : Nat) : Keeps (Hub.Settling c early l) (shutdown nested d) := by
  intro h count h' hr
  obtain ⟨live, h₁, hclose, hr⟩ := bind_eq_ok.1 hr
  obtain ⟨n, h₂, hremove, hr⟩ := bind_eq_ok.1 hr
  obtain ⟨_, h₃, hclear, hr⟩ := bind_eq_ok.1 hr
  obtain ⟨-, rfl⟩ := pure_eq_ok.1 hr
  have hclosed : Hub.Settling c early l h h₁ := Keeps.close d hclose
  have hremoved : Hub.Settling c early l h₁ h₂ := settling_removeAll hn hearly d live hremove
  have honward (command : Command E) : Keeps Hub.Onward (nested command) :=
    (nested_of_settling hn command).mono Hub.Sure.onward
  have hshut := ((hremoved.sure.onward.collection d).closed (close_ok hclose).2).1
  have hindex := index_of_removeAll honward hclose hremove
  exact Hub.Law.trans hclosed (Hub.Law.trans hremoved (settling_clear hclear hshut hindex))

/-- **Settling.** The operations leave settled what was settled. -/
theorem course_settling : Course nested (Hub.Settling c early l) where
  observed _ _ := settling_call hn (.inr rfl)
  appeared := settling_appeared hn hearly
  removed := settling_removed hn hearly
  shutdown := settling_shutdown hn hearly
  lifecycle d a h u h' hr := by
    obtain ⟨hsame, ht⟩ := addLifecycleListener_same hr
    exact .of_still ⟨steps_sure.lifecycle d a hr, hsame c, Hub.notices_eq (Hub.silent_of_eq ht) _⟩
  state d a h u h' hr := by
    obtain ⟨hsame, ht⟩ := addStateListener_same hr
    exact .of_still ⟨steps_sure.state d a hr, hsame c, Hub.notices_eq (Hub.silent_of_eq ht) _⟩

end Run

end Settling

/-! ## From the first event on -/

/-- **Agreement.** Take a run from plans to a hub in which nothing happened to a mandatory
collection yet, and any run that goes on from there and leaves its lifecycle listeners passive.
A state listener of the first hub that has none but passive ones before it is told in turns that
the dependency came to be met and that it ceased to be, the former first. In the end the last
that it was told is that the dependency is met exactly if it is, unless the collection is closed
and its factory makes entries whose equality is no equivalence. -/
theorem notices_agree {plans : List (Plan E)} {depth depth' : Nat}
    {setup commands : List (Command E)} {answers answers' : List Answer} {h₀ h : Hub E} {c : Nat}
    {early late : List (Attached E)} {l : Attached E}
    (hsetup : (Hub.ofPlans plans).runAll depth setup = .ok (answers, h₀))
    (hr : h₀.runAll depth' commands = .ok (answers', h)) (hu : h₀.Untouched c)
    (hm : (h₀.collection c).dependency.mandatory = true)
    (hplace : (h₀.collection c).stateListeners = early ++ l :: late)
    (hearly : ∀ a ∈ early, a.listener.IsPassive)
    (hlife : ∀ a ∈ (h.collection c).lifecycleListeners, a.listener.IsPassive) :
    (h.notices l.tag).IsChain (· ≠ ·) ∧
    (∀ b ∈ (h.notices l.tag).getLast?, b = true) ∧
    ((h.collection c).closed = false ∨ (h.collection c).factory.EntriesEquivalent →
      ((h.notices l.tag).head? = some true ↔ (h.collection c).isSatisfied = true)) := by
  have hl : l ∈ (h₀.collection c).stateListeners := by
    rw [hplace]
    exact List.mem_append_right _ List.mem_cons_self
  have hstart : h₀.Settled c early l := by
    have hnone : h₀.beliefs l.tag = [false] := by
      rw [Hub.beliefs, Hub.notices, hu.state l hl]
      rfl
    refine ⟨false, ⟨Hub.keyed_runAll hsetup, Hub.coherent_runAll hsetup, hm, ⟨late, hplace⟩,
      ?_, ?_⟩, .inl ?_⟩
    · rw [hnone]
      exact .singleton false
    · rw [hnone]
      rfl
    · rw [Collection.isSatisfied_of_mandatory hm, hu.size]
      rfl
  have hsettling : Hub.Settling c early l h₀ h := by
    refine Run.keeps_runAll (Run.keeps_run (fun nested hn => ?_) depth') hr
    exact Run.course_settling hn hearly
  obtain ⟨b, hi, hb⟩ := hsettling.settled hlife hstart
  have halternate := hi.alternate
  have hlatest := hi.latest
  rw [Hub.beliefs] at halternate hlatest
  obtain ⟨hchain, -, hfirst⟩ := List.isChain_append.1 halternate
  refine ⟨hchain, fun b' hb' => ?_, fun hok => ?_⟩
  · -- the first notice differs from what the listener took the state to be before it
    cases b' with
    | true => rfl
    | false => exact absurd rfl (hfirst false hb' false rfl)
  · have hb : b = (h.collection c).isSatisfied := by
      rcases hb with hb | ⟨hclosed, -, hne⟩
      · exact hb
      · rcases hok with hopen | heq
        · rw [hclosed] at hopen
          cases hopen
        · exact absurd heq hne
    rw [← hb]
    cases hn : h.notices l.tag with
    | nil =>
      rw [hn] at hlatest
      obtain rfl := Option.some.inj hlatest
      simp
    | cons last older =>
      rw [hn] at hlatest
      obtain rfl := Option.some.inj hlatest
      simp

/-! ### Listeners in a row -/

/-- A mandatory dependency with three state listeners. The second takes the first service away
as soon as the dependency is met; the others do nothing. -/
def Plan.row : Plan Entry where
  hasRegistry := true
  factory := some .reference
  filter := some ⟨"", .and []⟩
  stateListeners := [
    .mk "early" .silent fun _ _ => .silent,
    .mk "hasty" .silent fun _ callback =>
      if callback.isSatisfied then .mk [.unregister 1] .done else .silent,
    .mk "late" .silent fun _ _ => .silent]

theorem Plan.untouched_row : (Hub.ofPlans [Plan.row]).Untouched 0 :=
  ⟨rfl, rfl, fun _ _ => Hub.told_ofPlans _ _, fun _ _ => Hub.told_ofPlans _ _⟩

/-- What the three listeners were told when a service came and went, and how things are in the
end. -/
theorem Plan.row_ok : ∃ answers h,
    (Hub.ofPlans [Plan.row]).runAll 3 [.start 0, .register .empty] = .ok (answers, h) ∧
    ((Hub.ofPlans [Plan.row]).collection 0).stateListeners.map (fun l => h.notices l.tag) =
      [[false, true], [false, true], [true, false]] ∧
    (h.collection 0).lifecycleListeners = [] ∧ (h.collection 0).closed = false ∧
    (h.collection 0).isSatisfied = false := by
  obtain ⟨⟨answers, h⟩, hr, hseen⟩ := Run.exists_of_map_eq_ok
    (f := fun p : List Answer × Hub Entry =>
      (((Hub.ofPlans [Plan.row]).collection 0).stateListeners.map (fun l => p.2.notices l.tag),
        (p.2.collection 0).lifecycleListeners.length, (p.2.collection 0).closed,
        (p.2.collection 0).isSatisfied))
    (show ((Hub.ofPlans [Plan.row]).runAll 3 [.start 0, .register .empty]).map _ =
      .ok ([[false, true], [false, true], [true, false]], 0, false, false) by decide +kernel)
  obtain ⟨hnotices, hseen⟩ := Prod.mk.inj hseen
  obtain ⟨hlife, hseen⟩ := Prod.mk.inj hseen
  obtain ⟨hclosed, hstate⟩ := Prod.mk.inj hseen
  exact ⟨answers, h, hr, hnotices, List.length_eq_zero_iff.1 hlife, hclosed, hstate⟩

/-- The second listener has a passive one before it: what it was told last is how things are. -/
theorem notices_agree_hasty : ∃ early l late answers h,
    (Hub.ofPlans [Plan.row]).runAll 0 [] = .ok ([], Hub.ofPlans [Plan.row]) ∧
    (Hub.ofPlans [Plan.row]).runAll 3 [.start 0, .register .empty] = .ok (answers, h) ∧
    (Hub.ofPlans [Plan.row]).Untouched 0 ∧
    ((Hub.ofPlans [Plan.row]).collection 0).dependency.mandatory = true ∧
    ((Hub.ofPlans [Plan.row]).collection 0).stateListeners = early ++ l :: late ∧
    (∀ a ∈ early, a.listener.IsPassive) ∧
    (∀ a ∈ (h.collection 0).lifecycleListeners, a.listener.IsPassive) ∧
    early.length = 1 ∧ h.notices l.tag = [false, true] ∧
    ((h.notices l.tag).head? = some true ↔ (h.collection 0).isSatisfied = true) := by
  obtain ⟨answers, h, hr, hnotices, hlife, hclosed, -⟩ := Plan.row_ok
  have hsetup : (Hub.ofPlans [Plan.row]).runAll 0 [] = .ok ([], Hub.ofPlans [Plan.row]) := rfl
  obtain ⟨early, l, late, hplace, hpassive, hlen, hl⟩ : ∃ early l late,
      ((Hub.ofPlans [Plan.row]).collection 0).stateListeners = early ++ l :: late ∧
      (∀ a ∈ early, a.listener.IsPassive) ∧ early.length = 1 ∧
      h.notices l.tag = [false, true] := by
    refine ⟨[⟨0, 0, _⟩], ⟨1, 0, _⟩, [⟨2, 0, _⟩], rfl, fun a ha => ?_, rfl, ?_⟩
    · obtain rfl := List.mem_singleton.1 ha
      exact fun _ _ => rfl
    · exact List.cons.inj (List.cons.inj hnotices).2 |>.1
  have hnone : ∀ a ∈ (h.collection 0).lifecycleListeners, a.listener.IsPassive := by
    rw [hlife]
    exact fun _ ha => absurd ha List.not_mem_nil
  obtain ⟨-, -, hlast⟩ := notices_agree hsetup hr Plan.untouched_row rfl hplace hpassive hnone
  exact ⟨early, l, late, answers, h, hsetup, hr, Plan.untouched_row, rfl, hplace, hpassive, hnone,
    hlen, hl, hlast (.inl hclosed)⟩

/-- **Crossed notices.** The third listener is told of the loss before it is told of the gain,
and the last that it was told is wrong. -/
theorem notices_crossed : ∃ answers h, ∃ l ∈ ((Hub.ofPlans [Plan.row]).collection 0).stateListeners,
    (Hub.ofPlans [Plan.row]).runAll 3 [.start 0, .register .empty] = .ok (answers, h) ∧
    (Hub.ofPlans [Plan.row]).Untouched 0 ∧
    ((Hub.ofPlans [Plan.row]).collection 0).dependency.mandatory = true ∧
    (h.collection 0).lifecycleListeners = [] ∧
    h.notices l.tag = [true, false] ∧ (h.collection 0).isSatisfied = false := by
  obtain ⟨answers, h, hr, hnotices, hlife, -, hstate⟩ := Plan.row_ok
  have hthird := (List.cons.inj (List.cons.inj (List.cons.inj hnotices).2).2).1
  refine ⟨answers, h, _, ?_, hr, Plan.untouched_row, rfl, hlife, hthird, hstate⟩
  exact List.mem_cons_of_mem _ (List.mem_cons_of_mem _ List.mem_cons_self)

/-! ### Entries that equal nothing -/

/-- A mandatory dependency whose factory makes entries that equal nothing, with a state
listener. -/
def Plan.ghosts : Plan Entry where
  hasRegistry := true
  factory := some ⟨"ghosts", fun _ r => .made (.scripted r true) none⟩
  filter := some ⟨"", .and []⟩
  stateListeners := [.mk "watcher" .silent fun _ _ => .silent]

/-- **Entries that cannot be removed.** The storage of a destroyed collection is cleared of
them, and its state listener still takes the dependency to be met. -/
theorem notices_of_ghost : ∃ answers h,
    (Hub.ofPlans [Plan.ghosts]).runAll 2 [.start 0, .register .empty, .destroy 0] =
      .ok (answers, h) ∧
    ((Hub.ofPlans [Plan.ghosts]).collection 0).stateListeners.map (fun l => h.notices l.tag) =
      [[true]] ∧
    (h.collection 0).closed = true ∧ (h.collection 0).isSatisfied = false := by
  obtain ⟨⟨answers, h⟩, hr, hseen⟩ := Run.exists_of_map_eq_ok
    (f := fun p : List Answer × Hub Entry =>
      (((Hub.ofPlans [Plan.ghosts]).collection 0).stateListeners.map (fun l => p.2.notices l.tag),
        (p.2.collection 0).closed, (p.2.collection 0).isSatisfied))
    (show ((Hub.ofPlans [Plan.ghosts]).runAll 2 [.start 0, .register .empty, .destroy 0]).map _ =
      .ok ([[true]], true, false) by decide +kernel)
  obtain ⟨hnotices, hseen⟩ := Prod.mk.inj hseen
  obtain ⟨hclosed, hstate⟩ := Prod.mk.inj hseen
  exact ⟨answers, h, hr, hnotices, hclosed, hstate⟩

end LiveServices
