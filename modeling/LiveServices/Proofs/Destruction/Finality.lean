import LiveServices.Proofs.Destruction.Spent
import LiveServices.Proofs.Locks.Replay
import LiveServices.Proofs.Releases.Conservation
import LiveServices.Script

/-!
# Destruction is final

After a collection was destroyed it is spent, and it stays so: this is `destroy_final`. What is
then left of its life are refusals. A start finds it closed and fails, a further destruction finds
nothing to take away, and neither calls anyone, so that both reach an answer whenever the locks of
the collection are free (`Run.start_total_of_closed`, `Run.destroy_total_of_spent`).
-/

namespace LiveServices

variable {E : Type}

namespace Hub

/-- A collection is dropped in the second hub if it was in the first. -/
def SameDropped (c : Nat) (h h' : Hub E) : Prop :=
  (h'.collection c).dropped = (h.collection c).dropped

instance (c : Nat) : Rule (SameDropped (E := E) c) :=
  ⟨fun hb => (hb.standing c).dropped, fun h₁₂ h₂₃ => h₂₃.trans h₁₂⟩

/-- The hub in which one more command is at work on a collection. -/
def engaged (h : Hub E) (c : Nat) : Hub E := h.update c fun k => { k with users := k.users + 1 }

/-- That a command is at work on a collection is a step beside. -/
theorem beside_engaged (h : Hub E) (c : Nat) : h.Beside (h.engaged c) :=
  .update c (fun _ => ⟨rfl, rfl, rfl, rfl, rfl, rfl, rfl, id⟩) fun _ => ⟨rfl, rfl, rfl⟩

theorem locks_engaged (h : Hub E) (c d : Nat) :
    ((h.engaged c).collection d).locks = (h.collection d).locks := by
  rw [engaged, collection_update]
  split <;> rfl

theorem sameDropped_update {c d : Nat} {h : Hub E} {f : Collection E → Collection E}
    (hf : ∀ k, (f k).dropped = k.dropped) : h.SameDropped c (h.update d f) := by
  rw [SameDropped, collection_update]
  split
  · exact hf _
  · rfl

end Hub

namespace Run

open Hub

variable [ServiceEntry E] {nested : Nested E} {c n : Nat} {h h' : Hub E}

/-! ## Refusals -/

/-- A collection that is closed is refused a subscription. -/
theorem begin_of_closed {a : Except Trouble Unit} (hk : (h.collection c).closed = true)
    (hr : (begin nested c).run h = .ok (a, h')) :
    (∃ reason, a = .error (.failed (.illegalState reason))) ∧ h.Beside h' := by
  unfold begin at hr
  rw [act_bind (a := h.collection c) (g := h) rfl] at hr
  cases hsub : (h.collection c).subscription with
  | some id =>
    rw [hsub] at hr
    cases hr
    exact ⟨⟨_, rfl⟩, .refl _⟩
  | none =>
    rw [hsub] at hr
    have hr : (_ >>= fun _ => _ : Act E Unit).run h = .ok (a, h') := hr
    obtain ⟨asked, h₁, hasked, hrest⟩ := act_bind_ok hr
    obtain ⟨closed, hclosed, hask⟩ := act_lift_ok hasked
    have hrest := hrest closed hask
    have hbeside : h.Beside h₁ := Keeps.isClosed c hclosed
    obtain ⟨-, hseen, -⟩ := locked_pure_eq_ok.1 hclosed
    obtain rfl : closed = true := by
      rw [← hseen, collection_update]
      split <;> exact hk
    cases hrest
    exact ⟨⟨_, rfl⟩, hbeside⟩

/-- So it is not started. -/
theorem start_of_closed {a : Except Trouble Unit} (hk : (h.collection c).closed = true)
    (hr : (start nested c).run h = .ok (a, h')) :
    (∃ reason, a = .error (.failed (.illegalState reason))) ∧ h.SameDropped c h' := by
  obtain ⟨begun, h₁, hbegun, hrest⟩ := bind_eq_ok.1 hr
  obtain ⟨-, h₂, hbegin, rfl⟩ := locked_eq_ok.1 hbegun
  have hk₁ : ((h.taking c .subscription).collection c).closed = true := by
    rw [taking, collection_update]
    split <;> exact hk
  obtain ⟨⟨reason, rfl⟩, hbeside⟩ := begin_of_closed hk₁ hbegin
  obtain ⟨rfl, rfl⟩ := pure_eq_ok.1 hrest
  have htaken : h.SameDropped c (h.taking c .subscription) := sameDropped_update fun _ => rfl
  have hgiven : h₂.SameDropped c (h₂.giving c .subscription) := sameDropped_update fun _ => rfl
  exact ⟨⟨reason, rfl⟩, Rule.trans htaken (Rule.trans (Rule.beside hbeside) hgiven)⟩

omit [ServiceEntry E] in
theorem keeps_sameDropped_update {d : Nat} {f : Collection E → Collection E}
    (hf : ∀ k, (f k).dropped = k.dropped) : Keeps (SameDropped c) (update d f) := by
  rintro h _ h' ⟨⟩
  exact sameDropped_update hf

omit [ServiceEntry E] in
theorem sameDropped_endSubscription : Keeps (SameDropped c) (endSubscription (E := E) c) := by
  refine .locked c _ (.bind (.collection c) fun k => ?_)
  split
  · exact .pure _
  · refine .bind (keeps_sameDropped_update fun _ => rfl) fun _ => .bind ?_ fun _ => .pure _
    rintro h _ h' ⟨⟩
    rfl

omit [ServiceEntry E] in
theorem sameDropped_close : Keeps (SameDropped c) (close (E := E) c) :=
  .locked c _ (.bind (keeps_sameDropped_update fun _ => rfl) fun _ => .bind (.collection c)
    fun _ => .pure _)

omit [ServiceEntry E] in
theorem sameDropped_clear : Keeps (SameDropped c) (clear (E := E) c) :=
  .locked c _ (.bind (keeps_sameDropped_update fun _ => rfl) fun _ =>
    .locked c _ (keeps_sameDropped_update fun _ => rfl))

/-- The destruction of a spent collection takes nothing away. -/
theorem destroy_of_spent (hk : (h.collection c).Spent) (hr : destroy nested c h = .ok (n, h')) :
    n = 0 ∧ h.SameDropped c h' := by
  obtain ⟨_, h₁, hend, hr⟩ := bind_eq_ok.1 hr
  obtain ⟨live, h₂, hclose, hr⟩ := bind_eq_ok.1 hr
  have hk₁ : h₁.StaysSpent c h₂ := Keeps.close (S := Idles c) c hclose
    (Keeps.endSubscription (S := Idles c) c hend hk).now
  obtain rfl : live = [] := by
    rw [(close_ok hclose).1, Collection.identities, hk₁.now.index, List.map_nil]
  obtain ⟨_, h₃, hnone, hr⟩ := bind_eq_ok.1 hr
  obtain ⟨rfl, rfl⟩ := pure_eq_ok.1 hnone
  obtain ⟨_, h₄, hclear, hr⟩ := bind_eq_ok.1 hr
  obtain ⟨rfl, rfl⟩ := pure_eq_ok.1 hr
  exact ⟨rfl, Rule.trans (sameDropped_endSubscription hend)
    (Rule.trans (sameDropped_close hclose) (sameDropped_clear hclear))⟩

/-! ## Refusals come to an end -/

omit [ServiceEntry E] in
theorem free_of_idle (hl : (h.collection c).locks = []) (lock : Lock) :
    lock ∉ (h.collection c).locks := by
  rw [hl]
  exact List.not_mem_nil

/-- A closed collection whose locks are free refuses a start. -/
theorem start_total_of_closed (hl : (h.collection c).locks = [])
    (hk : (h.collection c).closed = true) : Total (start nested c).run h := by
  have hbegun : (h.taking c .subscription).Begun c := by
    rw [Begun, taking, collection_update]
    split <;> exact .inr hk
  obtain ⟨t, h₁, hbegin⟩ : ∃ t h₁, (begin nested c).run (h.taking c .subscription) =
      .ok (.error t, h₁) :=
    begin_refuses (free_of_update (free_of_idle hl .index) (by decide)) hbegun
  -- what was refused is not asked whether it has what it needs
  refine .bind (.locked (free_of_idle hl _) ⟨_, h₁, hbegin⟩) fun begun h₂ hr => ?_
  obtain ⟨-, h₃, hagain, -⟩ := locked_eq_ok.1 hr
  obtain ⟨rfl, -⟩ := Prod.mk.inj (Except.ok.inj (hbegin.symm.trans hagain))
  exact .pure _

/-- A spent collection whose locks are free can be destroyed again. -/
theorem destroy_total_of_spent (hu : h.Unheld) (hl : (h.collection c).locks = [])
    (hk : (h.collection c).Spent) : Total (destroy nested c) h := by
  obtain ⟨live, h₂, hclosed⟩ := closed_total hu (free_of_idle hl .subscription)
  obtain ⟨_, h₁, hend, hclose⟩ := bind_eq_ok.1 hclosed
  have hk₁ : h₁.StaysSpent c h₂ := Keeps.close (S := Idles c) c hclose
    (Keeps.endSubscription (S := Idles c) c hend hk).now
  obtain rfl : live = [] := by
    rw [(close_ok hclose).1, Collection.identities, hk₁.now.index, List.map_nil]
  have hl₂ : (h₂.collection c).locks = [] := by
    rw [(discreet_close hclose).locks, (discreet_endSubscription hend).locks, hl]
  have hcleared : Total (clear c) h₂ := clear_total (free_of_idle hl₂ _) (free_of_idle hl₂ _)
  refine .bind ⟨_, _, hend⟩ fun _ h₃ hr => ?_
  cases hend.symm.trans hr
  refine .bind ⟨_, _, hclose⟩ fun live h₃ hr => ?_
  cases hclose.symm.trans hr
  exact .bind (.pure 0) fun count h₃ hr => (pure_eq_ok.1 hr).2 ▸ .bind hcleared fun _ _ _ => .pure _

/-! ## Commands to a spent collection -/

theorem onWork_answer {body : Run E Answer} {answer : Answer}
    (hd : (h.collection c).dropped = false) (hr : onWork nested c body h = .ok (answer, h')) :
    ∃ h₁, body (h.engaged c) = .ok (answer, h₁) := by
  rw [onWork, onCollection, collection_bind, hd] at hr
  obtain ⟨_, h₀, hused, hr⟩ := bind_eq_ok.1 hr
  cases hused
  obtain ⟨a, h₁, hbody, hr⟩ := bind_eq_ok.1 hr
  obtain ⟨_, h₂, -, hr⟩ := bind_eq_ok.1 hr
  obtain ⟨_, h₃, -, hr⟩ := bind_eq_ok.1 hr
  obtain ⟨rfl, -⟩ := pure_eq_ok.1 hr
  exact ⟨h₁, hbody⟩

theorem onWork_total {body : Run E Answer} (hb : Total body (h.engaged c))
    (hs : ∀ answer h₁, body (h.engaged c) = .ok (answer, h₁) → (h.engaged c).SameDropped c h₁) :
    Total (onWork nested c body) h := by
  refine .collection ?_
  split
  · exact .pure _
  · next hd =>
    obtain ⟨answer, h₁, hbody⟩ := hb
    have hused : h.SameDropped c (h.engaged c) := sameDropped_update fun _ => rfl
    have hsame : h.SameDropped c h₁ := Rule.trans hused (hs answer h₁ hbody)
    exact ⟨_, _, workOn_ok _ hbody (hsame.trans (Bool.eq_false_iff.2 hd))⟩

end Run

namespace Hub

variable [ServiceEntry E] {c depth : Nat} {h h' : Hub E} {answer : Answer}

/-- What was answered to a command was answered to the work that it is. -/
theorem run_answer {command : Command E} (hr : h.run depth command = .ok (answer, h')) :
    ∃ deep h₁, Run.execute (Run.run deep) command h = .ok (answer, h₁) := by
  cases depth with
  | zero => cases hr
  | succ depth =>
    obtain ⟨_, h₁, hexecute, hr⟩ := Run.bind_eq_ok.1 hr
    cases hr
    exact ⟨depth, h₁, hexecute⟩

/-- A collection that is spent is not started. -/
theorem start_refused (hk : (h.collection c).Spent) (hd : (h.collection c).dropped = false)
    (hr : h.run depth (.start c) = .ok (answer, h')) :
    ∃ reason, answer = .failed (.illegalState reason) := by
  obtain ⟨deep, h₁, hwork⟩ := run_answer hr
  obtain ⟨h₂, hbody⟩ := Run.onWork_answer hd hwork
  obtain ⟨ending, h₃, hstart, hanswer⟩ := Run.bind_eq_ok.1 hbody
  have hk₁ := hk.of_sameStock ((beside_engaged h c).aside.stock c)
  obtain ⟨⟨reason, rfl⟩, -⟩ := Run.start_of_closed hk₁.closed hstart
  obtain ⟨rfl, -⟩ := Run.pure_eq_ok.1 hanswer
  exact ⟨reason, rfl⟩

/-- A collection that is spent loses nothing when it is destroyed again. -/
theorem destroy_again (hk : (h.collection c).Spent) (hd : (h.collection c).dropped = false)
    (hr : h.run depth (.destroy c) = .ok (answer, h')) : answer = .count 0 := by
  obtain ⟨deep, h₁, hwork⟩ := run_answer hr
  obtain ⟨h₂, hbody⟩ := Run.onWork_answer hd hwork
  obtain ⟨count, h₃, hdestroy, hanswer⟩ := Run.bind_eq_ok.1 hbody
  have hk₁ := hk.of_sameStock ((beside_engaged h c).aside.stock c)
  obtain ⟨rfl, -⟩ := Run.destroy_of_spent hk₁ hdestroy
  obtain ⟨rfl, -⟩ := Run.pure_eq_ok.1 hanswer
  rfl

/-- Either command is answered if the locks of the collection are free. -/
theorem refusals_total (hu : h.Unheld) (hl : (h.collection c).locks = [])
    (hk : (h.collection c).Spent) (depth : Nat) :
    (∃ answer g, h.run (depth + 1) (.start c) = .ok (answer, g)) ∧
    ∃ answer g, h.run (depth + 1) (.destroy c) = .ok (answer, g) := by
  have hk₁ := hk.of_sameStock ((beside_engaged h c).aside.stock c)
  have hl₁ : ((h.engaged c).collection c).locks = [] := by rw [locks_engaged, hl]
  have hu₁ : (h.engaged c).Unheld := fun d => by
    rw [locks_engaged]
    exact hu d
  have hstart : Run.Total (Run.start (Run.run depth) c).run (h.engaged c) :=
    Run.start_total_of_closed hl₁ hk₁.closed
  have hdestroy : Run.Total (Run.destroy (Run.run depth) c) (h.engaged c) :=
    Run.destroy_total_of_spent hu₁ hl₁ hk₁
  constructor
  · obtain ⟨answer, g, hr⟩ : Run.Total (Run.execute (Run.run depth) (.start c)) h := by
      refine Run.onWork_total (.bind hstart fun ending h₁ _ => ?_) fun answer h₁ hr => ?_
      · split <;> exact .pure _
      · obtain ⟨ending, hending⟩ := Run.run_of_answered hr
        exact (Run.start_of_closed hk₁.closed hending).2
    exact ⟨answer, _, run_ok hr⟩
  · obtain ⟨answer, g, hr⟩ : Run.Total (Run.execute (Run.run depth) (.destroy c)) h := by
      refine Run.onWork_total (.bind hdestroy fun count h₁ _ => .pure _) fun answer h₁ hr => ?_
      obtain ⟨count, h₂, hcount, hr⟩ := Run.bind_eq_ok.1 hr
      obtain ⟨-, rfl⟩ := Run.pure_eq_ok.1 hr
      exact (Run.destroy_of_spent hk₁ hcount).2
    exact ⟨answer, _, run_ok hr⟩

end Hub

/-! ## After a destruction -/

namespace Run

open Hub

variable [ServiceEntry E] {nested : Nested E} {c n : Nat} {h h' : Hub E}

/-- What was shut down is spent. -/
theorem spent_of_shutdown (hn : ∀ command, Keeps Onward (nested command))
    (hr : shutdown nested c h = .ok (n, h')) : (h'.collection c).Spent := by
  obtain ⟨hclosed, hindex⟩ := shutdown_ok hn hr
  obtain ⟨live, h₁, -, hr⟩ := bind_eq_ok.1 hr
  obtain ⟨count, h₂, -, hr⟩ := bind_eq_ok.1 hr
  obtain ⟨_, h₃, hclear, hr⟩ := bind_eq_ok.1 hr
  obtain ⟨-, rfl⟩ := pure_eq_ok.1 hr
  obtain ⟨recent, -, rfl⟩ := clear_ok hclear
  refine ⟨hclosed, hindex, ?_⟩
  rw [collection_setTo]
  split
  · rfl
  · next hc =>
    -- where there is no collection there is no entry either
    rw [collection_of_length_le (Nat.le_of_not_lt fun hlt => hc ⟨rfl, hlt⟩)]
    rfl

/-- A command that destroyed a collection leaves it spent. -/
theorem spent_of_destroy {depth : Nat} (hkeyed : h.Keyed)
    (hr : h.run depth (.destroy c) = .ok (.count n, h')) : (h'.collection c).Spent := by
  cases depth with
  | zero => cases hr
  | succ depth =>
    have hcourse := rests_course (c := c) (rests_run (E := E) depth)
    obtain ⟨answer, h₁, hwork, hr⟩ := bind_eq_ok.1 hr
    obtain ⟨rfl, rfl⟩ : answer = .count n ∧ h₁.record (.ended h₁.census) = h' := by
      cases hr
      exact ⟨rfl, rfl⟩
    rw [execute, onWork, onCollection, collection_bind] at hwork
    split at hwork
    · cases (pure_eq_ok.1 hwork).1
    · rw [workOn, update_bind] at hwork
      obtain ⟨_, h₂, hbody, hrest⟩ := bind_eq_ok.1 hwork
      obtain ⟨count, h₃, hdestroy, hbody⟩ := bind_eq_ok.1 hbody
      obtain ⟨-, rfl⟩ := pure_eq_ok.1 hbody
      have hbefore : h.Rests c h₃ := Law.trans (Law.aside (beside_engaged h c).aside)
        (hcourse.built (.destroyed c) hdestroy)
      -- what is done after the work finds the collection spent
      have hlater : h₃.Rests c h₁ := by
        refine Keeps.bind (.update c ?_) (fun _ => ?_) hrest
        · exact fun k => ⟨rfl, rfl, rfl, rfl, rfl, rfl, rfl, id⟩
        · exact .bind (hcourse.built (.dispose c)) fun _ => .pure _
      obtain ⟨_, h₄, -, hshutdown⟩ := bind_eq_ok.1 hdestroy
      have hspent := spent_of_shutdown (onward_run depth) hshutdown
      exact (hlater.2 (hbefore.1 hkeyed) hspent).now

end Run

/-- **Destruction.** Take any run from plans, with any factories and any listeners, and in it a
command that destroys a collection, whether that was started or not. Then nothing is in its index
and its storage, and this stays so in every state in which it is afterwards, whatever commands
follow; and none of them has a lifecycle or state listener of the collection called, an entry made
by its factory, or a release action run. Wherever the collection is in such a state, a start fails
and a further destruction takes nothing away, also when a listener gives these commands; and after
each of the commands that follow both of them come to an end. -/
theorem destroy_final [ServiceEntry E] {plans : List (Plan E)} {d₁ d₂ d₃ : Nat}
    {before after : List (Command E)} {answers answers' : List Answer} {c n : Nat}
    {h₀ h h' : Hub E} (hbefore : (Hub.ofPlans plans).runAll d₁ before = .ok (answers, h₀))
    (hdestroy : h₀.run d₂ (.destroy c) = .ok (.count n, h))
    (hafter : h.runAll d₃ after = .ok (answers', h')) :
    (h.collection c).Spent ∧ h.StaysSpent c h' ∧
    (∀ (g g' : Hub E) depth answer, (g.collection c).Spent → (g.collection c).dropped = false →
      (g.run depth (.start c) = .ok (answer, g') →
        ∃ reason, answer = .failed (.illegalState reason)) ∧
      (g.run depth (.destroy c) = .ok (answer, g') → answer = .count 0)) ∧
    ∀ depth, (∃ answer g, h'.run (depth + 1) (.start c) = .ok (answer, g)) ∧
      ∃ answer g, h'.run (depth + 1) (.destroy c) = .ok (answer, g) := by
  have hkeyed₀ := Hub.keyed_runAll hbefore
  have hkeyed := (Run.rests_run (c := c) d₂ _ hdestroy).1 hkeyed₀
  have hspent := Run.spent_of_destroy hkeyed₀ hdestroy
  have hstays := (Run.keeps_runAll (Run.rests_run (c := c) d₃) hafter).2 hkeyed hspent
  have hpassed {depth : Nat} {commands : List (Command E)} {answers : List Answer} {g g' : Hub E}
      (hu : g.Unheld) (hr : g.runAll depth commands = .ok (answers, g')) : g.Passed c g' := by
    have hend := Run.ends_runAll (Run.ends_free (c := c) depth) commands g
    rw [hr] at hend
    exact hend hu
  have hp₀ := hpassed (fun d => .inl (Hub.idle_ofPlans plans d)) hbefore
  have hp : h₀.Passed c h := by
    have hend := Run.ends_free (c := c) d₂ (.destroy c) h₀
    rw [show Run.run d₂ (.destroy c) h₀ = _ from hdestroy] at hend
    exact hend hp₀.unheld
  have hp' := hpassed hp.unheld hafter
  have hidle : (h'.collection c).locks = [] := by
    rw [hp'.locks, hp.locks, hp₀.locks, Hub.idle_ofPlans]
  exact ⟨hspent, hstays,
    fun g g' depth answer hk hd => ⟨Hub.start_refused hk hd, Hub.destroy_again hk hd⟩,
    Hub.refusals_total hp'.unheld hidle hstays.now⟩

/-! ### A collection that is destroyed while it is being destroyed -/

/-- A mandatory dependency with a factory whose entry for the first service is not equal to itself,
so that it is not found when it is to be taken away. The listener answers the end of a service with
another destruction, another service, and another start. -/
def Plan.haunted : Plan Entry where
  hasRegistry := true
  factory := some { ghosts := [1] : FactoryScript }.toFactory
  filter := some ⟨"", .and []⟩
  lifecycleListeners := [.mk "reviver" .silent fun _ callback =>
    match callback with
    | .unbind _ _ => .mk [.destroy 0, .register .empty, .start 0] (.panic none)
    | _ => .silent]

/-- The failure that an answer is. -/
def Answer.failure? : Answer → Option Failure
  | .failed failure => some failure
  | _ => none

theorem Answer.eq_failed_of_failure {answer : Answer} {failure : Failure}
    (hf : answer.failure? = some failure) : answer = .failed failure := by
  cases answer with
  | failed => exact congrArg Answer.failed (Option.some.inj hf)
  | _ => cases hf

/-- Of the two services that were in the collection, one entry is found and counted. The listener
that is told of it cannot revive the collection, and neither can a service that is registered
later, an event that is handed to the importer, or a start. -/
theorem destroy_final_haunted : ∃ answers answers' h₀ h h',
    (Hub.ofPlans [Plan.haunted]).runAll 4 [.register .empty, .register .empty, .start 0] =
      .ok (answers, h₀) ∧
    ((h₀.collection 0).identities = [1, 2]) ∧
    h₀.run 4 (.destroy 0) = .ok (.count 1, h) ∧
    h.runAll 4 [.register .empty, .serviceChanged 0 (.registered (.new 7 .empty)), .start 0] =
      .ok (answers', h') ∧
    (h.collection 0).Spent ∧ h.StaysSpent 0 h' ∧
    answers'[2]? = some (.failed (.illegalState "collection already destroyed")) := by
  let before : List (Command Entry) := [.register .empty, .register .empty, .start 0]
  let after : List (Command Entry) :=
    [.register .empty, .serviceChanged 0 (.registered (.new 7 .empty)), .start 0]
  obtain ⟨⟨answers, h₀⟩, hbefore, hseen⟩ := Run.exists_of_map_eq_ok
    (f := fun p : List Answer × Hub Entry => ((p.2.collection 0).identities,
      (p.2.run 4 (.destroy 0)).map fun q => (q.1.count?,
        (q.2.runAll 4 after).map fun r => r.1[2]?.bind Answer.failure?)))
    (show ((Hub.ofPlans [Plan.haunted]).runAll 4 before).map _ = .ok ([1, 2],
      .ok (some 1, .ok (some (.illegalState "collection already destroyed")))) by decide +kernel)
  obtain ⟨hids, hseen⟩ := Prod.mk.inj hseen
  obtain ⟨⟨answer, h⟩, hdestroy, hseen⟩ := Run.exists_of_map_eq_ok hseen
  obtain ⟨hcount, hseen⟩ := Prod.mk.inj hseen
  obtain ⟨⟨answers', h'⟩, hafter, hfailed⟩ := Run.exists_of_map_eq_ok hseen
  have hanswer : answer = .count 1 := Answer.eq_count hcount
  subst hanswer
  obtain ⟨last, hlast, hfailure⟩ := Option.bind_eq_some_iff.1 hfailed
  obtain ⟨hspent, hstays, -, -⟩ := destroy_final hbefore hdestroy hafter
  exact ⟨answers, answers', h₀, h, h', hbefore, hids, hdestroy, hafter, hspent, hstays,
    by rw [hlast, Answer.eq_failed_of_failure hfailure]⟩

end LiveServices
