import LiveServices.Proofs.Calm.Removals
import LiveServices.Proofs.Locks.Calls
import LiveServices.Proofs.Releases.Serials

/-!
# Calls in a replay

The lock of the subscription is taken where a collection is subscribed, and it is given back when
the services that are there already were reported. Nothing else is called under a lock: along a
run from plans, the calls that found a lock of their collection taken are those of its replay, and
it was that of the subscription (`calls_outside_locks`).

So a listener may give any command while it is called, and the run goes on, but for one kind:
during a replay, a command that asks for the subscription waits for ever (`Run.run_waits`).
-/

namespace LiveServices

variable {E : Type} [ServiceEntry E]

/-! ## Taking and giving back -/

namespace Hub

omit [ServiceEntry E]

variable {c d : Nat} {lock : Lock} {h h₁ : Hub E}

/-- Whether a collection was subscribed or closed does not depend on its locks. -/
theorem begun_taking : (h.taking d lock).Begun c ↔ h.Begun c := by
  rw [Begun, taking, collection_update]
  split <;> rfl

theorem begun_giving : (h.giving d lock).Begun c ↔ h.Begun c := by
  rw [Begun, giving, collection_update]
  split <;> rfl

/-- A collection that is not there counts as closed. -/
theorem lt_length_of_not_begun (hn : ¬ h.Begun c) : c < h.collections.length :=
  lt_length_of_open (Bool.eq_false_iff.2 fun hclosed => hn (.inr hclosed))

/-- Where the lock of the subscription is free, all are. -/
theorem Unheld.free (hu : h.Unheld) (hl : .subscription ∉ (h.collection d).locks) :
    (h.collection d).locks = [] := by
  rcases hu d with hnone | hone
  · exact hnone
  · rw [hone] at hl
    exact absurd List.mem_cons_self hl

theorem unheld_taking (hu : h.Unheld) (hfree : (h.collection d).locks = []) :
    (h.taking d .subscription).Unheld := by
  intro e
  rw [taking, collection_update]
  split
  · next he =>
    obtain ⟨rfl, -⟩ := he
    exact .inr (by rw [hfree])
  · exact hu e

theorem unheld_giving (hu : h.Unheld) : (h.giving d .subscription).Unheld := by
  intro e
  rw [giving, collection_update]
  split
  · rcases hu e with hnone | hone
    · exact .inl (by rw [hnone]; rfl)
    · exact .inl (by rw [hone]; rfl)
  · exact hu e

end Hub

namespace Run

open Hub

variable {α β : Type} {c d : Nat} {h h₁ h' : Hub E} {nested : Nested E}

/-! ## Acts without trouble -/

/-- An act that ends with its result, unless the run halts. -/
def Untroubled (x : Act E α) : Prop := ∀ h h' a, x.run h = .ok (a, h') → ∃ b, a = .ok b

namespace Untroubled

omit [ServiceEntry E]

theorem pure (b : α) : Untroubled (Pure.pure b : Act E α) := fun _ _ _ hr =>
  ⟨b, (pure_eq_ok.1 hr).1.symm⟩

theorem lift (x : Run E α) : Untroubled (liftM x : Act E α) := fun _ _ _ hr =>
  (act_lift_ok hr).imp fun _ hb => hb.2

theorem bind {x : Act E α} {f : α → Act E β} (hx : Untroubled x) (hf : ∀ a, Untroubled (f a)) :
    Untroubled (x >>= f) := by
  intro h h' a hr
  obtain ⟨first, h₁, hfirst, hrest⟩ := act_bind_ok hr
  obtain ⟨b, rfl⟩ := hx h h₁ first hfirst
  exact hf b h₁ h' a (hrest b rfl)

theorem forM {γ : Type} {f : γ → Act E PUnit} :
    ∀ (l : List γ), (∀ a ∈ l, Untroubled (f a)) → Untroubled (l.forM f)
  | [], _ => .pure _
  | a :: l, hf =>
    .bind (hf a List.mem_cons_self) fun _ => forM l fun b hb => hf b (List.mem_cons_of_mem _ hb)

end Untroubled

/-- The importer of a collection keeps its trouble to itself. -/
theorem untroubled_deliver {s : Subscription E} (hs : s.target = .importer c)
    (event : ServiceEvent) : Untroubled (deliver nested s event) := by
  unfold deliver
  rw [hs]
  exact .bind (.lift _) fun _ => .bind (.lift _) fun _ => .lift _

/-- So a collection that is told what is there already is subscribed. -/
theorem subscribe_ok {filter : ServiceFilter} {a : Except Trouble UInt64}
    (hr : (subscribe nested filter (.importer c)).run h = .ok (a, h')) : ∃ id, a = .ok id := by
  let s : Subscription E := ⟨h.registry.nextSubscription, filter, .importer c⟩
  let h₁ : Hub E := { h with registry := (h.registry.subscribe filter (.importer c)).2 }
  unfold subscribe at hr
  rw [act_bind (a := s) (g := h₁) rfl, act_bind (a := h₁) (g := h₁) rfl] at hr
  refine Untroubled.bind (.forM _ fun r _ => ?_) (fun _ => .pure _) _ _ _ hr
  exact untroubled_deliver rfl _

/-! ## The begin of a subscription -/

/-- A collection is refused a subscription, and nobody heard of it; or it was neither subscribed
nor closed before, and it is subscribed now. -/
theorem begin_ok {a : Except Trouble Unit} (hr : (begin nested d).run h = .ok (a, h')) :
    (h'.trace = h.trace ∧ ∃ t, a = .error t) ∨ (¬ h.Begun d ∧ a = .ok () ∧
      ∃ (id : UInt64) (g : Hub E), h' = g.update d fun k => { k with subscription := id }) := by
  unfold begin at hr
  rw [act_bind (a := h.collection d) (g := h) rfl] at hr
  cases hnone : (h.collection d).subscription with
  | some s =>
    rw [hnone] at hr
    cases hr
    exact .inl ⟨rfl, _, rfl⟩
  | none =>
    rw [hnone] at hr
    have hr : (_ >>= fun _ => _ : Act E Unit).run h = .ok (a, h') := hr
    obtain ⟨asked, h₁, hasked, hrest⟩ := act_bind_ok hr
    obtain ⟨closed, hclosed, hask⟩ := act_lift_ok hasked
    have hrest := hrest closed hask
    obtain ⟨-, hseen, rfl⟩ := locked_pure_eq_ok.1 hclosed
    have hseen : (h.collection d).closed = closed := by
      rw [← hseen, collection_update]
      split <;> rfl
    cases closed with
    | true =>
      cases hrest
      exact .inl ⟨rfl, _, rfl⟩
    | false =>
      refine .inr ⟨?_, ?_⟩
      · simp [Begun, hnone, hseen]
      · obtain ⟨told, h₂, hsubscribe, hrest⟩ := act_bind_ok hrest
        obtain ⟨id, rfl⟩ := subscribe_ok hsubscribe
        cases hrest id rfl
        exact ⟨rfl, id, h₂, rfl⟩

/-- A collection that was subscribed or closed is refused a subscription. -/
theorem begin_refuses (hl : .index ∉ (h.collection d).locks) (hb : h.Begun d) :
    ∃ t h', (begin nested d).run h = .ok (.error t, h') := by
  unfold begin
  rw [act_bind (a := h.collection d) (g := h) rfl]
  cases hs : (h.collection d).subscription with
  | some s => exact ⟨_, h, rfl⟩
  | none =>
    have hclosed : (h.collection d).closed = true := by
      rcases hb with hsome | hclosed
      · rw [hs] at hsome
        cases hsome
      · exact hclosed
    obtain ⟨h₁, hask⟩ : ∃ h₁, isClosed d h = .ok (true, h₁) := ⟨_, locked_pure_eq_ok.2 ⟨hl, by
      rw [collection_update]
      split <;> exact hclosed, rfl⟩⟩
    refine ⟨.failed (.illegalState "collection already destroyed"), h₁, ?_⟩
    show (_ >>= fun _ => _ : Act E Unit).run h = _
    rw [act_bind (act_lift hask)]
    rfl

/-! ### Under the lock -/

/-- A collection is subscribed, under the lock of its subscription. -/
theorem ends_begin {depth : Nat} (w : Deliveries (E := E) (run depth) (Frees c)) (d : Nat) :
    Ends (Frees c) (begin (E := E) (run depth) d).run := by
  refine .begin w fun id h hu => Steady.passed ?_ hu
  refine ⟨length_collections_update, fun e => ?_, fun e hb => ?_, [], rfl, by simp⟩
  · rw [collection_update]
    split <;> rfl
  · rw [Begun, collection_update]
    split
    · exact .inl rfl
    · exact hb

/-- The stretch of a run between the taking of the lock of a subscription and the giving back. -/
theorem stretch_begun {depth : Nat} {a : Except Trouble Unit}
    (hfree : (h.collection d).locks = [])
    (hr : (begin (run depth) d).run (h.taking d .subscription) = .ok (a, h₁))
    (hp : Passed c (h.taking d .subscription) h₁) :
    Stretch c h (h₁.giving d .subscription) := by
  rcases begin_ok hr with ⟨ht, -⟩ | ⟨hnot, rfl, id, g, hg⟩
  · exact .steady [] ht .nil
  · rw [begun_taking] at hnot
    have hstretch := hp.stretch
    by_cases hcd : c = d
    · subst hcd
      have hc := lt_length_of_not_begun hnot
      have htaken : ((h.taking c .subscription).collection c).locks = [.subscription] := by
        rw [taking, collection_update_self hc, hfree]
      cases hstretch with
      | steady replay ht hf =>
        -- all of the stretch is the replay
        rw [htaken] at hf
        have hlength := hp.length.trans length_taking
        rw [← hlength, hg, length_collections_update] at hc
        have hbegun : h₁.Begun c := .inl (by rw [hg, collection_update_self hc]; rfl)
        exact .begins [] replay [] hfree hnot (begun_giving.2 hbegun) ht .nil hf .nil
          ⟨depth, _, _, hr, rfl, ht⟩
      | begins _ _ _ hno =>
        rw [htaken] at hno
        cases hno
    · have hsame : (h.taking d .subscription).collection c = h.collection c :=
        collection_update_of_ne (Ne.symm hcd)
      cases hstretch with
      | steady recent ht hf =>
        rw [hsame] at hf
        exact .steady recent ht hf
      | begins early replay late hfree hn hb ht he hreplay hlate hreplays =>
        rw [hsame] at hfree
        exact .begins early replay late hfree (fun hbegun => hn (begun_taking.2 hbegun))
          (begun_giving.2 hb) ht he hreplay hlate hreplays

/-- A collection is subscribed. -/
theorem ends_begun {depth : Nat} (w : Deliveries (E := E) (run depth) (Frees c)) (d : Nat) :
    Ends (Frees (E := E) c) (locked d .subscription (begin (run depth) d).run) := by
  intro h
  by_cases hl : .subscription ∈ (h.collection d).locks
  · rw [locked_of_held hl]
    exact Hub.Regime.stuck hl
  · have hend := ends_begin w d (h.taking d .subscription)
    rw [locked_of_free hl]
    change Frees c h ((((begin (run depth) d).run (h.taking d .subscription)).map _).map _)
    cases hr : (begin (run depth) d).run (h.taking d .subscription) with
    | error halt =>
      rw [hr] at hend
      cases halt with
      | deadlock lock =>
        intro hu
        refine ⟨(hend (unheld_taking hu (hu.free hl))).1, d, .inr fun hb => ?_⟩
        -- a collection that is refused a subscription makes nobody wait
        obtain ⟨t, h₁, hok⟩ : ∃ t h₁, (begin (run depth) d).run (h.taking d .subscription) =
            .ok (.error t, h₁) := begin_refuses
          (free_of_unheld (unheld_taking hu (hu.free hl)) (by decide)) (begun_taking.2 hb)
        rw [hr] at hok
        cases hok
      | tooDeep => trivial
    | ok p =>
      rw [hr] at hend
      intro hu
      have hp := hend (unheld_taking hu (hu.free hl))
      refine ⟨unheld_giving hp.unheld, ?_, fun e => ?_, fun e hb => ?_,
        stretch_begun (hu.free hl) hr hp⟩
      · exact length_giving.trans (hp.length.trans length_taking)
      · exact locks_giving (hp.locks e) hp.length
      · exact begun_giving.2 (hp.begun e (begun_taking.2 hb))

/-! ## The end of a subscription -/

omit [ServiceEntry E] in
theorem closed_total (hu : h.Unheld) (hl : .subscription ∉ (h.collection d).locks) :
    Total (endSubscription d >>= fun _ => close (E := E) d) h := by
  have hend : Total (endSubscription d) h := by
    refine .locked hl (.collection ?_)
    cases (((h.update d fun k =>
      { k with locks := .subscription :: k.locks }).collection d).subscription) with
    | none => exact .pure _
    | some id => exact ⟨_, _, rfl⟩
  refine .bind hend fun _ h₁ hr => ?_
  have hfree : .index ∉ (h₁.collection d).locks := by
    rw [(discreet_endSubscription hr).locks]
    exact free_of_unheld hu (by decide)
  exact .locked hfree (.update ⟨_, _, rfl⟩)

/-- A collection is closed when its subscription was ended. It was begun and it stays so, though
there is a moment in between when it is neither subscribed nor closed. -/
theorem ends_closed (d : Nat) :
    Ends (Frees c) (endSubscription d >>= fun _ => close (E := E) d) := by
  intro h
  by_cases hl : .subscription ∈ (h.collection d).locks
  · show Frees c h ((endSubscription d h >>= fun p => close d p.2).map Prod.snd)
    rw [endSubscription, locked_of_held hl]
    exact Hub.Regime.stuck hl
  · cases hr : (endSubscription d >>= fun _ => close d) h with
    | error halt =>
      cases halt with
      | tooDeep => trivial
      | deadlock lock =>
        intro hu
        obtain ⟨a, h₁, hok⟩ := closed_total hu hl
        rw [hr] at hok
        cases hok
    | ok p =>
      obtain ⟨_, h₁, hend, hclose⟩ := bind_eq_ok.1 hr
      have hd := (discreet_endSubscription hend).trans (discreet_close hclose)
      refine Steady.passed ⟨hd.length, hd.locks, fun e hb => ?_, [], hd.trace, by simp⟩
      by_cases he : e = d
      · subst he
        exact .inr (close_ok hclose).2
      · rw [Begun, hd.others e he]
        exact hb

/-! ## All of a run -/

/-- A collection is destroyed. -/
theorem ends_destroyed (hn : ∀ command, Ends (Frees c) (nested command)) (d : Nat) :
    Ends (Frees c) (destroy nested d) :=
  .destroy (ends_closed d) (ends_removed hn d) (ends_cleared d)

theorem frees_ended (h : Hub E) : Frees c h (.ok (h.record (.ended h.census))) := by
  intro hu
  exact ⟨hu, rfl, fun _ => rfl, fun _ => id, .steady [_] rfl (.of_uncalled (by simp))⟩

/-- **Locks.** Of every run of a command. -/
theorem ends_free (depth : Nat) (command : Command E) : Ends (Frees c) (run depth command) := by
  refine ends_run (fun depth hn => ⟨deliveries_free hn, ?_⟩) frees_ended depth command
  exact ⟨ends_begun (deliveries_free hn), ends_destroyed hn, ends_lifecycle, ends_state⟩

end Run

/-! ## Waiting -/

namespace Run

open Hub

variable {α β : Type} {c : Nat} {h : Hub E} {nested : Nested E}

omit [ServiceEntry E] in
/-- A sequence halts where its first part does. -/
theorem bind_eq_error {x : Run E α} {f : α → Run E β} {halt : Halt} (hx : x h = .error halt) :
    (x >>= f) h = .error halt := by
  show (x h >>= fun p => f p.1 p.2) = _
  rw [hx]
  rfl

/-- Work on a collection that halts. -/
theorem onWork_eq_error {body : Run E Answer} {halt : Halt}
    (hd : (h.collection c).dropped = false)
    (hb : body (h.update c fun k => { k with users := k.users + 1 }) = .error halt) :
    onWork nested c body h = .error halt := by
  have hwork : workOn nested c body h = .error halt := by
    unfold workOn
    rw [update_bind]
    exact bind_eq_error hb
  unfold onWork onCollection
  rw [collection_bind, hd]
  exact hwork

/-- **Waiting.** While a collection is being subscribed, whoever asks whether it is subscribed or
would have it started or destroyed waits for ever. -/
theorem run_waits {command : Command E} (depth : Nat)
    (hcommand : command ∈ [.ask c .isInitialized, .start c, .destroy c])
    (hd : (h.collection c).dropped = false) (hl : .subscription ∈ (h.collection c).locks) :
    run (depth + 1) command h = .error (.deadlock .subscription) := by
  have hl₁ : .subscription ∈
      ((h.update c fun k => { k with users := k.users + 1 }).collection c).locks := by
    rw [collection_update]
    split <;> exact hl
  have hwait {β : Type} {body : Run E β} : locked c .subscription body
      (h.update c fun k => { k with users := k.users + 1 }) = .error (.deadlock .subscription) :=
    locked_of_held hl₁
  refine bind_eq_error ?_
  simp only [List.mem_cons, List.not_mem_nil, or_false] at hcommand
  obtain rfl | rfl | rfl := hcommand
  · show onCollection c _ h = _
    unfold onCollection
    rw [collection_bind, hd]
    exact bind_eq_error (bind_eq_error (locked_of_held hl))
  · exact onWork_eq_error hd (bind_eq_error (bind_eq_error hwait))
  · exact onWork_eq_error hd (bind_eq_error (bind_eq_error hwait))

end Run

/-! ## Runs from plans -/

omit [ServiceEntry E] in
/-- In the hub of some plans no lock is taken. -/
theorem Hub.idle_ofPlans (plans : List (Plan E)) (c : Nat) :
    ((Hub.ofPlans plans).collection c).locks = [] := by
  refine ofPlans_induction (I := fun h => (h.collection c).locks = []) plans
    (by rw [collection_of_length_le c.zero_le]; rfl) fun h plan _ hh => ?_
  rcases addCollection_eq h plan with ⟨k, hb, hadd⟩ | hadd
  · obtain ⟨factory, filter, -, rfl⟩ := Plan.build_ok hb
    rw [hadd, collection_append rfl]
    split
    · rfl
    · exact hh
  · rw [hadd, collection_append rfl]
    split
    · rfl
    · exact hh

/-- **Locks.** Take a run from plans. Of the calls that listeners of a collection got in it, those
that found a lock of the collection taken are in one stretch of the trace. It is what came of the
begin of the subscription, which was made once, and the lock was that of the subscription; all
other calls found no lock taken. And however the run goes on, the only lock that it waits for is
that of a subscription, and it does not wait if each collection was subscribed or closed. -/
theorem calls_outside_locks {plans : List (Plan E)} {depth : Nat} {commands : List (Command E)}
    {answers : List Answer} {h : Hub E}
    (hr : (Hub.ofPlans plans).runAll depth commands = .ok (answers, h)) (c : Nat) :
    (∃ early replay late, h.trace = late ++ (replay ++ early) ∧ Hub.Found c [] early ∧
      Hub.Found c [.subscription] replay ∧ Hub.Found c [] late ∧
      (replay ≠ [] → Hub.Replays c early (replay ++ early))) ∧
    ∀ depth more lock, h.runAll depth more = .error (.deadlock lock) →
      lock = .subscription ∧ ∃ d, ¬ h.Begun d := by
  have hidle := Hub.idle_ofPlans plans
  have hend := Run.ends_runAll (Run.ends_free (c := c) depth) commands (Hub.ofPlans plans)
  rw [hr] at hend
  have hp : Hub.Passed c (Hub.ofPlans plans) h := hend fun d => .inl (hidle d)
  refine ⟨?_, fun depth more lock hlock => ?_⟩
  · have hblank : (Hub.ofPlans plans).trace = [] := (Hub.blank_ofPlans plans).2
    have hstretch := hp.stretch
    cases hstretch with
    | steady recent ht hf =>
      rw [hblank, List.append_nil] at ht
      rw [hidle] at hf
      exact ⟨recent, [], [], ht, hf, .nil, .nil, fun hno => absurd rfl hno⟩
    | begins early replay late _ _ _ ht he hreplay hl hreplays =>
      rw [hblank, List.append_nil] at ht hreplays
      exact ⟨early, replay, late, ht, he, hreplay, hl, fun _ => hreplays⟩
  · have hend := Run.ends_runAll (Run.ends_free (c := c) depth) more h
    rw [hlock] at hend
    obtain ⟨hlock, d, hheld | hnot⟩ := hend hp.unheld
    · rw [hp.locks, hidle] at hheld
      cases hheld
    · exact ⟨hlock, d, hnot⟩

/-! ### A listener that asks -/

/-- An optional dependency on the services in English, with a listener that asks its collection
this question when it is told of a new service. -/
def Plan.asking (question : Question Entry) : Plan Entry where
  hasRegistry := true
  factory := some .reference
  filter := some ⟨"(lang=en)", .equal "lang" ⟨"en", []⟩⟩
  mandatory := false
  lifecycleListeners := [.mk "curious" .silent fun _ callback =>
    match callback with
    | .bind _ _ => .mk [.ask 0 question] .done
    | _ => .silent]

/-- The collection of a listener that was called, and the locks that the listener found taken. -/
def Moment.found? : Moment E → Option (Nat × List Lock)
  | .called tag _ glimpse => some (tag.home, glimpse.locks)
  | _ => none

/-- What comes of a service in English and a start if the listener asks for the size. -/
theorem Plan.asking_ok : ∃ answers h, (Hub.ofPlans [Plan.asking .len]).runAll 3
      [.register (.spoken "en"), .start 0] = .ok (answers, h) ∧ h.collections.length = 1 ∧
    (h.collection 0).subscription = some 0 ∧ ∃ tag callback glimpse,
      .called tag callback glimpse ∈ h.trace ∧ tag.home = 0 ∧
      glimpse.locks = [.subscription] := by
  obtain ⟨⟨answers, h⟩, hr, hseen⟩ := Run.exists_of_map_eq_ok
    (f := fun p : List Answer × Hub Entry =>
      (p.2.collections.length, (p.2.collection 0).subscription,
        p.2.trace.filterMap Moment.found?))
    (show ((Hub.ofPlans [Plan.asking .len]).runAll 3
      [.register (.spoken "en"), .start 0]).map _ =
      .ok (1, some 0, [(0, [.subscription])]) by decide +kernel)
  obtain ⟨hlength, hseen⟩ := Prod.mk.inj hseen
  obtain ⟨hsubscription, hcalls⟩ := Prod.mk.inj hseen
  refine ⟨answers, h, hr, hlength, hsubscription, ?_⟩
  have hmem : (0, [.subscription]) ∈ h.trace.filterMap Moment.found? := by
    rw [hcalls]
    exact List.mem_singleton_self _
  obtain ⟨m, hm, hsome⟩ := List.mem_filterMap.1 hmem
  cases m with
  | called tag callback glimpse =>
    obtain ⟨hhome, hlocks⟩ := Prod.mk.inj (Option.some.inj hsome)
    exact ⟨tag, callback, glimpse, hm, hhome, hlocks⟩
  | _ => cases hsome

/-- The listener is called in the replay. Afterwards nobody waits for a lock any more. -/
theorem calls_outside_locks_asking : ∃ answers h, (Hub.ofPlans [Plan.asking .len]).runAll 3
      [.register (.spoken "en"), .start 0] = .ok (answers, h) ∧
    (∃ early replay late, h.trace = late ++ (replay ++ early) ∧ replay ≠ [] ∧
      Hub.Replays 0 early (replay ++ early)) ∧
    ∀ depth more lock, h.runAll depth more ≠ .error (.deadlock lock) := by
  obtain ⟨answers, h, hr, hlength, hsubscription, tag, callback, glimpse, hmem, hhome, hlocks⟩ :=
    Plan.asking_ok
  obtain ⟨⟨early, replay, late, ht, he, hreplay, hl, hreplays⟩, hwaits⟩ :=
    calls_outside_locks hr 0
  refine ⟨answers, h, hr, ⟨early, replay, late, ht, ?_⟩, fun depth more lock hlock => ?_⟩
  · have hne : replay ≠ [] := by
      rintro rfl
      -- all calls would have found no lock taken
      have hnone : glimpse.locks = [] := (hl.append (.append .nil he)) tag callback glimpse
        (ht ▸ hmem) hhome
      rw [hlocks] at hnone
      cases hnone
    exact ⟨hne, hreplays hne⟩
  · obtain ⟨-, d, hd⟩ := hwaits depth more lock hlock
    have hzero := Hub.lt_length_of_not_begun hd
    rw [hlength] at hzero
    obtain rfl : d = 0 := by omega
    exact hd (.inl (by rw [hsubscription]; rfl))

/-- **The replay is under a lock.** A collection is started when a service is there. Its listener
is told of the service while the lock of the subscription is held: it may ask for the size, but if
it asks whether the collection is initialized then the start does not come to an end. -/
theorem replay_locked :
    (∃ answers h, (Hub.ofPlans [Plan.asking .len]).runAll 3
      [.register (.spoken "en"), .start 0] = .ok (answers, h) ∧ ∃ tag callback glimpse,
        .called tag callback glimpse ∈ h.trace ∧ tag.home = 0 ∧
        glimpse.locks = [.subscription]) ∧
    (Hub.ofPlans [Plan.asking .isInitialized]).runAll 3 [.register (.spoken "en"), .start 0] =
      .error (.deadlock .subscription) := by
  obtain ⟨answers, h, hr, -, -, hcalled⟩ := Plan.asking_ok
  refine ⟨⟨answers, h, hr, hcalled⟩, ?_⟩
  have hhalt : ((Hub.ofPlans [Plan.asking .isInitialized]).runAll 3
      [.register (.spoken "en"), .start 0]).map (fun _ => ()) =
      .error (.deadlock .subscription) := by decide +kernel
  cases hr : (Hub.ofPlans [Plan.asking .isInitialized]).runAll 3
      [.register (.spoken "en"), .start 0] with
  | error halt =>
    rw [hr] at hhalt
    exact congrArg _ (Except.error.inj hhalt)
  | ok p =>
    rw [hr] at hhalt
    cases hhalt

end LiveServices
