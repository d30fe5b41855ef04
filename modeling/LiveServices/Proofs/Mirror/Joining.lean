import LiveServices.Proofs.Mirror.Transits

/-!
# A collection joins

A collection that is started subscribes to the registry and is told of each service that its filter
accepts. What its listeners do meanwhile may be told to it too, for it is subscribed from the first
of these reports on.

A hub is mirrored if it is tracked, each collection knows its subscription, and the reports that
were made are the ledger of the registry, with no report left that is due (`Hub.Mirrored`). The
commands that let services come and go keep it mirrored, and so does a start
(`Run.mirrors_run`). A start takes a number for the subscription before it leaves a moment in the
trace; `Hub.Mirrors n` allows for `n` such numbers.
-/

namespace LiveServices

namespace Hub

/-- A tracked hub in which each collection knows its subscription and no report is due. -/
structure Mirrored (h : Hub Entry) : Prop where
  tracked : h.Tracked
  linked : ∀ c s, (h.collection c).subscription = some s ↔
    ∃ sub ∈ h.registry.subscriptions, sub.id = s ∧ sub.target = .importer c
  ledger : h.registry.Ledger h.reports

/-- The second hub comes after the first and is mirrored if the first is, as long as the numbers
last; at most `n` of those that were given out left no trace. -/
structure Mirrors (n : Nat) (h h' : Hub Entry) : Prop where
  onward : h.Onward h'
  mirrored : h.Mirrored →
    h.registry.issues + h'.trace.length + n < 2 ^ 64 + h.trace.length →
    h'.Mirrored ∧ (∀ c, (h'.collection c).dropped = (h.collection c).dropped) ∧
      h'.registry.issues + h.trace.length ≤ h.registry.issues + h'.trace.length + n

variable {h h₁ h' : Hub Entry} {c m n : Nat}

theorem Onward.length_trace_le (ho : h.Onward h') : h.trace.length ≤ h'.trace.length := by
  obtain ⟨recent, htrace⟩ := ho.trace
  rw [htrace, List.length_append]
  exact Nat.le_add_left _ _

namespace Mirrors

theorem trans (h₁₂ : h.Mirrors m h₁) (h₂₃ : h₁.Mirrors n h') : h.Mirrors (m + n) h' where
  onward := h₁₂.onward.trans h₂₃.onward
  mirrored hm hroom := by
    have hlen := h₂₃.onward.length_trace_le
    obtain ⟨hm₁, hdropped₁, hissues₁⟩ := h₁₂.mirrored hm (by omega)
    obtain ⟨hm', hdropped', hissues'⟩ := h₂₃.mirrored hm₁ (by omega)
    exact ⟨hm', fun d => (hdropped' d).trans (hdropped₁ d), by omega⟩

theorem mono (hm : h.Mirrors m h') (hle : m ≤ n) : h.Mirrors n h' where
  onward := hm.onward
  mirrored hh hroom := by
    obtain ⟨hm', hdropped, hissues⟩ := hm.mirrored hh (by omega)
    exact ⟨hm', hdropped, by omega⟩

/-- What settles its reports and keeps a hub tracked keeps it mirrored. -/
theorem of_tracks (ho : h.Onward h') (ht : h.Tracks h') : h.Mirrors 0 h' where
  onward := ho
  mirrored hm hroom := by
    obtain ⟨ht', hs⟩ := ht hm.tracked
    obtain ⟨hledger, hissues⟩ := hs.ledger [] hroom hm.ledger
    refine ⟨⟨ht', fun d s => ?_, hledger⟩, fun d => (hs.standing d).dropped, hissues⟩
    rw [hs.subscriptions, (hs.standing d).subscription]
    exact hm.linked d s

theorem of_beside (hb : h.Beside h') : h.Mirrors 0 h' :=
  .of_tracks (.of_aside hb.aside) (Rule.beside hb)

theorem refl (h : Hub Entry) : h.Mirrors 0 h := .of_beside (.refl h)

/-- The moment at which a command ends makes up for a number that it took. -/
theorem ended (hm : h.Mirrors 1 h') : h.Mirrors 0 (h'.record (.ended h'.census)) := by
  have hb : h'.Beside (h'.record (.ended h'.census)) := .record trivial rfl
  refine ⟨hm.onward.trans (.of_aside hb.aside), fun hh hroom => ?_⟩
  have hroom : h.registry.issues + (h'.trace.length + 1) + 0 < 2 ^ 64 + h.trace.length := hroom
  obtain ⟨hh', hsame, hissues⟩ := hm.mirrored hh (by omega)
  refine ⟨⟨hh'.tracked.of_same ?_, hh'.linked, hh'.ledger⟩, hsame, ?_⟩
  · exact ⟨rfl, rfl, fun _ => .refl _, fun _ => rfl, fun _ => rfl⟩
  · show h'.registry.issues + h.trace.length ≤ h.registry.issues + (h'.trace.length + 1) + 0
    omega

instance : Rule (Mirrors 0) := ⟨of_beside, fun h₁₂ h₂₃ => h₁₂.trans h₂₃⟩

end Mirrors

/-! ## The subscription -/

/-- The next subscription, if a collection makes it. -/
def newSubscription (h : Hub Entry) (c : Nat) : Subscription Entry :=
  ⟨h.registry.nextSubscription, (h.collection c).dependency.filter, .importer c⟩

/-- The hub in which a collection just subscribed and was told of nothing yet. -/
def subscribed (h : Hub Entry) (c : Nat) : Hub Entry :=
  { h with registry :=
      (h.registry.subscribe (h.collection c).dependency.filter (.importer c)).2 }

namespace Mirrored

theorem mem_subscribed (hm : h.Mirrored) {sub : Subscription Entry} :
    sub ∈ (h.subscribed c).registry.subscriptions ↔
      sub = h.newSubscription c ∨ sub ∈ h.registry.subscriptions := by
  have hmem : sub ∈ (h.subscribed c).registry.subscriptions ↔ sub = h.newSubscription c ∨
      sub ∈ h.registry.subscriptions ∧ sub.id ≠ h.registry.nextSubscription :=
    Roster.mem_insert_iff hm.tracked.rising
  rw [hmem]
  -- the number of the subscription is new
  refine or_congr_right (and_iff_left_of_imp fun hsub => ?_)
  exact UInt64.ne_of_lt (hm.ledger.subscription_lt sub hsub)

/-- Nobody is subscribed for a collection that has no subscription. -/
theorem target_ne (hm : h.Mirrored) (hnone : (h.collection c).subscription = none) :
    ∀ sub ∈ h.registry.subscriptions, sub.target ≠ .importer c := by
  intro sub hsub htarget
  have hsome := (hm.linked c sub.id).2 ⟨sub, hsub, rfl, htarget⟩
  rw [hnone] at hsome
  cases hsome

/-- A hub stays tracked when a collection that has no subscription subscribes. -/
theorem tracked_subscribed (hm : h.Mirrored) (hdropped : (h.collection c).dropped = false)
    (hnone : (h.collection c).subscription = none) : (h.subscribed c).Tracked := by
  have ht := hm.tracked
  have hfree := hm.target_ne hnone
  refine ⟨Roster.rising_insert ht.rising, ht.confined, ht.attentive, fun sub hsub => ?_,
    fun sub hsub sub' hsub' d hd hd' => ?_, fun sub hsub d hd id => ?_, fun d hd => ?_⟩
  · rcases hm.mem_subscribed.1 hsub with rfl | hsub
    · exact ⟨c, rfl, hdropped, rfl⟩
    · exact ht.target sub hsub
  · rcases hm.mem_subscribed.1 hsub with rfl | hsub
    · obtain rfl : c = d := Target.importer.inj hd
      exact (hm.mem_subscribed.1 hsub').resolve_right fun hold => hfree sub' hold hd'
    · rcases hm.mem_subscribed.1 hsub' with rfl | hsub'
      · obtain rfl : c = d := Target.importer.inj hd'
        exact absurd hd (hfree sub hsub)
      · exact ht.apart sub hsub sub' hsub' d hd hd'
  · rcases hm.mem_subscribed.1 hsub with rfl | hsub
    · -- the subscription was told of nothing yet, and the collection has nothing yet
      obtain rfl : c = d := Target.importer.inj hd
      have hnothing : lastKind? h.reports h.registry.nextSubscription id = none := by
        rw [lastKind?, Option.map_eq_none_iff, List.find?_eq_none]
        refine fun p hp hconcerns => ?_
        exact UInt64.ne_of_lt (hm.ledger.report_lt p hp).1 (Report.concerns_iff.1 hconcerns).1
      show id ∈ (h.collection c).identities ↔
        lastKind? h.reports h.registry.nextSubscription id = _
      rw [hnothing, ht.blank c hfree]
      simp
    · exact ht.current sub hsub d hd id
  · exact ht.blank d fun sub hsub => hd sub (hm.mem_subscribed.2 (.inr hsub))

/-- Each collection knows its subscription when the one that subscribed notes it. -/
theorem linked_subscribed (hm : h.Mirrored) (hdropped : (h.collection c).dropped = false)
    (hnone : (h.collection c).subscription = none)
    (hsubs : h'.registry.subscriptions = (h.subscribed c).registry.subscriptions)
    (hstanding : ∀ d, (h.collection d).SameStanding (h'.collection d)) (d : Nat) (s : UInt64) :
    ((h'.update c fun k =>
      { k with subscription := some h.registry.nextSubscription }).collection d).subscription =
        some s ↔ ∃ sub ∈ h'.registry.subscriptions, sub.id = s ∧ sub.target = .importer d := by
  have hexists : c < h'.collections.length := by
    refine Nat.lt_of_not_le fun hle => ?_
    have habsent := (hstanding c).dropped
    rw [collection_of_length_le hle] at habsent
    exact Bool.false_ne_true (hdropped.symm.trans habsent.symm)
  rw [hsubs, collection_update]
  by_cases hdc : d = c
  · subst hdc
    rw [if_pos ⟨rfl, hexists⟩]
    constructor
    · intro hid
      exact ⟨h.newSubscription d, hm.mem_subscribed.2 (.inl rfl), Option.some.inj hid, rfl⟩
    · rintro ⟨sub, hsub, hid, htarget⟩
      obtain rfl := (hm.mem_subscribed.1 hsub).resolve_right fun hold =>
        hm.target_ne hnone sub hold htarget
      exact congrArg some hid
  · rw [if_neg fun hboth => hdc hboth.1, (hstanding d).subscription]
    refine (hm.linked d s).trans ⟨?_, ?_⟩
    · rintro ⟨sub, hsub, hboth⟩
      exact ⟨sub, hm.mem_subscribed.2 (.inr hsub), hboth⟩
    · rintro ⟨sub, hsub, hid, htarget⟩
      rcases hm.mem_subscribed.1 hsub with rfl | hsub
      · exact absurd (Target.importer.inj htarget).symm hdc
      · exact ⟨sub, hsub, hid, htarget⟩

end Mirrored

/-- A hub stays tracked when a collection notes its subscription. -/
theorem Tracked.note (ht : h.Tracked) (c : Nat) (s : Option UInt64) :
    (h.update c fun k => { k with subscription := s }).Tracked := by
  refine ht.of_same ⟨rfl, rfl, fun d => ?_, fun d => ?_, fun d => ?_⟩
  all_goals
    rw [collection_update]
    split
  · exact ⟨rfl, rfl, rfl, rfl, rfl, rfl, rfl, id⟩
  · exact .refl _
  all_goals rfl

end Hub

/-! ## The start -/

namespace Run

open Hub (Mirrors Mirrored Onward Tracks)

variable {nested : Nested Entry} {h h' : Hub Entry} {c : Nat}
  (ho : ∀ command, Keeps Onward (nested command))
  (hn : ∀ command, command.IsTransit → Keeps Tracks (nested command))
include ho hn

/-- A collection that is not subscribed yet subscribes, is told of what is there, and notes its
subscription. -/
theorem mirrored_subscribe {a : Except Trouble UInt64} (hm : h.Mirrored)
    (hdropped : (h.collection c).dropped = false)
    (hnone : (h.collection c).subscription = none)
    (hr : (subscribe nested (h.collection c).dependency.filter (.importer c)).run h = .ok (a, h'))
    (hroom : h.registry.issues + h'.trace.length + 1 < 2 ^ 64 + h.trace.length) :
    a = .ok h.registry.nextSubscription ∧
    (h'.update c fun k => { k with subscription := some h.registry.nextSubscription }).Mirrored ∧
    (∀ d, (h'.collection d).dropped = (h.collection d).dropped) ∧
    h'.registry.issues + h.trace.length ≤ h.registry.issues + h'.trace.length + 1 := by
  have hlen := ((steps_onward.course ho).built (.subscribe _ _) hr).length_trace_le
  have hnext : h.registry.nextSubscription.toNat + 1 < 2 ^ 64 := by
    rw [Registry.issues] at hroom
    omega
  have hissues₀ : (h.subscribed c).registry.issues = h.registry.issues + 1 := by
    show h.registry.nextService.toNat + (h.registry.nextSubscription + 1).toNat = _
    rw [Registry.toNat_next hnext, Registry.issues, Nat.add_assoc]
  -- the services that are there are reported to the new subscription
  unfold subscribe at hr
  rw [act_bind (a := h.newSubscription c) (g := h.subscribed c) rfl,
    act_bind (a := h.subscribed c) (g := h.subscribed c) rfl] at hr
  obtain ⟨told, h₁, htold, hdone⟩ := act_bind_ok hr
  obtain ⟨rfl, ht₁, hs⟩ := deliveries_settle hn (fun _ => h.newSubscription c) .registered
    (hm.tracked_subscribed hdropped hnone) (fun _ _ => hm.mem_subscribed.2 (.inl rfl))
    (fun _ _ => .inl rfl) htold
  obtain ⟨rfl, rfl⟩ := pure_eq_ok.1 (hdone () rfl)
  obtain ⟨hledger, hissues⟩ := hs.ledger [] (show (h.subscribed c).registry.issues +
      h₁.trace.length < 2 ^ 64 + h.trace.length by omega) (hm.ledger.subscribe hnext _ _)
  have hissues : h₁.registry.issues + h.trace.length ≤
    (h.subscribed c).registry.issues + h₁.trace.length := hissues
  refine ⟨rfl, ⟨ht₁.note c _, ?_, hledger⟩, fun d => (hs.standing d).dropped, by omega⟩
  exact hm.linked_subscribed hdropped hnone hs.subscriptions hs.standing

/-- A collection that is not subscribed yet follows the registry from now on. -/
theorem mirrors_follow {a : Except Trouble Unit} (hdropped : (h.collection c).dropped = false)
    (hnone : (h.collection c).subscription = none)
    (hr : (do
      let id ← subscribe nested (h.collection c).dependency.filter (.importer c)
      update (E := Entry) c fun k => { k with subscription := some id } : Act Entry Unit).run h =
        .ok (a, h')) :
    h.Mirrors 1 h' := by
  have hnote (id : UInt64) : Keeps Onward
      (update c fun k : Collection Entry => { k with subscription := some id }) :=
    .update c fun _ => ⟨rfl, rfl, rfl, rfl, rfl, rfl, rfl, fun hk => hk⟩
  have hgrown : h.Onward h' := Keeps.act_bind ((steps_onward.course ho).built (.subscribe _ _))
    (fun id => .act_lift (hnote id)) hr
  refine ⟨hgrown, fun hm hroom => ?_⟩
  obtain ⟨told, h₁, hsubscribe, hrest⟩ := bind_eq_ok.1 hr
  cases told with
  | error t =>
    -- the importer of a collection does not fail
    obtain ⟨-, rfl⟩ := pure_eq_ok.1 hrest
    obtain ⟨hcontra, -⟩ := mirrored_subscribe ho hn hm hdropped hnone hsubscribe hroom
    cases hcontra
  | ok id =>
    obtain rfl : (h₁.update c fun k => { k with subscription := some id }) = h' :=
      congrArg Prod.snd (Except.ok.inj hrest)
    obtain ⟨hid, hm', hdropped', hissues⟩ :=
      mirrored_subscribe ho hn hm hdropped hnone hsubscribe hroom
    obtain rfl := Except.ok.inj hid
    refine ⟨hm', fun d => ?_, hissues⟩
    rw [Hub.collection_update, ← hdropped' d]
    split <;> rfl

/-- A collection begins to follow the registry, unless it did before or is destroyed. -/
theorem mirrors_begin {a : Except Trouble Unit} (hdropped : (h.collection c).dropped = false)
    (hr : (begin nested c).run h = .ok (a, h')) : h.Mirrors 1 h' := by
  have hrefuse : ∀ {t : Trouble} {h₁ : Hub Entry}, h.Mirrors 0 h₁ →
      (.ok (.error t, h₁) : Except Halt _) = .ok (a, h') → h.Mirrors 1 h' := by
    rintro t h₁ hm ⟨⟩
    exact hm.mono (Nat.zero_le _)
  unfold begin at hr
  rw [act_bind (a := h.collection c) (g := h) rfl] at hr
  cases hnone : (h.collection c).subscription with
  | some s =>
    rw [hnone] at hr
    exact hrefuse (.refl h) hr
  | none =>
    rw [hnone] at hr
    have hr : (_ >>= fun _ => _ : Act Entry Unit).run h = .ok (a, h') := hr
    obtain ⟨asked, h₁, hasked, hrest⟩ := act_bind_ok hr
    obtain ⟨closed, hclosed, hask⟩ := act_lift_ok hasked
    have hb : h.Beside h₁ := Keeps.isClosed c hclosed
    have hrest := hrest closed hask
    cases closed with
    | true => exact hrefuse (.of_beside hb) hrest
    | false =>
      have hdependency : (h.collection c).dependency = (h₁.collection c).dependency :=
        (hb.aside.stock c).dependency.symm
      rw [hdependency] at hrest
      exact (Mirrors.of_beside hb).trans (mirrors_follow ho hn
        ((hb.standing c).dropped.trans hdropped) ((hb.standing c).subscription.trans hnone) hrest)

/-- A collection is started. -/
theorem mirrors_start {a : Except Trouble Unit} (hdropped : (h.collection c).dropped = false)
    (hr : (start nested c).run h = .ok (a, h')) : h.Mirrors 1 h' := by
  obtain ⟨begun, h₁, hlocked, hrest⟩ := bind_eq_ok.1 hr
  obtain ⟨-, h₂, hbegin, rfl⟩ := locked_eq_ok.1 hlocked
  have htake : h.Beside (h.update c fun k => { k with locks := .subscription :: k.locks }) :=
    .update c (fun _ => ⟨rfl, rfl, rfl, rfl, rfl, rfl, rfl, id⟩) fun _ => ⟨rfl, rfl, rfl⟩
  have hgive : h₂.Beside (h₂.update c fun k => { k with locks := k.locks.erase .subscription }) :=
    .update c (fun _ => ⟨rfl, rfl, rfl, rfl, rfl, rfl, rfl, id⟩) fun _ => ⟨rfl, rfl, rfl⟩
  have hbegun := ((Mirrors.of_beside htake).trans (mirrors_begin ho hn
    ((htake.standing c).dropped.trans hdropped) hbegin)).trans (.of_beside hgive)
  cases begun with
  | error t =>
    obtain ⟨-, rfl⟩ := pure_eq_ok.1 hrest
    exact hbegun
  | ok u =>
    -- whether the collection has what it needs now is only looked up
    refine hbegun.trans ((Keeps.act_bind (S := Mirrors 0) (.act_lift (.available c))
      fun checked => ?_) hrest)
    split
    · exact .act_pure _
    · exact .act_throw _

omit hn in
/-- The work of a command on a collection that is not dropped. -/
theorem mirrors_workOn {α : Type} {n : Nat} {work : Run Entry α} {a : α}
    (hdropped : (h.collection c).dropped = false)
    (hwork : ∀ {h₁ h₂ : Hub Entry} {a : α}, (h₁.collection c).dropped = false →
      work h₁ = .ok (a, h₂) → h₁.Mirrors n h₂)
    (hr : workOn nested c work h = .ok (a, h')) : h.Mirrors n h' := by
  have husers (f : Nat → Nat) (h : Hub Entry) :
      h.Beside (h.update c fun k => { k with users := f k.users }) :=
    .update c (fun _ => ⟨rfl, rfl, rfl, rfl, rfl, rfl, rfl, id⟩) fun _ => ⟨rfl, rfl, rfl⟩
  obtain ⟨_, h₁, henter, hr⟩ := bind_eq_ok.1 hr
  obtain rfl := update_eq_ok.1 henter
  obtain ⟨a', h₂, hdone, hr⟩ := bind_eq_ok.1 hr
  obtain ⟨_, h₃, hleave, hr⟩ := bind_eq_ok.1 hr
  obtain rfl := update_eq_ok.1 hleave
  obtain ⟨u, h₄, hdispose, hr⟩ := bind_eq_ok.1 hr
  obtain ⟨-, rfl⟩ := pure_eq_ok.1 hr
  have hb := husers (· + 1) h
  have hm := ((Mirrors.of_beside hb).trans
    (hwork ((hb.standing c).dropped.trans hdropped) hdone)).trans (.of_beside (husers (· - 1) h₂))
  have hgrown := (steps_onward.course ho).built (.dispose c) hdispose
  refine ⟨hm.onward.trans hgrown, fun hh hroom => ?_⟩
  have hlen := hgrown.length_trace_le
  obtain ⟨hh', hsame, hissues⟩ := hm.mirrored hh (by omega)
  -- a collection that is not dropped is not disposed of
  obtain ⟨k, h₅, hlook, hdispose⟩ := bind_eq_ok.1 hdispose
  obtain ⟨rfl, rfl⟩ := pure_eq_ok.1 hlook
  rw [hsame c, hdropped] at hdispose
  obtain ⟨-, rfl⟩ := pure_eq_ok.1 hdispose
  exact ⟨hh', hsame, by omega⟩

omit ho hn

/-- **Runs.** Services that come or go and collections that are started keep a hub mirrored. -/
theorem mirrors_run (depth : Nat) {command : Command Entry}
    (hc : command.IsTransit ∨ ∃ c, command = .start c) :
    Keeps (Mirrors 0) (run depth command) := by
  intro h answer h' hr
  obtain hc | ⟨c, rfl⟩ := hc
  · exact .of_tracks (onward_run depth command hr) (tracks_run depth hc hr)
  · cases depth with
    | zero => cases hr
    | succ depth =>
      obtain ⟨answer', h₁, hexecute, hend⟩ := bind_eq_ok.1 hr
      obtain rfl : h₁.record (.ended h₁.census) = h' := congrArg Prod.snd (Except.ok.inj hend)
      have hm : h.Mirrors 1 h₁ := by
        obtain ⟨k, h₂, hlook, hstart⟩ := bind_eq_ok.1 hexecute
        obtain ⟨rfl, rfl⟩ := pure_eq_ok.1 hlook
        cases hdropped : (h.collection c).dropped with
        | true =>
          rw [hdropped] at hstart
          obtain ⟨-, rfl⟩ := pure_eq_ok.1 hstart
          exact (Mirrors.refl h).mono (Nat.zero_le 1)
        | false =>
          rw [hdropped] at hstart
          have hstart : workOn (run depth) c
              (answered (fun _ => .done) (start (run depth) c)) h = .ok (answer', h₁) := hstart
          have hn : ∀ command : Command Entry, command.IsTransit →
              Keeps Tracks (run depth command) := fun _ => tracks_run depth
          refine mirrors_workOn (onward_run depth) hdropped (fun {_ _ _} hopen hanswered => ?_)
            hstart
          obtain ⟨a, hstarted⟩ := run_of_answered hanswered
          exact mirrors_start (onward_run depth) hn hopen hstarted
      exact hm.ended

end Run

end LiveServices
