import LiveServices.Proofs.Calm.Matches
import LiveServices.Proofs.Callbacks.Accounting
import LiveServices.Proofs.Registry.Replica
import Mathlib.Data.List.Pairwise

/-!
# The event stream of a registry

A listener that subscribed to the services that a filter accepts is told enough to know them. At
its subscription it is told of those that are there; from then on each call of the registry tells
it by one event or by none how the services that its filter accepts have changed, and that is
decided for each listener from the old properties of a service and the new ones.

Listeners that give no commands and do not panic (`Listener.IsQuiet`) let every call reach its
result. What a call then does to the registry and to what each listener was told is
`Hub.Uses`, and `Hub.Reports` says it of one event. Two invariants follow from these: every listener
knows at least the services that its filter accepts (`Hub.Abreast`), and nothing but them as long
as no number is given out twice (`Hub.Unmisled`). `stream_exact` has both for any calls, and as each
beginning of the calls is again such calls, it holds after every one of them.
-/

namespace LiveServices

variable {E : Type}

/-- A listener that gives no commands and does not panic. It may fail. -/
structure Listener.IsQuiet (l : Listener E) : Prop where
  passive : l.IsPassive
  steady : ∀ told callback message, (l.respond told callback).finish ≠ .panic message

/-- The calls that change the services of a registry or by which quiet listeners come and go. -/
def Command.IsRegistryUse : Command E → Prop
  | .register _ | .setProperties _ _ | .unregister _ | .removeListener _ => True
  | .addListener _ _ listener => listener.IsQuiet
  | _ => False

/-- Two subscriptions do not share a listener. -/
def Subscription.Apart (s t : Subscription E) : Prop :=
  ∀ l m, s.target = .observer l → t.target = .observer m → l.key ≠ m.key

instance : Std.Symm (Subscription.Apart (E := E)) :=
  ⟨fun _ _ h l m hl hm => (h m l hm hl).symm⟩

namespace Hub

/-- Those who are subscribed are quiet listeners, each with a number of its own, and who is not
attached yet was told nothing. -/
structure Attended (h : Hub E) : Prop where
  observed : ∀ s ∈ h.registry.subscriptions,
    ∃ l, s.target = .observer l ∧ l.listener.IsQuiet ∧ l.key < h.listeners
  apart : h.registry.subscriptions.Pairwise Subscription.Apart
  unheard : ∀ tag : ListenerTag, h.listeners ≤ tag.key → h.history tag = []

/-- The second hub comes after the first by these listeners being told of an event. -/
structure Tells (targets : List (Subscription E)) (event : ServiceEvent) (h h' : Hub E) :
    Prop where
  books : h.registry.SameBooks h'.registry
  listeners : h'.listeners = h.listeners
  told : ∀ s ∈ targets, ∀ l, s.target = .observer l →
    h'.history l.tag = .event event :: h.history l.tag
  untold : ∀ tag : ListenerTag, (∀ s ∈ targets, ∀ l, s.target = .observer l → tag.key ≠ l.key) →
    h'.history tag = h.history tag

/-- The second hub comes after the first by an event being told to those whose filter passes a
test. -/
structure Reports (wants : ServiceFilter → Bool) (event : ServiceEvent) (h h' : Hub E) :
    Prop where
  books : h.registry.SameBooks h'.registry
  listeners : h'.listeners = h.listeners
  told : ∀ s ∈ h.registry.subscriptions, ∀ l, s.target = .observer l →
    h'.history l.tag =
      if wants s.filter then .event event :: h.history l.tag else h.history l.tag
  unheard : ∀ tag : ListenerTag, h.listeners ≤ tag.key → h'.history tag = h.history tag

/-- Neither the services nor the next number matter for who is attended. -/
theorem Attended.of_books {h : Hub E} (ha : h.Attended) {books : Registry E}
    (hbooks : books.subscriptions = h.registry.subscriptions) :
    Attended { h with registry := books } :=
  ⟨hbooks.symm ▸ ha.observed, hbooks.symm ▸ ha.apart, ha.unheard⟩

/-- Who is attended stays so when the listeners are told of an event. -/
theorem Reports.attended {wants : ServiceFilter → Bool} {event : ServiceEvent} {h h' : Hub E}
    (hh : Reports wants event h h') (ha : h.Attended) : h'.Attended where
  observed := by
    rw [hh.books.subscriptions, hh.listeners]
    exact ha.observed
  apart := by
    rw [hh.books.subscriptions]
    exact ha.apart
  unheard tag htag := by
    rw [hh.listeners] at htag
    rw [hh.unheard tag htag]
    exact ha.unheard tag htag

end Hub

namespace Run

variable [ServiceEntry E] (nested : Nested E) {h : Hub E} {s : Subscription E} {l : Attached E}

/-- The call of a quiet listener. -/
theorem call_quiet (hq : l.listener.IsQuiet) (callback : Callback E) : ∃ glimpse finish,
    call nested l callback h = .ok (finish, h.record (.called l.tag callback glimpse)) ∧
    ∀ message, finish ≠ .panic message := by
  have hcall : ∃ glimpse, call nested l callback h =
      give nested (fun command answer => record (.commanded l.tag command.name answer))
        (l.listener.respond (h.history l.tag) callback).finish
        (l.listener.respond (h.history l.tag) callback).commands
        (h.record (.called l.tag callback glimpse)) := ⟨_, rfl⟩
  obtain ⟨glimpse, hcall⟩ := hcall
  rw [hq.passive] at hcall
  exact ⟨glimpse, _, hcall, hq.steady _ _⟩

/-- An event is delivered to a quiet listener. -/
theorem deliver_quiet (hs : s.target = .observer l) (hq : l.listener.IsQuiet)
    (event : ServiceEvent) :
    ∃ h', (deliver nested s event).run h = .ok (.ok (), h') ∧ Hub.Tells [s] event h h' := by
  let h₁ : Hub E := { h with registry.delivered := h.registry.delivered + 1 }
  let h₂ : Hub E := h₁.record (.delivered s.id event)
  obtain ⟨glimpse, finish, hcall, hsteady⟩ := call_quiet nested (h := h₂) hq (.event event)
  have htell : (tell nested s.target event).run h₂ =
      .ok (.ok (), h₂.record (.called l.tag (.event event) glimpse)) := by
    rw [hs]
    show (_ >>= fun _ => _ : Act E Unit).run h₂ = _
    rw [act_bind (act_lift hcall)]
    cases finish with
    | done => rfl
    | fail f => rfl
    | panic message => exact absurd rfl (hsteady message)
  refine ⟨h₂.record (.called l.tag (.event event) glimpse), ?_, ⟨rfl, rfl, rfl, rfl⟩, rfl,
    fun t ht m hm => ?_, fun tag hother => ?_⟩
  · unfold deliver
    rw [act_bind (a := ()) (g := h₁) rfl, act_bind (a := ()) (g := h₂) rfl, htell]
  · obtain rfl := List.mem_singleton.1 ht
    obtain rfl : l = m := Target.observer.inj (hs.symm.trans hm)
    rw [Hub.history_record_called, if_pos rfl]
    rfl
  · have hne := hother s (List.mem_singleton.2 rfl) l hs
    rw [Hub.history_record_called, if_neg fun heq => hne (congrArg ListenerTag.key heq).symm]
    rfl

/-- An event is delivered to quiet listeners, one after the other. -/
theorem deliverEach_quiet {targets : List (Subscription E)}
    (hobserved : ∀ s ∈ targets, ∃ l, s.target = .observer l ∧ l.listener.IsQuiet)
    (hapart : targets.Pairwise Subscription.Apart) (event : ServiceEvent) :
    ∃ h', (targets.forM fun s => deliver nested s event).run h = .ok (.ok (), h') ∧
      Hub.Tells targets event h h' := by
  induction targets generalizing h with
  | nil =>
    exact ⟨h, rfl, .refl _, rfl, fun s hs => absurd hs List.not_mem_nil, fun _ _ => rfl⟩
  | cons s targets ih =>
    obtain ⟨hfirst, hapart⟩ := List.pairwise_cons.1 hapart
    obtain ⟨l, hl, hq⟩ := hobserved s List.mem_cons_self
    obtain ⟨h₁, hr₁, ht₁⟩ := deliver_quiet nested (h := h) hl hq event
    obtain ⟨h', hr, ht⟩ := ih (h := h₁)
      (fun t ht => hobserved t (List.mem_cons_of_mem _ ht)) hapart
    refine ⟨h', (act_bind hr₁).trans hr, ht₁.books.trans ht.books,
      ht.listeners.trans ht₁.listeners, fun t hmem m hm => ?_, fun tag hother => ?_⟩
    · -- no two of them have one number, so each is told once
      rcases List.mem_cons.1 hmem with rfl | hmem
      · rw [ht.untold m.tag fun t ht n hn => hfirst t ht m n hm hn]
        exact ht₁.told _ (List.mem_singleton.2 rfl) m hm
      · rw [ht.told t hmem m hm, ht₁.untold m.tag fun s' hs' n hn => ?_]
        rw [List.mem_singleton.1 hs'] at hn
        exact (hfirst t hmem n m hn hm).symm
    · rw [ht.untold tag fun t ht => hother t (List.mem_cons_of_mem _ ht)]
      exact ht₁.untold tag fun t ht => hother t (List.mem_singleton.1 ht ▸ List.mem_cons_self)

/-- An event is delivered to those who want it. -/
theorem deliverAll_quiet (ha : h.Attended) (event : ServiceEvent) (wants : ServiceFilter → Bool) :
    ∃ h', (deliverAll nested event wants).run h = .ok (.ok (), h') ∧
      Hub.Reports wants event h h' := by
  have hobserved : ∀ s ∈ h.registry.subscriptions.filter fun s => wants s.filter,
      ∃ l, s.target = .observer l ∧ l.listener.IsQuiet := fun s hs => by
    obtain ⟨l, hl, hq, -⟩ := ha.observed s (List.mem_filter.1 hs).1
    exact ⟨l, hl, hq⟩
  obtain ⟨h', hr, ht⟩ := deliverEach_quiet nested (h := h) hobserved
    (ha.apart.sublist List.filter_sublist) event
  refine ⟨h', (act_bind (a := h) (g := h) rfl).trans hr, ht.books, ht.listeners,
    fun s hs l hl => ?_, fun tag htag => ht.untold tag fun t hmem m hm => ?_⟩
  · cases hw : wants s.filter with
    | true => exact ht.told s (List.mem_filter.2 ⟨hs, hw⟩) l hl
    | false =>
      refine ht.untold l.tag fun t hmem m hm => ?_
      obtain ⟨hmem, hwt⟩ := List.mem_filter.1 hmem
      have hne : s ≠ t := fun heq => by simp [heq, hwt] at hw
      exact ha.apart.forall hs hmem hne l m hl hm
  · obtain ⟨l, hl, -, hlt⟩ := ha.observed t (List.mem_filter.1 hmem).1
    obtain rfl : l = m := Target.observer.inj (hl.symm.trans hm)
    omega

/-- A listener that subscribes is told of services, one after the other. -/
theorem replay_quiet (hs : s.target = .observer l) (hq : l.listener.IsQuiet)
    (services : List ServiceReference) :
    ∃ h', (services.forM fun r => deliver nested s (.registered r)).run h = .ok (.ok (), h') ∧
      h.registry.SameBooks h'.registry ∧ h'.listeners = h.listeners ∧
      h'.history l.tag =
        (services.map fun r => .event (.registered r)).reverse ++ h.history l.tag ∧
      ∀ tag : ListenerTag, tag.key ≠ l.key → h'.history tag = h.history tag := by
  induction services generalizing h with
  | nil => exact ⟨h, rfl, .refl _, rfl, rfl, fun _ _ => rfl⟩
  | cons r services ih =>
    obtain ⟨h₁, hr₁, ht⟩ := deliver_quiet nested (h := h) hs hq (.registered r)
    obtain ⟨h', hr, hbooks, hlisteners, htold, huntold⟩ := ih (h := h₁)
    refine ⟨h', (act_bind hr₁).trans hr, ht.books.trans hbooks,
      hlisteners.trans ht.listeners, ?_, fun tag hne => ?_⟩
    · rw [htold, ht.told s (List.mem_singleton.2 rfl) l hs]
      simp
    · rw [huntold tag hne]
      refine ht.untold tag fun t ht m hm => ?_
      rw [List.mem_singleton.1 ht] at hm
      rwa [← Target.observer.inj (hs.symm.trans hm)]

end Run

namespace Hub

/-- What comes of a use of the registry by quiet listeners. -/
inductive Uses (h : Hub E) : Command E → Hub E → Prop where
  | registered {r : ServiceReference} {properties : Properties} {h' : Hub E}
    (hr : r = .new h.registry.nextService properties)
    (hh : Reports (·.accepts r.properties) (.registered r)
      { h with registry := (h.registry.add properties).2 } h') : Uses h (.register properties) h'
  | modified {id : UInt64} {properties : Properties} {old r : ServiceReference} {h₁ h' : Hub E}
    (hf : h.registry.get? id = some old) (hr : r = .new id properties)
    (hh₁ : Reports (·.accepts r.properties) (.modified r)
      { h with registry := h.registry.put r } h₁)
    (hh : Reports (fun filter => !filter.accepts r.properties && filter.accepts old.properties)
      ⟨.modifiedEndmatch, r⟩ h₁ h') : Uses h (.setProperties id properties) h'
  | unregistered {id : UInt64} {r : ServiceReference} {h' : Hub E}
    (hf : h.registry.get? id = some r)
    (hh : Reports (·.accepts r.properties) (.unregistering r)
      { h with registry := h.registry.remove id } h') : Uses h (.unregister id) h'
  | subscribed {home : Nat} {text : String} {listener : Listener E} {filter : ServiceFilter}
    {h' : Hub E} (hq : listener.IsQuiet)
    (books : (h.registry.subscribe filter (.observer ⟨h.listeners, home, listener⟩)).2.SameBooks
      h'.registry)
    (listeners : h'.listeners = h.listeners + 1)
    (told : h'.history (Attached.mk h.listeners home listener).tag =
      ((h.registry.references filter).map fun r => .event (.registered r)).reverse ++
        h.history (Attached.mk h.listeners home listener).tag)
    (untold : ∀ tag : ListenerTag, tag.key ≠ h.listeners → h'.history tag = h.history tag) :
    Uses h (.addListener home text listener) h'
  | unsubscribed {id : UInt64} {h' : Hub E}
    (books : (h.registry.unsubscribe id).2.SameBooks h'.registry)
    (listeners : h'.listeners = h.listeners) (told : ∀ tag, h'.history tag = h.history tag) :
    Uses h (.removeListener id) h'
  | refused {command : Command E} {h' : Hub E} (hc : command.isRegister = false)
    (books : h.registry.SameBooks h'.registry) (listeners : h'.listeners = h.listeners)
    (told : ∀ tag, h'.history tag = h.history tag) : Uses h command h'

end Hub

namespace Run

variable [ServiceEntry E] (nested : Nested E) {h : Hub E} {command : Command E}

/-- A use of the registry by quiet listeners is carried out. -/
theorem execute_quiet (ha : h.Attended) (hu : command.IsRegistryUse) :
    ∃ answer h', execute nested command h = .ok (answer, h') ∧ h.Uses command h' := by
  have hrefused : command.isRegister = false → h.Uses command h := fun hc =>
    .refused hc (.refl _) rfl fun _ => rfl
  cases command with
  | register properties =>
    let r := ServiceReference.new h.registry.nextService properties
    let h₁ : Hub E := { h with registry := (h.registry.add properties).2 }
    obtain ⟨h', hr, hh⟩ := deliverAll_quiet nested (ha.of_books rfl : h₁.Attended)
      (.registered r) (·.accepts r.properties)
    refine ⟨_, h', answered_ok (a := r) ?_, .registered rfl hh⟩
    unfold register
    rw [act_bind (a := r) (g := h₁) rfl, act_bind hr]
    rfl
  | setProperties id properties =>
    cases hf : h.registry.get? id with
    | none =>
      refine ⟨.failed (Registry.unknownService id), h, answered_failed ?_, hrefused rfl⟩
      unfold setProperties
      rw [act_bind (a := h) (g := h) rfl, hf]
      rfl
    | some old =>
      let r := ServiceReference.new id properties
      let h₁ : Hub E := { h with registry := h.registry.put r }
      have ha₁ : h₁.Attended := ha.of_books rfl
      obtain ⟨h₂, hr₂, hh₂⟩ := deliverAll_quiet nested ha₁ (.modified r)
        (·.accepts r.properties)
      obtain ⟨h', hr, hh⟩ := deliverAll_quiet nested (hh₂.attended ha₁)
        ⟨.modifiedEndmatch, r⟩
        (fun filter => !filter.accepts r.properties && filter.accepts old.properties)
      refine ⟨_, h', answered_ok (a := r) ?_, .modified hf rfl hh₂ hh⟩
      unfold setProperties
      rw [act_bind (a := h) (g := h) rfl, hf]
      show (_ >>= fun _ => _ : Act E _).run h = _
      rw [act_bind (a := ()) (g := h₁) rfl, act_bind hr₂, act_bind hr]
      rfl
  | unregister id =>
    cases hf : h.registry.get? id with
    | none =>
      refine ⟨.failed (Registry.unknownService id), h, answered_failed ?_, hrefused rfl⟩
      unfold unregister
      rw [act_bind (a := h) (g := h) rfl, hf]
      rfl
    | some r =>
      let h₁ : Hub E := { h with registry := h.registry.remove id }
      obtain ⟨h', hr, hh⟩ := deliverAll_quiet nested (ha.of_books rfl : h₁.Attended)
        (.unregistering r) (·.accepts r.properties)
      refine ⟨_, h', answered_ok (a := ()) ?_, .unregistered hf hh⟩
      unfold unregister
      rw [act_bind (a := h) (g := h) rfl, hf]
      show (_ >>= fun _ => _ : Act E _).run h = _
      rw [act_bind (a := ()) (g := h₁) rfl, hr]
  | addListener home text listener =>
    show ∃ answer h', withFilter text _ h = .ok (answer, h') ∧ _
    unfold withFilter
    cases ServiceFilter.parse text with
    | error failure => exact ⟨_, h, rfl, hrefused rfl⟩
    | ok filter =>
      let l : Attached E := ⟨h.listeners, home, listener⟩
      let s : Subscription E := ⟨h.registry.nextSubscription, filter, .observer l⟩
      let h₁ : Hub E := { h with listeners := h.listeners + 1 }
      let h₂ : Hub E := { h₁ with registry := (h.registry.subscribe filter (.observer l)).2 }
      obtain ⟨h', hr, hbooks, hlisteners, htold, huntold⟩ := replay_quiet nested
        (h := h₂) (s := s) (l := l) rfl hu (h.registry.references filter)
      refine ⟨_, h', bind_eq_ok.2 ⟨l, h₁, rfl, answered_ok (a := s.id) ?_⟩,
        .subscribed hu hbooks hlisteners htold huntold⟩
      unfold subscribe
      rw [act_bind (a := s) (g := h₂) rfl, act_bind (a := h₂) (g := h₂) rfl]
      exact (act_bind hr).trans rfl
  | removeListener id =>
    exact ⟨_, _, rfl, .unsubscribed (.refl _) rfl fun _ => rfl⟩
  | _ => cases hu

end Run

namespace Hub

variable {h h' : Hub E} {command : Command E}

/-- Every listener knows the services that its filter accepts. -/
structure Abreast (h : Hub E) : Prop extends Attended h where
  rising : h.registry.Rising
  complete : ∀ s ∈ h.registry.subscriptions, ∀ l, s.target = .observer l →
    h.registry.references s.filter ⊆ replica (h.history l.tag)

/-- No listener knows a service that its filter does not accept. -/
def Unmisled (h : Hub E) : Prop :=
  ∀ s ∈ h.registry.subscriptions, ∀ l, s.target = .observer l →
    replica (h.history l.tag) ⊆ h.registry.references s.filter

/-- The listeners stay abreast if nothing comes and they are told nothing. -/
theorem Abreast.of_same (ha : h.Abreast) (hattended : h'.Attended)
    (hservices : h'.registry.services = h.registry.services)
    (hsubs : h'.registry.subscriptions ⊆ h.registry.subscriptions)
    (htold : ∀ tag, h'.history tag = h.history tag) {p : Prop} :
    h'.Abreast ∧ (p → h.Unmisled → h'.Unmisled) := by
  have hreferences : h'.registry.references = h.registry.references := by
    funext filter
    rw [Registry.references, hservices]
    rfl
  refine ⟨⟨hattended, ?_, fun s hs l hl => ?_⟩, fun _ hknown s hs l hl => ?_⟩
  · rw [Registry.Rising, hservices]
    exact ha.rising
  · rw [hreferences, htold]
    exact ha.complete s (hsubs hs) l hl
  · rw [hreferences, htold]
    exact hknown s (hsubs hs) l hl

/-! ## What the listeners know after a use -/

/-- What a listener knows after an event. -/
theorem Reports.replica_eq {wants : ServiceFilter → Bool} {event : ServiceEvent}
    (hh : Reports wants event h h') {s : Subscription E} (hs : s ∈ h.registry.subscriptions)
    {l : Attached E} (hl : s.target = .observer l) : replica (h'.history l.tag) =
      if wants s.filter then event.revise (replica (h.history l.tag))
      else replica (h.history l.tag) := by
  rw [hh.told s hs l hl]
  cases wants s.filter <;> rfl

/-- A service is put into the registry, and each listener enters it if its filter accepts it, or
else may strike it out. -/
structure Puts (t : ServiceReference) (strikes : ServiceFilter → Bool) (h h' : Hub E) : Prop where
  services : h'.registry.services = (h.registry.put t).services
  subscriptions : h'.registry.subscriptions = h.registry.subscriptions
  told : ∀ s ∈ h.registry.subscriptions, ∀ l, s.target = .observer l →
    replica (h'.history l.tag) =
      if s.filter.accepts t.properties then
        (ServiceEvent.modified t).revise (replica (h.history l.tag))
      else if strikes s.filter then
        (ServiceEvent.unregistering t).revise (replica (h.history l.tag))
      else replica (h.history l.tag)

namespace Puts

variable {t : ServiceReference} {strikes : ServiceFilter → Bool}

theorem complete (hh : Puts t strikes h h') (ha : h.Abreast) :
    ∀ s ∈ h'.registry.subscriptions, ∀ l, s.target = .observer l →
      h'.registry.references s.filter ⊆ replica (h'.history l.tag) := by
  intro s hs l hl x hx
  rw [hh.subscriptions] at hs
  rw [Registry.references, hh.services] at hx
  have hknown := rising_replica (h.history l.tag)
  rw [hh.told s hs l hl]
  rcases ha.rising.mem_references_put.1 hx with ⟨haccepts, rfl⟩ | ⟨hold, hne⟩
  · rw [if_pos haccepts]
    exact (mem_revise_iff hknown).2 (.inl ⟨rfl, rfl⟩)
  · have hold := ha.complete s hs l hl hold
    split
    · exact (mem_revise_iff hknown).2 (.inr ⟨hold, hne⟩)
    · split
      · exact (mem_revise_iff hknown).2 (.inr ⟨hold, hne⟩)
      · exact hold

theorem unmisled (hh : Puts t strikes h h') (hr : h.registry.Rising) (hu : h.Unmisled)
    (hsilent : ∀ filter : ServiceFilter, filter.accepts t.properties = false →
      strikes filter = false → ∀ x ∈ h.registry.references filter, x.id ≠ t.id) :
    h'.Unmisled := by
  intro s hs l hl x hx
  rw [hh.subscriptions] at hs
  rw [Registry.references, hh.services]
  have hknown := rising_replica (h.history l.tag)
  refine hr.mem_references_put.2 ?_
  rw [hh.told s hs l hl] at hx
  cases haccepts : s.filter.accepts t.properties with
  | true =>
    rw [haccepts, if_pos rfl] at hx
    rcases (mem_revise_iff hknown).1 hx with ⟨-, rfl⟩ | ⟨hx, hne⟩
    · exact .inl ⟨rfl, rfl⟩
    · exact .inr ⟨hu s hs l hl hx, hne⟩
  | false =>
    rw [haccepts, if_neg Bool.false_ne_true] at hx
    cases hstrikes : strikes s.filter with
    | true =>
      rw [hstrikes, if_pos rfl] at hx
      rcases (mem_revise_iff hknown).1 hx with ⟨hin, -⟩ | ⟨hx, hne⟩
      · cases hin
      · exact .inr ⟨hu s hs l hl hx, hne⟩
    | false =>
      -- the listener hears nothing, so it must not have known the service
      rw [hstrikes, if_neg Bool.false_ne_true] at hx
      have hx := hu s hs l hl hx
      exact .inr ⟨hx, hsilent s.filter haccepts hstrikes x hx⟩

end Puts

/-- A service is taken away, and those who know it strike it out. -/
theorem abreast_of_unregistered (ha : h.Abreast) {id : UInt64} {r : ServiceReference}
    (hf : h.registry.get? id = some r)
    (hh : Reports (·.accepts r.properties) (.unregistering r)
      { h with registry := h.registry.remove id } h') :
    h'.Abreast ∧ (h.Unmisled → h'.Unmisled) := by
  have hservices : h'.registry.services = (h.registry.remove id).services := hh.books.services
  have hsubs : h'.registry.subscriptions = h.registry.subscriptions := hh.books.subscriptions
  have htold {s : Subscription E} (hs : s ∈ h.registry.subscriptions) {l : Attached E}
      (hl : s.target = .observer l) :=
    hh.replica_eq (h := { h with registry := h.registry.remove id }) hs hl
  obtain rfl := Roster.key_of_find? hf
  refine ⟨⟨hh.attended (ha.of_books rfl), ?_, fun s hs l hl x hx => ?_⟩,
    fun hknown s hs l hl x hx => ?_⟩
  · rw [Registry.Rising, hservices]
    exact ha.rising.remove
  · rw [hsubs] at hs
    rw [Registry.references, hservices] at hx
    obtain ⟨hold, hne⟩ := Registry.mem_references_remove.1 hx
    have hold := ha.complete s hs l hl hold
    rw [htold hs hl]
    split
    · exact (mem_revise_iff (rising_replica _)).2 (.inr ⟨hold, hne⟩)
    · exact hold
  · rw [hsubs] at hs
    rw [Registry.references, hservices]
    refine Registry.mem_references_remove.2 ?_
    rw [htold hs hl] at hx
    cases haccepts : s.filter.accepts r.properties with
    | true =>
      rw [haccepts, if_pos rfl] at hx
      rcases (mem_revise_iff (rising_replica _)).1 hx with ⟨hin, -⟩ | ⟨hx, hne⟩
      · cases hin
      · exact ⟨hknown s hs l hl hx, hne⟩
    | false =>
      rw [haccepts, if_neg Bool.false_ne_true] at hx
      have hx := hknown s hs l hl hx
      refine ⟨hx, fun hid => ?_⟩
      -- a service that the listener knows is accepted, and this one is not
      obtain ⟨hx, hx'⟩ := Registry.mem_references.1 hx
      have hfound := ha.rising.get?_of_mem hx
      rw [hid, hf] at hfound
      obtain rfl := Option.some.inj hfound
      rw [haccepts] at hx'
      cases hx'

/-- A listener that subscribes knows what matches, and the others hear nothing. -/
theorem abreast_of_subscribed (ha : h.Abreast) (hattended : h'.Attended) {l₀ : Attached E}
    (hkey : l₀.key = h.listeners) {filter : ServiceFilter}
    (books : (h.registry.subscribe filter (.observer l₀)).2.SameBooks h'.registry)
    (told : h'.history l₀.tag = ((h.registry.references filter).map fun r =>
      .event (.registered r)).reverse ++ h.history l₀.tag)
    (untold : ∀ tag : ListenerTag, tag.key ≠ h.listeners → h'.history tag = h.history tag) :
    h'.Abreast ∧ (h.Unmisled → h'.Unmisled) := by
  have hreferences : h'.registry.references = h.registry.references := by
    funext filter
    rw [Registry.references, books.services]
    rfl
  -- who subscribed was told of the services that match, and the others of nothing
  have hcases : ∀ s ∈ h'.registry.subscriptions, ∀ l, s.target = .observer l →
      (∀ x, x ∈ replica (h'.history l.tag) ↔ x ∈ h.registry.references s.filter) ∨
        s ∈ h.registry.subscriptions ∧ h'.history l.tag = h.history l.tag := by
    intro s hs l hl
    rw [books.subscriptions] at hs
    rcases Roster.mem_insert hs with rfl | hs
    · left
      intro x
      rw [← Target.observer.inj hl, told, ha.unheard _ (Nat.le_of_eq hkey.symm), List.append_nil]
      exact mem_replica_of_registered (ha.rising.filter _)
    · obtain ⟨m, hm, -, hlt⟩ := ha.observed s hs
      obtain rfl : l = m := Target.observer.inj (hl.symm.trans hm)
      exact .inr ⟨hs, untold l.tag (Nat.ne_of_lt hlt)⟩
  refine ⟨⟨hattended, ?_, fun s hs l hl x hx => ?_⟩, fun hknown s hs l hl x hx => ?_⟩
  · rw [Registry.Rising, books.services]
    exact ha.rising
  · rw [hreferences] at hx
    rcases hcases s hs l hl with hnew | ⟨hs, hsame⟩
    · exact (hnew x).2 hx
    · rw [hsame]
      exact ha.complete s hs l hl hx
  · rw [hreferences]
    rcases hcases s hs l hl with hnew | ⟨hs, hsame⟩
    · exact (hnew x).1 hx
    · rw [hsame] at hx
      exact hknown s hs l hl hx

namespace Uses

theorem puts_of_registered {properties : Properties} {r : ServiceReference}
    (hr : r = .new h.registry.nextService properties)
    (hh : Reports (·.accepts r.properties) (.registered r)
      { h with registry := (h.registry.add properties).2 } h') :
    Puts r (fun _ => false) h h' where
  services := by
    rw [hh.books.services, hr]
    rfl
  subscriptions := hh.books.subscriptions
  told s hs l hl := hh.replica_eq (h := { h with registry := (h.registry.add properties).2 }) hs hl

theorem puts_of_modified {old r : ServiceReference} {h₁ : Hub E}
    (hh₁ : Reports (·.accepts r.properties) (.modified r)
      { h with registry := h.registry.put r } h₁)
    (hh : Reports (fun filter => !filter.accepts r.properties && filter.accepts old.properties)
      ⟨.modifiedEndmatch, r⟩ h₁ h') : Puts r (·.accepts old.properties) h h' where
  services := hh.books.services.trans hh₁.books.services
  subscriptions := hh.books.subscriptions.trans hh₁.books.subscriptions
  told s hs l hl := by
    have htold₁ := hh₁.replica_eq (h := { h with registry := h.registry.put r }) hs hl
    have htold := hh.replica_eq (hh₁.books.subscriptions ▸ hs) hl
    rw [htold, htold₁]
    cases haccepts : s.filter.accepts r.properties with
    | true => rfl
    | false => cases s.filter.accepts old.properties <;> rfl

theorem attended (hu : h.Uses command h') (ha : h.Attended) : h'.Attended := by
  have hsame : h'.registry.subscriptions.Sublist h.registry.subscriptions →
      h'.listeners = h.listeners → (∀ tag, h'.history tag = h.history tag) → h'.Attended :=
    fun hsubs hlisteners htold =>
      ⟨fun s hs => hlisteners ▸ ha.observed s (hsubs.subset hs), ha.apart.sublist hsubs,
        fun tag htag => (htold tag).trans (ha.unheard tag (hlisteners ▸ htag))⟩
  cases hu with
  | registered hr hh => exact hh.attended (ha.of_books rfl)
  | modified hf hr hh₁ hh => exact hh.attended (hh₁.attended (ha.of_books rfl))
  | unregistered hf hh => exact hh.attended (ha.of_books rfl)
  | unsubscribed books listeners told =>
    refine hsame ?_ listeners told
    rw [books.subscriptions]
    exact List.filter_sublist
  | refused hc books listeners told =>
    exact hsame (books.subscriptions ▸ List.Sublist.refl _) listeners told
  | @subscribed home text listener filter h' hq books listeners told untold =>
    have hold : ∀ s ∈ h.registry.subscriptions, ∀ l, s.target = .observer l →
        l.key < h.listeners := fun s hs l hl => by
      obtain ⟨m, hm, -, hlt⟩ := ha.observed s hs
      rwa [Target.observer.inj (hl.symm.trans hm)]
    refine ⟨fun s hs => ?_, ?_, fun tag htag => ?_⟩
    · rw [books.subscriptions] at hs
      rw [listeners]
      rcases Roster.mem_insert hs with rfl | hs
      · exact ⟨_, rfl, hq, Nat.lt_succ_self _⟩
      · obtain ⟨m, hm, hmq, hlt⟩ := ha.observed s hs
        exact ⟨m, hm, hmq, Nat.lt_succ_of_lt hlt⟩
    · rw [books.subscriptions]
      refine Roster.pairwise_insert (fun _ _ hst => symm hst) ha.apart fun s hs l m hl hm => ?_
      rw [← Target.observer.inj hl]
      exact (Nat.ne_of_lt (hold s hs m hm)).symm
    · rw [listeners] at htag
      rw [untold tag (by omega)]
      exact ha.unheard tag (by omega)

/-- **A use.** After it the listeners know what matches, and nothing else unless a number is given
out that is in use. -/
theorem abreast (hu : h.Uses command h') (ha : h.Abreast) : h'.Abreast ∧
    ((command.isRegister = true → ∀ s ∈ h.registry.services, s.id ≠ h.registry.nextService) →
      h.Unmisled → h'.Unmisled) := by
  have hattended := hu.attended ha.toAttended
  cases hu with
  | @registered r properties h' hr hh =>
    have hputs := puts_of_registered hr hh
    refine ⟨⟨hattended, ?_, hputs.complete ha⟩, fun hfresh hknown =>
      hputs.unmisled ha.rising hknown fun filter _ _ x hx => ?_⟩
    · rw [Registry.Rising, hputs.services]
      exact ha.rising.put
    · rw [hr]
      exact hfresh rfl x (Registry.mem_references.1 hx).1
  | @modified id properties old r h₁ h' hf hr hh₁ hh =>
    have hputs := puts_of_modified hh₁ hh
    refine ⟨⟨hattended, ?_, hputs.complete ha⟩, fun _ hknown =>
      hputs.unmisled ha.rising hknown fun filter _ hstrikes x hx hid => ?_⟩
    · rw [Registry.Rising, hputs.services]
      exact ha.rising.put
    · -- the service had its old properties
      obtain ⟨hx, haccepts⟩ := Registry.mem_references.1 hx
      have hfound := ha.rising.get?_of_mem hx
      rw [hid, hr, ServiceReference.id_new, hf] at hfound
      obtain rfl := Option.some.inj hfound
      rw [haccepts] at hstrikes
      cases hstrikes
  | unregistered hf hh =>
    have hrest := abreast_of_unregistered ha hf hh
    exact ⟨hrest.1, fun _ => hrest.2⟩
  | subscribed hq books listeners told untold =>
    have hrest := abreast_of_subscribed ha hattended rfl books told untold
    exact ⟨hrest.1, fun _ => hrest.2⟩
  | unsubscribed books listeners told =>
    exact ha.of_same hattended books.services
      (books.subscriptions ▸ List.filter_sublist.subset) told
  | refused hc books listeners told =>
    exact ha.of_same hattended books.services (books.subscriptions ▸ List.Subset.refl _) told

/-- The numbers that were given out, after a use. -/
theorem issued (hu : h.Uses command h') {n : Nat} (hi : h.registry.Issued n)
    (hn : n + (if command.isRegister = true then 1 else 0) < 2 ^ 64) :
    h'.registry.Issued (n + if command.isRegister = true then 1 else 0) := by
  have hbooks : ∀ {m : Nat} {r : Registry E}, r.SameBooks h'.registry → r.Issued m →
      h'.registry.Issued m := fun hs hm =>
    ⟨hs.nextService.trans hm.next, hs.services ▸ hm.bound⟩
  cases hu with
  | registered hr hh => exact hbooks hh.books (hi.add hn _)
  | modified hf hr hh₁ hh =>
    subst hr
    exact hbooks (hh₁.books.trans hh.books) (hi.put hf)
  | unregistered hf hh => exact hbooks hh.books hi.remove
  | subscribed hq books => exact hbooks books ⟨hi.next, hi.bound⟩
  | unsubscribed books => exact hbooks books ⟨hi.next, hi.bound⟩
  | refused hc books =>
    rw [if_neg (by rw [hc]; exact Bool.false_ne_true)]
    exact hbooks books hi

/-- What comes of a use is not changed by the note that it ended. -/
theorem ended (hu : h.Uses command h') (census : Census) :
    h.Uses command (h'.record (.ended census)) := by
  cases hu with
  | registered hr hh => exact .registered hr ⟨hh.books, hh.listeners, hh.told, hh.unheard⟩
  | modified hf hr hh₁ hh =>
    exact .modified hf hr hh₁ ⟨hh.books, hh.listeners, hh.told, hh.unheard⟩
  | unregistered hf hh => exact .unregistered hf ⟨hh.books, hh.listeners, hh.told, hh.unheard⟩
  | subscribed hq books listeners told untold => exact .subscribed hq books listeners told untold
  | unsubscribed books listeners told => exact .unsubscribed books listeners told
  | refused hc books listeners told => exact .refused hc books listeners told

end Uses

/-- **Along the uses.** Every use of the registry reaches a result. The listeners stay abreast, and
they know nothing else as long as the numbers of services do not run out. -/
theorem uses_total [ServiceEntry E] {calls : List (Command E)}
    (hcalls : ∀ command ∈ calls, command.IsRegistryUse) (ha : h.Abreast) (depth : Nat) :
    ∃ h', h.Reaches (depth + 1) calls h' ∧ h'.Abreast ∧
      ∀ n, h.registry.Issued n → n + calls.countP Command.isRegister < 2 ^ 64 →
        h.Unmisled → h'.Unmisled := by
  induction calls generalizing h with
  | nil => exact ⟨h, reaches_nil.2 rfl, ha, fun _ _ _ hknown => hknown⟩
  | cons command calls ih =>
    obtain ⟨answer, g, hr, huse⟩ := Run.execute_quiet (Run.run depth) ha.toAttended
      (hcalls command List.mem_cons_self)
    have huse := huse.ended g.census
    obtain ⟨ha₁, hknown₁⟩ := huse.abreast ha
    obtain ⟨h', hreach, ha', hknown'⟩ :=
      ih (fun other hmem => hcalls other (List.mem_cons_of_mem _ hmem)) ha₁
    refine ⟨h', reaches_cons.2 ⟨answer, _, run_ok hr, hreach⟩, ha', fun n hi hn hknown => ?_⟩
    rw [List.countP_cons] at hn
    refine hknown' _ (huse.issued hi (by omega)) (by omega) (hknown₁ (fun hregister => ?_) hknown)
    -- the number of the new service is not in use
    rw [if_pos hregister] at hn
    exact hi.next_notMem (by omega)

theorem registry_ofPlans (plans : List (Plan E)) : (ofPlans plans).registry = {} := by
  refine ofPlans_induction (I := fun h => h.registry = {}) plans rfl fun h plan _ hh => ?_
  rcases addCollection_eq h plan with ⟨k, -, hadd⟩ | hadd
  · rw [hadd]
    exact hh
  · rw [hadd]
    exact hh

/-- Nobody is subscribed in a hub in which nothing happened yet. -/
theorem abreast_ofPlans (plans : List (Plan E)) : (ofPlans plans).Abreast := by
  have hnobody : ∀ s ∈ (ofPlans plans).registry.subscriptions, False := fun s hs => by
    rw [registry_ofPlans] at hs
    exact List.not_mem_nil hs
  refine ⟨⟨fun s hs => (hnobody s hs).elim, ?_, fun tag _ => told_ofPlans plans _⟩, ?_,
    fun s hs => (hnobody s hs).elim⟩
  · rw [registry_ofPlans]
    exact .nil
  · rw [registry_ofPlans]
    exact .nil

end Hub

/-- **The stream of events says what matches.** Beside the collections of any plans, none of them
started, let the registry be called in any way to register, change and unregister services and to
add and remove quiet listeners. Every call reaches a result. Whoever is subscribed after the calls
is a listener, and it knows from the events that it was told each service that its filter accepts,
as the registry has it and as the last event said that entered it; and it knows no others if the
numbers of services did not run out. -/
theorem stream_exact [ServiceEntry E] (plans : List (Plan E)) {calls : List (Command E)}
    (hcalls : ∀ command ∈ calls, command.IsRegistryUse) (depth : Nat) :
    ∃ h, (Hub.ofPlans plans).Reaches (depth + 1) calls h ∧
      ∀ s ∈ h.registry.subscriptions, ∃ l, s.target = .observer l ∧
        (∀ r ∈ h.registry.references s.filter, r ∈ replica (h.history l.tag) ∧
          lastSeen? r.id (h.history l.tag) = some r) ∧
        (calls.countP Command.isRegister < 2 ^ 64 →
          replica (h.history l.tag) = h.registry.references s.filter) := by
  obtain ⟨h, hr, ha, hknown⟩ := Hub.uses_total hcalls (Hub.abreast_ofPlans plans) depth
  refine ⟨h, hr, fun s hs => ?_⟩
  obtain ⟨l, hl, -, -⟩ := ha.observed s hs
  refine ⟨l, hl, fun r hmem => ?_, fun hn => ?_⟩
  · have hknows := ha.complete s hs l hl hmem
    exact ⟨hknows, lastSeen?_of_mem_replica hknows⟩
  · refine Registry.replica_eq ha.rising (ha.complete s hs l hl) (hknown 0 ?_ ?_ ?_ s hs l hl)
    · rw [Hub.registry_ofPlans]
      exact ⟨rfl, fun s hs => absurd hs List.not_mem_nil⟩
    · rwa [Nat.zero_add]
    · rw [Hub.Unmisled, Hub.registry_ofPlans]
      exact fun s hs => absurd hs List.not_mem_nil

/-- A listener for English is told of a service that is there, of one that is translated into
English, and of the first one when it is translated into French. -/
theorem stream_exact_translated :
    let calls : List (Command Entry) := [.register (.spoken "en"),
      .addListener 0 "(lang=en)" (.mk "scribe" .silent fun _ _ => .silent),
      .register (.spoken "fr"), .setProperties 2 (.spoken "en"), .setProperties 1 (.spoken "fr")]
    (∀ command ∈ calls, command.IsRegistryUse) ∧ calls.countP Command.isRegister < 2 ^ 64 ∧
    ∃ h, (Hub.ofPlans []).Reaches 1 calls h ∧
      h.registry.subscriptions.map Subscription.id = [0] ∧
      (h.history ⟨0, 0, "scribe", .silent⟩).map Callback.name =
        ["modifiedEndmatch", "modified", "registered"] ∧
      ∀ s ∈ h.registry.subscriptions, ∃ l, s.target = .observer l ∧
        replica (h.history l.tag) = h.registry.references s.filter := by
  intro calls
  have hquiet : Listener.IsQuiet (.mk "scribe" .silent fun _ _ => .silent : Listener Entry) :=
    ⟨fun _ _ => rfl, fun _ _ _ => nofun⟩
  have hcalls : ∀ command ∈ calls, command.IsRegistryUse := by
    simp [calls, Command.IsRegistryUse, hquiet]
  have hroom : calls.countP Command.isRegister < 2 ^ 64 :=
    Nat.lt_of_le_of_lt List.countP_le_length (by simp [calls])
  obtain ⟨h, hr, hall⟩ := stream_exact [] hcalls 0
  obtain ⟨⟨answers, g⟩, hrun, hseen⟩ := Run.exists_of_map_eq_ok
    (f := fun p : List Answer × Hub Entry => (p.2.registry.subscriptions.map Subscription.id,
      (p.2.history ⟨0, 0, "scribe", .silent⟩).map Callback.name))
    (show ((Hub.ofPlans []).runAll 1 calls).map _ =
      .ok (([0] : List UInt64), ["modifiedEndmatch", "modified", "registered"]) by decide +kernel)
  obtain rfl := hr.unique ⟨answers, hrun⟩
  obtain ⟨hsubs, hnames⟩ := Prod.mk.inj hseen
  refine ⟨hcalls, hroom, h, hr, hsubs, hnames, fun s hs => ?_⟩
  obtain ⟨l, hl, -, hexact⟩ := hall s hs
  exact ⟨l, hl, hexact hroom⟩

end LiveServices
