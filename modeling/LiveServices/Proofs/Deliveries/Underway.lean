import LiveServices.Proofs.Deliveries.Rounds

/-!
# Commands underway

While a command is carried out, the listeners that are told of something give commands of their
own, and while these are carried out, listeners are told again. A command is underway in another
one if it is given somewhere on this way (`Run.Underway`); the hub that it finds is the one in which
all the rounds that are not at their end wait.

If no listener panics, a command that is underway is carried out like one that was given first, and
nothing that it reports is lost (`Run.Underway.achieved`).
-/

namespace LiveServices

variable {E : Type} [ServiceEntry E]

namespace Run

/-! ## What is given on the way -/

section Frames

variable (nested : Nested E)

/-- A listener that gives commands one after the other gives this one, and this is the hub then. -/
inductive Given (l : Attached E) : List (Command E) → Hub E → Command E → Hub E → Prop where
  | here (command : Command E) (commands : List (Command E)) (h : Hub E) :
    Given l (command :: commands) h command h
  | later {command c : Command E} {commands : List (Command E)} {h h₁ g : Hub E} {answer : Answer}
    (hr : nested command h = .ok (answer, h₁))
    (hg : Given l commands (h₁.record (.commanded l.tag command.name answer)) c g) :
    Given l (command :: commands) h c g

/-- A listener that is told in a round gives this command, and this is the hub then. -/
inductive InRound : List (Subscription E × ServiceEvent) → Hub E → Command E → Hub E → Prop where
  | here {s : Subscription E} {event : ServiceEvent} {rest : List (Subscription E × ServiceEvent)}
    {h g : Hub E} {c : Command E} {l : Attached E} (htarget : s.target = .observer l)
    (hg : Given nested l
      (l.listener.respond ((h.report s.id event).history l.tag) (.event event)).commands
      ((h.report s.id event).calling l (.event event)) c g) :
    InRound ((s, event) :: rest) h c g
  | later {s : Subscription E} {event : ServiceEvent} {rest : List (Subscription E × ServiceEvent)}
    {h h₁ g : Hub E} {c : Command E} (hr : (deliver nested s event).run h = .ok (.ok (), h₁))
    (hg : InRound rest h₁ c g) : InRound ((s, event) :: rest) h c g

/-- A command makes this round, and this is the hub at its beginning. -/
inductive Opens (h : Hub E) :
    Command E → List (Subscription E × ServiceEvent) → Hub E → Prop where
  | registered (properties : Properties) :
    Opens h (.register properties)
      (h.registry.audience (.registered (.new h.registry.nextService properties)) fun filter =>
        filter.accepts (ServiceReference.new h.registry.nextService properties).properties)
      { h with registry := (h.registry.add properties).2 }
  | modified {id : UInt64} {old : ServiceReference} (hf : h.registry.get? id = some old)
    (properties : Properties) :
    Opens h (.setProperties id properties)
      (h.registry.audience (.modified (.new id properties)) fun filter =>
        filter.accepts (ServiceReference.new id properties).properties)
      { h with registry := h.registry.put (.new id properties) }
  | unmatched {id : UInt64} {old : ServiceReference} (hf : h.registry.get? id = some old)
    (properties : Properties) {g : Hub E}
    (hr : (deliverAll nested (.modified (.new id properties)) fun filter =>
        filter.accepts (ServiceReference.new id properties).properties).run
      { h with registry := h.registry.put (.new id properties) } = .ok (.ok (), g)) :
    Opens h (.setProperties id properties)
      (g.registry.audience ⟨.modifiedEndmatch, .new id properties⟩ fun filter =>
        !filter.accepts (ServiceReference.new id properties).properties &&
          filter.accepts old.properties) g
  | unregistered {id : UInt64} {service : ServiceReference}
    (hf : h.registry.get? id = some service) :
    Opens h (.unregister id)
      (h.registry.audience (.unregistering service) fun filter =>
        filter.accepts service.properties)
      { h with registry := h.registry.remove id }
  | subscribed {text : String} {filter : ServiceFilter}
    (hparse : ServiceFilter.parse text = .ok filter) (home : Nat) (l : Listener E) :
    Opens h (.addListener home text l)
      (h.registry.welcome filter (.observer ⟨h.listeners, home, l⟩))
      { h with
        listeners := h.listeners + 1
        registry := (h.registry.subscribe filter (.observer ⟨h.listeners, home, l⟩)).2 }

end Frames

/-- While a command is carried out, at some depth another one is given, and this is the hub then. -/
inductive Underway : Nat → Command E → Hub E → Nat → Command E → Hub E → Prop where
  | self (depth : Nat) (command : Command E) (h : Hub E) : Underway depth command h depth command h
  | deeper {depth depth' : Nat} {command c c' : Command E} {h g₀ g g' : Hub E}
    {l : List (Subscription E × ServiceEvent)} (ho : Opens (run depth) h command l g₀)
    (hi : InRound (run depth) l g₀ c g) (hu : Underway depth c g depth' c' g') :
    Underway (depth + 1) command h depth' c' g'

/-! ## Nothing is lost -/

/-- A command that does not panic is given to a hub, and carried out; what it reported is not lost
afterwards. -/
structure Achieved (nested : Nested E) (c : Command E) (g h' : Hub E) : Prop where
  command : c.IsPeaceful
  hub : g.IsPeaceful
  reached : ∃ answer g', nested c g = .ok (answer, g') ∧ g'.reports <:+ h'.reports

variable {nested : Nested E} {c : Command E} {g h h' h'' : Hub E}

omit [ServiceEntry E] in
theorem Achieved.mono (hr : Achieved nested c g h') (hs : h'.reports <:+ h''.reports) :
    Achieved nested c g h'' where
  command := hr.command
  hub := hr.hub
  reached := by
    obtain ⟨answer, g', hrun, hsuffix⟩ := hr.reached
    exact ⟨answer, g', hrun, hsuffix.trans hs⟩

omit [ServiceEntry E] in
/-- A command that a listener gives is carried out. -/
theorem Given.achieved (hn : Obliging nested) {l : Attached E} {commands : List (Command E)}
    (hg : Given nested l commands h c g) (hc : ∀ command ∈ commands, command.IsPeaceful)
    (hp : h.IsPeaceful) {finish f : Finish}
    (hr : give nested (noting l) finish commands h = .ok (f, h')) : Achieved nested c g h' := by
  induction hg with
  | here command commands h =>
    obtain ⟨answer, h₁, hone, hs₁, hrest⟩ := give_cons_ok hn (hc command List.mem_cons_self) hp hr
    obtain ⟨-, hs⟩ := give_honors hn (fun other hmem => hc other (List.mem_cons_of_mem _ hmem))
      (hs₁.peaceful hp) hrest
    exact ⟨hc command List.mem_cons_self, hp, answer, h₁, hone, hs.suffix⟩
  | later hone hg ih =>
    obtain ⟨answer, h₁, hone', hs₁, hrest⟩ := give_cons_ok hn (hc _ List.mem_cons_self) hp hr
    obtain ⟨rfl, rfl⟩ := Prod.mk.inj (Except.ok.inj (hone.symm.trans hone'))
    exact ih (fun other hmem => hc other (List.mem_cons_of_mem _ hmem)) (hs₁.peaceful hp) hrest

/-- A command that is given in a round is carried out. -/
theorem InRound.achieved (hn : Obliging nested) {l : List (Subscription E × ServiceEvent)}
    (hi : InRound nested l h c g) (hl : ∀ p ∈ l, p.1.IsPeaceful) (hp : h.IsPeaceful)
    {result : Except Trouble Unit} (hr : (round nested l).run h = .ok (result, h')) :
    Achieved nested c g h' := by
  induction hi with
  | @here s event rest h g c l htarget hg =>
    obtain ⟨first, h₁, hfirst, hrest⟩ := act_bind_ok hr
    obtain ⟨rfl, hs₁⟩ := deliver_honors hn (hl _ List.mem_cons_self) hp hfirst
    obtain ⟨-, hs⟩ := round_honors hn (fun q hq => hl q (List.mem_cons_of_mem _ hq))
      (hs₁.peaceful hp) (hrest () rfl)
    -- the command is given in the call by which the report is made
    obtain ⟨finish, hcall, -⟩ := deliver_ok htarget hfirst
    obtain ⟨l', htarget', hpeaceful⟩ := hl _ List.mem_cons_self
    obtain rfl : l = l' := Target.observer.inj (htarget.symm.trans htarget')
    rw [call_eq] at hcall
    have hp₁ : ((h.report s.id event).calling l (.event event)).IsPeaceful :=
      hp.of_subscriptions rfl
    exact (hg.achieved hn (hpeaceful.commands _ _) hp₁ hcall).mono hs.suffix
  | later hone hg ih =>
    obtain ⟨first, h₁, hfirst, hrest⟩ := act_bind_ok hr
    obtain ⟨rfl, rfl⟩ := Prod.mk.inj (Except.ok.inj (hone.symm.trans hfirst))
    obtain ⟨-, hs₁⟩ := deliver_honors hn (hl _ List.mem_cons_self) hp hfirst
    exact ih (fun q hq => hl q (List.mem_cons_of_mem _ hq)) (hs₁.peaceful hp) (hrest () rfl)

/-- A round that a command makes is carried through. -/
theorem Opens.exists_round (hn : Obliging nested) {command : Command E}
    {l : List (Subscription E × ServiceEvent)} (ho : Opens nested h command l g)
    (hc : command.IsPeaceful) (hp : h.IsPeaceful) {answer : Answer}
    (hr : execute nested command h = .ok (answer, h')) :
    (∀ p ∈ l, p.1.IsPeaceful) ∧ g.IsPeaceful ∧
      ∃ result g', (round nested l).run g = .ok (result, g') ∧ g'.reports <:+ h'.reports := by
  cases ho with
  | registered properties =>
    have hp₁ : ({ h with registry := (h.registry.add properties).2 } : Hub E).IsPeaceful :=
      hp.of_subscriptions rfl
    obtain ⟨_, hregister⟩ := run_of_answered hr
    rw [register_eq] at hregister
    obtain ⟨told, h₁, htold, hdone⟩ := act_bind_ok hregister
    obtain ⟨rfl, -⟩ := deliverAll_honors hn hp₁ htold
    obtain ⟨-, rfl⟩ := pure_eq_ok.1 (hdone () rfl)
    exact ⟨hp.audience, hp₁, _, _, (deliverAll_eq _ _).symm.trans htold, List.suffix_rfl⟩
  | @modified id old hf properties =>
    have hp₁ : ({ h with registry := h.registry.put (.new id properties) } : Hub E).IsPeaceful :=
      hp.of_subscriptions rfl
    obtain ⟨_, hset⟩ := run_of_answered hr
    obtain ⟨-, h₁, hfirst, -, -, hs₂⟩ := setProperties_ok hn hf hp hset
    exact ⟨hp.audience, hp₁, _, _, (deliverAll_eq _ _).symm.trans hfirst, hs₂.suffix⟩
  | @unmatched id old hf properties g hg =>
    have hp₁ : ({ h with registry := h.registry.put (.new id properties) } : Hub E).IsPeaceful :=
      hp.of_subscriptions rfl
    obtain ⟨_, hset⟩ := run_of_answered hr
    obtain ⟨-, h₁, hfirst, hs₁, hsecond, -⟩ := setProperties_ok hn hf hp hset
    obtain ⟨-, rfl⟩ := Prod.mk.inj (Except.ok.inj (hfirst.symm.trans hg))
    have hp₂ := hs₁.peaceful hp₁
    exact ⟨hp₂.audience, hp₂, _, _, (deliverAll_eq _ _).symm.trans hsecond, List.suffix_rfl⟩
  | @unregistered id service hf =>
    have hp₁ : ({ h with registry := h.registry.remove id } : Hub E).IsPeaceful :=
      hp.of_subscriptions rfl
    obtain ⟨_, hunregister⟩ := run_of_answered hr
    rw [unregister_eq hf, deliverAll_eq] at hunregister
    exact ⟨hp.audience, hp₁, _, _, hunregister, List.suffix_rfl⟩
  | @subscribed text filter hparse home l =>
    have hl : l.IsPeaceful := hc.listener
    have hp₁ : ({ h with listeners := h.listeners + 1 } : Hub E).IsPeaceful :=
      hp.of_subscriptions rfl
    have hp₂ := hp₁.subscribe filter (l := ⟨h.listeners, home, l⟩) hl
    have hmembers := Registry.isPeaceful_welcome (r := h.registry) filter
      (l := ⟨h.listeners, home, l⟩) hl
    rw [addListener_eq hparse] at hr
    obtain ⟨_, hsubscribe⟩ := run_of_answered hr
    rw [subscribe_eq] at hsubscribe
    obtain ⟨told, h₁, htold, hdone⟩ := act_bind_ok hsubscribe
    obtain ⟨rfl, -⟩ := round_honors hn hmembers hp₂ htold
    obtain ⟨-, rfl⟩ := pure_eq_ok.1 (hdone () rfl)
    exact ⟨hmembers, hp₂, _, _, htold, List.suffix_rfl⟩

/-- **Underway.** A command that is given at any depth is carried out. -/
theorem Underway.achieved {depth depth' : Nat} {command : Command E}
    (hu : Underway depth command h depth' c g) (hc : command.IsPeaceful) (hp : h.IsPeaceful)
    {answer : Answer} (hr : run depth command h = .ok (answer, h')) :
    Achieved (run depth') c g h' := by
  induction hu generalizing answer h' with
  | self depth command h => exact ⟨hc, hp, answer, h', hr, List.suffix_rfl⟩
  | deeper ho hi _ ih =>
    obtain ⟨answer', h₁, hexecute, hend⟩ := bind_eq_ok.1 hr
    obtain ⟨-, rfl⟩ : answer' = answer ∧ h₁.record (.ended h₁.census) = h' :=
      Prod.mk.inj (Except.ok.inj hend)
    obtain ⟨hl, hp₀, _, g₁, hround, hs⟩ := ho.exists_round (obliging_run _) hc hp hexecute
    have hgiven := (hi.achieved (obliging_run _) hl hp₀ hround).mono hs
    obtain ⟨_, g₂, hrun, hsuffix⟩ := hgiven.reached
    exact (ih hgiven.command hgiven.hub hrun).mono hsuffix

end Run

end LiveServices
