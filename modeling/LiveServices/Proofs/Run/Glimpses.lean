import LiveServices.Proofs.Run.Steps

/-!
# What is seen at a call

A call shows its listener the hub as it is then: `Hub.sight` is what it shows, and `call_eq` says
that this is what the trace keeps of it. `Keeps.call_seen` and `Keeps.runRelease_seen` are the
combinators for laws about what is seen; those without it let a moment show anything.

`Throughout` is for properties of a trace that read it moment by moment, each between what came
before it and what came after it.
-/

namespace LiveServices

variable {E : Type} [ServiceEntry E]

/-- What a listener that watches this collection sees when it is told of something. -/
def Hub.sight (h : Hub E) (home : Nat) (callback : Callback E) : Glimpse where
  locks := (h.collection home).locks
  census := h.census
  size :=
    if (h.collection home).dropped then none
    else some ((h.collection home).check.map fun _ => (h.collection home).size)
  entry := (Run.entryOf? callback).map (ServiceEntry.view h.released)

/-- The hub in which a listener was called. -/
def Hub.calling (h : Hub E) (l : Attached E) (callback : Callback E) : Hub E :=
  h.record (.called l.tag callback (h.sight l.home callback))

omit [ServiceEntry E] in
/-- The hub in which the release of an entry began. -/
def Hub.letting (h : Hub E) (c serial : Nat) (service : UInt64) (announced : Bool) : Hub E :=
  { h.record (.releasing c serial service h.census announced) with
    released := serial :: h.released }

omit [ServiceEntry E] in
/-- The hub after a report was made, before anybody did anything about it. -/
def Hub.report (h : Hub E) (s : UInt64) (event : ServiceEvent) : Hub E :=
  ({ h with registry.delivered := h.registry.delivered + 1 } : Hub E).record (.delivered s event)

namespace Run

variable {nested : Nested E} {h : Hub E} {S : Hub E → Hub E → Prop}

/-- A call notes what its listener sees; then the listener gives its commands. -/
theorem call_eq (l : Attached E) (callback : Callback E) :
    call nested l callback h =
      give nested (fun command answer => record (.commanded l.tag command.name answer))
        (l.listener.respond (h.history l.tag) callback).finish
        (l.listener.respond (h.history l.tag) callback).commands (h.calling l callback) := rfl

omit [ServiceEntry E] in
/-- A release notes that it begins; then the action gives its commands. -/
theorem runRelease_eq (c serial : Nat) (service : UInt64) (release : Release E) :
    runRelease nested c serial service release h =
      give nested (fun _ _ => pure ()) release.response.finish release.response.commands
        (h.letting c serial service release.announced) := rfl

namespace Keeps

variable [Hub.Rule S]

/-- A call keeps what its beginning, with what is seen then, and the commands of the listener
keep. -/
theorem call_seen {l : Attached E} {callback : Callback E}
    (hn : ∀ history, ∀ command ∈ (l.listener.respond history callback).commands,
      Keeps S (nested command))
    (hc : ∀ h : Hub E, S h (h.calling l callback)) : Keeps S (Run.call nested l callback) := by
  intro h finish h' hr
  rw [call_eq] at hr
  have hnote (command : Command E) (answer : Answer) :
      Keeps S (Run.record (.commanded l.tag command.name answer)) := .note trivial rfl
  exact Hub.Rule.trans (hc h) (Keeps.give (hn _) hnote _ hr)

omit [ServiceEntry E] in
/-- A release keeps what its beginning and the commands of the action keep. -/
theorem runRelease_seen {release : Release E} {c serial : Nat} {service : UInt64}
    (hn : ∀ command ∈ release.response.commands, Keeps S (nested command)) {h h' : Hub E}
    {finish : Finish} (hb : S h (h.letting c serial service release.announced))
    (hr : Run.runRelease nested c serial service release h = .ok (finish, h')) : S h h' := by
  rw [runRelease_eq] at hr
  exact Hub.Rule.trans hb (Keeps.give hn (fun _ _ => .pure _) _ hr)

end Keeps

end Run

/-! ## Stretches of a trace -/

omit [ServiceEntry E]

/-- Each moment of a stretch of a trace, the latest first, has a property that looks at what came
after it in the stretch and at all that came before it. -/
def Throughout (P : List (Moment E) → Moment E → List (Moment E) → Prop)
    (past recent : List (Moment E)) : Prop :=
  ∀ late m early, recent = late ++ m :: early → P late m (early ++ past)

namespace Throughout

variable {P Q : List (Moment E) → Moment E → List (Moment E) → Prop}
  {past recent newer : List (Moment E)}

theorem nil : Throughout P past [] := by
  intro late m early heq
  cases late <;> cases heq

theorem singleton {m : Moment E} (hm : P [] m past) : Throughout P past [m] := by
  intro late m' early heq
  cases late with
  | nil =>
    cases heq
    exact hm
  | cons n late =>
    obtain ⟨-, hnil⟩ := List.cons.inj heq
    cases late <;> cases hnil

/-- A property that asks nothing of these moments. -/
theorem of_forall (hm : ∀ m ∈ recent, ∀ late early, P late m early) :
    Throughout P past recent := by
  rintro late m early rfl
  exact hm m (List.mem_append_right _ List.mem_cons_self) late _

theorem mono (hPQ : ∀ {late m early}, P late m early → Q late m early)
    (h : Throughout P past recent) : Throughout Q past recent :=
  fun late m early heq => hPQ (h late m early heq)

/-- A stretch after a stretch: what came later adds to what came after a moment. -/
theorem append (hlate : ∀ {late m early} newer, P late m early → P (newer ++ late) m early)
    (h : Throughout P past recent) (hnew : Throughout P (recent ++ past) newer) :
    Throughout P past (newer ++ recent) := by
  intro late m early heq
  rcases List.append_eq_append_iff.1 heq with ⟨rest, rfl, hrest⟩ | ⟨rest, hnewer, hrest⟩
  · exact hlate newer (h rest m early hrest)
  · cases rest with
    | nil =>
      -- the moment is the latest of the earlier stretch
      rw [List.append_nil] at hnewer
      subst hnewer
      exact (List.append_nil newer) ▸ hlate newer (h [] m early hrest.symm)
    | cons m' rest =>
      obtain ⟨rfl, rfl⟩ := List.cons.inj hrest
      show P late m ((rest ++ recent) ++ past)
      rw [List.append_assoc]
      exact hnew late m rest hnewer

end Throughout

end LiveServices
