import LiveServices.Json.Reader
import LiveServices.Proofs.References.Genuine
import LiveServices.Script

/-!
# Which references carry their identity

References come from three sources: `ServiceReference.new`, a registry, and documents. Those of the
first two always find their identity under `service.id`; whatever was done before, and however the
properties that they were made with spell that key or fill it. A document may leave it out or say
something else, and the reader does not mind. `ServiceReference.identity_carried` says all three.
-/

namespace LiveServices

variable {E : Type}

/-- A registry hands out a reference: it returns it from a registration or a change of properties,
finds or lists it when it is asked, or tells someone of it by an event. -/
inductive Hub.HandsOut [ServiceEntry E] (h : Hub E) : ServiceReference → Prop
  | registered {nested : Nested E} {properties : Properties} {r : ServiceReference} {h' : Hub E}
    (hr : (Run.register nested properties).run h = .ok (.ok r, h')) : HandsOut h r
  | modified {nested : Nested E} {id : UInt64} {properties : Properties} {r : ServiceReference}
    {h' : Hub E} (hr : (Run.setProperties nested id properties).run h = .ok (.ok r, h')) :
    HandsOut h r
  | found {id : UInt64} {r : ServiceReference} (hr : h.registry.get? id = some r) : HandsOut h r
  | listed {filter : ServiceFilter} {r : ServiceReference} (hr : r ∈ h.registry.references filter) :
    HandsOut h r
  | told {e : ServiceEvent} (he : e ∈ h.events) : HandsOut h e.reference

namespace Run

variable [ServiceEntry E] {nested : Nested E} {h h' : Hub E} {r : ServiceReference}

omit [ServiceEntry E] in
/-- A sequence with a result has it from its last part. -/
theorem act_bind_reaches {x : Act E α} {f : α → Act E β} {b : β}
    (hr : (x >>= f).run h = .ok (.ok b, h')) : ∃ a h₁, (f a).run h₁ = .ok (.ok b, h') := by
  obtain ⟨a, h₁, -, hf⟩ := bind_eq_ok.1 hr
  cases a with
  | ok a => exact ⟨a, h₁, hf⟩
  | error t => cases hf

/-- A registration returns the reference that it made. -/
theorem register_returns {properties : Properties}
    (hr : (register nested properties).run h = .ok (.ok r, h')) :
    r = .new h.registry.nextService properties := by
  rw [register_eq] at hr
  obtain ⟨_, _, hlast⟩ := act_bind_reaches hr
  cases hlast
  rfl

/-- A change of properties returns the reference that it made. -/
theorem setProperties_returns {id : UInt64} {properties : Properties}
    (hr : (setProperties nested id properties).run h = .ok (.ok r, h')) :
    r = .new id properties := by
  cases hf : h.registry.get? id with
  | none =>
    unfold setProperties at hr
    rw [act_bind (a := h) (g := h) rfl, hf] at hr
    cases hr
  | some old =>
    rw [setProperties_eq hf] at hr
    obtain ⟨_, _, hsecond⟩ := act_bind_reaches hr
    obtain ⟨_, _, hlast⟩ := act_bind_reaches hsecond
    cases hlast
    rfl

end Run

/-- A genuine hub hands out references that were made by `ServiceReference.new`. -/
theorem Hub.HandsOut.isMade [ServiceEntry E] {h : Hub E} {r : ServiceReference}
    (hh : h.HandsOut r) (hg : h.Genuine) : r.IsMade := by
  cases hh with
  | registered hr => exact Run.register_returns hr ▸ ServiceReference.isMade_new ..
  | modified hr => exact Run.setProperties_returns hr ▸ ServiceReference.isMade_new ..
  | found hr => exact hg.services r (List.mem_of_find?_eq_some hr)
  | listed hr => exact hg.services r (List.mem_filter.1 hr).1
  | told he => exact hg.events _ he

/-- **The identity among the properties.** -/
theorem ServiceReference.identity_carried [ServiceEntry E] :
    (∀ id properties, (new id properties).CarriesIdentity) ∧
    (∀ (plans : List (Plan E)) depth commands answers h r,
      (Hub.ofPlans plans).runAll depth commands = .ok (answers, h) → h.HandsOut r →
        r.CarriesIdentity) ∧
    (∀ j r, ofJson? j = some r → (r.CarriesIdentity ↔ States j)) ∧
    (∀ j e, ServiceEvent.ofJson? j = some e →
      (e.reference.CarriesIdentity ↔ ServiceEvent.States j)) :=
  ⟨carriesIdentity_new, fun _ _ _ _ _ _ hr hh => (hh.isMade (Hub.genuine_runAll hr)).carriesIdentity,
    fun _ _ => carriesIdentity_iff_states, fun _ _ => ServiceEvent.carriesIdentity_iff_states⟩

/-- A service is registered with properties that write its identity in another case and give it
another value, and documents write it in another case. -/
theorem ServiceReference.identity_carried_recased :
    let properties : Properties := .ofList [("SERVICE.ID", .text "one"), ("service.id", .long 7)]
    let document : Json := .object [("id", .integer 1),
      ("properties", .object [("Service.Id", .integer 1)])]
    let announcement : Json := .object [("kind", .text "modified"), ("reference", document)]
    (∃ answers h r, (Hub.ofPlans ([] : List (Plan Entry))).runAll 1 [.register properties] =
      .ok (answers, h) ∧ h.registry.get? 1 = some r ∧ r.CarriesIdentity) ∧
    (∃ r, ofJson? document = some r ∧ States document) ∧
    ∃ e, ServiceEvent.ofJson? announcement = some e ∧ ServiceEvent.States announcement := by
  intro properties document announcement
  obtain ⟨-, hhub, hreference, hevent⟩ := identity_carried (E := Entry)
  refine ⟨?_, ?_, ?_⟩
  · obtain ⟨⟨answers, h⟩, hrun, hseen⟩ := Run.exists_of_map_eq_ok
      (f := fun p : List Answer × Hub Entry => (p.2.registry.get? 1).isSome)
      (show ((Hub.ofPlans []).runAll 1 [.register properties]).map _ = .ok true by decide +kernel)
    obtain ⟨r, hr⟩ := Option.isSome_iff_exists.1 hseen
    exact ⟨answers, h, r, hrun, hr, hhub [] 1 _ answers h r hrun (.found hr)⟩
  · let r : ServiceReference := ⟨1, .ofList [("Service.Id", .long 1)]⟩
    have hread : ofJson? document = some r := rfl
    exact ⟨r, hread, (hreference document r hread).1 (by decide +kernel)⟩
  · let e : ServiceEvent := ⟨.modified, 1, .ofList [("Service.Id", .long 1)]⟩
    have hread : ServiceEvent.ofJson? announcement = some e := rfl
    exact ⟨e, hread, (hevent announcement e hread).1 (by decide +kernel)⟩

/-- A document of a reference whose properties are empty is read, and no identity is found among
the properties. -/
theorem ServiceReference.identity_omitted : ∃ r,
    (Json.read? "\x7b\"id\":1,\"properties\":\x7b\x7d\x7d").bind ofJson? = some r ∧ r.id = 1 ∧
      r.property serviceIdKey = none ∧ ¬ r.CarriesIdentity := by
  obtain ⟨r, hr, hseen⟩ := Option.map_eq_some_iff.1
    (show ((Json.read? "\x7b\"id\":1,\"properties\":\x7b\x7d\x7d").bind ofJson?).map
      (fun r => (r.id, r.property serviceIdKey)) = some (1, none) by decide +kernel)
  obtain ⟨hid, hnone⟩ := Prod.mk.inj hseen
  refine ⟨r, hr, hid, hnone, fun hcarries => ?_⟩
  rw [CarriesIdentity, hnone] at hcarries
  cases hcarries

end LiveServices
