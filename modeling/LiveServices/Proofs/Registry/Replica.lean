import LiveServices.Command
import LiveServices.Proofs.Registry.Matching
import Mathlib.Data.List.Induction

/-!
# Replicas

A listener that is told of the services that come, change and go can keep a copy of them, and
`replica` is that copy: an event that a service is registered or modified enters it, any other
event strikes it out. The last event about a service decides, so a copy has a service as the last
event that entered it said (`lastSeen?_of_mem_replica`).

A copy is complete if it has the services that a filter accepts, and it is then the list of these
services if it has no others (`Registry.replica_eq`). What an event does to the one has to agree
with what a call of the registry does to the other, which is said here for both
(`Registry.Rising.mem_references_put`, `Registry.mem_references_remove`, `mem_revise_iff`).
-/

namespace LiveServices

variable {E : Type}

/-- Whether an event of this kind says that a service is there and matches. -/
def EventKind.enters : EventKind → Bool
  | registered | modified => true
  | modifiedEndmatch | unregistering => false

/-- The services that are known after one more event. -/
def ServiceEvent.revise (e : ServiceEvent) (known : List ServiceReference) :
    List ServiceReference :=
  if e.kind.enters then Roster.insert ServiceReference.id e.reference known
  else Roster.erase ServiceReference.id e.reference.id known

/-- The services that are known from what a listener was told, the latest first. -/
def replica : List (Callback E) → List ServiceReference
  | [] => []
  | .event e :: told => e.revise (replica told)
  | _ :: told => replica told

/-- The reference that the last event carried which entered a service; the latest comes first. -/
def lastSeen? (id : UInt64) : List (Callback E) → Option ServiceReference
  | [] => none
  | .event e :: told =>
    if e.kind.enters && e.reference.id == id then some e.reference else lastSeen? id told
  | _ :: told => lastSeen? id told

section Copies

variable {e : ServiceEvent} {known : List ServiceReference} {s : ServiceReference}
  {told : List (Callback E)}

theorem rising_revise (e : ServiceEvent) (hk : known.Pairwise (·.id < ·.id)) :
    (e.revise known).Pairwise (·.id < ·.id) := by
  unfold ServiceEvent.revise
  split
  · exact Roster.rising_insert hk
  · exact hk.filter _

theorem mem_revise_iff (hk : known.Pairwise (·.id < ·.id)) : s ∈ e.revise known ↔
    e.kind.enters = true ∧ s = e.reference ∨ s ∈ known ∧ s.id ≠ e.reference.id := by
  unfold ServiceEvent.revise
  cases he : e.kind.enters with
  | true => simp [Roster.mem_insert_iff hk]
  | false => simp [Roster.erase]

theorem rising_replica (told : List (Callback E)) : (replica told).Pairwise (·.id < ·.id) := by
  induction told with
  | nil => exact .nil
  | cons callback told ih =>
    cases callback with
    | event e => exact rising_revise e ih
    | bind | unbind | satisfied | unsatisfied => exact ih

/-- A service is known as the last event said that entered it. -/
theorem lastSeen?_of_mem_replica (hs : s ∈ replica told) : lastSeen? s.id told = some s := by
  induction told with
  | nil => cases hs
  | cons callback told ih =>
    cases callback with
    | event e =>
      rw [lastSeen?]
      rcases (mem_revise_iff (rising_replica told)).1 hs with ⟨hin, rfl⟩ | ⟨hs, hne⟩
      · simp [hin]
      · rw [if_neg (by simp [hne.symm])]
        exact ih hs
    | bind | unbind | satisfied | unsatisfied => exact ih hs

/-- A listener that was told of nothing but these services, one after the other, knows them. -/
theorem mem_replica_of_registered {services : List ServiceReference}
    (hr : services.Pairwise (·.id < ·.id)) :
    s ∈ replica (E := E) (services.map fun r => .event (.registered r)).reverse ↔ s ∈ services := by
  induction services using List.reverseRecOn with
  | nil => simp [replica]
  | append_singleton services r ih =>
    obtain ⟨hfirst, -, hlast⟩ := List.pairwise_append.1 hr
    have hlast : ∀ a ∈ services, a.id ≠ r.id := fun a ha =>
      UInt64.ne_of_lt (hlast a ha r (List.mem_singleton.2 rfl))
    rw [List.map_append, List.reverse_append, List.map_singleton, List.reverse_singleton,
      List.singleton_append, replica]
    rw [mem_revise_iff (rising_replica _), ih hfirst, List.mem_append, List.mem_singleton]
    constructor
    · rintro (⟨-, rfl⟩ | ⟨hs, -⟩)
      · exact .inr rfl
      · exact .inl hs
    · rintro (hs | rfl)
      · exact .inr ⟨hs, hlast s hs⟩
      · exact .inl ⟨rfl, rfl⟩

end Copies

namespace Registry

variable {r : Registry E} {s t : ServiceReference} {filter : ServiceFilter} {id : UInt64}

theorem mem_references :
    s ∈ r.references filter ↔ s ∈ r.services ∧ filter.accepts s.properties = true :=
  List.mem_filter

/-- The services that a filter accepts when one is put into the registry. -/
theorem Rising.mem_references_put (hr : r.Rising) : s ∈ (r.put t).references filter ↔
    filter.accepts t.properties = true ∧ s = t ∨ s ∈ r.references filter ∧ s.id ≠ t.id := by
  have hput : s ∈ (r.put t).services ↔ s = t ∨ s ∈ r.services ∧ s.id ≠ t.id :=
    Roster.mem_insert_iff hr
  rw [mem_references, mem_references, hput]
  constructor
  · rintro ⟨rfl | ⟨hs, hne⟩, haccepts⟩
    · exact .inl ⟨haccepts, rfl⟩
    · exact .inr ⟨⟨hs, haccepts⟩, hne⟩
  · rintro (⟨haccepts, rfl⟩ | ⟨⟨hs, haccepts⟩, hne⟩)
    · exact ⟨.inl rfl, haccepts⟩
    · exact ⟨.inr ⟨hs, hne⟩, haccepts⟩

/-- The services that a filter accepts when one is taken away. -/
theorem mem_references_remove :
    s ∈ (r.remove id).references filter ↔ s ∈ r.references filter ∧ s.id ≠ id := by
  simp only [mem_references, remove, Roster.erase, List.mem_filter, bne_iff_ne]
  exact and_right_comm

/-- A copy that has the services that a filter accepts and no others is the list of them. -/
theorem replica_eq (hr : r.Rising) {told : List (Callback E)}
    (hcomplete : r.references filter ⊆ replica told)
    (hsound : replica told ⊆ r.references filter) : replica told = r.references filter := by
  have hrising : (r.references filter).Pairwise (·.id < ·.id) := hr.filter _
  have hcopy := rising_replica told
  have hne : ∀ {a b : ServiceReference}, a.id < b.id → a ≠ b := fun hlt heq =>
    UInt64.ne_of_lt hlt (congrArg _ heq)
  have hperm : (replica told).Perm (r.references filter) :=
    (List.perm_ext_iff_of_nodup (hcopy.imp hne) (hrising.imp hne)).2 fun s =>
      ⟨fun hs => hsound hs, fun hs => hcomplete hs⟩
  exact hperm.eq_of_pairwise (fun a b _ _ hab hba => absurd hba (UInt64.lt_asymm hab)) hcopy
    hrising

end Registry

end LiveServices
