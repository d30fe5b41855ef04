import LiveServices.Registry
import Mathlib.Algebra.Group.Nat.Defs

/-!
# The services that a filter accepts

A registry keeps its services in rising order of their numbers (`Registry.Rising`), so the
services that a filter accepts are determined by their numbers: `Registry.matching` lists them,
and two such lists are equal if the same numbers are in them.

Numbers have 64 bits. As long as fewer than 2 ^ 64 services were ever registered a number is new
when it is given out (`Registry.Issued`).
-/

namespace LiveServices.Registry

variable {E : Type} {r : Registry E} {s t : ServiceReference} {filter : ServiceFilter}
  {id x : UInt64} {n : Nat}

/-- The services stand in rising order of their numbers. -/
def Rising (r : Registry E) : Prop := r.services.Pairwise (·.id < ·.id)

/-- The numbers of the services that a filter accepts. -/
def matching (r : Registry E) (filter : ServiceFilter) : List UInt64 :=
  (r.references filter).map ServiceReference.id

theorem mem_matching : x ∈ r.matching filter ↔
    ∃ s ∈ r.services, filter.accepts s.properties = true ∧ s.id = x := by
  simp [matching, references, and_assoc]

/-- A service that is not there is not accepted. -/
theorem notMem_matching (hf : r.get? id = none) : id ∉ r.matching filter := by
  intro hmem
  obtain ⟨s, hs, -, hid⟩ := mem_matching.1 hmem
  exact List.find?_eq_none.1 hf s hs (beq_iff_eq.2 hid)

namespace Rising

theorem put (hr : r.Rising) : (r.put s).Rising := Roster.rising_insert hr

theorem remove (hr : r.Rising) : (r.remove id).Rising := hr.filter _

theorem matching (hr : r.Rising) (filter : ServiceFilter) :
    (r.matching filter).Pairwise (· < ·) :=
  List.pairwise_map.2 (hr.filter _)

/-- A service is found under its number. -/
theorem get?_of_mem (hr : r.Rising) (hs : s ∈ r.services) : r.get? s.id = some s :=
  Roster.find?_of_mem hr hs

/-- Whether a service is accepted depends on its properties. -/
theorem mem_matching_iff (hr : r.Rising) (hf : r.get? id = some s) :
    id ∈ r.matching filter ↔ filter.accepts s.properties = true := by
  rw [mem_matching]
  constructor
  · rintro ⟨s', hs', haccepts, rfl⟩
    rw [hr.get?_of_mem hs'] at hf
    exact Option.some.inj hf ▸ haccepts
  · intro haccepts
    exact ⟨s, List.mem_of_find?_eq_some hf, haccepts, Roster.key_of_find? hf⟩

/-- The services that are accepted when one is put into the registry. -/
theorem mem_matching_put (hr : r.Rising) : x ∈ (r.put t).matching filter ↔
    x = t.id ∧ filter.accepts t.properties = true ∨ x ∈ r.matching filter ∧ x ≠ t.id := by
  have hmem (s : ServiceReference) :
      s ∈ (r.put t).services ↔ s = t ∨ s ∈ r.services ∧ s.id ≠ t.id := Roster.mem_insert_iff hr
  rw [mem_matching, mem_matching]
  constructor
  · rintro ⟨s, hs, haccepts, rfl⟩
    rcases (hmem s).1 hs with rfl | ⟨hs, hne⟩
    · exact .inl ⟨rfl, haccepts⟩
    · exact .inr ⟨⟨s, hs, haccepts, rfl⟩, hne⟩
  · rintro (⟨rfl, haccepts⟩ | ⟨⟨s, hs, haccepts, rfl⟩, hne⟩)
    · exact ⟨t, (hmem t).2 (.inl rfl), haccepts, rfl⟩
    · exact ⟨s, (hmem s).2 (.inr ⟨hs, hne⟩), haccepts, rfl⟩

end Rising

/-- The services that are accepted when one is taken away. -/
theorem mem_matching_remove :
    x ∈ (r.remove id).matching filter ↔ x ∈ r.matching filter ∧ x ≠ id := by
  rw [mem_matching, mem_matching]
  constructor
  · rintro ⟨s, hs, haccepts, rfl⟩
    obtain ⟨hs, hne⟩ := List.mem_filter.1 hs
    exact ⟨⟨s, hs, haccepts, rfl⟩, bne_iff_ne.1 hne⟩
  · rintro ⟨⟨s, hs, haccepts, rfl⟩, hne⟩
    exact ⟨s, List.mem_filter.2 ⟨hs, bne_iff_ne.2 hne⟩, haccepts, rfl⟩

/-- Two rising lists of numbers are equal if the same numbers are in them. -/
theorem eq_of_rising {ids ids' : List UInt64} (h : ids.Pairwise (· < ·))
    (h' : ids'.Pairwise (· < ·)) (hmem : ∀ x, x ∈ ids ↔ x ∈ ids') : ids = ids' := by
  have hperm : ids.Perm ids' :=
    (List.perm_ext_iff_of_nodup (h.imp UInt64.ne_of_lt) (h'.imp UInt64.ne_of_lt)).2 hmem
  exact hperm.eq_of_pairwise (fun a b _ _ hab hba => absurd hba (UInt64.lt_asymm hab)) h h'

/-! ## Numbers -/

/-- The registry gave out the first numbers, this many. -/
structure Issued (n : Nat) (r : Registry E) : Prop where
  next : r.nextService = .ofNat (n + 1)
  bound : ∀ s ∈ r.services, s.id.toNat ≤ n

namespace Issued

theorem toNat_next (hi : r.Issued n) (hn : n + 1 < 2 ^ 64) : r.nextService.toNat = n + 1 := by
  rw [hi.next]
  exact UInt64.toNat_ofNat_of_lt hn

/-- The next number is new. -/
theorem next_notMem (hi : r.Issued n) (hn : n + 1 < 2 ^ 64) :
    ∀ s ∈ r.services, s.id ≠ r.nextService := by
  intro s hs heq
  have hle := hi.bound s hs
  rw [heq, hi.toNat_next hn] at hle
  omega

theorem add (hi : r.Issued n) (hn : n + 1 < 2 ^ 64) (properties : Properties) :
    (r.add properties).2.Issued (n + 1) where
  next := by
    show r.nextService + 1 = _
    rw [hi.next]
    simp
  bound s hs := by
    rcases Roster.mem_insert hs with rfl | hs
    · exact Nat.le_of_eq (hi.toNat_next hn)
    · exact Nat.le_succ_of_le (hi.bound s hs)

/-- A service that is there keeps its number. -/
theorem put (hi : r.Issued n) (hf : r.get? s.id = some t) : (r.put s).Issued n where
  next := hi.next
  bound s' hs := by
    rcases Roster.mem_insert hs with rfl | hs
    · have hle := hi.bound t (List.mem_of_find?_eq_some hf)
      rwa [Roster.key_of_find? hf] at hle
    · exact hi.bound s' hs

theorem remove (hi : r.Issued n) : (r.remove id).Issued n :=
  ⟨hi.next, fun s hs => hi.bound s (List.mem_filter.1 hs).1⟩

end Issued

end LiveServices.Registry
