import LiveServices.Reference
import LiveServices.Sequence.Live
import Mathlib.Data.Set.Defs

/-!
# Comparing by a property

Two references are compared by their values of a key: two values of one kind by value, two values
of different kinds by their texts. Each of the two ways is an order, and a reference without the
property comes last. Together they are not always one: as integers 9 is before 10, as texts `10` is
before `2` and `2` before `9`.

`ServiceReference.orderBy_preorder_iff` says when they are. Every comparison is reversed when its
sides are, and a comparison with itself is equal. It is transitive on a set of references exactly
if no value stands, by its text, between two integers or two lists of the set whose texts stand the
other way round than they do (`PropertyValue.Straddled`).
-/

namespace LiveServices

namespace PropertyValue

/-- Whether two values are compared as integers or as lists. All others are compared as their
texts are. -/
def native : PropertyValue → PropertyValue → Bool
  | long _, long _ | list _, list _ => true
  | _, _ => false

/-- Integers are compared as integers, and lists as lists. -/
theorem native_iff {x y : PropertyValue} :
    native x y = true ↔
      (∃ a b, x = long a ∧ y = long b) ∨ (∃ a b, x = list a ∧ y = list b) := by
  cases x <;> cases y <;> simp [native]

/-- Whether two values are of one such kind does not depend on which of them is asked. -/
theorem native_comm (x y : PropertyValue) : native x y = native y x := by
  cases x <;> cases y <;> rfl

/-- Values that are compared natively are so with the same values. -/
theorem native_congr {x y : PropertyValue} (h : native x y = true) (z : PropertyValue) :
    native x z = native y z := by
  obtain ⟨a, b, rfl, rfl⟩ | ⟨a, b, rfl, rfl⟩ := native_iff.1 h <;> cases z <;> rfl

@[simp] theorem order_long (a b : Int64) : (long a).order (long b) = compare a b := rfl

@[simp] theorem order_list (a b : List String) : (list a).order (list b) = compare a b := rfl

/-- Truth values and texts are in the order of their texts, as values of different kinds are. -/
theorem order_of_not_native {x y : PropertyValue} (h : native x y = false) :
    x.order y = compare x.display y.display := by
  cases x with
  | bool a =>
    cases y with
    | bool b => cases a <;> cases b <;> decide +kernel
    | long | text | list => rfl
  | long a =>
    cases y with
    | long b => cases h
    | bool | text | list => rfl
  | text a => cases y <;> rfl
  | list a =>
    cases y with
    | list b => cases h
    | bool | long | text => rfl

/-- A comparison is reversed when its sides change places. -/
theorem order_swap (x y : PropertyValue) : y.order x = (x.order y).swap := by
  cases h : native x y with
  | true =>
    obtain ⟨a, b, rfl, rfl⟩ | ⟨a, b, rfl, rfl⟩ := native_iff.1 h
    · exact Std.OrientedOrd.eq_swap (a := b) (b := a)
    · exact Std.OrientedOrd.eq_swap (a := b) (b := a)
  | false =>
    rw [order_of_not_native h, order_of_not_native (native_comm x y ▸ h)]
    exact Std.OrientedOrd.eq_swap

/-- A value compares equal to itself. -/
theorem order_self (x : PropertyValue) : x.order x = .eq := by
  have h := order_swap x x
  cases hx : x.order x with
  | eq => rfl
  | lt | gt => rw [hx] at h; cases h

theorem lt_of_not_isLE {x y : PropertyValue} (h : (x.order y).isLE = false) : y.order x = .lt := by
  rw [order_swap]
  cases hxy : x.order y with
  | gt => rfl
  | lt | eq => rw [hxy] at h; cases h

/-- Among integers, and among lists, only equal values compare equal. -/
theorem eq_of_order_eq {x y : PropertyValue} (h : native x y = true) (heq : x.order y = .eq) :
    x = y := by
  obtain ⟨a, b, rfl, rfl⟩ | ⟨a, b, rfl, rfl⟩ := native_iff.1 h
  · exact congrArg long (Std.LawfulEqOrd.eq_of_compare heq)
  · exact congrArg list (Std.LawfulEqOrd.eq_of_compare heq)

theorem lt_of_isLE {x y : PropertyValue} (h : native x y = true) (hle : (x.order y).isLE = true)
    (hne : x ≠ y) : x.order y = .lt := by
  cases hxy : x.order y with
  | lt => rfl
  | eq => exact absurd (eq_of_order_eq h hxy) hne
  | gt => rw [hxy] at hle; cases hle

/-- Among integers, and among lists, the order is transitive. -/
theorem isLE_trans_of_native {x y z : PropertyValue} (hxy : native x y = true)
    (hyz : native y z = true) (h₁ : (x.order y).isLE = true) (h₂ : (y.order z).isLE = true) :
    (x.order z).isLE = true := by
  obtain ⟨a, b, rfl, rfl⟩ | ⟨a, b, rfl, rfl⟩ := native_iff.1 hxy
  · obtain ⟨_, c, hb, rfl⟩ | ⟨_, _, hb, -⟩ := native_iff.1 hyz
    · cases hb
      exact Std.TransOrd.isLE_trans h₁ h₂
    · cases hb
  · obtain ⟨_, _, hb, -⟩ | ⟨_, c, hb, rfl⟩ := native_iff.1 hyz
    · cases hb
    · cases hb
      exact Std.TransOrd.isLE_trans h₁ h₂

/-! ## What breaks the order -/

/-- A value that stands by its text between two integers, or two lists, whose texts do not stand
as they do. -/
structure Straddled (u v w : PropertyValue) : Prop where
  alike : native u v = true
  other : native u w = false
  before : u.order v = .lt
  lower : (compare v.display w.display).isLE = true
  upper : (compare w.display u.display).isLE = true

namespace Straddled

variable {u v w : PropertyValue}

theorem other' (h : Straddled u v w) : native v w = false :=
  native_congr h.alike w ▸ h.other

/-- Such a value closes a circle. -/
theorem circle (h : Straddled u v w) :
    (v.order w).isLE = true ∧ (w.order u).isLE = true ∧ (v.order u).isLE = false := by
  refine ⟨?_, ?_, ?_⟩
  · rw [order_of_not_native h.other']
    exact h.lower
  · rw [order_of_not_native (native_comm u w ▸ h.other)]
    exact h.upper
  · rw [order_swap u v, h.before]
    rfl

end Straddled

/-- Where a comparison by way of a third value fails, one of the three is straddled by the others. -/
theorem exists_straddled {x y z : PropertyValue} (hxy : (x.order y).isLE = true)
    (hyz : (y.order z).isLE = true) (hxz : (x.order z).isLE = false) :
    Straddled x y z ∨ Straddled y z x ∨ Straddled z x y := by
  have hzx : (z.order x).isLE = true := by
    rw [lt_of_not_isLE hxz]
    rfl
  cases hnxy : native x y with
  | true =>
    cases hnyz : native y z with
    | true =>
      rw [isLE_trans_of_native hnxy hnyz hxy hyz] at hxz
      cases hxz
    | false =>
      have hnxz : native x z = false := (native_congr hnxy z).trans hnyz
      have hne : x ≠ y := by
        rintro rfl
        rw [hyz] at hxz
        cases hxz
      rw [order_of_not_native hnyz] at hyz
      rw [order_of_not_native (native_comm x z ▸ hnxz)] at hzx
      exact .inl ⟨hnxy, hnxz, lt_of_isLE hnxy hxy hne, hyz, hzx⟩
  | false =>
    cases hnyz : native y z with
    | true =>
      have hnyx : native y x = false := native_comm x y ▸ hnxy
      have hnzx : native z x = false := (native_congr hnyz x).symm.trans hnyx
      have hne : y ≠ z := by
        rintro rfl
        rw [hxy] at hxz
        cases hxz
      rw [order_of_not_native hnxy] at hxy
      rw [order_of_not_native hnzx] at hzx
      exact .inr (.inl ⟨hnyz, hnyx, lt_of_isLE hnyz hyz hne, hzx, hxy⟩)
    | false =>
      rw [order_of_not_native hnxy] at hxy
      rw [order_of_not_native hnyz] at hyz
      cases hnxz : native x z with
      | true =>
        exact .inr (.inr ⟨native_comm x z ▸ hnxz, native_comm y z ▸ hnyz, lt_of_not_isLE hxz,
          hxy, hyz⟩)
      | false =>
        rw [order_of_not_native hnxz, Std.TransOrd.isLE_trans hxy hyz] at hxz
        cases hxz

end PropertyValue

namespace ServiceReference

/-- A reference compares equal to itself. -/
theorem orderBy_self (key : String) (a : ServiceReference) : orderBy key a a = .eq := by
  unfold orderBy
  cases a.property key with
  | none => rfl
  | some x => exact x.order_self

/-- The comparison of references by a key is reversed when its sides change places. -/
theorem orderBy_swap (key : String) (a b : ServiceReference) :
    orderBy key b a = (orderBy key a b).swap := by
  unfold orderBy
  cases a.property key <;> cases b.property key
  case some.some x y => exact x.order_swap y
  all_goals rfl

/-- References that both have the key are compared by the values there. -/
theorem orderBy_of_property {key : String} {a b : ServiceReference} {x y : PropertyValue}
    (ha : a.property key = some x) (hb : b.property key = some y) :
    orderBy key a b = x.order y := by
  rw [orderBy, ha, hb]

/-- References that lack the property never break the order. -/
theorem exists_property_of_not_trans {key : String} {a b c : ServiceReference}
    (hab : (orderBy key a b).isLE = true) (hbc : (orderBy key b c).isLE = true)
    (hac : (orderBy key a c).isLE = false) :
    ∃ x y z, a.property key = some x ∧ b.property key = some y ∧ c.property key = some z := by
  unfold orderBy at hab hbc hac
  cases ha : a.property key <;> cases hb : b.property key <;> cases hc : c.property key
  case some.some.some x y z => exact ⟨x, y, z, rfl, rfl, rfl⟩
  all_goals simp [ha, hb, hc] at hab hbc hac

/-- **Comparing by a property.** Every comparison is reversed with its sides and equal on one
reference. On a set of references it is transitive, and so a preorder, exactly if no value of the
set stands by its text between two integers or two lists of the set whose texts do not stand as
they do. -/
theorem orderBy_preorder_iff (key : String) :
    (∀ a, orderBy key a a = .eq) ∧
    (∀ a b, orderBy key b a = (orderBy key a b).swap) ∧
    ∀ S : Set ServiceReference,
      (∀ a ∈ S, ∀ b ∈ S, ∀ c ∈ S, orderBy key a b ≠ .gt → orderBy key b c ≠ .gt →
        orderBy key a c ≠ .gt) ↔
      ∀ a ∈ S, ∀ b ∈ S, ∀ c ∈ S, ∀ u v w, a.property key = some u → b.property key = some v →
        c.property key = some w → ¬ PropertyValue.Straddled u v w := by
  refine ⟨orderBy_self key, orderBy_swap key, fun S => ?_⟩
  simp only [← Ordering.isLE_iff_ne_gt]
  constructor
  · intro htrans a ha b hb c hc u v w hu hv hw hstraddled
    obtain ⟨hvw, hwu, hvu⟩ := hstraddled.circle
    rw [← orderBy_of_property hv hw] at hvw
    rw [← orderBy_of_property hw hu] at hwu
    rw [← orderBy_of_property hv hu, htrans b hb c hc a ha hvw hwu] at hvu
    cases hvu
  · intro hnone a ha b hb c hc hab hbc
    cases hac : (orderBy key a c).isLE with
    | true => rfl
    | false =>
      exfalso
      obtain ⟨x, y, z, hx, hy, hz⟩ := exists_property_of_not_trans hab hbc hac
      rw [orderBy_of_property hx hy] at hab
      rw [orderBy_of_property hy hz] at hbc
      rw [orderBy_of_property hx hz] at hac
      obtain h | h | h := PropertyValue.exists_straddled hab hbc hac
      · exact hnone a ha b hb c hc x y z hx hy hz h
      · exact hnone b hb c hc a ha y z x hy hz hx h
      · exact hnone c hc a ha b hb z x y hz hx hy h

/-- Ten is before `2` and `2` before nine. -/
theorem orderBy_not_trans :
    orderBy "k" (new 1 (.ofList [("k", .long 10)])) (new 2 (.ofList [("k", .text "2")])) = .lt ∧
    orderBy "k" (new 2 (.ofList [("k", .text "2")])) (new 3 (.ofList [("k", .long 9)])) = .lt ∧
    orderBy "k" (new 1 (.ofList [("k", .long 10)])) (new 3 (.ofList [("k", .long 9)])) = .gt := by
  decide +kernel

-- a sorted set of values then takes nine a second time
example :
    ([PropertyValue.long 9, .long 10, .text "2", .text "3", .long 9].foldl
      (fun s x => (s.append (.sortedSet PropertyValue.order) x).2) LiveSequence.empty).items =
      [.long 9, .long 10, .text "2", .text "3", .long 9] := by decide +kernel

end ServiceReference

end LiveServices
