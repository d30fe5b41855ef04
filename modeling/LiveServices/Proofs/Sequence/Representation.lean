import LiveServices.Proofs.Sequence.Places
import LiveServices.Proofs.Sequence.Traversal
import Mathlib.Data.List.Perm.Basic

/-!
# What a sequence holds

Whatever was appended and removed, a sequence holds the occurrences that are left of it, arranged
in the way of its mode: as they were inserted, or stably sorted. Which ones are left is said by a
ledger that is kept in the order of insertion and knows no places (`Mode.survivors`): an item that
clashes with one that is left is not entered, and a removal strikes out what stands at a position
of the arrangement or is the first there to equal an item.

The places come from a search that relies on the order that it keeps up itself. So the invariant,
`Mode.Represents`, ties the items to the ledger and to the order at once;
`Chronicle.represents_after` says that every call keeps it, and `items_represent` is what follows
for any number of calls. A sorted arrangement is determined by the order of its items and their age
(`Represents.items_eq`), so nothing has to be said about how it came about.
-/

namespace LiveServices

open LiveSequence (Call)

variable {α : Type}

namespace Mode

/-- The order of a sorted mode is a total preorder. -/
def IsPreordered : Mode α → Prop
  | list | set => True
  | sortedList order | sortedSet order => Std.TransCmp order

/-- Whether an item that is there keeps a new one out. -/
def clashes [BEq α] : Mode α → α → α → Bool
  | list, _, _ | sortedList _, _, _ => false
  | set, there, item => there == item
  | sortedSet order, there, item => order there item == .eq

/-- Whether an occurrence does not come after another one by rank. -/
def notAfter (order : α → α → Ordering) (a b : Occurrence α) : Bool := order a.item b.item != .gt

/-- Occurrences in the order of their insertion, arranged in the way of a mode. -/
def arranged (m : Mode α) (kept : List (Occurrence α)) : List (Occurrence α) :=
  match m with
  | list | set => kept
  | sortedList order | sortedSet order => kept.mergeSort (notAfter order)

/-- The occurrences without this one. -/
def without (kept : List (Occurrence α)) : Option (Occurrence α) → List (Occurrence α)
  | none => kept
  | some o => kept.filter (·.serial != o.serial)

/-- The occurrences that a call leaves, in the order of their insertion. -/
def remaining [BEq α] (m : Mode α) (kept : List (Occurrence α)) (number : Nat) :
    Call α → List (Occurrence α)
  | .append item =>
    if kept.any (m.clashes ·.item item) then kept else kept ++ [⟨number, item⟩]
  | .removeOne item => without kept ((m.arranged kept).find? (·.item == item))
  | .removeAt index => without kept (m.arranged kept)[index]?
  | .clear => []
  | .openCursor | .closeCursor _ | .next _ => kept

/-- The occurrences that are left after calls of which the first has this number. -/
def remainingAll [BEq α] (m : Mode α) (kept : List (Occurrence α)) (number : Nat) :
    List (Call α) → List (Occurrence α)
  | [] => kept
  | call :: calls => m.remainingAll (m.remaining kept number call) (number + 1) calls

/-- The occurrences that survive calls on an empty sequence, in the order of their insertion. -/
def survivors [BEq α] (m : Mode α) (calls : List (Call α)) : List (Occurrence α) :=
  m.remainingAll [] 0 calls

/-- The order of a mode among its occurrences: by rank if it is sorted, and then by age. -/
def Before (m : Mode α) (a b : Occurrence α) : Prop :=
  match m with
  | list | set => a.serial < b.serial
  | sortedList order | sortedSet order =>
    order a.item b.item = .lt ∨ order a.item b.item = .eq ∧ a.serial < b.serial

/-- Occurrences stand in the way of a mode: by age, by age without equal ones, by rank and among
those of one rank by age, or strictly by rank. -/
def Orderly [BEq α] (m : Mode α) (os : List (Occurrence α)) : Prop :=
  match m with
  | list => os.Pairwise fun a b => a.serial < b.serial
  | set => os.Pairwise fun a b =>
      a.serial < b.serial ∧ (a.item == b.item) = false ∧ (b.item == a.item) = false
  | sortedList order => os.Pairwise fun a b =>
      order a.item b.item = .lt ∨ order a.item b.item = .eq ∧ a.serial < b.serial
  | sortedSet order => os.Pairwise fun a b => order a.item b.item = .lt

/-- The items are those that are left, each where it belongs. -/
structure Represents [BEq α] (m : Mode α) (items kept : List (Occurrence α)) (number : Nat) :
    Prop where
  aged : kept.Pairwise fun a b => a.serial < b.serial
  fresh : ∀ o ∈ kept, o.serial < number
  perm : items.Perm kept
  ordered : items.Pairwise m.Before
  apart : items.Pairwise fun a b => m.clashes a.item b.item = false

/-! ## The order of a mode -/

section Order

variable {m : Mode α} {a b : Occurrence α}

/-- Of two occurrences at most one comes before the other. -/
theorem Before.asymm (hm : m.IsPreordered) (hab : m.Before a b) : ¬ m.Before b a := by
  have hsorted : ∀ order : α → α → Ordering, Std.TransCmp order →
      (order a.item b.item = .lt ∨ order a.item b.item = .eq ∧ a.serial < b.serial) →
      ¬ (order b.item a.item = .lt ∨ order b.item a.item = .eq ∧ b.serial < a.serial) := by
    intro order _ hab hba
    have hswap : order a.item b.item = (order b.item a.item).swap := Std.OrientedCmp.eq_swap
    rcases hba with hba | ⟨hba, hage⟩
    · simp [hswap, hba] at hab
    · simp only [hswap, hba, Ordering.swap_eq, reduceCtorEq, true_and, false_or] at hab
      omega
  cases m with
  | list => exact Nat.lt_asymm hab
  | set => exact Nat.lt_asymm hab
  | sortedList order => exact hsorted order hm hab
  | sortedSet order => exact hsorted order hm hab

section Sorting

variable {order : α → α → Ordering} [Std.TransCmp order]

theorem notAfter_iff {order : α → α → Ordering} {a b : Occurrence α} :
    notAfter order a b = true ↔ (order a.item b.item).isLE = true := by
  unfold notAfter
  cases order a.item b.item <;> simp

theorem notAfter_trans (a b c : Occurrence α) (hab : notAfter order a b = true)
    (hbc : notAfter order b c = true) : notAfter order a c = true :=
  notAfter_iff.2 (Std.TransCmp.isLE_trans (notAfter_iff.1 hab) (notAfter_iff.1 hbc))

theorem notAfter_total (a b : Occurrence α) :
    (notAfter order a b || notAfter order b a) = true := by
  have hswap : order b.item a.item = (order a.item b.item).swap := Std.OrientedCmp.eq_swap
  unfold notAfter
  rw [hswap]
  cases order a.item b.item <;> simp

/-- A sort leaves the occurrences of one rank as they were. -/
theorem filter_mergeSort (kept : List (Occurrence α)) (item : α) :
    (kept.mergeSort (notAfter order)).filter (fun o => order item o.item == .eq) =
      kept.filter fun o => order item o.item == .eq := by
  have hlevel : (kept.filter fun o => order item o.item == .eq).Pairwise
      fun a b => notAfter order a b = true := by
    refine List.pairwise_of_forall_mem_list fun a ha b hb => ?_
    have ha : order item a.item = .eq := by simpa using (List.mem_filter.1 ha).2
    have hb : order item b.item = .eq := by simpa using (List.mem_filter.1 hb).2
    have hab : order a.item b.item = .eq :=
      Std.TransCmp.eq_trans (Std.OrientedCmp.eq_symm ha) hb
    simp [notAfter, hab]
  have hsub := List.sublist_mergeSort notAfter_trans notAfter_total hlevel List.filter_sublist
  have hsub := hsub.filter fun o => order item o.item == .eq
  rw [List.filter_filter] at hsub
  simp only [Bool.and_self] at hsub
  exact (hsub.eq_of_length ((List.mergeSort_perm kept _).filter _).length_eq.symm).symm

/-- A sort keeps occurrences of one rank in the order of their age. -/
theorem pairwise_mergeSort {kept : List (Occurrence α)}
    (haged : kept.Pairwise fun a b => a.serial < b.serial) :
    (kept.mergeSort (notAfter order)).Pairwise fun a b =>
      order a.item b.item = .lt ∨ order a.item b.item = .eq ∧ a.serial < b.serial := by
  have hsorted : (kept.mergeSort (notAfter order)).Pairwise fun a b => notAfter order a b = true :=
    List.pairwise_mergeSort notAfter_trans notAfter_total kept
  refine List.pairwise_iff_forall_sublist.2 fun {a b} hab => ?_
  have hrank := notAfter_iff.1 (List.pairwise_iff_forall_sublist.1 hsorted hab)
  cases hcase : order a.item b.item with
  | lt => exact .inl rfl
  | gt => simp [hcase] at hrank
  | eq =>
    have hlevel := hab.filter fun o => order a.item o.item == .eq
    have hself : order a.item a.item = .eq := Std.ReflCmp.compare_self
    rw [filter_mergeSort] at hlevel
    simp only [List.filter_cons, hself, hcase, beq_self_eq_true, if_true, List.filter_nil] at hlevel
    have hage := List.pairwise_iff_forall_sublist.1 (haged.sublist List.filter_sublist) hlevel
    exact .inr ⟨rfl, hage⟩

end Sorting

/-- Kept occurrences are arranged in the order of the mode, and by age where that does not tell them
apart. -/
theorem ordered_arranged (hm : m.IsPreordered) {kept : List (Occurrence α)}
    (haged : kept.Pairwise fun a b => a.serial < b.serial) :
    (m.arranged kept).Pairwise m.Before := by
  cases m with
  | list => exact haged
  | set => exact haged
  | sortedList order =>
    have : Std.TransCmp order := hm
    exact pairwise_mergeSort haged
  | sortedSet order =>
    have : Std.TransCmp order := hm
    exact pairwise_mergeSort haged

/-- Nothing is lost or added when occurrences are arranged. -/
theorem perm_arranged (m : Mode α) (kept : List (Occurrence α)) :
    (m.arranged kept).Perm kept := by
  cases m with
  | list => exact .refl _
  | set => exact .refl _
  | sortedList order => exact List.mergeSort_perm ..
  | sortedSet order => exact List.mergeSort_perm ..

end Order

/-! ## The place of a new item -/

section Places

variable [BEq α] {m : Mode α} {items : List (Occurrence α)} {o : Occurrence α} {index : Nat}

/-- An index is the place of a new occurrence: nothing keeps it out, and it comes after what is
before the index and before the rest. -/
structure Fits (m : Mode α) (items : List (Occurrence α)) (o : Occurrence α) (index : Nat) :
    Prop where
  free : items.any (m.clashes ·.item o.item) = false
  before : ∀ x ∈ items.take index, m.Before x o
  after : ∀ x ∈ items.drop index, m.Before o x ∧ m.clashes o.item x.item = false

omit [BEq α] in
/-- Items in the order of their rank ascend on the way to any item. -/
theorem ascending {order : α → α → Ordering} [Std.TransCmp order]
    (hord : items.Pairwise fun a b =>
      order a.item b.item = .lt ∨ order a.item b.item = .eq ∧ a.serial < b.serial) (item : α) :
    Sequence.Ascending (fun x : Occurrence α => order x.item item) items := by
  refine hord.imp fun {a b} hab => ?_
  have hle : (order a.item b.item).isLE = true := by
    rcases hab with hlt | ⟨heq, -⟩
    · simp [hlt]
    · simp [heq]
  refine ⟨fun hb => Std.TransCmp.lt_of_isLE_of_lt hle hb, fun ha => ?_⟩
  rw [Std.OrientedCmp.gt_iff_lt] at ha ⊢
  exact Std.TransCmp.lt_of_lt_of_isLE ha hle

/-- An item is refused if and only if it clashes with one that is there. -/
theorem place?_eq_none_iff (hm : m.IsPreordered) (hord : items.Pairwise m.Before) :
    (m.comap Occurrence.item).place? items o = none ↔
      items.any (m.clashes ·.item o.item) = true := by
  cases m with
  | list => simp [comap, place?, clashes]
  | set =>
    show (if items.any (· == o) then none else some items.length) = none ↔ _
    have hset : items.any (set.clashes ·.item o.item) = items.any (· == o) := rfl
    rw [hset]
    cases items.any (· == o) <;> simp
  | sortedList order => simp [comap, place?, clashes]
  | sortedSet order =>
    have : Std.TransCmp order := hm
    have htaken := Sequence.search_taken_iff (ascending hord o.item)
    simp only [comap, place?, clashes, List.any_eq_true, beq_iff_eq, ← htaken]
    cases Sequence.search (fun x : Occurrence α => order x.item o.item) items with
    | taken index => simp
    | free index => simp

/-- A place that is found keeps the items in order. -/
theorem fits_of_place? (hm : m.IsPreordered) (hord : items.Pairwise m.Before)
    (hyoung : ∀ x ∈ items, x.serial < o.serial)
    (hp : (m.comap Occurrence.item).place? items o = some index) : m.Fits items o index := by
  have hfree : items.any (m.clashes ·.item o.item) = false := by
    rw [← Bool.not_eq_true, ← place?_eq_none_iff hm hord, hp]
    exact nofun
  cases m with
  | list =>
    obtain rfl : items.length = index := by simpa [comap, place?] using hp
    exact ⟨hfree, fun x hx => hyoung x (List.mem_of_mem_take hx), by simp⟩
  | set =>
    obtain rfl : items.length = index := by
      have hany : items.any (· == o) = false := hfree
      simpa [comap, place?, hany] using hp
    exact ⟨hfree, fun x hx => hyoung x (List.mem_of_mem_take hx), by simp⟩
  | sortedList order =>
    have : Std.TransCmp order := hm
    obtain rfl : Sequence.partitionPoint (fun x : Occurrence α => order x.item o.item != .gt)
        items = index := by simpa [comap, place?] using hp
    have hfirst : items.Pairwise fun a b =>
        (order b.item o.item != .gt) = true → (order a.item o.item != .gt) = true := by
      refine (ascending hord o.item).imp fun {a b} hab hb => ?_
      rw [bne_iff_ne] at hb ⊢
      exact mt hab.2 hb
    obtain ⟨hbefore, hafter⟩ := Sequence.partitionPoint_spec hfirst
    refine ⟨hfree, fun x hx => ?_, fun x hx => ⟨.inl ?_, rfl⟩⟩
    · have hrank := hbefore x hx
      cases hcase : order x.item o.item with
      | lt => exact .inl hcase
      | eq => exact .inr ⟨hcase, hyoung x (List.mem_of_mem_take hx)⟩
      | gt => simp [hcase] at hrank
    · rw [← Std.OrientedCmp.gt_iff_lt]
      simpa using hafter x hx
  | sortedSet order =>
    have : Std.TransCmp order := hm
    have hsuits := Sequence.suits_search (ascending hord o.item)
    simp only [comap, place?] at hp
    cases hs : Sequence.search (fun x : Occurrence α => order x.item o.item) items with
    | taken i => simp [hs] at hp
    | free i =>
      obtain rfl : i = index := by simpa [hs] using hp
      rw [hs] at hsuits
      have hafter : ∀ x ∈ items.drop i, order o.item x.item = .lt := fun x hx => by
        rw [← Std.OrientedCmp.gt_iff_lt]
        exact hsuits.2 x hx
      exact ⟨hfree, fun x hx => .inl (hsuits.1 x hx), fun x hx =>
        ⟨.inl (hafter x hx), by simp [clashes, hafter x hx]⟩⟩

end Places

/-! ## What a call keeps -/

/-- A relation in which a new element stands to all around it. -/
theorem pairwise_inserted {R : α → α → Prop} {l : List α} {index : Nat} {a : α} (h : l.Pairwise R)
    (hbefore : ∀ x ∈ l.take index, R x a) (hafter : ∀ x ∈ l.drop index, R a x) :
    (l.take index ++ a :: l.drop index).Pairwise R := by
  rw [← List.take_append_drop index l, List.pairwise_append] at h
  obtain ⟨htake, hdrop, hcross⟩ := h
  refine List.pairwise_append.2 ⟨htake, List.pairwise_cons.2 ⟨hafter, hdrop⟩, fun x hx y hy => ?_⟩
  rcases List.mem_cons.1 hy with rfl | hy
  · exact hbefore x hx
  · exact hcross x hx y hy

namespace Represents

variable [BEq α] {m : Mode α} {items kept : List (Occurrence α)} {number : Nat}

theorem nil : m.Represents [] [] number where
  aged := .nil
  fresh _ ho := absurd ho List.not_mem_nil
  perm := .nil
  ordered := .nil
  apart := .nil

/-- The items are the arrangement of those that are left. -/
theorem items_eq (hr : m.Represents items kept number) (hm : m.IsPreordered) :
    items = m.arranged kept :=
  (hr.perm.trans (m.perm_arranged kept).symm).eq_of_pairwise
    (fun _ _ _ _ hab hba => absurd hba (hab.asymm hm)) hr.ordered (ordered_arranged hm hr.aged)

/-- A call that adds nothing makes the items no different. -/
theorem later (hr : m.Represents items kept number) : m.Represents items kept (number + 1) where
  aged := hr.aged
  fresh o ho := Nat.lt_succ_of_lt (hr.fresh o ho)
  perm := hr.perm
  ordered := hr.ordered
  apart := hr.apart

/-- A new item at its place. -/
theorem insert (hr : m.Represents items kept number) {item : α} {index : Nat}
    (hf : m.Fits items ⟨number, item⟩ index) :
    m.Represents (items.take index ++ ⟨number, item⟩ :: items.drop index)
      (kept ++ [⟨number, item⟩]) (number + 1) where
  aged := by
    refine List.pairwise_append.2 ⟨hr.aged, List.pairwise_singleton .., fun a ha b hb => ?_⟩
    rw [List.mem_singleton.1 hb]
    exact hr.fresh a ha
  fresh o ho := by
    rcases List.mem_append.1 ho with ho | ho
    · exact Nat.lt_succ_of_lt (hr.fresh o ho)
    · rw [List.mem_singleton.1 ho]
      exact Nat.lt_succ_self number
  perm := by
    refine List.perm_middle.trans ?_
    rw [List.take_append_drop]
    exact (hr.perm.cons _).trans (List.perm_append_singleton _ _).symm
  ordered := pairwise_inserted hr.ordered hf.before fun x hx => (hf.after x hx).1
  apart := by
    refine pairwise_inserted hr.apart (fun x hx => ?_) fun x hx => (hf.after x hx).2
    exact Bool.eq_false_iff.2 (List.any_eq_false.1 hf.free x (List.mem_of_mem_take hx))

/-- An item is struck out of both. -/
theorem strike (hr : m.Represents items kept number) {index : Nat} {o : Occurrence α}
    (ho : items[index]? = some o) :
    m.Represents (items.eraseIdx index) (without kept (some o)) (number + 1) where
  aged := hr.aged.sublist List.filter_sublist
  fresh x hx := Nat.lt_succ_of_lt (hr.fresh x (List.mem_filter.1 hx).1)
  perm := by
    obtain ⟨hi, rfl⟩ := List.getElem?_eq_some_iff.1 ho
    have hcons : (items[index] :: items.eraseIdx index).Perm items :=
      List.getElem_cons_eraseIdx_perm hi
    -- no other occurrence has its serial
    have hother : ∀ x ∈ items.eraseIdx index, x.serial ≠ items[index].serial := by
      have hdistinct : (items[index] :: items.eraseIdx index).Pairwise
          fun a b => a.serial ≠ b.serial :=
        ((hcons.trans hr.perm).pairwise_iff fun h => h.symm).2 (hr.aged.imp Nat.ne_of_lt)
      exact fun x hx => ((List.pairwise_cons.1 hdistinct).1 x hx).symm
    have hrest := (hcons.trans hr.perm).filter fun x => x.serial != items[index].serial
    rw [List.filter_cons_of_neg (by simp), List.filter_eq_self.2 (by simpa using hother)] at hrest
    exact hrest
  ordered := hr.ordered.sublist (List.eraseIdx_sublist ..)
  apart := hr.apart.sublist (List.eraseIdx_sublist ..)

/-- Items that represent what was kept are in order. -/
theorem orderly [EquivBEq α] (hr : m.Represents items kept number) : m.Orderly items := by
  cases m with
  | list => exact hr.ordered
  | set =>
    refine (hr.ordered.and hr.apart).imp fun {a b} hab => ⟨hab.1, hab.2, ?_⟩
    rw [BEq.comm]
    exact hab.2
  | sortedList order => exact hr.ordered
  | sortedSet order =>
    refine (hr.ordered.and hr.apart).imp fun {a b} hab => ?_
    obtain ⟨hlt | ⟨heq, -⟩, hne⟩ := hab
    · exact hlt
    · simp [clashes, heq] at hne

end Represents

end Mode

namespace Chronicle

variable [BEq α] {m : Mode α} {h : Chronicle α} {kept : List (Occurrence α)}

/-- A call keeps the items and the ledger together. -/
theorem represents_after (hm : m.IsPreordered)
    (hr : m.Represents h.sequence.items kept h.calls) (call : Call α) :
    m.Represents (h.after m call).sequence.items (m.remaining kept h.calls call)
      (h.calls + 1) := by
  cases call with
  | append item =>
    have hany : kept.any (m.clashes ·.item item) =
        h.sequence.items.any (m.clashes ·.item item) := hr.perm.symm.any_eq
    cases hplace : (m.comap Occurrence.item).place? h.sequence.items ⟨h.calls, item⟩ with
    | none =>
      have hs : (h.after m (.append item)).sequence = h.sequence := by
        simp [Chronicle.after, Call.map, LiveSequence.answer, LiveSequence.append, hplace]
      have hclash := (Mode.place?_eq_none_iff hm hr.ordered).1 hplace
      rw [hs, Mode.remaining, if_pos (hany.trans hclash)]
      exact hr.later
    | some index =>
      have hs : (h.after m (.append item)).sequence =
          h.sequence.insertAt index ⟨h.calls, item⟩ := by
        simp [Chronicle.after, Call.map, LiveSequence.answer, LiveSequence.append, hplace]
      have hyoung : ∀ x ∈ h.sequence.items, x.serial < h.calls := fun x hx =>
        hr.fresh x (hr.perm.mem_iff.1 hx)
      have hfits := Mode.fits_of_place? hm hr.ordered hyoung hplace
      rw [hs, Mode.remaining, if_neg (by rw [hany, hfits.free]; exact Bool.false_ne_true)]
      exact hr.insert hfits
  | removeOne item =>
    -- occurrences are compared by their items
    have hfound : h.sequence.items.find? (fun o : Occurrence α => o.item == item) =
        (h.sequence.items.findIdx? (· == (⟨h.calls, item⟩ : Occurrence α))).bind
          (h.sequence.items[·]?) := List.find?_eq_bind_findIdx?_getElem?
    rw [Mode.remaining, ← hr.items_eq hm, hfound]
    cases hfind : h.sequence.items.findIdx? (· == (⟨h.calls, item⟩ : Occurrence α)) with
    | none =>
      have hs : (h.after m (.removeOne item)).sequence = h.sequence := by
        simp [Chronicle.after, Call.map, LiveSequence.answer, LiveSequence.removeOne, hfind]
      rw [hs]
      exact hr.later
    | some index =>
      have hs : (h.after m (.removeOne item)).sequence = h.sequence.eraseAt index := by
        simp [Chronicle.after, Call.map, LiveSequence.answer, LiveSequence.removeOne, hfind]
      obtain ⟨hi, -⟩ := List.findIdx?_eq_some_iff_getElem.1 hfind
      have hat := List.getElem?_eq_getElem hi
      rw [hs, Option.bind_some, hat]
      exact hr.strike hat
  | removeAt index =>
    cases hat : h.sequence.items[index]? with
    | none =>
      have hs : (h.after m (.removeAt index)).sequence = h.sequence := by
        simp [Chronicle.after, Call.map, LiveSequence.answer, LiveSequence.removeAt, hat]
      rw [hs, Mode.remaining, ← hr.items_eq hm, hat]
      exact hr.later
    | some o =>
      have hs : (h.after m (.removeAt index)).sequence = h.sequence.eraseAt index := by
        simp [Chronicle.after, Call.map, LiveSequence.answer, LiveSequence.removeAt, hat]
      rw [hs, Mode.remaining, ← hr.items_eq hm, hat]
      exact hr.strike hat
  | clear => exact .nil
  | openCursor => exact hr.later
  | closeCursor id => exact hr.later
  | next id =>
    have hs : (h.after m (.next id)).sequence.items = h.sequence.items :=
      LiveSequence.items_next h.sequence id
    rw [hs]
    exact hr.later

/-- After any calls the items represent what was kept through them. -/
theorem represents_afterAll (hm : m.IsPreordered)
    (hr : m.Represents h.sequence.items kept h.calls) (calls : List (Call α)) :
    m.Represents (h.afterAll m calls).sequence.items (m.remainingAll kept h.calls calls)
      (h.calls + calls.length) := by
  induction calls generalizing h kept with
  | nil => exact hr
  | cons call calls ih =>
    have hrest := ih (represents_after hm hr call)
    rw [show (h.after m call).calls = h.calls + 1 from rfl, Nat.add_right_comm] at hrest
    exact hrest

end Chronicle

/-- What a sequence holds. For a mode with a total preorder and all calls on an empty sequence, with
cursors or without: the items are the survivors, arranged in the way of the mode; the survivors
are in the order of their insertion, and the arrangement is by insertion, by insertion without
equal ones, by rank and then by insertion, or strictly by rank; an item is refused exactly if one
that is there clashes with it, and then it changes neither the items nor any cursor. -/
theorem items_represent [BEq α] [EquivBEq α] (m : Mode α) (hm : m.IsPreordered)
    (calls : List (Call α)) :
    let s := (LiveSequence.empty.answerAll m calls).2
    let kept := m.survivors calls
    s.items = (m.arranged kept).map (·.item) ∧
      (kept.Pairwise fun a b => a.serial < b.serial) ∧
      m.Orderly (m.arranged kept) ∧
      ∀ item, ((s.append m item).1 = false ↔ ∃ x ∈ s.items, m.clashes x item = true) ∧
        ((s.append m item).1 = false → (s.append m item).2 = s) := by
  intro s kept
  generalize hh : Chronicle.empty.afterAll m calls = h
  have hr : m.Represents h.sequence.items kept (0 + calls.length) :=
    hh ▸ Chronicle.represents_afterAll hm .nil calls
  have harranged : h.sequence.items = m.arranged kept := hr.items_eq hm
  have hitems : s.items = h.sequence.items.map (·.item) := by
    have herased := congrArg Prod.snd (Chronicle.erased_afterAll m .empty calls)
    rw [hh] at herased
    exact congrArg LiveSequence.items herased.symm
  refine ⟨by rw [hitems, harranged], hr.aged, harranged ▸ hr.orderly, fun item =>
    ⟨?_, LiveSequence.append_of_refused⟩⟩
  have hplace : m.place? s.items item = none ↔ ∃ x ∈ s.items, m.clashes x item = true := by
    have hnone := Mode.place?_eq_none_iff (o := Occurrence.mk 0 item) hm hr.ordered
    rw [Mode.place?_comap (f := Occurrence.item) (fun _ _ => rfl), ← hitems] at hnone
    simpa [hitems] using hnone
  rw [← hplace]
  unfold LiveSequence.append
  cases m.place? s.items item <;> simp

/-- Numbers sorted by their tens: those of one ten stay in the order of their insertion, also when
an equal number was removed before them. -/
theorem items_represent_tens :
    let m : Mode Nat := .sortedList fun a b => compare (a / 10) (b / 10)
    let calls : List (Call Nat) :=
      [.append 21, .append 12, .append 25, .append 11, .removeOne 21, .append 21, .removeAt 0]
    m.IsPreordered ∧ m.survivors calls = [⟨2, 25⟩, ⟨3, 11⟩, ⟨5, 21⟩] ∧
      ((m.arranged (m.survivors calls)).map (·.item) = [11, 25, 21] ∧
      m.Orderly (m.arranged (m.survivors calls))) := by
  intro m calls
  have hm : Std.TransCmp fun a b : Nat => compare (a / 10) (b / 10) :=
    inferInstanceAs (Std.TransCmp (compareOn (· / 10)))
  obtain ⟨hitems, -, horderly, -⟩ := items_represent m hm calls
  have hkept : m.survivors calls = [⟨2, 25⟩, ⟨3, 11⟩, ⟨5, 21⟩] := by
    simp [m, calls, Mode.survivors, Mode.remainingAll, Mode.remaining, Mode.clashes, Mode.arranged,
      Mode.without, List.mergeSort, Mode.notAfter, Nat.compare_eq_ite_lt]
  exact ⟨hm, hkept, hitems ▸ by decide +kernel, horderly⟩

end LiveServices
