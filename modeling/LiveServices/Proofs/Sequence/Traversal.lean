import LiveServices.Proofs.Sequence.Calls
import Mathlib.Data.List.InsertIdx
import Mathlib.Data.List.Nodup

/-!
# Traversal while the sequence changes

A cursor returns every item that stays and returns none twice, whatever happens to the sequence in
between. To say so of items that may be equal, each inserted item is told apart by the call that
inserted it (`Occurrence`), and a chronicle of the calls notes what each cursor returned and what
was inserted below it. The occurrences are seen through their items alone, so the chronicle's
sequence answers as the plain one does (`Chronicle.erased_afterAll`).

The invariant is `Divided`: a cursor's position splits the items into those that it has returned
or that were inserted below it, and those that it has not met. `Honest.after` says that every call
keeps it; `traversal_exact` is what follows for any number of calls.
-/

namespace LiveServices

variable {α : Type}

/-- An inserted item, told apart from equal ones by the number of the call that inserted it. -/
structure Occurrence (α : Type) where
  serial : Nat
  item : α
  deriving DecidableEq

/-- Occurrences are compared by their items. -/
instance [BEq α] : BEq (Occurrence α) := ⟨fun a b => a.item == b.item⟩

namespace Cursor

@[simp] theorem id_afterInsert (index : Nat) (c : Cursor) : (c.afterInsert index).id = c.id := by
  unfold afterInsert
  split <;> rfl

/-- A cursor moves on if an item is put before it. -/
theorem position_afterInsert (index : Nat) (c : Cursor) : (c.afterInsert index).position =
    if index < c.position then c.position + 1 else c.position := by
  unfold afterInsert
  split <;> rfl

@[simp] theorem id_afterRemove (index : Nat) (c : Cursor) : (c.afterRemove index).id = c.id := by
  unfold afterRemove
  split <;> rfl

/-- A cursor moves back if an item before it is removed. -/
theorem position_afterRemove (index : Nat) (c : Cursor) : (c.afterRemove index).position =
    if index < c.position then c.position - 1 else c.position := by
  unfold afterRemove
  split <;> rfl

end Cursor

namespace LiveSequence

/-- The cursors below which a call inserts its item. -/
def insertedBelow [BEq α] (m : Mode α) (s : LiveSequence α) : Call α → List Nat
  | .append item =>
    match m.place? s.items item with
    | some index => (s.cursors.filter (index < ·.position)).map (·.id)
    | none => []
  | _ => []

/-- The cursor that a call reads through, with the serial of the occurrence it returns. -/
def Call.yield : Call (Occurrence α) → Reply (Occurrence α) → List (Nat × Nat)
  | .next id, .gave (some o) => [(id, o.serial)]
  | _, _ => []

/-- The serials of the items. -/
def serials (s : LiveSequence (Occurrence α)) : List Nat := s.items.map (·.serial)

/-- The serial of an item is put where the item is. -/
theorem serials_insertAt (s : LiveSequence (Occurrence α)) (index : Nat) (o : Occurrence α) :
    (s.insertAt index o).serials = s.serials.take index ++ o.serial :: s.serials.drop index := by
  simp [serials, List.map_take, List.map_drop]

theorem serials_eraseAt (s : LiveSequence (Occurrence α)) (index : Nat) :
    (s.eraseAt index).serials = s.serials.eraseIdx index := by
  simp [serials, List.eraseIdx_map]

end LiveSequence

open LiveSequence (Call Reply)

/-- A sequence of occurrences, with what was noted while it answered. -/
structure Chronicle (α : Type) where
  sequence : LiveSequence (Occurrence α)
  /-- How many calls there were. -/
  calls : Nat
  replies : List (Reply (Occurrence α))
  /-- Each cursor with the serial of an occurrence it returned. -/
  yielded : List (Nat × Nat)
  /-- Each cursor with the serial of an occurrence inserted strictly below its position. -/
  passed : List (Nat × Nat)

namespace Chronicle

def empty : Chronicle α := ⟨.empty, 0, [], [], []⟩

/-- The chronicle after one more call. -/
def after [BEq α] (m : Mode α) (h : Chronicle α) (call : Call α) : Chronicle α :=
  let mode := m.comap Occurrence.item
  let tagged := call.map (Occurrence.mk h.calls)
  let (reply, s) := h.sequence.answer mode tagged
  { sequence := s
    calls := h.calls + 1
    replies := h.replies ++ [reply]
    yielded := h.yielded ++ tagged.yield reply
    passed := h.passed ++ (h.sequence.insertedBelow mode tagged).map (·, h.calls) }

/-- The chronicle after these calls. -/
def afterAll [BEq α] (m : Mode α) (h : Chronicle α) (calls : List (Call α)) : Chronicle α :=
  calls.foldl (after m) h

/-- A cursor has returned an occurrence, or the occurrence was inserted below it. -/
def Met (h : Chronicle α) (id serial : Nat) : Prop :=
  (id, serial) ∈ h.yielded ∨ (id, serial) ∈ h.passed

/-! ## The sequence of occurrences is the sequence -/

/-- A call that is tagged is the same call with its tag forgotten. -/
theorem erased_tagged (call : Call α) (n : Nat) :
    (call.map (Occurrence.mk n)).map Occurrence.item = call := by
  cases call <;> rfl

/-- Without the serials, the answers and the sequence are the plain ones. -/
theorem erased_afterAll [BEq α] (m : Mode α) (h : Chronicle α) (calls : List (Call α)) :
    ((h.afterAll m calls).replies.map (Reply.map Occurrence.item),
        (h.afterAll m calls).sequence.map Occurrence.item) =
      (h.replies.map (Reply.map Occurrence.item) ++
          ((h.sequence.map Occurrence.item).answerAll m calls).1,
        ((h.sequence.map Occurrence.item).answerAll m calls).2) := by
  induction calls generalizing h with
  | nil => simp [afterAll, LiveSequence.answerAll]
  | cons call calls ih =>
    have hstep := LiveSequence.answer_map (f := Occurrence.item) (fun _ _ => rfl) m h.sequence
      (call.map (Occurrence.mk h.calls))
    rw [erased_tagged] at hstep
    show ((h.after m call).afterAll m calls |>.replies.map _, _) = _
    rw [show (h.afterAll m (call :: calls)) = (h.after m call).afterAll m calls from rfl, ih]
    simp only [LiveSequence.answerAll, hstep, after, List.map_append, List.map_cons, List.map_nil,
      List.append_assoc, List.singleton_append]

end Chronicle

/-! ## A position that divides a list -/

/-- The elements before a position are exactly those of which this holds. -/
structure Divided (l : List Nat) (position : Nat) (met : Nat → Prop) : Prop where
  inside : position ≤ l.length
  exact : ∀ i n, l[i]? = some n → (i < position ↔ met n)

namespace Divided

variable {l : List Nat} {position : Nat} {met met' : Nat → Prop}

theorem congr (hd : Divided l position met) (h : ∀ n ∈ l, met' n ↔ met n) :
    Divided l position met' where
  inside := hd.inside
  exact i n hn := (hd.exact i n hn).trans (h n (List.mem_of_getElem? hn)).symm

/-- At the start nothing has been met. -/
theorem start (h : ∀ n ∈ l, ¬ met n) : Divided l 0 met where
  inside := Nat.zero_le _
  exact _ n hn := by simpa using h n (List.mem_of_getElem? hn)

/-- A new element counts as met exactly if it is inserted below the position. -/
theorem insert (hd : Divided l position met) {index n : Nat}
    (hold : ∀ k ∈ l, met' k ↔ met k) (hnew : met' n ↔ index < position) :
    Divided (l.take index ++ n :: l.drop index)
      (if index < position then position + 1 else position) met' where
  inside := by
    have := hd.inside
    simp only [List.length_append, List.length_take, List.length_cons, List.length_drop]
    split <;> omega
  exact i k hk := by
    have hin := hd.inside
    rw [List.getElem?_append, List.length_take] at hk
    split at hk
    · next hi =>
      rw [List.getElem?_take_of_lt (by omega)] at hk
      rw [hold k (List.mem_of_getElem? hk), ← hd.exact i k hk]
      split <;> omega
    · next hi =>
      obtain hz | ⟨j, hj⟩ : i - min index l.length = 0 ∨ ∃ j, i - min index l.length = j + 1 := by
        cases i - min index l.length <;> simp
      · rw [hz, List.getElem?_cons_zero, Option.some_inj] at hk
        subst hk
        rw [hnew]
        split <;> omega
      · rw [hj, List.getElem?_cons_succ, List.getElem?_drop] at hk
        rw [hold k (List.mem_of_getElem? hk), ← hd.exact _ k hk]
        have hlt : index + j < l.length := (List.getElem?_eq_some_iff.mp hk).1
        split <;> omega

/-- The elements that stay after a removal are divided as they were. -/
theorem erase (hd : Divided l position met) (index : Nat) :
    Divided (l.eraseIdx index) (if index < position then position - 1 else position) met where
  inside := by
    have := hd.inside
    rw [List.length_eraseIdx]
    split <;> split <;> omega
  exact i n hn := by
    rw [List.getElem?_eraseIdx] at hn
    split at hn
    · rw [← hd.exact i n hn]
      split <;> omega
    · rw [← hd.exact (i + 1) n hn]
      split <;> omega

/-- Moving past an element meets this element and no other. -/
theorem advance (hd : Divided l position met) (hl : l.Nodup) {n : Nat}
    (hn : l[position]? = some n) (hmet : ∀ k, met' k ↔ met k ∨ k = n) :
    Divided l (position + 1) met' where
  inside := (List.getElem?_eq_some_iff.mp hn).1
  exact i k hk := by
    have hkn : k = n ↔ i = position := by
      constructor
      · rintro rfl
        exact (List.getElem?_inj (List.getElem?_eq_some_iff.mp hk).1 hl).mp (hk.trans hn.symm)
      · rintro rfl
        exact Option.some_inj.mp (hk.symm.trans hn)
    rw [hmet, ← hd.exact i k hk, hkn]
    omega

end Divided

namespace Chronicle

variable {h : Chronicle α}

/-- What holds along every chronicle. -/
structure Honest (h : Chronicle α) : Prop where
  fresh : ∀ n ∈ h.sequence.serials, n < h.calls
  distinct : h.sequence.serials.Nodup
  apart : (h.sequence.cursors.map (·.id)).Nodup
  numbered : ∀ c ∈ h.sequence.cursors, c.id < h.sequence.opened
  known : ∀ id n, h.Met id n → id < h.sequence.opened ∧ n < h.calls
  divided : ∀ c ∈ h.sequence.cursors, Divided h.sequence.serials c.position (h.Met c.id)
  once : h.yielded.Nodup

/-- Nothing was yielded from an empty sequence. -/
theorem honest_empty : (empty : Chronicle α).Honest where
  fresh := by simp [empty, LiveSequence.empty, LiveSequence.serials]
  distinct := List.nodup_nil
  apart := List.nodup_nil
  numbered := by simp [empty, LiveSequence.empty]
  known := by simp [Met, empty]
  divided := by simp [empty, LiveSequence.empty]
  once := List.nodup_nil

/-- Two open cursors of one number are the same. -/
theorem Honest.cursor_eq (hh : h.Honest) {c d : Cursor} (hc : c ∈ h.sequence.cursors)
    (hd : d ∈ h.sequence.cursors) (hid : c.id = d.id) : c = d :=
  List.inj_on_of_nodup_map hh.apart hc hd hid

/-- A call that notes nothing and only takes items or cursors away. -/
theorem Honest.fewer {h' : Chronicle α} (hh : h.Honest) (hcalls : h.calls ≤ h'.calls)
    (hyielded : h'.yielded = h.yielded) (hpassed : h'.passed = h.passed)
    (hopened : h'.sequence.opened = h.sequence.opened)
    (hserials : h'.sequence.serials.Sublist h.sequence.serials)
    (hcursors : (h'.sequence.cursors.map (·.id)).Sublist (h.sequence.cursors.map (·.id)))
    (hdivided : ∀ c ∈ h'.sequence.cursors,
      Divided h'.sequence.serials c.position (h.Met c.id)) : h'.Honest := by
  have hmet : h'.Met = h.Met := by
    unfold Met
    rw [hyielded, hpassed]
  refine ⟨fun n hn => ?_, hh.distinct.sublist hserials, hh.apart.sublist hcursors, fun c hc => ?_,
    fun id n hm => ?_, fun c hc => hmet ▸ hdivided c hc, hyielded ▸ hh.once⟩
  · exact Nat.lt_of_lt_of_le (hh.fresh n (hserials.subset hn)) hcalls
  · obtain ⟨d, hd, hid⟩ := List.mem_map.mp (hcursors.subset (List.mem_map_of_mem hc))
    rw [hopened, ← hid]
    exact hh.numbered d hd
  · have := hh.known id n (hmet ▸ hm)
    rw [hopened]
    exact ⟨this.1, Nat.lt_of_lt_of_le this.2 hcalls⟩

/-- An item that is erased is ahead of no cursor any more. -/
theorem Honest.eraseAt {h' : Chronicle α} (hh : h.Honest) (index : Nat)
    (hs : h'.sequence = h.sequence.eraseAt index) (hcalls : h.calls ≤ h'.calls)
    (hyielded : h'.yielded = h.yielded) (hpassed : h'.passed = h.passed) : h'.Honest := by
  have hserials : h'.sequence.serials = h.sequence.serials.eraseIdx index := by
    rw [hs, LiveSequence.serials_eraseAt]
  have hcursors : h'.sequence.cursors = h.sequence.cursors.map (·.afterRemove index) := by
    rw [hs]; rfl
  refine hh.fewer hcalls hyielded hpassed (by rw [hs]; rfl) ?_ ?_ fun c hc => ?_
  · rw [hserials]
    exact List.eraseIdx_sublist ..
  · rw [hcursors, List.map_map]
    simp [Function.comp_def]
  · rw [hcursors] at hc
    obtain ⟨d, hd, rfl⟩ := List.mem_map.mp hc
    rw [hserials, Cursor.id_afterRemove, Cursor.position_afterRemove]
    exact (hh.divided d hd).erase index

/-- An item that is inserted is passed by the cursors beyond its place and ahead of the others. -/
theorem Honest.insertAt {h' : Chronicle α} (hh : h.Honest) (index : Nat) (item : α)
    (hs : h'.sequence = h.sequence.insertAt index ⟨h.calls, item⟩)
    (hcalls : h'.calls = h.calls + 1) (hyielded : h'.yielded = h.yielded)
    (hpassed : h'.passed = h.passed ++
      ((h.sequence.cursors.filter (index < ·.position)).map (·.id)).map (·, h.calls)) :
    h'.Honest := by
  have hserials : h'.sequence.serials =
      h.sequence.serials.take index ++ h.calls :: h.sequence.serials.drop index := by
    rw [hs, LiveSequence.serials_insertAt]
  have hcursors : h'.sequence.cursors = h.sequence.cursors.map (·.afterInsert index) := by
    rw [hs]; rfl
  have hopened : h'.sequence.opened = h.sequence.opened := by rw [hs]; rfl
  have hnew : h.calls ∉ h.sequence.serials := fun hin => Nat.lt_irrefl _ (hh.fresh _ hin)
  have hmet : ∀ id n, h'.Met id n ↔ h.Met id n ∨
      n = h.calls ∧ ∃ c ∈ h.sequence.cursors, index < c.position ∧ c.id = id := by
    intro id n
    unfold Met
    rw [hyielded, hpassed]
    simp only [List.mem_append, List.mem_map, List.mem_filter, decide_eq_true_eq,
      exists_exists_and_eq_and, Prod.mk.injEq]
    grind
  have hperm : h'.sequence.serials.Perm (h.calls :: h.sequence.serials) := by
    rw [hserials]
    refine List.perm_middle.trans ?_
    rw [List.take_append_drop]
  refine ⟨fun n hn => ?_, hperm.nodup_iff.mpr (List.nodup_cons.mpr ⟨hnew, hh.distinct⟩), ?_,
    fun c hc => ?_, fun id n hm => ?_, fun c hc => ?_, hyielded ▸ hh.once⟩
  · obtain rfl | hn := List.mem_cons.mp (hperm.mem_iff.mp hn)
    · omega
    · have := hh.fresh n hn
      omega
  · rw [hcursors, List.map_map]
    simpa [Function.comp_def] using hh.apart
  · rw [hcursors] at hc
    obtain ⟨d, hd, rfl⟩ := List.mem_map.mp hc
    rw [hopened, Cursor.id_afterInsert]
    exact hh.numbered d hd
  · rw [hopened, hcalls]
    obtain hm | ⟨rfl, c, hc, -, rfl⟩ := (hmet id n).mp hm
    · have := hh.known id n hm
      omega
    · exact ⟨hh.numbered c hc, by omega⟩
  · rw [hcursors] at hc
    obtain ⟨d, hd, rfl⟩ := List.mem_map.mp hc
    rw [hserials, Cursor.id_afterInsert, Cursor.position_afterInsert]
    refine (hh.divided d hd).insert (fun k hk => ?_) ?_
    · rw [hmet]
      have := hh.fresh k hk
      constructor
      · rintro (hm | ⟨rfl, -⟩)
        · exact hm
        · omega
      · exact .inl
    · rw [hmet]
      constructor
      · rintro (hm | ⟨-, c, hc, hlt, hid⟩)
        · exact absurd (hh.known _ _ hm).2 (Nat.lt_irrefl _)
        · rwa [← hh.cursor_eq hc hd hid]
      · exact fun hlt => .inr ⟨rfl, d, hd, hlt, rfl⟩

/-- A new cursor has met nothing. -/
theorem Honest.openCursor {h' : Chronicle α} (hh : h.Honest)
    (hs : h'.sequence = h.sequence.openCursor.2) (hcalls : h.calls ≤ h'.calls)
    (hyielded : h'.yielded = h.yielded) (hpassed : h'.passed = h.passed) : h'.Honest := by
  have hserials : h'.sequence.serials = h.sequence.serials := by rw [hs]; rfl
  have hcursors : h'.sequence.cursors = h.sequence.cursors ++ [⟨h.sequence.opened, 0⟩] := by
    rw [hs]; rfl
  have hopened : h'.sequence.opened = h.sequence.opened + 1 := by rw [hs]; rfl
  have hmet : h'.Met = h.Met := by
    unfold Met
    rw [hyielded, hpassed]
  have hnew : ∀ n, ¬ h.Met h.sequence.opened n := fun n hm =>
    Nat.lt_irrefl _ (hh.known _ n hm).1
  refine ⟨fun n hn => ?_, hserials ▸ hh.distinct, ?_, fun c hc => ?_, fun id n hm => ?_,
    fun c hc => ?_, hyielded ▸ hh.once⟩
  · exact Nat.lt_of_lt_of_le (hh.fresh n (hserials ▸ hn)) hcalls
  · rw [hcursors, List.map_append, List.nodup_append]
    refine ⟨hh.apart, by simp, fun a ha b hb => ?_⟩
    obtain ⟨d, hd, rfl⟩ := List.mem_map.mp ha
    obtain rfl : b = h.sequence.opened := by simpa using hb
    exact Nat.ne_of_lt (hh.numbered d hd)
  · rw [hcursors] at hc
    rw [hopened]
    obtain hc | hc := List.mem_append.mp hc
    · exact Nat.lt_succ_of_lt (hh.numbered c hc)
    · obtain rfl : c = ⟨h.sequence.opened, 0⟩ := by simpa using hc
      exact Nat.lt_succ_self _
  · have := hh.known id n (hmet ▸ hm)
    omega
  · rw [hserials, hmet]
    rw [hcursors] at hc
    obtain hc | hc := List.mem_append.mp hc
    · exact hh.divided c hc
    · obtain rfl : c = ⟨h.sequence.opened, 0⟩ := by simpa using hc
      exact Divided.start fun n _ => hnew n

/-- The cursor of a number, if it is open. -/
theorem Honest.position?_eq (hh : h.Honest) {c : Cursor} (hc : c ∈ h.sequence.cursors) :
    h.sequence.position? c.id = some c.position := by
  unfold LiveSequence.position?
  obtain ⟨d, hd⟩ : ∃ d, h.sequence.cursors.find? (·.id == c.id) = some d :=
    Option.isSome_iff_exists.mp (List.find?_isSome.mpr ⟨c, hc, by simp⟩)
  have hid : d.id = c.id := by simpa using List.find?_some hd
  rw [hd, hh.cursor_eq (List.mem_of_find?_eq_some hd) hc hid]
  rfl

/-- A cursor that moves on has met one item more. -/
theorem Honest.next {h' : Chronicle α} (hh : h.Honest) {id : Nat} {c : Cursor} {o : Occurrence α}
    (hc : c ∈ h.sequence.cursors) (hid : c.id = id) (ho : h.sequence.items[c.position]? = some o)
    (hs : h'.sequence = { h.sequence with
      cursors := h.sequence.cursors.map fun d => if d.id == id then d.advanced else d })
    (hcalls : h.calls ≤ h'.calls) (hyielded : h'.yielded = h.yielded ++ [(id, o.serial)])
    (hpassed : h'.passed = h.passed) : h'.Honest := by
  have hserials : h'.sequence.serials = h.sequence.serials := by rw [hs]; rfl
  have hopened : h'.sequence.opened = h.sequence.opened := by rw [hs]
  have hcursors : h'.sequence.cursors =
      h.sequence.cursors.map fun d => if d.id == id then d.advanced else d := by rw [hs]
  have hat : h.sequence.serials[c.position]? = some o.serial := by
    simp [LiveSequence.serials, ho]
  have hmet : ∀ i n, h'.Met i n ↔ h.Met i n ∨ i = id ∧ n = o.serial := by
    intro i n
    unfold Met
    rw [hyielded, hpassed]
    simp only [List.mem_append, List.mem_singleton, Prod.mk.injEq]
    grind
  -- the occurrence at the position is ahead of the cursor, so this cursor has not returned it
  have hahead : ¬ h.Met id o.serial := fun hm =>
    Nat.lt_irrefl _ (((hh.divided c hc).exact _ _ hat).mpr (hid ▸ hm))
  have hids : ∀ d : Cursor, (if d.id == id then d.advanced else d).id = d.id := fun d => by
    split <;> rfl
  refine ⟨fun n hn => ?_, hserials ▸ hh.distinct, ?_, fun d hd => ?_, fun i n hm => ?_,
    fun d hd => ?_, ?_⟩
  · exact Nat.lt_of_lt_of_le (hh.fresh n (hserials ▸ hn)) hcalls
  · rw [hcursors, List.map_map]
    simpa only [Function.comp_def, hids] using hh.apart
  · rw [hcursors] at hd
    obtain ⟨e, he, rfl⟩ := List.mem_map.mp hd
    rw [hids, hopened]
    exact hh.numbered e he
  · rw [hopened]
    obtain hm | ⟨rfl, rfl⟩ := (hmet i n).mp hm
    · have := hh.known i n hm
      omega
    · exact ⟨hid ▸ hh.numbered c hc,
        Nat.lt_of_lt_of_le (hh.fresh _ (List.mem_of_getElem? hat)) hcalls⟩
  · rw [hcursors] at hd
    obtain ⟨e, he, rfl⟩ := List.mem_map.mp hd
    rw [hids, hserials]
    by_cases heid : e.id = id
    · obtain rfl := hh.cursor_eq he hc (heid.trans hid.symm)
      rw [if_pos (by simpa using heid)]
      exact (hh.divided e he).advance hh.distinct hat fun k => by rw [hmet]; simp [heid]
    · rw [if_neg (by simpa using heid)]
      exact (hh.divided e he).congr fun n _ => by rw [hmet]; simp [heid]
  · rw [hyielded, List.nodup_append]
    refine ⟨hh.once, by simp, fun a ha b hb => ?_⟩
    rintro rfl
    obtain rfl : a = (id, o.serial) := by simpa using hb
    exact hahead (.inl ha)

/-- Every call keeps a chronicle honest. -/
theorem Honest.after [BEq α] (hh : h.Honest) (m : Mode α) (call : Call α) :
    (h.after m call).Honest := by
  have hlater : h.calls ≤ h.calls + 1 := Nat.le_succ _
  -- a call that changes nothing
  have hsame : ∀ h' : Chronicle α, h'.sequence = h.sequence → h.calls ≤ h'.calls →
      h'.yielded = h.yielded → h'.passed = h.passed → h'.Honest := fun h' hs hc hy hp =>
    hh.fewer hc hy hp (by rw [hs]) (by rw [hs]) (by rw [hs]) (by rw [hs]; exact hh.divided)
  cases call with
  | append item =>
    cases hplace : (m.comap Occurrence.item).place? h.sequence.items ⟨h.calls, item⟩ with
    | none =>
      have hs : (h.after m (.append item)).sequence = h.sequence := by
        simp [Chronicle.after, Call.map, LiveSequence.answer, LiveSequence.append, hplace]
      refine hsame _ hs hlater (List.append_nil _) ?_
      simp [Chronicle.after, Call.map, LiveSequence.insertedBelow, hplace]
    | some index =>
      refine hh.insertAt index item ?_ rfl (List.append_nil _) ?_
      · simp [Chronicle.after, Call.map, LiveSequence.answer, LiveSequence.append, hplace]
      · simp [Chronicle.after, Call.map, LiveSequence.insertedBelow, hplace]
  | removeOne item =>
    cases hfind : h.sequence.items.findIdx? (· == (⟨h.calls, item⟩ : Occurrence α)) with
    | none =>
      refine hsame _ ?_ hlater (List.append_nil _) (List.append_nil _)
      simp [Chronicle.after, Call.map, LiveSequence.answer, LiveSequence.removeOne, hfind]
    | some index =>
      refine hh.eraseAt index ?_ hlater (List.append_nil _) (List.append_nil _)
      simp [Chronicle.after, Call.map, LiveSequence.answer, LiveSequence.removeOne, hfind]
  | removeAt index =>
    cases hat : h.sequence.items[index]? with
    | none =>
      refine hsame _ ?_ hlater (List.append_nil _) (List.append_nil _)
      simp [Chronicle.after, Call.map, LiveSequence.answer, LiveSequence.removeAt, hat]
    | some item =>
      refine hh.eraseAt index ?_ hlater (List.append_nil _) (List.append_nil _)
      simp [Chronicle.after, Call.map, LiveSequence.answer, LiveSequence.removeAt, hat]
  | clear =>
    refine hh.fewer hlater (List.append_nil _) (List.append_nil _) rfl (List.nil_sublist _) ?_ ?_
    · show ((h.sequence.cursors.map Cursor.rewound).map (·.id)).Sublist _
      simp [Function.comp_def, Cursor.rewound]
    · intro c hc
      obtain ⟨d, hd, rfl⟩ := List.mem_map.mp hc
      exact Divided.start (fun n hn => absurd hn List.not_mem_nil)
  | openCursor =>
    exact hh.openCursor rfl hlater (List.append_nil _) (List.append_nil _)
  | closeCursor id =>
    refine hh.fewer hlater (List.append_nil _) (List.append_nil _) rfl (List.Sublist.refl _) ?_ ?_
    · exact List.filter_sublist.map _
    · exact fun c hc => hh.divided c (List.mem_filter.mp hc).1
  | next id =>
    cases hat : (h.sequence.position? id).bind (h.sequence.items[·]?) with
    | none =>
      refine hsame _ ?_ hlater ?_ (List.append_nil _)
      · simp [Chronicle.after, Call.map, LiveSequence.answer, LiveSequence.next, hat]
      · simp [Chronicle.after, Call.map, LiveSequence.answer, LiveSequence.next, hat, Call.yield]
    | some o =>
      obtain ⟨position, hpos, ho⟩ := Option.bind_eq_some_iff.mp hat
      obtain ⟨c, hc, rfl⟩ := Option.map_eq_some_iff.mp hpos
      refine hh.next (List.mem_of_find?_eq_some hc) (by simpa using List.find?_some hc) ho ?_
        hlater ?_ (List.append_nil _)
      · simp [Chronicle.after, Call.map, LiveSequence.answer, LiveSequence.next, hat]
      · simp [Chronicle.after, Call.map, LiveSequence.answer, LiveSequence.next, hat, Call.yield]

/-- A chronicle stays honest through any calls. -/
theorem Honest.afterAll [BEq α] (hh : h.Honest) (m : Mode α) (calls : List (Call α)) :
    (h.afterAll m calls).Honest := by
  induction calls generalizing h with
  | nil => exact hh
  | cons call calls ih => exact ih (hh.after m call)

/-! ## What is inserted below a cursor is new to it -/

/-- Whatever is noted as inserted below a cursor was inserted by that very call. -/
theorem mem_passed_after [BEq α] {m : Mode α} {call : Call α} {id n : Nat}
    (hn : (id, n) ∈ (h.after m call).passed) : (id, n) ∈ h.passed ∨ n = h.calls := by
  obtain hn | hn := List.mem_append.mp hn
  · exact .inl hn
  · obtain ⟨c, -, hc⟩ := List.mem_map.mp hn
    exact .inr (Prod.mk.inj hc).2.symm

/-- What a cursor passes later was put there later. -/
theorem mem_passed_afterAll [BEq α] {m : Mode α} {calls : List (Call α)} {id n : Nat}
    (hn : (id, n) ∈ (h.afterAll m calls).passed) : (id, n) ∈ h.passed ∨ h.calls ≤ n := by
  induction calls generalizing h with
  | nil => exact .inl hn
  | cons call calls ih =>
    obtain hn | hn := ih hn
    · exact (mem_passed_after hn).imp_right fun hn => Nat.le_of_eq hn.symm
    · exact .inr (Nat.le_of_succ_le hn)

/-- A cursor that has nothing before it has met all that was there when it was opened and still
is. -/
theorem Honest.count_yielded [BEq α] {m : Mode α} {calls : List (Call α)} {o : Occurrence α}
    (hh : h.Honest) (ho : o ∈ (h.after m .openCursor).sequence.items)
    (ho' : o ∈ ((h.after m .openCursor).afterAll m calls).sequence.items) {c : Cursor}
    (hc : c ∈ ((h.after m .openCursor).afterAll m calls).sequence.cursors)
    (hid : c.id = h.sequence.opened)
    (hend : (((h.after m .openCursor).afterAll m calls).sequence.next c.id).1 = none) :
    ((h.after m .openCursor).afterAll m calls).yielded.count (c.id, o.serial) = 1 := by
  have hk := (hh.after m .openCursor).afterAll m calls
  revert hend
  generalize hkk : (h.after m .openCursor).afterAll m calls = k at *
  intro hend
  obtain ⟨i, hi⟩ := List.getElem?_of_mem ho'
  have hat : k.sequence.serials[i]? = some o.serial := by simp [LiveSequence.serials, hi]
  have hpast : k.sequence.items.length ≤ c.position := by
    unfold LiveSequence.next at hend
    rw [hk.position?_eq hc, Option.bind_some] at hend
    split at hend
    · cases hend
    · next hnone => exact List.getElem?_eq_none_iff.mp hnone
  have hmet := ((hk.divided c hc).exact i _ hat).mp
    (Nat.lt_of_lt_of_le (List.getElem?_eq_some_iff.mp hi).1 hpast)
  obtain hyield | hpass := hmet
  · exact List.count_eq_one_of_mem hk.once hyield
  -- it was there before the cursor was opened, so it cannot have been inserted below it
  · have hold : o.serial < h.calls :=
      hh.fresh _ (List.mem_map_of_mem (f := Occurrence.serial) ho)
    rw [← hkk] at hpass
    obtain hpass | hpass := mem_passed_afterAll hpass
    · have hpass : (c.id, o.serial) ∈ h.passed := by
        obtain hp | hp := mem_passed_after hpass
        · exact hp
        · omega
      have := (hh.known _ _ (.inr hpass)).1
      omega
    · have : (h.after m .openCursor).calls = h.calls + 1 := rfl
      omega

end Chronicle

/-- Traversal neither repeats nor skips. For every mode and all calls, with any number of cursors
opened and closed at any points: the sequence of occurrences answers as the plain one; an open
cursor stands inside the sequence, the items before it are exactly those present ones that it has
returned or that were inserted strictly below it, and it has returned none of the others; no
cursor returns an occurrence twice; and an occurrence that was there when a cursor was opened and
is there when the cursor has nothing more to return was returned by it exactly once. -/
theorem traversal_exact [BEq α] (m : Mode α) (calls : List (Call α)) :
    let h := Chronicle.empty.afterAll m calls
    (h.replies.map (Reply.map Occurrence.item), h.sequence.map Occurrence.item) =
        LiveSequence.empty.answerAll m calls ∧
      (∀ c ∈ h.sequence.cursors, c.position ≤ h.sequence.items.length ∧
        ∀ i o, h.sequence.items[i]? = some o →
          (i < c.position ↔ (c.id, o.serial) ∈ h.yielded ∨ (c.id, o.serial) ∈ h.passed) ∧
          (c.position ≤ i → (c.id, o.serial) ∉ h.yielded)) ∧
      h.yielded.Nodup ∧
      ∀ before later, calls = before ++ .openCursor :: later →
        let opening := Chronicle.empty.afterAll m before
        ∀ c ∈ h.sequence.cursors, c.id = opening.sequence.opened →
          (h.sequence.next c.id).1 = none →
          ∀ o ∈ (opening.after m .openCursor).sequence.items, o ∈ h.sequence.items →
            h.yielded.count (c.id, o.serial) = 1 := by
  intro h
  have hh : h.Honest := Chronicle.honest_empty.afterAll m calls
  refine ⟨?_, fun c hc => ⟨?_, fun i o ho => ?_⟩, hh.once, ?_⟩
  · exact Chronicle.erased_afterAll m .empty calls
  · simpa [LiveSequence.serials] using (hh.divided c hc).inside
  · have hexact : i < c.position ↔ h.Met c.id o.serial :=
      (hh.divided c hc).exact i o.serial (by simp [LiveSequence.serials, ho])
    exact ⟨hexact, fun hi hy => Nat.not_lt.mpr hi (hexact.mpr (.inl hy))⟩
  · rintro before later rfl opening c hc hid hend o ho ho'
    have hsplit : h = (opening.after m .openCursor).afterAll m later := by
      simp [h, opening, Chronicle.afterAll]
    rw [hsplit] at hc hend ho' ⊢
    exact (Chronicle.honest_empty.afterAll m before).count_yielded ho ho' hc hid hend

/-- A cursor over a sorted list reads the first of 2 and 4, then 1 and 3 are inserted, the one
below it and the other ahead of it: it goes on with 3 and 4, and returns each item that was there
from the start once. -/
theorem traversal_exact_sorted :
    let calls : List (Call Nat) := [.append 4, .append 2, .openCursor, .next 0, .append 1,
      .append 3, .next 0, .next 0]
    let h := Chronicle.empty.afterAll (.sortedList compare) calls
    h.sequence.items.map (·.item) = [1, 2, 3, 4] ∧ h.yielded = [(0, 1), (0, 5), (0, 0)] ∧
      h.passed = [(0, 4)] ∧ h.yielded.count (0, 0) = 1 ∧ h.yielded.count (0, 1) = 1 := by
  have hlast := (traversal_exact (.sortedList compare) [.append 4, .append 2, .openCursor, .next 0,
    .append 1, .append 3, .next 0, .next 0]).2.2.2 [.append 4, .append 2] _ rfl ⟨0, 4⟩
    (by decide +kernel) rfl (by decide +kernel)
  exact ⟨by decide +kernel, by decide +kernel, by decide +kernel,
    hlast ⟨0, 4⟩ (List.mem_of_getElem? (i := 1) (by decide +kernel))
      (List.mem_of_getElem? (i := 3) (by decide +kernel)),
    hlast ⟨1, 2⟩ (List.mem_of_getElem? (i := 0) (by decide +kernel))
      (List.mem_of_getElem? (i := 1) (by decide +kernel))⟩

end LiveServices
