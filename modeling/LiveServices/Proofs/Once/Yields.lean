import LiveServices.Proofs.Calm.Reads
import LiveServices.Proofs.Once.Orderly

/-!
# What iterators yield

A log of commands and answers tells what each iterator yielded (`Yields.noted`). A read moves the
cursor of one iterator past the entries that it answers with, or opens a cursor, or leaves nothing
new ahead of any (`Hub.Reads`). So an iterator yields what was ahead of its cursor, and what it
yielded is known and ahead of the cursor no more (`Hub.Recorded`); this is why it does not yield it
again, whatever comes to the collection.
-/

namespace LiveServices

/-! ## The log -/

/-- What iterators yielded: their names, the ones that were opened last first, and the services of
the entries that each of them yielded. -/
abbrev Yields := List (String × List UInt64)

namespace Yields

variable {E : Type} {name other : String} {ids ys : List UInt64} {log : Yields}

/-- The iterator that has this name yields entries of these services. -/
def give (name : String) (ids : List UInt64) : Yields → Yields
  | [] => [(name, ids)]
  | (other, ys) :: log =>
    if name == other then (other, ys ++ ids) :: log else (other, ys) :: give name ids log

/-- What a command and the answer to it add to what was yielded. -/
def noted (log : Yields) (command : Command E) (answer : Answer) : Yields :=
  match command, answer with
  | .iter _ name, .done => (name, []) :: log
  | .tryNext name, .entry view | .next name, .entry view =>
    log.give name (view.toList.map EntryView.id)
  | .drain name, .entries views => log.give name (views.map EntryView.id)
  | _, _ => log

/-- What iterators yielded in a run. -/
def ofRun (commands : List (Command E)) (answers : List Answer) : Yields :=
  (commands.zip answers).foldl (fun log p => noted log p.1 p.2) []

theorem lookup_give_self (hl : log.lookup name = some ys) :
    (log.give name ids).lookup name = some (ys ++ ids) := by
  induction log with
  | nil => cases hl
  | cons entry log ih =>
    obtain ⟨key, zs⟩ := entry
    rw [List.lookup_cons] at hl
    rw [give]
    cases hkey : name == key with
    | true =>
      rw [hkey] at hl
      rw [if_pos rfl, List.lookup_cons, hkey, ← Option.some.inj hl]
    | false =>
      rw [hkey] at hl
      rw [if_neg Bool.false_ne_true, List.lookup_cons, hkey]
      exact ih hl

theorem lookup_give_of_ne (hne : other ≠ name) :
    (log.give name ids).lookup other = log.lookup other := by
  have hno : (other == name) = false := beq_eq_false_iff_ne.2 hne
  induction log with
  | nil => rw [give, List.lookup_cons, hno]
  | cons entry log ih =>
    obtain ⟨key, zs⟩ := entry
    rw [give]
    split
    · next hkey =>
      obtain rfl : name = key := beq_iff_eq.1 hkey
      rw [List.lookup_cons, List.lookup_cons, hno]
    · rw [List.lookup_cons, List.lookup_cons, ih]

/-- An iterator that yields services which it did not yield before yields none twice. -/
theorem nodup_give (hall : ∀ p ∈ log, p.2.Nodup) (hl : List.lookup name log = some ys)
    (hn : (ys ++ ids).Nodup) : ∀ p ∈ log.give name ids, p.2.Nodup := by
  induction log with
  | nil => cases hl
  | cons entry log ih =>
    obtain ⟨key, zs⟩ := entry
    obtain ⟨hfirst, hrest⟩ := List.forall_mem_cons.1 hall
    rw [give]
    rw [List.lookup_cons] at hl
    cases hkey : name == key with
    | true =>
      rw [hkey] at hl
      obtain rfl : zs = ys := Option.some.inj hl
      exact List.forall_mem_cons.2 ⟨hn, hrest⟩
    | false =>
      rw [hkey] at hl
      exact List.forall_mem_cons.2 ⟨hfirst, ih hrest hl⟩

theorem nodup_of_lookup (hall : ∀ p ∈ log, p.2.Nodup) (hl : log.lookup name = some ys) :
    ys.Nodup := by
  obtain ⟨before, after, rfl, -⟩ := List.lookup_eq_some_iff.1 hl
  exact hall (name, ys) (List.mem_append_right _ List.mem_cons_self)

end Yields

/-! ## What is recorded -/

namespace Hub

variable {c n n' : Nat} {h h' : Hub Entry} {command : Command Entry} {answer : Answer}
  {log : Yields}

/-- What a log says of the iterators of a collection that are there: what they yielded is known, and
it is not ahead of them any more. -/
structure Recorded (c n : Nat) (h : Hub Entry) (log : Yields) : Prop where
  nodup : ∀ p ∈ log, p.2.Nodup
  there : ∀ name t, h.traversals.lookup name = some t → t.collection = c ∧
    t.cursor < (h.collection c).storage.opened ∧
    ∃ ys, log.lookup name = some ys ∧
      ∀ id ∈ ys, h.Knows c n id ∧ id ∉ (h.collection c).ahead t.cursor

/-- **Changes.** What comes ahead of an iterator was not known, so it was not yielded before. -/
theorem Recorded.advance (hr : h.Recorded c n log) (ha : h.Advances c n n' h')
    (ht : h'.traversals = h.traversals) : h'.Recorded c n' log := by
  refine ⟨hr.nodup, fun name t hfound => ?_⟩
  rw [ht] at hfound
  obtain ⟨hown, hcursor, ys, hys, hall⟩ := hr.there name t hfound
  refine ⟨hown, ha.opened ▸ hcursor, ys, hys, fun id hid => ?_⟩
  obtain ⟨hknown, hpassed⟩ := hall id hid
  refine ⟨ha.known id hknown, fun hahead => ?_⟩
  rcases ha.ahead t.cursor id hahead with hahead | hnew
  · exact hpassed hahead
  · exact hnew hknown

/-- What a read does to the iterators: with these it ends, and the collection is so then. -/
inductive Reads (c : Nat) (h : Hub Entry) (command : Command Entry) (answer : Answer)
    (iterators : List (String × Traversal)) (k : Collection Entry) : Prop where
  | rests (ht : ∀ name t, iterators.lookup name = some t → h.traversals.lookup name = some t)
    (ha : ∀ d, k.ahead d ⊆ (h.collection c).ahead d)
    (ho : k.storage.opened = (h.collection c).storage.opened)
    (hlog : ∀ log : Yields, log.noted command answer = log)
  | yields {name : String} {t : Traversal} {out : List UInt64}
    (hfound : h.traversals.lookup name = some t) (ht : iterators = h.traversals)
    (hout : (h.collection c).ahead t.cursor = out ++ k.ahead t.cursor)
    (ha : ∀ d, k.ahead d ⊆ (h.collection c).ahead d)
    (ho : k.storage.opened = (h.collection c).storage.opened)
    (hlog : ∀ log : Yields, log.noted command answer = log.give name out)
  | opens {name : String}
    (ht : ∀ other t, iterators.lookup other = some t →
      other = name ∧ t = ⟨c, (h.collection c).storage.opened⟩ ∨
        other ≠ name ∧ h.traversals.lookup other = some t)
    (ha : ∀ d, d < (h.collection c).storage.opened → k.ahead d ⊆ (h.collection c).ahead d)
    (ho : k.storage.opened = (h.collection c).storage.opened + 1)
    (hlog : ∀ log : Yields, log.noted command answer = (name, []) :: log)

/-- What is known does not change by reads. -/
theorem Browsed.knows (hb : h.Browsed h') (id : UInt64) : h'.Knows c n id ↔ h.Knows c n id := by
  obtain ⟨storage, -, hk⟩ := hb.collection c
  rw [Knows, hk, hb.registry]
  exact Iff.rfl

/-- **Reads.** An iterator yields what was ahead of it, and this is not ahead of it any more. -/
theorem Recorded.read (hr : h.Recorded c n log) (hk : (h.collection c).Stocked)
    (hb : h.Browsed h') (hread : h.Reads c command answer h'.traversals (h'.collection c)) :
    h'.Recorded c n (log.noted command answer) := by
  cases hread with
  | rests ht ha ho hlog =>
    rw [hlog]
    refine ⟨hr.nodup, fun name t hfound => ?_⟩
    obtain ⟨hown, hcursor, ys, hys, hall⟩ := hr.there name t (ht name t hfound)
    refine ⟨hown, ho ▸ hcursor, ys, hys, fun id hid => ?_⟩
    exact ⟨(hb.knows id).2 (hall id hid).1, fun hahead => (hall id hid).2 (ha _ hahead)⟩
  | @yields name t out hfound ht hout ha ho hlog =>
    rw [hlog]
    obtain ⟨hown, hcursor, ys, hys, hall⟩ := hr.there name t hfound
    have hahead := hk.nodup_ahead t.cursor
    rw [hout] at hahead
    obtain ⟨hnodup, -, hdisjoint⟩ := List.nodup_append'.1 hahead
    have hmem {id : UInt64} (hid : id ∈ out) : id ∈ (h.collection c).ahead t.cursor :=
      hout ▸ List.mem_append_left _ hid
    refine ⟨?_, fun other t' hfound' => ?_⟩
    · -- what is yielded now was ahead, and what was yielded before was not
      refine Yields.nodup_give hr.nodup hys (List.nodup_append'.2 ⟨?_, hnodup, ?_⟩)
      · exact Yields.nodup_of_lookup hr.nodup hys
      · exact fun id hid hnow => (hall id hid).2 (hmem hnow)
    · rw [ht] at hfound'
      by_cases hother : other = name
      · subst hother
        obtain rfl : t' = t := Option.some.inj (hfound'.symm.trans hfound)
        refine ⟨hown, ho ▸ hcursor, ys ++ out, Yields.lookup_give_self hys, fun id hid => ?_⟩
        rw [hb.knows]
        rcases List.mem_append.1 hid with hid | hid
        · exact ⟨(hall id hid).1, fun hahead => (hall id hid).2 (ha _ hahead)⟩
        · exact ⟨.inl (hk.mem_of_ahead (hmem hid)), fun hahead => hdisjoint hid hahead⟩
      · obtain ⟨hown', hcursor', zs, hzs, hall'⟩ := hr.there other t' hfound'
        refine ⟨hown', ho ▸ hcursor', zs, ?_, fun id hid => ?_⟩
        · rw [Yields.lookup_give_of_ne hother]
          exact hzs
        · exact ⟨(hb.knows id).2 (hall' id hid).1, fun hahead => (hall' id hid).2 (ha _ hahead)⟩
  | @opens name ht ha ho hlog =>
    rw [hlog]
    refine ⟨List.forall_mem_cons.2 ⟨List.nodup_nil, hr.nodup⟩, fun other t hfound => ?_⟩
    rw [ho]
    rcases ht other t hfound with ⟨rfl, rfl⟩ | ⟨hother, hfound⟩
    · exact ⟨rfl, Nat.lt_succ_self _, [], by simp, fun _ hid => absurd hid List.not_mem_nil⟩
    · obtain ⟨hown, hcursor, ys, hys, hall⟩ := hr.there other t hfound
      refine ⟨hown, Nat.lt_succ_of_lt hcursor, ys, ?_, fun id hid => ?_⟩
      · rw [List.lookup_cons, beq_eq_false_iff_ne.2 hother]
        exact hys
      · exact ⟨(hb.knows id).2 (hall id hid).1,
          fun hahead => (hall id hid).2 (ha _ hcursor hahead)⟩

end Hub

end LiveServices
