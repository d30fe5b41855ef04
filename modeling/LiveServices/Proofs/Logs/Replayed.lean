import LiveServices.Command
import Mathlib.Data.List.Chain

/-!
# Logs of lifecycle listeners

What a lifecycle listener was told is a log, the latest first. `replayed` plays it back: an
addition adds an entry, and a removal takes away what was added for its service. A log is linear
(`Linear`) if nothing is added for a service that has an entry, and if what is taken away is what
was added. In a linear log the latest callback about a service tells whether it has an entry
(`Linear.latest`). So the callbacks about one service alternate, an addition is the first of them,
and a removal carries the entry and the reference of the addition before it
(`Linear.alternating`).
-/

namespace LiveServices

variable {E : Type}

/-- The reference that a lifecycle listener is told of. -/
def Callback.reference? : Callback E → Option ServiceReference
  | .bind _ r | .unbind _ r => some r
  | _ => none

/-- The service that a lifecycle listener is told of. -/
def Callback.service? (callback : Callback E) : Option UInt64 :=
  callback.reference?.map ServiceReference.id

/-- The callbacks of a log that are about one service. -/
def logAbout (id : UInt64) (log : List (Callback E)) : List (Callback E) :=
  log.filter fun callback => callback.service? == some id

/-- The entries that were added in a log and not taken away, with the references that they were
added for. -/
def replayed : List (Callback E) → List (E × ServiceReference)
  | [] => []
  | .bind entry r :: log => (entry, r) :: replayed log
  | .unbind _ r :: log => (replayed log).filter fun p => p.2.id != r.id
  | _ :: log => replayed log

/-- One callback follows another in turn: a removal follows the addition of the same entry for the
same reference, and an addition follows a removal. -/
def Callback.Follows : Callback E → Callback E → Prop
  | .unbind entry r, .bind entry' r' => entry = entry' ∧ r = r'
  | .bind _ _, .unbind _ _ => True
  | _, _ => False

/-- The callbacks about one service come in turns, and an addition is the first of them. -/
structure Alternating (id : UInt64) (log : List (Callback E)) : Prop where
  turns : (logAbout id log).IsChain Callback.Follows
  first : ∀ callback ∈ (logAbout id log).getLast?, ∃ entry r, callback = .bind entry r

/-- A log in which what is added is new, and what is taken away was added. -/
inductive Linear : List (Callback E) → Prop where
  | nil : Linear []
  | bind {log : List (Callback E)} {entry : E} {r : ServiceReference} (hl : Linear log)
    (hn : ∀ p ∈ replayed log, p.2.id ≠ r.id) : Linear (.bind entry r :: log)
  | unbind {log : List (Callback E)} {entry : E} {r : ServiceReference} (hl : Linear log)
    (hm : (entry, r) ∈ replayed log) : Linear (.unbind entry r :: log)
  | other {log : List (Callback E)} {callback : Callback E} (hl : Linear log)
    (ho : callback.service? = none) : Linear (callback :: log)

/-! ## One callback more -/

section Cons

variable {id : UInt64} {callback : Callback E} {log : List (Callback E)}

theorem replayed_cons_of_none (ho : callback.service? = none) :
    replayed (callback :: log) = replayed log := by
  cases callback with
  | bind | unbind => cases ho
  | _ => rfl

theorem logAbout_cons_of_ne (hne : callback.service? ≠ some id) :
    logAbout id (callback :: log) = logAbout id log := by
  rw [logAbout, List.filter_cons_of_neg (by simpa using hne), logAbout]

theorem logAbout_cons_self (hid : callback.service? = some id) :
    logAbout id (callback :: log) = callback :: logAbout id log := by
  rw [logAbout, List.filter_cons_of_pos (by simpa using hid), logAbout]

namespace Alternating

theorem nil (id : UInt64) : Alternating id ([] : List (Callback E)) :=
  ⟨.nil, fun _ hc => by cases hc⟩

/-- A callback about another service. -/
theorem cons_of_ne (ha : Alternating id log) (hne : callback.service? ≠ some id) :
    Alternating id (callback :: log) := by
  refine ⟨?_, ?_⟩
  all_goals rw [logAbout_cons_of_ne hne]
  · exact ha.turns
  · exact ha.first

/-- A callback in turn. -/
theorem cons (ha : Alternating id log) (hid : callback.service? = some id)
    (hturn : ∀ before ∈ (logAbout id log).head?, callback.Follows before)
    (hfirst : logAbout id log = [] → ∃ entry r, callback = .bind entry r) :
    Alternating id (callback :: log) := by
  refine ⟨?_, fun first hf => ?_⟩
  · rw [logAbout_cons_self hid]
    exact List.isChain_cons.2 ⟨hturn, ha.turns⟩
  · rw [logAbout_cons_self hid] at hf
    cases hlog : logAbout id log with
    | nil =>
      rw [hlog] at hf
      obtain rfl := Option.some.inj hf
      exact hfirst hlog
    | cons before older =>
      rw [hlog, List.getLast?_cons_cons, ← hlog] at hf
      exact ha.first first hf

end Alternating

end Cons

/-! ## Linear logs -/

/-- The latest callback about a service: the addition of the entry that it has, or a removal. -/
structure Latest (id : UInt64) (log : List (Callback E)) : Prop where
  added : ∀ p ∈ replayed log, p.2.id = id → (logAbout id log).head? = some (.bind p.1 p.2)
  removed : (∀ p ∈ replayed log, p.2.id ≠ id) →
    ∀ callback ∈ (logAbout id log).head?, ∃ entry r, callback = .unbind entry r

/-- What is about other services only changes nothing about this one. -/
theorem Latest.of_same {id : UInt64} {log log' : List (Callback E)} (hl : Latest id log)
    (habout : logAbout id log' = logAbout id log)
    (hsame : ∀ p : E × ServiceReference, p.2.id = id → (p ∈ replayed log' ↔ p ∈ replayed log)) :
    Latest id log' where
  added p hp hid := by
    rw [habout]
    exact hl.added p ((hsame p hid).1 hp) hid
  removed hno := by
    rw [habout]
    exact hl.removed fun p hp hid => hno p ((hsame p hid).2 hp) hid

namespace Linear

variable {log : List (Callback E)}

/-- In a linear log the latest callback about a service tells whether it has an entry. -/
theorem latest (hl : Linear log) (id : UInt64) : Latest id log := by
  induction hl with
  | nil => exact ⟨fun p hp => absurd hp List.not_mem_nil, fun _ callback hc => by cases hc⟩
  | @bind log entry r hl hn ih =>
    by_cases hid : r.id = id
    · have hself : logAbout id (.bind entry r :: log) = .bind entry r :: logAbout id log :=
        logAbout_cons_self (congrArg some hid)
      refine ⟨fun p hp hpid => ?_, fun hno => absurd hid (hno _ List.mem_cons_self)⟩
      rw [hself]
      rcases List.mem_cons.1 hp with rfl | hp
      · rfl
      · exact absurd (hpid.trans hid.symm) (hn p hp)
    · refine ih.of_same (logAbout_cons_of_ne fun heq => hid (Option.some.inj heq))
        fun p hpid => ⟨fun hp => (List.mem_cons.1 hp).resolve_left fun heq => ?_,
          List.mem_cons_of_mem _⟩
      rw [heq] at hpid
      exact hid hpid
  | @unbind log entry r hl hm ih =>
    by_cases hid : r.id = id
    · have hself : logAbout id (.unbind entry r :: log) = .unbind entry r :: logAbout id log :=
        logAbout_cons_self (congrArg some hid)
      refine ⟨fun p hp hpid => ?_, fun _ callback hc => ?_⟩
      · -- what was added for this service is gone
        have hleft := (List.mem_filter.1 hp).2
        rw [hpid, hid, bne_self_eq_false] at hleft
        cases hleft
      · rw [hself] at hc
        exact ⟨entry, r, (Option.some.inj hc).symm⟩
    · refine ih.of_same (logAbout_cons_of_ne fun heq => hid (Option.some.inj heq))
        fun p hpid => ⟨fun hp => (List.mem_filter.1 hp).1, fun hp => List.mem_filter.2 ⟨hp, ?_⟩⟩
      rw [hpid]
      exact bne_iff_ne.2 (Ne.symm hid)
  | other hl ho ih =>
    exact ih.of_same (logAbout_cons_of_ne (by simp [ho])) fun p _ => by
      rw [replayed_cons_of_none ho]

/-- **Alternation.** In a linear log the callbacks about each service come in turns. -/
theorem alternating (hl : Linear log) (id : UInt64) : Alternating id log := by
  induction hl with
  | nil => exact .nil id
  | @bind log entry r hl hn ih =>
    by_cases hid : r.id = id
    · subst hid
      refine ih.cons rfl (fun before hb => ?_) fun _ => ⟨entry, r, rfl⟩
      obtain ⟨entry', r', rfl⟩ := (hl.latest r.id).removed hn before hb
      trivial
    · exact ih.cons_of_ne fun heq => hid (Option.some.inj heq)
  | @unbind log entry r hl hm ih =>
    by_cases hid : r.id = id
    · subst hid
      have hlast := (hl.latest r.id).added _ hm rfl
      refine ih.cons rfl (fun before hb => ?_) fun hnil => ?_
      · rw [hlast] at hb
        obtain rfl := Option.some.inj hb
        exact ⟨rfl, rfl⟩
      · rw [hnil] at hlast
        cases hlast
    · exact ih.cons_of_ne fun heq => hid (Option.some.inj heq)
  | other hl ho ih => exact ih.cons_of_ne (by simp [ho])

end Linear

end LiveServices
