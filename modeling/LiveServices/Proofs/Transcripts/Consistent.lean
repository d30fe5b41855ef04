import LiveServices.Replay
import Mathlib.Data.List.Induction

/-!
# Transcripts that explain themselves

Which services are bound at a point of a transcript is read off the records before it
(`Transcript.bound`), and so is the notice that has to come next (`Transcript.due`). A record
follows others if what it says is right while these services are bound, and if it is the notice
that is due, or none is due and it is no notice (`Transcript.Follows`). A transcript is consistent
if each record follows those before it and no notice is due at its end.

`Transcript.Explained` is what a reader makes of a consistent transcript at whose end nothing is
bound: the binds and unbinds of a service come in pairs, each read shows what is bound then, and
notices come where the first service is bound and where the last one is unbound.
-/

namespace LiveServices

namespace Record

/-- Whether a record tells that this service was bound or unbound. -/
def isAbout (id : UInt64) : Record → Bool
  | bind other _ | unbind other _ => other == id
  | _ => false

/-- Whether a record tells that the dependency came to be met or ceased to be. -/
def isNotice : Record → Bool
  | satisfied _ | unsatisfied _ => true
  | _ => false

/-- Whether a record tells that something was lost: a service, or the last one that was needed. -/
def isLoss : Record → Bool
  | unbind _ _ | unsatisfied _ => true
  | _ => false

end Record

namespace Transcript

/-! ## What records say of services -/

/-- A service as a transcript names it when it is bound. -/
abbrev Service := UInt64 × Option String

/-- The label of a service. -/
def label (s : Service) : String := s.2.getD (Text.ofId s.1)

/-- The services that are bound after one more record. -/
def after (bound : List Service) : Record → List Service
  | .bind id name => bound ++ [(id, name)]
  | .unbind id _ => bound.filter (·.1 != id)
  | _ => bound

/-- The services that were bound and not unbound since, in the order in which they were bound. -/
def bound (records : List Record) : List Service := records.foldl after []

/-- What a read tells while these services are bound. -/
inductive Reads (config : ImporterConfig) (bound : List Service) :
    Option Nat → List String → Option String → Prop where
  /-- A dependency that is mandatory is not met without services. -/
  | lacking (hm : config.mandatory = true) (hb : bound = []) (message : String) :
    Reads config bound none [] (some message)
  | listing {services : List String} (hb : config.mandatory = true → bound ≠ [])
    (hp : services.Perm (bound.map label))
    (ho : config.collection.isSorted = false → services = bound.map label) :
    Reads config bound (some bound.length) services none

/-- What a record says is right while these services are bound. -/
def IsRight (config : ImporterConfig) (bound : List Service) : Record → Prop
  | .bind id _ => bound.filter (·.1 == id) = []
  | .unbind id name => bound.filter (·.1 == id) = [(id, name)]
  | .read size services error => Reads config bound size services error
  | _ => True

/-- The notice that has to come at once after these records, if one has. -/
def due (config : ImporterConfig) (records : List Record) : Option Record :=
  match records.getLast? with
  | some (.bind _ _) =>
    if config.mandatory = true ∧ (bound records).length = 1 then
      some (.satisfied config.beanName)
    else none
  | some (.unbind _ _) =>
    if config.mandatory = true ∧ (bound records).length = 0 then
      some (.unsatisfied config.beanName)
    else none
  | _ => none

/-- A record may come next after these. -/
structure Follows (config : ImporterConfig) (before : List Record) (r : Record) : Prop where
  right : IsRight config (bound before) r
  timely : due config before = if r.isNotice then some r else none

/-- Each record follows those before it. -/
def Told (config : ImporterConfig) (records : List Record) : Prop :=
  ∀ before r after, records = before ++ r :: after → Follows config before r

/-- Each record follows those before it, and no notice is due. -/
structure Consistent (config : ImporterConfig) (records : List Record) : Prop where
  told : Told config records
  complete : due config records = none

variable {config : ImporterConfig} {records : List Record} {r : Record} {id : UInt64}
  {name : Option String}

/-! ## One more record -/

@[simp] theorem bound_append_singleton (records : List Record) (r : Record) :
    bound (records ++ [r]) = after (bound records) r := by simp [bound]

theorem due_bind : due config (records ++ [.bind id name]) =
    if config.mandatory = true ∧ (bound records).length = 0 then some (.satisfied config.beanName)
    else none := by
  simp [due, after]

theorem due_unbind : due config (records ++ [.unbind id name]) =
    if config.mandatory = true ∧ ((bound records).filter (·.1 != id)).length = 0 then
      some (.unsatisfied config.beanName)
    else none := by
  unfold due
  rw [List.getLast?_concat, bound_append_singleton]
  rfl

/-- Nothing is due after a record that tells of no service. -/
theorem due_of_idle (hr : ∀ id, r.isAbout id = false) : due config (records ++ [r]) = none := by
  unfold due
  rw [List.getLast?_concat]
  cases r with
  | bind id name | unbind id name => simpa [Record.isAbout] using hr id
  | _ => rfl

/-- A record that tells of no service leaves bound what is. -/
theorem after_of_idle {services : List Service} (hr : ∀ id, r.isAbout id = false) :
    after services r = services := by
  cases r with
  | bind id name | unbind id name => simpa [Record.isAbout] using hr id
  | _ => rfl

/-- What is due is a notice of the importer. -/
theorem eq_of_due {n : Record} (hd : due config records = some n) :
    n = .satisfied config.beanName ∨ n = .unsatisfied config.beanName := by
  unfold due at hd
  split at hd
  · split at hd
    · exact .inl (Option.some.inj hd).symm
    · cases hd
  · split at hd
    · exact .inr (Option.some.inj hd).symm
    · cases hd
  · cases hd

/-- What is due may come next, and it tells of no service. -/
theorem Follows.of_due {n : Record} (hd : due config records = some n) :
    Follows config records n ∧ ∀ id, n.isAbout id = false := by
  rcases eq_of_due hd with rfl | rfl
  · exact ⟨⟨trivial, hd⟩, fun _ => rfl⟩
  · exact ⟨⟨trivial, hd⟩, fun _ => rfl⟩

theorem told_nil : Told config [] := by
  intro before r after heq
  cases before <;> cases heq

theorem told_append_singleton :
    Told config (records ++ [r]) ↔ Told config records ∧ Follows config records r := by
  constructor
  · intro ht
    refine ⟨fun before other after heq => ?_, ht records r [] rfl⟩
    exact ht before other (after ++ [r]) (by simp [heq])
  · rintro ⟨ht, hr⟩ before other after heq
    rcases List.eq_nil_or_concat after with rfl | ⟨after, last, rfl⟩
    · obtain ⟨rfl, hlast⟩ := List.append_inj' heq rfl
      obtain rfl := List.singleton_inj.1 hlast
      exact hr
    · have hsplit : records ++ [r] = (before ++ other :: after) ++ [last] := by simpa using heq
      exact ht before other after (List.append_inj' hsplit rfl).1

theorem consistent_nil : Consistent config [] := ⟨told_nil, rfl⟩

/-- A transcript stays consistent by a record that is right and the notice that is due then. -/
theorem Consistent.append (hs : Consistent config records) (hr : IsRight config (bound records) r)
    (hn : r.isNotice = false) :
    Consistent config (records ++ r :: (due config (records ++ [r])).toList) ∧
      bound (records ++ r :: (due config (records ++ [r])).toList) = after (bound records) r := by
  have hfollows : Follows config records r := ⟨hr, by rw [hs.complete, hn]; rfl⟩
  have htold := told_append_singleton.2 ⟨hs.told, hfollows⟩
  cases hd : due config (records ++ [r]) with
  | none => exact ⟨⟨htold, hd⟩, bound_append_singleton records r⟩
  | some n =>
    have hsplit : records ++ r :: [n] = (records ++ [r]) ++ [n] := by simp
    show Consistent config (records ++ r :: [n]) ∧ bound (records ++ r :: [n]) = _
    rw [hsplit, bound_append_singleton, bound_append_singleton]
    obtain ⟨hnotice, hidle⟩ := Follows.of_due hd
    exact ⟨⟨told_append_singleton.2 ⟨htold, hnotice⟩, due_of_idle hidle⟩, after_of_idle hidle⟩

/-- A record that tells of no service and is no notice. -/
theorem Consistent.append_idle (hs : Consistent config records)
    (hr : IsRight config (bound records) r) (hn : r.isNotice = false)
    (hi : ∀ id, r.isAbout id = false) :
    Consistent config (records ++ [r]) ∧ bound (records ++ [r]) = bound records := by
  have happend := hs.append hr hn
  rw [due_of_idle hi, after_of_idle hi] at happend
  exact happend

/-! ## What a reader makes of it -/

/-- A transcript of this importer explains itself. -/
structure Explained (config : ImporterConfig) (records : List Record) : Prop where
  /-- The binds and unbinds of a service alternate, from a bind to an unbind, and an unbind has the
  name of its bind. -/
  paired : ∀ id, ∃ names : List (Option String), records.filter (·.isAbout id) =
    names.flatMap fun name => [.bind id name, .unbind id name]
  /-- A read shows the services that are bound then. -/
  read : ∀ before size services error after,
    records = before ++ .read size services error :: after →
    Reads config (bound before) size services error
  /-- It is told that the dependency came to be met exactly where the first service was bound. -/
  satisfied : ∀ before after importer, records = before ++ after →
    ((∃ rest, after = .satisfied importer :: rest) ↔
      config.mandatory = true ∧ importer = config.beanName ∧ ∃ earlier id name,
        before = earlier ++ [.bind id name] ∧
        (bound earlier).length = 0 ∧ (bound before).length = 1)
  /-- It is told that the dependency ceased to be met exactly where the last service was unbound. -/
  unsatisfied : ∀ before after importer, records = before ++ after →
    ((∃ rest, after = .unsatisfied importer :: rest) ↔
      config.mandatory = true ∧ importer = config.beanName ∧ ∃ earlier id name,
        before = earlier ++ [.unbind id name] ∧
        (bound earlier).length = 1 ∧ (bound before).length = 0)

/-- The records of a service are pairs of a bind and its unbind, and the bind of a service that is
still bound. -/
theorem Told.paired (ht : Told config records) (id : UInt64) : ∃ names : List (Option String),
    records.filter (·.isAbout id) =
      (names.flatMap fun name => [.bind id name, .unbind id name]) ++
      ((bound records).filter (·.1 == id)).map fun s => .bind s.1 s.2 := by
  induction records using List.reverseRecOn with
  | nil => exact ⟨[], rfl⟩
  | append_singleton records r ih =>
    obtain ⟨htold, hfollows⟩ := told_append_singleton.1 ht
    obtain ⟨names, hnames⟩ := ih htold
    have hright := hfollows.right
    rw [List.filter_append, hnames, bound_append_singleton]
    by_cases hr : r.isAbout id = true
    · cases r with
      | bind other name =>
        obtain rfl : other = id := eq_of_beq hr
        have hnew : (bound records).filter (·.1 == other) = [] := hright
        exact ⟨names, by simp [after, hnew, Record.isAbout]⟩
      | unbind other name =>
        obtain rfl : other = id := eq_of_beq hr
        have hheld : (bound records).filter (·.1 == other) = [(other, name)] := hright
        refine ⟨names ++ [name], ?_⟩
        simp [after, hheld, Record.isAbout, List.filter_filter]
      | _ => cases hr
    · -- a record of another service leaves what is bound of this one
      have hsame : (after (bound records) r).filter (·.1 == id) =
          (bound records).filter (·.1 == id) := by
        cases r with
        | bind other name => simpa [after, Record.isAbout] using hr
        | unbind other name =>
          have hne : ¬ other = id := by simpa [Record.isAbout] using hr
          rw [after, List.filter_filter]
          refine List.filter_congr fun s _ => ?_
          by_cases hs : s.1 = id
          · simp [hs, Ne.symm hne]
          · simp [hs]
        | _ => rfl
      exact ⟨names, by simp [hr, hsame]⟩

/-- Where one service of this identity is bound, it makes one of the number of all. -/
theorem length_filter_of_unbind {services : List Service} {s : Service}
    (hs : services.filter (·.1 == id) = [s]) :
    (services.filter (·.1 != id)).length + 1 = services.length := by
  have hlength := (List.filter_append_perm (fun s : Service => s.1 == id) services).length_eq
  rw [List.length_append, hs] at hlength
  simpa [bne, Nat.add_comm] using hlength

/-- A notice comes exactly where it is due. -/
theorem Consistent.notice_iff (hs : Consistent config records) {before after : List Record}
    {n : Record} (hn : n.isNotice = true) (heq : records = before ++ after) :
    (∃ rest, after = n :: rest) ↔ due config before = some n := by
  constructor
  · rintro ⟨rest, rfl⟩
    rw [(hs.told before n rest heq).timely, if_pos hn]
  · intro hd
    cases after with
    | nil =>
      -- at the end of the transcript nothing is due
      rw [List.append_nil] at heq
      rw [← heq, hs.complete] at hd
      cases hd
    | cons r rest =>
      have hdue := (hs.told before r rest heq).timely
      rw [hd] at hdue
      split at hdue
      · exact ⟨rest, by rw [Option.some.inj hdue]⟩
      · cases hdue

/-- It is due to tell that the dependency came to be met just when the first service was bound. -/
theorem due_eq_satisfied_iff {importer : String} :
    due config records = some (.satisfied importer) ↔
      config.mandatory = true ∧ importer = config.beanName ∧ ∃ earlier id name,
        records = earlier ++ [.bind id name] ∧
        (bound earlier).length = 0 ∧ (bound records).length = 1 := by
  constructor
  · intro hd
    rcases List.eq_nil_or_concat records with rfl | ⟨earlier, r, rfl⟩
    · cases hd
    rw [List.concat_eq_append] at hd ⊢
    cases r with
    | bind id name =>
      rw [due_bind] at hd
      split at hd
      · next hfirst =>
        cases hd
        exact ⟨hfirst.1, rfl, earlier, id, name, rfl, hfirst.2, by simp [after, hfirst.2]⟩
      · cases hd
    | unbind id name =>
      rw [due_unbind] at hd
      split at hd <;> cases hd
    | _ =>
      rw [due_of_idle fun _ => rfl] at hd
      cases hd
  · rintro ⟨hm, rfl, earlier, id, name, rfl, hnone, -⟩
    rw [due_bind, if_pos ⟨hm, hnone⟩]

/-- It is due to tell that the dependency ceased to be met just when the last service was
unbound. -/
theorem Told.due_eq_unsatisfied_iff (ht : Told config records) {importer : String} :
    due config records = some (.unsatisfied importer) ↔
      config.mandatory = true ∧ importer = config.beanName ∧ ∃ earlier id name,
        records = earlier ++ [.unbind id name] ∧
        (bound earlier).length = 1 ∧ (bound records).length = 0 := by
  constructor
  · intro hd
    rcases List.eq_nil_or_concat records with rfl | ⟨earlier, r, rfl⟩
    · cases hd
    rw [List.concat_eq_append] at hd ht ⊢
    cases r with
    | bind id name =>
      rw [due_bind] at hd
      split at hd <;> cases hd
    | unbind id name =>
      rw [due_unbind] at hd
      split at hd
      · next hlast =>
        cases hd
        have hheld : (bound earlier).filter (·.1 == id) = [(id, name)] :=
          (told_append_singleton.1 ht).2.right
        have hlength := length_filter_of_unbind hheld
        refine ⟨hlast.1, rfl, earlier, id, name, rfl, ?_, ?_⟩
        · rw [← hlength, hlast.2]
        · rw [bound_append_singleton]
          exact hlast.2
      · cases hd
    | _ =>
      rw [due_of_idle fun _ => rfl] at hd
      cases hd
  · rintro ⟨hm, rfl, earlier, id, name, rfl, -, hnone⟩
    rw [bound_append_singleton] at hnone
    rw [due_unbind, if_pos ⟨hm, hnone⟩]

/-- **Explanation.** A consistent transcript at whose end nothing is bound explains itself. -/
theorem Consistent.explained (hs : Consistent config records) (hb : bound records = []) :
    Explained config records where
  paired id := by
    obtain ⟨names, hnames⟩ := hs.told.paired id
    exact ⟨names, by simpa [hb] using hnames⟩
  read before size services error after heq := (hs.told before _ after heq).right
  satisfied before after importer heq := by
    rw [hs.notice_iff rfl heq, due_eq_satisfied_iff]
  unsatisfied before after importer heq := by
    have htold : Told config before := fun early r late hearly =>
      hs.told early r (late ++ after) (by simp [heq, hearly])
    rw [hs.notice_iff rfl heq, htold.due_eq_unsatisfied_iff]

end Transcript

end LiveServices
