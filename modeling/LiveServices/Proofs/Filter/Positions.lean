import LiveServices.Proofs.Filter.Reading

/-!
# Where a text stops being a filter

A text that is no filter is refused with a position. It is the length of the longest start of the
text with which a filter can start: what was read up to there can still be completed, and one
character more cannot.

The reader has two properties that make it so. From every state a filter can be completed, whatever
is open there (`State.viable`, by what is expected next and by induction on the open conditions).
And a state that refuses a character refuses it before every other text too, because nothing is
read ahead (`not_startsFilter_of_step`). An error stands where a state refused a character or the end
(`readFrom_eq_error`), so the state before it is the last one that can go on.
-/

namespace LiveServices.ServiceFilter

/-! ## Every state can be completed -/

namespace State

/-- Some text leads from the state to the end of a filter. -/
def Viable (s : State) : Prop := ∃ cs t node, Leads s cs t ∧ finish t = .ok node

/-- A state is viable if the next one is. -/
theorem Viable.of_step {s t : State} {c : Char} (h : step s c = .ok t) (ht : t.Viable) :
    s.Viable := by
  obtain ⟨cs, u, node, hcs, hu⟩ := ht
  exact ⟨c :: cs, u, node, .cons h hcs, hu⟩

/-- A node that is finished can be closed with all that is open around it. -/
theorem viable_finished (frames : List Frame) (node : Node) :
    State.Viable ⟨frames, .finished node⟩ :=
  ⟨[], _, node, .refl _, rfl⟩

/-- After a complete condition the conditions around it are closed one by one. -/
theorem viable_deliver (node : Node) (frames : List Frame) : (deliver node frames).Viable := by
  induction frames generalizing node with
  | nil => exact viable_finished [] node
  | cons frame frames ih =>
    cases frame with
    | and done => exact .of_step (c := ')') rfl (ih (.and (node :: done).reverse))
    | or done => exact .of_step (c := ')') rfl (ih (.or (node :: done).reverse))
    | not => exact .of_step (c := ')') rfl (ih (.not node))

/-- A value can be ended at once. -/
theorem viable_value (frames : List Frame) (reading : Reading) :
    State.Viable ⟨frames, .value reading⟩ :=
  .of_step (c := ')') rfl (viable_deliver reading.node frames)

/-- A name can be followed by a test of its presence. -/
theorem viable_name (frames : List Frame) (read : List Char) :
    State.Viable ⟨frames, .name read⟩ :=
  .of_step (c := '=') rfl (viable_value frames _)

theorem viable_body (frames : List Frame) : State.Viable ⟨frames, .body⟩ :=
  .of_step (c := 'a') rfl (viable_name frames _)

/-- From every reading point a filter can be completed. -/
theorem viable (s : State) : s.Viable := by
  obtain ⟨frames, phase⟩ := s
  cases phase with
  | opening => exact .of_step (c := '(') rfl (viable_body frames)
  | body => exact viable_body frames
  | name read => exact viable_name frames read
  | equals key relation => exact .of_step (c := '=') rfl (viable_value frames _)
  | value reading => exact viable_value frames reading
  | escape reading => exact .of_step (c := 'a') rfl (viable_value frames _)
  | closing node => exact .of_step (c := ')') rfl (viable_deliver node frames)
  | finished node => exact viable_finished frames node

end State

/-! ## Where an error stands -/

namespace Leads

variable {s t u : State} {cs ds : List Char}

/-- What characters lead to is determined by them. -/
theorem unique (ht : Leads s cs t) (hu : Leads s cs u) : t = u :=
  Except.ok.inj (Eq.trans (Eq.symm ht) hu)

/-- What characters lead to is reached by way of what the first of them lead to. -/
theorem split (h : Leads s (cs ++ ds) u) : ∃ t, Leads s cs t ∧ Leads t ds u := by
  unfold Leads at h ⊢
  rw [List.foldlM_append] at h
  cases hcs : cs.foldlM step s with
  | error cause =>
    rw [hcs] at h
    cases h
  | ok t =>
    rw [hcs] at h
    exact ⟨t, rfl, h⟩

end Leads

/-- A state goes on neither with the next character nor, if there is none, with the end. -/
inductive Stuck (s : State) : List Char → Cause → Prop where
  | at_end {cause : Cause} (h : finish s = .error cause) : Stuck s [] cause
  | at_char {cause : Cause} {c : Char} {rest : List Char} (h : step s c = .error cause) :
    Stuck s (c :: rest) cause

/-- Reading fails where the state that the text led to is stuck. -/
theorem readFrom_eq_error {s : State} {n : Nat} {cs : List Char} {e : SyntaxError}
    (h : readFrom s n cs = .error e) :
    ∃ before rest t, cs = before ++ rest ∧ Leads s before t ∧ Stuck t rest e.cause ∧
      e.position = n + before.length := by
  induction cs generalizing s n with
  | nil =>
    rw [readFrom_nil] at h
    cases hf : finish s with
    | ok node =>
      rw [hf] at h
      cases h
    | error cause =>
      rw [hf] at h
      cases h
      exact ⟨[], [], s, rfl, .refl s, .at_end hf, rfl⟩
  | cons c cs ih =>
    cases hstep : step s c with
    | error cause =>
      rw [readFrom_cons_error hstep] at h
      cases h
      exact ⟨[], c :: cs, s, rfl, .refl s, .at_char hstep, rfl⟩
    | ok t =>
      rw [readFrom_cons_ok hstep] at h
      obtain ⟨before, rest, u, rfl, hu, hstuck, hposition⟩ := ih h
      refine ⟨c :: before, rest, u, rfl, .cons hstep hu, hstuck, ?_⟩
      rw [hposition, List.length_cons]
      omega

/-! ## What a filter can start with -/

/-- Some filter starts with these characters. -/
def StartsFilter (cs : List Char) : Prop :=
  ∃ rest filter, parse (String.ofList (cs ++ rest)) = .ok filter

theorem parse_eq_ok {source : String} {node : Node} (h : readNode source.toList = .ok node) :
    parse source = .ok ⟨Text.trim source, node⟩ := by
  rw [parse, read, h]
  rfl

theorem parse_eq_error {source : String} {e : SyntaxError} (h : readNode source.toList = .error e) :
    parse source = .error (.invalidFilter source e.message) := by
  rw [parse, read, h]
  rfl

/-- Characters start a filter if some more make one of them. -/
theorem startsFilter_iff {cs : List Char} :
    StartsFilter cs ↔ ∃ rest node, readNode (cs ++ rest) = .ok node := by
  constructor
  · rintro ⟨rest, filter, hfilter⟩
    refine ⟨rest, ?_⟩
    cases hread : readNode (cs ++ rest) with
    | ok node => exact ⟨node, rfl⟩
    | error e =>
      rw [parse_eq_error (e := e) (by rw [String.toList_ofList, hread])] at hfilter
      cases hfilter
  · rintro ⟨rest, node, hnode⟩
    exact ⟨rest, _, parse_eq_ok (by rw [String.toList_ofList, hnode])⟩

/-- A filter can start with every text that leads to some state. -/
theorem startsFilter_of_leads {cs : List Char} {t : State} (h : Leads .start cs t) :
    StartsFilter cs := by
  obtain ⟨rest, u, node, hrest, hu⟩ := t.viable
  exact startsFilter_iff.2 ⟨rest, node, readFrom_eq_ok_iff.2 ⟨u, h.append hrest, hu⟩⟩

/-- Every start of a filter leads to some state. -/
theorem exists_leads_of_startsFilter {cs : List Char} (h : StartsFilter cs) :
    ∃ t, Leads .start cs t := by
  obtain ⟨rest, node, hnode⟩ := startsFilter_iff.1 h
  obtain ⟨u, hu, -⟩ := readFrom_eq_ok_iff.1 hnode
  obtain ⟨t, ht, -⟩ := hu.split
  exact ⟨t, ht⟩

/-- No filter starts with a text and a character that the state of the text refuses. -/
theorem not_startsFilter_of_step {cs : List Char} {c : Char} {t : State} {cause : Cause}
    (h : Leads .start cs t) (hc : step t c = .error cause) : ¬ StartsFilter (cs ++ [c]) := by
  intro hstarts
  obtain ⟨u, hu⟩ := exists_leads_of_startsFilter hstarts
  obtain ⟨t', ht', hu⟩ := hu.split
  obtain ⟨next, hnext, -⟩ := Leads.cons_iff.1 hu
  rw [ht'.unique h, hc] at hnext
  cases hnext

/-- **Positions of errors.** A text that is refused is reported as it is, with the length of the
longest start of it that some filter has too. -/
theorem parse_error_position {source : String} {failure : Failure}
    (h : parse source = .error failure) :
    ∃ (cause : Cause) (position : Nat),
      failure = .invalidFilter source
        (cause.message ++ " at position " ++ toString position) ∧
      position ≤ source.toList.length ∧
      StartsFilter (source.toList.take position) ∧
      (position < source.toList.length →
        ¬ StartsFilter (source.toList.take (position + 1))) := by
  cases hread : readNode source.toList with
  | ok node =>
    rw [parse_eq_ok hread] at h
    cases h
  | error e =>
    rw [parse_eq_error hread] at h
    obtain ⟨before, rest, t, hsource, ht, hstuck, hposition⟩ := readFrom_eq_error hread
    rw [Nat.zero_add] at hposition
    refine ⟨e.cause, e.position, (Except.error.inj h).symm, ?_⟩
    rw [hsource, hposition, List.take_left]
    refine ⟨by simp, startsFilter_of_leads ht, ?_⟩
    cases hstuck with
    | at_end hend => simp
    | @at_char _ c rest hc =>
      intro _
      have htake : (before ++ c :: rest).take (before.length + 1) = before ++ [c] := by
        rw [List.take_append, List.take_of_length_le (Nat.le_succ _)]
        simp
      rw [htake]
      exact not_startsFilter_of_step ht hc

/-- Half a sign inside two conditions that are open. -/
theorem parse_error_position_half_sign :
    parse "(!(a~b))" = .error (.invalidFilter "(!(a~b))" "expected '=' at position 5") ∧
    ∃ (cause : Cause) (position : Nat),
      Failure.invalidFilter "(!(a~b))" "expected '=' at position 5" =
        .invalidFilter "(!(a~b))" (cause.message ++ " at position " ++ toString position) ∧
      position ≤ "(!(a~b))".toList.length ∧
      StartsFilter ("(!(a~b))".toList.take position) ∧
      (position < "(!(a~b))".toList.length →
        ¬ StartsFilter ("(!(a~b))".toList.take (position + 1))) := by
  have hrefused : parse "(!(a~b))" =
      .error (.invalidFilter "(!(a~b))" "expected '=' at position 5") := rfl
  exact ⟨hrefused, parse_error_position hrefused⟩

end LiveServices.ServiceFilter
