import LiveServices.Proofs.Filter.Positions

/-!
# The text that a filter keeps

A filter keeps its text without the blanks at either end. That text is a filter again, and the same
one (`parse_source`): the blanks that are cut off are the ones that reading skips.

At the start reading skips blanks because it stays where it is (`Blanks.leads`). At the end the same
has to be said backwards: a blank leads to the end of a filter only from the end of that filter
(`Blanks.eq_of_finished`), so no blank that is cut off was part of a value. Reading does not look at
its position, so between blanks a text is read as it is by itself (`readNode_between_blanks`).
-/

namespace LiveServices.ServiceFilter

variable {source : String} {filter : ServiceFilter} {node : Node}

/-- A text may end in one phase only. -/
theorem phase_of_finish {s : State} (h : finish s = .ok node) : s.phase = .finished node := by
  obtain ⟨frames, phase⟩ := s
  cases phase with
  | finished found => exact congrArg Phase.finished (Except.ok.inj h)
  | opening =>
    unfold finish at h
    dsimp only at h
    split at h
    all_goals cases h
  | body | name | equals | value | escape | closing => cases h

/-- A blank leads to the end of a filter only from there. -/
theorem eq_of_step_finished {s t : State} {c : Char} (hc : Text.isBlank c = true)
    (h : step s c = .ok t) (ht : t.phase = .finished node) : s = t := by
  have hclose : c ≠ ')' := by
    rintro rfl
    cases hc
  obtain ⟨frames, phase⟩ := s
  cases phase with
  | opening => exact Except.ok.inj ((step_opening_of_isBlank hc).symm.trans h)
  | body => exact Except.ok.inj ((step_body_of_isBlank hc).symm.trans h)
  | closing node => exact Except.ok.inj ((step_closing_of_isBlank hc).symm.trans h)
  | finished node => exact Except.ok.inj ((step_finished_of_isBlank hc).symm.trans h)
  | name read =>
    simp only [step, endName] at h
    split at h
    · split at h
      all_goals
        cases h
        try cases ht
    · cases h
      cases ht
  | equals key relation =>
    simp only [step] at h
    split at h
    · cases h
      cases ht
    · cases h
  | value reading =>
    simp only [step] at h
    split at h
    · exact absurd rfl hclose
    all_goals
      cases h
      try cases ht
  | escape reading =>
    cases h
    cases ht

/-- So do any number of blanks. -/
theorem Blanks.eq_of_finished {cs : List Char} (hcs : Blanks cs) {s t : State} (h : Leads s cs t)
    (ht : t.phase = .finished node) : s = t := by
  induction cs generalizing s with
  | nil => exact Except.ok.inj h
  | cons c cs ih =>
    obtain ⟨u, hu, hrest⟩ := Leads.cons_iff.1 h
    obtain rfl : u = t := ih (fun d hd => hcs d (List.mem_cons_of_mem _ hd)) hrest
    exact eq_of_step_finished (hcs c List.mem_cons_self) hu ht

/-- A text is read the same between blanks as by itself. -/
theorem readNode_between_blanks {before after cs : List Char} (hbefore : Blanks before)
    (hafter : Blanks after) :
    readNode (before ++ (cs ++ after)) = .ok node ↔ readNode cs = .ok node := by
  have hstart : Leads .start before .start := hbefore.leads fun _ => step_start_of_isBlank
  unfold readNode
  rw [readFrom_eq_ok_iff, readFrom_eq_ok_iff]
  constructor
  · rintro ⟨t, ht, hf⟩
    obtain ⟨s, hs, hrest⟩ := ht.split
    obtain rfl := hs.unique hstart
    obtain ⟨u, hu, hend⟩ := hrest.split
    obtain rfl := hafter.eq_of_finished hend (phase_of_finish hf)
    exact ⟨u, hu, hf⟩
  · rintro ⟨t, ht, hf⟩
    obtain ⟨frames, phase⟩ := t
    obtain rfl : phase = .finished node := phase_of_finish hf
    have hend : Leads ⟨frames, .finished node⟩ after ⟨frames, .finished node⟩ :=
      hafter.leads fun _ => step_finished_of_isBlank
    exact ⟨_, hstart.append (ht.append hend), hf⟩

theorem parse_eq_ok_iff : parse source = .ok filter ↔
    filter.source = Text.trim source ∧ readNode source.toList = .ok filter.node := by
  constructor
  · intro h
    cases hread : readNode source.toList with
    | error e =>
      rw [parse_eq_error hread] at h
      cases h
    | ok node =>
      rw [parse_eq_ok hread] at h
      cases h
      exact ⟨rfl, rfl⟩
  · rintro ⟨hsource, hnode⟩
    rw [parse_eq_ok hnode, ← hsource]

/-- A filter is the same between blanks as by itself. -/
theorem parse_between_blanks {before after : String} (hbefore : Text.isBlankText before = true)
    (hafter : Text.isBlankText after = true) :
    parse (before ++ source ++ after) = .ok filter ↔ parse source = .ok filter := by
  have hb : Blanks before.toList := List.all_eq_true.1 hbefore
  have ha : Blanks after.toList := List.all_eq_true.1 hafter
  have htext : (before ++ source ++ after).toList =
      before.toList ++ (source.toList ++ after.toList) := by
    rw [String.toList_append, String.toList_append, List.append_assoc]
  rw [parse_eq_ok_iff, parse_eq_ok_iff, Text.trim, htext, Text.trimChars_append hb ha,
    readNode_between_blanks hb ha, Text.trim]

/-- **Sources.** The text that a filter keeps is a filter, and it is that filter, with its text and
its tree; and so it is whatever blanks stand around it. -/
theorem parse_source (h : parse source = .ok filter) :
    parse filter.source = .ok filter ∧
    ∀ before after : String, Text.isBlankText before = true → Text.isBlankText after = true →
      parse (before ++ filter.source ++ after) = .ok filter := by
  have hkept : parse filter.source = .ok filter := by
    obtain ⟨before, after, hbefore, hafter, hsource⟩ :=
      Text.exists_append_trimChars source.toList
    have htext : source =
        String.ofList before ++ Text.trim source ++ String.ofList after := by
      rw [← String.toList_inj, String.toList_append, String.toList_append, Text.trim,
        String.toList_ofList, String.toList_ofList, String.toList_ofList, List.append_assoc]
      exact hsource
    have hb : Text.isBlankText (String.ofList before) = true := by
      rw [Text.isBlankText, String.toList_ofList]
      exact List.all_eq_true.2 hbefore
    have ha : Text.isBlankText (String.ofList after) = true := by
      rw [Text.isBlankText, String.toList_ofList]
      exact List.all_eq_true.2 hafter
    rw [(parse_eq_ok_iff.1 h).1]
    rw [htext] at h
    exact (parse_between_blanks hb ha).1 h
  exact ⟨hkept, fun before after hbefore hafter =>
    (parse_between_blanks hbefore hafter).2 hkept⟩

/-- Wide blanks around a filter and inside it. The last character of the first value is a blank too,
and it stays; an attribute name loses the one before it. -/
theorem parse_source_wide_blanks :
    ∃ filter,
      parse "\u2003(&\u00a0(\u2000a=x\u3000) (!(b~=\u2009y\\))) )\u2028\n" = .ok filter ∧
      filter.node = .and [.equal "a" ⟨"x\u3000", []⟩, .not (.approx "b" "\u2009y)")] ∧
      filter.source = "(&\u00a0(\u2000a=x\u3000) (!(b~=\u2009y\\))) )" ∧
      parse filter.source = .ok filter ∧
      parse ("\u0085" ++ filter.source ++ "\u205f") = .ok filter := by
  have hfilter : parse "\u2003(&\u00a0(\u2000a=x\u3000) (!(b~=\u2009y\\))) )\u2028\n" = .ok
      ⟨"(&\u00a0(\u2000a=x\u3000) (!(b~=\u2009y\\))) )",
        .and [.equal "a" ⟨"x\u3000", []⟩, .not (.approx "b" "\u2009y)")]⟩ := rfl
  obtain ⟨hkept, haround⟩ := parse_source hfilter
  exact ⟨_, hfilter, rfl, rfl, hkept, haround _ _ rfl rfl⟩

end LiveServices.ServiceFilter
