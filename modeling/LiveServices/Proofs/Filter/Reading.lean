import LiveServices.Proofs.Filter.Grammar

/-!
# Reading filters by the grammar

Reading takes a state from character to character (`Leads`), and a text is accepted exactly if
the state that it leads to may end (`readFrom_eq_ok_iff`).

A text of the grammar is accepted because the text of a condition leads from any place where one
may open to the place after it, whatever is open around (`Condition.leads`, by induction on the
condition). A text that is accepted is of the grammar because each state stands for what was read
so far: the conditions that are open, each with its opening and the conditions complete in it
(`Opened`), and what was read of the innermost one (`Stands`). One character keeps this
(`Stands.step`), so a whole text does (`Stands.leads`).

`parse_iff_derives` puts the two together.
-/

namespace LiveServices.ServiceFilter

/-! ## From state to state -/

/-- Reading these characters takes one state to another. -/
def Leads (s : State) (cs : List Char) (t : State) : Prop := cs.foldlM step s = .ok t

namespace Leads

variable {s t u : State} {c : Char} {cs ds : List Char}

theorem refl (s : State) : Leads s [] s := rfl

theorem of_step (h : step s c = .ok t) : Leads s [c] t := by
  unfold Leads
  rw [List.foldlM_cons, h]
  rfl

theorem append (h₁ : Leads s cs t) (h₂ : Leads t ds u) : Leads s (cs ++ ds) u := by
  unfold Leads at *
  rw [List.foldlM_append, h₁]
  exact h₂

theorem cons (h₁ : step s c = .ok t) (h₂ : Leads t cs u) : Leads s (c :: cs) u :=
  (of_step h₁).append h₂

theorem cons_iff : Leads s (c :: cs) u ↔ ∃ t, step s c = .ok t ∧ Leads t cs u := by
  unfold Leads
  rw [List.foldlM_cons]
  cases step s c with
  | error cause =>
    constructor
    · intro h
      cases h
    · rintro ⟨t, ht, -⟩
      cases ht
  | ok t =>
    constructor
    · intro h
      exact ⟨t, rfl, h⟩
    · rintro ⟨t', ht, h⟩
      cases ht
      exact h

end Leads

/-- A text is accepted exactly if the state that it leads to may end. -/
theorem readFrom_eq_ok_iff {s : State} {n : Nat} {cs : List Char} {node : Node} :
    readFrom s n cs = .ok node ↔ ∃ t, Leads s cs t ∧ finish t = .ok node := by
  induction cs generalizing s n with
  | nil =>
    rw [readFrom_nil]
    constructor
    · intro h
      refine ⟨s, .refl s, ?_⟩
      cases hf : finish s with
      | error cause =>
        rw [hf] at h
        cases h
      | ok found =>
        rw [hf] at h
        cases h
        rfl
    · rintro ⟨t, ht, hf⟩
      cases ht
      rw [hf]
      rfl
  | cons c cs ih =>
    cases hstep : step s c with
    | error cause =>
      rw [readFrom_cons_error hstep]
      constructor
      · intro h
        cases h
      · rintro ⟨t, ht, -⟩
        obtain ⟨s', hs', -⟩ := Leads.cons_iff.1 ht
        rw [hstep] at hs'
        cases hs'
    | ok s' =>
      rw [readFrom_cons_ok hstep, ih]
      constructor
      · rintro ⟨t, ht, hf⟩
        exact ⟨t, .cons hstep ht, hf⟩
      · rintro ⟨t, ht, hf⟩
        obtain ⟨s'', hs'', ht⟩ := Leads.cons_iff.1 ht
        rw [hstep] at hs''
        cases hs''
        exact ⟨t, ht, hf⟩

/-! ## Texts of the grammar are accepted -/

/-- Blanks lead from a state that skips them to itself. -/
theorem Blanks.leads {s : State} (hs : ∀ c, Text.isBlank c = true → step s c = .ok s)
    {cs : List Char} (hcs : Blanks cs) : Leads s cs s := by
  induction cs with
  | nil => exact .refl s
  | cons c cs ih =>
    exact .cons (hs c (hcs c List.mem_cons_self)) (ih fun d hd => hcs d (List.mem_cons_of_mem _ hd))

theorem step_opening_of_isBlank {frames : List Frame} {c : Char} (hc : Text.isBlank c = true) :
    step ⟨frames, .opening⟩ c = .ok ⟨frames, .opening⟩ := by simp [step, hc]

theorem step_body_of_isBlank {frames : List Frame} {c : Char} (hc : Text.isBlank c = true) :
    step ⟨frames, .body⟩ c = .ok ⟨frames, .body⟩ := by simp [step, hc]

theorem step_closing_of_isBlank {frames : List Frame} {node : Node} {c : Char}
    (hc : Text.isBlank c = true) :
    step ⟨frames, .closing node⟩ c = .ok ⟨frames, .closing node⟩ := by simp [step, hc]

theorem step_finished_of_isBlank {frames : List Frame} {node : Node} {c : Char}
    (hc : Text.isBlank c = true) :
    step ⟨frames, .finished node⟩ c = .ok ⟨frames, .finished node⟩ := by simp [step, hc]

/-- From a place where a condition may open to its inside. -/
theorem leads_body {frames : List Frame} {w₁ w₂ : List Char} (h₁ : Blanks w₁) (h₂ : Blanks w₂) :
    Leads ⟨frames, .opening⟩ (w₁ ++ '(' :: w₂) ⟨frames, .body⟩ :=
  (h₁.leads fun _ => step_opening_of_isBlank).append
    (.cons rfl (h₂.leads fun _ => step_body_of_isBlank))

/-- A text in parentheses leads to where its inside and the closing lead. -/
theorem leads_enclosed {frames : List Frame} {w₁ w₂ cs : List Char} {s t : State}
    (h₁ : Blanks w₁) (h₂ : Blanks w₂) (hcs : Leads ⟨frames, .body⟩ cs s)
    (ht : step s ')' = .ok t) : Leads ⟨frames, .opening⟩ (enclosed w₁ w₂ cs) t := by
  have h := ((leads_body h₁ h₂).append hcs).append (.of_step ht)
  simpa [enclosed] using h

theorem endsName_iff {c : Char} : endsName c = true ↔ c ∈ ['=', '<', '>', '~', '(', ')'] := by
  simp [endsName, or_assoc]

/-- The rest of a name is read up to its last character. -/
theorem leads_name {frames : List Frame} {cs : List Char} (read : List Char)
    (hcs : ∀ c ∈ cs, c ∉ ['=', '<', '>', '~', '(', ')']) :
    Leads ⟨frames, .name read⟩ cs ⟨frames, .name (cs.reverse ++ read)⟩ := by
  induction cs generalizing read with
  | nil => exact .refl _
  | cons c cs ih =>
    have hc : endsName c = false :=
      Bool.eq_false_iff.2 (mt endsName_iff.1 (hcs c List.mem_cons_self))
    have hrest := ih (c :: read) fun d hd => hcs d (List.mem_cons_of_mem _ hd)
    rw [List.reverse_cons, List.append_assoc]
    exact .cons (by simp [step, hc]) hrest

/-- A name is read from its first character on. -/
theorem IsName.leads {frames : List Frame} {name : List Char} (hn : IsName name) :
    Leads ⟨frames, .body⟩ name ⟨frames, .name name.reverse⟩ := by
  obtain ⟨c, rest, rfl, hblank, hfirst⟩ := hn.first
  have hc : endsName c = false :=
    Bool.eq_false_iff.2 (mt endsName_iff.1 (hn.plain c List.mem_cons_self))
  simp only [List.mem_cons, List.not_mem_nil, or_false, not_or] at hfirst
  rw [List.reverse_cons]
  refine .cons ?_ (leads_name [c] fun d hd => hn.plain d (List.mem_cons_of_mem _ hd))
  simp [step, hblank, hfirst, hc]

/-- A sign is read after a name. -/
theorem Relation.leads_sign {frames : List Frame} (relation : Relation) (name : List Char) :
    Leads ⟨frames, .name name.reverse⟩ relation.sign
      ⟨frames, .value ⟨String.ofList (Text.trimChars name), relation, [], []⟩⟩ := by
  have hname : nameOf name.reverse = String.ofList (Text.trimChars name) := by
    rw [nameOf, List.reverse_reverse]
  cases relation <;> (rw [← hname]; rfl)

/-- What was read of a value with these parts. -/
def readingOf (key : String) (relation : Relation) (done : List (List Char)) (last : List Char) :
    Reading :=
  ⟨key, relation, (done.map List.reverse).reverse, last.reverse⟩

theorem pattern_readingOf (key : String) (relation : Relation) (done : List (List Char))
    (last : List Char) : (readingOf key relation done last).pattern = patternOf done last := by
  simp [Reading.pattern, readingOf, patternOf, Function.comp_def]

theorem push_readingOf (key : String) (relation : Relation) (done : List (List Char))
    (last : List Char) (c : Char) :
    (readingOf key relation done last).push c = readingOf key relation done (last ++ [c]) := by
  simp [readingOf, Reading.push]

theorem wildcard_readingOf (key : String) (relation : Relation) (done : List (List Char))
    (last : List Char) :
    (readingOf key relation done last).wildcard = readingOf key relation (done ++ [last]) [] := by
  simp [readingOf, Reading.wildcard]

/-- The condition that was read is the one that the grammar makes of the value. -/
theorem Value.node_readingOf {v : List Char} {done : List (List Char)} {last : List Char}
    (hv : Value v done last) (key : String) (relation : Relation) :
    (readingOf key relation done last).node =
      relation.condition key v (patternOf done last) := by
  unfold Reading.node
  rw [pattern_readingOf]
  cases relation with
  | equal =>
    show (if (patternOf done last).isStar then _ else _) = if v = ['*'] then _ else _
    by_cases hstar : v = ['*']
    · rw [if_pos (hv.isStar_iff.2 hstar), if_pos hstar]
      rfl
    · rw [if_neg (mt hv.isStar_iff.1 hstar), if_neg hstar]
      rfl
  | approx => rfl
  | greaterEq => rfl
  | lessEq => rfl

theorem step_value_plain {frames : List Frame} (reading : Reading) {c : Char}
    (hc : c ∉ ['(', ')', '\\', '*']) :
    step ⟨frames, .value reading⟩ c = .ok ⟨frames, .value (reading.push c)⟩ := by
  simp only [List.mem_cons, List.not_mem_nil, or_false, not_or] at hc
  obtain ⟨hopen, hclose, hescape, hstar⟩ := hc
  simp only [step]

/-- A value is read from its start. -/
theorem Value.leads {frames : List Frame} {v : List Char} {done : List (List Char)}
    {last : List Char} (hv : Value v done last) (key : String) (relation : Relation) :
    Leads ⟨frames, .value ⟨key, relation, [], []⟩⟩ v
      ⟨frames, .value (readingOf key relation done last)⟩ := by
  induction hv with
  | nil => exact .refl _
  | plain hv hc ih =>
    rw [← push_readingOf]
    exact ih.append (.of_step (step_value_plain _ hc))
  | escaped c hv ih =>
    rw [← push_readingOf]
    exact ih.append (.cons rfl (.of_step rfl))
  | star hv ih =>
    rw [← wildcard_readingOf]
    exact ih.append (.of_step rfl)

/-- A comparison leads to where its value ends. -/
theorem Comparison.leads {frames : List Frame} {cs : List Char} {node : Node}
    (hc : Comparison cs node) : ∃ reading : Reading, reading.node = node ∧
      Leads ⟨frames, .body⟩ cs ⟨frames, .value reading⟩ := by
  cases hc with
  | @mk name value done last relation hname hvalue =>
    refine ⟨_, hvalue.node_readingOf _ relation, hname.leads.append ?_⟩
    exact (relation.leads_sign name).append (hvalue.leads _ relation)

namespace Junction

/-- A junction that is open, with the conditions read so far. -/
def frame : Junction → List Node → Frame
  | all => .and
  | any => .or

theorem deliver_frame (junction : Junction) (node : Node) (done : List Node)
    (frames : List Frame) :
    deliver node (junction.frame done :: frames) =
      ⟨junction.frame (node :: done) :: frames, .opening⟩ := by cases junction <;> rfl

/-- Where a junction opens. -/
theorem step_sign (junction : Junction) (frames : List Frame) :
    step ⟨frames, .body⟩ junction.sign = .ok ⟨junction.frame [] :: frames, .opening⟩ := by
  cases junction <;> rfl

/-- A junction closes if it has a condition. -/
theorem closeList_frame (junction : Junction) {c : Char} {done : List Node}
    {frames : List Frame} {s : State} :
    closeList c (junction.frame done :: frames) = .ok s ↔
      done ≠ [] ∧ c = ')' ∧ s = deliver (junction.node done.reverse) frames := by
  cases done with
  | nil => cases junction <;> simp [frame, closeList]
  | cons last done =>
    cases junction <;> by_cases hc : c = ')' <;> simp [frame, closeList, hc, node, eq_comm]

/-- A text does not end in a junction that is open. -/
theorem finish_frame (junction : Junction) (done : List Node) (frames : List Frame) :
    finish ⟨junction.frame done :: frames, .opening⟩ =
      .error (if done = [] then .emptyList else .expectedClose) := by
  cases done with
  | nil => cases junction <;> rfl
  | cons last done => cases junction <;> rfl

/-- Conditions in a row are read into the junction that is open around them. -/
theorem leads_conds (junction : Junction) (frames : List Frame)
    {conds : List (List Char × Node)}
    (hc : ∀ c ∈ conds, ∀ frames, Leads ⟨frames, .opening⟩ c.1 (deliver c.2 frames))
    (done : List Node) :
    Leads ⟨junction.frame done :: frames, .opening⟩ (conds.flatMap Prod.fst)
      ⟨junction.frame ((conds.map Prod.snd).reverse ++ done) :: frames, .opening⟩ := by
  induction conds generalizing done with
  | nil => exact .refl _
  | cons c conds ih =>
    have hfirst := hc c List.mem_cons_self (junction.frame done :: frames)
    rw [deliver_frame] at hfirst
    have hrest := ih (fun d hd => hc d (List.mem_cons_of_mem _ hd)) (c.2 :: done)
    rw [List.flatMap_cons, List.map_cons, List.reverse_cons, List.append_assoc]
    exact hfirst.append hrest

end Junction

/-- **Acceptance.** The text of a condition leads to the place after it. -/
theorem Condition.leads {cs : List Char} {node : Node} (hc : Condition cs node)
    (frames : List Frame) : Leads ⟨frames, .opening⟩ cs (deliver node frames) := by
  induction hc generalizing frames with
  | @joined w₁ w₂ w₃ conds junction h₁ h₂ h₃ hne hc ih =>
    have hconds := junction.leads_conds frames ih []
    have hblanks := h₃.leads (s := ⟨junction.frame ((conds.map Prod.snd).reverse ++ []) :: frames,
      .opening⟩) fun _ => step_opening_of_isBlank
    refine leads_enclosed h₁ h₂ (.cons (junction.step_sign frames) (hconds.append hblanks)) ?_
    -- a closing parenthesis is no blank and opens nothing
    show closeList ')' _ = _
    refine junction.closeList_frame.2 ⟨by simpa using hne, rfl, ?_⟩
    rw [List.append_nil, List.reverse_reverse]
  | not h₁ h₂ h₃ hc ih =>
    refine leads_enclosed h₁ h₂ (.cons rfl ((ih (.not :: frames)).append (h₃.leads fun _ =>
      step_closing_of_isBlank))) rfl
  | comparison h₁ h₂ hc =>
    obtain ⟨reading, rfl, hreading⟩ := hc.leads
    exact leads_enclosed h₁ h₂ hreading rfl

/-! ## Accepted texts are of the grammar -/

/-- What was read stands for these open conditions: each with its opening, and the conditions that
are complete in it. -/
inductive Opened : List Char → List Frame → Prop where
  | none : Opened [] []
  | joined {p w₁ w₂ : List Char} {frames : List Frame} {conds : List (List Char × Node)}
    (junction : Junction) (ho : Opened p frames) (h₁ : Blanks w₁) (h₂ : Blanks w₂)
    (hc : ∀ c ∈ conds, Condition c.1 c.2) :
    Opened (p ++ (w₁ ++ '(' :: (w₂ ++ junction.sign :: conds.flatMap Prod.fst)))
      (junction.frame (conds.map Prod.snd).reverse :: frames)
  | not {p w₁ w₂ : List Char} {frames : List Frame} (ho : Opened p frames) (h₁ : Blanks w₁)
    (h₂ : Blanks w₂) : Opened (p ++ (w₁ ++ '(' :: (w₂ ++ ['!']))) (.not :: frames)

/-- What was read of the condition at the reading point, after what stands for the conditions that
are open around it. -/
inductive Begun : List Char → Phase → Prop where
  | opening {w : List Char} (hw : Blanks w) : Begun w .opening
  | body {w₁ w₂ : List Char} (h₁ : Blanks w₁) (h₂ : Blanks w₂) : Begun (w₁ ++ '(' :: w₂) .body
  | name {w₁ w₂ name : List Char} (h₁ : Blanks w₁) (h₂ : Blanks w₂) (hn : IsName name) :
    Begun (w₁ ++ '(' :: (w₂ ++ name)) (.name name.reverse)
  | equals {w₁ w₂ name : List Char} (relation : Relation) {c : Char} (h₁ : Blanks w₁)
    (h₂ : Blanks w₂) (hn : IsName name) (hr : relation.sign = [c, '=']) :
    Begun (w₁ ++ '(' :: (w₂ ++ (name ++ [c])))
      (.equals (String.ofList (Text.trimChars name)) relation)
  | value {w₁ w₂ name v : List Char} {done : List (List Char)} {last : List Char}
    (relation : Relation) (h₁ : Blanks w₁) (h₂ : Blanks w₂) (hn : IsName name)
    (hv : Value v done last) : Begun (w₁ ++ '(' :: (w₂ ++ (name ++ (relation.sign ++ v))))
      (.value (readingOf (String.ofList (Text.trimChars name)) relation done last))
  | escape {w₁ w₂ name v : List Char} {done : List (List Char)} {last : List Char}
    {relation : Relation} (h₁ : Blanks w₁) (h₂ : Blanks w₂) (hn : IsName name)
    (hv : Value v done last) :
    Begun (w₁ ++ '(' :: (w₂ ++ (name ++ (relation.sign ++ (v ++ ['\\'])))))
      (.escape (readingOf (String.ofList (Text.trimChars name)) relation done last))
  | closing {w₁ w₂ w₃ cs : List Char} {node : Node} (h₁ : Blanks w₁) (h₂ : Blanks w₂)
    (h₃ : Blanks w₃) (hc : Condition cs node) :
    Begun (w₁ ++ '(' :: (w₂ ++ '!' :: (cs ++ w₃))) (.closing (.not node))

/-- A state stands for what was read. -/
inductive Stands : List Char → State → Prop where
  | within {p q : List Char} {frames : List Frame} {phase : Phase} (ho : Opened p frames)
    (hb : Begun q phase) : Stands (p ++ q) ⟨frames, phase⟩
  | finished {cs w : List Char} {node : Node} (hc : Condition cs node) (hw : Blanks w) :
    Stands (cs ++ w) ⟨[], .finished node⟩

namespace Stands

/-- The state of the text that is meant. -/
theorem of_eq {p q : List Char} {s : State} (hs : Stands p s) (h : p = q) : Stands q s := h ▸ hs

/-- After a complete condition. -/
theorem deliver {p cs : List Char} {frames : List Frame} {node : Node} (ho : Opened p frames)
    (hc : Condition cs node) : Stands (p ++ cs) (deliver node frames) := by
  cases ho with
  | none => exact (Stands.finished hc .nil).of_eq (by simp)
  | @joined p w₁ w₂ frames conds junction ho h₁ h₂ hconds =>
    have hmore : ∀ c ∈ conds ++ [(cs, node)], Condition c.1 c.2 := by
      intro c hmem
      rcases List.mem_append.1 hmem with hmem | hmem
      · exact hconds c hmem
      · exact List.mem_singleton.1 hmem ▸ hc
    have hopened := Opened.joined junction ho h₁ h₂ hmore
    rw [List.map_append, List.reverse_append] at hopened
    rw [junction.deliver_frame]
    exact (Stands.within hopened (.opening .nil)).of_eq (by simp)
  | not ho h₁ h₂ => exact (Stands.within ho (.closing h₁ h₂ .nil hc)).of_eq (by simp)

/-- Where a condition may open. -/
theorem step_opening {p w : List Char} {frames : List Frame} {c : Char} {t : State}
    (ho : Opened p frames) (hw : Blanks w) (hs : step ⟨frames, .opening⟩ c = .ok t) :
    Stands (p ++ w ++ [c]) t := by
  by_cases hblank : Text.isBlank c = true
  · rw [step_opening_of_isBlank hblank] at hs
    cases hs
    exact (Stands.within ho (.opening (hw.snoc hblank))).of_eq (by simp)
  by_cases hopen : c = '('
  · subst hopen
    cases hs
    exact (Stands.within ho (.body hw .nil)).of_eq (by simp)
  have hs : closeList c frames = .ok t := by simpa [step, hblank, hopen] using hs
  cases ho with
  | none => cases hs
  | not => cases hs
  | @joined p w₁ w₂ frames conds junction ho h₁ h₂ hconds =>
    obtain ⟨hne, rfl, rfl⟩ := junction.closeList_frame.1 hs
    have hcond := Condition.joined junction h₁ h₂ hw (by simpa using hne) hconds
    rw [List.reverse_reverse]
    exact (Stands.deliver ho hcond).of_eq (by simp [enclosed])

/-- After the opening of a condition. -/
theorem step_body {p w₁ w₂ : List Char} {frames : List Frame} {c : Char} {t : State}
    (ho : Opened p frames) (h₁ : Blanks w₁) (h₂ : Blanks w₂)
    (hs : step ⟨frames, .body⟩ c = .ok t) : Stands (p ++ (w₁ ++ '(' :: w₂) ++ [c]) t := by
  by_cases hblank : Text.isBlank c = true
  · rw [step_body_of_isBlank hblank] at hs
    cases hs
    exact (Stands.within ho (.body h₁ (h₂.snoc hblank))).of_eq (by simp)
  have hjoined (junction : Junction) (hc : c = junction.sign) :
      Stands (p ++ (w₁ ++ '(' :: w₂) ++ [c]) t := by
    subst hc
    rw [junction.step_sign] at hs
    cases hs
    have hnone : ∀ c ∈ ([] : List (List Char × Node)), Condition c.1 c.2 := fun c hc =>
      absurd hc List.not_mem_nil
    have hopened := Opened.joined junction ho h₁ h₂ hnone
    exact (Stands.within hopened (.opening .nil)).of_eq (by simp)
  by_cases hand : c = '&'
  · exact hjoined .all hand
  by_cases hor : c = '|'
  · exact hjoined .any hor
  by_cases hnot : c = '!'
  · subst hnot
    cases hs
    exact (Stands.within (.not ho h₁ h₂) (.opening .nil)).of_eq (by simp)
  -- anything else begins a name, unless it would end one
  by_cases hends : endsName c = true
  · simp [step, hblank, hand, hor, hnot, hends] at hs
  · obtain rfl : _ = t := by simpa [step, hblank, hand, hor, hnot, hends] using hs
    have hname : IsName [c] := by
      refine ⟨⟨c, [], rfl, Bool.eq_false_iff.2 hblank, by simp [hand, hor, hnot]⟩, fun d hd => ?_⟩
      obtain rfl := List.mem_singleton.1 hd
      exact mt endsName_iff.2 hends
    exact (Stands.within ho (.name h₁ h₂ hname)).of_eq (by simp)

/-- Inside a name. -/
theorem step_name {p w₁ w₂ name : List Char} {frames : List Frame} {c : Char} {t : State}
    (ho : Opened p frames) (h₁ : Blanks w₁) (h₂ : Blanks w₂) (hn : IsName name)
    (hs : step ⟨frames, .name name.reverse⟩ c = .ok t) :
    Stands (p ++ (w₁ ++ '(' :: (w₂ ++ name)) ++ [c]) t := by
  have hkey : nameOf name.reverse = String.ofList (Text.trimChars name) := by
    rw [nameOf, List.reverse_reverse]
  by_cases hends : endsName c = true
  · have hs : endName name.reverse frames c = .ok t := by simpa [step, hends] using hs
    unfold endName at hs
    rw [hkey] at hs
    split at hs
    · cases hs
      exact (Stands.within ho (.value .equal h₁ h₂ hn .nil)).of_eq
        (by simp [Relation.sign])
    · cases hs
      exact (Stands.within ho (.equals .approx h₁ h₂ hn rfl)).of_eq (by simp)
    · cases hs
      exact (Stands.within ho (.equals .greaterEq h₁ h₂ hn rfl)).of_eq (by simp)
    · cases hs
      exact (Stands.within ho (.equals .lessEq h₁ h₂ hn rfl)).of_eq (by simp)
    · cases hs
  · obtain rfl : _ = t := by simpa [step, hends] using hs
    have hname : IsName (name ++ [c]) := by
      obtain ⟨first, rest, rfl, hblank, hfirst⟩ := hn.first
      refine ⟨⟨first, rest ++ [c], rfl, hblank, hfirst⟩, fun d hd => ?_⟩
      rcases List.mem_append.1 hd with hd | hd
      · exact hn.plain d hd
      · obtain rfl := List.mem_singleton.1 hd
        exact mt endsName_iff.2 hends
    have hstands := Stands.within ho (.name h₁ h₂ hname)
    rw [List.reverse_append] at hstands
    exact hstands.of_eq (by simp)

/-- Inside a value. -/
theorem step_value {p w₁ w₂ name v : List Char} {done : List (List Char)} {last : List Char}
    {relation : Relation} {frames : List Frame} {c : Char} {t : State} (ho : Opened p frames)
    (h₁ : Blanks w₁) (h₂ : Blanks w₂) (hn : IsName name) (hv : Value v done last)
    (hs : step ⟨frames, .value (readingOf (String.ofList (Text.trimChars name)) relation done
      last)⟩ c = .ok t) :
    Stands (p ++ (w₁ ++ '(' :: (w₂ ++ (name ++ (relation.sign ++ v)))) ++ [c]) t := by
  by_cases hclose : c = ')'
  · subst hclose
    cases hs
    have hcond := Condition.comparison h₁ h₂ (.mk relation hn hv)
    rw [hv.node_readingOf]
    exact (Stands.deliver ho hcond).of_eq (by simp [enclosed])
  by_cases hopen : c = '('
  · subst hopen
    cases hs
  by_cases hescape : c = '\\'
  · subst hescape
    cases hs
    exact (Stands.within ho (.escape h₁ h₂ hn hv)).of_eq (by simp)
  by_cases hstar : c = '*'
  · subst hstar
    cases hs
    show Stands _ ⟨frames, .value (Reading.wildcard _)⟩
    rw [wildcard_readingOf]
    exact (Stands.within ho (.value relation h₁ h₂ hn hv.star)).of_eq (by simp)
  have hplain : c ∉ ['(', ')', '\\', '*'] := by simp [hclose, hopen, hescape, hstar]
  rw [step_value_plain _ hplain, push_readingOf] at hs
  cases hs
  exact (Stands.within ho (.value relation h₁ h₂ hn (hv.plain hplain))).of_eq (by simp)

/-- One more character. -/
theorem step {p : List Char} {s t : State} {c : Char} (hs : Stands p s)
    (ht : ServiceFilter.step s c = .ok t) : Stands (p ++ [c]) t := by
  cases hs with
  | @within p q frames phase ho hb =>
    cases hb with
    | opening hw => exact step_opening ho hw ht
    | body h₁ h₂ => exact step_body ho h₁ h₂ ht
    | name h₁ h₂ hn => exact step_name ho h₁ h₂ hn ht
    | @equals w₁ w₂ name relation first h₁ h₂ hn hsign =>
      by_cases hc : c = '='
      · subst hc
        cases ht
        exact (Stands.within ho (.value relation h₁ h₂ hn .nil)).of_eq
          (by simp [hsign])
      · simp [ServiceFilter.step, hc] at ht
    | value relation h₁ h₂ hn hv => exact step_value ho h₁ h₂ hn hv ht
    | escape h₁ h₂ hn hv =>
      cases ht
      rw [push_readingOf]
      exact (Stands.within ho (.value _ h₁ h₂ hn (hv.escaped c))).of_eq (by simp)
    | @closing w₁ w₂ w₃ cs node h₁ h₂ h₃ hc =>
      by_cases hblank : Text.isBlank c = true
      · rw [step_closing_of_isBlank hblank] at ht
        cases ht
        exact (Stands.within ho (.closing h₁ h₂ (h₃.snoc hblank) hc)).of_eq (by simp)
      by_cases hclose : c = ')'
      · subst hclose
        cases ht
        exact (Stands.deliver ho (.not h₁ h₂ h₃ hc)).of_eq (by simp [enclosed])
      · simp [ServiceFilter.step, hblank, hclose] at ht
  | finished hc hw =>
    by_cases hblank : Text.isBlank c = true
    · rw [step_finished_of_isBlank hblank] at ht
      cases ht
      exact (Stands.finished hc (hw.snoc hblank)).of_eq (by simp)
    · simp [ServiceFilter.step, hblank] at ht

/-- Any number of characters more. -/
theorem leads {p cs : List Char} {s t : State} (hs : Stands p s) (ht : Leads s cs t) :
    Stands (p ++ cs) t := by
  induction cs generalizing p s with
  | nil =>
    cases ht
    exact hs.of_eq (List.append_nil p).symm
  | cons c cs ih =>
    obtain ⟨s', hs', ht⟩ := Leads.cons_iff.1 ht
    exact (ih (hs.step hs') ht).of_eq (by simp)

/-- A text at whose end a state may end is of the grammar. -/
theorem derives {p : List Char} {s : State} {node : Node} (hs : Stands p s)
    (hf : finish s = .ok node) : Derives p node := by
  cases hs with
  | within ho hb =>
    cases hb with
    | opening hw =>
      cases ho with
      | none => cases hf
      | not => cases hf
      | joined junction =>
        rw [junction.finish_frame] at hf
        cases hf
    | body | name | equals | value | escape | closing => cases hf
  | finished hc hw =>
    cases hf
    exact ⟨_, _, rfl, hc, hw⟩

end Stands

/-- **Reading.** A text is accepted with a tree exactly if the grammar derives the tree from it. -/
theorem readNode_eq_ok_iff {cs : List Char} {node : Node} :
    readNode cs = .ok node ↔ Derives cs node := by
  rw [readNode, readFrom_eq_ok_iff]
  constructor
  · rintro ⟨t, ht, hf⟩
    have hstart : Stands [] .start := .within .none (.opening .nil)
    exact (hstart.leads ht).derives hf
  · rintro ⟨condition, blanks, rfl, hc, hw⟩
    refine ⟨⟨[], .finished node⟩, ?_, rfl⟩
    exact (hc.leads []).append (hw.leads fun _ => step_finished_of_isBlank)

/-- **Parsing.** The parser gives a text exactly the tree that the grammar derives from it, and
refuses every other text as an invalid filter. So no text has two trees. -/
theorem parse_iff_derives (source : String) :
    (∀ node, (∃ filter, parse source = .ok filter ∧ filter.node = node) ↔
      Derives source.toList node) ∧
    ((¬ ∃ node, Derives source.toList node) →
      ∃ message, parse source = .error (.invalidFilter source message)) := by
  have hparse : parse source = ((readNode source.toList).map fun node =>
      ServiceFilter.mk (Text.trim source) node).mapError fun e =>
        .invalidFilter source e.message := rfl
  cases hread : readNode source.toList with
  | ok found =>
    rw [hread] at hparse
    have hderives := readNode_eq_ok_iff.1 hread
    refine ⟨fun node => ⟨?_, fun hnode => ?_⟩, fun hnone => absurd ⟨found, hderives⟩ hnone⟩
    · rintro ⟨filter, hok, rfl⟩
      rw [hparse] at hok
      cases hok
      exact hderives
    · have heq := (readNode_eq_ok_iff.2 hnode).symm.trans hread
      cases heq
      exact ⟨_, hparse, rfl⟩
  | error e =>
    rw [hread] at hparse
    refine ⟨fun node => ⟨?_, fun hnode => ?_⟩, fun _ => ⟨e.message, hparse⟩⟩
    · rintro ⟨filter, hok, -⟩
      rw [hparse] at hok
      cases hok
    · have hok := readNode_eq_ok_iff.2 hnode
      rw [hread] at hok
      cases hok

end LiveServices.ServiceFilter
