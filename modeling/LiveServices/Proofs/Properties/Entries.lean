import LiveServices.Property
import Mathlib.Data.List.Induction

/-!
# The entries of property maps

A map that is made of a list of entries has these entries, if no key is repeated
(`Properties.perm_ofList`). The entries of a map stand in the order of their keys, so a map is
what its own entries make (`Properties.ofList_entries`), and what is found under a key is the entry
of that key (`Properties.find?_eq_some_iff`). If keys are repeated then the last entry of a key
counts (`Properties.find?_ofList`).

A look-up takes the key as it is written if it is there, and otherwise the least of the keys that
are written in another case (`Properties.lookup_eq_some_iff`).
-/

namespace LiveServices.Properties

variable {p : Properties} {key : String} {value : PropertyValue}
  {entries : List (String × PropertyValue)}

/-- Two entries that stand in each other's order of keys contradict the order. -/
theorem eq_of_rising {a b : String × PropertyValue} (hab : a.1 < b.1) (hba : b.1 < a.1) : a = b :=
  absurd (String.lt_trans hab hba) (String.lt_irrefl _)

/-- The keys of a map are different. -/
theorem nodup_keys (p : Properties) : p.keys.Nodup := by
  refine List.pairwise_map.2 (p.rising.imp fun {a b} hlt heq => ?_)
  rw [heq] at hlt
  exact String.lt_irrefl _ hlt

/-- An entry whose key is new comes to those that were there. -/
theorem insertEntry_perm (hnew : ∀ e ∈ entries, e.1 ≠ key) :
    (insertEntry key value entries).Perm ((key, value) :: entries) := by
  fun_induction insertEntry key value entries with
  | case1 => exact .refl _
  | case2 k v rest hlt => exact .refl _
  | case3 k v rest hn hlt ih =>
    exact ((ih fun e he => hnew e (List.mem_cons_of_mem _ he)).cons _).trans (.swap ..)
  | case4 k v rest hn₁ hn₂ =>
    have hk : k = key := String.le_antisymm (String.not_lt.1 hn₁) (String.not_lt.1 hn₂)
    exact absurd hk (hnew (k, v) List.mem_cons_self)

/-- Entries with new keys come to those that were there. -/
theorem perm_foldl_insert (hentries : (entries.map (·.1)).Nodup)
    (hnew : ∀ e ∈ entries, e.1 ∉ p.keys) :
    (entries.foldl (fun p e => p.insert e.1 e.2) p).entries.Perm (entries ++ p.entries) := by
  induction entries generalizing p with
  | nil => exact .refl _
  | cons e entries ih =>
    obtain ⟨hfresh, hrest⟩ := List.nodup_cons.1 hentries
    have hinsert : (p.insert e.1 e.2).entries.Perm (e :: p.entries) :=
      insertEntry_perm fun other hmem heq =>
        hnew e List.mem_cons_self (heq ▸ List.mem_map_of_mem hmem)
    have hstill : ∀ other ∈ entries, other.1 ∉ (p.insert e.1 e.2).keys := by
      intro other hmem hkey
      rcases List.mem_cons.1 ((hinsert.map (·.1)).mem_iff.1 hkey) with heq | hold
      · exact hfresh (heq ▸ List.mem_map_of_mem hmem)
      · exact hnew other (List.mem_cons_of_mem _ hmem) hold
    exact ((ih hrest hstill).trans (hinsert.append_left entries)).trans List.perm_middle

/-- A map has the entries of which it was made, if no key is repeated. -/
theorem perm_ofList (hentries : (entries.map (·.1)).Nodup) :
    (ofList entries).entries.Perm entries := by
  have hperm := perm_foldl_insert (p := empty) hentries fun _ _ => List.not_mem_nil
  rwa [show (empty : Properties).entries = [] from rfl, List.append_nil] at hperm

/-- A map is what its entries make. -/
@[simp] theorem ofList_entries (p : Properties) : ofList p.entries = p :=
  ext_entries ((perm_ofList p.nodup_keys).eq_of_pairwise (fun _ _ _ _ => eq_of_rising)
    (ofList p.entries).rising p.rising)

/-- Of entries in the order of their keys, the first with a key is the only one. -/
theorem find?_entries_eq_some_iff (hr : entries.Pairwise (·.1 < ·.1)) :
    (entries.find? fun e => e.1 == key).map (·.2) = some value ↔ (key, value) ∈ entries := by
  induction entries with
  | nil => simp
  | cons e entries ih =>
    obtain ⟨hfirst, hrest⟩ := List.pairwise_cons.1 hr
    obtain ⟨k, v⟩ := e
    by_cases hk : k = key
    · subst hk
      have hnone : (k, value) ∉ entries := fun hmem => String.lt_irrefl _ (hfirst (k, value) hmem)
      simp [hnone, eq_comm]
    · have hne : (key, value) ≠ (k, v) := fun heq => hk (congrArg Prod.fst heq).symm
      rw [List.find?_cons, beq_eq_false_iff_ne.2 hk, List.mem_cons, or_iff_right hne]
      exact ih hrest

/-- What is found under a key is the entry of the key. -/
theorem find?_eq_some_iff : p.find? key = some value ↔ (key, value) ∈ p.entries :=
  find?_entries_eq_some_iff p.rising

theorem mem_keys_iff : key ∈ p.keys ↔ ∃ value, p.find? key = some value := by
  simp only [find?_eq_some_iff, keys, List.mem_map, Prod.exists, exists_and_right, exists_eq_right]

/-! ## Maps of lists -/

/-- Of several entries with one key the last one is found. -/
theorem find?_ofList (entries : List (String × PropertyValue)) (key : String) :
    (ofList entries).find? key = (entries.reverse.find? fun e => e.1 == key).map (·.2) := by
  induction entries using List.reverseRecOn with
  | nil => rfl
  | append_singleton entries e ih =>
    rw [ofList, List.foldl_append, ← ofList, List.foldl_cons, List.foldl_nil, find?_insert, ih,
      List.reverse_concat, List.find?_cons]
    by_cases he : e.1 = key
    · rw [if_pos he, beq_iff_eq.2 he]
      rfl
    · rw [if_neg he, beq_eq_false_iff_ne.2 he]

theorem mem_keys_ofList : key ∈ (ofList entries).keys ↔ key ∈ entries.map (·.1) := by
  rw [mem_keys_iff, ← Option.isSome_iff_exists, find?_ofList, Option.isSome_map, List.find?_isSome]
  simp

/-! ## Look-ups -/

/-- A look-up of a key among these keys comes to this one: to the key itself if it is there, and
else to the least one that differs from it in ASCII case only. -/
structure Meets (keys : List String) (key name : String) : Prop where
  mem : name ∈ keys
  same : Text.sameIgnoringAsciiCase name key = true
  exact : key ∈ keys → name = key
  least : key ∉ keys → ∀ other ∈ keys, Text.sameIgnoringAsciiCase other key = true → name ≤ other

/-- Of entries in the order of their keys, the first that passes a test has the least key. -/
theorem le_of_find? {test : String × PropertyValue → Bool} {e other : String × PropertyValue}
    (hr : entries.Pairwise (·.1 < ·.1)) (hf : entries.find? test = some e)
    (hother : other ∈ entries) (htest : test other = true) : e.1 ≤ other.1 := by
  obtain ⟨-, before, after, rfl, hbefore⟩ := List.find?_eq_some_iff_append.1 hf
  rcases List.mem_append.1 hother with hmem | hmem
  · have hfails := hbefore other hmem
    rw [htest] at hfails
    cases hfails
  · rcases List.mem_cons.1 hmem with rfl | hmem
    · exact String.le_refl _
    · have hafter := (List.pairwise_cons.1 (List.pairwise_append.1 hr).2.1).1 other hmem
      exact String.not_lt.1 (String.lt_asymm hafter)

/-- **Look-ups.** What is looked up is what stands under the key that the look-up comes to. -/
theorem lookup_eq_some_iff : p.lookup key = some value ↔
    ∃ name, Meets p.keys key name ∧ p.find? name = some value := by
  constructor
  · intro h
    rcases Option.or_eq_some_iff.1 h with hexact | ⟨hnone, hscan⟩
    · have hkey : key ∈ p.keys := mem_keys_iff.2 ⟨value, hexact⟩
      exact ⟨key, ⟨hkey, Text.sameIgnoringAsciiCase_refl key, fun _ => rfl,
        fun hno => absurd hkey hno⟩, hexact⟩
    · obtain ⟨⟨name, _⟩, hfound, rfl⟩ := Option.map_eq_some_iff.1 hscan
      have hmem := List.mem_of_find?_eq_some hfound
      have hsame := List.find?_some hfound
      refine ⟨name, ⟨List.mem_map_of_mem hmem, hsame, fun hkey => ?_,
        fun _ other hother hsame => ?_⟩, find?_eq_some_iff.2 hmem⟩
      · obtain ⟨v, hv⟩ := mem_keys_iff.1 hkey
        rw [hnone] at hv
        cases hv
      · obtain ⟨e, he, rfl⟩ := List.mem_map.1 hother
        exact le_of_find? p.rising hfound he hsame
  · rintro ⟨name, hmeets, hname⟩
    by_cases hkey : key ∈ p.keys
    · rw [hmeets.exact hkey] at hname
      exact lookup_of_find? hname
    · have hnone : p.find? key = none :=
        Option.eq_none_iff_forall_ne_some.2 fun v hv => hkey (mem_keys_iff.2 ⟨v, hv⟩)
      have hmem := find?_eq_some_iff.1 hname
      rw [lookup, hnone, Option.none_or]
      cases hscan : p.entries.find? fun e => Text.sameIgnoringAsciiCase e.1 key with
      | none => exact absurd hmeets.same (List.find?_eq_none.1 hscan _ hmem)
      | some e =>
        -- the scan stops at the least key, which is the one that the look-up comes to
        have he := List.mem_of_find?_eq_some hscan
        have hle : e.1 ≤ name := le_of_find? p.rising hscan hmem hmeets.same
        have hsame := List.find?_some hscan
        have hge : name ≤ e.1 := hmeets.least hkey e.1 (List.mem_map_of_mem he) hsame
        obtain rfl : e.1 = name := String.le_antisymm hle hge
        rwa [find?_eq_some_iff.2 he] at hname

end LiveServices.Properties
