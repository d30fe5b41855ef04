import LiveServices.Text.Case
import LiveServices.Text.Numeral
import LiveServices.Text.Quoted

/-!
# Property values and property maps

A service is described by properties: a map from keys to values of four kinds. The map keeps its
keys in strictly rising order, and the order is a field of the type, so two maps with the same
entries are equal.

`Properties.find?_insert` says what an insertion does to a map. `Properties.lookup` is the look-up
that services use: the exact key first, then the first key that differs from it in ASCII case only.
-/

namespace LiveServices

/-- The value of a property. -/
inductive PropertyValue where
  | bool (value : Bool)
  | long (value : Int64)
  | text (value : String)
  | list (items : List String)
  deriving DecidableEq

namespace PropertyValue

/-- The text of a value, as messages show it. -/
def display : PropertyValue → String
  | bool b => if b then "true" else "false"
  | long v => Text.ofLong v
  | text s => s
  | list items => Text.bracketed items

/-- The inspection text of a value. -/
def inspect : PropertyValue → String
  | bool b => Text.applied "Bool" [if b then "true" else "false"]
  | long v => Text.applied "Long" [Text.ofLong v]
  | text s => Text.applied "String" [Text.quote s]
  | list items => Text.applied "List" [Text.bracketed (items.map Text.quote)]

/-- The integer of an integer value. -/
def long? : PropertyValue → Option Int64
  | long v => some v
  | _ => none

/-- The text of a text value. -/
def text? : PropertyValue → Option String
  | text s => some s
  | _ => none

/-- Values of one kind compare by value, values of different kinds by their texts. -/
def order : PropertyValue → PropertyValue → Ordering
  | long a, long b => compare a b
  | text a, text b => compare a b
  | bool a, bool b => compare a b
  | list a, list b => compare a b
  | a, b => compare a.display b.display

end PropertyValue

/-- A map from keys to property values, in strictly rising order of the keys. -/
structure Properties where
  entries : List (String × PropertyValue)
  rising : entries.Pairwise (·.1 < ·.1)

namespace Properties

/-- Insert into a list of entries in rising order, replacing the value of a key that is there. -/
def insertEntry (key : String) (value : PropertyValue) :
    List (String × PropertyValue) → List (String × PropertyValue)
  | [] => [(key, value)]
  | (k, v) :: rest =>
    if key < k then (key, value) :: (k, v) :: rest
    else if k < key then (k, v) :: insertEntry key value rest
    else (key, value) :: rest

/-- An insertion brings in no key but its own. -/
theorem key_of_mem_insertEntry {key : String} {value : PropertyValue}
    {entries : List (String × PropertyValue)} {e : String × PropertyValue}
    (h : e ∈ insertEntry key value entries) : e.1 = key ∨ e ∈ entries := by
  fun_induction insertEntry key value entries with
  | case1 => simp_all
  | case2 k v rest hlt =>
    rcases List.mem_cons.1 h with rfl | h
    · exact .inl rfl
    · exact .inr h
  | case3 k v rest _ _ ih =>
    rcases List.mem_cons.1 h with rfl | h
    · exact .inr (by simp)
    · rcases ih h with h | h
      · exact .inl h
      · exact .inr (by simp [h])
  | case4 k v rest =>
    rcases List.mem_cons.1 h with rfl | h
    · exact .inl rfl
    · exact .inr (by simp [h])

/-- An insertion keeps the keys in order. -/
theorem rising_insertEntry {key : String} {value : PropertyValue}
    {entries : List (String × PropertyValue)} (h : entries.Pairwise (·.1 < ·.1)) :
    (insertEntry key value entries).Pairwise (·.1 < ·.1) := by
  fun_induction insertEntry key value entries with
  | case1 => simp
  | case2 k v rest hlt =>
    rw [List.pairwise_cons]
    refine ⟨fun e he => ?_, h⟩
    rcases List.mem_cons.1 he with rfl | he
    · exact hlt
    · exact String.lt_trans hlt ((List.pairwise_cons.1 h).1 e he)
  | case3 k v rest _ hlt ih =>
    have h' := List.pairwise_cons.1 h
    rw [List.pairwise_cons]
    refine ⟨fun e he => ?_, ih h'.2⟩
    rcases key_of_mem_insertEntry he with he | he
    · rw [he]; exact hlt
    · exact h'.1 e he
  | case4 k v rest hn₁ hn₂ =>
    have hk : k = key := String.le_antisymm (String.not_lt.1 hn₁) (String.not_lt.1 hn₂)
    subst hk
    have h' := List.pairwise_cons.1 h
    exact List.pairwise_cons.2 ⟨h'.1, h'.2⟩

/-- The map with no entries. -/
def empty : Properties := ⟨[], .nil⟩

instance : EmptyCollection Properties := ⟨empty⟩
instance : Inhabited Properties := ⟨empty⟩

/-- The map with a key set to a value. -/
def insert (p : Properties) (key : String) (value : PropertyValue) : Properties :=
  ⟨insertEntry key value p.entries, rising_insertEntry p.rising⟩

/-- The map of a list of entries; of two values for one key the later one counts. -/
def ofList (entries : List (String × PropertyValue)) : Properties :=
  entries.foldl (fun p e => p.insert e.1 e.2) empty

/-- The keys, in rising order. -/
def keys (p : Properties) : List String := p.entries.map (·.1)

/-- The value of exactly this key. -/
def find? (p : Properties) (key : String) : Option PropertyValue :=
  (p.entries.find? fun e => e.1 == key).map (·.2)

/-- The value of this key, or else of the first key that differs from it in ASCII case only. -/
def lookup (p : Properties) (key : String) : Option PropertyValue :=
  (p.find? key).or
    ((p.entries.find? fun e => Text.sameIgnoringAsciiCase e.1 key).map (·.2))

/-- The map, with a value for the key if it has none. -/
def insertIfAbsent (p : Properties) (key : String) (value : PropertyValue) : Properties :=
  if (p.find? key).isSome then p else p.insert key value

/-- The inspection text of a map. -/
def inspect (p : Properties) : String :=
  Text.braced (p.entries.map fun e => (Text.quote e.1, e.2.inspect))

theorem ext_entries {p q : Properties} (h : p.entries = q.entries) : p = q := by
  cases p; cases q; simp_all

instance : DecidableEq Properties := fun p q =>
  if h : p.entries = q.entries then .isTrue (ext_entries h)
  else .isFalse fun e => h (congrArg entries e)

/-- What is found after an insertion: the value under its key, and under another key what was
there. -/
theorem find?_insertEntry {key : String} {value : PropertyValue}
    {entries : List (String × PropertyValue)} (k : String) :
    ((insertEntry key value entries).find? fun e => e.1 == k).map (·.2) =
      if key = k then some value else (entries.find? fun e => e.1 == k).map (·.2) := by
  fun_induction insertEntry key value entries with
  | case1 => by_cases h : key = k <;> simp [h]
  | case2 k' v rest hlt => by_cases h : key = k <;> simp [h]
  | case3 k' v rest hn hlt ih =>
    by_cases h : k' = k
    · have : key ≠ k := by
        intro e; rw [h, e] at hlt; exact String.lt_irrefl _ hlt
      simp [h, this]
    · simpa [List.find?_cons, h] using ih
  | case4 k' v rest hn₁ hn₂ =>
    have hk : k' = key := String.le_antisymm (String.not_lt.1 hn₁) (String.not_lt.1 hn₂)
    by_cases h : key = k <;> simp [hk, h]

/-- An insertion sets its key and leaves every other key alone. -/
theorem find?_insert (p : Properties) (key : String) (value : PropertyValue) (k : String) :
    (p.insert key value).find? k = if key = k then some value else p.find? k :=
  find?_insertEntry k

@[simp] theorem find?_insert_self (p : Properties) (key : String) (value : PropertyValue) :
    (p.insert key value).find? key = some value := by simp [find?_insert]

@[simp] theorem lookup_insert_self (p : Properties) (key : String) (value : PropertyValue) :
    (p.insert key value).lookup key = some value := by simp [lookup]

/-- A key that is there is found by the exact look-up. -/
theorem lookup_of_find? {p : Properties} {key : String} {value : PropertyValue}
    (h : p.find? key = some value) : p.lookup key = some value := by simp [lookup, h]

end Properties

end LiveServices
