import LiveServices.Text.Numeral

/-!
# JSON documents

The tree of a document. Members keep their order and their repetitions, since some readers refuse
a repeated member and others take the last one. Numbers are exact integers, or they are kept as
`decimal`: nothing in this library has a fraction, so their value is never asked for.
-/

namespace LiveServices

/-- A JSON document. -/
inductive Json where
  | null
  | bool (value : Bool)
  /-- A number that is a signed or unsigned integer of 64 bits. -/
  | integer (value : Int)
  /-- Any other number. -/
  | decimal
  | text (value : String)
  | array (items : List Json)
  | object (members : List (String × Json))
  /-- A part that no text denotes, because of an unpaired surrogate. It may be skipped, not
  used. -/
  | unreadable
  deriving Inhabited

namespace Json

/-- The member of this name; of several the last one. -/
def get? (j : Json) (name : String) : Option Json :=
  match j with
  | object members => (members.reverse.find? fun m => m.1 == name).map (·.2)
  | _ => none

/-- The text of a text. -/
def text? : Json → Option String
  | text s => some s
  | _ => none

/-- The truth value of a truth value. -/
def bool? : Json → Option Bool
  | bool b => some b
  | _ => none

/-- The items of an array. -/
def array? : Json → Option (List Json)
  | array items => some items
  | _ => none

/-- An integer of a document as an unsigned 64-bit integer. -/
def id? : Json → Option UInt64
  | integer n => if 0 ≤ n ∧ n.toNat < UInt64.size then some (UInt64.ofNat n.toNat) else none
  | _ => none

/-- An integer of a document as a signed 64-bit integer. -/
def long? : Json → Option Int64
  | integer n => Text.toLong? n
  | _ => none

/-- An unsigned integer as a number. -/
def ofId (v : UInt64) : Json := integer v.toNat

/-- A signed integer as a number. -/
def ofLong (v : Int64) : Json := integer v.toInt

/-- A natural number as a number. -/
def ofNat (n : Nat) : Json := integer n

/-- An optional part, null if absent. -/
def ofOption (f : α → Json) : Option α → Json
  | none => null
  | some a => f a

/-- A list of parts. -/
def ofList (f : α → Json) (items : List α) : Json := array (items.map f)

/-- Members without those that a later member of the same name replaces. -/
def lastMembers : List (String × Json) → List (String × Json)
  | [] => []
  | m :: ms => if ms.any fun later => later.1 == m.1 then lastMembers ms else m :: lastMembers ms

mutual
/-- A document in which of several members with one name only the last one is kept. -/
def distinct : Json → Json
  | array items => array (distinctItems items)
  | object members => object (lastMembers (distinctMembers members))
  | j => j

/-- The items of an array, each with distinct members. -/
def distinctItems : List Json → List Json
  | [] => []
  | j :: js => j.distinct :: distinctItems js

/-- The members of an object, each value with distinct members. -/
def distinctMembers : List (String × Json) → List (String × Json)
  | [] => []
  | (k, j) :: ms => (k, j.distinct) :: distinctMembers ms
end

/-- An identity that is written is read back. -/
theorem id?_ofId (v : UInt64) : (ofId v).id? = some v := by
  have h : (v.toNat : Int).toNat < UInt64.size := v.toNat_lt
  rw [ofId, id?, if_pos ⟨Int.natCast_nonneg _, h⟩]
  simp

end Json

end LiveServices
