/-!
# Integer numerals

A signed 64-bit integer is read from an optional sign and one or more ASCII digits, with nothing
around them. A numeral whose value does not fit in 64 bits is no integer. Escapes in documents
hold hexadecimal digits, in upper or lower case.
-/

namespace LiveServices.Text

/-- The value of an ASCII digit. -/
def digitValue? (c : Char) : Option Nat :=
  if '0' ≤ c ∧ c ≤ '9' then some (c.toNat - '0'.toNat) else none

/-- The number that digits denote after those that denote `n`; `none` if one is no digit. -/
def foldDigits? : Nat → List Char → Option Nat
  | n, [] => some n
  | n, c :: cs => (digitValue? c).bind fun d => foldDigits? (10 * n + d) cs

/-- The number denoted by one or more digits. -/
def natural? (cs : List Char) : Option Nat :=
  if cs.isEmpty then none else foldDigits? 0 cs

/-- The integer denoted by digits after an optional sign. -/
def integer? : List Char → Option Int
  | '-' :: cs => (natural? cs).map fun n => -(n : Int)
  | '+' :: cs => (natural? cs).map fun n => (n : Int)
  | cs => (natural? cs).map fun n => (n : Int)

/-- The value of a hexadecimal digit. -/
def hexValue? (c : Char) : Option Nat :=
  if '0' ≤ c ∧ c ≤ '9' then some (c.toNat - '0'.toNat)
  else if 'a' ≤ c ∧ c ≤ 'f' then some (c.toNat - 'a'.toNat + 10)
  else if 'A' ≤ c ∧ c ≤ 'F' then some (c.toNat - 'A'.toNat + 10)
  else none

/-- The number that hexadecimal digits denote. -/
def hexNumber? (cs : List Char) : Option Nat :=
  cs.foldlM (fun n c => (hexValue? c).map (16 * n + ·)) 0

/-- An integer as a 64-bit word, if it fits. -/
def toLong? (n : Int) : Option Int64 :=
  if Int64.minValue.toInt ≤ n ∧ n ≤ Int64.maxValue.toInt then some (Int64.ofInt n) else none

/-- The 64-bit integer that a text denotes. -/
def long? (s : String) : Option Int64 := (integer? s.toList).bind toLong?

/-- The decimal text of a 64-bit integer. -/
def ofLong (v : Int64) : String := toString v.toInt

/-- The decimal text of an unsigned 64-bit integer. -/
def ofId (v : UInt64) : String := toString v.toNat

/-- A long is read back from the integer that it is. -/
theorem toLong?_toInt (v : Int64) : toLong? v.toInt = some v := by
  rw [toLong?, if_pos ⟨Int64.minValue_le_toInt v, Int64.toInt_le v⟩, Int64.ofInt_toInt]

end LiveServices.Text
