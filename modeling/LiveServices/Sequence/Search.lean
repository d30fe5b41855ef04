/-!
# Binary search

`search` looks for a place in a list whose elements are first below it, then at it, then above it.
The list is halved until one candidate is left, and only that candidate decides whether the place
is taken. On a list that is not in such an order the answer is still determined, by the elements
that the halving happens to inspect.
-/

namespace LiveServices.Sequence

/-- The one candidate left of `size` candidates from `base` on: of each half, the upper one is
kept unless its first element is above the place. -/
def narrow (isAbove : Nat → Bool) (size base : Nat) : Nat :=
  if _h : size ≤ 1 then base
  else
    let half := size / 2
    narrow isAbove (size - half) (if isAbove (base + half) then base else base + half)
termination_by size
decreasing_by omega

/-- What a search found. -/
inductive Place where
  /-- An element is at the place. -/
  | taken (index : Nat)
  /-- The place is free, before the element of this index. -/
  | free (index : Nat)
  deriving DecidableEq

/-- The place in a list; `side` says on which side of it an element stands. -/
def search (side : α → Ordering) (items : List α) : Place :=
  let base := narrow (fun i => (items[i]?.map side) == some .gt) items.length 0
  match items[base]?.map side with
  | none => .free base
  | some .eq => .taken base
  | some .lt => .free (base + 1)
  | some .gt => .free base

/-- The number of elements that pass a test, in a list where those that do come first. -/
def partitionPoint (test : α → Bool) (items : List α) : Nat :=
  match search (fun x => if test x then .lt else .gt) items with
  | .taken index => index
  | .free index => index

end LiveServices.Sequence
