/-! # Sorting

    Listings are sorted by insertion, which is stable and unfolds on any
    concrete list.  What runs does without Mathlib, so the two functions are
    written out here; they are its insertion sort (`sortBy_eq_insertionSort`),
    and what is known of that is used of them. -/

namespace OrderFlow

variable {α : Type}

/-- Inserts an item before the first one that is not less. -/
def insertBy (le : α → α → Bool) (a : α) : List α → List α
  | [] => [a]
  | b :: rest => if le a b then a :: b :: rest else b :: insertBy le a rest

/-- The items in ascending order; equal ones stay in the order of the list. -/
def sortBy (le : α → α → Bool) : List α → List α
  | [] => []
  | a :: rest => insertBy le a (sortBy le rest)

end OrderFlow
