/-!
# Tables of code points

A character property is an ascending list of closed code point ranges, and a one-to-one case map
is a list of shifts.  `Ranges.has` and `lookup` read them by plain recursion, so that a table
look-up of a closed character can be evaluated inside a proof.
-/

set_option autoImplicit false

namespace CatalogSearch.Text

abbrev Ranges := List (Nat × Nat)

def Ranges.has : Ranges → Nat → Bool
  | [], _ => false
  | (first, last) :: rest, n => if n < first then false else n ≤ last || Ranges.has rest n

/-- The code points `first, first + step, …, last`, moved together: `first` goes to `image`. -/
structure Shift where
  first : Nat
  last : Nat
  step : Nat
  image : Nat

def Shift.move? (s : Shift) (n : Nat) : Option Nat :=
  if s.first ≤ n ∧ n ≤ s.last ∧ (n - s.first) % s.step = 0 then some (s.image + (n - s.first))
  else none

/-- The image of `n` under the first shift that moves it; the shifts are ordered by `first`. -/
def lookup : List Shift → Nat → Option Nat
  | [], _ => none
  | s :: rest, n => if n < s.first then none else (s.move? n).or (lookup rest n)

end CatalogSearch.Text
