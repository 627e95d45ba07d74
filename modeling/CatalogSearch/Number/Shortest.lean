import CatalogSearch.Number.Binary64

/-!
# Shortest decimals of binary floating point numbers

The reals that round to a finite number form an interval around it, ends included if the mantissa
is even.  `shortest` tries decimal grids of one, two, … seventeen digits and takes the first that
has a point in the interval, of two such points the nearer one.  Of two points that are equally near
either the even or the greater one is taken.
-/

set_option autoImplicit false

namespace CatalogSearch.Number

inductive Tie where
  | even
  | up
  deriving DecidableEq, Repr

/-- A rounding interval over one denominator: its ends, the number inside it, and whether the ends
belong to it. -/
structure Interval where
  low : Nat
  value : Nat
  high : Nat
  den : Nat
  closed : Bool

namespace Interval

/-- The interval of `mantissa * 2 ^ exponent`, in quarters of the last place; below a power of two
the numbers lie twice as dense. -/
def ofParts (mantissa : Nat) (exponent : Int) : Interval :=
  let up := Nat.pow 2 (exponent - 2).toNat
  let low := if mantissa = Nat.pow 2 52 ∧ Binary64.lowestExponent < exponent then 4 * mantissa - 1
    else 4 * mantissa - 2
  { low := low * up
    value := 4 * mantissa * up
    high := (4 * mantissa + 2) * up
    den := Nat.pow 2 (2 - exponent).toNat
    closed := mantissa % 2 = 0 }

def magnitude (i : Interval) : Int :=
  if i.den ≤ i.value then Binary64.digitCount (i.value / i.den)
  else 1 - (Binary64.digitCount ((i.den - 1) / i.value) : Int)

def holds (i : Interval) (a b c : Nat) : Bool :=
  if i.closed then i.low * a ≤ c * (b * i.den) && c * (b * i.den) ≤ i.high * a
  else i.low * a < c * (b * i.den) && c * (b * i.den) < i.high * a

/-- The point of the grid of step `10 ^ grid` that lies in the interval and nearest to its value. -/
def pick? (i : Interval) (tie : Tie) (grid : Int) : Option Nat :=
  let a := Nat.pow 10 (-grid).toNat
  let b := Nat.pow 10 grid.toNat
  let below := i.value * a / (b * i.den)
  let rest := i.value * a % (b * i.den)
  let nearest := if 2 * rest < b * i.den then below
    else if b * i.den < 2 * rest ∨ tie = .up then below + 1 else below + below % 2
  let other := if nearest = below then below + 1 else below
  if i.holds a b nearest then some nearest else if i.holds a b other then some other else none

def search (i : Interval) (tie : Tie) (k : Int) (digits : Nat) : Nat → Nat × Int
  | 0 => (0, 0)
  | count + 1 =>
      match i.pick? tie (k - digits) with
      | some c => (c, k - digits)
      | none => search i tie k (digits + 1) count

end Interval

def stripZeros : Nat → Nat × Int → Nat × Int
  | 0, d => d
  | bound + 1, (c, e) => if c ≠ 0 ∧ c % 10 = 0 then stripZeros bound (c / 10, e + 1) else (c, e)

/-- The shortest `coefficient * 10 ^ exponent` that rounds to `mantissa * 2 ^ exponent`. -/
def shortest (tie : Tie) (mantissa : Nat) (exponent : Int) : Nat × Int :=
  if mantissa = 0 then (0, 0)
  else
    let i := Interval.ofParts mantissa exponent
    stripZeros 20 (i.search tie i.magnitude 1 17)

end CatalogSearch.Number
