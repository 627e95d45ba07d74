/-!
# Binary floating point numbers of 64 bits

A finite number is `mantissa * 2 ^ exponent` with a mantissa below `2 ^ 53` and an exponent from
`-1074`; only numbers of the lowest exponent have a mantissa below `2 ^ 52`.  `ofRatio` and
`ofDecimal` round to the nearest number, a tie going to the even mantissa.  All arithmetic is on
natural numbers and integers.
-/

set_option autoImplicit false

namespace CatalogSearch.Number

def wholePart (base m : Nat) (e : Int) : Nat := m * Nat.pow base e.toNat / Nat.pow base (-e).toNat

inductive Binary64 where
  | nan
  | infinite (negative : Bool)
  | finite (negative : Bool) (mantissa : Nat) (exponent : Int)
  deriving DecidableEq, Repr

namespace Binary64

def lowestExponent : Int := -1074

def highestExponent : Int := 971

def zero (negative : Bool) : Binary64 := .finite negative 0 lowestExponent

/-- `num / den` to the nearest natural number, a half going to the even neighbour. -/
def roundHalfEven (num den : Nat) : Nat :=
  let q := num / den
  let r := num % den
  if 2 * r < den then q else if den < 2 * r then q + 1 else q + q % 2

def roundAt (num den : Nat) (e : Int) : Nat :=
  roundHalfEven (num * Nat.pow 2 (-e).toNat) (den * Nat.pow 2 e.toNat)

def ofRatio (negative : Bool) (num den : Nat) : Binary64 :=
  if num = 0 then zero negative
  else
    let guess : Int := (num.log2 : Int) - (den.log2 : Int) - 52
    let fits := den * Nat.pow 2 (guess + 52).toNat ≤ num * Nat.pow 2 (-(guess + 52)).toNat
    let exponent := max (if fits then guess else guess - 1) lowestExponent
    let mantissa := roundAt num den exponent
    let (mantissa, exponent) :=
      if mantissa = Nat.pow 2 53 then (Nat.pow 2 52, exponent + 1) else (mantissa, exponent)
    if highestExponent < exponent then .infinite negative else .finite negative mantissa exponent

def digitCount (n : Nat) : Nat := (Nat.toDigits 10 n).length

/-- `coefficient * 10 ^ exponent`.  Exponents far outside the range are not expanded. -/
def ofDecimal (negative : Bool) (coefficient : Nat) (exponent : Int) : Binary64 :=
  let top := exponent + digitCount coefficient
  if coefficient = 0 then zero negative
  else if 310 < top then .infinite negative
  else if top < -330 then zero negative
  else ofRatio negative (coefficient * Nat.pow 10 exponent.toNat) (Nat.pow 10 (-exponent).toNat)

def applySign (negative : Bool) (n : Nat) : Int := if negative then -(n : Int) else n

def truncate? : Binary64 → Option Int
  | .finite negative mantissa exponent =>
      some (applySign negative (wholePart 2 mantissa exponent))
  | _ => none

def isIntegral : Binary64 → Bool
  | .finite _ mantissa exponent => mantissa % Nat.pow 2 (-exponent).toNat = 0
  | _ => false

end Binary64

end CatalogSearch.Number
