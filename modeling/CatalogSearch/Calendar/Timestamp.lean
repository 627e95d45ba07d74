import CatalogSearch.Calendar.Written
import CatalogSearch.Number.Decimal

/-!
# Timestamps

A timestamp counts seconds from the start of 1970 in universal time, or milliseconds if it is
larger than the watershed, and may have a fraction.  Only moments of the years 0 to 9999 have one.
-/

set_option autoImplicit false

namespace CatalogSearch.Calendar

open Number

def watershed : Nat := 20000000000

def earliestSecond : Int := -62167219200

def latestSecond : Int := 253402300799

/-- How many units of a timestamp make a second. -/
inductive TimestampUnit where
  | second
  | millisecond
  deriving DecidableEq, Repr

def TimestampUnit.microseconds : TimestampUnit → Nat
  | second => 1000000
  | millisecond => 1000

def Moment.ofUnits? (unit : TimestampUnit) (timestamp : Int) (microseconds : Nat) :
    Option Moment :=
  let total := timestamp * unit.microseconds + microseconds
  let seconds := total / 1000000
  if earliestSecond ≤ seconds ∧ seconds ≤ latestSecond then
    some (Moment.ofUnix seconds (total % 1000000).toNat)
  else none

def Moment.ofTimestamp? (timestamp : Int) : Option Moment :=
  Moment.ofUnits? (if timestamp.natAbs ≤ watershed then .second else .millisecond) timestamp 0

def ratioOf (mantissa : Nat) (exponent : Int) : Nat × Nat :=
  (mantissa * Nat.pow 2 exponent.toNat, Nat.pow 2 (-exponent).toNat)

/-- `x * n` to the nearest natural number, a half going up, of a positive number whose product is
rounded to a floating point number first. -/
def nearestProduct (x : Binary64) (n : Nat) : Nat :=
  match x with
  | .finite _ mantissa exponent =>
      let (num, den) := ratioOf mantissa exponent
      match Binary64.ofRatio false (num * n) den with
      | .finite _ mantissa exponent =>
          let (num, den) := ratioOf mantissa exponent
          (2 * num + den) / (2 * den)
      | _ => 0
  | _ => 0

/-- The whole units are rounded down, so that the rest of the number always counts forward. -/
def Moment.ofBinary? : Binary64 → Option Moment
  | .finite negative mantissa exponent =>
      let (num, den) := ratioOf mantissa exponent
      let unit : TimestampUnit := if num ≤ watershed * den then .second else .millisecond
      let signed := Binary64.applySign negative num
      let rest := Binary64.ofRatio false (signed % (den : Int)).toNat den
      Moment.ofUnits? unit (signed / (den : Int)) (nearestProduct rest unit.microseconds)
  | _ => none

def tenExponent? : List Char → Option Int
  | [] => some 0
  | c :: rest =>
      if c = 'e' ∨ c = 'E' then
        let (negative, rest) := Decimal.takeSign rest
        match Decimal.takeDigits rest with
        | (d :: ds, []) => some (Binary64.applySign negative (Decimal.digitsValue (d :: ds)))
        | _ => none
      else none

/-- A timestamp in digits, with a sign if need be.  Only a number with a point may have an exponent,
and on one side of the point the digits may be missing. -/
def Moment.ofDigits? (s : List Char) : Option Moment :=
  let (negative, s) := Decimal.takeSign s
  match Decimal.takeDigits s with
  | (d :: ds, []) =>
      Moment.ofTimestamp? (Binary64.applySign negative (Decimal.digitsValue (d :: ds)))
  | (whole, '.' :: rest) =>
      let (fraction, rest) := Decimal.takeDigits rest
      if whole.isEmpty && fraction.isEmpty then none
      else
        (tenExponent? rest).bind fun e =>
          Moment.ofBinary? (Binary64.ofDecimal negative (Decimal.digitsValue (whole ++ fraction))
            (e - fraction.length))
  | _ => none

/-- A written moment, a timestamp, or a date, which means its midnight. -/
def Moment.ofAnyText? (s : String) : Option Moment :=
  (Moment.ofText? s).or
    ((Moment.ofDigits? s.toList).or ((Date.ofText? s).map Moment.midnight))

end CatalogSearch.Calendar
