import CatalogSearch.Number.Shortest

/-!
# The text of a floating point number

The shortest digits, written positionally from `0.0001` up to sixteen digits before the point and
with an exponent of at least two digits elsewhere.  A positional text always has a fraction.
-/

set_option autoImplicit false

namespace CatalogSearch.Number

def zeros (n : Nat) : List Char := List.replicate n '0'

def signText (negative : Bool) : List Char := if negative then ['-'] else []

def digitsOf (n : Nat) : List Char := Nat.toDigits 10 n

/-- `digits` with the point after `point` of them; a text without fraction gets the digit zero. -/
def positional (digits : List Char) (point : Int) : List Char :=
  if point ≤ 0 then '0' :: '.' :: zeros (-point).toNat ++ digits
  else if digits.length ≤ point.toNat then
    digits ++ zeros (point.toNat - digits.length) ++ ['.', '0']
  else digits.take point.toNat ++ '.' :: digits.drop point.toNat

def exponentText (e : Int) : List Char :=
  let digits := digitsOf e.natAbs
  'e' :: (if e < 0 then '-' else '+') :: zeros (2 - digits.length) ++ digits

def scientific (digits : List Char) (e : Int) : List Char :=
  match digits with
  | [] => exponentText e
  | [d] => d :: exponentText e
  | d :: rest => d :: '.' :: rest ++ exponentText e

/-- Numbers from `10 ^ -4` to below `10 ^ 16` are written without exponent. -/
def isPositional (point : Int) : Bool := -4 < point && point ≤ 16

def Binary64.chars : Binary64 → List Char
  | .nan => ['n', 'a', 'n']
  | .infinite negative => signText negative ++ ['i', 'n', 'f']
  | .finite negative mantissa exponent =>
      if mantissa = 0 then signText negative ++ ['0', '.', '0']
      else
        let (c, e) := shortest .even mantissa exponent
        let digits := digitsOf c
        let point := e + digits.length
        signText negative ++
          if isPositional point then positional digits point else scientific digits (point - 1)

def Binary64.text (x : Binary64) : String := String.ofList x.chars

end CatalogSearch.Number
