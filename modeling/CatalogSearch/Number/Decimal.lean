import CatalogSearch.Number.Scientific
import CatalogSearch.Text.Blank
import CatalogSearch.Text.DecimalDigit

/-!
# Decimal numbers

A finite decimal is `coefficient * 10 ^ exponent` and keeps its trailing zeros.  `ofText?` reads
digits of every script, ignores underscores and blanks around the number, and refuses a number
whose exponent leaves the range of the arithmetic.  `text` writes a number without exponent if it
has no zeros to pad on the right and at most six on the left, and in scientific form otherwise.
-/

set_option autoImplicit false

namespace CatalogSearch.Number

inductive Decimal where
  | finite (negative : Bool) (coefficient : Nat) (exponent : Int)
  | infinite (negative : Bool)
  | nan (negative signalling : Bool) (payload : Nat)
  deriving DecidableEq, Repr

namespace Decimal

def maxExponent : Int := 999999999999999999

def minExponent : Int := -1999999999999999997

def digitsValue (digits : List Nat) : Nat := digits.foldl (fun n d => 10 * n + d) 0

def takeDigits : List Char → List Nat × List Char
  | [] => ([], [])
  | c :: rest =>
      match Text.asciiDigit? c with
      | some d => let (ds, after) := takeDigits rest; (d :: ds, after)
      | none => ([], c :: rest)

def takeSign : List Char → Bool × List Char
  | '-' :: rest => (true, rest)
  | '+' :: rest => (false, rest)
  | s => (false, s)

/-- Underscores dropped and digits of every script turned into ASCII ones; no other character
outside ASCII belongs to a number. -/
def asciiForm? : List Char → Option (List Char)
  | [] => some []
  | '_' :: rest => asciiForm? rest
  | c :: rest =>
      if 0 < c.toNat ∧ c.toNat < 128 then (asciiForm? rest).map (c :: ·)
      else
        match Text.decimalDigit? c with
        | some d => (asciiForm? rest).map (Char.ofNat ('0'.toNat + d) :: ·)
        | none => none

def inRange (coefficient : Nat) (exponent : Int) : Bool :=
  exponent + Binary64.digitCount coefficient - 1 ≤ maxExponent && minExponent ≤ exponent

def asciiLower (c : Char) : Char :=
  if 'A' ≤ c ∧ c ≤ 'Z' then Char.ofNat (c.toNat + 32) else c

def exponentOf? : List Char → Option Int
  | [] => some 0
  | 'e' :: rest =>
      let (negative, rest) := takeSign rest
      match takeDigits rest with
      | ([], _) => none
      | (ds, []) => some (Binary64.applySign negative (digitsValue ds))
      | _ => none
  | _ => none

def fractionOf : List Char → List Nat × List Char
  | '.' :: rest => takeDigits rest
  | s => ([], s)

def finiteOf? (negative : Bool) (s : List Char) : Option Decimal :=
  let (whole, rest) := takeDigits s
  let (fraction, rest) := fractionOf rest
  let coefficient := digitsValue (whole ++ fraction)
  if whole.isEmpty && fraction.isEmpty then none
  else
    (exponentOf? rest).bind fun e =>
      let exponent := e - fraction.length
      if inRange coefficient exponent then some (.finite negative coefficient exponent) else none

def nanOf? (negative signalling : Bool) (s : List Char) : Option Decimal :=
  match takeDigits s with
  | (ds, []) => some (.nan negative signalling (digitsValue ds))
  | _ => none

def ofAscii? (s : List Char) : Option Decimal :=
  let (negative, s) := takeSign (s.map asciiLower)
  if s = "inf".toList ∨ s = "infinity".toList then some (.infinite negative)
  else
    match s with
    | 'n' :: 'a' :: 'n' :: rest => nanOf? negative false rest
    | 's' :: 'n' :: 'a' :: 'n' :: rest => nanOf? negative true rest
    | _ => finiteOf? negative s

def ofText? (s : String) : Option Decimal :=
  (asciiForm? (Text.trimmed Text.isBlankChar s.toList)).bind ofAscii?

/-- The decimal of a floating point number's shortest digits, the greater of two equally near ones,
never with a positive exponent. -/
def ofBinary : Binary64 → Decimal
  | .nan => .nan false false 0
  | .infinite negative => .infinite negative
  | .finite negative mantissa exponent =>
      let (c, e) := shortest .up mantissa exponent
      if e < 0 then .finite negative c e else .finite negative (c * Nat.pow 10 e.toNat) 0

def isFinite : Decimal → Bool
  | .finite .. => true
  | _ => false

def layout (digits : List Char) (exponent : Int) : List Char :=
  let left := exponent + digits.length
  let point := if exponent ≤ 0 ∧ -6 < left then left else 1
  let body :=
    if point ≤ 0 then '0' :: '.' :: zeros (-point).toNat ++ digits
    else if digits.length ≤ point.toNat then digits ++ zeros (point.toNat - digits.length)
    else digits.take point.toNat ++ '.' :: digits.drop point.toNat
  if left = point then body
  else body ++ 'E' :: (if left < point then '-' else '+') :: digitsOf (left - point).natAbs

def chars : Decimal → List Char
  | .finite negative c e => signText negative ++ layout (digitsOf c) e
  | .infinite negative => signText negative ++ "Infinity".toList
  | .nan negative signalling payload =>
      signText negative ++ (if signalling then ['s'] else []) ++ "NaN".toList ++
        (if payload = 0 then [] else digitsOf payload)

def text (d : Decimal) : String := String.ofList d.chars

end Decimal

end CatalogSearch.Number
