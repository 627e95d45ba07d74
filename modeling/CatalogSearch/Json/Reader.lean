import CatalogSearch.Json.Basic
import CatalogSearch.Number.Decimal

/-!
# Reading JSON

The grammar is that of the standard with `NaN`, `Infinity` and `-Infinity` as further numbers.  A
text is refused if a string holds a control character or half of a surrogate pair, if the integer
part of a number has more than 4300 characters, or if non-empty containers are nested deeper than a
given limit.
-/

set_option autoImplicit false

namespace CatalogSearch.Json

open Number

def isSpace (c : Char) : Bool := c = ' ' || c = '\t' || c = '\n' || c = '\r'

def skipSpace (s : List Char) : List Char := s.dropWhile isSpace

def after? : List Char → List Char → Option (List Char)
  | [], s => some s
  | _ :: _, [] => none
  | w :: word, c :: rest => if w = c then after? word rest else none

def hexDigit? (c : Char) : Option Nat :=
  if '0' ≤ c ∧ c ≤ '9' then some (c.toNat - 48)
  else if 'a' ≤ c ∧ c ≤ 'f' then some (c.toNat - 87)
  else if 'A' ≤ c ∧ c ≤ 'F' then some (c.toNat - 55)
  else none

def hex4? : List Char → Option (Nat × List Char)
  | a :: b :: c :: d :: rest => do
      let a ← hexDigit? a
      let b ← hexDigit? b
      let c ← hexDigit? c
      let d ← hexDigit? d
      return (((a * 16 + b) * 16 + c) * 16 + d, rest)
  | _ => none

/-- The character of a `\u` escape, given the text after the `u`. -/
def unicodeEscape? (s : List Char) : Option (Char × List Char) := do
  let (unit, rest) ← hex4? s
  if 0xD800 ≤ unit ∧ unit < 0xDC00 then
    let rest ← after? ['\\', 'u'] rest
    let (low, rest) ← hex4? rest
    if 0xDC00 ≤ low ∧ low < 0xE000 then
      some (Char.ofNat (0x10000 + (unit - 0xD800) * 0x400 + (low - 0xDC00)), rest)
    else none
  else if 0xDC00 ≤ unit ∧ unit < 0xE000 then none
  else some (Char.ofNat unit, rest)

def escape? : List Char → Option (Char × List Char)
  | '"' :: rest => some ('"', rest)
  | '\\' :: rest => some ('\\', rest)
  | '/' :: rest => some ('/', rest)
  | 'b' :: rest => some ('\x08', rest)
  | 'f' :: rest => some ('\x0c', rest)
  | 'n' :: rest => some ('\n', rest)
  | 'r' :: rest => some ('\r', rest)
  | 't' :: rest => some ('\t', rest)
  | 'u' :: rest => unicodeEscape? rest
  | _ => none

/-- The characters of a string, in reverse, given the text after the opening quote. -/
def readChars? : Nat → List Char → List Char → Option (List Char × List Char)
  | 0, _, _ => none
  | _ + 1, _, [] => none
  | fuel + 1, read, c :: rest =>
      if c = '"' then some (read, rest)
      else if c = '\\' then
        match escape? rest with
        | some (e, rest) => readChars? fuel (e :: read) rest
        | none => none
      else if c.toNat < 32 then none
      else readChars? fuel (c :: read) rest

def readString? (s : List Char) : Option (String × List Char) :=
  (readChars? (s.length + 1) [] s).map fun (read, rest) => (String.ofList read.reverse, rest)

def wholeDigits? (s : List Char) : Option (List Nat × List Char) :=
  match Decimal.takeDigits s with
  | ([], _) => none
  | (0 :: _ :: _, _) => none
  | digits => some digits

def fractionDigits? : List Char → Option (List Nat × List Char)
  | '.' :: rest =>
      match Decimal.takeDigits rest with
      | ([], _) => none
      | digits => some digits
  | s => some ([], s)

def isExponentMark (c : Char) : Bool := c = 'e' || c = 'E'

/-- The exponent and what follows it; `none` inside if there is no exponent part. -/
def exponent? : List Char → Option (Option Int × List Char)
  | [] => some (none, [])
  | c :: rest =>
      if isExponentMark c then
        let (negative, rest) := Decimal.takeSign rest
        match Decimal.takeDigits rest with
        | ([], _) => none
        | (digits, rest) =>
            some (some (Binary64.applySign negative (Decimal.digitsValue digits)), rest)
      else some (none, c :: rest)

/-- How many characters the integer part of a number may have. -/
def digitLimit : Nat := 4300

/-- The minus counts. -/
def integerLength (negative : Bool) (digits : List Nat) : Nat :=
  if negative then digits.length + 1 else digits.length

def numberOf (negative : Bool) (whole fraction : List Nat) (exponent : Option Int) : Option Json :=
  if digitLimit < integerLength negative whole then none
  else if fraction.isEmpty && exponent.isNone then
    some (int (Binary64.applySign negative (Decimal.digitsValue whole)))
  else
    some (float (Binary64.ofDecimal negative (Decimal.digitsValue (whole ++ fraction))
      (exponent.getD 0 - fraction.length)))

def readNumber? (negative : Bool) (s : List Char) : Option (Json × List Char) := do
  let (whole, s) ← wholeDigits? s
  let (fraction, s) ← fractionDigits? s
  let (exponent, s) ← exponent? s
  let n ← numberOf negative whole fraction exponent
  return (n, s)

def readWord? (word : String) (j : Json) (s : List Char) : Option (Json × List Char) :=
  (after? word.toList s).map fun rest => (j, rest)

def readScalar? : List Char → Option (Json × List Char)
  | [] => none
  | '"' :: rest => (readString? rest).map fun (s, rest) => (text s, rest)
  | '-' :: 'I' :: rest => readWord? "nfinity" (float (.infinite true)) rest
  | '-' :: rest => readNumber? true rest
  | 'n' :: rest => readWord? "ull" null rest
  | 't' :: rest => readWord? "rue" (bool true) rest
  | 'f' :: rest => readWord? "alse" (bool false) rest
  | 'N' :: rest => readWord? "aN" (float .nan) rest
  | 'I' :: rest => readWord? "nfinity" (float (.infinite false)) rest
  | s => readNumber? false s

def readName? : List Char → Option (String × List Char)
  | '"' :: rest => do
      let (name, rest) ← readString? rest
      let rest ← after? [':'] (skipSpace rest)
      return (name, skipSpace rest)
  | _ => none

mutual

/-- A value at the start of the text.  `depth` is the number of non-empty containers that may still
be opened, and `fuel` at least the number of characters. -/
def readValue? (fuel depth : Nat) (s : List Char) : Option (Json × List Char) :=
  match fuel, s with
  | 0, _ => none
  | fuel + 1, '[' :: rest =>
      match skipSpace rest, depth with
      | ']' :: rest, _ => some (array [], rest)
      | _, 0 => none
      | s, depth + 1 => (readItems? fuel depth s).map fun (items, rest) => (array items, rest)
  | fuel + 1, '\x7b' :: rest =>
      match skipSpace rest, depth with
      | '\x7d' :: rest, _ => some (object [], rest)
      | _, 0 => none
      | s, depth + 1 => (readMembers? fuel depth s).map fun (ms, rest) => (object ms, rest)
  | _ + 1, s => readScalar? s

def readItems? (fuel depth : Nat) (s : List Char) : Option (List Json × List Char) :=
  match fuel with
  | 0 => none
  | fuel + 1 => do
      let (item, s) ← readValue? fuel depth s
      match skipSpace s with
      | ']' :: rest => some ([item], rest)
      | ',' :: rest =>
          let (items, rest) ← readItems? fuel depth (skipSpace rest)
          some (item :: items, rest)
      | _ => none

def readMembers? (fuel depth : Nat) (s : List Char) :
    Option (List (String × Json) × List Char) :=
  match fuel with
  | 0 => none
  | fuel + 1 => do
      let (name, s) ← readName? s
      let (value, s) ← readValue? fuel depth s
      match skipSpace s with
      | '\x7d' :: rest => some ([(name, value)], rest)
      | ',' :: rest =>
          let (members, rest) ← readMembers? fuel depth (skipSpace rest)
          some ((name, value) :: members, rest)
      | _ => none

end

def ofText? (depth : Nat) (s : String) : Option Json :=
  let chars := skipSpace s.toList
  match readValue? (chars.length + 1) depth chars with
  | some (j, rest) => if (skipSpace rest).isEmpty then some j else none
  | none => none

end CatalogSearch.Json
