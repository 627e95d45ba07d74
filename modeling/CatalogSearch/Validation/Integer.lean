import CatalogSearch.Json.Reader
import CatalogSearch.Validation.Problem

/-!
# Integers in loose notation

An integer may be given as a text with blanks around it, a sign, leading zeros, single underscores
between its digits and a fraction of at least one zero, or as a floating point number without
fraction.  A text in plain notation that is too long is told apart from one that is no number; in
any other notation both are the same.
-/

set_option autoImplicit false

namespace CatalogSearch.Validation

open Number

def unsignedInteger? (negative : Bool) (s : List Char) : Except ProblemKind Int :=
  match Decimal.takeDigits s with
  | ([], _) => .error .integerText
  | (0 :: _ :: _, _) => .error .integerText
  | (digits, rest) =>
      if Json.digitLimit < Json.integerLength negative digits then .error .integerSize
      else if rest.isEmpty then .ok (Binary64.applySign negative (Decimal.digitsValue digits))
      else .error .integerText

/-- Digits without a leading zero, after an optional minus. -/
def plainInteger? : List Char → Except ProblemKind Int
  | '-' :: rest => unsignedInteger? true rest
  | s => unsignedInteger? false s

/-- The text after an optional plus; a minus may not follow the plus. -/
def withoutPlus? : List Char → Option (List Char)
  | '+' :: '-' :: _ => none
  | '+' :: rest => some rest
  | s => some s

/-- What is left of a text after a leading zero, `last` being the character before it.  A minus may
stand behind the zeros. -/
def afterZeros? (last : Char) : List Char → Option (List Char)
  | [] => some [last]
  | c :: rest =>
      if c = '0' ∨ c = '_' then afterZeros? c rest
      else if c = '.' then some (last :: c :: rest)
      else if ('1' ≤ c ∧ c ≤ '9') ∨ c = '-' then some (c :: rest)
      else none

def withoutZeros? : List Char → Option (List Char)
  | [] => none
  | c :: rest =>
      if c = '0' then afterZeros? c rest
      else if '1' ≤ c ∧ c ≤ '9' then some (c :: rest)
      else none

/-- The text before a point that zeros follow, one at least, and nothing else. -/
def withoutFraction (s : List Char) : List Char :=
  match s.dropWhile (· ≠ '.') with
  | _ :: '0' :: zeros => if zeros.all (· = '0') then s.takeWhile (· ≠ '.') else s
  | _ => s

def hasDouble : List Char → Bool
  | '_' :: '_' :: _ => true
  | _ :: rest => hasDouble rest
  | [] => false

def withoutUnderscores (s : List Char) : List Char :=
  if s.head? = some '_' ∨ s.getLast? = some '_' ∨ hasDouble s then s else s.filter (· ≠ '_')

def tidyUnsigned? (s : List Char) : Option (List Char) :=
  (withoutZeros? s).map fun s => withoutUnderscores (withoutFraction s)

def tidyInteger? (s : List Char) : Option (List Char) := do
  match ← withoutPlus? (Text.trimmed Text.isWhiteSpace s) with
  | '-' :: rest => (tidyUnsigned? rest).map ('-' :: ·)
  | s => tidyUnsigned? s

def integerOfText (s : String) : Except ProblemKind Int :=
  match plainInteger? s.toList with
  | .ok n => .ok n
  | .error .integerSize => .error .integerSize
  | .error _ =>
      match tidyInteger? s.toList with
      | some tidy => (plainInteger? tidy).mapError fun _ => .integerText
      | none => .error .integerText

/-- Numbers of `2 ^ 63` and more in size are refused. -/
def integerOfBinary (x : Binary64) : Except ProblemKind Int :=
  match x.truncate? with
  | none => .error .notFinite
  | some n =>
      if !x.isIntegral then .error .integerFraction
      else if n.natAbs < 9223372036854775808 then .ok n
      else .error .integerSize

end CatalogSearch.Validation
