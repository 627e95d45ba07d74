import CatalogSearch.Calendar.Moment

/-!
# Written moments

Moments are written `YYYY-MM-DDTHH:MM:SS`, with six digits of microseconds if there are any and
with the offset if there is one, in minutes unless it has seconds or microseconds.  `ofWritten?`
reads what is written.  `ofText?` reads only offsets in minutes and is wider otherwise: a space, an
underscore or a small `t` may stand between date and time, seconds may be missing, a fraction may
have any number of digits of which six count, and an offset may be `Z` or lack its colon.
-/

set_option autoImplicit false

namespace CatalogSearch.Calendar

def padded (width n : Nat) : List Char :=
  let digits := Nat.toDigits 10 n
  List.replicate (width - digits.length) '0' ++ digits

def Date.chars (d : Date) : List Char :=
  padded 4 d.year ++ '-' :: padded 2 d.month ++ '-' :: padded 2 d.day

def Date.text (d : Date) : String := String.ofList d.chars

def fractionChars (microseconds : Nat) : List Char :=
  if microseconds = 0 then [] else '.' :: padded 6 microseconds

def offsetChars (offset : Int) : List Char :=
  let n := offset.natAbs
  let second := n / 1000000
  (if offset < 0 then '-' else '+') :: padded 2 (second / 3600) ++
    ':' :: padded 2 (second / 60 % 60) ++
    if n % 60000000 = 0 then []
    else ':' :: padded 2 (second % 60) ++ fractionChars (n % 1000000)

def Moment.charsWith (m : Moment) (separator : Char) : List Char :=
  m.date.chars ++ separator :: padded 2 m.hour ++ ':' :: padded 2 m.minute ++
    ':' :: padded 2 m.second ++ fractionChars m.microsecond ++
    (match m.offset with
      | none => []
      | some offset => offsetChars offset)

def Moment.text (m : Moment) : String := String.ofList (m.charsWith 'T')

def digit? (c : Char) : Option Nat :=
  if '0' ≤ c ∧ c ≤ '9' then some (c.toNat - '0'.toNat) else none

def readDigits? : Nat → Nat → List Char → Option (Nat × List Char)
  | 0, n, s => some (n, s)
  | _ + 1, _, [] => none
  | count + 1, n, c :: rest =>
      match digit? c with
      | some d => readDigits? count (10 * n + d) rest
      | none => none

def readChar? (isOne : Char → Bool) : List Char → Option (List Char)
  | c :: rest => if isOne c then some rest else none
  | [] => none

def Date.read? (s : List Char) : Option (Date × List Char) := do
  let (year, s) ← readDigits? 4 0 s
  let s ← readChar? (· = '-') s
  let (month, s) ← readDigits? 2 0 s
  let s ← readChar? (· = '-') s
  let (day, s) ← readDigits? 2 0 s
  if (Date.mk year month day).isValid then some (⟨year, month, day⟩, s) else none

/-- The digits of a fraction: the value of the first six, padded with zeros, and what follows. -/
def readFraction : Nat → Nat → List Char → Nat × List Char
  | count, n, [] => (n * Nat.pow 10 (6 - count), [])
  | count, n, c :: rest =>
      match digit? c with
      | some d => if count < 6 then readFraction (count + 1) (10 * n + d) rest
          else readFraction count n rest
      | none => (n * Nat.pow 10 (6 - count), c :: rest)

def isFractionMark (c : Char) : Bool := c = '.' || c = ','

def startsDigit : List Char → Bool
  | c :: _ => (digit? c).isSome
  | [] => false

def readSeconds? : List Char → Option (Nat × Nat × List Char)
  | ':' :: s => do
      let (second, s) ← readDigits? 2 0 s
      if 59 < second then none
      else
        match s with
        | [] => some (second, 0, [])
        | c :: rest =>
            if isFractionMark c then
              if startsDigit rest then
                let (micro, after) := readFraction 0 0 rest
                some (second, micro, after)
              else none
            else some (second, 0, c :: rest)
  | s => some (0, 0, s)

def readOffsetOf? (sign : Int) (s : List Char) : Option Int := do
  let (hours, s) ← readDigits? 2 0 s
  let s := match s with
    | ':' :: rest => rest
    | s => s
  let (minutes, s) ← readDigits? 2 0 s
  let seconds := hours * 3600 + minutes * 60
  if minutes < 60 ∧ seconds < 86400 ∧ s.isEmpty then some (sign * (1000000 * seconds : Nat))
  else none

/-- The offset that ends a text, in minutes; the outer option is failure. -/
def readOffset? : List Char → Option (Option Int)
  | [] => some none
  | ['Z'] => some (some 0)
  | ['z'] => some (some 0)
  | '+' :: s => (readOffsetOf? 1 s).map some
  | '-' :: s => (readOffsetOf? (-1) s).map some
  | '\u2212' :: s => (readOffsetOf? (-1) s).map some
  | _ => none

def readFineOffset? (sign : Int) (s : List Char) : Option Int := do
  let (hours, s) ← readDigits? 2 0 s
  let s ← readChar? (· = ':') s
  let (minutes, s) ← readDigits? 2 0 s
  let (second, microsecond, s) ← readSeconds? s
  let seconds := hours * 3600 + minutes * 60 + second
  if minutes < 60 ∧ seconds < 86400 ∧ s.isEmpty then
    some (sign * (1000000 * seconds + microsecond : Nat))
  else none

/-- The offset that ends a written moment; the outer option is failure. -/
def readWrittenOffset? : List Char → Option (Option Int)
  | [] => some none
  | '+' :: s => (readFineOffset? 1 s).map some
  | '-' :: s => (readFineOffset? (-1) s).map some
  | _ => none

def isSeparator (c : Char) : Bool := c = 'T' || c = 't' || c = ' ' || c = '_'

def Moment.read? (offset? : List Char → Option (Option Int)) (s : List Char) : Option Moment := do
  let (date, s) ← Date.read? s
  let s ← readChar? isSeparator s
  let (hour, s) ← readDigits? 2 0 s
  let s ← readChar? (· = ':') s
  let (minute, s) ← readDigits? 2 0 s
  let (second, microsecond, s) ← readSeconds? s
  let offset ← offset? s
  if hour < 24 ∧ minute < 60 then some ⟨date, hour, minute, second, microsecond, offset⟩ else none

def Moment.ofText? (s : String) : Option Moment := Moment.read? readOffset? s.toList

def Moment.ofWritten? (s : String) : Option Moment := Moment.read? readWrittenOffset? s.toList

def Date.ofText? (s : String) : Option Date :=
  match Date.read? s.toList with
  | some (date, []) => some date
  | _ => none

end CatalogSearch.Calendar
