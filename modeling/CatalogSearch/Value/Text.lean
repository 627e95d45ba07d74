import CatalogSearch.Calendar.Written
import CatalogSearch.Text.Quoted
import CatalogSearch.Value.Basic

/-!
# The text of values

`quoted` is the text that names a value together with its kind, as error messages show it;
`display` is the plain text, which for a text is the text itself and for a number or a date what
is written of it.
-/

set_option autoImplicit false

namespace CatalogSearch

open Number Calendar

def joined (separator : String) : List String → String
  | [] => ""
  | [s] => s
  | s :: rest => s ++ separator ++ joined separator rest

def quoteByte (quote : Char) (b : UInt8) : List Char :=
  let c := Char.ofNat b.toNat
  if c = quote ∨ c = '\\' then ['\\', c]
  else if c = '\n' then ['\\', 'n']
  else if c = '\r' then ['\\', 'r']
  else if c = '\t' then ['\\', 't']
  else if 32 ≤ b.toNat ∧ b.toNat < 127 then [c]
  else '\\' :: 'x' :: Text.hex 2 b.toNat

def quotedBytes (bs : List UInt8) : String :=
  let quote := Text.quoteOf (bs.map fun b => Char.ofNat b.toNat)
  String.ofList ('b' :: quote :: bs.flatMap (quoteByte quote) ++ [quote])

def durationPart (name : String) (n : Int) : List String :=
  if n = 0 then [] else [name ++ "=" ++ toString n]

def offsetText (offset : Int) : String :=
  if offset = 0 then "datetime.timezone.utc"
  else
    let parts := durationPart "days" (offset / 86400000000) ++
      durationPart "seconds" (offset % 86400000000 / 1000000) ++
      durationPart "microseconds" (offset % 1000000)
    "datetime.timezone(datetime.timedelta(" ++ joined ", " parts ++ "))"

def quotedDate (d : Date) : String :=
  "datetime.date(" ++ joined ", " ([d.year, d.month, d.day].map toString) ++ ")"

def quotedMoment (m : Moment) : String :=
  let seconds :=
    if m.microsecond ≠ 0 then [m.second, m.microsecond]
    else if m.second ≠ 0 then [m.second] else []
  let fields := [m.date.year, m.date.month, m.date.day, m.hour, m.minute] ++ seconds
  let zone := match m.offset with
    | none => []
    | some offset => ["tzinfo=" ++ offsetText offset]
  "datetime.datetime(" ++ joined ", " (fields.map toString ++ zone) ++ ")"

def boolText (b : Bool) : String := if b then "True" else "False"

def setText (parts : List String) : String :=
  if parts.isEmpty then "set()" else "\x7b" ++ joined ", " parts ++ "\x7d"

def tupleText : List String → String
  | [s] => "(" ++ s ++ ",)"
  | parts => "(" ++ joined ", " parts ++ ")"

namespace Value

mutual

def quoted : Value → String
  | .null => "None"
  | .bool b => boolText b
  | .int n => toString n
  | .float x => x.text
  | .decimal d => "Decimal('" ++ d.text ++ "')"
  | .text s => Text.quoted s
  | .moment m => quotedMoment m
  | .date d => quotedDate d
  | .bytes bs => quotedBytes bs
  | .list items => "[" ++ joined ", " (quotedItems items) ++ "]"
  | .tuple items => tupleText (quotedItems items)
  | .set items => setText (quotedItems items)
  | .frozenset items =>
      "frozenset(" ++ (if items.isEmpty then "" else setText (quotedItems items)) ++ ")"
  | .dict entries => "\x7b" ++ joined ", " (quotedEntries entries) ++ "\x7d"
  | .range lower upper =>
      "Range(from_=" ++ quotedBound lower ++ ", to=" ++ quotedBound upper ++ ")"

def quotedItems : List Value → List String
  | [] => []
  | v :: rest => v.quoted :: quotedItems rest

def quotedEntries : List (String × Value) → List String
  | [] => []
  | (key, v) :: rest => (Text.quoted key ++ ": " ++ v.quoted) :: quotedEntries rest

def quotedBound : Option Value → String
  | none => "None"
  | some v => v.quoted

end

def display : Value → String
  | .text s => s
  | .decimal d => d.text
  | .moment m => String.ofList (m.charsWith ' ')
  | .date d => d.text
  | .range lower upper => "from_=" ++ quotedBound lower ++ " to=" ++ quotedBound upper
  | v => v.quoted

end Value

end CatalogSearch
