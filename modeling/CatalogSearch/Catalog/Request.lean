import CatalogSearch.Calendar.Timestamp
import CatalogSearch.Json.Reader
import CatalogSearch.Validation.Integer
import CatalogSearch.Value.Basic

/-!
# Search requests

A request is a JSON object with the fields of a product search.  Every field may be null or
missing; numbers and moments may be given in several notations, texts only as texts.  Problems are
listed by field, in the order of the fields, and unknown members come last.
-/

set_option autoImplicit false

namespace CatalogSearch.Catalog

open Validation Number Calendar

/-- How deep non-empty containers of a request may be nested. -/
def depthLimit : Nat := 200

abbrev Reading : Type := Json → Except ProblemKind Value

def readText : Reading
  | .text s => .ok (.text s)
  | _ => .error .notText

def readInteger : Reading
  | .int n => .ok (.int n)
  | .bool b => .ok (.int (if b then 1 else 0))
  | .float x => (integerOfBinary x).map .int
  | .text s => (integerOfText s).map .int
  | _ => .error .notInteger

def finiteDecimal (d : Decimal) : Except ProblemKind Value :=
  if d.isFinite then .ok (.decimal d) else .error .notFinite

def readDecimal : Reading
  | .int n => .ok (.decimal (.finite (n < 0) n.natAbs 0))
  | .float x => finiteDecimal (Decimal.ofBinary x)
  | .text s =>
      match Decimal.ofText? s with
      | some d => finiteDecimal d
      | none => .error .decimalText
  | _ => .error .notDecimal

def momentOr (kind : ProblemKind) : Option Moment → Except ProblemKind Value
  | some m => if m.date.year = 0 then .error .momentRange else .ok (.moment m)
  | none => .error kind

/-- Integers of more than 64 bits are no timestamps. -/
def readMoment : Reading
  | .int n =>
      if -9223372036854775808 ≤ n ∧ n < 9223372036854775808 then
        momentOr .momentRange (Moment.ofTimestamp? n)
      else .error .notMoment
  | .float x => momentOr .momentRange (Moment.ofBinary? x)
  | .text s => momentOr .momentText (Moment.ofAnyText? s)
  | _ => .error .notMoment

inductive Form where
  | one (read : Reading)
  | texts
  | range (read : Reading)

def requestForms : List (String × Form) :=
  [("term", .one readText),
    ("price_range", .range readDecimal),
    ("created", .range readMoment),
    ("status_list", .texts),
    ("category_id", .one readInteger),
    ("category_name", .one readText),
    ("department_name", .one readText),
    ("manager_name", .one readText),
    ("rating", .range readInteger)]

def unknownKeys (known : List String) (members : List (String × Json)) : List Problem :=
  (((members.map Prod.fst).filter fun name => !known.contains name).eraseDups).map fun name =>
    ⟨[.key name], .unknownKey⟩

def unlessMore {α : Type} (more : List Problem) (c : Checked α) : Checked α :=
  match both c (if more.isEmpty then .ok () else .error more) with
  | .ok (a, _) => .ok a
  | .error problems => .error problems

def inside (place : List Step) {α : Type} : Checked α → Checked α
  | .ok a => .ok a
  | .error problems => .error (problems.map fun p => { p with place := place ++ p.place })

/-- A bound of a range: missing and null are no bound. -/
def readBound (read : Reading) (name : String) (members : List (String × Json)) :
    Checked (Option Value) :=
  match Json.lastOf name members with
  | none => .ok none
  | some .null => .ok none
  | some j => placed [.key name] ((read j).map some)

/-- The lower bound goes by `from`, or by `from_` where there is no `from`. -/
def lowerName (members : List (String × Json)) : String :=
  if (Json.lastOf "from" members).isSome then "from"
  else if (Json.lastOf "from_" members).isSome then "from_" else "from"

def readRange (read : Reading) (members : List (String × Json)) : Checked Value :=
  let lower := lowerName members
  unlessMore (unknownKeys [lower, "to"] members)
    ((both (readBound read lower members) (readBound read "to" members)).map fun (a, b) =>
      .range a b)

def readTexts (items : List Json) : Checked Value :=
  (gather (items.zipIdx.map fun (j, n) => placed [.index n] (readText j))).map .list

def Form.read : Form → Json → Checked Value
  | _, .null => .ok .null
  | .one read, j => placed [] (read j)
  | .texts, .array items => readTexts items
  | .texts, _ => .error [⟨[], .notList⟩]
  | .range read, .object members => readRange read members
  | .range _, _ => .error [⟨[], .notObject⟩]

def readField (members : List (String × Json)) (field : String × Form) : Checked (String × Value) :=
  match Json.lastOf field.1 members with
  | none => .ok (field.1, .null)
  | some j => inside [.key field.1] ((field.2.read j).map fun v => (field.1, v))

def readMembers (members : List (String × Json)) : Checked (List (String × Value)) :=
  unlessMore (unknownKeys (requestForms.map Prod.fst) members)
    (gather (requestForms.map (readField members)))

def readRequest (text : String) : Checked (List (String × Value)) :=
  match Json.ofText? depthLimit text with
  | none => .error [⟨[], .invalidJson⟩]
  | some (.object members) => readMembers members
  | some _ => .error [⟨[], .notObject⟩]

end CatalogSearch.Catalog
