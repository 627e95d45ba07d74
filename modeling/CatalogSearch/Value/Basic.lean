import CatalogSearch.Calendar.Moment
import CatalogSearch.Number.Decimal

/-!
# Search values

The values that a search field can hold.  Null and blank text never filter, and the four kinds of
collection filter by membership.  A set holds its items in ascending order, each once.  A range is
one of any bounds; the name of a range type that is made for one type of bounds shows that type as
well, and values of such types are not among these.
-/

set_option autoImplicit false

namespace CatalogSearch

open Number Calendar

inductive Value where
  | null
  | bool (b : Bool)
  | int (n : Int)
  | float (x : Binary64)
  | decimal (d : Decimal)
  | text (s : String)
  | moment (m : Moment)
  | date (d : Date)
  | bytes (bs : List UInt8)
  | list (items : List Value)
  | tuple (items : List Value)
  | set (items : List Value)
  | frozenset (items : List Value)
  | dict (entries : List (String × Value))
  | range (lower upper : Option Value)
  deriving Inhabited

namespace Value

def kindName : Value → String
  | null => "NoneType"
  | bool _ => "bool"
  | int _ => "int"
  | float _ => "float"
  | decimal _ => "Decimal"
  | text _ => "str"
  | moment _ => "datetime"
  | date _ => "date"
  | bytes _ => "bytes"
  | list _ => "list"
  | tuple _ => "tuple"
  | set _ => "set"
  | frozenset _ => "frozenset"
  | dict _ => "dict"
  | range _ _ => "Range"

def isBlank : Value → Bool
  | null => true
  | text s => Text.isBlank s
  | _ => false

def items? : Value → Option (List Value)
  | list items => some items
  | tuple items => some items
  | set items => some items
  | frozenset items => some items
  | _ => none

def text? : Value → Option String
  | text s => some s
  | _ => none

def insertBy {α : Type} (before same : α → α → Bool) (x : α) : List α → List α
  | [] => [x]
  | y :: rest =>
      if same x y then y :: rest
      else if before x y then x :: y :: rest
      else y :: insertBy before same x rest

def sortedInts (xs : List Int) : List Int :=
  xs.foldl (fun acc x => insertBy (fun a b => a < b) (fun a b => a = b) x acc) []

def sortedTexts (xs : List String) : List String :=
  xs.foldl (fun acc x => insertBy (fun a b => a < b) (fun a b => a = b) x acc) []

def intOf? : Value → Option Int
  | int n => some n
  | _ => none

def setItems (items : List Value) : List Value :=
  match items.mapM intOf? with
  | some ns => (sortedInts ns).map int
  | none =>
      match items.mapM text? with
      | some ss => (sortedTexts ss).map text
      | none => items

end Value

end CatalogSearch
