import CatalogSearch.Number.Scientific

/-!
# JSON values

Integers of any size and floating point numbers are told apart, as they are written differently.
An object keeps its members in the order in which they were written, repeated names included; of
members with one name the last one counts.
-/

set_option autoImplicit false

namespace CatalogSearch

inductive Json where
  | null
  | bool (b : Bool)
  | int (n : Int)
  | float (x : Number.Binary64)
  | text (s : String)
  | array (items : List Json)
  | object (members : List (String × Json))
  deriving Inhabited

namespace Json

def lastOf (name : String) (members : List (String × Json)) : Option Json :=
  members.reverse.lookup name

def member? (name : String) : Json → Option Json
  | object members => lastOf name members
  | _ => none

def text? : Json → Option String
  | text s => some s
  | _ => none

def items? : Json → Option (List Json)
  | array items => some items
  | _ => none

def members? : Json → Option (List (String × Json))
  | object members => some members
  | _ => none

def bool? : Json → Option Bool
  | bool b => some b
  | _ => none

def nat? : Json → Option Nat
  | int n => if 0 ≤ n then some n.toNat else none
  | _ => none

end Json

end CatalogSearch
