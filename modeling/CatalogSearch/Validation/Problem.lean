/-!
# Problems of input

A problem says what is wrong with a part of the input and where the part is: the names of members
and the numbers of items that lead to it.  Reading goes on after a problem, so that all of them are
found; `gather` gives the values if there was none.
-/

set_option autoImplicit false

namespace CatalogSearch.Validation

inductive ProblemKind where
  | invalidJson
  | notJson
  | notObject
  | unknownKey
  | notText
  | notList
  | notInteger
  | integerText
  | integerSize
  | integerFraction
  | notFinite
  | notDecimal
  | decimalText
  | notMoment
  | momentRange
  | momentText
  | boolText
  | notGreater
  | missing
  | refused (reason : String)
  deriving DecidableEq, Repr

def ProblemKind.name : ProblemKind → String
  | invalidJson => "json_invalid"
  | notJson => "json_type"
  | notObject => "model_type"
  | unknownKey => "extra_forbidden"
  | notText => "string_type"
  | notList => "list_type"
  | notInteger => "int_type"
  | integerText => "int_parsing"
  | integerSize => "int_parsing_size"
  | integerFraction => "int_from_float"
  | notFinite => "finite_number"
  | notDecimal => "decimal_type"
  | decimalText => "decimal_parsing"
  | notMoment => "datetime_type"
  | momentRange => "datetime_parsing"
  | momentText => "datetime_from_date_parsing"
  | boolText => "bool_parsing"
  | notGreater => "greater_than"
  | missing => "missing"
  | refused _ => "value_error"

inductive Step where
  | key (name : String)
  | index (n : Nat)
  deriving DecidableEq, Repr

structure Problem where
  place : List Step
  kind : ProblemKind
  deriving DecidableEq, Repr

abbrev Checked (α : Type) : Type := Except (List Problem) α

variable {α β : Type}

def placed (place : List Step) : Except ProblemKind α → Checked α
  | .ok a => .ok a
  | .error kind => .error [⟨place, kind⟩]

def both : Checked α → Checked β → Checked (α × β)
  | .ok a, .ok b => .ok (a, b)
  | .ok _, .error problems => .error problems
  | .error problems, .ok _ => .error problems
  | .error first, .error second => .error (first ++ second)

def gather : List (Checked α) → Checked (List α)
  | [] => .ok []
  | c :: rest => (both c (gather rest)).map fun (a, as) => a :: as

end CatalogSearch.Validation
