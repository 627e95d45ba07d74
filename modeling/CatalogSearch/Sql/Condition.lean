import CatalogSearch.Criteria.Predicate
import CatalogSearch.Value.Text

/-!
# Conditions

A condition is a tree of comparisons of columns, joined by AND and OR.  Its text holds a placeholder
for every value, and its parameters are the values in the order of their placeholders.  A
connective of one operand is that operand, so that groups always have two operands or more.
-/

set_option autoImplicit false

namespace CatalogSearch.Sql

open Criteria

/-- The name of a table within a statement: the queried one, a joined one or a fetched one. -/
inductive Alias where
  | root
  | joined (number : Nat)
  | fetched (number : Nat)
  deriving DecidableEq, Repr

def Alias.text : Alias → String
  | root => "t0"
  | joined number => "t" ++ toString number
  | fetched number => "f" ++ toString number

structure Column where
  qualifier : Alias
  name : String
  deriving DecidableEq, Repr

def Column.text (c : Column) : String := c.qualifier.text ++ "." ++ c.name

inductive Connective where
  | all
  | any
  deriving DecidableEq, Repr

def Connective.text : Connective → String
  | all => "AND"
  | any => "OR"

inductive Condition where
  | truth
  | test (column : Column) (comparison : Comparison)
  | group (connective : Connective) (operands : List Condition)
  deriving Inhabited

def escapeEach (c : Char) (text : List Char) : List Char :=
  text.flatMap fun d => if d = c then ['\\', c] else [d]

/-- A needle as a LIKE pattern means it literally: the backslashes that it has are escaped first, so
that those before its wildcards are not. -/
def escapeLike (needle : List Char) : List Char :=
  escapeEach '_' (escapeEach '%' (escapeEach '\\' needle))

def containsPattern (needle : String) : String :=
  String.ofList ('%' :: escapeLike needle.toList ++ ['%'])

def placeholder : String := "%s"

def testText (column : String) : Comparison → String
  | .equal _ => column ++ " = " ++ placeholder
  | .contains _ => "LOWER(CAST(" ++ column ++ " AS TEXT)) LIKE " ++ placeholder ++ " ESCAPE '\\'"
  | .between _ _ => column ++ " BETWEEN " ++ placeholder ++ " AND " ++ placeholder
  | .atLeast _ => column ++ " >= " ++ placeholder
  | .atMost _ => column ++ " <= " ++ placeholder
  | .oneOf values => column ++ " IN (" ++ joined ", " (values.map fun _ => placeholder) ++ ")"

def testParameters : Comparison → List Value
  | .equal v => [v]
  | .contains needle => [.text (containsPattern needle)]
  | .between lower upper => [lower, upper]
  | .atLeast v => [v]
  | .atMost v => [v]
  | .oneOf values => values

namespace Condition

mutual

def text : Condition → String
  | .truth => "TRUE"
  | .test column comparison => testText column.text comparison
  | .group connective operands =>
      "(" ++ joined (" " ++ connective.text ++ " ") (textsOf operands) ++ ")"

def textsOf : List Condition → List String
  | [] => []
  | c :: rest => c.text :: textsOf rest

end

mutual

def parameters : Condition → List Value
  | .truth => []
  | .test _ comparison => testParameters comparison
  | .group _ operands => parametersOf operands

def parametersOf : List Condition → List Value
  | [] => []
  | c :: rest => c.parameters ++ parametersOf rest

end

def isTruth : Condition → Bool
  | .truth => true
  | _ => false

end Condition

end CatalogSearch.Sql
