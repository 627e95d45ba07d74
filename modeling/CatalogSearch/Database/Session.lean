import CatalogSearch.Number.Decimal
import CatalogSearch.Text.Identifier
import CatalogSearch.Text.Quoted
import CatalogSearch.Value.Text

/-!
# Sessions

The statements that configure a session: the time zone always, a statement timeout and a schema if
they are given.  A timeout of any numeric kind is compared with zero as it is and then cut to its
integer part.  The text of a statement is made only when it is sent, and a timeout of too many
digits has none; neither has such a timeout one when it is refused.
-/

set_option autoImplicit false

namespace CatalogSearch.Database

open Number

inductive Timeout where
  | int (n : Int)
  | bool (b : Bool)
  | float (x : Binary64)
  | decimal (d : Decimal)
  deriving DecidableEq, Repr

inductive SessionError where
  | notPositive (shown : String)
  | notANumber
  | notComparable
  | unbounded
  | unboundedDecimal
  | invalidSchema (name : String)
  | schemaNotText
  | tooManyDigits
  deriving DecidableEq, Repr

def SessionError.message : SessionError → String
  | notPositive shown => "statement_timeout_ms must be positive, got " ++ shown
  | notANumber => "cannot convert float NaN to integer"
  | notComparable => "[<class 'decimal.InvalidOperation'>]"
  | unbounded => "cannot convert float infinity to integer"
  | unboundedDecimal => "cannot convert Infinity to integer"
  | invalidSchema name => "Invalid schema name: " ++ Text.quoted name
  | schemaNotText => "expected string or bytes-like object, got 'list'"
  | tooManyDigits =>
      "Exceeds the limit (4300 digits) for integer string conversion; " ++
        "use sys.set_int_max_str_digits() to increase the limit"

def Timeout.text : Timeout → String
  | int n => toString n
  | bool b => boolText b
  | float x => x.text
  | decimal d => d.text

/-- How many digits an integer may have to be written as text. -/
def literalLimit : Nat := 4300

/-- The refusal shows the timeout, and an integer of too many digits cannot be shown. -/
def Timeout.refusal : Timeout → SessionError
  | int n =>
      if n.natAbs < Nat.pow 10 literalLimit then .notPositive (toString n) else .tooManyDigits
  | t => .notPositive t.text

/-- The integer part of a timeout that is more than zero. -/
def Timeout.milliseconds? (t : Timeout) : Except SessionError Int :=
  match t with
  | .int n => if 0 < n then .ok n else .error t.refusal
  | .bool b => if b then .ok 1 else .error t.refusal
  | .float .nan => .error .notANumber
  | .float (.infinite false) => .error .unbounded
  | .float (.infinite true) => .error t.refusal
  | .float (.finite negative mantissa exponent) =>
      if !negative && mantissa ≠ 0 then .ok (wholePart 2 mantissa exponent)
      else .error t.refusal
  | .decimal (.nan _ _ _) => .error .notComparable
  | .decimal (.infinite false) => .error .unboundedDecimal
  | .decimal (.infinite true) => .error t.refusal
  | .decimal (.finite negative c e) =>
      if !negative && c ≠ 0 then .ok (wholePart 10 c e)
      else .error t.refusal

/-- A schema by its name; an option that was given nothing is no name. -/
inductive SchemaChoice where
  | named (name : String)
  | unnamed
  deriving DecidableEq, Repr

structure SessionOptions where
  timeout : Option Timeout
  schema : Option SchemaChoice
  deriving DecidableEq, Repr

inductive SessionStatement where
  | timeZone
  | timeout (milliseconds : Int)
  | schema (name : String)
  deriving DecidableEq, Repr

def SessionStatement.text : SessionStatement → String
  | timeZone => "SET TIME ZONE 'UTC'"
  | timeout milliseconds => "SET statement_timeout = " ++ toString milliseconds
  | schema name => "SET search_path TO \"" ++ name ++ "\""

def SessionStatement.isWritable : SessionStatement → Bool
  | timeout milliseconds => milliseconds.natAbs < Nat.pow 10 literalLimit
  | _ => true

def SessionStatement.written (s : SessionStatement) : Except SessionError String :=
  if s.isWritable then .ok s.text else .error .tooManyDigits

def timeoutStatements : Option Timeout → Except SessionError (List SessionStatement)
  | none => .ok []
  | some t => t.milliseconds?.map fun n => [.timeout n]

def schemaStatements : Option SchemaChoice → Except SessionError (List SessionStatement)
  | none => .ok []
  | some .unnamed => .error .schemaNotText
  | some (.named name) =>
      if Text.isSchemaName name then .ok [.schema name] else .error (.invalidSchema name)

/-- The statements of a session, in the order of their execution. -/
def sessionStatements (o : SessionOptions) : Except SessionError (List SessionStatement) := do
  let timeouts ← timeoutStatements o.timeout
  let schemas ← schemaStatements o.schema
  return .timeZone :: timeouts ++ schemas

end CatalogSearch.Database
