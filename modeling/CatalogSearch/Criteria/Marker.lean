import CatalogSearch.Criteria.Path
import CatalogSearch.Value.Text

/-!
# Intent markers

A marker on a descriptor field says how the field filters: a free-text term over several paths, a
range on one path, or a direct match on one path.  A marker is made from a specification, whose
paths and operation may be any values; `MarkerSpec.marker?` accepts non-blank paths without an
empty segment and the names of the two operations.
-/

set_option autoImplicit false

namespace CatalogSearch.Criteria

inductive Operation where
  | equal
  | like
  deriving DecidableEq, Repr

def Operation.name : Operation → String
  | equal => "equal"
  | like => "like"

inductive Marker where
  | term (paths : List String) (operation : Operation)
  | range (path : String)
  | direct (path : String) (operation : Operation)
  deriving DecidableEq, Repr

def Marker.kindName : Marker → String
  | term _ _ => "QueryTerm"
  | range _ => "QueryRange"
  | direct _ _ => "QueryPath"

def Marker.paths : Marker → List String
  | term paths _ => paths
  | range p => [p]
  | direct p _ => [p]

def Marker.operation? : Marker → Option Operation
  | term _ operation => some operation
  | range _ => none
  | direct _ operation => some operation

inductive MarkerError where
  | noPaths
  | blankPath
  | emptySegment (path : String)
  | unknownOperation (shown : String)
  deriving DecidableEq, Repr

def MarkerError.message : MarkerError → String
  | noPaths => "QueryTerm requires at least one path"
  | blankPath => "path must be a non-empty string"
  | emptySegment path => "path has an empty segment: " ++ Text.quoted path
  | unknownOperation shown => shown ++ " is not a valid Operation"

/-- What a marker is made from; a missing operation is the marker's usual one. -/
inductive MarkerSpec where
  | term (paths : List Value) (operation : Option Value)
  | range (path : Value)
  | direct (path : Value) (operation : Option Value)

def operationNamed? (name : String) : Option Operation :=
  if name = "equal" then some .equal else if name = "like" then some .like else none

def operationOf? (usual : Operation) : Option Value → Except MarkerError Operation
  | none => .ok usual
  | some v =>
      match v.text?.bind operationNamed? with
      | some operation => .ok operation
      | none => .error (.unknownOperation v.quoted)

def checkPath : Value → Except MarkerError String
  | .text path =>
      if Text.isBlank path then .error .blankPath
      else if (segments path).contains "" then .error (.emptySegment path)
      else .ok path
  | _ => .error .blankPath

def checkPaths : List Value → Except MarkerError (List String)
  | [] => .ok []
  | v :: rest => do
      let path ← checkPath v
      let paths ← checkPaths rest
      return path :: paths

def MarkerSpec.marker? : MarkerSpec → Except MarkerError Marker
  | .term paths operation => do
      if paths.isEmpty then throw .noPaths
      let paths ← checkPaths paths
      let operation ← operationOf? .like operation
      return .term paths operation
  | .range path => do
      let path ← checkPath path
      return .range path
  | .direct path operation => do
      let path ← checkPath path
      let operation ← operationOf? .equal operation
      return .direct path operation

end CatalogSearch.Criteria
