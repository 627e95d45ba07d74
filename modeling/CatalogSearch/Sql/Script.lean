import CatalogSearch.Sql.Engine

/-!
# Scripts of query operations

A script is a sequence of operations on one query.  Its steps refer to positions, columns and
conditions by the number of the earlier step that gave them; a step that refers to something else
has no effect.
-/

set_option autoImplicit false

namespace CatalogSearch.Sql

open Criteria

inductive Step where
  | root
  | join (parent : Nat) (relationship : String)
  | get (position : Nat) (name : String)
  | fetch (relationship : String)
  | distinct
  | compare (column : Nat) (comparison : Comparison)
  | group (connective : Connective) (operands : List Nat)
  | truth
  | render (condition : Nat)

inductive Outcome where
  | position (p : Position)
  | column (c : Column)
  | condition (c : Condition)
  | select (s : Select)
  | done
  | failed (e : QueryError)
  | dangling

def positionAt? (outcomes : List Outcome) (n : Nat) : Option Position :=
  match outcomes[n]? with
  | some (.position p) => some p
  | _ => none

def columnAt? (outcomes : List Outcome) (n : Nat) : Option Column :=
  match outcomes[n]? with
  | some (.column c) => some c
  | _ => none

def conditionAt? (outcomes : List Outcome) (n : Nat) : Option Condition :=
  match outcomes[n]? with
  | some (.condition c) => some c
  | _ => none

def outcomeOf {α : Type} (given : α → Outcome) : Except QueryError α → Outcome
  | .ok a => given a
  | .error e => .failed e

def perform {α : Type} (given : α → Outcome) (c : QueryCall α) (q : Query) : Outcome × Query :=
  match c q with
  | (r, q) => (outcomeOf given r, q)

def Step.run (outcomes : List Outcome) (q : Query) : Step → Outcome × Query
  | .root => (.position q.rootPosition, q)
  | .join parent relationship =>
      match positionAt? outcomes parent with
      | some p => perform .position (Query.join p relationship) q
      | none => (.dangling, q)
  | .get position name =>
      match positionAt? outcomes position with
      | some p => perform .column (columnCall p name) q
      | none => (.dangling, q)
  | .fetch relationship => perform (fun _ => .done) (Query.fetch relationship) q
  | .distinct => perform (fun _ => .done) Query.askDistinct q
  | .compare column comparison =>
      match columnAt? outcomes column with
      | some c => (outcomeOf .condition (c.compare? comparison), q)
      | none => (.dangling, q)
  | .group connective operands =>
      match operands.mapM (conditionAt? outcomes) with
      | some cs => (outcomeOf .condition (Condition.group? connective cs), q)
      | none => (.dangling, q)
  | .truth => (.condition .truth, q)
  | .render condition =>
      match conditionAt? outcomes condition with
      | some c => (.select (q.select c), q)
      | none => (.dangling, q)

def runSteps (outcomes : List Outcome) (q : Query) : List Step → List (Outcome × Query)
  | [] => []
  | step :: rest =>
      let (outcome, q) := step.run outcomes q
      (outcome, q) :: runSteps (outcomes ++ [outcome]) q rest

end CatalogSearch.Sql
