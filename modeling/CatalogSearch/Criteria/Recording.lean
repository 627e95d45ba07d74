import CatalogSearch.Criteria.Build

/-!
# A recording engine

Positions and attributes are slash-separated texts, and every call is written down before it can
fail.  The engine can be told which names fail to join, to get or to fetch, and which joins give no
position.
-/

set_option autoImplicit false

namespace CatalogSearch.Criteria

inductive RecordedEvent where
  | join (place : String)
  | get (place : String)
  | fetch (name : String)
  | distinct
  deriving DecidableEq, Repr

inductive RecordedExpr where
  | compare (place : String) (comparison : Comparison)
  | all (operands : List RecordedExpr)
  | any (operands : List RecordedExpr)
  | truth
  deriving Inhabited

inductive RecordingError where
  | cannotJoin (name : String)
  | cannotGet (name : String)
  | cannotFetch (name : String)
  deriving DecidableEq, Repr

def RecordingError.message : RecordingError → String
  | cannotJoin name => "cannot join " ++ name
  | cannotGet name => "cannot get " ++ name
  | cannotFetch name => "cannot fetch " ++ name

structure RecordingPlan where
  failingFetches : List String
  failingJoins : List String
  failingGets : List String
  nullJoins : List String

abbrev Recorded (α : Type) : Type := Call (List RecordedEvent) RecordingError α

def record (event : RecordedEvent) : Recorded Unit := fun events => (.ok (), events ++ [event])

def failing {α : Type} (fails : Bool) (e : RecordingError) (a : α) : Recorded α :=
  if fails then Call.fail e else Call.pure a

/-- The place of a name under a position; no position shows as `None`. -/
def placeUnder (parent : Option String) (name : String) : String :=
  parent.getD "None" ++ "/" ++ name

def recordingEngine (plan : RecordingPlan) :
    QueryEngine (List RecordedEvent) RecordingError (Option String) String RecordedExpr where
  root := some ""
  isNull := Option.isNone
  join parent name :=
    let place := placeUnder parent name
    Call.bind (record (.join place)) fun _ =>
      failing (plan.failingJoins.contains name) (.cannotJoin name)
        (if plan.nullJoins.contains name then none else some place)
  get parent name :=
    let place := placeUnder parent name
    Call.bind (record (.get place)) fun _ =>
      failing (plan.failingGets.contains name) (.cannotGet name) place
  fetch name :=
    Call.bind (record (.fetch name)) fun _ =>
      failing (plan.failingFetches.contains name) (.cannotFetch name) ()
  distinct := record .distinct
  compare place comparison := Call.pure (.compare place comparison)
  all operands := Call.pure (.all operands)
  any operands := Call.pure (.any operands)
  truth := Call.pure .truth
  describe := RecordingError.message

end CatalogSearch.Criteria
