import CatalogSearch.Call
import CatalogSearch.Criteria.Intent
import CatalogSearch.Criteria.Predicate
import CatalogSearch.Text.Lowercase

/-!
# Compiling descriptor instances

Each field of an instance gives at most one conjunct.  Null and blank text give none whatever the
intent, an empty collection gives none, and a range gives a comparison for the bounds it has.  The
fetch hints of an instance are the root relationships of the paths its fields filter on.  The fields
are read twice: all of them for the hints, and then one by one to be compiled.
-/

set_option autoImplicit false

namespace CatalogSearch.Criteria

/-- `noPath` is an intent without the path that its kind compares. -/
inductive FieldError where
  | noPath
  deriving DecidableEq, Repr

def FieldError.message : FieldError → String
  | noPath => "tuple index out of range"

structure CompiledField where
  predicate : Option Predicate
  log : List LogRecord

def textMatch (path : String) (operation : Operation) (s : String) : Predicate :=
  match operation with
  | .like => .leaf path (.contains (Text.lower s))
  | .equal => .leaf path (.equal (.text s))

def compileTerm (i : FieldIntent) : Value → CompiledField
  | .text s => ⟨some (.anyOf (i.paths.map fun path => textMatch path i.operation s)), []⟩
  | v => ⟨none, [.termIgnored i.name v.kindName]⟩

def boundsComparison : Option Value → Option Value → Option Comparison
  | some lower, some upper => some (.between lower upper)
  | some lower, none => some (.atLeast lower)
  | none, some upper => some (.atMost upper)
  | none, none => none

def compileRange (i : FieldIntent) : Value → Except FieldError CompiledField
  | .range lower upper =>
      match i.paths with
      | [] => .error .noPath
      | path :: _ => .ok ⟨(boundsComparison lower upper).map (Predicate.leaf path), []⟩
  | v => .ok ⟨none, [.rangeIgnored i.name v.kindName]⟩

def membership (path : String) : List Value → Option Predicate
  | [] => none
  | values => some (.leaf path (.oneOf values))

def compileScalar (i : FieldIntent) (path : String) : Value → CompiledField
  | .text s => ⟨some (textMatch path i.operation s), []⟩
  | v => ⟨some (.leaf path (.equal v)),
      if i.operation = .like then [.likeOnNonText i.name v.kindName] else []⟩

def compileSingle (i : FieldIntent) (v : Value) : Except FieldError CompiledField :=
  match i.paths with
  | [] => .error .noPath
  | path :: _ =>
      match v.items? with
      | some items => .ok ⟨membership path items, []⟩
      | none => .ok (compileScalar i path v)

def compileField (i : FieldIntent) (v : Value) : Except FieldError CompiledField :=
  if v.isBlank then .ok ⟨none, []⟩
  else
    match i.kind with
    | .term => .ok (compileTerm i v)
    | .range => compileRange i v
    | .single => compileSingle i v
    | .none => .ok ⟨none, []⟩

def hasBound : Value → Bool
  | .range lower upper => lower.isSome || upper.isSome
  | _ => false

/-- True if `v` gives a predicate for the intent. -/
def filtersOn (i : FieldIntent) (v : Value) : Bool :=
  if v.isBlank then false
  else
    match i.kind with
    | .term => v.text?.isSome
    | .range => hasBound v
    | _ =>
        match v.items? with
        | some items => !items.isEmpty
        | none => true

inductive CriteriaError where
  | descriptor (e : DescriptorError)
  | unreadable (field : String)
  | incompilable (e : FieldError)
  deriving DecidableEq, Repr

def CriteriaError.message : CriteriaError → String
  | descriptor e => e.message
  | unreadable field => "cannot read descriptor field: " ++ field
  | incompilable e => e.message

def FieldIntent.read (i : FieldIntent) (instance_ : Instance) : Except CriteriaError Value :=
  match instance_.read? i.name with
  | some v => .ok v
  | none => .error (.unreadable i.name)

def rootsOf (i : FieldIntent) (v : Value) : List String :=
  if filtersOn i v then i.paths.filterMap rootRelationship else []

/-- The root relationships that the fields filter on.  A field that does not filter is read too. -/
def filteredRoots? (instance_ : Instance) : List FieldIntent → Except CriteriaError (List String)
  | [] => .ok []
  | i :: rest => do
      let v ← i.read instance_
      let roots ← filteredRoots? instance_ rest
      return rootsOf i v ++ roots

def collectHints? (instance_ : Instance) (intents : List FieldIntent) :
    Except CriteriaError (List String) :=
  (filteredRoots? instance_ intents).map Value.sortedTexts

def report (compiled : Except FieldError CompiledField) :
    Call (List LogRecord) CriteriaError (Option Predicate) := fun log =>
  match compiled with
  | .ok c => (.ok c.predicate, log ++ c.log)
  | .error e => (.error (.incompilable e), log)

/-- Reads and compiles one field after another.  What was reported before a failure stays in the
log. -/
def conjunctsOf? (instance_ : Instance) :
    List FieldIntent → Call (List LogRecord) CriteriaError (List Predicate)
  | [] => Call.pure []
  | i :: rest =>
      Call.bind (fun log => (i.read instance_, log)) fun v =>
        Call.bind (report (compileField i v)) fun p =>
          Call.bind (conjunctsOf? instance_ rest) fun ps => Call.pure (p.toList ++ ps)

structure CompiledCriteria where
  conjuncts : List Predicate
  hints : List String

def CompiledCriteria.predicate (c : CompiledCriteria) : Predicate := .allOf c.conjuncts

structure CompileRun where
  result : Except CriteriaError CompiledCriteria
  cache : IntentCache
  log : List LogRecord

def compileFields (instance_ : Instance) (intents : List FieldIntent) :
    Except CriteriaError CompiledCriteria × List LogRecord :=
  match collectHints? instance_ intents with
  | .error e => (.error e, [])
  | .ok hints =>
      let (result, log) := conjunctsOf? instance_ intents []
      (result.map (CompiledCriteria.mk · hints), log)

def compile (cache : IntentCache) (instance_ : Instance) : CompileRun :=
  let reading := cache.read instance_.type
  match reading.result with
  | .error e => ⟨.error (.descriptor e), reading.cache, reading.log⟩
  | .ok intents =>
      let (result, log) := compileFields instance_ intents
      ⟨result, reading.cache, reading.log ++ log⟩

end CatalogSearch.Criteria
