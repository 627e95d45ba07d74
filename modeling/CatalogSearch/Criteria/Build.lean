import CatalogSearch.Criteria.Compile
import CatalogSearch.Criteria.Traversal

/-!
# Building a query

`express` turns a predicate into an expression of an engine, leaf by leaf from the left.  `build`
compiles an instance, first fetches the hinted relationships in ascending order if asked to, going
on after every failure, asks for distinct results if a fetch succeeded, and then expresses the
predicate with an empty join cache of its own.
-/

set_option autoImplicit false

namespace CatalogSearch.Criteria

variable {σ ε Pos Attr Expr : Type}

inductive ExpressionError (ε : Type) where
  | engine (e : ε)
  | unsupported (comparison : String)

def ExpressionError.message (describe : ε → String) : ExpressionError ε → String
  | engine e => describe e
  | unsupported comparison => "Unsupported predicate node: " ++ comparison

mutual

def express (e : QueryEngine σ ε Pos Attr Expr) :
    Predicate → Call (Traversal σ Pos) (ExpressionError ε) Expr
  | .leaf path comparison =>
      Call.mapError .engine (Call.bind (resolve e path) fun a => onEngine (e.compare a comparison))
  | .unsupported path comparison =>
      Call.bind (Call.mapError .engine (resolve e path)) fun _ =>
        Call.fail (.unsupported comparison)
  | .anyOf operands =>
      Call.bind (expressAll e operands) fun es => Call.mapError .engine (onEngine (e.any es))
  | .allOf [] => Call.mapError .engine (onEngine e.truth)
  | .allOf (p :: rest) =>
      Call.bind (express e p) fun x =>
        Call.bind (expressAll e rest) fun xs => Call.mapError .engine (onEngine (e.all (x :: xs)))

def expressAll (e : QueryEngine σ ε Pos Attr Expr) :
    List Predicate → Call (Traversal σ Pos) (ExpressionError ε) (List Expr)
  | [] => Call.pure []
  | p :: rest =>
      Call.bind (express e p) fun x =>
        Call.bind (expressAll e rest) fun xs => Call.pure (x :: xs)

end

def toExpression (e : QueryEngine σ ε Pos Attr Expr) (p : Predicate) :
    Call σ (ExpressionError ε) Expr := fun s =>
  match express e p ⟨s, .empty⟩ with
  | (r, t) => (r, t.engine)

structure FetchRun (σ : Type) where
  applied : Bool
  engine : σ
  log : List LogRecord

/-- Fetches every hint; `applied` tells whether one succeeded. -/
def applyHints (e : QueryEngine σ ε Pos Attr Expr) : List String → σ → FetchRun σ
  | [], s => ⟨false, s, []⟩
  | name :: rest, s =>
      match e.fetch name s with
      | (.ok _, s) =>
          let others := applyHints e rest s
          { others with applied := true }
      | (.error x, s) =>
          let others := applyHints e rest s
          { others with log := .fetchSkipped name (e.describe x) :: others.log }

inductive BuildError (ε : Type) where
  | criteria (e : CriteriaError)
  | expression (e : ExpressionError ε)

def BuildError.message (describe : ε → String) : BuildError ε → String
  | criteria e => e.message
  | expression e => e.message describe

structure BuildRun (σ ε Expr : Type) where
  result : Except (BuildError ε) Expr
  engine : σ
  cache : IntentCache
  log : List LogRecord

def markDistinct (e : QueryEngine σ ε Pos Attr Expr) (applied : Bool) :
    Call σ (ExpressionError ε) Unit :=
  if applied then Call.mapError .engine e.distinct else Call.pure ()

def buildCompiled (e : QueryEngine σ ε Pos Attr Expr) (eager : Bool) (c : CompiledCriteria)
    (s : σ) : (Except (ExpressionError ε) Expr × σ) × List LogRecord :=
  let fetched := applyHints e (if eager then c.hints else []) s
  (Call.bind (markDistinct e fetched.applied) (fun _ => toExpression e c.predicate) fetched.engine,
    fetched.log)

def build (e : QueryEngine σ ε Pos Attr Expr) (cache : IntentCache) (instance_ : Instance)
    (eager : Bool) (s : σ) : BuildRun σ ε Expr :=
  let compiled := compile cache instance_
  match compiled.result with
  | .error x => ⟨.error (.criteria x), s, compiled.cache, compiled.log⟩
  | .ok c =>
      let ((result, s), log) := buildCompiled e eager c s
      ⟨result.mapError .expression, s, compiled.cache, compiled.log ++ log⟩

end CatalogSearch.Criteria
