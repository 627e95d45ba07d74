import CatalogSearch.Criteria.Engine
import CatalogSearch.Criteria.Path
import CatalogSearch.Keyed

/-!
# Resolving paths

A traversal keeps the position of every relationship trail that was joined, under the trail's
dotted text, so that paths with a common start share their joins.  A stored position that stands
for no position counts as absent and is joined again.
-/

set_option autoImplicit false

namespace CatalogSearch.Criteria

/-- The positions joined so far, in the order in which their trails were first joined. -/
structure JoinCache (Pos : Type) where
  entries : List (String × Pos)

namespace JoinCache

variable {Pos : Type}

def empty : JoinCache Pos := ⟨[]⟩

def get? (c : JoinCache Pos) (trail : String) : Option Pos := c.entries.lookup trail

def contains (c : JoinCache Pos) (trail : String) : Bool := (c.get? trail).isSome

def size (c : JoinCache Pos) : Nat := c.entries.length

def insert (c : JoinCache Pos) (trail : String) (p : Pos) : JoinCache Pos :=
  ⟨put trail p c.entries⟩

end JoinCache

structure Traversal (σ Pos : Type) where
  engine : σ
  joined : JoinCache Pos

variable {σ ε Pos Attr Expr α : Type}

def onEngine (c : Call σ ε α) : Call (Traversal σ Pos) ε α := fun t =>
  match c t.engine with
  | (r, s) => (r, { t with engine := s })

def extendTrail (trail name : String) : String := if trail = "" then name else trail ++ "." ++ name

def remember (trail : String) (p : Pos) : Call (Traversal σ Pos) ε Unit := fun t =>
  (.ok (), { t with joined := t.joined.insert trail p })

def knownPosition? (e : QueryEngine σ ε Pos Attr Expr) (c : JoinCache Pos) (trail : String) :
    Option Pos :=
  match c.get? trail with
  | some p => if e.isNull p then none else some p
  | none => none

def getOrJoin (e : QueryEngine σ ε Pos Attr Expr) (parent : Pos) (trail name : String) :
    Call (Traversal σ Pos) ε Pos := fun t =>
  match knownPosition? e t.joined trail with
  | some p => (.ok p, t)
  | none =>
      Call.bind (onEngine (e.join parent name))
        (fun p => Call.bind (remember trail p) fun _ => Call.pure p) t

def follow (e : QueryEngine σ ε Pos Attr Expr) :
    Pos → String → List String → Call (Traversal σ Pos) ε Pos
  | p, _, [] => Call.pure p
  | p, trail, name :: rest =>
      Call.bind (getOrJoin e p (extendTrail trail name) name) fun q =>
        follow e q (extendTrail trail name) rest

def resolve (e : QueryEngine σ ε Pos Attr Expr) (path : String) : Call (Traversal σ Pos) ε Attr :=
  Call.bind (follow e e.root "" (relationshipsOf path)) fun p =>
    onEngine (e.get p (attributeOf path))

end CatalogSearch.Criteria
