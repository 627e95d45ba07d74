import CatalogSearch.Sql.Query
import Mathlib.Data.Multiset.Bind
import Mathlib.Data.Multiset.Dedup

/-!
# The meaning of a SELECT

Tables are bags of rows, and a cell may be null.  A left join pairs what was joined before with
every row for which its ON is true, or with a row of nulls where there is none; WHERE keeps what is
true in three-valued logic; DISTINCT drops repetitions.  Which values a comparison accepts is left
open: every statement here is about any meaning of the comparisons.
-/

set_option autoImplicit false

namespace CatalogSearch.Sql

open Criteria

/-! ## Three-valued logic -/

inductive Truth where
  | no
  | unknown
  | yes
  deriving DecidableEq, Repr

def Truth.and : Truth → Truth → Truth
  | .yes, t => t
  | .unknown, .no => .no
  | .unknown, _ => .unknown
  | .no, _ => .no

def Truth.or : Truth → Truth → Truth
  | .no, t => t
  | .unknown, .yes => .yes
  | .unknown, _ => .unknown
  | .yes, _ => .yes

namespace Connective

def join : Connective → List Truth → Truth
  | .all, ts => ts.foldr Truth.and .yes
  | .any, ts => ts.foldr Truth.or .no

theorem join_singleton (connective : Connective) (t : Truth) : connective.join [t] = t := by
  cases connective <;> cases t <;> rfl

theorem join_all_eq_yes : ∀ ts : List Truth, join .all ts = .yes ↔ ∀ t ∈ ts, t = .yes := by
  intro ts
  induction ts with
  | nil => simp [join]
  | cons t rest ih =>
      rw [List.forall_mem_cons, ← ih]
      simp only [join, List.foldr_cons]
      cases t <;> cases rest.foldr Truth.and .yes <;> simp [Truth.and]

theorem join_any_eq_yes : ∀ ts : List Truth, join .any ts = .yes ↔ ∃ t ∈ ts, t = .yes := by
  intro ts
  induction ts with
  | nil => simp [join]
  | cons t rest ih =>
      rw [List.exists_mem_cons_iff, ← ih]
      simp only [join, List.foldr_cons]
      cases t <;> cases rest.foldr Truth.or .no <;> simp [Truth.or]

end Connective

/-! ## Rows -/

abbrev Cell (V : Type) : Type := Option V

/-- The cells of a row by the names of their columns. -/
abbrev Row (V : Type) : Type := String → Cell V

abbrev Database (V : Type) : Type := String → Multiset (Row V)

/-- The row that each alias stands for. -/
abbrev Scope (V : Type) : Type := Alias → Row V

abbrev Reading (V : Type) : Type := Comparison → Cell V → Truth

section Select

variable {V : Type} [DecidableEq V]

def nullRow : Row V := fun _ => none

/-- Equality of cells, of which nothing is known if one is null. -/
def equalCells : Cell V → Cell V → Truth
  | some a, some b => if a = b then .yes else .no
  | _, _ => .unknown

theorem equalCells_eq_yes {a b : Cell V} : equalCells a b = .yes ↔ a = b ∧ a.isSome = true := by
  cases a <;> cases b <;> simp [equalCells]

def Column.value (c : Column) (scope : Scope V) : Cell V := scope c.qualifier c.name

def LeftJoin.on (j : LeftJoin) (scope : Scope V) (row : Row V) : Truth :=
  equalCells (row j.via.remoteColumn) (scope j.parent j.via.localColumn)

/-- The rows that a left join pairs with a scope. -/
def LeftJoin.rows (db : Database V) (j : LeftJoin) (scope : Scope V) : Multiset (Row V) :=
  let matching := (db j.position.entity.table).filter fun row => j.on scope row = .yes
  if matching.card = 0 then {nullRow} else matching

def joinAll (db : Database V) : List LeftJoin → Scope V → Multiset (Scope V)
  | [], scope => {scope}
  | j :: rest, scope =>
      (j.rows db scope).bind fun row =>
        joinAll db rest (Function.update scope j.position.qualifier row)

mutual

def Condition.holds (reading : Reading V) (scope : Scope V) : Condition → Truth
  | .truth => .yes
  | .test column comparison => reading comparison (column.value scope)
  | .group connective operands => connective.join (Condition.holdsOf reading scope operands)

def Condition.holdsOf (reading : Reading V) (scope : Scope V) : List Condition → List Truth
  | [] => []
  | c :: rest => c.holds reading scope :: Condition.holdsOf reading scope rest

end

def Select.startAt (s : Select) (row : Row V) : Scope V :=
  Function.update (fun _ => nullRow) s.from_.qualifier row

def Select.scopes (s : Select) (db : Database V) (reading : Reading V) : Multiset (Scope V) :=
  ((db s.from_.entity.table).bind fun row => joinAll db s.joins (s.startAt row)).filter fun scope =>
    s.condition.holds reading scope = .yes

/-- The rows of a SELECT, each as its cells from left to right. -/
def Select.rows (s : Select) (db : Database V) (reading : Reading V) : Multiset (List (Cell V)) :=
  let results := (s.scopes db reading).map fun scope => s.items.map fun i => i.column.value scope
  if s.distinct then results.dedup else results

omit [DecidableEq V] in
theorem holdsOf_eq_map (reading : Reading V) (scope : Scope V) : ∀ cs : List Condition,
    Condition.holdsOf reading scope cs = cs.map (Condition.holds reading scope) := by
  intro cs
  induction cs with
  | nil => rfl
  | cons c rest ih => rw [Condition.holdsOf, ih, List.map_cons]

omit [DecidableEq V] in
theorem holds_of_group? {reading : Reading V} {scope : Scope V} {connective : Connective}
    {cs : List Condition} {c : Condition} (h : Condition.group? connective cs = .ok c) :
    c.holds reading scope = connective.join (cs.map (Condition.holds reading scope)) := by
  rcases cs with _ | ⟨first, _ | ⟨second, rest⟩⟩
  · cases h
  · obtain rfl := Except.ok.inj h
    rw [List.map_cons, List.map_nil, Connective.join_singleton]
  · obtain rfl := Except.ok.inj h
    rw [Condition.holds, holdsOf_eq_map]

theorem joinAll_append (db : Database V) (more : List LeftJoin) :
    ∀ (joins : List LeftJoin) (scope : Scope V),
      joinAll db (joins ++ more) scope = (joinAll db joins scope).bind (joinAll db more) := by
  intro joins
  induction joins with
  | nil => intro scope; simp [joinAll]
  | cons j rest ih =>
      intro scope
      simp only [List.cons_append, joinAll, ih, Multiset.bind_assoc]

theorem joinAll_append_singleton (db : Database V) (joins : List LeftJoin) (j : LeftJoin)
    (scope : Scope V) :
    joinAll db (joins ++ [j]) scope =
      (joinAll db joins scope).bind fun scope =>
        (j.rows db scope).map (Function.update scope j.position.qualifier) := by
  rw [joinAll_append]
  apply Multiset.bind_congr
  intro scope _
  simp only [joinAll, Multiset.bind_singleton]

end Select

end CatalogSearch.Sql
