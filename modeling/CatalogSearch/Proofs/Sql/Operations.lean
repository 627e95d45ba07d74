import CatalogSearch.Proofs.Sql.Graph
import Mathlib.Data.List.Forall2

/-!
# What operations do

What each operation of a query asks for and does to it: a join or a fetch follows a relationship to
an entity of the graph, takes the next alias and appends one join, a column is one of its position's
entity, a comparison needs a value, and a connective gathers its operands.  Where the graph lacks
the target of a relationship, the alias is taken although nothing is joined.
-/

set_option autoImplicit false

namespace CatalogSearch.Sql

open Criteria

theorem start?_eq_ok {g : EntityGraph} {entity : String} {q : Query} :
    Query.start? g entity = .ok q ↔
      ∃ root, g.entity? entity = .ok root ∧ q = ⟨g, root, [], [], false, 0⟩ := by
  simp only [Query.start?]
  rcases g.entity? entity with x | root
  · simp
  · simp [eq_comm]

def Query.withJoin (q : Query) (parent : Alias) (via : Relationship) (position : Position) :
    Query :=
  { q.takeAlias with joins := q.joins ++ [⟨position, parent, via⟩] }

def Query.nextPosition (q : Query) (target : Entity) (number : Nat → Alias) : Position :=
  ⟨target, number (q.lastAlias + 1)⟩

section Joins

variable {q q' : Query} {parent p position : Position} {via : Relationship} {target : Entity}
  {number : Nat → Alias} {relationship : String} {x : SchemaError}

theorem leftJoin_of_found (found : q.graph.entity? via.target = .ok target) :
    Query.leftJoin parent via number q = (.ok (q.nextPosition target number),
      q.withJoin parent.qualifier via (q.nextPosition target number)) := by
  have hgraph : q.takeAlias.graph.entity? via.target = .ok target := found
  simp only [Query.leftJoin, hgraph]
  rfl

/-- A join that finds no target has taken its alias nevertheless. -/
theorem leftJoin_of_missing (missing : q.graph.entity? via.target = .error x) :
    Query.leftJoin parent via number q = (.error (.schema x), q.takeAlias) := by
  have hgraph : q.takeAlias.graph.entity? via.target = .error x := missing
  simp only [Query.leftJoin, hgraph]

theorem relationship?_eq_error {e : Entity} (h : e.relationships.lookup relationship = none) :
    e.relationship? relationship = .error (.unknownRelationship e.name relationship) := by
  simp only [Entity.relationship?, h]

theorem join_of_unknown (unknown : p.entity.relationship? relationship = .error x) :
    Query.join p relationship q = (.error (.schema x), q) := by
  simp only [Query.join, unknown, Call.fail]

theorem join_of_known (known : p.entity.relationship? relationship = .ok via) :
    Query.join p relationship q = Query.leftJoin p via .joined q := by
  simp only [Query.join, known]

theorem join_eq_ok : Query.join p relationship q = (.ok position, q') ↔
    ∃ via target, p.entity.relationship? relationship = .ok via ∧
      q.graph.entity? via.target = .ok target ∧
      position = q.nextPosition target .joined ∧ q' = q.withJoin p.qualifier via position := by
  rcases hknown : p.entity.relationship? relationship with x | via
  · simp [join_of_unknown hknown]
  · rw [join_of_known hknown]
    rcases hfound : q.graph.entity? via.target with x | target
    · simp [leftJoin_of_missing hfound, hfound]
    · rw [leftJoin_of_found hfound]
      constructor
      · intro h
        obtain ⟨hposition, rfl⟩ := Prod.mk.inj h
        obtain rfl := Except.ok.inj hposition
        exact ⟨via, target, rfl, hfound, rfl, rfl⟩
      · rintro ⟨via', target', hvia, htarget, rfl, rfl⟩
        obtain rfl := Except.ok.inj hvia
        obtain rfl := Except.ok.inj (hfound.symm.trans htarget)
        rfl

end Joins

theorem position_column?_eq_ok {p : Position} {name : String} {c : Column} :
    p.column? name = .ok c ↔ name ∈ p.entity.columns ∧ c = ⟨p.qualifier, name⟩ := by
  constructor
  · intro h
    obtain ⟨column, hcolumn, h⟩ := except_bind_eq_ok.mp h
    obtain rfl := Except.ok.inj h
    obtain ⟨rfl, hmem⟩ := EntityGraph.column?_eq_ok.mp hcolumn
    exact ⟨hmem, rfl⟩
  · rintro ⟨hmem, rfl⟩
    simp [Position.column?, Entity.column?, hmem, bind, Except.bind, pure, Except.pure]

theorem position_column?_eq_error {p : Position} {name : String} (h : name ∉ p.entity.columns) :
    p.column? name = .error (.unknownAttribute p.entity.name name) := by
  simp [Position.column?, Entity.column?, h, bind, Except.bind]

def Query.withFetch (q : Query) (relationship : String) (via : Relationship)
    (position : Position) : Query :=
  { q.withJoin .root via position with fetched := q.fetched ++ [(relationship, position)] }

section Fetches

variable {q q' : Query} {relationship : String} {via : Relationship} {target : Entity}
  {x : SchemaError}

theorem fetch_of_fetched (again : (q.fetched.lookup relationship).isSome = true) :
    Query.fetch relationship q = (.error (.alreadyFetched relationship), q) := by
  simp only [Query.fetch, again, if_true]

variable (fresh : q.fetched.lookup relationship = none)
include fresh

theorem fetch_of_unknown (unknown : q.root.relationship? relationship = .error x) :
    Query.fetch relationship q = (.error (.schema x), q) := by
  simp only [Query.fetch, fresh, Option.isSome_none, Bool.false_eq_true, if_false, unknown]

variable (known : q.root.relationship? relationship = .ok via)
include known

theorem fetch_of_toMany (toMany : via.toMany = true) :
    Query.fetch relationship q = (.error (.toManyFetch relationship), q) := by
  simp only [Query.fetch, fresh, Option.isSome_none, Bool.false_eq_true, if_false, known, toMany,
    if_true]

variable (toOne : via.toMany = false)
include toOne

theorem fetch_of_known : Query.fetch relationship q =
    Call.bind (Query.leftJoin q.rootPosition via .fetched) (Query.noteFetch relationship) q := by
  simp only [Query.fetch, fresh, Option.isSome_none, Bool.false_eq_true, if_false, known, toOne]

theorem fetch_of_found (found : q.graph.entity? via.target = .ok target) :
    Query.fetch relationship q =
      (.ok (), q.withFetch relationship via (q.nextPosition target .fetched)) := by
  rw [fetch_of_known fresh known toOne]
  simp only [Call.bind, leftJoin_of_found found, Query.noteFetch]
  have hput : put relationship (q.nextPosition target .fetched)
      (q.withJoin .root via (q.nextPosition target .fetched)).fetched =
        q.fetched ++ [(relationship, q.nextPosition target .fetched)] :=
    put_of_lookup_eq_none relationship _ q.fetched fresh
  rw [Query.rootPosition, hput]
  rfl

theorem fetch_of_missing (missing : q.graph.entity? via.target = .error x) :
    Query.fetch relationship q = (.error (.schema x), q.takeAlias) := by
  rw [fetch_of_known fresh known toOne]
  simp only [Call.bind, leftJoin_of_missing missing]

end Fetches

/-- A fetch that fails leaves the query as it was, unless the graph lacks the target. -/
theorem ends_fetch (q : Query) (relationship : String) :
    Ends
      (fun _ q' => ∃ via target, q.fetched.lookup relationship = none ∧
        q.root.relationship? relationship = .ok via ∧ via.toMany = false ∧
        q.graph.entity? via.target = .ok target ∧
        q' = q.withFetch relationship via (q.nextPosition target .fetched))
      (fun _ q' => q' = q ∨ ∃ via x, q.root.relationship? relationship = .ok via ∧
        q.graph.entity? via.target = .error x)
      (Query.fetch relationship q) := by
  rcases fresh : q.fetched.lookup relationship with _ | position
  · rcases known : q.root.relationship? relationship with x | via
    · rw [fetch_of_unknown fresh known]
      exact Or.inl rfl
    · rcases toMany : via.toMany with _ | _
      · rcases found : q.graph.entity? via.target with x | target
        · rw [fetch_of_missing fresh known toMany found]
          exact Or.inr ⟨via, x, rfl, found⟩
        · rw [fetch_of_found fresh known toMany found]
          exact ⟨via, target, rfl, rfl, toMany, found, rfl⟩
      · rw [fetch_of_toMany fresh known toMany]
        exact Or.inl rfl
  · have again : (q.fetched.lookup relationship).isSome = true := by
      rw [fresh, Option.isSome_some]
    rw [fetch_of_fetched again]
    exact Or.inl rfl

theorem compare?_eq_ok {column : Column} {comparison : Comparison} {c : Condition} :
    column.compare? comparison = .ok c ↔
      comparison ≠ .oneOf [] ∧ c = .test column comparison := by
  unfold Column.compare?
  split
  · simp
  · rename_i hne
    constructor
    · intro h
      exact ⟨hne, (Except.ok.inj h).symm⟩
    · rintro ⟨_, rfl⟩
      rfl

def gathered (connective : Connective) : List Condition → Condition
  | [] => .truth
  | [c] => c
  | several => .group connective several

theorem group?_eq_ok {connective : Connective} {cs : List Condition} {c : Condition} :
    Condition.group? connective cs = .ok c ↔ cs ≠ [] ∧ c = gathered connective cs := by
  rcases cs with _ | ⟨first, _ | ⟨second, rest⟩⟩
  · simp [Condition.group?]
  · simp [Condition.group?, gathered, eq_comm]
  · simp [Condition.group?, gathered, eq_comm]

theorem group?_of_forall₂ {α : Type} {R : α → Condition → Prop} {operands : List α}
    {cs : List Condition} (h : List.Forall₂ R operands cs) (hne : operands ≠ [])
    (connective : Connective) :
    Condition.group? connective cs = .ok (gathered connective cs) := by
  have hcs : cs ≠ [] := by
    intro hnil
    subst hnil
    exact hne (List.forall₂_nil_right_iff.mp h)
  exact group?_eq_ok.mpr ⟨hcs, rfl⟩

end CatalogSearch.Sql
