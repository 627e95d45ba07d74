import CatalogSearch.Proofs.Criteria.Compilation
import CatalogSearch.Proofs.Sql.Graph
import CatalogSearch.Proofs.Sql.Meaning

/-!
# What a search asks for

A search picks, for a row of the root table, one related row for every trail that its filtering
paths follow: for a trail, a row that the last relationship relates to the row picked for the trail
before it, or the row of nulls where none is related.  `matchingRows` has the root row once for each
such choice on which every field of the search is satisfied.  Nothing here mentions a query.
-/

set_option autoImplicit false

namespace CatalogSearch.Sql

open Criteria

/-- The trails that the fields make a search follow, each once. -/
def askedTrails (fields : List (FieldIntent × Value)) : List (List String) :=
  newTrails [] ((filteringPaths fields).flatMap trailsOf)

theorem mem_askedTrails {fields : List (FieldIntent × Value)} {trail : List String} :
    trail ∈ askedTrails fields ↔
      trail ≠ [] ∧ ∃ path ∈ filteringPaths fields, trail <+: relationshipsOf path :=
  mem_newTrails_of_paths (filteringPaths fields) trail

/-- The row picked for each trail; that of the empty trail is the root's. -/
abbrev Choice (V : Type) : Type := List String → Row V

section Choices

variable {V : Type} [DecidableEq V]

def related (db : Database V) (via : Relationship) (target : Entity) (owner : Row V) :
    Multiset (Row V) :=
  (db target.table).filter fun row =>
    row via.remoteColumn = owner via.localColumn ∧ (row via.remoteColumn).isSome = true

def relatedOrNull (db : Database V) (via : Relationship) (target : Entity) (owner : Row V) :
    Multiset (Row V) :=
  if (related db via target owner).card = 0 then {nullRow} else related db via target owner

/-- What can be picked for a trail, `owner` being the row picked for the trail before it. -/
def candidates (db : Database V) (g : EntityGraph) (root : Entity) (trail : List String)
    (owner : Row V) : Multiset (Row V) :=
  match g.linkAt? root trail with
  | some (via, target) => relatedOrNull db via target owner
  | none => 0

def choices (db : Database V) (g : EntityGraph) (root : Entity) :
    List (List String) → Choice V → Multiset (Choice V)
  | [], choice => {choice}
  | trail :: rest, choice =>
      (candidates db g root trail (choice trail.dropLast)).bind fun row =>
        choices db g root rest (Function.update choice trail row)

def startingWith (row : Row V) : Choice V := Function.update (fun _ => nullRow) [] row

def cellAt (choice : Choice V) (path : String) : Cell V :=
  choice (relationshipsOf path) (attributeOf path)

def satisfied (reading : Reading V) (choice : Choice V) (f : FieldIntent × Value) : Bool :=
  match f.1.comparison? f.2 with
  | none => true
  | some c => f.1.paths.any fun path => reading c (cellAt choice path) = .yes

/-- The choices for a root row that satisfy the fields. -/
def keptChoices (db : Database V) (reading : Reading V) (g : EntityGraph) (root : Entity)
    (fields : List (FieldIntent × Value)) (row : Row V) : Multiset (Choice V) :=
  (choices db g root (askedTrails fields) (startingWith row)).filter fun choice =>
    fields.all (satisfied reading choice)

def matchingRows (db : Database V) (reading : Reading V) (g : EntityGraph) (root : Entity)
    (fields : List (FieldIntent × Value)) : Multiset (List (Cell V)) :=
  (db root.table).bind fun row =>
    (keptChoices db reading g root fields row).map fun _ => root.columns.map row

theorem choices_append (db : Database V) (g : EntityGraph) (root : Entity)
    (more : List (List String)) : ∀ (trails : List (List String)) (choice : Choice V),
      choices db g root (trails ++ more) choice =
        (choices db g root trails choice).bind (choices db g root more) := by
  intro trails
  induction trails with
  | nil => intro choice; simp [choices]
  | cons trail rest ih =>
      intro choice
      simp only [List.cons_append, choices, ih, Multiset.bind_assoc]

theorem choice_nil {db : Database V} {g : EntityGraph} {root : Entity} :
    ∀ (trails : List (List String)) {choice picked : Choice V}, [] ∉ trails →
      picked ∈ choices db g root trails choice → picked [] = choice [] := by
  intro trails
  induction trails with
  | nil =>
      intro choice picked _ h
      rw [Multiset.mem_singleton.mp h]
  | cons trail rest ih =>
      intro choice picked hnil h
      obtain ⟨hfirst, hrest⟩ := not_or.mp (fun e => hnil (List.mem_cons.mpr e))
      obtain ⟨row, _, hpicked⟩ := Multiset.mem_bind.mp h
      rw [ih hrest hpicked, Function.update_of_ne hfirst]

theorem root_of_mem_keptChoices {db : Database V} {reading : Reading V} {g : EntityGraph}
    {root : Entity} {fields : List (FieldIntent × Value)} {row : Row V} {choice : Choice V}
    (h : choice ∈ keptChoices db reading g root fields row) : choice [] = row := by
  have hnil : [] ∉ askedTrails fields := fun h => (mem_askedTrails.mp h).1 rfl
  rw [choice_nil _ hnil (Multiset.mem_of_mem_filter h)]
  simp [startingWith]

end Choices

end CatalogSearch.Sql
