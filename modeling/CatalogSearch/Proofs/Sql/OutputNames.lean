import CatalogSearch.Proofs.Catalog.Graph
import CatalogSearch.Proofs.Sql.Fetched
import Mathlib.Data.List.Nodup
import Mathlib.Data.List.Pairwise

/-!
# Output names

The values of a row come back under the names that the select list gives them, the last of those with
one name.  Main statement: `output_names_apart`.  No value of any row is lost exactly if the names are
distinct, which is so exactly if no entity repeats a column, no label is a column of the root and no
two fetches share a label; and it is so of every script if the names of the graph are plain
(`EntityGraph.Plain`).

A label joins two names by two underscores, which each of them may hold as well, so labels are not
told apart by their parts (`labels_meet`).
-/

set_option autoImplicit false

namespace CatalogSearch.Sql

/-! ## Rows -/

/-- A fetched column comes back under its label, one of the root under its own name. -/
def SelectItem.outputName (i : SelectItem) : String := i.label.getD i.column.name

def Select.outputNames (s : Select) : List String := s.items.map SelectItem.outputName

/-- A row by the names of its columns: of values with one name the last one counts. -/
def namedRow (names : List String) (values : List Value) : List (String × Value) :=
  lastByKey (names.zip values)

def KeepsRows (names : List String) : Prop :=
  ∀ values : List Value, values.length = names.length → namedRow names values = names.zip values

theorem keepsRows_iff {names : List String} : KeepsRows names ↔ names.Nodup := by
  have keys : ∀ values : List Value, values.length = names.length →
      (names.zip values).map Prod.fst = names :=
    fun values h => List.map_fst_zip (Nat.le_of_eq h.symm)
  constructor
  · intro keeps
    have hlength : (names.map fun _ => Value.null).length = names.length := List.length_map ..
    have hnodup := lastByKey_eq_self_iff.mp (keeps _ hlength)
    rwa [keys _ hlength] at hnodup
  · intro nodup values h
    exact lastByKey_of_nodup ((keys values h).symm ▸ nodup)

/-! ## Labels -/

/-- One label is read with a longer key: its key goes on into the column of the other reading. -/
def Overlap (key column key' column' : List Char) : Prop :=
  (key' = key ++ ['_'] ∧ column = '_' :: column') ∨
    ∃ middle, key' = key ++ '_' :: '_' :: middle ∧ column = middle ++ '_' :: '_' :: column'

theorem overlap_of_append {key column column' more : List Char}
    (h : '_' :: '_' :: column = more ++ '_' :: '_' :: column') :
    more = [] ∧ column = column' ∨ Overlap key column (key ++ more) column' := by
  rcases more with _ | ⟨first, _ | ⟨second, middle⟩⟩
  · exact Or.inl ⟨rfl, by simpa using h⟩
  · obtain ⟨rfl, rfl⟩ : '_' = first ∧ column = '_' :: column' := by simpa using h
    exact Or.inr (Or.inl ⟨rfl, rfl⟩)
  · obtain ⟨rfl, rfl, rfl⟩ :
        '_' = first ∧ '_' = second ∧ column = middle ++ '_' :: '_' :: column' := by simpa using h
    exact Or.inr (Or.inr ⟨middle, rfl, rfl⟩)

/-- Labels are equal if they are made of the same names, or if one reading overlaps the other. -/
theorem labels_meet {key column key' column' : String}
    (h : labelOf key column = labelOf key' column') :
    (key = key' ∧ column = column') ∨
      Overlap key.toList column.toList key'.toList column'.toList ∨
      Overlap key'.toList column'.toList key.toList column.toList := by
  have hchars : key.toList ++ '_' :: '_' :: column.toList =
      key'.toList ++ '_' :: '_' :: column'.toList := by
    simpa [labelOf] using congrArg String.toList h
  rcases List.append_eq_append_iff.mp hchars with ⟨more, hkey, hrest⟩ | ⟨more, hkey, hrest⟩
  · rcases overlap_of_append hrest with ⟨rfl, hcolumn⟩ | overlap
    · rw [List.append_nil] at hkey
      exact Or.inl ⟨(String.toList_inj.mp hkey).symm, String.toList_inj.mp hcolumn⟩
    · exact Or.inr (Or.inl (hkey ▸ overlap))
  · rcases overlap_of_append hrest with ⟨rfl, hcolumn⟩ | overlap
    · rw [List.append_nil] at hkey
      exact Or.inl ⟨String.toList_inj.mp hkey, (String.toList_inj.mp hcolumn).symm⟩
    · exact Or.inr (Or.inr (hkey ▸ overlap))

theorem labelOf_injective (key : String) : Function.Injective (labelOf key) := by
  intro column column' h
  simpa [labelOf] using h

/-! ## Names that are apart -/

/-- No two values of a row share a name. -/
structure Apart (root : Entity) (fetched : List (String × Position)) : Prop where
  ofRoot : root.columns.Nodup
  ofTargets : ∀ f ∈ fetched, f.2.entity.columns.Nodup
  fromRoot : ∀ f ∈ fetched, ∀ column ∈ f.2.entity.columns, labelOf f.1 column ∉ root.columns
  fromOthers : ∀ f ∈ fetched, ∀ f' ∈ fetched, f.1 ≠ f'.1 → ∀ column ∈ f.2.entity.columns,
    ∀ column' ∈ f'.2.entity.columns, labelOf f.1 column ≠ labelOf f'.1 column'

def labelsOf (f : String × Position) : List String := f.2.entity.columns.map (labelOf f.1)

theorem outputNames_select (q : Query) (c : Condition) :
    (q.select c).outputNames = q.root.columns ++ q.fetched.flatMap labelsOf := by
  have hroot : (q.root.columns.map fun name => SelectItem.mk ⟨.root, name⟩ none).map
      SelectItem.outputName = q.root.columns := by
    rw [List.map_map]
    exact List.map_id _
  have hfetched : ∀ f : String × Position,
      (Query.fetchedItems f.1 f.2).map SelectItem.outputName = labelsOf f := by
    intro f
    rw [Query.fetchedItems, List.map_map]
    rfl
  simp only [Select.outputNames, Query.select, Query.items, List.map_append, List.map_flatMap,
    hroot, hfetched]

theorem disjoint_labelsOf {f f' : String × Position} :
    List.Disjoint (labelsOf f) (labelsOf f') ↔ ∀ column ∈ f.2.entity.columns,
      ∀ column' ∈ f'.2.entity.columns, labelOf f.1 column ≠ labelOf f'.1 column' := by
  constructor
  · intro h column hcolumn column' hcolumn' hlabels
    exact h (List.mem_map_of_mem hcolumn) (hlabels ▸ List.mem_map_of_mem hcolumn')
  · intro h label hlabel hlabel'
    obtain ⟨column, hcolumn, rfl⟩ := List.mem_map.mp hlabel
    obtain ⟨column', hcolumn', hlabels⟩ := List.mem_map.mp hlabel'
    exact h column hcolumn column' hcolumn' hlabels.symm

theorem nodup_outputNames {q : Query} (keys : (q.fetched.map Prod.fst).Nodup) (c : Condition) :
    (q.select c).outputNames.Nodup ↔ Apart q.root q.fetched := by
  rw [outputNames_select, List.nodup_append, List.nodup_flatMap]
  constructor
  · rintro ⟨hroot, ⟨htargets, hothers⟩, hlabels⟩
    refine ⟨hroot, ?_, ?_, ?_⟩
    · intro f hf
      exact (List.nodup_map_iff (labelOf_injective f.1)).mp (htargets f hf)
    · intro f hf column hcolumn hmem
      exact hlabels _ hmem _ (List.mem_flatMap.mpr ⟨f, hf, List.mem_map_of_mem hcolumn⟩) rfl
    · intro f hf f' hf' hne
      have symmetric : Std.Symm (Function.onFun List.Disjoint labelsOf) :=
        ⟨fun _ _ => List.disjoint_symm⟩
      exact disjoint_labelsOf.mp
        (hothers.forall hf hf' fun same => hne (congrArg Prod.fst same))
  · intro apart
    refine ⟨apart.ofRoot, ⟨?_, ?_⟩, ?_⟩
    · intro f hf
      exact (apart.ofTargets f hf).map (labelOf_injective f.1)
    · refine (List.pairwise_map.mp keys).imp_of_mem ?_
      intro f f' hf hf' hne
      exact disjoint_labelsOf.mpr (apart.fromOthers f hf f' hf' hne)
    · rintro _ hroot _ hlabel rfl
      obtain ⟨f, hf, hlabel⟩ := List.mem_flatMap.mp hlabel
      obtain ⟨column, hcolumn, rfl⟩ := List.mem_map.mp hlabel
      exact apart.fromRoot f hf column hcolumn hroot

/-! ## Plain names -/

def HoldsUnderscores (name : String) : Prop := ['_', '_'] <:+: name.toList

instance (name : String) : Decidable (HoldsUnderscores name) :=
  inferInstanceAs (Decidable (_ <:+: _))

/-- No column is repeated or holds two underscores in a row, and no key of the root ends in one. -/
structure EntityGraph.Plain (g : EntityGraph) (root : Entity) : Prop where
  nodup : ∀ e ∈ g.entities, e.columns.Nodup
  columns : ∀ e ∈ g.entities, ∀ column ∈ e.columns, ¬ HoldsUnderscores column
  keys : ∀ entry ∈ root.relationships, entry.1.toList.getLast? ≠ some '_'

theorem holdsUnderscores_labelOf (key column : String) : HoldsUnderscores (labelOf key column) :=
  ⟨key.toList, column.toList, by simp [labelOf]⟩

theorem not_overlap_of_plain {key column key' column' : String}
    (hcolumn : ¬ HoldsUnderscores column) (hkey : key'.toList.getLast? ≠ some '_') :
    ¬ Overlap key.toList column.toList key'.toList column'.toList := by
  rintro (⟨hlonger, _⟩ | ⟨middle, _, hrest⟩)
  · rw [hlonger, List.getLast?_concat] at hkey
    exact hkey rfl
  · exact hcolumn ⟨middle, column'.toList, by simp [hrest]⟩

theorem apart_of_plain {g : EntityGraph} {root : Entity} {q : Query} (plain : g.Plain root)
    (hroot : root ∈ g.entities) (fetches : q.Fetches g root) : Apart root q.fetched := by
  have targets : ∀ f ∈ q.fetched, f.2.entity ∈ g.entities := by
    intro f hf
    obtain ⟨via, _, found⟩ := fetches.links f hf
    exact EntityGraph.mem_of_entity?_eq_ok found
  have keys : ∀ f ∈ q.fetched, f.1.toList.getLast? ≠ some '_' := by
    intro f hf
    obtain ⟨via, known, _⟩ := fetches.links f hf
    exact plain.keys _ (mem_of_lookup (EntityGraph.relationship?_eq_ok.mp known))
  refine ⟨plain.nodup root hroot, fun f hf => plain.nodup _ (targets f hf), ?_, ?_⟩
  · intro f hf column hcolumn hmem
    exact plain.columns root hroot _ hmem (holdsUnderscores_labelOf f.1 column)
  · intro f hf f' hf' hne column hcolumn column' hcolumn' hlabels
    rcases labels_meet hlabels with ⟨hkeys, _⟩ | overlap | overlap
    · exact hne hkeys
    · exact not_overlap_of_plain (plain.columns _ (targets f hf) column hcolumn) (keys f' hf')
        overlap
    · exact not_overlap_of_plain (plain.columns _ (targets f' hf') column' hcolumn') (keys f hf)
        overlap

/-! ## Statements of scripts -/

/-- A statement keeps all rows exactly if its output names are apart, and all statements do over
graphs with plain names. -/
theorem output_names_apart {g : EntityGraph} {entity : String} {q : Query}
    (hq : Query.start? g entity = .ok q) (steps : List Step) :
    ∀ run ∈ runSteps [] q steps, ∀ s, run.1 = .select s →
      (s.outputNames.Nodup ↔ Apart q.root run.2.fetched) ∧
      (KeepsRows s.outputNames ↔ s.outputNames.Nodup) ∧
      (g.Plain q.root → s.outputNames.Nodup) := by
  intro run hrun s hs
  obtain ⟨c, rfl⟩ := select_of_runSteps steps _ hrun _ hs
  have fetches := fetches_of_runSteps hq steps run hrun
  have hnodup := nodup_outputNames fetches.keys c
  rw [fetches.ofRoot] at hnodup
  have hroot := (from_of_start? hq).root
  exact ⟨hnodup, keepsRows_iff, fun plain => hnodup.mpr (apart_of_plain plain hroot fetches)⟩

theorem plain_catalog : Catalog.graph.Plain Catalog.product :=
  ⟨by decide, by decide +kernel, by decide⟩

theorem output_names_apart_catalog :
    ∃ q, Query.start? Catalog.graph "product" = .ok q ∧
      ∃ run ∈ runSteps [] q [.fetch "category", .truth, .render 1],
        ∃ s, run.1 = .select s ∧ s.outputNames.Nodup ∧ KeepsRows s.outputNames := by
  have start : Query.start? Catalog.graph "product" =
    .ok ⟨Catalog.graph, Catalog.product, [], [], false, 0⟩ := rfl
  refine ⟨_, start, _, List.mem_of_getElem? (i := 2) rfl, _, rfl, ?_⟩
  obtain ⟨_, hkeeps, hplain⟩ := output_names_apart start [.fetch "category", .truth, .render 1] _
    (List.mem_of_getElem? (i := 2) rfl) _ rfl
  have nodup := hplain plain_catalog
  exact ⟨nodup, hkeeps.mpr nodup⟩

/-! ## A label that is a column -/

def labelled : EntityGraph :=
  ⟨[⟨"product", "products", ["id", "category_id", "category__id"],
      [("category", ⟨"category", "category", "category_id", "id", false⟩)]⟩,
    ⟨"category", "categories", ["id", "name"], []⟩]⟩

theorem labelled_constructed : labelled.Constructed :=
  EntityGraph.constructed_of_checks (by decide) (by decide)

/-- The third value of the row is lost: the category's `id` takes its place. -/
theorem label_hides_column :
    labelled.Constructed ∧ ∃ q, Query.start? labelled "product" = .ok q ∧
      ∃ run ∈ runSteps [] q [.fetch "category", .truth, .render 1],
        ∃ s, run.1 = .select s ∧ ¬ s.outputNames.Nodup ∧
          namedRow s.outputNames [.int 1, .int 2, .int 3, .int 4, .text "toys"] =
            [("id", .int 1), ("category_id", .int 2), ("category__id", .int 4),
              ("category__name", .text "toys")] := by
  refine ⟨labelled_constructed, _, rfl, _, List.mem_of_getElem? (i := 2) rfl, _, rfl, ?_, ?_⟩
  · decide
  · rfl

end CatalogSearch.Sql
