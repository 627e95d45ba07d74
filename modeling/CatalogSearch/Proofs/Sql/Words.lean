import CatalogSearch.Proofs.Catalog.Graph
import CatalogSearch.Proofs.Sql.Fetched
import CatalogSearch.Proofs.Sql.Grammar

/-!
# The words of statements

A statement is a row of keywords, punctuation, placeholders and names put in between, and nothing
else (`Select.spelled_words`).  Main statement: `statement_names`.  Over a constructed graph all these
names are identifiers exactly if each relationship that was fetched stands under an identifier, or
under the empty text.

A label starts with the key that a relationship stands under, which no constructor looks at; the
relationship's own name, which is looked at, reaches no statement.
-/

set_option autoImplicit false

namespace CatalogSearch.Sql

open Criteria

/-! ## Words -/

inductive Keyword where
  | as_
  | between
  | cast
  | connective (c : Connective)
  | distinct
  | escape
  | from_
  | in_
  | join
  | left
  | like
  | lower
  | on
  | select
  | text
  | truth
  | where_

def Keyword.spelling : Keyword → String
  | as_ => "AS"
  | between => "BETWEEN"
  | cast => "CAST"
  | connective c => c.text
  | distinct => "DISTINCT"
  | escape => "ESCAPE"
  | from_ => "FROM"
  | in_ => "IN"
  | join => "JOIN"
  | left => "LEFT"
  | like => "LIKE"
  | lower => "LOWER"
  | on => "ON"
  | select => "SELECT"
  | text => "TEXT"
  | truth => "TRUE"
  | where_ => "WHERE"

inductive Mark where
  | blank
  | comma
  | dot
  | opening
  | closing
  | equal
  | atLeast
  | atMost
  | quotedBackslash

def Mark.spelling : Mark → String
  | blank => " "
  | comma => ","
  | dot => "."
  | opening => "("
  | closing => ")"
  | equal => "="
  | atLeast => ">="
  | atMost => "<="
  | quotedBackslash => "'\\'"

inductive Word where
  | keyword (k : Keyword)
  | mark (m : Mark)
  | placeholder
  | name (text : String)

def Word.spelling : Word → String
  | keyword k => k.spelling
  | mark m => m.spelling
  | placeholder => Sql.placeholder
  | name text => text

def spelled : List Word → String
  | [] => ""
  | w :: rest => w.spelling ++ spelled rest

def separated (separator : List Word) : List (List Word) → List Word
  | [] => []
  | [words] => words
  | words :: rest => words ++ separator ++ separated separator rest

def Checked (words : List Word) : Prop :=
  ∀ text, Word.name text ∈ words → Text.isIdentifier text = true

theorem spelled_append : ∀ first second : List Word,
    spelled (first ++ second) = spelled first ++ spelled second := by
  intro first second
  induction first with
  | nil => exact String.empty_append.symm
  | cons w rest ih => rw [List.cons_append, spelled, spelled, ih, String.append_assoc]

theorem spelled_separated (separator : List Word) : ∀ items : List (List Word),
    spelled (separated separator items) = joined (spelled separator) (items.map spelled) := by
  intro items
  induction items with
  | nil => rfl
  | cons first rest ih =>
      rcases rest with _ | ⟨second, rest⟩
      · rfl
      · simp only [separated, spelled_append, ih, List.map_cons, joined]

@[simp] theorem checked_nil : Checked [] := by simp [Checked]

@[simp] theorem checked_keyword {k : Keyword} {rest : List Word} :
    Checked (.keyword k :: rest) ↔ Checked rest := by simp [Checked]

@[simp] theorem checked_mark {m : Mark} {rest : List Word} :
    Checked (.mark m :: rest) ↔ Checked rest := by simp [Checked]

@[simp] theorem checked_placeholder {rest : List Word} :
    Checked (.placeholder :: rest) ↔ Checked rest := by simp [Checked]

@[simp] theorem checked_name {text : String} {rest : List Word} :
    Checked (.name text :: rest) ↔ Text.isIdentifier text = true ∧ Checked rest := by
  simp [Checked, or_imp, forall_and]

@[simp] theorem checked_append {first second : List Word} :
    Checked (first ++ second) ↔ Checked first ∧ Checked second := by
  simp [Checked, or_imp, forall_and]

theorem checked_separated {separator : List Word} (hseparator : Checked separator) :
    ∀ items : List (List Word),
      Checked (separated separator items) ↔ ∀ words ∈ items, Checked words := by
  intro items
  induction items with
  | nil => simp [separated]
  | cons first rest ih =>
      rcases rest with _ | ⟨second, rest⟩
      · simp [separated]
      · simp only [separated, checked_append, ih, List.forall_mem_cons (a := first)]
        exact and_congr_left fun _ => and_iff_left hseparator

/-! ## The words of conditions -/

def Column.words (c : Column) : List Word :=
  [.name c.qualifier.text, .mark .dot, .name c.name]

def testWords (column : List Word) : Comparison → List Word
  | .equal _ => column ++ [.mark .blank, .mark .equal, .mark .blank, .placeholder]
  | .contains _ =>
      [.keyword .lower, .mark .opening, .keyword .cast, .mark .opening] ++ column ++
        [.mark .blank, .keyword .as_, .mark .blank, .keyword .text, .mark .closing, .mark .closing,
          .mark .blank, .keyword .like, .mark .blank, .placeholder, .mark .blank, .keyword .escape,
          .mark .blank, .mark .quotedBackslash]
  | .between _ _ =>
      column ++ [.mark .blank, .keyword .between, .mark .blank, .placeholder, .mark .blank,
        .keyword (.connective .all), .mark .blank, .placeholder]
  | .atLeast _ => column ++ [.mark .blank, .mark .atLeast, .mark .blank, .placeholder]
  | .atMost _ => column ++ [.mark .blank, .mark .atMost, .mark .blank, .placeholder]
  | .oneOf values =>
      column ++ [.mark .blank, .keyword .in_, .mark .blank, .mark .opening] ++
        separated [.mark .comma, .mark .blank] (values.map fun _ => [.placeholder]) ++
        [.mark .closing]

namespace Condition

mutual

def words : Condition → List Word
  | .truth => [.keyword .truth]
  | .test column comparison => testWords column.words comparison
  | .group connective operands =>
      [.mark .opening] ++
        separated [.mark .blank, .keyword (.connective connective), .mark .blank]
          (wordsOf operands) ++ [.mark .closing]

def wordsOf : List Condition → List (List Word)
  | [] => []
  | c :: rest => c.words :: wordsOf rest

end

end Condition

theorem Column.spelled_words (c : Column) : spelled c.words = c.text := by
  simp only [Column.words, spelled, Word.spelling, Mark.spelling, Column.text, String.append_empty,
    String.append_assoc]

theorem spelled_testWords (column : List Word) (c : Comparison) :
    spelled (testWords column c) = testText (spelled column) c := by
  cases c with
  | oneOf values =>
      have hvalues : (values.map fun _ => [Word.placeholder]).map spelled =
          values.map fun _ => placeholder := by
        rw [List.map_map]
        exact List.map_congr_left fun _ _ => rfl
      simp only [testWords, testText, spelled_append, spelled_separated, hvalues]
      rfl
  | _ =>
      simp only [testWords, testText, spelled_append, String.append_assoc]
      rfl

mutual

theorem Condition.spelled_words (c : Condition) : spelled c.words = c.text := by
  match c with
  | .truth => rfl
  | .test column comparison =>
      rw [Condition.words, Condition.text, spelled_testWords, column.spelled_words]
  | .group connective operands =>
      have hbetween : spelled [.mark .blank, .keyword (.connective connective), .mark .blank] =
          " " ++ connective.text ++ " " := by cases connective <;> rfl
      simp only [Condition.words, Condition.text, spelled_append, spelled_separated, hbetween,
        spelled_wordsOf operands]
      rfl

theorem Condition.spelled_wordsOf (cs : List Condition) :
    (Condition.wordsOf cs).map spelled = Condition.textsOf cs := by
  match cs with
  | [] => rfl
  | c :: rest => rw [wordsOf, textsOf, List.map_cons, c.spelled_words, spelled_wordsOf rest]

end

/-! ## The words of statements -/

def LeftJoin.words (j : LeftJoin) : List Word :=
  [.keyword .left, .mark .blank, .keyword .join, .mark .blank, .name j.position.entity.table,
      .mark .blank, .name j.position.qualifier.text, .mark .blank, .keyword .on, .mark .blank] ++
    (Column.mk j.position.qualifier j.via.remoteColumn).words ++
    [.mark .blank, .mark .equal, .mark .blank] ++ (Column.mk j.parent j.via.localColumn).words

def SelectItem.words (i : SelectItem) : List Word :=
  match i.label with
  | none => i.column.words
  | some label =>
      i.column.words ++ [.mark .blank, .keyword .as_, .mark .blank, .name label]

namespace Select

def whereWords (c : Condition) : List (List Word) :=
  if c.isTruth then [] else [[.keyword .where_, .mark .blank] ++ c.words]

def words (s : Select) : List Word :=
  separated [.mark .blank]
    ([if s.distinct then [.keyword .select, .mark .blank, .keyword .distinct]
        else [.keyword .select],
        separated [.mark .comma, .mark .blank] (s.items.map SelectItem.words),
        [.keyword .from_, .mark .blank, .name s.from_.entity.table, .mark .blank,
          .name s.from_.qualifier.text]] ++
      s.joins.map LeftJoin.words ++ whereWords s.condition)

end Select

theorem LeftJoin.spelled_words (j : LeftJoin) : spelled j.words = j.text := by
  have htext : j.text = "LEFT JOIN " ++ j.position.entity.table ++ " " ++
      j.position.qualifier.text ++ " ON " ++
      (Column.mk j.position.qualifier j.via.remoteColumn).text ++ " = " ++
      (Column.mk j.parent j.via.localColumn).text := rfl
  rw [htext]
  simp only [LeftJoin.words, spelled_append, Column.spelled_words, String.append_assoc]
  simp only [spelled, String.append_assoc, String.append_empty]
  rfl

theorem SelectItem.spelled_words (i : SelectItem) : spelled i.words = i.text := by
  simp only [SelectItem.words, SelectItem.text]
  rcases i.label with _ | label
  · exact i.column.spelled_words
  · simp only [spelled_append, Column.spelled_words, spelled, String.append_empty,
      String.append_assoc]
    rfl

theorem Select.spelled_whereWords (c : Condition) :
    (whereWords c).map spelled = whereText c := by
  simp only [whereWords, whereText]
  split
  · rfl
  · simp only [List.map_cons, List.map_nil, spelled_append, Condition.spelled_words]
    rfl

theorem Select.spelled_words (s : Select) : spelled s.words = s.text := by
  have hitems : (s.items.map SelectItem.words).map spelled = s.items.map SelectItem.text := by
    rw [List.map_map]
    exact List.map_congr_left fun i _ => i.spelled_words
  have hjoins : (s.joins.map LeftJoin.words).map spelled = s.joins.map LeftJoin.text := by
    rw [List.map_map]
    exact List.map_congr_left fun j _ => j.spelled_words
  have hselect : spelled (if s.distinct then [.keyword .select, .mark .blank, .keyword .distinct]
      else [.keyword .select]) = if s.distinct then "SELECT DISTINCT" else "SELECT" := by
    split <;> rfl
  have hfrom : spelled [.keyword .from_, .mark .blank, .name s.from_.entity.table, .mark .blank,
      .name s.from_.qualifier.text] =
        "FROM " ++ s.from_.entity.table ++ " " ++ s.from_.qualifier.text := by
    simp only [spelled, String.append_empty, String.append_assoc]
    rfl
  simp only [Select.words, Select.text, spelled_separated, List.map_append, List.map_cons,
    List.map_nil, hitems, hjoins, hselect, hfrom, spelled_whereWords]
  rfl

/-! ## Names that are checked -/

@[simp] theorem checked_column {c : Column} :
    Checked c.words ↔ Text.isIdentifier c.name = true := by
  simp [Column.words, c.qualifier.isIdentifier_text]

theorem checked_testWords {column : List Word} {c : Comparison} :
    Checked (testWords column c) ↔ Checked column := by
  cases c with
  | oneOf values => simp [testWords, checked_separated]
  | _ => simp [testWords]

mutual

theorem checked_condition (c : Condition) :
    Checked c.words ↔ ∀ column ∈ c.columns, Text.isIdentifier column.name = true := by
  match c with
  | .truth => simp [Condition.words, Condition.columns]
  | .test column comparison =>
      rw [Condition.words, checked_testWords, checked_column, Condition.columns,
        List.forall_mem_singleton]
  | .group connective operands =>
      have hoperands := checked_conditions operands
      simp [Condition.words, Condition.columns, checked_separated, hoperands]

theorem checked_conditions (cs : List Condition) :
    (∀ words ∈ Condition.wordsOf cs, Checked words) ↔
      ∀ column ∈ Condition.columnsOf cs, Text.isIdentifier column.name = true := by
  match cs with
  | [] => simp [Condition.wordsOf, Condition.columnsOf]
  | c :: rest =>
      rw [Condition.wordsOf, Condition.columnsOf, List.forall_mem_cons, List.forall_mem_append,
        checked_condition c, checked_conditions rest]

end

theorem checked_leftJoin {j : LeftJoin} :
    Checked j.words ↔ Text.isIdentifier j.position.entity.table = true ∧
      Text.isIdentifier j.via.remoteColumn = true ∧ Text.isIdentifier j.via.localColumn = true := by
  simp [LeftJoin.words, j.position.qualifier.isIdentifier_text]

theorem checked_select {s : Select} :
    Checked s.words ↔ (∀ i ∈ s.items, Checked i.words) ∧
      Text.isIdentifier s.from_.entity.table = true ∧ (∀ j ∈ s.joins, Checked j.words) ∧
        Checked s.condition.words := by
  have hwhere : (∀ words ∈ Select.whereWords s.condition, Checked words) ↔
      Checked s.condition.words := by
    rcases s.condition with _ | ⟨column, c⟩ | ⟨connective, operands⟩ <;>
      simp [Select.whereWords, Condition.isTruth, Condition.words]
  have hselect : Checked (if s.distinct then [.keyword .select, .mark .blank, .keyword .distinct]
      else [.keyword .select]) := by
    split <;> simp
  have hseparator : Checked [.mark .blank] := by simp
  have hcomma : Checked [.mark .comma, .mark .blank] := by simp
  rw [Select.words, checked_separated hseparator]
  simp [or_imp, forall_and, checked_separated hcomma, hselect, hwhere,
    s.from_.qualifier.isIdentifier_text]

/-- A label is an identifier if the key is one, or empty. -/
theorem isIdentifier_label {key column : String} (hcolumn : Text.isIdentifier column = true) :
    Text.isIdentifier (labelOf key column) = true ↔
      key = "" ∨ Text.isIdentifier key = true := by
  have hchars := List.all_eq_true.mpr (isIdentifierChar_of_mem hcolumn)
  have hline : Text.isIdentifierChar '_' = true := by decide
  simp only [labelOf, Text.isIdentifier, String.toList_append]
  rcases hkey : key.toList with _ | ⟨first, rest⟩
  · have hstart : Text.isIdentifierStart '_' = true := by decide
    simp [Text.isIdentifierList, hstart, hline, hchars, String.toList_eq_nil_iff.mp hkey]
  · have hne : key ≠ "" := by
      rintro rfl
      simp at hkey
    simp [Text.isIdentifierList, hline, hchars, hne]

/-! ## Statements of scripts -/

section Scripts

variable {g : EntityGraph} {q : Query}

theorem checked_fetchedItem {qualifier : Alias} {key column : String}
    (hcolumn : Text.isIdentifier column = true) :
    Checked (SelectItem.mk ⟨qualifier, column⟩ (some (labelOf key column))).words ↔
      key = "" ∨ Text.isIdentifier key = true := by
  simp [SelectItem.words, hcolumn, ← isIdentifier_label hcolumn]

/-- The select list is checked if the keys of the fetches are: each shows in some label. -/
theorem checked_items (hg : g.Constructed) (hq : q.From g) (fetches : q.Fetches g q.root) :
    (∀ i ∈ q.items, Checked i.words) ↔
      ∀ f ∈ q.fetched, f.1 = "" ∨ Text.isIdentifier f.1 = true := by
  constructor
  · intro hitems f hf
    obtain ⟨column, hcolumn⟩ := fetches.exists_column hg hq.root hf
    have hidentifier := (hg.named _ (hq.fetched f hf).1).2 column hcolumn
    have hitem : ⟨⟨f.2.qualifier, column⟩, some (labelOf f.1 column)⟩ ∈ q.items :=
      List.mem_append_right _ (List.mem_flatMap.mpr ⟨f, hf, List.mem_map_of_mem hcolumn⟩)
    exact (checked_fetchedItem hidentifier).mp (hitems _ hitem)
  · intro hkeys i hi
    rcases List.mem_append.mp hi with hi | hi
    · obtain ⟨name, hname, rfl⟩ := List.mem_map.mp hi
      exact checked_column.mpr ((hg.named _ hq.root).2 name hname)
    · obtain ⟨f, hf, hi⟩ := List.mem_flatMap.mp hi
      obtain ⟨column, hcolumn, rfl⟩ := List.mem_map.mp hi
      have hidentifier := (hg.named _ (hq.fetched f hf).1).2 column hcolumn
      exact (checked_fetchedItem hidentifier).mpr (hkeys f hf)

theorem checked_select_iff_items (hg : g.Constructed) (hq : q.From g) {c : Condition}
    (hc : c.From g) : Checked (q.select c).words ↔ ∀ i ∈ q.items, Checked i.words := by
  have htable := (hg.named _ hq.root).1
  have hjoins : ∀ j ∈ q.joins, Checked j.words := by
    intro j hj
    obtain ⟨hentity, owner, howner, key, hvia⟩ := hq.joins j hj
    obtain ⟨target, link⟩ := hg.link howner hvia
    have htarget := EntityGraph.mem_of_entity?_eq_ok link.found
    exact checked_leftJoin.mpr ⟨(hg.named _ hentity).1,
      (hg.named _ htarget).2 _ link.remoteColumn, (hg.named _ howner).2 _ link.localColumn⟩
  have hcondition : Checked c.words :=
    (checked_condition c).mpr fun column hcolumn => (hc column hcolumn).isIdentifier hg
  rw [checked_select]
  exact and_iff_left ⟨htable, hjoins, hcondition⟩

/-- What the words of a rendered statement are: names that are identifiers, if the keys of the
fetches are, and else fixed ones only. -/
theorem statement_names (hg : g.Constructed) {entity : String}
    (hq : Query.start? g entity = .ok q) (steps : List Step) :
    ∀ run ∈ runSteps [] q steps, ∀ s, run.1 = .select s → spelled s.words = s.text ∧
      (Checked s.words ↔ ∀ f ∈ run.2.fetched, f.1 = "" ∨ Text.isIdentifier f.1 = true) := by
  intro run hrun s hs
  obtain ⟨c, hc, rfl⟩ := rendered_of_runSteps hg hq steps hrun hs
  have hfrom := (from_of_runSteps hg hq steps run hrun).2
  have fetches := fetches_of_runSteps hq steps run hrun
  rw [← fetches.ofRoot] at fetches
  exact ⟨Select.spelled_words _,
    (checked_select_iff_items hg hfrom hc).trans (checked_items hg hfrom fetches)⟩

theorem statement_names_catalog :
    ∃ q, Query.start? Catalog.graph "product" = .ok q ∧
      ∃ run ∈ runSteps [] q [.fetch "category", .root, .get 1 "name",
          .compare 2 (.contains "phone"), .distinct, .render 3],
        ∃ s, run.1 = .select s ∧ spelled s.words = s.text ∧ Checked s.words := by
  have start : Query.start? Catalog.graph "product" =
    .ok ⟨Catalog.graph, Catalog.product, [], [], false, 0⟩ := rfl
  refine ⟨_, start, _, List.mem_of_getElem? (i := 5) rfl, _, rfl, ?_⟩
  obtain ⟨hspelled, hchecked⟩ := statement_names Catalog.graph_constructed start
    [.fetch "category", .root, .get 1 "name", .compare 2 (.contains "phone"), .distinct, .render 3]
    _ (List.mem_of_getElem? (i := 5) rfl) _ rfl
  exact ⟨hspelled, hchecked.mpr (by decide)⟩

end Scripts

/-! ## A key that is no identifier -/

theorem mem_spelled {w : Word} {c : Char} (hc : c ∈ w.spelling.toList) : ∀ {words : List Word},
    w ∈ words → c ∈ (spelled words).toList := by
  intro words
  induction words with
  | nil => intro hw; cases hw
  | cons first rest ih =>
      intro hw
      rw [spelled, String.toList_append, List.mem_append]
      rcases List.mem_cons.mp hw with rfl | hw
      · exact Or.inl hc
      · exact Or.inr (ih hw)

theorem hyphen_not_mem_spelled : ∀ {words : List Word}, Checked words →
    '-' ∉ (spelled words).toList := by
  intro words
  induction words with
  | nil => intro _; simp [spelled]
  | cons w rest ih =>
      intro checked
      rw [spelled, String.toList_append, List.mem_append, not_or]
      refine ⟨?_, ih fun text htext => checked text (List.mem_cons_of_mem _ htext)⟩
      cases w with
      | keyword k =>
          cases k with
          | connective c => cases c <;> decide
          | _ => decide
      | mark m => cases m <;> decide
      | placeholder => decide
      | name text =>
          intro hyphen
          exact absurd (isIdentifierChar_of_mem (checked text List.mem_cons_self) '-' hyphen)
            (by decide)

/-- Products with a category, under a key that is not the relationship's name. -/
def hyphenated : EntityGraph :=
  ⟨[⟨"product", "products", ["id", "category_id"],
      [("main-category", ⟨"main_category", "category", "category_id", "id", false⟩)]⟩,
    ⟨"category", "categories", ["id"], []⟩]⟩

theorem hyphenated_constructed : hyphenated.Constructed :=
  EntityGraph.constructed_of_checks (by decide) (by decide)

/-- The key reaches the statement, which then is no row of fixed words and identifiers at all. -/
theorem key_reaches_statement :
    hyphenated.Constructed ∧ ∃ q, Query.start? hyphenated "product" = .ok q ∧
      ∃ run ∈ runSteps [] q [.fetch "main-category", .truth, .render 1],
        ∃ s, run.1 = .select s ∧ ¬ Checked s.words ∧
          ∀ words, spelled words = s.text → ¬ Checked words := by
  have unchecked : ∀ s : Select, .name (labelOf "main-category" "id") ∈ s.words →
      ¬ Checked s.words ∧ ∀ words, spelled words = s.text → ¬ Checked words := by
    intro s label
    have hyphen : '-' ∈ (spelled s.words).toList := mem_spelled (by decide) label
    refine ⟨fun checked => hyphen_not_mem_spelled checked hyphen, ?_⟩
    intro words hspelled checked
    rw [s.spelled_words, ← hspelled] at hyphen
    exact hyphen_not_mem_spelled checked hyphen
  refine ⟨hyphenated_constructed, _, rfl, _, List.mem_of_getElem? (i := 2) rfl, _, rfl, ?_⟩
  exact unchecked _ (List.mem_of_getElem? (i := 18) rfl)

end CatalogSearch.Sql
