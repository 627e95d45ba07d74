import CatalogSearch.Catalog.Search
import CatalogSearch.Proofs.Catalog.Graph
import CatalogSearch.Proofs.Sql.Like
import CatalogSearch.Proofs.Sql.Planned
import Mathlib.Algebra.GroupWithZero.Nat

/-!
# Placeholders

Main statement: `placeholders_aligned`.  In every condition and statement that a query over a
constructed graph gives, a percent sign starts a placeholder, and there are as many placeholders as
parameters; the parameters of a search are the values that the leaves of its predicate bind
(`boundValues`), from left to right.

`Marked n cs` says that `cs` has `n` placeholders and no other percent sign.  Marked texts append,
so that each constructor of a text adds the marks of its parts.
-/

set_option autoImplicit false

namespace CatalogSearch.Sql

open Criteria

/-! ## Marked texts -/

inductive Marked : Nat → List Char → Prop
  | nil : Marked 0 []
  | char {n : Nat} {c : Char} {cs : List Char} (plain : c ≠ '%') (rest : Marked n cs) :
      Marked n (c :: cs)
  | placeholder {n : Nat} {cs : List Char} (rest : Marked n cs) :
      Marked (n + 1) ('%' :: 's' :: cs)

theorem Marked.append {m n : Nat} {cs ds : List Char} (first : Marked m cs)
    (second : Marked n ds) : Marked (m + n) (cs ++ ds) := by
  induction first with
  | nil => simpa using second
  | char plain _ ih => exact .char plain ih
  | placeholder _ ih =>
      have h := Marked.placeholder ih
      rwa [Nat.add_right_comm] at h

theorem marked_of_plain : ∀ cs : List Char, '%' ∉ cs → Marked 0 cs := by
  intro cs
  induction cs with
  | nil => intro _; exact .nil
  | cons c rest ih =>
      intro h
      have hc : c ≠ '%' := fun e => h (by simp [e])
      exact .char hc (ih fun hrest => h (List.mem_cons_of_mem _ hrest))

def occurrences (part : List Char) : List Char → Nat
  | [] => 0
  | c :: rest => (if part <+: c :: rest then 1 else 0) + occurrences part rest

theorem Marked.occurrences_eq {n : Nat} {cs : List Char} (h : Marked n cs) :
    occurrences ['%', 's'] cs = n := by
  induction h with
  | nil => rfl
  | @char n c cs plain _ ih =>
      have hstart : ¬ ['%', 's'] <+: c :: cs := fun hp => plain (List.cons_prefix_cons.mp hp).1.symm
      rw [occurrences, if_neg hstart, ih, Nat.zero_add]
  | @placeholder n cs _ ih =>
      have hstart : ['%', 's'] <+: '%' :: 's' :: cs := ⟨cs, rfl⟩
      have hnext : ¬ ['%', 's'] <+: 's' :: cs := fun hp =>
        absurd (List.cons_prefix_cons.mp hp).1 (by decide)
      rw [occurrences, if_pos hstart, occurrences, if_neg hnext, ih, Nat.zero_add, Nat.add_comm]

theorem Marked.starts_placeholder {n : Nat} {cs : List Char} (h : Marked n cs) :
    ∀ {before after : List Char}, cs = before ++ '%' :: after → ∃ rest, after = 's' :: rest := by
  induction h with
  | nil => intro before after h; simp at h
  | char plain _ ih =>
      intro before after h
      rcases before with _ | ⟨c, before⟩
      · exact absurd (List.cons.inj h).1 plain
      · exact ih (List.cons.inj h).2
  | placeholder _ ih =>
      intro before after h
      rcases before with _ | ⟨c, _ | ⟨d, before⟩⟩
      · exact ⟨_, (List.cons.inj h).2.symm⟩
      · exact absurd (List.cons.inj (List.cons.inj h).2).1 (by decide)
      · exact ih (List.cons.inj (List.cons.inj h).2).2

/-! ## Texts -/

def MarkedText (n : Nat) (s : String) : Prop := Marked n s.toList

def PlainText (s : String) : Prop := '%' ∉ s.toList

instance (s : String) : Decidable (PlainText s) := inferInstanceAs (Decidable ('%' ∉ s.toList))

theorem MarkedText.append {m n : Nat} {s t : String} (first : MarkedText m s)
    (second : MarkedText n t) : MarkedText (m + n) (s ++ t) := by
  rw [MarkedText, String.toList_append]
  exact Marked.append first second

theorem PlainText.marked {s : String} (h : PlainText s) : MarkedText 0 s := marked_of_plain _ h

theorem PlainText.append {s t : String} (first : PlainText s) (second : PlainText t) :
    PlainText (s ++ t) := by
  rw [PlainText, String.toList_append]
  exact List.not_mem_append first second

theorem markedText_placeholder : MarkedText 1 placeholder := .placeholder .nil

theorem plainText_of_isIdentifier {s : String} (h : Text.isIdentifier s = true) : PlainText s := by
  intro hmem
  simp only [Text.isIdentifier] at h
  rcases hs : s.toList with _ | ⟨first, rest⟩
  · simp [hs] at hmem
  · rw [hs, Text.isIdentifierList, Bool.and_eq_true, List.all_eq_true] at h
    rw [hs] at hmem
    rcases List.mem_cons.mp hmem with hfirst | hrest
    · rw [← hfirst] at h
      exact absurd h.1 (by decide)
    · exact absurd (h.2 _ hrest) (by decide)

theorem markedText_joined {separator : String} (plain : PlainText separator) {ns : List Nat}
    {texts : List String} (h : List.Forall₂ MarkedText ns texts) :
    MarkedText ns.sum (joined separator texts) := by
  induction h with
  | nil => exact .nil
  | @cons n s ns texts hs hrest ih =>
      cases hrest with
      | nil => simpa [joined] using hs
      | cons hnext hothers =>
          rw [joined, List.sum_cons]
          · exact (hs.append plain.marked).append ih
          · simp

theorem markedTexts_of_plain : ∀ texts : List String, (∀ s ∈ texts, PlainText s) →
    List.Forall₂ MarkedText (texts.map fun _ => 0) texts := by
  intro texts
  induction texts with
  | nil => intro _; exact .nil
  | cons s rest ih =>
      intro h
      obtain ⟨hs, hrest⟩ := List.forall_mem_cons.mp h
      exact .cons hs.marked (ih hrest)

theorem plainText_joined {separator : String} (plain : PlainText separator) :
    ∀ texts : List String, (∀ s ∈ texts, PlainText s) → PlainText (joined separator texts) := by
  intro texts
  induction texts with
  | nil => intro _ hmem; simp [joined] at hmem
  | cons s rest ih =>
      intro h
      obtain ⟨hs, hrest⟩ := List.forall_mem_cons.mp h
      rcases rest with _ | ⟨t, others⟩
      · exact hs
      · exact (hs.append plain).append (ih hrest)

/-! ## Conditions -/

theorem markedText_testText {column : String} (plain : PlainText column) (c : Comparison) :
    MarkedText (testParameters c).length (testText column c) := by
  have word : ∀ s : String, PlainText s → MarkedText 0 s := fun s hs => hs.marked
  have before : ∀ s : String, PlainText s → MarkedText 0 (column ++ s) := fun s hs =>
    plain.marked.append hs.marked
  cases c with
  | equal v => exact (before " = " (by decide)).append markedText_placeholder
  | contains needle =>
      have hcolumn := ((word "LOWER(CAST(" (by decide)).append plain.marked).append
        (word " AS TEXT)) LIKE " (by decide))
      exact (hcolumn.append markedText_placeholder).append (word " ESCAPE '\\'" (by decide))
  | between lower upper =>
      exact (((before " BETWEEN " (by decide)).append markedText_placeholder).append
        (word " AND " (by decide))).append markedText_placeholder
  | atLeast v => exact (before " >= " (by decide)).append markedText_placeholder
  | atMost v => exact (before " <= " (by decide)).append markedText_placeholder
  | oneOf values =>
      have hmarks : List.Forall₂ MarkedText (values.map fun _ => 1)
          (values.map fun _ => placeholder) := by
        induction values with
        | nil => exact .nil
        | cons v rest ih => exact .cons markedText_placeholder ih
      have hlist := markedText_joined (by decide : PlainText ", ") hmarks
      have htext := ((before " IN (" (by decide)).append hlist).append (word ")" (by decide))
      simpa [testParameters, testText] using htext

mutual

theorem markedText_text (c : Condition) (plain : ∀ column ∈ c.columns, PlainText column.text) :
    MarkedText c.parameters.length c.text := by
  match c with
  | .truth => exact marked_of_plain _ (by decide)
  | .test column comparison =>
      exact markedText_testText (plain column (List.mem_singleton_self _)) comparison
  | .group connective operands =>
      have hoperands := markedTexts_textsOf operands plain
      have hseparator : PlainText (" " ++ connective.text ++ " ") := by
        cases connective <;> decide
      have hlist := markedText_joined hseparator hoperands
      have hopen : MarkedText 0 "(" := marked_of_plain _ (by decide)
      have hclose : MarkedText 0 ")" := marked_of_plain _ (by decide)
      have hgroup := (hopen.append hlist).append hclose
      simpa [Condition.parameters, parametersOf_eq_flatMap, List.length_flatMap, Condition.text]
        using hgroup

theorem markedTexts_textsOf (cs : List Condition)
    (plain : ∀ column ∈ Condition.columnsOf cs, PlainText column.text) :
    List.Forall₂ MarkedText (cs.map fun c => c.parameters.length) (Condition.textsOf cs) := by
  match cs with
  | [] => exact .nil
  | c :: rest =>
      obtain ⟨hc, hrest⟩ := List.forall_mem_append.mp plain
      exact .cons (markedText_text c hc) (markedTexts_textsOf rest hrest)

end

/-! ## Statements -/

section Statements

variable {g : EntityGraph} (hg : g.Constructed)
  (keys : ∀ e ∈ g.entities, ∀ entry ∈ e.relationships, Text.isIdentifier entry.1 = true)

theorem plainText_column {qualifier : Alias} {name : String}
    (h : Text.isIdentifier name = true) : PlainText (Column.mk qualifier name).text :=
  ((plainText_of_isIdentifier qualifier.isIdentifier_text).append (by decide)).append
    (plainText_of_isIdentifier h)

include hg

theorem markedText_condition {c : Condition} (h : c.From g) :
    MarkedText c.parameters.length c.text :=
  markedText_text c fun column hcolumn => plainText_column ((h column hcolumn).isIdentifier hg)

theorem plainText_leftJoin {q : Query} (hq : q.From g) {j : LeftJoin} (hj : j ∈ q.joins) :
    PlainText j.text := by
  obtain ⟨hentity, owner, howner, key, hvia⟩ := hq.joins j hj
  obtain ⟨target, link⟩ := hg.link howner hvia
  have htarget := EntityGraph.mem_of_entity?_eq_ok link.found
  have htable := plainText_of_isIdentifier (hg.named _ hentity).1
  have hqualifier := plainText_of_isIdentifier j.position.qualifier.isIdentifier_text
  have hremote : PlainText (Column.mk j.position.qualifier j.via.remoteColumn).text :=
    plainText_column ((hg.named _ htarget).2 _ link.remoteColumn)
  have hlocal : PlainText (Column.mk j.parent j.via.localColumn).text :=
    plainText_column ((hg.named _ howner).2 _ link.localColumn)
  have hstart : PlainText ("LEFT JOIN " ++ j.position.entity.table ++ " ") :=
    (PlainText.append (by decide) htable).append (by decide)
  exact ((((hstart.append hqualifier).append (by decide)).append hremote).append
    (by decide)).append hlocal

include keys

theorem plainText_item {q : Query} (hq : q.From g) {i : SelectItem} (hi : i ∈ q.items) :
    PlainText i.text := by
  rcases List.mem_append.mp hi with hi | hi
  · obtain ⟨name, hname, rfl⟩ := List.mem_map.mp hi
    exact plainText_column ((hg.named _ hq.root).2 name hname)
  · obtain ⟨⟨key, position⟩, hf, hi⟩ := List.mem_flatMap.mp hi
    obtain ⟨name, hname, rfl⟩ := List.mem_map.mp hi
    obtain ⟨hentity, via, hvia⟩ := hq.fetched _ hf
    have hkey : Text.isIdentifier key = true := keys _ hq.root _ (mem_of_lookup hvia)
    have hname := (hg.named _ hentity).2 name hname
    have hlabel : PlainText (key ++ "__" ++ name) :=
      ((plainText_of_isIdentifier hkey).append (by decide)).append (plainText_of_isIdentifier hname)
    exact ((plainText_column hname).append (by decide)).append hlabel

theorem markedText_select {q : Query} {c : Condition} (hq : q.From g) (hc : c.From g) :
    MarkedText (q.select c).parameters.length (q.select c).text := by
  -- Items, tables and joins are made of identifiers and have no marks: all are those of WHERE.
  have hitem : ∀ s ∈ q.items.map SelectItem.text, PlainText s := by
    intro s hs
    obtain ⟨i, hi, rfl⟩ := List.mem_map.mp hs
    exact plainText_item hg keys hq hi
  have hjoins : ∀ s ∈ q.joins.map LeftJoin.text, PlainText s := by
    intro s hs
    obtain ⟨j, hj, rfl⟩ := List.mem_map.mp hs
    exact plainText_leftJoin hg hq hj
  have htable := plainText_of_isIdentifier (hg.named _ hq.root).1
  have hfrom : PlainText ("FROM " ++ q.root.table ++ " " ++ Alias.root.text) :=
    ((PlainText.append (by decide) htable).append (by decide)).append (by decide)
  have hselect : PlainText (if q.distinct then "SELECT DISTINCT" else "SELECT") := by
    split <;> decide
  have hwhere : List.Forall₂ MarkedText (if c.isTruth then [] else [c.parameters.length])
      (Select.whereText c) := by
    rw [Select.whereText]
    split
    · exact .nil
    · have hword : PlainText "WHERE " := by decide
      have hcondition := hword.marked.append (markedText_condition hg hc)
      rw [Nat.zero_add] at hcondition
      exact .cons hcondition .nil
  have hitems := plainText_joined (by decide : PlainText ", ") _ hitem
  have hplain : ∀ s ∈ [if q.distinct then "SELECT DISTINCT" else "SELECT",
      joined ", " (q.items.map SelectItem.text),
      "FROM " ++ q.root.table ++ " " ++ Alias.root.text] ++ q.joins.map LeftJoin.text,
      PlainText s := by
    refine List.forall_mem_append.mpr ⟨?_, hjoins⟩
    simp only [List.forall_mem_cons, List.not_mem_nil, false_implies, implies_true, and_true]
    exact ⟨hselect, hitems, hfrom⟩
  have htext := markedText_joined (by decide : PlainText " ")
    (List.rel_append (markedTexts_of_plain _ hplain) hwhere)
  have hmarks : (if c.isTruth then [] else [c.parameters.length]).sum = c.parameters.length := by
    cases c <;> simp [Condition.isTruth, Condition.parameters]
  have hzero : ∀ texts : List String, (texts.map fun _ => 0).sum = 0 := by simp
  rw [List.sum_append, hzero, Nat.zero_add, hmarks] at htext
  exact htext

end Statements

/-! ## Values -/

/-- A needle with a backslash before whatever a pattern would not read as itself. -/
def literally (needle : List Char) : List Char :=
  needle.flatMap fun c => if c = '\\' ∨ c = '%' ∨ c = '_' then ['\\', c] else [c]

/-- The values that a comparison binds, in the order of its placeholders. -/
def boundValues : Comparison → List Value
  | .equal v | .atLeast v | .atMost v => [v]
  | .between lower upper => [lower, upper]
  | .oneOf values => values
  | .contains needle => [.text (String.ofList ('%' :: (literally needle.toList ++ ['%'])))]

theorem escapeLike_eq (needle : List Char) : escapeLike needle = literally needle := by
  induction needle with
  | nil => rfl
  | cons c rest ih =>
      rw [escapeLike_cons, ih, literally, literally, List.flatMap_cons]
      split <;> rfl

theorem testParameters_eq (c : Comparison) : testParameters c = boundValues c := by
  cases c with
  | contains needle =>
      rw [testParameters, containsPattern, escapeLike_eq]
      rfl
  | _ => rfl

/-! ## Alignment -/

/-- The placeholders of a text are its percent signs, and each has its parameter. -/
structure Aligned (text : String) (parameters : List Value) : Prop where
  starts : ∀ before after, text.toList = before ++ '%' :: after → ∃ rest, after = 's' :: rest
  count : occurrences ['%', 's'] text.toList = parameters.length

theorem MarkedText.aligned {text : String} {parameters : List Value}
    (h : MarkedText parameters.length text) : Aligned text parameters where
  starts _ _ hsplit := h.starts_placeholder hsplit
  count := h.occurrences_eq

/-- Over a graph whose relationships stand under identifiers: what a script or a search gives has as
many parameters as placeholders, and no other percent sign; the parameters of a search are the
values of the leaves of its predicate. -/
theorem placeholders_aligned {g : EntityGraph} (hg : g.Constructed)
    (keys : ∀ e ∈ g.entities, ∀ entry ∈ e.relationships, Text.isIdentifier entry.1 = true) :
    (∀ entity q, Query.start? g entity = .ok q → ∀ steps, ∀ run ∈ runSteps [] q steps,
      (∀ c, run.1 = .condition c → Aligned c.text c.parameters) ∧
      ∀ s, run.1 = .select s → Aligned s.text s.parameters) ∧
    ∀ cache i entity eager s, (buildQuery cache i g entity eager).result = .ok s →
      Aligned s.text s.parameters ∧
      ∃ criteria, (compile cache i).result = .ok criteria ∧
        criteria.predicate.leaves.map Prod.fst = criteria.predicate.paths ∧
        s.parameters = criteria.predicate.leaves.flatMap fun leaf => boundValues leaf.2 := by
  constructor
  · intro entity q hq steps run hrun
    have hfrom := (from_of_runSteps hg hq steps run hrun).1
    constructor
    · intro c hc
      rw [hc] at hfrom
      exact (markedText_condition hg hfrom).aligned
    · intro s hs
      rw [hs] at hfrom
      obtain ⟨q', c, hq', hc, rfl⟩ := hfrom
      exact (markedText_select hg keys hq' hc).aligned
  · intro cache i entity eager s hs
    obtain ⟨criteria, q, c, q', hcriteria, hq, hto, rfl⟩ := from_of_buildQuery hg hs
    obtain ⟨hc, hq'⟩ := from_of_toExpression hg hq hto
    -- The condition is the planned one, whose parameters are told by the leaves alone.
    obtain ⟨hshaped, columnAt, _, hplanned⟩ := toExpression_planned hto
    have hleaves := map_fst_leaves _ hshaped
    have hparameters := parameters_planned columnAt criteria.predicate
    simp only [← hplanned, testParameters_eq] at hparameters
    exact ⟨(markedText_select hg keys hq' hc).aligned, criteria, hcriteria, hleaves, hparameters⟩

theorem placeholders_aligned_catalog :
    (∀ e ∈ Catalog.graph.entities, ∀ entry ∈ e.relationships,
      Text.isIdentifier entry.1 = true) ∧
    (∀ run ∈ runSteps [] ⟨Catalog.graph, Catalog.product, [], [], false, 0⟩
        [.root, .get 0 "name", .compare 1 (.contains "50%_off"), .get 0 "status",
          .compare 3 (.oneOf [.text "active", .text "%s"]), .group .any [2, 4], .render 5],
      ∀ s, run.1 = .select s → Aligned s.text s.parameters) ∧
    ∃ s, (Catalog.productQuery [("term", .text "50%_Off"),
        ("price_range", .range (some (.int 1)) (some (.int 9))),
        ("status_list", .list [.text "active", .text "%s"])] true).result = .ok s ∧
      Aligned s.text s.parameters ∧
      s.parameters = [.text "%50\\%\\_off%", .text "%50\\%\\_off%", .int 1, .int 9, .text "active",
        .text "%s"] := by
  have keys : ∀ e ∈ Catalog.graph.entities, ∀ entry ∈ e.relationships,
      Text.isIdentifier entry.1 = true := by decide
  obtain ⟨scripts, searches⟩ := placeholders_aligned Catalog.graph_constructed keys
  have found : ∃ s, (Catalog.productQuery [("term", .text "50%_Off"),
      ("price_range", .range (some (.int 1)) (some (.int 9))),
      ("status_list", .list [.text "active", .text "%s"])] true).result = .ok s := ⟨_, rfl⟩
  obtain ⟨s, hs⟩ := found
  obtain ⟨aligned, criteria, compiled, -, parameters⟩ := searches _ _ _ _ s hs
  obtain rfl := Except.ok.inj compiled
  exact ⟨keys, fun run hrun => (scripts "product" _ rfl _ run hrun).2, s, hs, aligned, parameters⟩

end CatalogSearch.Sql
