import CatalogSearch.Proofs.Catalog.Graph
import CatalogSearch.Proofs.Sql.Names

/-!
# Aliases

Every alias of a query is declared once, by the table it selects from or by one join, and is used
only after that.  Main statement: `aliases_declared_before_use`, for every script on a query of a
constructed graph.

Joins and fetches take their aliases from one counter.  So the numbers of the aliases declared are
those from zero on (`Query.Grown`), and two aliases with one text would have one number.
-/

set_option autoImplicit false

namespace CatalogSearch.Sql

open Criteria

/-! ## Numbers of aliases -/

def Alias.number : Alias → Nat
  | .root => 0
  | .joined number => number
  | .fetched number => number

theorem Alias.toList_text (qualifier : Alias) :
    ∃ letter, qualifier.text.toList = letter :: Nat.toDigits 10 qualifier.number := by
  cases qualifier with
  | root => exact ⟨'t', rfl⟩
  | joined number => exact ⟨'t', by simp [Alias.text, Alias.number]⟩
  | fetched number => exact ⟨'f', by simp [Alias.text, Alias.number]⟩

theorem Alias.number_eq_of_text_eq {first second : Alias} (h : first.text = second.text) :
    first.number = second.number := by
  obtain ⟨letter, hfirst⟩ := first.toList_text
  obtain ⟨letter', hsecond⟩ := second.toList_text
  rw [h, hsecond] at hfirst
  have hdigits : Nat.toDigits 10 first.number = Nat.toDigits 10 second.number :=
    (List.cons.inj hfirst).2.symm
  calc
    first.number = Nat.ofDigitChars 10 (Nat.toDigits 10 first.number) 0 :=
      Nat.ofDigitChars_ten_toDigits.symm
    _ = Nat.ofDigitChars 10 (Nat.toDigits 10 second.number) 0 := by rw [hdigits]
    _ = second.number := Nat.ofDigitChars_ten_toDigits

/-! ## What is declared -/

/-- The tables of a statement: the one that it selects from, and then one for each join. -/
def declaredBy (root : Position) (joins : List LeftJoin) : List Position :=
  root :: joins.map LeftJoin.position

def Query.declared (q : Query) : List Position := declaredBy q.rootPosition q.joins

/-- The column is written with one of the aliases declared, and is of the entity that the alias
stands for. -/
def Column.DeclaredIn (c : Column) (declared : List Position) : Prop :=
  ∃ p ∈ declared, p.qualifier = c.qualifier ∧ c.name ∈ p.entity.columns ∧
    c.text = p.qualifier.text ++ "." ++ c.name

def LeftJoin.otherSide (j : LeftJoin) : Column := ⟨j.parent, j.via.localColumn⟩

/-- The join compares a column of the entity that it joins with a column declared before it, and
mentions nothing else. -/
structure LeftJoin.Scoped (j : LeftJoin) (before : List Position) : Prop where
  own : j.via.remoteColumn ∈ j.position.entity.columns
  other : j.otherSide.DeclaredIn before
  text : j.text = "LEFT JOIN " ++ j.position.entity.table ++ " " ++ j.position.qualifier.text ++
    " ON " ++ (j.position.qualifier.text ++ "." ++ j.via.remoteColumn) ++ " = " ++ j.otherSide.text

structure SelectItem.Scoped (i : SelectItem) (declared : List Position) : Prop where
  column : i.column.DeclaredIn declared
  text : i.text = i.column.text ++ (i.label.map (" AS " ++ ·)).getD ""

/-- The aliases are distinct as they are written, each join is scoped in what stands before it, and
the select list in the whole statement. -/
structure Scoped (from_ : Position) (joins : List LeftJoin) (items : List SelectItem) : Prop where
  root : from_.qualifier.text = "t0"
  aliases : ((declaredBy from_ joins).map fun p => p.qualifier.text).Nodup
  sides : ∀ (n : Nat) (j : LeftJoin), joins[n]? = some j →
    j.Scoped ((declaredBy from_ joins).take (n + 1))
  items : ∀ i ∈ items, i.Scoped (declaredBy from_ joins)

theorem Column.DeclaredIn.mono {c : Column} {declared declared' : List Position}
    (h : c.DeclaredIn declared) (grows : declared ⊆ declared') : c.DeclaredIn declared' := by
  obtain ⟨p, hp, hcolumn⟩ := h
  exact ⟨p, grows hp, hcolumn⟩

/-! ## How a query grows -/

/-- A query from the graph whose tables are numbered from zero, and each of whose joins and fetches
is of tables that it has. -/
structure Query.Grown (g : EntityGraph) (q : Query) : Prop extends Query.From g q where
  numbers : q.declared.map (fun p => p.qualifier.number) = List.range (q.joins.length + 1)
  sides : ∀ (n : Nat) (j : LeftJoin), q.joins[n]? = some j → j.Scoped (q.declared.take (n + 1))
  fetches : ∀ f ∈ q.fetched, f.2 ∈ q.declared

section Grown

variable {g : EntityGraph} {q : Query}

theorem declared_withJoin (q : Query) (parent : Alias) (via : Relationship)
    (position : Position) : (q.withJoin parent via position).declared = q.declared ++ [position] := by
  simp [Query.declared, declaredBy, Query.withJoin, Query.takeAlias, Query.rootPosition]

theorem declared_length (q : Query) : q.declared.length = q.joins.length + 1 := by
  simp [Query.declared, declaredBy]

theorem grown_of_start? {entity : String} (h : Query.start? g entity = .ok q) : q.Grown g := by
  have hfrom : q.From g := from_of_start? h
  obtain ⟨root, _, rfl⟩ := start?_eq_ok.mp h
  refine ⟨hfrom, ?_, by simp, by simp⟩
  simp [Query.declared, declaredBy, Query.rootPosition, Alias.number]

theorem Query.Grown.entity_mem (h : q.Grown g) : ∀ p ∈ q.declared, p.entity ∈ g.entities := by
  intro p hp
  rcases List.mem_cons.mp hp with rfl | hp
  · exact h.root
  · obtain ⟨j, hj, rfl⟩ := List.mem_map.mp hp
    exact (h.joins j hj).1

theorem Query.Grown.withJoin (h : q.Grown g) (hg : g.Constructed) {p : Position}
    (hp : p ∈ q.declared) {relationship : String} {via : Relationship} {target : Entity}
    (known : p.entity.relationship? relationship = .ok via)
    (found : q.graph.entity? via.target = .ok target) {qualifier : Alias}
    (next : qualifier.number = q.lastAlias + 1) :
    (q.withJoin p.qualifier via ⟨target, qualifier⟩).Grown g := by
  have hentity := h.entity_mem p hp
  obtain ⟨_, hfrom⟩ := h.toFrom.withJoin hentity known found p.qualifier qualifier
  have hdeclared := declared_withJoin q p.qualifier via ⟨target, qualifier⟩
  refine ⟨hfrom, ?_, ?_, ?_⟩
  · rw [hdeclared, List.map_append, h.numbers]
    simp [Query.withJoin, next, h.counted, List.range_succ]
  · intro n j hj
    rw [hdeclared]
    have hlength := declared_length q
    rcases Nat.lt_or_ge n q.joins.length with hlt | hge
    · -- An earlier join sees the tables that it saw before.
      have hold : q.joins[n]? = some j := by
        rwa [Query.withJoin, List.getElem?_append_left hlt] at hj
      rw [List.take_append_of_le_length (by omega)]
      exact h.sides n j hold
    · have hnew : n = q.joins.length ∧ j = ⟨⟨target, qualifier⟩, p.qualifier, via⟩ := by
        rw [Query.withJoin, List.getElem?_append_right hge, List.getElem?_singleton] at hj
        split at hj
        · exact ⟨by omega, (Option.some.inj hj).symm⟩
        · cases hj
      obtain ⟨rfl, rfl⟩ := hnew
      -- The new join compares with its parent, which is among the tables before it.
      obtain ⟨target', link⟩ := hg.link hentity (EntityGraph.relationship?_eq_ok.mp known)
      obtain rfl : target' = target :=
        Except.ok.inj (link.found.symm.trans (h.graph ▸ found))
      have hall : (q.declared ++ [(⟨target', qualifier⟩ : Position)]).take (q.joins.length + 1) =
          q.declared := by
        rw [← hlength, List.take_left']
        rfl
      rw [hall]
      exact ⟨link.remoteColumn, ⟨p, hp, rfl, link.localColumn, rfl⟩, rfl⟩
  · intro f hf
    rw [hdeclared]
    exact List.mem_append_left _ (h.fetches f hf)

theorem Query.Grown.withFetch (h : q.Grown g) (hg : g.Constructed) {relationship : String}
    {via : Relationship} {target : Entity}
    (known : q.root.relationship? relationship = .ok via)
    (found : q.graph.entity? via.target = .ok target) :
    (q.withFetch relationship via (q.nextPosition target .fetched)).Grown g := by
  have hroot : q.rootPosition ∈ q.declared := List.mem_cons_self
  have hfrom := h.toFrom.withFetch known found (.fetched (q.lastAlias + 1))
  have hjoined : (q.withJoin .root via (q.nextPosition target .fetched)).Grown g :=
    h.withJoin hg hroot known found rfl
  refine ⟨hfrom, hjoined.numbers, hjoined.sides, ?_⟩
  intro f hf
  have hdeclared := declared_withJoin q .root via (q.nextPosition target .fetched)
  change f.2 ∈ (q.withJoin .root via (q.nextPosition target .fetched)).declared
  rw [hdeclared]
  rcases List.mem_append.mp hf with hf | hf
  · exact List.mem_append_left _ (h.fetches f hf)
  · obtain rfl := List.mem_singleton.mp hf
    simp

theorem Query.Grown.items_scoped (h : q.Grown g) : ∀ i ∈ q.items, i.Scoped q.declared := by
  intro i hi
  rcases List.mem_append.mp hi with hi | hi
  · obtain ⟨name, hname, rfl⟩ := List.mem_map.mp hi
    exact ⟨⟨q.rootPosition, List.mem_cons_self, rfl, hname, rfl⟩, by simp [SelectItem.text]⟩
  · obtain ⟨⟨key, position⟩, hf, hi⟩ := List.mem_flatMap.mp hi
    obtain ⟨name, hname, rfl⟩ := List.mem_map.mp hi
    exact ⟨⟨position, h.fetches _ hf, rfl, hname, rfl⟩,
      by simp [SelectItem.text, String.append_assoc]⟩

theorem Query.Grown.statement_scoped (h : q.Grown g) : Scoped q.rootPosition q.joins q.items := by
  refine ⟨rfl, ?_, h.sides, h.items_scoped⟩
  have hnodup : (q.declared.map fun p => p.qualifier.number).Nodup := by
    rw [h.numbers]
    exact List.nodup_range
  have hpairs := List.pairwise_map.mp hnodup
  refine List.pairwise_map.mpr (hpairs.imp ?_)
  intro first second hne htext
  exact hne (Alias.number_eq_of_text_eq htext)

/-! ## Scripts -/

/-- What an outcome mentions is declared; a statement declares what it mentions itself. -/
def Outcome.Scoped (declared : List Position) : Outcome → Prop
  | .position p => p ∈ declared
  | .column c => c.DeclaredIn declared
  | .select s => Sql.Scoped s.from_ s.joins s.items
  | _ => True

theorem Outcome.Scoped.mono {declared declared' : List Position} {outcome : Outcome}
    (h : outcome.Scoped declared) (grows : declared ⊆ declared') : outcome.Scoped declared' := by
  cases outcome with
  | position p => exact grows h
  | column c => exact Column.DeclaredIn.mono h grows
  | select s => exact h
  | _ => trivial

theorem grown_of_effect (hg : g.Constructed) {outcomes : List Outcome} {step : Step}
    {outcome : Outcome} {q' : Query} (h : q.Grown g)
    (houtcomes : ∀ o ∈ outcomes, o.Scoped q.declared)
    (effect : Effect outcomes q step outcome q') :
    q'.Grown g ∧ q.declared ⊆ q'.declared ∧ outcome.Scoped q'.declared := by
  cases effect with
  | root => exact ⟨h, List.Subset.refl _, List.mem_cons_self⟩
  | @join _ _ p via target given known found =>
      have hdeclared := declared_withJoin q p.qualifier via (q.nextPosition target .joined)
      refine ⟨h.withJoin hg (houtcomes _ given) known found rfl, ?_, ?_⟩
      · rw [hdeclared]
        exact List.subset_append_left _ _
      · rw [hdeclared]
        exact List.mem_append_right _ (List.mem_singleton_self _)
  | get given known => exact ⟨h, List.Subset.refl _, _, houtcomes _ given, rfl, known, rfl⟩
  | @fetch _ via target fresh known toOne found =>
      have hdeclared := declared_withJoin q .root via (q.nextPosition target .fetched)
      refine ⟨h.withFetch hg known found, ?_, trivial⟩
      change q.declared ⊆ (q.withJoin .root via _).declared
      rw [hdeclared]
      exact List.subset_append_left _ _
  | distinct =>
      exact ⟨⟨⟨h.graph, h.counted, h.root, h.joins, h.fetched⟩, h.numbers, h.sides, h.fetches⟩,
        List.Subset.refl _, trivial⟩
  | compare given nonempty => exact ⟨h, List.Subset.refl _, trivial⟩
  | group given grouped => exact ⟨h, List.Subset.refl _, trivial⟩
  | truth => exact ⟨h, List.Subset.refl _, trivial⟩
  | render given => exact ⟨h, List.Subset.refl _, h.statement_scoped⟩
  | refused => exact ⟨h, List.Subset.refl _, trivial⟩
  | strayed stray =>
      have positions : ∀ p, .position p ∈ outcomes → p.entity ∈ g.entities := fun p hp =>
        h.entity_mem p (houtcomes _ hp)
      exact (not_stray hg positions h.toFrom stray).elim
  | dangling => exact ⟨h, List.Subset.refl _, trivial⟩

theorem grown_of_runSteps (hg : g.Constructed) (h : q.Grown g) (steps : List Step) :
    ∀ run ∈ runSteps [] q steps, run.2.Grown g ∧ run.1.Scoped run.2.declared := by
  have step : ∀ {outcomes q step outcome q'},
      q.Grown g ∧ (∀ o ∈ outcomes, Outcome.Scoped q.declared o) →
        Effect outcomes q step outcome q' →
          q'.Grown g ∧ ∀ o ∈ outcomes ++ [outcome], o.Scoped q'.declared := by
    intro outcomes q step outcome q' keeps effect
    obtain ⟨grown, houtcomes⟩ := keeps
    obtain ⟨grown', hdeclared, houtcome⟩ := grown_of_effect hg grown houtcomes effect
    refine ⟨grown', List.forall_mem_append.mpr ⟨?_, by simpa using houtcome⟩⟩
    intro o ho
    exact (houtcomes o ho).mono hdeclared
  intro run hrun
  obtain ⟨earlier, grown, houtcomes⟩ := runSteps_keeps
    (fun outcomes q => q.Grown g ∧ ∀ o ∈ outcomes, o.Scoped q.declared) step steps
    ⟨h, by simp⟩ run hrun
  exact ⟨grown, houtcomes run.1 (by simp)⟩

end Grown

/-- Whatever a script does to a query of a constructed graph, every alias is declared once and
before its use: by the joins, by the columns that the script is given, and by the select list of the
query and of the statements rendered from it. -/
theorem aliases_declared_before_use {g : EntityGraph} (hg : g.Constructed) {entity : String}
    {q : Query} (hq : Query.start? g entity = .ok q) (steps : List Step) :
    Scoped q.rootPosition q.joins q.items ∧ ∀ run ∈ runSteps [] q steps,
      Scoped run.2.rootPosition run.2.joins run.2.items ∧ run.1.Scoped run.2.declared := by
  have start : q.Grown g := grown_of_start? hq
  refine ⟨start.statement_scoped, ?_⟩
  intro run hrun
  obtain ⟨grown, hscoped⟩ := grown_of_runSteps hg start steps run hrun
  exact ⟨grown.statement_scoped, hscoped⟩

theorem aliases_declared_before_use_catalog :
    ∃ q, Query.start? Catalog.graph "product" = .ok q ∧
      Scoped q.rootPosition q.joins q.items ∧ ∀ run ∈ runSteps [] q
          [.root, .fetch "category", .join 0 "reviews", .fetch "category", .join 0 "supplier",
            .join 0 "category", .join 5 "department", .get 6 "name", .distinct, .truth, .render 9],
        Scoped run.2.rootPosition run.2.joins run.2.items ∧ run.1.Scoped run.2.declared := by
  have start : Query.start? Catalog.graph "product" =
    .ok ⟨Catalog.graph, Catalog.product, [], [], false, 0⟩ := rfl
  exact ⟨_, start, aliases_declared_before_use Catalog.graph_constructed start _⟩

end CatalogSearch.Sql
