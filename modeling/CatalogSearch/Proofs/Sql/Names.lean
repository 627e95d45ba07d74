import CatalogSearch.Proofs.Criteria.Correspondence
import CatalogSearch.Proofs.Sql.Script

/-!
# Where the names in a statement come from

A query over a graph takes its entities, relationships and columns from the graph, whatever a
script does to it (`from_of_runSteps`) or a translation or search makes of it
(`from_of_toExpression`, `from_of_buildQuery`).  The tables and columns of a constructed graph are
identifiers (`Constructed.named`).
-/

set_option autoImplicit false

namespace CatalogSearch.Sql

open Criteria

/-! ## Columns of conditions -/

namespace Condition

mutual

def columns : Condition → List Column
  | .truth => []
  | .test column _ => [column]
  | .group _ operands => columnsOf operands

def columnsOf : List Condition → List Column
  | [] => []
  | c :: rest => c.columns ++ columnsOf rest

end

theorem columnsOf_eq_flatMap : ∀ cs : List Condition, columnsOf cs = cs.flatMap columns := by
  intro cs
  induction cs with
  | nil => rfl
  | cons c rest ih => rw [columnsOf, ih, List.flatMap_cons]

theorem columns_gathered (connective : Connective) (cs : List Condition) :
    (gathered connective cs).columns = cs.flatMap columns := by
  rcases cs with _ | ⟨first, _ | ⟨second, rest⟩⟩
  · rfl
  · simp [gathered]
  · simp only [gathered, columns, columnsOf_eq_flatMap]

end Condition

/-! ## Queries over a graph -/

/-- All that a query holds is from the graph, and it took an alias for each of its joins. -/
structure Query.From (g : EntityGraph) (q : Query) : Prop where
  graph : q.graph = g
  counted : q.lastAlias = q.joins.length
  root : q.root ∈ g.entities
  joins : ∀ j ∈ q.joins, j.position.entity ∈ g.entities ∧
    ∃ owner ∈ g.entities, ∃ key, owner.relationships.lookup key = some j.via
  fetched : ∀ f ∈ q.fetched, f.2.entity ∈ g.entities ∧
    ∃ via, q.root.relationships.lookup f.1 = some via

def Column.From (g : EntityGraph) (c : Column) : Prop := ∃ e ∈ g.entities, c.name ∈ e.columns

def Condition.From (g : EntityGraph) (c : Condition) : Prop :=
  ∀ column ∈ c.columns, column.From g

def Select.From (g : EntityGraph) (s : Select) : Prop :=
  ∃ (q : Query) (c : Condition), q.From g ∧ c.From g ∧ s = q.select c

def Outcome.From (g : EntityGraph) : Outcome → Prop
  | .position p => p.entity ∈ g.entities
  | .column c => c.From g
  | .condition c => c.From g
  | .select s => s.From g
  | _ => True

section From

variable {g : EntityGraph} {q : Query}

theorem from_of_start? {entity : String} (h : Query.start? g entity = .ok q) : q.From g := by
  obtain ⟨root, hroot, rfl⟩ := start?_eq_ok.mp h
  exact ⟨rfl, rfl, EntityGraph.mem_of_entity?_eq_ok hroot, by simp, by simp⟩

theorem not_missing (hg : g.Constructed) (h : q.From g) {owner : Entity}
    (howner : owner ∈ g.entities) {relationship : String} {via : Relationship} {x : SchemaError}
    (known : owner.relationship? relationship = .ok via) :
    q.graph.entity? via.target ≠ .error x := by
  obtain ⟨target, link⟩ := hg.link howner (EntityGraph.relationship?_eq_ok.mp known)
  rw [h.graph, link.found]
  simp

theorem Query.From.withJoin (h : q.From g) {owner target : Entity} (howner : owner ∈ g.entities)
    {relationship : String} {via : Relationship}
    (known : owner.relationship? relationship = .ok via)
    (found : q.graph.entity? via.target = .ok target) (parent qualifier : Alias) :
    target ∈ g.entities ∧ (q.withJoin parent via ⟨target, qualifier⟩).From g := by
  have htarget : target ∈ g.entities :=
    EntityGraph.mem_of_entity?_eq_ok (h.graph ▸ found)
  have hvia := EntityGraph.relationship?_eq_ok.mp known
  refine ⟨htarget, h.graph, by simp [Query.withJoin, Query.takeAlias, h.counted], h.root, ?_,
    h.fetched⟩
  intro j hj
  rcases List.mem_append.mp hj with hj | hj
  · exact h.joins j hj
  · obtain rfl := List.mem_singleton.mp hj
    exact ⟨htarget, owner, howner, relationship, hvia⟩

theorem Query.From.withFetch (h : q.From g) {target : Entity} {relationship : String}
    {via : Relationship} (known : q.root.relationship? relationship = .ok via)
    (found : q.graph.entity? via.target = .ok target) (qualifier : Alias) :
    (q.withFetch relationship via ⟨target, qualifier⟩).From g := by
  obtain ⟨htarget, hjoined⟩ := h.withJoin h.root known found .root qualifier
  refine ⟨h.graph, hjoined.counted, h.root, hjoined.joins, ?_⟩
  intro f hf
  rcases List.mem_append.mp hf with hf | hf
  · exact h.fetched f hf
  · obtain rfl := List.mem_singleton.mp hf
    exact ⟨htarget, via, EntityGraph.relationship?_eq_ok.mp known⟩

theorem from_of_group? {connective : Connective} {cs : List Condition} {c : Condition}
    (hcs : ∀ c ∈ cs, c.From g) (h : Condition.group? connective cs = .ok c) : c.From g := by
  obtain ⟨_, rfl⟩ := group?_eq_ok.mp h
  intro column hcolumn
  rw [Condition.columns_gathered] at hcolumn
  obtain ⟨operand, hoperand, hcolumn⟩ := List.mem_flatMap.mp hcolumn
  exact hcs operand hoperand column hcolumn

/-! ## Scripts -/

theorem not_stray (hg : g.Constructed) {outcomes : List Outcome} {step : Step} {x : SchemaError}
    (positions : ∀ p, .position p ∈ outcomes → p.entity ∈ g.entities) (h : q.From g) :
    ¬ Stray outcomes q step x := by
  intro stray
  cases stray with
  | join given known missing => exact not_missing hg h (positions _ given) known missing
  | fetch known missing => exact not_missing hg h h.root known missing

theorem from_of_effect (hg : g.Constructed) {outcomes : List Outcome} {step : Step}
    {outcome : Outcome} {q' : Query} (houtcomes : ∀ o ∈ outcomes, o.From g) (h : q.From g)
    (effect : Effect outcomes q step outcome q') : outcome.From g ∧ q'.From g := by
  cases effect with
  | root => exact ⟨h.root, h⟩
  | join given known found => exact h.withJoin (houtcomes _ given) known found _ _
  | get given known => exact ⟨⟨_, houtcomes _ given, known⟩, h⟩
  | fetch fresh known toOne found => exact ⟨trivial, h.withFetch known found _⟩
  | distinct => exact ⟨trivial, h.graph, h.counted, h.root, h.joins, h.fetched⟩
  | compare given nonempty =>
      refine ⟨fun column hcolumn => ?_, h⟩
      obtain rfl := List.mem_singleton.mp hcolumn
      exact houtcomes _ given
  | group given grouped => exact ⟨from_of_group? (fun c hc => houtcomes _ (given c hc)) grouped, h⟩
  | truth => exact ⟨by simp [Outcome.From, Condition.From, Condition.columns], h⟩
  | render given => exact ⟨⟨q, _, h, houtcomes _ given, rfl⟩, h⟩
  | refused => exact ⟨trivial, h⟩
  | strayed stray => exact (not_stray hg (fun _ hp => houtcomes _ hp) h stray).elim
  | dangling => exact ⟨trivial, h⟩

/-- Each run of a script is the effect of its step on a query from the graph, after outcomes that
are from it too. -/
theorem effects_from (hg : g.Constructed) {entity : String} (h : Query.start? g entity = .ok q)
    (steps : List Step) :
    ∀ run ∈ runSteps [] q steps, ∃ earlier before step,
      ((∀ o ∈ earlier, o.From g) ∧ before.From g) ∧ Effect earlier before step run.1 run.2 := by
  have start : (∀ o ∈ ([] : List Outcome), o.From g) ∧ q.From g := ⟨by simp, from_of_start? h⟩
  have step : ∀ {outcomes q step outcome q'},
      (∀ o ∈ outcomes, Outcome.From g o) ∧ Query.From g q → Effect outcomes q step outcome q' →
        (∀ o ∈ outcomes ++ [outcome], o.From g) ∧ q'.From g := by
    rintro outcomes q step outcome q' ⟨houtcomes, hq⟩ effect
    obtain ⟨houtcome, hq'⟩ := from_of_effect hg houtcomes hq effect
    exact ⟨List.forall_mem_append.mpr ⟨houtcomes, by simpa using houtcome⟩, hq'⟩
  exact runSteps_effects _ step steps start

theorem from_of_runSteps (hg : g.Constructed) {entity : String} (h : Query.start? g entity = .ok q)
    (steps : List Step) : ∀ run ∈ runSteps [] q steps, run.1.From g ∧ run.2.From g := by
  intro run hrun
  obtain ⟨_, _, _, ⟨houtcomes, hq⟩, effect⟩ := effects_from hg h steps run hrun
  exact from_of_effect hg houtcomes hq effect

theorem rendered_of_runSteps (hg : g.Constructed) {entity : String}
    (h : Query.start? g entity = .ok q) (steps : List Step) {run : Outcome × Query}
    (hrun : run ∈ runSteps [] q steps) {s : Select} (hs : run.1 = .select s) :
    ∃ c, c.From g ∧ s = run.2.select c := by
  obtain ⟨_, _, _, ⟨houtcomes, _⟩, effect⟩ := effects_from hg h steps run hrun
  rw [hs] at effect
  obtain ⟨c, hc, rfl⟩ := effect.rendered
  exact ⟨c, houtcomes _ hc, rfl⟩

/-! ## Translations and searches -/

theorem alike_self {α : Type} {Holds : Query → Prop} {Given : α → Prop}
    {run : Except QueryError α × Query} (holds : Holds run.2)
    (given : ∀ a, run.1 = .ok a → Given a) :
    Alike (fun q q' => q = q' ∧ Holds q) (fun a b => a = b ∧ Given a) run run := by
  rcases run with ⟨x | a, q⟩
  · exact ⟨rfl, rfl, holds⟩
  · exact ⟨⟨rfl, given a rfl⟩, rfl, holds⟩

theorem forall_from_of_forall₂ {cs ds : List Condition}
    (h : List.Forall₂ (fun c d => c = d ∧ c.From g) cs ds) : cs = ds ∧ ∀ c ∈ cs, c.From g := by
  induction h with
  | nil => simp
  | cons hcd _ ih =>
      obtain ⟨rfl, hc⟩ := hcd
      obtain ⟨rfl, hrest⟩ := ih
      exact ⟨rfl, List.forall_mem_cons.mpr ⟨hc, hrest⟩⟩

def fromCorrespondence (hg : g.Constructed) {root : Position} (hroot : root.entity ∈ g.entities) :
    Correspondence (sqlEngine root) (sqlEngine root) where
  State q q' := q = q' ∧ q.From g
  Place p p' := p = p' ∧ p.entity ∈ g.entities
  Name c c' := c = c' ∧ c.From g
  Term c c' := c = c' ∧ c.From g
  root := ⟨rfl, hroot⟩
  isNull _ := rfl
  join := by
    rintro q _ p _ name ⟨rfl, hq⟩ ⟨rfl, hp⟩
    rcases known : p.entity.relationship? name with x | via
    · simp only [sqlEngine, join_of_unknown known]
      exact alike_self hq (by simp)
    · rcases found : q.graph.entity? via.target with x | target
      · exact (not_missing hg hq hp known found).elim
      · obtain ⟨htarget, hq'⟩ := hq.withJoin hp known found p.qualifier _
        simp only [sqlEngine, join_of_known known, leftJoin_of_found found]
        refine alike_self hq' fun position hposition => ?_
        obtain rfl := Except.ok.inj hposition
        exact htarget
  get := by
    rintro q _ p _ name ⟨rfl, hq⟩ ⟨rfl, hp⟩
    refine alike_self hq ?_
    intro c hc
    rcases hcolumn : p.column? name with x | column
    · simp [sqlEngine, columnCall, hcolumn, Except.mapError] at hc
    · obtain ⟨hmem, rfl⟩ := position_column?_eq_ok.mp hcolumn
      simp only [sqlEngine, columnCall, hcolumn, Except.mapError, Except.ok.injEq] at hc
      exact hc ▸ ⟨p.entity, hp, hmem⟩
  compare := by
    rintro q _ a _ comparison ⟨rfl, hq⟩ ⟨rfl, ha⟩
    refine alike_self hq ?_
    intro c hc column hcolumn
    obtain ⟨_, rfl⟩ := compare?_eq_ok.mp hc
    obtain rfl := List.mem_singleton.mp hcolumn
    exact ha
  all := by
    rintro q _ cs _ ⟨rfl, hq⟩ h
    obtain ⟨rfl, hcs⟩ := forall_from_of_forall₂ h
    exact alike_self hq fun c hc => from_of_group? hcs hc
  any := by
    rintro q _ cs _ ⟨rfl, hq⟩ h
    obtain ⟨rfl, hcs⟩ := forall_from_of_forall₂ h
    exact alike_self hq fun c hc => from_of_group? hcs hc
  truth := by
    rintro q _ ⟨rfl, hq⟩
    exact ⟨⟨rfl, by simp [Condition.From, Condition.columns]⟩, rfl, hq⟩

theorem from_of_toExpression (hg : g.Constructed) {p : Predicate} {q' : Query} {c : Condition}
    (h : q.From g)
    (hto : toExpression (sqlEngine q.rootPosition) p q = (.ok c, q')) :
    c.From g ∧ q'.From g := by
  have hroot : q.rootPosition.entity ∈ g.entities := h.root
  have alike := (fromCorrespondence hg hroot).toExpression_alike p ⟨(rfl : q = q), h⟩
  rw [hto] at alike
  exact ⟨alike.1.2, alike.2.2⟩

theorem from_of_applyHints (hg : g.Constructed) {root : Position} :
    ∀ (names : List String) {q : Query}, q.From g →
      (applyHints (sqlEngine root) names q).engine.From g ∧
        (applyHints (sqlEngine root) names q).engine.root = q.root := by
  intro names
  induction names with
  | nil => intro q h; exact ⟨h, rfl⟩
  | cons name rest ih =>
      intro q h
      have ends := ends_fetch q name
      simp only [applyHints, sqlEngine]
      rcases hfetch : Query.fetch name q with ⟨x | _, q'⟩
      · rw [hfetch] at ends
        rcases ends with rfl | ⟨via, y, known, missing⟩
        · exact ih h
        · exact (not_missing hg h h.root known missing).elim
      · rw [hfetch] at ends
        obtain ⟨via, target, _, known, _, found, rfl⟩ := ends
        exact ih (h.withFetch known found _)

theorem from_of_markDistinct {root : Position} {applied : Bool} {q' : Query} (h : q.From g)
    (hmark : markDistinct (sqlEngine root) applied q = (.ok (), q')) :
    q'.From g ∧ q'.root = q.root := by
  rcases applied with _ | _
  · obtain ⟨_, rfl⟩ := Prod.mk.inj hmark
    exact ⟨h, rfl⟩
  · obtain ⟨_, rfl⟩ := Prod.mk.inj hmark
    exact ⟨⟨h.graph, h.counted, h.root, h.joins, h.fetched⟩, rfl⟩

theorem from_of_buildQuery (hg : g.Constructed) {cache : IntentCache} {i : Instance}
    {entity : String} {eager : Bool} {s : Select}
    (h : (buildQuery cache i g entity eager).result = .ok s) :
    ∃ criteria q c q', (compile cache i).result = .ok criteria ∧ q.From g ∧
      toExpression (sqlEngine q.rootPosition) criteria.predicate q = (.ok c, q') ∧
      s = q'.select c := by
  unfold buildQuery at h
  rcases hstart : Query.start? g entity with x | q
  · simp [hstart] at h
  · simp only [hstart, build] at h
    rcases hcriteria : (compile cache i).result with x | criteria
    · simp [hcriteria, Except.mapError, Except.map] at h
    · simp only [hcriteria] at h
      rcases hrun : (buildCompiled (sqlEngine q.rootPosition) eager criteria q).1 with ⟨x | c, q'⟩
      · simp [hrun, Except.mapError, Except.map] at h
      · simp only [hrun, Except.mapError, Except.map, Except.ok.injEq] at h
        obtain ⟨_, marked, hmark, hto⟩ := Call.bind_eq_ok.mp hrun
        obtain ⟨hfetched, hroot⟩ :=
          @from_of_applyHints g hg q.rootPosition (if eager then criteria.hints else []) q
            (from_of_start? hstart)
        obtain ⟨hmarked, hroot'⟩ := from_of_markDistinct hfetched hmark
        have hposition : marked.rootPosition = q.rootPosition := by
          rw [Query.rootPosition, hroot', hroot, Query.rootPosition]
        refine ⟨criteria, marked, c, q', rfl, hmarked, ?_, h.symm⟩
        rwa [hposition]

end From

/-! ## Identifiers -/

theorem checkName_eq_ok {kind : NameKind} {name : String} (h : checkName kind name = .ok ()) :
    Text.isIdentifier name = true := by
  simp only [checkName] at h
  split at h
  · assumption
  · cases h

theorem checkNames_eq_ok {kind : NameKind} : ∀ names : List String,
    checkNames kind names = .ok () → ∀ name ∈ names, Text.isIdentifier name = true := by
  intro names
  induction names with
  | nil => intro _ name h; simp at h
  | cons first rest ih =>
      intro h
      obtain ⟨_, hfirst, hrest⟩ := except_bind_eq_ok.mp h
      exact List.forall_mem_cons.mpr ⟨checkName_eq_ok hfirst, ih hrest⟩

theorem EntityGraph.Constructed.named {g : EntityGraph} (hg : g.Constructed) :
    ∀ e ∈ g.entities, Text.isIdentifier e.table = true ∧
      ∀ column ∈ e.columns, Text.isIdentifier column = true := by
  obtain ⟨entities, hmade, hof⟩ := hg
  obtain ⟨_, _, hof⟩ := except_bind_eq_ok.mp hof
  obtain ⟨_, _, hof⟩ := except_bind_eq_ok.mp hof
  obtain rfl := Except.ok.inj hof
  intro e he
  obtain ⟨name, table, columns, relationships, hmake⟩ := hmade e he
  obtain ⟨_, _, hmake⟩ := except_bind_eq_ok.mp hmake
  obtain ⟨_, _, hmake⟩ := except_bind_eq_ok.mp hmake
  obtain ⟨_, htable, hmake⟩ := except_bind_eq_ok.mp hmake
  obtain ⟨_, hcolumns, hmake⟩ := except_bind_eq_ok.mp hmake
  obtain rfl := Except.ok.inj hmake
  exact ⟨checkName_eq_ok htable, checkNames_eq_ok columns hcolumns⟩

theorem Column.From.isIdentifier {g : EntityGraph} (hg : g.Constructed) {c : Column}
    (h : c.From g) : Text.isIdentifier c.name = true := by
  obtain ⟨e, he, hname⟩ := h
  exact (hg.named e he).2 c.name hname

theorem isIdentifierChar_of_isDigit {c : Char} (h : c.isDigit = true) :
    Text.isIdentifierChar c = true := by
  have hdigit : ('0' ≤ c && c ≤ '9') = true := h
  simp only [Text.isIdentifierChar, hdigit, Bool.or_true]

theorem isIdentifierList_cons_digits {first : Char} (hfirst : Text.isIdentifierStart first = true)
    (n : Nat) : Text.isIdentifierList (first :: (toString n).toList) = true := by
  have hdigits : ∀ c ∈ (toString n).toList, Text.isIdentifierChar c = true := by
    intro c hc
    have hmem : c ∈ Nat.toDigits 10 n := by rwa [← Nat.toList_repr]
    exact isIdentifierChar_of_isDigit
      (Nat.isDigit_of_mem_toDigits (by decide) (by decide) hmem)
  rw [Text.isIdentifierList, hfirst, Bool.true_and, List.all_eq_true]
  exact hdigits

theorem Alias.isIdentifier_text (qualifier : Alias) :
    Text.isIdentifier qualifier.text = true := by
  cases qualifier with
  | root => decide
  | joined number =>
      simp only [Text.isIdentifier, Alias.text, String.toList_append]
      exact isIdentifierList_cons_digits (by decide) number
  | fetched number =>
      simp only [Text.isIdentifier, Alias.text, String.toList_append]
      exact isIdentifierList_cons_digits (by decide) number

end CatalogSearch.Sql
