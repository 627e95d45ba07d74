import CatalogSearch.Proofs.Sql.EagerFetch
import CatalogSearch.Proofs.Sql.SearchMeaning

/-!
# The meaning of an eager search

A fetch that finds at most one row for each root row adds no row and drops none, but DISTINCT comes
with it.  Main statement: where the root table has a key, a search that fetches returns once each
root row that the plain search returns, however often that is (`SearchedBy.eager_copies`).
-/

set_option autoImplicit false

namespace CatalogSearch.Sql

open Criteria

/-! ## Shifted statements -/

section Shift

variable {V : Type}

def unshift (k : Nat) (scope : Scope V) : Scope V := fun qualifier => scope (qualifier.shift k)

theorem Alias.shift_injective (k : Nat) : Function.Injective (Alias.shift k) := by
  intro a b h
  cases a <;> cases b <;> simp_all [Alias.shift]

theorem unshift_update (k : Nat) (scope : Scope V) (qualifier : Alias) (row : Row V) :
    unshift k (Function.update scope (qualifier.shift k) row) =
      Function.update (unshift k scope) qualifier row :=
  Function.update_comp_eq_of_injective scope (Alias.shift_injective k) qualifier row

mutual

theorem holds_shift (reading : Reading V) (k : Nat) (scope : Scope V) : ∀ c : Condition,
    (c.shift k).holds reading scope = c.holds reading (unshift k scope)
  | .truth => rfl
  | .test _ _ => rfl
  | .group connective operands => by
      rw [Condition.shift, Condition.holds, Condition.holds, holdsOf_shift reading k scope operands]

theorem holdsOf_shift (reading : Reading V) (k : Nat) (scope : Scope V) : ∀ cs : List Condition,
    Condition.holdsOf reading scope (Condition.shiftAll k cs) =
      Condition.holdsOf reading (unshift k scope) cs
  | [] => rfl
  | c :: rest => by
      rw [Condition.shiftAll, Condition.holdsOf, Condition.holdsOf, holds_shift reading k scope c,
        holdsOf_shift reading k scope rest]

end

variable [DecidableEq V]

theorem joinAll_shift (db : Database V) (k : Nat) : ∀ (joins : List LeftJoin) (scope : Scope V),
    (joinAll db (joins.map (LeftJoin.shift k)) scope).map (unshift k) =
      joinAll db joins (unshift k scope) := by
  intro joins
  induction joins with
  | nil => intro scope; rfl
  | cons j rest ih =>
      intro scope
      have hrows : (j.shift k).rows db scope = j.rows db (unshift k scope) := rfl
      simp only [List.map_cons, joinAll, Multiset.map_bind, hrows, ih]
      apply Multiset.bind_congr
      intro row _
      rw [LeftJoin.shift, Position.shift, unshift_update]

end Shift

/-! ## Fetches that find one row -/

section Fetches

variable {V : Type} [DecidableEq V]

/-- For no row of the root is more than one row fetched. -/
def FindOne (db : Database V) (fetches : List Fetch) : Prop :=
  ∀ f ∈ fetches, ∀ owner : Row V, (related db f.via f.target owner).card ≤ 1

theorem exists_relatedOrNull_eq {db : Database V} {via : Relationship} {target : Entity}
    {owner : Row V} (h : (related db via target owner).card ≤ 1) :
    ∃ row, relatedOrNull db via target owner = {row} := by
  rw [← Multiset.card_eq_one, relatedOrNull]
  split
  · exact Multiset.card_singleton _
  · omega

theorem joinAll_fetchJoins {db : Database V} : ∀ (fetches : List Fetch) (number : Nat)
    (scope : Scope V), FindOne db fetches →
      ∃ scope', joinAll db (fetchJoins number fetches) scope = {scope'} ∧
        scope' .root = scope .root ∧ ∀ n, scope' (.joined n) = scope (.joined n) := by
  intro fetches
  induction fetches with
  | nil => intro number scope _; exact ⟨scope, rfl, rfl, fun _ => rfl⟩
  | cons f rest ih =>
      intro number scope one
      obtain ⟨hf, hrest⟩ := List.forall_mem_cons.mp one
      have hrows : (f.join number).rows db scope = relatedOrNull db f.via f.target (scope .root) :=
        rows_eq_relatedOrNull db rfl
      obtain ⟨row, hrow⟩ := exists_relatedOrNull_eq (hf (scope .root))
      obtain ⟨scope', hjoin, hroot, hjoined⟩ :=
        ih (number + 1) (Function.update scope (.fetched number) row) hrest
      refine ⟨scope', ?_, by simpa using hroot, fun n => by simpa using hjoined n⟩
      rw [fetchJoins, joinAll, hrows, hrow, Multiset.singleton_bind]
      exact hjoin

/-- The rows of a search, each with further cells. -/
def widenedRows (db : Database V) (reading : Reading V) (g : EntityGraph) (root : Entity)
    (fields : List (FieldIntent × Value)) (extra : Row V → List (Cell V)) :
    Multiset (List (Cell V)) :=
  (db root.table).bind fun row =>
    (keptChoices db reading g root fields row).map fun _ => root.columns.map row ++ extra row

variable {g : EntityGraph} {root : Entity} {fields : List (FieldIntent × Value)}
  {reached : Reached Position} {joins : List LeftJoin} {c : Condition} {reading : Reading V}

/-- After the fetches the plain statement starts from the root row and the rows fetched for it. -/
theorem exists_fetched {db : Database V} {fetches : List Fetch} (one : FindOne db fetches)
    (row : Row V) :
    ∃ fetched scope, joinAll db (fetchJoins 1 fetches)
        (scopeOf (fun _ => nullRow) [] (startingWith row)) = {scope} ∧
      unshift fetches.length scope = scopeOf fetched [] (startingWith row) := by
  obtain ⟨scope, hscope, hroot, hjoined⟩ :=
    joinAll_fetchJoins fetches 1 (scopeOf (fun _ => nullRow) [] (startingWith row)) one
  refine ⟨fun number => scope (.fetched number), scope, hscope, ?_⟩
  funext qualifier
  cases qualifier with
  | root => exact hroot
  | joined number =>
      rw [unshift, Alias.shift, hjoined]
      cases number <;> cases fetches.length <;> rfl
  | fetched number => rfl

theorem SearchedBy.eager_scopes (h : SearchedBy reading g root fields reached joins c)
    {db : Database V} {fetches : List Fetch} {fetched : Row V → Nat → Row V}
    (hfetched : ∀ row, ∃ scope, joinAll db (fetchJoins 1 fetches)
        (scopeOf (fun _ => nullRow) [] (startingWith row)) = {scope} ∧
      unshift fetches.length scope = scopeOf (fetched row) [] (startingWith row)) :
    (((plainSelect root joins c).withFetches fetches).scopes db reading).map
        (unshift fetches.length) =
      (db root.table).bind fun row =>
        (keptChoices db reading g root fields row).map (scopeOf (fetched row) reached) := by
  have hjoins (row : Row V) :
      (joinAll db (fetchJoins 1 fetches ++ joins.map (LeftJoin.shift fetches.length))
          (scopeOf (fun _ => nullRow) [] (startingWith row))).map (unshift fetches.length) =
        joinAll db joins (scopeOf (fetched row) [] (startingWith row)) := by
    obtain ⟨scope, hscope, hunshift⟩ := hfetched row
    rw [joinAll_append, hscope, Multiset.singleton_bind, joinAll_shift, hunshift]
  simp only [← h.filter_joinAll, ← Multiset.filter_bind, ← hjoins, ← Multiset.map_bind,
    Multiset.filter_map, ← startAt_eq_scopeOf root joins c]
  congr 1
  apply Multiset.filter_congr
  intro scope _
  rw [Function.comp_apply, ← holds_shift]
  rfl

omit [DecidableEq V] in
theorem qualifier_of_mem_fetchItems : ∀ (fetches : List Fetch) (number : Nat) (i : SelectItem),
    i ∈ fetchItems number fetches → ∃ n, i.column.qualifier = .fetched n := by
  intro fetches
  induction fetches with
  | nil => intro number i h; simp [fetchItems] at h
  | cons f rest ih =>
      intro number i h
      rcases List.mem_append.mp h with h | h
      · obtain ⟨name, _, rfl⟩ := List.mem_map.mp h
        exact ⟨number, rfl⟩
      · exact ih (number + 1) i h

def cellsOf (root : Entity) (fetches : List Fetch) (scope : Scope V) : List (Cell V) :=
  root.columns.map (scope .root) ++ (fetchItems 1 fetches).map fun i => i.column.value scope

omit [DecidableEq V] in
theorem cellsOf_eq_items (root : Entity) (joins : List LeftJoin) (c : Condition)
    (fetches : List Fetch) (scope : Scope V) :
    (((plainSelect root joins c).withFetches fetches).items.map fun i => i.column.value scope) =
      cellsOf root fetches scope := by
  simp [Select.withFetches, plainSelect, cellsOf, Column.value, Function.comp_def]

omit [DecidableEq V] in
theorem cellsOf_congr {root : Entity} {fetches : List Fetch} {scope scope' : Scope V}
    (hroot : scope .root = scope' .root)
    (hfetched : ∀ n, scope (.fetched n) = scope' (.fetched n)) :
    cellsOf root fetches scope = cellsOf root fetches scope' := by
  rw [cellsOf, cellsOf, hroot]
  congr 1
  apply List.map_congr_left
  intro i hi
  obtain ⟨n, hn⟩ := qualifier_of_mem_fetchItems fetches 1 i hi
  rw [Column.value, Column.value, hn, hfetched]

theorem SearchedBy.eager_rows (h : SearchedBy reading g root fields reached joins c)
    {db : Database V} {fetches : List Fetch} (one : FindOne db fetches) :
    ∃ extra, ((plainSelect root joins c).withFetches fetches).rows db reading =
      if fetches.isEmpty then widenedRows db reading g root fields extra
      else (widenedRows db reading g root fields extra).dedup := by
  choose fetched hfetched using fun row => exists_fetched one row
  let extra (row : Row V) : List (Cell V) := (fetchItems 1 fetches).map fun i =>
    i.column.value (scopeOf (fetched row) [] (startingWith row))
  have hlines : (((plainSelect root joins c).withFetches fetches).scopes db reading).map
      (cellsOf root fetches) = widenedRows db reading g root fields extra := by
    -- Root and fetched rows have the same aliases in both statements.
    have hunshift : (cellsOf root fetches : Scope V → _) =
        cellsOf root fetches ∘ unshift fetches.length :=
      funext fun scope => cellsOf_congr rfl fun _ => rfl
    rw [hunshift, ← Multiset.map_map (cellsOf root fetches) (unshift fetches.length),
      h.eager_scopes hfetched, Multiset.map_bind, widenedRows]
    apply Multiset.bind_congr
    intro row _
    rw [Multiset.map_map]
    apply Multiset.map_congr rfl
    intro choice hchoice
    have hroot : scopeOf (fetched row) reached choice .root =
        scopeOf (fetched row) [] (startingWith row) .root := by
      simp [scopeOf, startingWith, root_of_mem_keptChoices hchoice]
    rw [Function.comp_apply, cellsOf_congr hroot fun _ => rfl]
    simp [cellsOf, extra, scopeOf, startingWith]
  refine ⟨extra, ?_⟩
  simp only [Select.rows, cellsOf_eq_items, hlines]
  cases fetches <;> rfl

end Fetches

/-! ## Copies of root rows -/

section Copies

variable {V : Type} [DecidableEq V]

/-- How often the cells of a root row stand first in the rows of a result. -/
def copies (root : Entity) (rows : Multiset (List (Cell V))) (cells : List (Cell V)) : Nat :=
  (rows.map (List.take root.columns.length)).count cells

/-- A column that is never null and tells the rows of a table apart. -/
structure KeyedBy (column : String) (rows : Multiset (Row V)) : Prop where
  present : ∀ row ∈ rows, (row column).isSome = true
  distinct : (rows.map fun row => row column).Nodup

omit [DecidableEq V] in
theorem KeyedBy.eq_of {column : String} {rows : Multiset (Row V)} (keyed : KeyedBy column rows)
    {row row' : Row V} (h : row ∈ rows) (h' : row' ∈ rows) (heq : row column = row' column) :
    row = row' :=
  Multiset.inj_on_of_nodup_map keyed.distinct row h row' h' heq

theorem KeyedBy.card_related {db : Database V} {via : Relationship} {target : Entity}
    (keyed : KeyedBy via.remoteColumn (db target.table)) (owner : Row V) :
    (related db via target owner).card ≤ 1 := by
  have hnodup : ((related db via target owner).map fun row => row via.remoteColumn).Nodup :=
    Multiset.nodup_of_le (Multiset.map_le_map (Multiset.filter_le _ _)) keyed.distinct
  have hsame : ((related db via target owner).map fun row => row via.remoteColumn) =
      Multiset.replicate (related db via target owner).card (owner via.localColumn) := by
    rw [Multiset.eq_replicate]
    refine ⟨Multiset.card_map _ _, fun cell hcell => ?_⟩
    obtain ⟨row, hrow, rfl⟩ := Multiset.mem_map.mp hcell
    exact (Multiset.mem_filter.mp hrow).2.1
  rw [hsame, Multiset.nodup_iff_count_le_one] at hnodup
  simpa using hnodup (owner via.localColumn)

/-- Elements that their images tell apart are dropped with their images only. -/
theorem count_map_dedup {α β : Type} [DecidableEq α] [DecidableEq β] {m : Multiset α} {f : α → β}
    (injective : ∀ a ∈ m, ∀ a' ∈ m, f a = f a' → a = a') (b : β) :
    (m.dedup.map f).count b = min 1 ((m.map f).count b) := by
  have hnodup : (m.dedup.map f).Nodup := by
    refine Multiset.Nodup.map_on ?_ (Multiset.nodup_dedup m)
    intro a ha a' ha' h
    exact injective a (Multiset.mem_dedup.mp ha) a' (Multiset.mem_dedup.mp ha') h
  have hmem : b ∈ m.dedup.map f ↔ b ∈ m.map f := by simp [Multiset.mem_map]
  by_cases h : b ∈ m.map f
  · rw [Multiset.count_eq_one_of_mem hnodup (hmem.mpr h)]
    have := Multiset.count_pos.mpr h
    omega
  · rw [Multiset.count_eq_zero_of_notMem h, Multiset.count_eq_zero_of_notMem (hmem.not.mpr h)]
    rfl

variable {g : EntityGraph} {root : Entity} {fields : List (FieldIntent × Value)}
  {reached : Reached Position} {joins : List LeftJoin} {c : Condition} {reading : Reading V}

theorem copies_widenedRows (db : Database V) (extra : Row V → List (Cell V))
    (cells : List (Cell V)) :
    copies root (widenedRows db reading g root fields extra) cells =
      (matchingRows db reading g root fields).count cells := by
  simp [copies, widenedRows, matchingRows, Multiset.map_bind]

theorem copies_matchingRows (db : Database V) (cells : List (Cell V)) :
    copies root (matchingRows db reading g root fields) cells =
      (matchingRows db reading g root fields).count cells := by
  have hplain : matchingRows db reading g root fields =
      widenedRows db reading g root fields fun _ => [] := by
    simp [widenedRows, matchingRows]
  conv_lhs => rw [hplain]
  exact copies_widenedRows db (fun _ => []) cells

/-- With a key of the root, the cells of a root row tell the whole row of a result. -/
theorem take_injective {db : Database V} {key : String} (hkey : key ∈ root.columns)
    (keyed : KeyedBy key (db root.table)) (extra : Row V → List (Cell V)) :
    ∀ line ∈ widenedRows db reading g root fields extra,
      ∀ line' ∈ widenedRows db reading g root fields extra,
        line.take root.columns.length = line'.take root.columns.length → line = line' := by
  intro line hline line' hline' htake
  obtain ⟨row, hrow, hmem⟩ := Multiset.mem_bind.mp hline
  obtain ⟨row', hrow', hmem'⟩ := Multiset.mem_bind.mp hline'
  obtain ⟨_, _, rfl⟩ := Multiset.mem_map.mp hmem
  obtain ⟨_, _, rfl⟩ := Multiset.mem_map.mp hmem'
  have hcells : root.columns.map row = root.columns.map row' := by simpa using htake
  rw [keyed.eq_of hrow hrow' (List.map_inj_left.mp hcells key hkey)]

/-- Fetching eagerly returns at most one copy of a root row. -/
theorem SearchedBy.eager_copies (h : SearchedBy reading g root fields reached joins c)
    {db : Database V} {fetches : List Fetch} (one : FindOne db fetches) {key : String}
    (hkey : key ∈ root.columns) (keyed : KeyedBy key (db root.table)) (cells : List (Cell V)) :
    copies root (((plainSelect root joins c).withFetches fetches).rows db reading) cells =
      if fetches.isEmpty then copies root (matchingRows db reading g root fields) cells
      else min 1 (copies root (matchingRows db reading g root fields) cells) := by
  obtain ⟨extra, hrows⟩ := h.eager_rows one
  rw [hrows, copies_matchingRows, ← copies_widenedRows db extra]
  split
  · rfl
  · exact count_map_dedup (take_injective hkey keyed extra) cells

theorem card_choices_le_one {db : Database V} : ∀ (trails : List (List String)) (choice : Choice V),
    (∀ trail ∈ trails, ∀ owner : Row V, (candidates db g root trail owner).card ≤ 1) →
      (choices db g root trails choice).card ≤ 1 := by
  intro trails
  induction trails with
  | nil => intro choice _; simp [choices]
  | cons trail rest ih =>
      intro choice one
      obtain ⟨hfirst, hrest⟩ := List.forall_mem_cons.mp one
      rw [choices]
      rcases Nat.le_one_iff_eq_zero_or_eq_one.mp (hfirst (choice trail.dropLast)) with h | h
      · rw [Multiset.card_eq_zero.mp h, Multiset.zero_bind, Multiset.card_zero]
        exact Nat.zero_le 1
      · obtain ⟨row, hrow⟩ := Multiset.card_eq_one.mp h
        rw [hrow, Multiset.singleton_bind]
        exact ih _ hrest

theorem bind_le_map {α β : Type} {m : Multiset α} {f : α → Multiset β} {b : α → β}
    (h : ∀ a, f a ≤ {b a}) : m.bind f ≤ m.map b := by
  induction m using Multiset.induction with
  | empty => simp
  | cons a m ih =>
      rw [Multiset.cons_bind, Multiset.map_cons, ← Multiset.singleton_add]
      exact add_le_add (h a) ih

theorem copies_le_one {db : Database V} {key : String} (hkey : key ∈ root.columns)
    (keyed : KeyedBy key (db root.table))
    (one : ∀ trail ∈ askedTrails fields, ∀ owner : Row V,
      (candidates db g root trail owner).card ≤ 1) (cells : List (Cell V)) :
    copies root (matchingRows db reading g root fields) cells ≤ 1 := by
  have hle (row : Row V) :
      ((keptChoices db reading g root fields row).map fun _ => root.columns.map row) ≤
        {root.columns.map row} := by
    have hcard : (keptChoices db reading g root fields row).card ≤ 1 :=
      (Multiset.card_le_card (Multiset.filter_le _ _)).trans
        (card_choices_le_one (askedTrails fields) (startingWith row) one)
    rw [Multiset.map_const', ← Multiset.replicate_one]
    exact Multiset.replicate_le_replicate _ |>.mpr hcard
  have hnodup : ((db root.table).map fun row => root.columns.map row).Nodup := by
    refine Multiset.Nodup.map_on ?_ (Multiset.Nodup.of_map _ keyed.distinct)
    intro row hrow row' hrow' hcells
    exact keyed.eq_of hrow hrow' (List.map_inj_left.mp hcells key hkey)
  have hmatching : (matchingRows db reading g root fields).Nodup :=
    Multiset.nodup_of_le (bind_le_map hle) hnodup
  rw [copies_matchingRows]
  exact Multiset.nodup_iff_count_le_one.mp hmatching cells

end Copies

end CatalogSearch.Sql
