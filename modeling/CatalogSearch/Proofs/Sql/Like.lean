import CatalogSearch.Proofs.Sql.Operations
import Mathlib.Data.List.Infix

/-!
# LIKE patterns

`like?` is the matching of LIKE with the escape character `\`: `%` stands for any sequence of
characters, `_` for any one, and a character after a backslash for itself.  A pattern that ends in
the middle of an escape is none.  Main statement: `contains_matches_substrings`, that the pattern of
a needle is a pattern and matches the texts that contain the needle, whatever wildcards and
backslashes the needle has.
-/

set_option autoImplicit false

namespace CatalogSearch.Sql

open Criteria

inductive PatternItem where
  | anySequence
  | anyOne
  | literal (c : Char)
  deriving DecidableEq, Repr

def itemOf (c : Char) : PatternItem :=
  if c = '%' then .anySequence else if c = '_' then .anyOne else .literal c

/-- The items of a pattern, unless its last backslash escapes nothing. -/
def readPattern : List Char → Option (List PatternItem)
  | [] => some []
  | [c] => if c = '\\' then none else some [itemOf c]
  | c :: d :: rest =>
      if c = '\\' then (readPattern rest).map (.literal d :: ·)
      else (readPattern (d :: rest)).map (itemOf c :: ·)

def matchItems : List PatternItem → List Char → Bool
  | [], subject => subject.isEmpty
  | .anySequence :: items, subject => subject.tails.any (matchItems items)
  | .anyOne :: _, [] => false
  | .anyOne :: items, _ :: subject => matchItems items subject
  | .literal _ :: _, [] => false
  | .literal c :: items, d :: subject => c = d && matchItems items subject

/-- Whether a text matches a pattern, if that is one. -/
def like? (pattern subject : String) : Option Bool :=
  (readPattern pattern.toList).map fun items => matchItems items subject.toList

/-! ## Reading patterns -/

theorem readPattern_escaped (c : Char) (rest : List Char) :
    readPattern ('\\' :: c :: rest) = (readPattern rest).map (.literal c :: ·) := by
  simp [readPattern]

theorem readPattern_unescaped {c : Char} (hc : c ≠ '\\') (rest : List Char) :
    readPattern (c :: rest) = (readPattern rest).map (itemOf c :: ·) := by
  cases rest with
  | nil => simp [readPattern, hc]
  | cons d rest => simp [readPattern, hc]

/-- The three replacements, one after the other, escape each special character once. -/
theorem escapeLike_cons (c : Char) (rest : List Char) :
    escapeLike (c :: rest) =
      if c = '\\' ∨ c = '%' ∨ c = '_' then '\\' :: c :: escapeLike rest
      else c :: escapeLike rest := by
  by_cases hbackslash : c = '\\'
  · subst hbackslash
    simp [escapeLike, escapeEach]
  · by_cases hpercent : c = '%'
    · subst hpercent
      simp [escapeLike, escapeEach]
    · by_cases hunderscore : c = '_'
      · subst hunderscore
        simp [escapeLike, escapeEach]
      · simp [escapeLike, escapeEach, hbackslash, hpercent, hunderscore]

theorem readPattern_escapeLike (rest : List Char) : ∀ needle : List Char,
    readPattern (escapeLike needle ++ rest) =
      (readPattern rest).map (needle.map .literal ++ ·) := by
  intro needle
  induction needle with
  | nil => simp [escapeLike, escapeEach]
  | cons c needle ih =>
      rw [escapeLike_cons]
      split
      · rw [List.cons_append, List.cons_append, readPattern_escaped, ih, Option.map_map]
        rfl
      · rename_i plain
        push Not at plain
        obtain ⟨hbackslash, hpercent, hunderscore⟩ := plain
        have hitem : itemOf c = .literal c := by simp [itemOf, hpercent, hunderscore]
        rw [List.cons_append, readPattern_unescaped hbackslash, ih, Option.map_map, hitem]
        rfl

theorem readPattern_containsPattern (needle : String) :
    readPattern (containsPattern needle).toList =
      some (.anySequence :: needle.toList.map .literal ++ [.anySequence]) := by
  have hpattern : (containsPattern needle).toList = '%' :: (escapeLike needle.toList ++ ['%']) := by
    simp [containsPattern]
  rw [hpattern, readPattern_unescaped (by decide), readPattern_escapeLike]
  rfl

/-! ## Matching -/

theorem matchItems_anySequence (items : List PatternItem) (subject : List Char) :
    matchItems (.anySequence :: items) subject = true ↔
      ∃ rest, rest <:+ subject ∧ matchItems items rest = true := by
  simp only [matchItems, List.any_eq_true, List.mem_tails]

theorem matchItems_literals (items : List PatternItem) : ∀ needle subject : List Char,
    matchItems (needle.map .literal ++ items) subject = true ↔
      ∃ rest, subject = needle ++ rest ∧ matchItems items rest = true := by
  intro needle
  induction needle with
  | nil => intro subject; simp
  | cons c needle ih =>
      intro subject
      cases subject with
      | nil => simp [matchItems]
      | cons d subject =>
          simp only [List.map_cons, List.cons_append, matchItems, Bool.and_eq_true,
            decide_eq_true_eq, ih, List.cons.injEq]
          constructor
          · rintro ⟨rfl, rest, rfl, hrest⟩
            exact ⟨rest, ⟨rfl, rfl⟩, hrest⟩
          · rintro ⟨rest, ⟨rfl, rfl⟩, hrest⟩
            exact ⟨rfl, rest, rfl, hrest⟩

/-- Between two sequences of any characters, a needle matches where it occurs. -/
theorem matchItems_contains (needle subject : List Char) :
    matchItems (.anySequence :: needle.map .literal ++ [.anySequence]) subject = true ↔
      needle <:+: subject := by
  have everything : ∀ rest, matchItems [.anySequence] rest = true := fun rest =>
    (matchItems_anySequence [] rest).mpr ⟨[], List.nil_suffix, rfl⟩
  rw [List.cons_append, matchItems_anySequence]
  constructor
  · rintro ⟨_, ⟨before, rfl⟩, hmatch⟩
    obtain ⟨after, rfl, _⟩ := (matchItems_literals _ _ _).mp hmatch
    exact ⟨before, after, List.append_assoc _ _ _⟩
  · rintro ⟨before, after, rfl⟩
    refine ⟨needle ++ after, ⟨before, (List.append_assoc _ _ _).symm⟩, ?_⟩
    exact (matchItems_literals _ _ _).mpr ⟨after, rfl, everything after⟩

theorem like?_containsPattern (needle subject : String) :
    ∃ found, like? (containsPattern needle) subject = some found ∧
      (found = true ↔ needle.toList <:+: subject.toList) := by
  refine ⟨_, ?_, matchItems_contains needle.toList subject.toList⟩
  rw [like?, readPattern_containsPattern, Option.map_some]

/-- The condition that a column contains a needle compares it with one pattern, which matches the
texts that have the needle in them and no others. -/
theorem contains_matches_substrings (column : Column) (needle subject : String) :
    ∃ condition pattern found, column.compare? (.contains needle) = .ok condition ∧
      condition.text =
        "LOWER(CAST(" ++ column.text ++ " AS TEXT)) LIKE " ++ "%s" ++ " ESCAPE '\\'" ∧
      condition.parameters = [.text pattern] ∧ like? pattern subject = some found ∧
      (found = true ↔ needle.toList <:+: subject.toList) := by
  obtain ⟨found, hlike, hfound⟩ := like?_containsPattern needle subject
  refine ⟨.test column (.contains needle), containsPattern needle, found, ?_, ?_, ?_, hlike, hfound⟩
  · exact compare?_eq_ok.mpr ⟨by simp, rfl⟩
  · rw [Condition.text, testText, placeholder]
  · rw [Condition.parameters, testParameters]

example : like? (containsPattern "50%_\\") "save 50%_\\ now" = some true ∧
    like? (containsPattern "50%_\\") "save 50 %_\\ now" = some false := by decide

end CatalogSearch.Sql
