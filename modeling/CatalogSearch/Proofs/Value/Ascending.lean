import CatalogSearch.Value.Basic
import Mathlib.Data.String.Basic

/-!
# Ascending lists

Insertion one by one makes an ascending list without repetitions, which holds exactly what was
inserted.
-/

set_option autoImplicit false

namespace CatalogSearch.Value

section Insertion

variable {α : Type} [LinearOrder α]

abbrev insertAscending (x : α) (xs : List α) : List α :=
  insertBy (fun a b => decide (a < b)) (fun a b => decide (a = b)) x xs

theorem mem_insertAscending {x y : α} : ∀ xs : List α,
    y ∈ insertAscending x xs ↔ y = x ∨ y ∈ xs := by
  intro xs
  induction xs with
  | nil => simp [insertBy]
  | cons first rest ih =>
      by_cases hsame : x = first
      · subst hsame
        simp [insertBy]
      · by_cases hbefore : x < first
        · simp [insertBy, hsame, hbefore]
        · simp only [insertAscending, insertBy, decide_eq_true_eq, if_neg hsame, if_neg hbefore,
            List.mem_cons, ih]
          tauto

theorem insertAscending_pairwise {x : α} : ∀ xs : List α,
    xs.Pairwise (· < ·) → (insertAscending x xs).Pairwise (· < ·) := by
  intro xs
  induction xs with
  | nil => intro _; simp [insertBy]
  | cons first rest ih =>
      intro h
      obtain ⟨hfirst, hrest⟩ := List.pairwise_cons.mp h
      by_cases hsame : x = first
      · subst hsame
        simpa [insertBy] using h
      · by_cases hbefore : x < first
        · simp only [insertAscending, insertBy, decide_eq_true_eq, if_neg hsame, if_pos hbefore]
          refine List.pairwise_cons.mpr ⟨?_, h⟩
          intro y hy
          rcases List.mem_cons.mp hy with rfl | hy
          · exact hbefore
          · exact lt_trans hbefore (hfirst y hy)
        · simp only [insertAscending, insertBy, decide_eq_true_eq, if_neg hsame, if_neg hbefore]
          refine List.pairwise_cons.mpr ⟨?_, ih hrest⟩
          intro y hy
          rcases (mem_insertAscending rest).mp hy with rfl | hy
          · exact lt_of_le_of_ne (not_lt.mp hbefore) (Ne.symm hsame)
          · exact hfirst y hy

theorem foldl_insertAscending_pairwise : ∀ xs acc : List α, acc.Pairwise (· < ·) →
    (xs.foldl (fun acc x => insertAscending x acc) acc).Pairwise (· < ·) := by
  intro xs
  induction xs with
  | nil => intro acc h; exact h
  | cons x rest ih => intro acc h; exact ih _ (insertAscending_pairwise acc h)

theorem mem_foldl_insertAscending {y : α} : ∀ xs acc : List α,
    y ∈ xs.foldl (fun acc x => insertAscending x acc) acc ↔ y ∈ xs ∨ y ∈ acc := by
  intro xs
  induction xs with
  | nil => intro acc; simp
  | cons x rest ih =>
      intro acc
      rw [List.foldl_cons, ih, mem_insertAscending, List.mem_cons]
      tauto

end Insertion

theorem sortedTexts_pairwise (xs : List String) : (sortedTexts xs).Pairwise (· < ·) :=
  foldl_insertAscending_pairwise xs [] .nil

theorem mem_sortedTexts {x : String} {xs : List String} : x ∈ sortedTexts xs ↔ x ∈ xs :=
  (mem_foldl_insertAscending xs []).trans (by simp)

end CatalogSearch.Value
