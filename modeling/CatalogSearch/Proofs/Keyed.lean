import CatalogSearch.Keyed
import Mathlib.Data.List.Nodup

/-!
# What association lists hold

A lookup finds an entry with the key if the list has one, and a put under a new key appends.  Of
entries without a repeated key, and of no others, all count (`lastByKey_eq_self_iff`).
-/

set_option autoImplicit false

namespace CatalogSearch

section Lookup

variable {α β : Type} [BEq α] [LawfulBEq α] {key : α}

theorem lookup_eq_none_of_not_mem {l : List (α × β)} (h : key ∉ l.map Prod.fst) :
    l.lookup key = none := by
  rw [List.lookup_eq_none_iff]
  intro entry hentry
  rw [bne_iff_ne]
  intro e
  exact h (List.mem_map.mpr ⟨entry, hentry, e.symm⟩)

theorem exists_lookup_of_mem {l : List (α × β)} (h : key ∈ l.map Prod.fst) :
    ∃ b, l.lookup key = some b := by
  rcases hl : l.lookup key with _ | b
  · rw [List.lookup_eq_none_iff] at hl
    obtain ⟨entry, hentry, rfl⟩ := List.mem_map.mp h
    simpa using hl entry hentry
  · exact ⟨b, rfl⟩

theorem mem_of_lookup {l : List (α × β)} {b : β} (h : l.lookup key = some b) : (key, b) ∈ l := by
  obtain ⟨before, after, rfl, _⟩ := List.lookup_eq_some_iff.mp h
  simp

theorem lookup_of_mem {l : List (α × β)} {b : β} (nodup : (l.map Prod.fst).Nodup)
    (h : (key, b) ∈ l) : l.lookup key = some b := by
  obtain ⟨found, hfound⟩ := exists_lookup_of_mem (List.mem_map.mpr ⟨_, h, rfl⟩)
  have hsame := List.inj_on_of_nodup_map nodup (mem_of_lookup hfound) h rfl
  rw [hfound, (Prod.mk.inj hsame).2]

end Lookup

theorem mem_of_mem_put {α : Type} {key : String} {a : α} : ∀ {entries : List (String × α)}
    {entry : String × α}, entry ∈ put key a entries → entry = (key, a) ∨ entry ∈ entries := by
  intro entries
  induction entries with
  | nil =>
      intro entry h
      exact Or.inl (List.mem_singleton.mp h)
  | cons first rest ih =>
      intro entry h
      obtain ⟨k, b⟩ := first
      by_cases hk : k = key
      · rw [put, if_pos hk, hk] at h
        rcases List.mem_cons.mp h with rfl | h
        · exact Or.inl rfl
        · exact Or.inr (List.mem_cons_of_mem _ h)
      · rw [put, if_neg hk] at h
        rcases List.mem_cons.mp h with rfl | h
        · exact Or.inr (by simp)
        · exact (ih h).imp_right (List.mem_cons_of_mem _)

theorem lookup_put {α : Type} (key other : String) (a : α) : ∀ entries : List (String × α),
    (put key a entries).lookup other = if other = key then some a else entries.lookup other := by
  intro entries
  induction entries with
  | nil =>
      by_cases ho : other = key
      · simp [put, ho]
      · simp [put, List.lookup_cons, ho, beq_eq_false_iff_ne.mpr ho]
  | cons entry rest ih =>
      obtain ⟨k, b⟩ := entry
      by_cases hk : k = key
      · subst hk
        by_cases ho : other = k
        · simp [put, ho]
        · simp [put, List.lookup_cons, ho, beq_eq_false_iff_ne.mpr ho]
      · rw [put, if_neg hk, List.lookup_cons, ih, List.lookup_cons]
        by_cases ho : other = k
        · subst ho
          simp [hk]
        · simp [beq_eq_false_iff_ne.mpr ho]

theorem put_of_lookup_eq_none {α : Type} (key : String) (a : α) :
    ∀ entries : List (String × α), entries.lookup key = none →
      put key a entries = entries ++ [(key, a)] := by
  intro entries
  induction entries with
  | nil => intro _; rfl
  | cons entry rest ih =>
      intro h
      obtain ⟨k, b⟩ := entry
      by_cases hk : k = key
      · subst hk
        simp at h
      · have hk' : (key == k) = false := by simpa using Ne.symm hk
        simp only [List.lookup_cons, hk'] at h
        simp only [put, if_neg hk, ih h, List.cons_append]

theorem nodup_keys_put {α : Type} (key : String) (a : α) : ∀ entries : List (String × α),
    (entries.map Prod.fst).Nodup → ((put key a entries).map Prod.fst).Nodup := by
  intro entries
  induction entries with
  | nil => intro _; simp [put]
  | cons entry rest ih =>
      intro h
      obtain ⟨k, b⟩ := entry
      obtain ⟨hk, hrest⟩ := List.nodup_cons.mp h
      by_cases hkey : k = key
      · rw [put, if_pos hkey]
        exact h
      · rw [put, if_neg hkey]
        refine List.nodup_cons.mpr ⟨fun hmem => ?_, ih hrest⟩
        obtain ⟨other, hother, rfl⟩ := List.mem_map.mp hmem
        rcases mem_of_mem_put hother with rfl | hother
        · exact hkey rfl
        · exact hk (List.mem_map.mpr ⟨other, hother, rfl⟩)

theorem nodup_keys_lastByKey {α : Type} (entries : List (String × α)) :
    ((lastByKey entries).map Prod.fst).Nodup := by
  have kept : ∀ (entries kept : List (String × α)), (kept.map Prod.fst).Nodup →
      ((entries.foldl (fun kept entry => put entry.1 entry.2 kept) kept).map Prod.fst).Nodup := by
    intro entries
    induction entries with
    | nil => intro kept h; exact h
    | cons entry rest ih => intro kept h; exact ih _ (nodup_keys_put entry.1 entry.2 kept h)
  exact kept entries [] .nil

theorem lastByKey_of_nodup {α : Type} {entries : List (String × α)}
    (h : (entries.map Prod.fst).Nodup) : lastByKey entries = entries := by
  have appended : ∀ entries kept : List (String × α), ((kept ++ entries).map Prod.fst).Nodup →
      entries.foldl (fun kept entry => put entry.1 entry.2 kept) kept = kept ++ entries := by
    intro entries
    induction entries with
    | nil => intro kept _; simp
    | cons entry rest ih =>
        intro kept h
        have fresh : entry.1 ∉ kept.map Prod.fst := by
          intro hmem
          rw [List.map_append, List.nodup_append] at h
          exact h.2.2 entry.1 hmem entry.1 (by simp) rfl
        rw [List.foldl_cons, put_of_lookup_eq_none _ _ _ (lookup_eq_none_of_not_mem fresh),
          ih _ (by simpa using h), List.append_assoc, List.singleton_append]
  exact appended entries [] h

theorem lastByKey_eq_self_iff {α : Type} {entries : List (String × α)} :
    lastByKey entries = entries ↔ (entries.map Prod.fst).Nodup := by
  refine ⟨fun h => ?_, lastByKey_of_nodup⟩
  rw [← h]
  exact nodup_keys_lastByKey entries

end CatalogSearch
