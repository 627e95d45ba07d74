import CatalogSearch.Text.Lowercase
import Mathlib.Data.List.Infix

/-!
# Lowercase text within a text

The lowercase of a text occurs in that of a longer one, where the text occurs, if its sigmas keep
their forms there.  A sigma is settled in a text if what stands around the text can never change its
form.  Main statement: `lower_infix_iff_settled`, that the texts whose sigmas are settled are those
whose lowercase occurs in the lowercase of every text that contains them.
-/

set_option autoImplicit false

namespace CatalogSearch.Text

/-! ## The form of a sigma -/

/-- A sigma between them ends a word. -/
def isFinalSigma (before after : List Char) : Bool := startsCased before && !startsCased after

/-- Some character is not ignored by case, so that nothing beyond them is looked at. -/
def decides (cs : List Char) : Bool := cs.any fun c => !isCaseIgnorable c

theorem startsCased_cons (c : Char) (cs : List Char) :
    startsCased (c :: cs) = if isCaseIgnorable c then startsCased cs else isCased c := by
  by_cases hc : isCaseIgnorable c = true
  · simp [startsCased, hc]
  · simp [startsCased, hc]

theorem startsCased_append (cs more : List Char) :
    startsCased (cs ++ more) = if decides cs then startsCased cs else startsCased more := by
  induction cs with
  | nil => simp [decides]
  | cons c cs ih =>
      rw [List.cons_append, startsCased_cons, startsCased_cons, ih]
      by_cases hc : isCaseIgnorable c = true
      · simp [decides, hc]
      · simp [decides, hc]

theorem startsCased_of_not_decides {cs : List Char} (h : decides cs = false) :
    startsCased cs = false := by
  have happend := startsCased_append cs []
  rw [List.append_nil, h] at happend
  simpa [startsCased] using happend

/-- The sigma between them has its form whatever stands further out. -/
def SettledSigma (before after : List Char) : Prop :=
  (decides before = true ∧ startsCased before = false) ∨ startsCased after = true ∨
    (decides before = true ∧ decides after = true)

def SigmasSettled (cs : List Char) : Prop :=
  ∀ before after, cs = before ++ 'Σ' :: after → SettledSigma before.reverse after

/-- The sigmas of a text have the same forms between `before`, nearest character first, and `after`
as they have between `before'` and `after'`. -/
def SameSigmas (before before' cs after after' : List Char) : Prop :=
  ∀ start rest, cs = start ++ 'Σ' :: rest →
    isFinalSigma (start.reverse ++ before) (rest ++ after) =
      isFinalSigma (start.reverse ++ before') (rest ++ after')

theorem isFinalSigma_of_settled {before after : List Char} (settled : SettledSigma before after)
    (further later : List Char) :
    isFinalSigma (before ++ further) (after ++ later) = isFinalSigma before after := by
  simp only [isFinalSigma, startsCased_append]
  rcases settled with ⟨hdecides, hcased⟩ | hcased | ⟨hbefore, hafter⟩
  · simp [hdecides, hcased]
  · have hafter : decides after = true := by
      by_contra h
      rw [startsCased_of_not_decides (by simpa using h)] at hcased
      cases hcased
    simp [hafter, hcased]
  · simp [hbefore, hafter]

theorem sameSigmas_of_settled {cs : List Char} (settled : SigmasSettled cs)
    (before after : List Char) : SameSigmas [] before cs [] after := by
  intro start rest hcs
  rw [List.append_nil, List.append_nil, isFinalSigma_of_settled (settled start rest hcs)]

/-! ## Lowercase in its place -/

/-- The lowercase of a text between `before`, nearest character first, and `after`. -/
def lowerWithin (after : List Char) : List Char → List Char → List Char
  | _, [] => []
  | before, c :: cs => lowerAt before c (cs ++ after) ++ lowerWithin after (c :: before) cs

theorem lowerList_eq_lowerWithin : ∀ cs before : List Char,
    lowerList before cs = lowerWithin [] before cs := by
  intro cs
  induction cs with
  | nil => intro before; rfl
  | cons c cs ih => intro before; simp only [lowerList, lowerWithin, ih, List.append_nil]

theorem lowerWithin_append (after : List Char) : ∀ first second before : List Char,
    lowerWithin after before (first ++ second) =
      lowerWithin (second ++ after) before first ++
        lowerWithin after (first.reverse ++ before) second := by
  intro first
  induction first with
  | nil => intro second before; rfl
  | cons c first ih =>
      intro second before
      simp only [List.cons_append, lowerWithin, ih, List.reverse_cons, List.append_assoc,
        List.nil_append]

theorem lowerAt_of_ne {c : Char} (hc : c ≠ 'Σ') (before before' after after' : List Char) :
    lowerAt before c after = lowerAt before' c after' := by
  simp only [lowerAt, if_neg hc]

theorem lowerAt_sigma (before after : List Char) :
    lowerAt before 'Σ' after = [if isFinalSigma before after then 'ς' else 'σ'] := by
  rw [lowerAt, if_pos rfl]
  rfl

theorem lowerAt_sigma_eq_iff {before before' after after' : List Char} :
    lowerAt before 'Σ' after = lowerAt before' 'Σ' after' ↔
      isFinalSigma before after = isFinalSigma before' after' := by
  rw [lowerAt_sigma, lowerAt_sigma]
  cases isFinalSigma before after <;> cases isFinalSigma before' after' <;> decide

theorem length_lowerAt (c : Char) (before before' after after' : List Char) :
    (lowerAt before c after).length = (lowerAt before' c after').length := by
  by_cases hc : c = 'Σ'
  · subst hc
    rw [lowerAt_sigma, lowerAt_sigma]
    rfl
  · rw [lowerAt_of_ne hc]

theorem length_lowerWithin (after after' : List Char) : ∀ cs before before' : List Char,
    (lowerWithin after before cs).length = (lowerWithin after' before' cs).length := by
  intro cs
  induction cs with
  | nil => intro before before'; rfl
  | cons c cs ih =>
      intro before before'
      simp only [lowerWithin, List.length_append, ih (c :: before) (c :: before'),
        length_lowerAt c before before' (cs ++ after) (cs ++ after')]

/-- Nothing but the forms of its sigmas depends on what stands around a text. -/
theorem lowerWithin_eq_iff (after after' : List Char) : ∀ cs before before' : List Char,
    lowerWithin after before cs = lowerWithin after' before' cs ↔
      SameSigmas before before' cs after after' := by
  intro cs
  induction cs with
  | nil =>
      intro before before'
      refine iff_of_true rfl ?_
      intro start rest h
      simp at h
  | cons c cs ih =>
      intro before before'
      -- The first character counts as one that stands before the rest.
      have hsplit : lowerWithin after before (c :: cs) = lowerWithin after' before' (c :: cs) ↔
          lowerAt before c (cs ++ after) = lowerAt before' c (cs ++ after') ∧
            lowerWithin after (c :: before) cs = lowerWithin after' (c :: before') cs :=
        ⟨fun h => List.append_inj h (length_lowerAt _ _ _ _ _), fun h => by
          simp only [lowerWithin, h.1, h.2]⟩
      rw [hsplit, ih]
      constructor
      · rintro ⟨hhead, htail⟩ start rest hcs
        rcases start with _ | ⟨first, start⟩
        · obtain ⟨rfl, rfl⟩ := List.cons.inj hcs
          exact lowerAt_sigma_eq_iff.mp hhead
        · obtain ⟨rfl, rfl⟩ := List.cons.inj hcs
          simpa using htail start rest rfl
      · intro same
        refine ⟨?_, ?_⟩
        · by_cases hc : c = 'Σ'
          · subst hc
            exact lowerAt_sigma_eq_iff.mpr (same [] cs rfl)
          · exact lowerAt_of_ne hc _ _ _ _
        · intro start rest hcs
          simpa using same (c :: start) rest (by rw [hcs, List.cons_append])

theorem lower_toList (s : String) : (lower s).toList = lowerWithin [] [] s.toList := by
  rw [lower, String.toList_ofList, lowerList_eq_lowerWithin]

theorem lower_infix_of_sameSigmas {before after : List Char} {needle text : String}
    (htext : text.toList = before ++ needle.toList ++ after)
    (same : SameSigmas [] before.reverse needle.toList [] after) :
    (lower needle).toList <:+: (lower text).toList := by
  have hneedle : (lower needle).toList = lowerWithin after before.reverse needle.toList := by
    rw [lower_toList]
    exact (lowerWithin_eq_iff _ _ _ _ _).mpr same
  rw [hneedle, lower_toList, htext, lowerWithin_append, lowerWithin_append, List.append_nil,
    List.append_nil]
  exact ⟨_, _, rfl⟩

/-! ## Sigmas that are not settled -/

theorem exists_cased_letter (avoided : Option Char) :
    ∃ letter lowered, isCased letter = true ∧ isCaseIgnorable letter = false ∧
      (∀ before after, lowerAt before letter after = [lowered]) ∧ avoided ≠ some lowered := by
  have lowerA : ∀ before after, lowerAt before 'A' after = ['a'] := fun _ _ =>
    (lowerAt_of_ne (by decide) _ [] _ []).trans (by decide)
  have lowerB : ∀ before after, lowerAt before 'B' after = ['b'] := fun _ _ =>
    (lowerAt_of_ne (by decide) _ [] _ []).trans (by decide)
  by_cases ha : avoided = some 'a'
  · exact ⟨'B', 'b', by decide, by decide, lowerB, by rw [ha]; decide⟩
  · exact ⟨'A', 'a', by decide, by decide, lowerA, ha⟩

section Unsettled

variable {cs before after : List Char} (hcs : cs = before ++ 'Σ' :: after)
include hcs

theorem lowerWithin_ne_nil : lowerWithin [] [] cs ≠ [] := by
  rw [hcs, lowerWithin_append, lowerWithin, lowerAt_sigma]
  simp

theorem lowerWithin_ne {further later : List Char}
    (changed : isFinalSigma before.reverse after ≠
      isFinalSigma (before.reverse ++ further) (after ++ later)) :
    lowerWithin [] [] cs ≠ lowerWithin later further cs := by
  intro h
  have same := (lowerWithin_eq_iff _ _ _ _ _).mp h before after hcs
  rw [List.append_nil, List.append_nil] at same
  exact changed same

/-- A cased letter in front changes the form of a sigma with nothing cased about it. -/
theorem exists_missed_after_letter (hbefore : decides before.reverse = false)
    (hafter : startsCased after = false) :
    ∃ letter, ¬ lowerWithin [] [] cs <:+: lowerWithin [] [] (letter :: cs) := by
  obtain ⟨letter, lowered, hcased, hignorable, hlower, havoided⟩ :=
    exists_cased_letter (lowerWithin [] [] cs).head?
  refine ⟨letter, ?_⟩
  have hfront : startsCased (before.reverse ++ [letter]) = true := by
    rw [startsCased_append, hbefore]
    simp [startsCased_cons, hignorable, hcased]
  have changed : lowerWithin [] [] cs ≠ lowerWithin [] [letter] cs := by
    refine lowerWithin_ne hcs ?_
    simp [isFinalSigma, hfront, hafter, startsCased_of_not_decides hbefore]
  rw [lowerWithin, hlower, List.singleton_append, List.infix_cons_iff]
  rintro (hstart | hinside)
  · -- The lowercase would begin with the letter in front.
    obtain ⟨first, rest, hfirst⟩ := List.exists_cons_of_ne_nil (lowerWithin_ne_nil hcs)
    rw [hfirst, List.cons_prefix_cons] at hstart
    rw [hfirst, hstart.1] at havoided
    exact havoided rfl
  · exact changed (hinside.eq_of_length (length_lowerWithin _ _ _ _ _))

/-- A cased letter behind changes the form of a sigma that ends its text. -/
theorem exists_missed_before_letter (hbefore : startsCased before.reverse = true)
    (hafter : decides after = false) :
    ∃ letter, ¬ lowerWithin [] [] cs <:+: lowerWithin [] [] (cs ++ [letter]) := by
  obtain ⟨letter, lowered, hcased, hignorable, hlower, havoided⟩ :=
    exists_cased_letter (lowerWithin [] [] cs).getLast?
  refine ⟨letter, ?_⟩
  have hbehind : startsCased (after ++ [letter]) = true := by
    rw [startsCased_append, hafter]
    simp [startsCased_cons, hignorable, hcased]
  have changed : lowerWithin [] [] cs ≠ lowerWithin [letter] [] cs := by
    refine lowerWithin_ne hcs ?_
    simp [isFinalSigma, hbehind, hbefore, startsCased_of_not_decides hafter]
  have hwhole : lowerWithin [] [] (cs ++ [letter]) = lowerWithin [letter] [] cs ++ [lowered] := by
    rw [lowerWithin_append, lowerWithin, hlower, lowerWithin]
    simp
  rw [hwhole, List.infix_concat_iff]
  rintro (hend | hinside)
  · -- The lowercase would end with the letter behind.
    obtain ⟨rest, last, hlast⟩ := (List.eq_nil_or_concat' _).resolve_left (lowerWithin_ne_nil hcs)
    rw [hlast] at hend havoided
    obtain ⟨skipped, hskipped⟩ := hend
    rw [← List.append_assoc] at hskipped
    have hsame : last = lowered := by simpa using (List.append_inj' hskipped rfl).2
    simp [hsame] at havoided
  · exact changed (hinside.eq_of_length (length_lowerWithin _ _ _ _ _))

end Unsettled

/-- The texts whose lowercase occurs wherever they occur are those whose sigmas are settled. -/
theorem lower_infix_iff_settled (needle : String) :
    (∀ text : String, needle.toList <:+: text.toList →
      (lower needle).toList <:+: (lower text).toList) ↔ SigmasSettled needle.toList := by
  constructor
  · intro found before after hneedle
    by_contra unsettled
    simp only [SettledSigma, not_or, not_and, Bool.not_eq_true] at unsettled
    obtain ⟨hcased, hafter, hboth⟩ := unsettled
    have missed : ∃ more : List Char, needle.toList <:+: more ∧
        ¬ lowerWithin [] [] needle.toList <:+: lowerWithin [] [] more := by
      rcases hbefore : decides before.reverse with _ | _
      · obtain ⟨letter, hmissed⟩ := exists_missed_after_letter hneedle hbefore hafter
        exact ⟨letter :: needle.toList, List.infix_cons List.infix_rfl, hmissed⟩
      · have hstarts : startsCased before.reverse = true := by simpa using hcased hbefore
        obtain ⟨letter, hmissed⟩ := exists_missed_before_letter hneedle hstarts (hboth hbefore)
        exact ⟨needle.toList ++ [letter], List.infix_append [] _ _, hmissed⟩
    obtain ⟨more, hmore, hmissed⟩ := missed
    have hfound := found (String.ofList more) (by rwa [String.toList_ofList])
    rw [lower_toList, lower_toList, String.toList_ofList] at hfound
    exact hmissed hfound
  · rintro settled text ⟨before, after, htext⟩
    exact lower_infix_of_sameSigmas htext.symm (sameSigmas_of_settled settled _ _)

theorem sigmasSettled_of_not_mem {cs : List Char} (h : 'Σ' ∉ cs) : SigmasSettled cs := by
  intro before after hcs
  exact absurd (by simp [hcs]) h

end CatalogSearch.Text
