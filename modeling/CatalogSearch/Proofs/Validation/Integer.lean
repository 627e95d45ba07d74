import CatalogSearch.Validation.Integer
import Mathlib.Data.List.Induction

/-!
# How large an integer of a text is

Main statement: `natAbs_lt_of_integerOfText`.  Whatever the notation, no more than `digitLimit`
digits are read as a number, so that a text stands for no integer of more digits.
-/

set_option autoImplicit false

namespace CatalogSearch.Validation

open Number

theorem lt_ten_of_asciiDigit? {c : Char} {d : Nat} (h : Text.asciiDigit? c = some d) : d < 10 := by
  unfold Text.asciiDigit? at h
  split at h
  · next hc =>
      have hle : c.toNat ≤ '9'.toNat := hc.2
      have h9 : '9'.toNat = 57 := rfl
      have h0 : '0'.toNat = 48 := rfl
      have hd : c.toNat - '0'.toNat = d := Option.some.inj h
      omega
  · cases h

theorem lt_ten_of_mem_takeDigits {s : List Char} {d : Nat}
    (h : d ∈ (Decimal.takeDigits s).1) : d < 10 := by
  induction s with
  | nil => simp [Decimal.takeDigits] at h
  | cons c rest ih =>
      unfold Decimal.takeDigits at h
      cases hc : Text.asciiDigit? c with
      | none => simp [hc] at h
      | some first =>
          simp only [hc, List.mem_cons] at h
          cases h with
          | inl here =>
              subst here
              exact lt_ten_of_asciiDigit? hc
          | inr below => exact ih below

theorem digitsValue_append_singleton (digits : List Nat) (d : Nat) :
    Decimal.digitsValue (digits ++ [d]) = 10 * Decimal.digitsValue digits + d := by
  simp [Decimal.digitsValue]

theorem digitsValue_lt (digits : List Nat) (small : ∀ d ∈ digits, d < 10) :
    Decimal.digitsValue digits < Nat.pow 10 digits.length := by
  induction digits using List.reverseRecOn with
  | nil => simp [Decimal.digitsValue]
  | append_singleton digits d ih =>
      have before : Decimal.digitsValue digits < Nat.pow 10 digits.length :=
        ih fun x hx => small x (List.mem_append_left _ hx)
      have last : d < 10 := small d (by simp)
      have more : Nat.pow 10 (digits.length + 1) = Nat.pow 10 digits.length * 10 := rfl
      rw [digitsValue_append_singleton, List.length_append, List.length_singleton, more]
      omega

theorem natAbs_lt_of_unsignedInteger? {negative : Bool} {s : List Char} {n : Int}
    (h : unsignedInteger? negative s = .ok n) : n.natAbs < Nat.pow 10 Json.digitLimit := by
  have small : ∀ d ∈ (Decimal.takeDigits s).1, d < 10 := fun d => lt_ten_of_mem_takeDigits
  unfold unsignedInteger? at h
  split at h
  · cases h
  · cases h
  · next digits rest _ _ taken =>
      rw [taken] at small
      split at h
      · cases h
      · next short =>
          split at h
          · have value : Binary64.applySign negative (Decimal.digitsValue digits) = n :=
              Except.ok.inj h
            have size : n.natAbs = Decimal.digitsValue digits := by
              rw [← value]
              cases negative <;> simp [Binary64.applySign]
            have length : digits.length ≤ Json.digitLimit := by
              have counted : digits.length ≤ Json.integerLength negative digits := by
                cases negative <;> simp [Json.integerLength]
              omega
            calc n.natAbs = Decimal.digitsValue digits := size
              _ < Nat.pow 10 digits.length := digitsValue_lt digits small
              _ ≤ Nat.pow 10 Json.digitLimit := by
                rw [Nat.pow_eq, Nat.pow_eq]
                exact Nat.pow_le_pow_right (by decide) length
          · cases h

theorem natAbs_lt_of_plainInteger? {s : List Char} {n : Int} (h : plainInteger? s = .ok n) :
    n.natAbs < Nat.pow 10 Json.digitLimit := by
  unfold plainInteger? at h
  split at h
  · exact natAbs_lt_of_unsignedInteger? h
  · exact natAbs_lt_of_unsignedInteger? h

theorem natAbs_lt_of_integerOfText {s : String} {n : Int} (h : integerOfText s = .ok n) :
    n.natAbs < Nat.pow 10 Json.digitLimit := by
  unfold integerOfText at h
  split at h
  · next plain =>
      rw [← Except.ok.inj h]
      exact natAbs_lt_of_plainInteger? plain
  · cases h
  · split at h
    · next tidy _ =>
        cases hplain : plainInteger? tidy with
        | error kind => simp [hplain, Except.mapError] at h
        | ok m =>
            rw [hplain] at h
            rw [← Except.ok.inj h]
            exact natAbs_lt_of_plainInteger? hplain
    · cases h

end CatalogSearch.Validation
