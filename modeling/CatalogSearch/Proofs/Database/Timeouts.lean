import CatalogSearch.Proofs.Database.Sessions
import Mathlib.Data.Rat.Floor
import Mathlib.Tactic.NormNum

/-!
# Timeouts in force

A timeout that is a finite number has an exact value, and a session sets the integer part of it
(`milliseconds?_eq`); no other timeout is accepted.  The value is compared with zero before it is
cut, so that one between zero and one is accepted and then set as zero, which means no timeout.
Main statement: `timeout_in_force_iff`.
-/

set_option autoImplicit false

namespace CatalogSearch.Number

def magnitude (base m : Nat) (e : Int) : ℚ := m * (base : ℚ) ^ e

def signed (negative : Bool) (q : ℚ) : ℚ := if negative then -q else q

variable {base : Nat}

theorem magnitude_eq_div (hbase : base ≠ 0) (m : Nat) (e : Int) :
    magnitude base m e =
      ((m * base ^ e.toNat : Nat) : ℚ) / ((base ^ (-e).toNat : Nat) : ℚ) := by
  have split : (base : ℚ) ^ e = (base : ℚ) ^ e.toNat / (base : ℚ) ^ (-e).toNat := by
    conv_lhs => rw [← Int.toNat_sub_toNat_neg e]
    rw [zpow_sub₀ (Nat.cast_ne_zero.mpr hbase), zpow_natCast, zpow_natCast]
  rw [magnitude, split, Nat.cast_mul, Nat.cast_pow, Nat.cast_pow, mul_div_assoc]

theorem wholePart_eq_floor (hbase : base ≠ 0) (m : Nat) (e : Int) :
    (wholePart base m e : Int) = ⌊magnitude base m e⌋ := by
  rw [magnitude_eq_div hbase, Rat.floor_natCast_div_natCast, wholePart, Nat.pow_eq, Nat.pow_eq]
  exact Int.natCast_div _ _

theorem signed_magnitude_pos (hbase : base ≠ 0) (negative : Bool) (m : Nat) (e : Int) :
    0 < signed negative (magnitude base m e) ↔ negative = false ∧ m ≠ 0 := by
  have power : (0 : ℚ) < (base : ℚ) ^ e := zpow_pos (Nat.cast_pos.mpr (Nat.pos_of_ne_zero hbase)) e
  have nonneg : 0 ≤ magnitude base m e := mul_nonneg (Nat.cast_nonneg m) power.le
  have pos : 0 < magnitude base m e ↔ m ≠ 0 := by
    rw [magnitude, mul_pos_iff_of_pos_right power, Nat.cast_pos, Nat.pos_iff_ne_zero]
  cases negative with
  | false => simpa [signed] using pos
  | true => simpa [signed] using nonneg

def Binary64.value? : Binary64 → Option ℚ
  | .finite negative mantissa exponent => some (signed negative (magnitude 2 mantissa exponent))
  | _ => none

def Decimal.value? : Decimal → Option ℚ
  | .finite negative c e => some (signed negative (magnitude 10 c e))
  | _ => none

end CatalogSearch.Number

namespace CatalogSearch.Database

open Number

def Timeout.value? : Timeout → Option ℚ
  | int n => some n
  | bool b => some (if b then 1 else 0)
  | float x => x.value?
  | decimal d => d.value?

/-- An integer is shown by its digits, of which there are not too many; every other timeout has a
text. -/
def Timeout.Shown (t : Timeout) : Prop := ∀ n, t = .int n → n.natAbs < Nat.pow 10 literalLimit

theorem refusal_of_shown {t : Timeout} (shown : t.Shown) : t.refusal = .notPositive t.text := by
  cases t with
  | int n => rw [Timeout.refusal, if_pos (shown n rfl), Timeout.text]
  | bool b => rfl
  | float x => rfl
  | decimal d => rfl

theorem refusal_of_not_shown {t : Timeout} (long : ¬ t.Shown) : t.refusal = .tooManyDigits := by
  obtain ⟨n, rfl, digits⟩ : ∃ n, t = .int n ∧ ¬ n.natAbs < Nat.pow 10 literalLimit := by
    simpa only [Timeout.Shown, not_forall, exists_prop] using long
  rw [Timeout.refusal, if_neg digits]

theorem cut_eq {base : Nat} (hbase : base ≠ 0) (negative : Bool) (m : Nat) (e : Int)
    (refusal : SessionError) :
    (if !negative && m ≠ 0 then Except.ok (wholePart base m e : Int) else .error refusal) =
      if 0 < signed negative (magnitude base m e) then
        .ok ⌊signed negative (magnitude base m e)⌋ else .error refusal := by
  have positive := signed_magnitude_pos hbase negative m e
  by_cases h : negative = false ∧ m ≠ 0
  · obtain ⟨rfl, hm⟩ := h
    rw [if_pos (positive.mpr ⟨rfl, hm⟩), wholePart_eq_floor hbase]
    simp [hm, signed]
  · rw [if_neg (mt positive.mp h), if_neg]
    simpa using h

theorem milliseconds?_eq {t : Timeout} {v : ℚ} (finite : t.value? = some v) :
    t.milliseconds? = if 0 < v then .ok ⌊v⌋ else .error t.refusal := by
  cases t with
  | int n =>
      obtain rfl := Option.some.inj finite
      simp [Timeout.milliseconds?]
  | bool b =>
      obtain rfl := Option.some.inj finite
      cases b <;> simp [Timeout.milliseconds?]
  | float x =>
      cases x with
      | nan => cases finite
      | infinite negative => cases finite
      | finite negative mantissa exponent =>
          obtain rfl := Option.some.inj finite
          exact cut_eq (by decide) negative mantissa exponent _
  | decimal d =>
      cases d with
      | nan negative signalling payload => cases finite
      | infinite negative => cases finite
      | finite negative c e =>
          obtain rfl := Option.some.inj finite
          exact cut_eq (by decide) negative c e _

/-! ## What a session sets -/

def SessionStatement.timeout? : SessionStatement → Option Int
  | timeout milliseconds => some milliseconds
  | _ => none

def timeoutsOf (statements : List SessionStatement) : List Int :=
  statements.filterMap SessionStatement.timeout?

theorem timeoutsOf_schemaStatements {schema : Option SchemaChoice}
    {schemas : List SessionStatement} (made : schemaStatements schema = .ok schemas) :
    timeoutsOf schemas = [] := by
  unfold schemaStatements at made
  split at made
  · rw [← Except.ok.inj made]
    rfl
  · cases made
  · split at made
    · rw [← Except.ok.inj made]
      rfl
    · cases made

theorem timeoutsOf_statements {schema : Option SchemaChoice} {schemas : List SessionStatement}
    (made : schemaStatements schema = .ok schemas) (n : Int) :
    timeoutsOf (.timeZone :: [.timeout n] ++ schemas) = [n] := by
  have none := timeoutsOf_schemaStatements made
  unfold timeoutsOf at none ⊢
  rw [List.filterMap_append, none]
  rfl

theorem milliseconds?_of_value?_eq_none {t : Timeout} (endless : t.value? = none) :
    ∃ e, t.milliseconds? = .error e := by
  cases t with
  | int n => cases endless
  | bool b => cases endless
  | float x =>
      cases x with
      | nan => exact ⟨_, rfl⟩
      | infinite negative => cases negative <;> exact ⟨_, rfl⟩
      | finite negative mantissa exponent => cases endless
  | decimal d =>
      cases d with
      | nan negative signalling payload => exact ⟨_, rfl⟩
      | infinite negative => cases negative <;> exact ⟨_, rfl⟩
      | finite negative c e => cases endless

theorem timeoutStatements_eq_ok {t : Timeout} {timeouts : List SessionStatement} :
    timeoutStatements (some t) = .ok timeouts ↔
      ∃ v, t.value? = some v ∧ 0 < v ∧ timeouts = [.timeout ⌊v⌋] := by
  rw [timeoutStatements]
  cases value : t.value? with
  | none =>
      obtain ⟨e, refused⟩ := milliseconds?_of_value?_eq_none value
      simp [refused, Except.map]
  | some v =>
      rw [milliseconds?_eq value]
      split
      · next positive => simp [Except.map, positive, eq_comm]
      · next refused => simp [Except.map, refused]

/-- One timeout is set, of at least a millisecond and of no more than was given. -/
def InForce (v : ℚ) (statements : List SessionStatement) : Prop :=
  ∃ n : Int, timeoutsOf statements = [n] ∧ 1 ≤ n ∧ (n : ℚ) ≤ v

theorem inForce_iff {v : ℚ} {statements : List SessionStatement}
    (set : timeoutsOf statements = [⌊v⌋]) : InForce v statements ↔ 1 ≤ v := by
  constructor
  · rintro ⟨n, -, least, most⟩
    exact le_trans (by exact_mod_cast least) most
  · intro least
    exact ⟨⌊v⌋, set, Int.le_floor.mpr (by simpa using least), Int.floor_le v⟩

/-- A timeout is accepted if it is a finite number and more than zero, and in force if it is one at
least. The refusal of a number shows it unless it has too many digits. -/
theorem timeout_in_force_iff (t : Timeout) (schema : Option SchemaChoice) :
    ((∃ statements, sessionStatements ⟨some t, schema⟩ = .ok statements) ↔
      (∃ v, t.value? = some v ∧ 0 < v) ∧ ∃ schemas, schemaStatements schema = .ok schemas) ∧
    ∀ v, t.value? = some v →
      (v ≤ 0 → (t.Shown → sessionStatements ⟨some t, schema⟩ = .error (.notPositive t.text)) ∧
        (¬ t.Shown → sessionStatements ⟨some t, schema⟩ = .error .tooManyDigits)) ∧
      ∀ statements, sessionStatements ⟨some t, schema⟩ = .ok statements →
        timeoutsOf statements = [⌊v⌋] ∧ (InForce v statements ↔ 1 ≤ v) := by
  refine ⟨⟨?_, ?_⟩, fun v value => ⟨?_, ?_⟩⟩
  · rintro ⟨statements, made⟩
    obtain ⟨_, schemas, htimeouts, hschemas, _⟩ := sessionStatements_eq_ok.mp made
    obtain ⟨v, value, positive, _⟩ := timeoutStatements_eq_ok.mp htimeouts
    exact ⟨⟨v, value, positive⟩, schemas, hschemas⟩
  · rintro ⟨⟨v, value, positive⟩, schemas, hschemas⟩
    have htimeouts := timeoutStatements_eq_ok.mpr ⟨v, value, positive, rfl⟩
    exact ⟨_, sessionStatements_eq_ok.mpr ⟨_, _, htimeouts, hschemas, rfl⟩⟩
  · intro nonpositive
    have refused : sessionStatements ⟨some t, schema⟩ = .error t.refusal := by
      rw [sessionStatements, timeoutStatements, milliseconds?_eq value,
        if_neg (not_lt.mpr nonpositive)]
      rfl
    exact ⟨fun shown => refused.trans (congrArg _ (refusal_of_shown shown)),
      fun long => refused.trans (congrArg _ (refusal_of_not_shown long))⟩
  · intro statements made
    obtain ⟨timeouts, schemas, htimeouts, hschemas, rfl⟩ := sessionStatements_eq_ok.mp made
    obtain ⟨w, hw, _, rfl⟩ := timeoutStatements_eq_ok.mp htimeouts
    obtain rfl : w = v := Option.some.inj (hw.symm.trans value)
    have set := timeoutsOf_statements hschemas ⌊w⌋
    exact ⟨set, inForce_iff set⟩

theorem timeout_in_force_two_and_a_half :
    (Timeout.decimal (.finite false 25 (-1))).value? = some (5 / 2) ∧
    ∃ statements, sessionStatements
      ⟨some (.decimal (.finite false 25 (-1))), some (.named "catalog")⟩ = .ok statements ∧
      timeoutsOf statements = [2] ∧ InForce (5 / 2) statements := by
  have finite : (Timeout.decimal (.finite false 25 (-1))).value? = some (5 / 2) := by
    norm_num [Timeout.value?, Decimal.value?, signed, magnitude]
  obtain ⟨accepted, forced⟩ := timeout_in_force_iff
    (.decimal (.finite false 25 (-1))) (some (.named "catalog"))
  obtain ⟨statements, made⟩ :=
    accepted.mpr ⟨⟨_, finite, by norm_num⟩, [.schema "catalog"], by decide⟩
  obtain ⟨set, inForce⟩ := (forced _ finite).2 statements made
  have floor : ⌊(5 / 2 : ℚ)⌋ = 2 := by norm_num
  exact ⟨finite, statements, made, floor ▸ set, inForce.mpr (by norm_num)⟩

/-- Half a millisecond is accepted, and sets no timeout at all. -/
theorem half_millisecond_accepted :
    (Timeout.float (.finite false (2 ^ 52) (-53))).value? = some (1 / 2) ∧
    sessionStatements ⟨some (.float (.finite false (2 ^ 52) (-53))), none⟩ =
      .ok [.timeZone, .timeout 0] ∧
    ¬ InForce (1 / 2) [.timeZone, .timeout 0] := by
  refine ⟨?_, by decide, ?_⟩
  · norm_num [Timeout.value?, Binary64.value?, signed, magnitude]
  · rintro ⟨n, set, least, -⟩
    have zero : timeoutsOf [.timeZone, .timeout 0] = [0] := rfl
    obtain rfl : 0 = n := List.singleton_inj.mp (zero.symm.trans set)
    exact absurd least (by decide)

end CatalogSearch.Database
