import Mathlib.Data.Int.Log
import Mathlib.Algebra.Order.Round
import Mathlib.Algebra.Order.Ring.Rat
import Mathlib.Data.Rat.Floor
import Mathlib.Tactic.Linarith
import Mathlib.Tactic.Positivity

/-!
# Quotients of integers as floating-point numbers

Python's `a / b` on integers: the quotient rounded once to binary64, to the nearest value and to the even one
of two that are equally near, with an error where the result is too large.
-/

namespace Binary64

/-! ### Rounding to an integer -/

def roundHalfEven (x : ℚ) : ℤ :=
  if Int.fract x < 1 / 2 then ⌊x⌋
  else if 1 / 2 < Int.fract x then ⌊x⌋ + 1
  else if Even ⌊x⌋ then ⌊x⌋ else ⌊x⌋ + 1

lemma roundHalfEven_bounds (x : ℚ) : ⌊x⌋ ≤ roundHalfEven x ∧ roundHalfEven x ≤ ⌊x⌋ + 1 := by
  unfold roundHalfEven
  split_ifs <;> omega

/-- The integers up to the rounded number are those that the number reaches up to a half. -/
lemma le_roundHalfEven_iff {n : ℤ} {x : ℚ} :
    n ≤ roundHalfEven x ↔ (n : ℚ) - 1 / 2 < x ∨ (n : ℚ) - 1 / 2 = x ∧ Even n := by
  obtain ⟨hlow, hhigh⟩ := roundHalfEven_bounds x
  have hfloor := Int.floor_le x
  have hlt := Int.lt_floor_add_one x
  rcases lt_trichotomy n (⌊x⌋ + 1) with hn | hn | hn
  · have hle : (n : ℚ) ≤ ⌊x⌋ := by exact_mod_cast Int.lt_add_one_iff.mp hn
    exact iff_of_true (by omega) (.inl (by linarith))
  · have hfract : x = ⌊x⌋ + Int.fract x := (Int.floor_add_fract x).symm
    subst hn
    push_cast
    unfold roundHalfEven
    split_ifs with hbelow habove heven
    · refine iff_of_false (by omega) (not_or.mpr ⟨?_, fun h => ?_⟩)
      · linarith
      · linarith [h.1]
    · exact iff_of_true le_rfl (.inl (by linarith))
    · refine iff_of_false (by omega) (not_or.mpr ⟨?_, fun h => ?_⟩)
      · linarith
      · exact absurd heven (Int.even_add_one.mp h.2)
    · exact iff_of_true le_rfl (.inr ⟨by linarith, Int.even_add_one.mpr heven⟩)
  · have hstep : ⌊x⌋ + 2 ≤ n := by omega
    have hle : (⌊x⌋ : ℚ) + 2 ≤ n := by exact_mod_cast hstep
    refine iff_of_false (by omega) (not_or.mpr ⟨by linarith, fun h => ?_⟩)
    linarith [h.1]

lemma le_roundHalfEven {n : ℤ} {x : ℚ} (h : (n : ℚ) ≤ x) : n ≤ roundHalfEven x :=
  le_roundHalfEven_iff.mpr (.inl (by linarith))

lemma roundHalfEven_le (x : ℚ) : (roundHalfEven x : ℚ) ≤ x + 1 / 2 := by
  rcases le_roundHalfEven_iff.mp (le_refl (roundHalfEven x)) with h | ⟨h, -⟩
  · linarith
  · linarith

/-! ### Rounding to 53 bits -/

/-- The unit in the last place of a number. -/
def ulp (x : ℚ) : ℚ := 2 ^ (max (Int.log 2 |x|) (-1022) - 52)

lemma ulp_pos (x : ℚ) : 0 < ulp x := zpow_pos two_pos _

def nearest (x : ℚ) : ℚ := roundHalfEven (x / ulp x) * ulp x

/-- The number is at least halfway up to the first multiple of its last place that is not below the bound,
and where it is just halfway, that multiple is even. -/
def Reaches (bound x : ℚ) : Prop :=
  (⌈bound / ulp x⌉ - 1 / 2) * ulp x < x ∨ (⌈bound / ulp x⌉ - 1 / 2) * ulp x = x ∧ Even ⌈bound / ulp x⌉

instance (bound x : ℚ) : Decidable (Reaches bound x) := inferInstanceAs (Decidable (_ ∨ _))

/-- What rounds to a value from the bound on. -/
theorem le_nearest_iff {bound x : ℚ} : bound ≤ nearest x ↔ Reaches bound x := by
  have hpos := ulp_pos x
  rw [nearest, ← div_le_iff₀ hpos, ← Int.ceil_le, le_roundHalfEven_iff, lt_div_iff₀ hpos, eq_div_iff hpos.ne', Reaches]

lemma nearest_le (x : ℚ) : nearest x ≤ x + ulp x / 2 := by
  have hpos := ulp_pos x
  have hround := mul_le_mul_of_nonneg_right (roundHalfEven_le (x / ulp x)) hpos.le
  rw [add_mul, div_mul_cancel₀ x hpos.ne'] at hround
  rw [nearest]
  linarith

lemma nearest_nonneg {x : ℚ} (h : 0 ≤ x) : 0 ≤ nearest x := by
  have hpos := ulp_pos x
  have hscaled : ((0 : ℤ) : ℚ) ≤ x / ulp x := by
    rw [Int.cast_zero]
    exact div_nonneg h hpos.le
  have hround : (0 : ℚ) ≤ roundHalfEven (x / ulp x) := by exact_mod_cast le_roundHalfEven hscaled
  exact mul_nonneg hround hpos.le

section Large

variable {x : ℚ}

lemma ulp_of_one_le (h : 1 ≤ x) : ulp x = 2 ^ (Int.log 2 x - 52) := by
  have hlog : 0 ≤ Int.log 2 x := by
    rw [Int.log_of_one_le_right 2 h]
    exact Int.natCast_nonneg _
  rw [ulp, abs_of_nonneg (by linarith), max_eq_left (by omega)]

lemma ulp_le (h : 1 ≤ x) : ulp x * 2 ^ 52 ≤ x := by
  have hlog := Int.zpow_log_le_self (b := 2) one_lt_two (lt_of_lt_of_le one_pos h)
  have hsplit : ulp x * 2 ^ 52 = (2 : ℚ) ^ Int.log 2 x := by
    rw [ulp_of_one_le h, ← zpow_natCast, ← zpow_add₀ two_ne_zero]
    norm_num
  rw [hsplit]
  exact_mod_cast hlog

/-- Below `2 ^ 53` every integer is a value. -/
lemma natCast_le_nearest (h : 1 ≤ x) (hlt : x < 2 ^ 53) {n : ℤ} (hn : (n : ℚ) ≤ x) : (n : ℚ) ≤ nearest x := by
  have hlog : Int.log 2 x ≤ 52 := by
    have hx :=
      (Int.lt_zpow_iff_log_lt (b := 2) one_lt_two (x := 53) (lt_of_lt_of_le one_pos h)).mp (by exact_mod_cast hlt)
    omega
  have hscale : (n : ℚ) / ulp x = ((n * 2 ^ (52 - Int.log 2 x).toNat : ℤ) : ℚ) := by
    have hexp : ((52 - Int.log 2 x).toNat : ℤ) = -(Int.log 2 x - 52) := by omega
    rw [ulp_of_one_le h, div_eq_mul_inv, ← zpow_neg, ← hexp]
    push_cast
    rw [zpow_natCast]
  have hpos := ulp_pos x
  have hle : (n : ℚ) / ulp x ≤ x / ulp x := div_le_div_of_nonneg_right hn hpos.le
  rw [nearest, ← div_le_iff₀ hpos, hscale]
  rw [hscale] at hle
  exact_mod_cast le_roundHalfEven hle

/-- A quotient with a numerator below `2 ^ 53` is not rounded past an integer. -/
theorem intCast_le_nearest_div_iff {a b n : ℤ} (hb : 0 < b) (hab : b ≤ a) (ha : a < 2 ^ 53) :
    (n : ℚ) ≤ nearest (a / b) ↔ b * n ≤ a := by
  have hbq : (0 : ℚ) < b := by exact_mod_cast hb
  have haq : (a : ℚ) < 2 ^ 53 := by exact_mod_cast ha
  have hone : 1 ≤ (a : ℚ) / b := (one_le_div₀ hbq).mpr (by exact_mod_cast hab)
  have hexact : (n : ℚ) ≤ a / b ↔ b * n ≤ a := by
    rw [le_div_iff₀ hbq, mul_comm]
    exact_mod_cast Iff.rfl
  rw [← hexact]
  constructor
  · intro hround
    by_contra hlt
    rw [hexact, not_le] at hlt
    -- The quotient is at least `1 / b` below `n`, and half its last place is less than that.
    have hgap : (a : ℚ) / b + 1 / b ≤ n := by
      rw [← add_div, div_le_iff₀ hbq, mul_comm]
      exact_mod_cast hlt
    have hulp : ulp ((a : ℚ) / b) < 2 / b := by
      have hle := ulp_le hone
      rw [le_div_iff₀ hbq] at hle
      rw [lt_div_iff₀ hbq]
      nlinarith
    have hnear := nearest_le ((a : ℚ) / b)
    have hhalf : ulp ((a : ℚ) / b) / 2 < 1 / b := by
      rw [div_lt_iff₀ two_pos]
      calc ulp ((a : ℚ) / b) < 2 / b := hulp
        _ = 1 / b * 2 := by ring
    linarith
  · intro hle
    refine natCast_le_nearest hone ?_ hle
    have hbone : (1 : ℚ) ≤ b := by exact_mod_cast hb
    have hnonneg : (0 : ℚ) ≤ a := by exact_mod_cast hb.le.trans hab
    exact lt_of_le_of_lt (div_le_self hnonneg hbone) haq

end Large

/-! ### The operators of Python -/

inductive ArithmeticError where
  | zeroDivisionError
  | overflowError
  deriving DecidableEq

/-- `a / b` -/
def trueDiv (a b : ℤ) : Except ArithmeticError ℚ :=
  if b = 0 then .error .zeroDivisionError
  else if 2 ^ 1024 ≤ |nearest (a / b)| then .error .overflowError
  else .ok (nearest (a / b))

/-- `int(x)` of a float that is finite. -/
def truncate (x : ℚ) : ℤ := if 0 ≤ x then ⌊x⌋ else ⌈x⌉

lemma le_truncate_nearest_iff {n : ℤ} {x : ℚ} (h : 0 ≤ x) : n ≤ truncate (nearest x) ↔ Reaches n x := by
  rw [truncate, if_pos (nearest_nonneg h), Int.le_floor, le_nearest_iff]

/-- The quotient of positive numbers is too large exactly where it reaches `2 ^ 1024`. -/
lemma trueDiv_of_pos {a b : ℤ} (ha : 0 ≤ a) (hb : 0 < b) :
    trueDiv a b = if Reaches (2 ^ 1024) ((a : ℚ) / b) then .error .overflowError else .ok (nearest (a / b)) := by
  have hquotient : (0 : ℚ) ≤ a / b := div_nonneg (by exact_mod_cast ha) (by exact_mod_cast hb.le)
  rw [trueDiv, if_neg hb.ne', abs_of_nonneg (nearest_nonneg hquotient)]
  simp only [le_nearest_iff]

end Binary64
