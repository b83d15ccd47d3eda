import Mathlib.Data.List.Basic
import Mathlib.Data.List.Lex
import Mathlib.Data.Nat.Basic
import Mathlib.Data.String.Basic
import Mathlib.Order.Nat

/-!
# Numbers in a field of digits

The directive `%0kd`: a number in decimal, with zeros in front up to a width. Names with such a number are
compared character by character, which is the order of the numbers as long as they fit into the width.
-/

namespace PaddedNumber

def padded (width n : ℕ) : List Char := List.leftpad width '0' (Nat.toDigits 10 n)

/-- The last digits of a number. -/
def lowDigits : ℕ → ℕ → List Char
  | 0, _ => []
  | width + 1, n => lowDigits width (n / 10) ++ [Nat.digitChar (n % 10)]

lemma digitChar_lt : ∀ b < 10, ∀ a < b, Nat.digitChar a < Nat.digitChar b := by decide

lemma zero_le_digitChar : ∀ a < 10, '0' ≤ Nat.digitChar a := by decide

lemma zero_le_of_mem_lowDigits {width n : ℕ} {d : Char} (h : d ∈ lowDigits width n) : '0' ≤ d := by
  induction width generalizing n with
  | zero => exact absurd h List.not_mem_nil
  | succ width ih =>
    rcases List.mem_append.mp h with h | h
    · exact ih h
    · rw [List.mem_singleton.mp h]
      exact zero_le_digitChar _ (Nat.mod_lt n (by omega))

lemma lowDigits_add (a b n : ℕ) : lowDigits (a + b) n = lowDigits a (n / 10 ^ b) ++ lowDigits b n := by
  induction b generalizing n with
  | zero => simp [lowDigits]
  | succ b ih =>
    rw [← Nat.add_assoc, lowDigits, lowDigits, ih, Nat.div_div_eq_div_mul, ← Nat.pow_succ', List.append_assoc]

lemma lowDigits_zero (width : ℕ) : lowDigits width 0 = List.replicate width '0' := by
  induction width with
  | zero => rfl
  | succ width ih =>
    rw [lowDigits, Nat.zero_div, ih, List.replicate_succ']
    rfl

/-- The decimal representation is as many digits as it has. -/
lemma toDigits_eq_lowDigits (n : ℕ) : Nat.toDigits 10 n = lowDigits (Nat.toDigits 10 n).length n := by
  induction n using Nat.strong_induction_on with
  | _ n ih =>
    by_cases hn : n < 10
    · rw [Nat.toDigits_of_lt_base hn, List.length_singleton, lowDigits, lowDigits, Nat.mod_eq_of_lt hn]
      rfl
    · have hdigits : Nat.toDigits 10 n = Nat.toDigits 10 (n / 10) ++ [Nat.digitChar (n % 10)] :=
        Nat.toDigits_of_base_le (by omega) (by omega)
      rw [hdigits, List.length_append, List.length_singleton, lowDigits, ← ih (n / 10) (by omega)]

lemma lt_pow_length (n : ℕ) : n < 10 ^ (Nat.toDigits 10 n).length :=
  (Nat.length_toDigits_le_iff (by omega) Nat.length_toDigits_pos).mp le_rfl

lemma padded_eq (width n : ℕ) : padded width n = lowDigits (max width (Nat.toDigits 10 n).length) n := by
  have hwidth : max width (Nat.toDigits 10 n).length =
      (width - (Nat.toDigits 10 n).length) + (Nat.toDigits 10 n).length := by omega
  rw [hwidth, lowDigits_add, Nat.div_eq_of_lt (lt_pow_length n), lowDigits_zero, ← toDigits_eq_lowDigits]
  rfl

lemma padded_of_lt {width n : ℕ} (hn : n < 10 ^ (width + 1)) : padded (width + 1) n = lowDigits (width + 1) n := by
  have hlength := (Nat.length_toDigits_le_iff (b := 10) (by omega) (Nat.succ_pos width)).mpr hn
  rw [padded_eq, max_eq_left hlength]

/-- A number that does not fit is written in full. -/
lemma padded_of_le {width n : ℕ} (hn : 10 ^ (width + 1) ≤ n) : ∃ more,
    padded (width + 1) n = lowDigits (width + 1) (n / 10 ^ (more + 1)) ++ lowDigits (more + 1) n ∧
      10 ^ width ≤ n / 10 ^ (more + 1) ∧ n / 10 ^ (more + 1) < 10 ^ (width + 1) := by
  have hlength : width + 1 < (Nat.toDigits 10 n).length := by
    by_contra hshort
    have hlt := (Nat.length_toDigits_le_iff (b := 10) (by omega) (Nat.succ_pos width)).mp (not_lt.mp hshort)
    omega
  obtain ⟨more, hmore⟩ := Nat.exists_eq_add_of_lt hlength
  have hsplit : (Nat.toDigits 10 n).length = (width + 1) + (more + 1) := by omega
  have hupper : n < 10 ^ (width + 1) * 10 ^ (more + 1) := by
    rw [← Nat.pow_add, ← hsplit]
    exact lt_pow_length n
  have hlower : 10 ^ width * 10 ^ (more + 1) ≤ n := by
    rw [← Nat.pow_add]
    by_contra hlt
    have hle := (Nat.length_toDigits_le_iff (b := 10) (by omega) (by omega)).mpr (not_le.mp hlt)
    omega
  refine ⟨more, ?_, ?_, ?_⟩
  · rw [padded_eq, max_eq_right hlength.le, hsplit, lowDigits_add]
  · exact (Nat.le_div_iff_mul_le (Nat.pow_pos (by omega))).mpr hlower
  · exact (Nat.div_lt_iff_lt_mul (Nat.pow_pos (by omega))).mpr hupper

/-! ### Comparing -/

lemma cons_append_lt {a b : Char} (h : a < b) (s t : List Char) : a :: s < b :: t :=
  List.cons_lt_cons_iff.mpr (.inl h)

/-- Fields of one width compare as their numbers, whatever follows. -/
lemma lowDigits_append_lt {width i j : ℕ} (h : i < j) (hj : j < 10 ^ width) (s t : List Char) :
    lowDigits width i ++ s < lowDigits width j ++ t := by
  induction width generalizing i j s t with
  | zero => omega
  | succ width ih =>
    rw [lowDigits, lowDigits, List.append_assoc, List.append_assoc]
    rcases Nat.lt_or_ge (i / 10) (j / 10) with hlt | hge
    · rw [Nat.pow_succ] at hj
      exact ih hlt (by omega) _ _
    · have heq : i / 10 = j / 10 := by omega
      rw [heq]
      apply List.append_left_lt
      exact cons_append_lt (digitChar_lt (j % 10) (by omega) (i % 10) (by omega)) s t

/-- Up to the first number that fills the width, the order is right against all numbers. -/
theorem padded_append_lt {width i j : ℕ} (h : i < j) (hi : i ≤ 10 ^ width ∨ j < 10 ^ (width + 1)) {c : Char}
    (hc : c < '0') (s t : List Char) : padded (width + 1) i ++ c :: s < padded (width + 1) j ++ t := by
  rcases Nat.lt_or_ge j (10 ^ (width + 1)) with hj | hj
  · rw [padded_of_lt (h.trans hj), padded_of_lt hj]
    exact lowDigits_append_lt h hj _ _
  · have hi : i ≤ 10 ^ width := by omega
    have hpos : 0 < 10 ^ width := Nat.pow_pos (by omega)
    have hfits : i < 10 ^ (width + 1) := by
      rw [Nat.pow_succ]
      omega
    obtain ⟨more, hpadded, hlow, hhigh⟩ := padded_of_le hj
    rw [padded_of_lt hfits, hpadded, List.append_assoc]
    rcases Nat.lt_or_ge i (j / 10 ^ (more + 1)) with hlt | hge
    · exact lowDigits_append_lt hlt hhigh _ _
    · have heq : i = j / 10 ^ (more + 1) := by omega
      rw [← heq]
      apply List.append_left_lt
      -- The shorter number ends here, and the longer one has a digit more.
      have hdigit : lowDigits (more + 1) j ≠ [] := by simp [lowDigits]
      obtain ⟨d, rest, hd⟩ := List.exists_cons_of_ne_nil hdigit
      have hzero : '0' ≤ d := zero_le_of_mem_lowDigits (hd ▸ List.mem_cons_self)
      rw [hd]
      exact cons_append_lt (lt_of_lt_of_le hc hzero) _ _

/-- The first number that is too long comes before the second one that fills the width. -/
theorem padded_pow_append_lt (width : ℕ) (s t : List Char) :
    padded (width + 1) (10 ^ (width + 1)) ++ s < padded (width + 1) (10 ^ width + 1) ++ t := by
  have hpos : 0 < 10 ^ width := Nat.pow_pos (by omega)
  have hfits : 10 ^ width + 1 < 10 ^ (width + 1) := by
    rw [Nat.pow_succ]
    omega
  have hlength : (Nat.toDigits 10 (10 ^ (width + 1))).length = width + 2 := by
    apply le_antisymm
    · exact (Nat.length_toDigits_le_iff (by omega) (by omega)).mpr (Nat.pow_lt_pow_right (by omega) (by omega))
    · by_contra hshort
      have hlt := (Nat.length_toDigits_le_iff (b := 10) (n := 10 ^ (width + 1)) (by omega)
        (Nat.succ_pos width)).mp (by omega)
      exact absurd hlt (lt_irrefl _)
  have hdiv : 10 ^ (width + 1) / 10 ^ 1 = 10 ^ width := by
    rw [Nat.pow_succ, Nat.pow_one, Nat.mul_div_cancel _ (by omega)]
  rw [padded_eq, hlength, max_eq_right (by omega), padded_of_lt hfits, lowDigits_add (width + 1) 1, hdiv,
    List.append_assoc]
  exact lowDigits_append_lt (Nat.lt_succ_self _) hfits _ _

end PaddedNumber
