import Mathlib.Algebra.Order.Field.Power
import Mathlib.Algebra.Order.Floor.Ring
import Mathlib.Data.Int.Log
import Mathlib.Data.Nat.Prime.Basic
import Mathlib.Data.Rat.Floor
import Mathlib.Tactic.Linarith
import Mathlib.Tactic.NormNum
import Mathlib.Tactic.Positivity
import Mathlib.Tactic.Ring

/-!
The numbers an IEEE double holds exactly, and the rounding of a number to them.

A double is a mantissa of 53 bits at a place between `2 ^ -1074` and `2 ^ 971`. A number is rounded
at the place of its own last bit, a tie to the even mantissa; from half a place above the largest
double on, there is nothing left to round to.
-/

namespace ManagedAgents.Lib

/-- The nearest integer, and the even one of two. -/
def halfEven (x : ℚ) : ℤ :=
  if x - ⌊x⌋ < 1 / 2 then ⌊x⌋
  else if 1 / 2 < x - ⌊x⌋ then ⌊x⌋ + 1
  else if ⌊x⌋ % 2 = 0 then ⌊x⌋ else ⌊x⌋ + 1

/-- Some double is exactly this number. -/
def IsDouble (x : ℚ) : Prop :=
  ∃ m e : ℤ, |m| < 2 ^ 53 ∧ -1074 ≤ e ∧ e ≤ 971 ∧ x = m * 2 ^ e

/-- The place of a double's last bit, near this number. -/
def lastPlace (x : ℚ) : ℤ := max (Int.log 2 |x| - 52) (-1074)

/-- The double that is nearest, when one is. -/
def toDouble (x : ℚ) : ℚ := halfEven (x / 2 ^ lastPlace x) * 2 ^ lastPlace x

/-- The least magnitude that rounds to no double: half a place below `2 ^ 1024`. -/
def doubleLimit : ℕ := (2 ^ 54 - 1) * 2 ^ 970

lemma doubleLimit_eq : (doubleLimit : ℚ) = (2 ^ 53 - 1 / 2) * 2 ^ 971 := by
  have hplaces : ((2 ^ 54 - 1 : ℕ) : ℚ) = 2 ^ 54 - 1 := by norm_num
  rw [doubleLimit, Nat.cast_mul, Nat.cast_pow, hplaces, Nat.cast_ofNat, pow_succ 2 970]
  generalize (2 : ℚ) ^ 970 = place
  ring

section

variable {x : ℚ} {n : ℤ}

@[simp] lemma halfEven_int : halfEven n = n := by simp [halfEven]

lemma halfEven_cases (x : ℚ) : halfEven x = ⌊x⌋ ∨ halfEven x = ⌊x⌋ + 1 := by
  unfold halfEven
  split_ifs <;> simp

lemma abs_halfEven_le (h : |x| < n) : |halfEven x| ≤ n := by
  obtain ⟨hlow, hhigh⟩ := abs_lt.1 h
  have hfloor : -n ≤ ⌊x⌋ := Int.le_floor.2 (by push_cast; exact hlow.le)
  have hnext : ⌊x⌋ < n := Int.floor_lt.2 hhigh
  rw [abs_le]
  rcases halfEven_cases x with h | h <;> omega

/-- Half a place below a number there is only what is rounded to less. -/
lemma abs_halfEven_lt (h : |x| < n - 1 / 2) : |halfEven x| < n := by
  obtain ⟨hlow, hhigh⟩ := abs_lt.1 h
  have hle := abs_le.1 (abs_halfEven_le (x := x) (n := n) (by linarith))
  have hfloor := Int.floor_le x
  have hnext := Int.lt_floor_add_one x
  rw [abs_lt]
  constructor
  · refine lt_of_le_of_ne hle.1 fun heq => ?_
    have hup : halfEven x = ⌊x⌋ := by
      rcases halfEven_cases x with h | h
      · exact h
      · have hbelow : -n ≤ ⌊x⌋ := Int.le_floor.2 (by push_cast; linarith)
        omega
    have hn : (⌊x⌋ : ℚ) = -n := by rw [← hup, ← heq]; push_cast; rfl
    have hfraction : ¬ x - ⌊x⌋ < 1 / 2 := by rw [hn]; linarith
    have hfraction' : 1 / 2 < x - ⌊x⌋ := by rw [hn]; linarith
    simp only [halfEven, hfraction, hfraction', if_true, if_false] at hup
    omega
  · refine lt_of_le_of_ne hle.2 fun heq => ?_
    have hup : halfEven x = ⌊x⌋ + 1 := by
      rcases halfEven_cases x with h | h
      · have habove : ⌊x⌋ < n := Int.floor_lt.2 (by linarith)
        omega
      · exact h
    have hn : (⌊x⌋ : ℚ) = n - 1 := by
      have : ⌊x⌋ = n - 1 := by omega
      rw [this]
      push_cast
      rfl
    have hfraction : x - ⌊x⌋ < 1 / 2 := by rw [hn]; linarith
    simp only [halfEven, hfraction, if_true] at hup
    omega

lemma lt_lastPlace (x : ℚ) : |x| < 2 ^ (lastPlace x + 53) := by
  have hlog : Int.log 2 |x| + 1 ≤ lastPlace x + 53 := by
    unfold lastPlace
    omega
  calc |x| < (2 : ℕ) ^ (Int.log 2 |x| + 1) := Int.lt_zpow_succ_log_self (by norm_num) _
    _ ≤ 2 ^ (lastPlace x + 53) := by
      push_cast
      exact zpow_le_zpow_right₀ (by norm_num) hlog

lemma lastPlace_le {e : ℤ} (hx : x ≠ 0) (he : -1074 ≤ e) (h : |x| < 2 ^ (e + 53)) :
    lastPlace x ≤ e := by
  have hlog := (Int.lt_zpow_iff_log_lt (b := 2) (by norm_num) (abs_pos.2 hx) (x := e + 53)).1
    (by push_cast; exact h)
  refine max_le ?_ he
  omega

lemma isDouble_zero : IsDouble 0 := ⟨0, 0, by norm_num, by norm_num, by norm_num, by norm_num⟩

lemma IsDouble.lt_limit (h : IsDouble x) : |x| < doubleLimit := by
  obtain ⟨m, e, hm, -, he, rfl⟩ := h
  have hmantissa : |(m : ℚ)| ≤ 2 ^ 53 - 1 := by
    have hle : |m| ≤ 2 ^ 53 - 1 := by omega
    exact_mod_cast hle
  have hplace : (2 : ℚ) ^ e ≤ 2 ^ 971 := by
    rw [← zpow_natCast]
    exact zpow_le_zpow_right₀ (by norm_num) he
  have hpos : (0 : ℚ) < 2 ^ e := by positivity
  calc |(m : ℚ) * 2 ^ e| = |(m : ℚ)| * 2 ^ e := by rw [abs_mul, abs_of_pos hpos]
    _ ≤ (2 ^ 53 - 1) * 2 ^ 971 := mul_le_mul hmantissa hplace hpos.le (by norm_num)
    _ < doubleLimit := by
      rw [doubleLimit_eq]
      exact mul_lt_mul_of_pos_right (by norm_num) (by positivity)

/-- A double is rounded to itself. -/
lemma IsDouble.toDouble (h : IsDouble x) : toDouble x = x := by
  obtain ⟨m, e, hm, hlow, -, rfl⟩ := h
  rcases eq_or_ne m 0 with rfl | hm0
  · simp [Lib.toDouble, show halfEven 0 = 0 from halfEven_int (n := 0)]
  have hpos : (0 : ℚ) < 2 ^ e := by positivity
  have hx : (m : ℚ) * 2 ^ e ≠ 0 := mul_ne_zero (by exact_mod_cast hm0) hpos.ne'
  have habs : |(m : ℚ) * 2 ^ e| < 2 ^ (e + 53) := by
    rw [abs_mul, abs_of_pos hpos, zpow_add₀ (by norm_num), mul_comm]
    refine mul_lt_mul_of_pos_left ?_ hpos
    exact_mod_cast hm
  have hplace := lastPlace_le hx hlow habs
  -- at its own place or below, the number is a whole number of places
  obtain ⟨n, hn⟩ := Int.eq_ofNat_of_zero_le (sub_nonneg.2 hplace)
  have hwhole : (m : ℚ) * 2 ^ e / 2 ^ lastPlace ((m : ℚ) * 2 ^ e) = (m * 2 ^ n : ℤ) := by
    rw [mul_div_assoc, ← zpow_sub₀ (by norm_num), hn]
    push_cast
    simp
  rw [Lib.toDouble, hwhole, halfEven_int, ← hwhole]
  exact div_mul_cancel₀ _ (by positivity)

/-- What is rounded to is a double. -/
lemma isDouble_toDouble (h : |x| < doubleLimit) : IsDouble (toDouble x) := by
  rcases eq_or_ne x 0 with rfl | hx
  · rw [isDouble_zero.toDouble]
    exact isDouble_zero
  have hpos : (0 : ℚ) < 2 ^ lastPlace x := by positivity
  have hlow : -1074 ≤ lastPlace x := le_max_right _ _
  have hhigh : lastPlace x ≤ 971 := by
    refine lastPlace_le hx (by norm_num) (h.trans ?_)
    rw [doubleLimit_eq, show (971 : ℤ) + 53 = (53 : ℕ) + (971 : ℕ) by norm_num,
      zpow_add₀ (by norm_num), zpow_natCast, zpow_natCast]
    exact mul_lt_mul_of_pos_right (by norm_num) (by positivity)
  have hquotient : |x / 2 ^ lastPlace x| < (2 ^ 53 : ℤ) := by
    rw [abs_div, abs_of_pos hpos, div_lt_iff₀ hpos]
    have hx' := lt_lastPlace x
    rw [zpow_add₀ (by norm_num), mul_comm] at hx'
    push_cast
    exact_mod_cast hx'
  rcases lt_or_eq_of_le (abs_halfEven_le hquotient) with hm | hm
  · exact ⟨_, _, hm, hlow, hhigh, rfl⟩
  -- the mantissa ran over: it is a power of two, at a place that is not the last one
  have hnext : lastPlace x + 1 ≤ 971 := by
    by_contra hlast
    have hplace : lastPlace x = 971 := by omega
    have hless : |x / 2 ^ lastPlace x| < (2 ^ 53 : ℤ) - 1 / 2 := by
      rw [abs_div, abs_of_pos hpos, div_lt_iff₀ hpos, hplace]
      have hmantissa : ((2 ^ 53 : ℤ) : ℚ) = 2 ^ 53 := by norm_num
      rw [hmantissa]
      exact h.trans_eq doubleLimit_eq
    exact absurd hm (abs_halfEven_lt hless).ne
  have hmantissa : halfEven (x / 2 ^ lastPlace x) = 2 ^ 53 ∨
      halfEven (x / 2 ^ lastPlace x) = -2 ^ 53 := by
    rcases abs_eq (by norm_num : (0 : ℤ) ≤ 2 ^ 53) |>.1 hm with h | h
    · exact .inl h
    · exact .inr h
  have hcarry : (2 : ℚ) ^ (lastPlace x + 1) = 2 ^ lastPlace x * 2 := zpow_add_one₀ (by norm_num) _
  rcases hmantissa with h | h
  · refine ⟨2 ^ 52, lastPlace x + 1, by norm_num, by omega, hnext, ?_⟩
    rw [Lib.toDouble, h, hcarry]
    push_cast
    ring
  · refine ⟨-2 ^ 52, lastPlace x + 1, by norm_num, by omega, hnext, ?_⟩
    rw [Lib.toDouble, h, hcarry]
    push_cast
    ring

/-- **Only the doubles survive.** A number is rounded to itself exactly when it is a double. -/
theorem toDouble_eq_self (h : |x| < doubleLimit) : toDouble x = x ↔ IsDouble x :=
  ⟨fun heq => heq ▸ isDouble_toDouble h, IsDouble.toDouble⟩

/-- A double is a whole number of parts that are a power of two. -/
lemma IsDouble.den (h : IsDouble x) : ∃ n, x.den = 2 ^ n := by
  obtain ⟨m, e, -, -, -, rfl⟩ := h
  have hdvd : ∃ n : ℕ, ((m : ℚ) * 2 ^ e).den ∣ 2 ^ n := by
    rcases Int.eq_nat_or_neg e with ⟨n, rfl | rfl⟩
    · refine ⟨0, ?_⟩
      have hwhole : (m : ℚ) * 2 ^ (n : ℤ) = ((m * 2 ^ n : ℤ) : ℚ) := by push_cast; simp
      rw [hwhole, Rat.den_intCast, pow_zero]
    · refine ⟨n, ?_⟩
      have hparts : (m : ℚ) * 2 ^ (-(n : ℤ)) = (m : ℚ) / ((2 ^ n : ℤ) : ℚ) := by
        rw [zpow_neg, zpow_natCast, div_eq_mul_inv]
        push_cast
        rfl
      rw [hparts]
      exact_mod_cast Rat.den_dvd m (2 ^ n)
  obtain ⟨n, hn⟩ := hdvd
  obtain ⟨k, -, hk⟩ := (Nat.dvd_prime_pow Nat.prime_two).1 hn
  exact ⟨k, hk⟩

end

/-- The first integer that no double is. -/
lemma not_isDouble : ¬IsDouble (2 ^ 53 + 1) := by
  rintro ⟨m, e, hm, -, -, heq⟩
  have hm' : (m : ℚ) < 2 ^ 53 := by exact_mod_cast (abs_lt.1 hm).2
  rcases le_or_gt e 0 with he | he
  · have hplace : (2 : ℚ) ^ e ≤ 1 := zpow_le_one_of_nonpos₀ (by norm_num) he
    have hpos : (0 : ℚ) < 2 ^ e := by positivity
    nlinarith
  · -- it would be even
    obtain ⟨n, rfl⟩ : ∃ n : ℕ, e = n + 1 := ⟨(e - 1).toNat, by omega⟩
    have heven : (2 : ℚ) ^ 53 + 1 = ((m * 2 ^ n * 2 : ℤ) : ℚ) := by
      rw [heq, zpow_add_one₀ (by norm_num), zpow_natCast]
      push_cast
      ring
    have hint : (2 : ℤ) ^ 53 + 1 = m * 2 ^ n * 2 := by exact_mod_cast heven
    omega

end ManagedAgents.Lib
