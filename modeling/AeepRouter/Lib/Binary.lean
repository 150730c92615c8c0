import AeepRouter.Lib.Decimal

/-!
# Binary floating point

`round p q` is the number of `p` binary digits nearest to `q`, the even one of two. Decimals of few
digits stay apart: a rounded comparison of multiples of `10 ^ e` below `10 ^ (e + d)` decides the
exact one if four times `10 ^ d` fits into `p` bits (`le_of_round_le`). The range of the exponent is
not bounded.
-/

namespace AeepRouter.Lib.Binary

open Decimal (halfEven OnGrid)

/-- The exponent of the last of `p` binary digits of `q`. -/
def ulpExp (p : ℕ) (q : ℚ) : ℤ := Int.log 2 |q| + 1 - p

def round (p : ℕ) (q : ℚ) : ℚ := halfEven (q / 2 ^ ulpExp p q) * 2 ^ ulpExp p q

@[simp] theorem round_zero (p : ℕ) : round p 0 = 0 := by simp [round]

theorem round_nonneg {p : ℕ} {q : ℚ} (h : 0 ≤ q) : 0 ≤ round p q := by
  have h0 : (0 : ℤ) ≤ halfEven (q / 2 ^ ulpExp p q) :=
    Decimal.le_halfEven (by simpa using div_nonneg h (by positivity))
  exact mul_nonneg (by exact_mod_cast h0) (by positivity)

theorem abs_halfEven_sub_le (q : ℚ) : |(halfEven q : ℚ) - q| ≤ 1 / 2 := by
  have hlow := Int.floor_le q
  have hup := Int.lt_floor_add_one q
  rw [abs_le]
  unfold halfEven
  split_ifs <;> push_cast <;> constructor <;> linarith

/-- What is lost by rounding is less than the last digit kept. -/
theorem abs_round_sub_le (p : ℕ) (q : ℚ) : |round p q - q| ≤ |q| / 2 ^ p := by
  rcases eq_or_ne q 0 with rfl | hq
  · simp
  have hpos : (0 : ℚ) < 2 ^ ulpExp p q := by positivity
  have hlog : (2 : ℚ) ^ Int.log 2 |q| ≤ |q| := by
    exact_mod_cast Int.zpow_log_le_self (by norm_num) (abs_pos.mpr hq)
  have hulp : (2 : ℚ) ^ ulpExp p q = 2 * (2 ^ Int.log 2 |q| / 2 ^ p) := by
    unfold ulpExp
    rw [zpow_sub₀ (by norm_num), zpow_add₀ (by norm_num), zpow_natCast, zpow_one]
    ring
  have hsplit : round p q - q =
      ((halfEven (q / 2 ^ ulpExp p q) : ℚ) - q / 2 ^ ulpExp p q) * 2 ^ ulpExp p q := by
    unfold round
    rw [sub_mul, div_mul_cancel₀ _ hpos.ne']
  calc |round p q - q|
      = |(halfEven (q / 2 ^ ulpExp p q) : ℚ) - q / 2 ^ ulpExp p q| * 2 ^ ulpExp p q := by
        rw [hsplit, abs_mul, abs_of_pos hpos]
    _ ≤ 1 / 2 * 2 ^ ulpExp p q := mul_le_mul_of_nonneg_right (abs_halfEven_sub_le _) hpos.le
    _ = 2 ^ Int.log 2 |q| / 2 ^ p := by rw [hulp]; ring
    _ ≤ |q| / 2 ^ p := div_le_div_of_nonneg_right hlog (by positivity)

/-- Decimals of at most `d` digits are compared as their roundings are. -/
theorem le_of_round_le {p d : ℕ} (hd : 4 * 10 ^ d ≤ 2 ^ p) {e : ℤ} {x y : ℚ} (hx : OnGrid e x)
    (hy : OnGrid e y) (h0 : 0 ≤ y) (hb : y < 10 ^ (e + d)) (h : round p x ≤ round p y) :
    x ≤ y := by
  by_contra hlt
  have hstep : y + 10 ^ e ≤ x := hy.add_step_le hx (not_le.mp hlt)
  have he : (0 : ℚ) < 10 ^ e := by positivity
  have hp : (0 : ℚ) < 2 ^ p := by positivity
  have hxerr := (abs_le.mp (abs_round_sub_le p x)).1
  have hyerr := (abs_le.mp (abs_round_sub_le p y)).2
  rw [abs_of_nonneg (by linarith)] at hxerr
  rw [abs_of_nonneg h0] at hyerr
  -- the gap of one step is more than both errors together
  have hgap : (x - y) * 2 ^ p ≤ x + y := by
    have : x - y ≤ (x + y) / 2 ^ p := by
      rw [add_div]
      linarith
    rwa [le_div_iff₀ hp] at this
  have hbound : 4 * y < 2 ^ p * 10 ^ e := by
    have hfit : (4 : ℚ) * 10 ^ d ≤ 2 ^ p := by exact_mod_cast hd
    calc 4 * y < 4 * 10 ^ (e + d) := by linarith
      _ = 4 * 10 ^ d * 10 ^ e := by
        rw [zpow_add₀ (by norm_num), zpow_natCast]
        ring
      _ ≤ 2 ^ p * 10 ^ e := mul_le_mul_of_nonneg_right hfit he.le
  have hone : (4 : ℚ) ≤ 2 ^ p := by
    have : (1 : ℕ) ≤ 10 ^ d := Nat.one_le_pow _ _ (by norm_num)
    exact_mod_cast (by omega : 4 ≤ 2 ^ p)
  nlinarith

end AeepRouter.Lib.Binary
