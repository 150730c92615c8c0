import Mathlib.Tactic
import Mathlib.Data.Int.Log
import Mathlib.Data.Rat.Floor

/-!
# Decimal arithmetic in a context of bounded precision

A decimal is its exact value, a rational. Reading one from text is exact; every arithmetic
operation rounds its exact result to `p` significant digits, a tie going to the even digit
(`round p`). `sum p` is the left fold a loop of such additions computes.

`OnGrid e q` says that `q` is a multiple of `10 ^ e`. On a grid, results up to `10 ^ (e + p)` are
exact (`round_of_onGrid`, `sum_of_onGrid`), and a rounded comparison against a value below that
bound decides the exact one (`le_of_round_le`).
-/

namespace AeepRouter.Lib.Decimal

/-- The nearest integer, the even one of two. -/
def halfEven (q : ℚ) : ℤ :=
  if q - ⌊q⌋ < 1 / 2 then ⌊q⌋
  else if 1 / 2 < q - ⌊q⌋ then ⌊q⌋ + 1
  else if ⌊q⌋ % 2 = 0 then ⌊q⌋ else ⌊q⌋ + 1

/-- The exponent of the last of `p` significant digits of `q`. -/
def ulpExp (p : ℕ) (q : ℚ) : ℤ := Int.log 10 |q| + 1 - p

def round (p : ℕ) (q : ℚ) : ℚ := halfEven (q / 10 ^ ulpExp p q) * 10 ^ ulpExp p q

/-- The sum of a list as a loop computes it, rounding after every addition. -/
def sum (p : ℕ) (xs : List ℚ) : ℚ := xs.foldl (fun acc x => round p (acc + x)) 0

/-- A multiple of `10 ^ e`. -/
def OnGrid (e : ℤ) (q : ℚ) : Prop := ∃ n : ℤ, q = n * 10 ^ e

/-! ## Rounding to an integer -/

@[simp] theorem halfEven_intCast (n : ℤ) : halfEven n = n := by
  simp [halfEven]

@[simp] theorem halfEven_zero : halfEven 0 = 0 := by
  simpa using halfEven_intCast 0

theorem floor_le_halfEven (q : ℚ) : ⌊q⌋ ≤ halfEven q := by
  unfold halfEven; split_ifs <;> omega

theorem halfEven_le_floor_add_one (q : ℚ) : halfEven q ≤ ⌊q⌋ + 1 := by
  unfold halfEven; split_ifs <;> omega

theorem halfEven_mono : Monotone halfEven := by
  intro q r h
  rcases (Int.floor_le_floor h).lt_or_eq with hlt | heq
  · have h1 := halfEven_le_floor_add_one q
    have h2 := floor_le_halfEven r
    omega
  · -- one floor: the fractional parts are ordered as the numbers are
    unfold halfEven
    rw [← heq]
    have hf : q - (⌊q⌋ : ℤ) ≤ r - (⌊q⌋ : ℤ) := by linarith
    split_ifs <;> first | omega | linarith

theorem halfEven_le {q : ℚ} {n : ℤ} (h : q ≤ n) : halfEven q ≤ n := by
  simpa using halfEven_mono h

theorem le_halfEven {q : ℚ} {n : ℤ} (h : (n : ℚ) ≤ q) : n ≤ halfEven q := by
  simpa using halfEven_mono h

theorem sub_half_le_halfEven (q : ℚ) : q - 1 / 2 ≤ halfEven q := by
  have hlt := Int.lt_floor_add_one q
  unfold halfEven
  split_ifs <;> push_cast <;> linarith

/-! ## Grids -/

theorem zpow_pos' (e : ℤ) : (0 : ℚ) < 10 ^ e := by positivity

theorem onGrid_iff {e : ℤ} {q : ℚ} : OnGrid e q ↔ (q / 10 ^ e).den = 1 := by
  constructor
  · rintro ⟨n, rfl⟩
    rw [mul_div_cancel_right₀ _ (zpow_pos' e).ne', Rat.den_intCast]
  · intro h
    refine ⟨(q / 10 ^ e).num, ?_⟩
    rw [(Rat.den_eq_one_iff _).mp h, div_mul_cancel₀ _ (zpow_pos' e).ne']

instance (e : ℤ) (q : ℚ) : Decidable (OnGrid e q) := decidable_of_iff _ onGrid_iff.symm

theorem OnGrid.zero (e : ℤ) : OnGrid e 0 := ⟨0, by simp⟩

theorem OnGrid.add {e : ℤ} {a b : ℚ} : OnGrid e a → OnGrid e b → OnGrid e (a + b) := by
  rintro ⟨m, rfl⟩ ⟨n, rfl⟩
  exact ⟨m + n, by push_cast; ring⟩

theorem OnGrid.sub {e : ℤ} {a b : ℚ} : OnGrid e a → OnGrid e b → OnGrid e (a - b) := by
  rintro ⟨m, rfl⟩ ⟨n, rfl⟩
  exact ⟨m - n, by push_cast; ring⟩

theorem OnGrid.max {e : ℤ} {a b : ℚ} (ha : OnGrid e a) (hb : OnGrid e b) :
    OnGrid e (max a b) := by
  rcases max_choice a b with h | h <;> rw [h] <;> assumption

theorem OnGrid.mul {e f : ℤ} {a b : ℚ} : OnGrid e a → OnGrid f b → OnGrid (e + f) (a * b) := by
  rintro ⟨m, rfl⟩ ⟨n, rfl⟩
  refine ⟨m * n, ?_⟩
  rw [zpow_add₀ (by norm_num : (10 : ℚ) ≠ 0)]
  push_cast
  ring

/-- A coarse grid is part of a finer one. -/
theorem OnGrid.refine {e f : ℤ} {a : ℚ} (h : OnGrid e a) (hfe : f ≤ e) : OnGrid f a := by
  obtain ⟨n, rfl⟩ := h
  obtain ⟨k, hk⟩ := Int.eq_ofNat_of_zero_le (sub_nonneg.mpr hfe)
  refine ⟨n * 10 ^ k, ?_⟩
  have hsplit : e = k + f := by omega
  rw [hsplit, zpow_add₀ (by norm_num : (10 : ℚ) ≠ 0), zpow_natCast]
  push_cast
  ring

theorem OnGrid.sum {e : ℤ} {xs : List ℚ} (h : ∀ x ∈ xs, OnGrid e x) : OnGrid e xs.sum := by
  induction xs with
  | nil => exact .zero e
  | cons x xs ih =>
    rw [List.sum_cons]
    exact (h x List.mem_cons_self).add (ih fun y hy => h y (List.mem_cons_of_mem _ hy))

theorem OnGrid.add_step_le {e : ℤ} {a b : ℚ} (ha : OnGrid e a) (hb : OnGrid e b) (h : a < b) :
    a + 10 ^ e ≤ b := by
  obtain ⟨m, rfl⟩ := ha
  obtain ⟨n, rfl⟩ := hb
  have hmn : m + 1 ≤ n := by
    have : (m : ℚ) < n := lt_of_mul_lt_mul_right h (zpow_pos' e).le
    exact_mod_cast this
  have : ((m : ℚ) + 1) * 10 ^ e ≤ n * 10 ^ e :=
    mul_le_mul_of_nonneg_right (by exact_mod_cast hmn) (zpow_pos' e).le
  linarith

/-! ## Rounding to `p` significant digits -/

theorem round_of_mul {p : ℕ} {q : ℚ} {m : ℤ} (h : q = m * 10 ^ ulpExp p q) : round p q = q := by
  unfold round
  have hd : q / 10 ^ ulpExp p q = m := by
    rw [div_eq_iff (zpow_pos' _).ne']
    exact h
  rw [hd, halfEven_intCast]
  exact h.symm

/-- Every multiple of `10 ^ e` up to `10 ^ (e + p)` has at most `p` significant digits. -/
theorem round_of_onGrid {p : ℕ} (hp : 0 < p) {e : ℤ} {q : ℚ} (hq : OnGrid e q)
    (hb : |q| ≤ 10 ^ (e + p)) : round p q = q := by
  obtain ⟨n, rfl⟩ := hq
  rcases eq_or_ne n 0 with rfl | hn
  · simp [round]
  have hpos : (0 : ℚ) < |(n : ℚ) * 10 ^ e| :=
    abs_pos.mpr (mul_ne_zero (by exact_mod_cast hn) (zpow_pos' e).ne')
  rcases le_or_gt (ulpExp p (n * 10 ^ e)) e with hle | hgt
  · -- the last kept digit is at or below the grid
    obtain ⟨d, hd⟩ := Int.eq_ofNat_of_zero_le (sub_nonneg.mpr hle)
    refine round_of_mul (m := n * 10 ^ d) ?_
    have he : (10 : ℚ) ^ e = 10 ^ d * 10 ^ ulpExp p (n * 10 ^ e) := by
      rw [← zpow_natCast, ← zpow_add₀ (by norm_num : (10 : ℚ) ≠ 0)]
      congr 1
      omega
    push_cast
    rw [mul_assoc, ← he]
  · -- otherwise `|q|` is the bound itself, a power of ten
    have hlog : (10 : ℚ) ^ Int.log 10 |(n : ℚ) * 10 ^ e| ≤ |(n : ℚ) * 10 ^ e| := by
      exact_mod_cast Int.zpow_log_le_self (by norm_num) hpos
    have hup : (10 : ℚ) ^ (e + p) ≤ 10 ^ Int.log 10 |(n : ℚ) * 10 ^ e| :=
      zpow_le_zpow_right₀ (by norm_num) (by unfold ulpExp at hgt; omega)
    have habs : |(n : ℚ) * 10 ^ e| = 10 ^ (e + p) := le_antisymm hb (hup.trans hlog)
    have hl : Int.log 10 |(n : ℚ) * 10 ^ e| = e + p := by
      rw [habs]
      exact_mod_cast Int.log_zpow (R := ℚ) (b := 10) (by norm_num) (e + p)
    have hu : ulpExp p (n * 10 ^ e) = e + 1 := by unfold ulpExp; omega
    have hk : (10 : ℚ) ^ (e + p) = 10 ^ (p - 1) * 10 ^ (e + 1) := by
      rw [← zpow_natCast, ← zpow_add₀ (by norm_num : (10 : ℚ) ≠ 0)]
      congr 1
      omega
    rcases abs_choice ((n : ℚ) * 10 ^ e) with hc | hc
    · refine round_of_mul (m := 10 ^ (p - 1)) ?_
      rw [hu]
      push_cast
      rw [← hk, ← habs, hc]
    · refine round_of_mul (m := -10 ^ (p - 1)) ?_
      rw [hu]
      push_cast
      rw [neg_mul, ← hk, ← habs, hc, neg_neg]

theorem round_nonneg {p : ℕ} {q : ℚ} (h : 0 ≤ q) : 0 ≤ round p q := by
  have h0 : (0 : ℤ) ≤ halfEven (q / 10 ^ ulpExp p q) :=
    le_halfEven (by simpa using div_nonneg h (zpow_pos' _).le)
  exact mul_nonneg (by exact_mod_cast h0) (zpow_pos' _).le

theorem round_nonpos {p : ℕ} {q : ℚ} (h : q ≤ 0) : round p q ≤ 0 := by
  have h0 : halfEven (q / 10 ^ ulpExp p q) ≤ 0 :=
    halfEven_le (by simpa using div_nonpos_of_nonpos_of_nonneg h (zpow_pos' _).le)
  exact mul_nonpos_of_nonpos_of_nonneg (by exact_mod_cast h0) (zpow_pos' _).le

theorem round_le_zpow {p : ℕ} {q : ℚ} (hq : 0 < q) : round p q ≤ 10 ^ (Int.log 10 |q| + 1) := by
  have hlt : q < 10 ^ (Int.log 10 |q| + 1) := by
    rw [abs_of_pos hq]
    exact_mod_cast Int.lt_zpow_succ_log_self (by norm_num) q
  have hd : halfEven (q / 10 ^ ulpExp p q) ≤ 10 ^ p := by
    refine halfEven_le ?_
    rw [div_le_iff₀ (zpow_pos' _)]
    push_cast
    rw [← zpow_natCast, ← zpow_add₀ (by norm_num : (10 : ℚ) ≠ 0)]
    refine hlt.le.trans (le_of_eq ?_)
    congr 1
    unfold ulpExp
    omega
  calc round p q ≤ (10 : ℚ) ^ p * 10 ^ ulpExp p q :=
        mul_le_mul_of_nonneg_right (by exact_mod_cast hd) (zpow_pos' _).le
    _ = 10 ^ (Int.log 10 |q| + 1) := by
        rw [← zpow_natCast, ← zpow_add₀ (by norm_num : (10 : ℚ) ≠ 0)]
        congr 1
        unfold ulpExp
        omega

theorem zpow_le_round {p : ℕ} (hp : 0 < p) {q : ℚ} (hq : 0 < q) :
    10 ^ Int.log 10 |q| ≤ round p q := by
  have hle : (10 : ℚ) ^ Int.log 10 |q| ≤ q := by
    rw [abs_of_pos hq]
    exact_mod_cast Int.zpow_log_le_self (by norm_num) hq
  have hk : (10 : ℚ) ^ Int.log 10 |q| = 10 ^ (p - 1) * 10 ^ ulpExp p q := by
    rw [← zpow_natCast, ← zpow_add₀ (by norm_num : (10 : ℚ) ≠ 0)]
    congr 1
    unfold ulpExp
    omega
  have hd : 10 ^ (p - 1) ≤ halfEven (q / 10 ^ ulpExp p q) := by
    refine le_halfEven ?_
    rw [le_div_iff₀ (zpow_pos' _)]
    push_cast
    rw [← hk]
    exact hle
  rw [hk]
  exact mul_le_mul_of_nonneg_right (by exact_mod_cast hd) (zpow_pos' _).le

theorem round_mono {p : ℕ} (hp : 0 < p) {x y : ℚ} (hx : 0 ≤ x) (h : x ≤ y) :
    round p x ≤ round p y := by
  rcases hx.eq_or_lt with rfl | hx
  · simpa [round] using round_nonneg (p := p) h
  have hy := hx.trans_le h
  have hlog : Int.log 10 |x| ≤ Int.log 10 |y| :=
    Int.log_mono_right (abs_pos.mpr hx.ne') (by rwa [abs_of_pos hx, abs_of_pos hy])
  rcases hlog.lt_or_eq with hlt | heq
  · calc round p x ≤ 10 ^ (Int.log 10 |x| + 1) := round_le_zpow hx
      _ ≤ 10 ^ Int.log 10 |y| := zpow_le_zpow_right₀ (by norm_num) (by omega)
      _ ≤ round p y := zpow_le_round hp hy
  · have hu : ulpExp p x = ulpExp p y := by unfold ulpExp; omega
    unfold round
    rw [hu]
    refine mul_le_mul_of_nonneg_right ?_ (zpow_pos' _).le
    exact_mod_cast halfEven_mono (div_le_div_of_nonneg_right h (zpow_pos' _).le)

/-- Rounding loses half a unit of the last digit at most. -/
theorem loss_le {p : ℕ} {q : ℚ} (hq : 0 ≤ q) : (1 - 10 ^ (1 - p : ℤ) / 2) * q ≤ round p q := by
  rcases hq.eq_or_lt with rfl | hpos
  · simp [round]
  have hunit : (10 : ℚ) ^ ulpExp p q ≤ q * 10 ^ (1 - p : ℤ) := by
    have hlog : (10 : ℚ) ^ Int.log 10 |q| ≤ q := by
      rw [abs_of_pos hpos]
      exact_mod_cast Int.zpow_log_le_self (by norm_num) hpos
    have hsplit : ulpExp p q = Int.log 10 |q| + (1 - p) := by
      unfold ulpExp
      ring
    rw [hsplit, zpow_add₀ (by norm_num : (10 : ℚ) ≠ 0)]
    exact mul_le_mul_of_nonneg_right hlog (zpow_pos' _).le
  have hround : (q / 10 ^ ulpExp p q - 1 / 2) * 10 ^ ulpExp p q ≤ round p q :=
    mul_le_mul_of_nonneg_right (sub_half_le_halfEven _) (zpow_pos' _).le
  rw [sub_mul, div_mul_cancel₀ _ (zpow_pos' _).ne'] at hround
  linarith

/-- A rounded value that passes a limit below `10 ^ (e + p)` passes it exactly. -/
theorem le_of_round_le {p : ℕ} (hp : 0 < p) {e : ℤ} {x c : ℚ} (hx : OnGrid e x) (hc : OnGrid e c)
    (h0 : 0 ≤ c) (hb : c < 10 ^ (e + p)) (h : round p x ≤ c) : x ≤ c := by
  by_contra hlt
  have hstep : c + 10 ^ e ≤ x := hc.add_step_le hx (not_le.mp hlt)
  have hgrid : OnGrid e (10 ^ (e + p)) :=
    ⟨10 ^ p, by push_cast; rw [zpow_add₀ (by norm_num), zpow_natCast]; ring⟩
  have hstep' : OnGrid e (c + 10 ^ e) := hc.add ⟨1, by simp⟩
  have hpos : 0 ≤ c + 10 ^ e := add_nonneg h0 (zpow_pos' e).le
  have hr : round p (c + 10 ^ e) = c + 10 ^ e :=
    round_of_onGrid hp hstep' (by rw [abs_of_nonneg hpos]; exact hc.add_step_le hgrid hb)
  have := round_mono hp hpos hstep
  have := zpow_pos' e
  linarith

theorem round_round {p : ℕ} (hp : 0 < p) {q : ℚ} (hq : 0 ≤ q) : round p (round p q) = round p q := by
  rcases hq.eq_or_lt with rfl | hq
  · simp [round]
  · refine round_of_onGrid hp (e := ulpExp p q) ⟨_, rfl⟩ ?_
    rw [abs_of_nonneg (round_nonneg hq.le)]
    refine (round_le_zpow hq).trans (le_of_eq ?_)
    congr 1
    unfold ulpExp
    omega

/-! ## Sums -/

theorem foldl_nonneg {p : ℕ} {xs : List ℚ} (h0 : ∀ x ∈ xs, 0 ≤ x) {a : ℚ} (ha : 0 ≤ a) :
    0 ≤ xs.foldl (fun acc x => round p (acc + x)) a := by
  induction xs generalizing a with
  | nil => exact ha
  | cons x xs ih =>
    exact ih (fun y hy => h0 y (List.mem_cons_of_mem _ hy))
      (round_nonneg (add_nonneg ha (h0 x List.mem_cons_self)))

theorem sum_nonneg {p : ℕ} {xs : List ℚ} (h0 : ∀ x ∈ xs, 0 ≤ x) : 0 ≤ sum p xs :=
  foldl_nonneg h0 le_rfl

/-- A sum does not fall where amounts are added to it, or where it starts higher. -/
theorem foldl_le_of_sublist {p : ℕ} (hp : 0 < p) {xs ys : List ℚ} (h : xs.Sublist ys)
    (h0 : ∀ y ∈ ys, 0 ≤ y) {a b : ℚ} (ha : 0 ≤ a) (hab : a ≤ b) (hb : round p b = b) :
    xs.foldl (fun acc x => round p (acc + x)) a ≤ ys.foldl (fun acc x => round p (acc + x)) b := by
  induction h generalizing a b with
  | slnil => exact hab
  | cons y _ ih =>
    have hy := h0 y List.mem_cons_self
    have hb0 := ha.trans hab
    refine ih (fun z hz => h0 z (List.mem_cons_of_mem _ hz)) ha ?_
      (round_round hp (add_nonneg hb0 hy))
    calc a ≤ round p b := hb.symm ▸ hab
      _ ≤ round p (b + y) := round_mono hp hb0 (by linarith)
  | cons_cons y _ ih =>
    have hy := h0 y List.mem_cons_self
    exact ih (fun z hz => h0 z (List.mem_cons_of_mem _ hz)) (round_nonneg (add_nonneg ha hy))
      (round_mono hp (add_nonneg ha hy) (by linarith))
      (round_round hp (add_nonneg (ha.trans hab) hy))

theorem sum_le_of_sublist {p : ℕ} (hp : 0 < p) {xs ys : List ℚ} (h : xs.Sublist ys)
    (h0 : ∀ y ∈ ys, 0 ≤ y) : sum p xs ≤ sum p ys :=
  foldl_le_of_sublist hp h h0 le_rfl le_rfl (by simp [round])

theorem foldl_of_onGrid {p : ℕ} (hp : 0 < p) {e : ℤ} {xs : List ℚ} (hg : ∀ x ∈ xs, OnGrid e x)
    (h0 : ∀ x ∈ xs, 0 ≤ x) {a : ℚ} (ha : OnGrid e a) (ha0 : 0 ≤ a)
    (hb : a + xs.sum ≤ 10 ^ (e + p)) :
    xs.foldl (fun acc x => round p (acc + x)) a = a + xs.sum := by
  induction xs generalizing a with
  | nil => simp
  | cons x xs ih =>
    rw [List.sum_cons] at hb ⊢
    have hx := h0 x List.mem_cons_self
    have hxs : 0 ≤ xs.sum := List.sum_nonneg fun y hy => h0 y (List.mem_cons_of_mem _ hy)
    have hax : OnGrid e (a + x) := ha.add (hg x List.mem_cons_self)
    have hr : round p (a + x) = a + x :=
      round_of_onGrid hp hax (by rw [abs_of_nonneg (by linarith)]; linarith)
    rw [List.foldl_cons, hr, ih (fun y hy => hg y (List.mem_cons_of_mem _ hy))
      (fun y hy => h0 y (List.mem_cons_of_mem _ hy)) hax (by linarith) (by linarith)]
    ring

theorem sum_of_onGrid {p : ℕ} (hp : 0 < p) {e : ℤ} {xs : List ℚ} (hg : ∀ x ∈ xs, OnGrid e x)
    (h0 : ∀ x ∈ xs, 0 ≤ x) (hb : xs.sum ≤ 10 ^ (e + p)) : sum p xs = xs.sum := by
  have := foldl_of_onGrid hp hg h0 (OnGrid.zero e) le_rfl (by simpa using hb)
  simpa [sum] using this

end AeepRouter.Lib.Decimal
