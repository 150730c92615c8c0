import AeepRouter.Lib.Decimal
import AeepRouter.Lib.Table
import AeepRouter.Lib.Run

/-!
# Errors, instants and amounts

An instant is its number of microseconds since the epoch, in UTC; the store compares instants as
ISO texts, which order as the instants do. A decimal is its value; texts of one value are not told
apart. `dec` rounds the result of one decimal operation in the default context, which no module of
the package replaces.
-/

namespace AeepRouter

open Lib

/-- What a call raises, with its text. -/
inductive Err where
  | configuration (message : String)
  | approvalRequired (message : String)
  | value (message : String)
  /-- `sqlite3.IntegrityError`. -/
  | integrity
  /-- A failure of the payment rail or of the process, injected from outside. -/
  | fault
  deriving DecidableEq, Repr

abbrev Result := Except Err

/-- Fails with a `ConfigurationError` when the condition holds. -/
abbrev refuseIf (p : Prop) [Decidable p] (message : String) : Result Unit :=
  raiseIf p (.configuration message)

/-- The value of an option, or a `ConfigurationError`. -/
abbrev demand {α : Type} (o : Option α) (message : String) : Result α :=
  require o (.configuration message)

/-! ## Side effects -/

inductive SideEffect where
  | none
  | read
  | write
  | destructive
  | financial
  deriving DecidableEq, Repr

def SideEffect.rank : SideEffect → ℕ
  | none => 0
  | read => 1
  | write => 2
  | destructive => 3
  | financial => 4

/-! ## Instants -/

def day : Int := 86400000000

/-- `now.replace(hour=0, minute=0, second=0, microsecond=0)`. -/
def utcMidnight (now : Int) : Int := now - now % day

/-- Two days are one or the later begins after the earlier has ended. -/
theorem utcMidnight_le_or_add_day_le {a b : Int} (h : a ≤ b) :
    utcMidnight a = utcMidnight b ∨ utcMidnight a + day ≤ utcMidnight b := by
  unfold utcMidnight day
  omega

theorem utcMidnight_mono {a b : Int} (h : a ≤ b) : utcMidnight a ≤ utcMidnight b := by
  unfold utcMidnight day
  omega

/-! ## Amounts -/

/-- The digits of the default decimal context. -/
def precision : ℕ := 28

/-- The result of one decimal operation. -/
def dec (q : ℚ) : ℚ := Decimal.round precision q

/-- `sum(values, Decimal(0))`. -/
def decSum (xs : List ℚ) : ℚ := Decimal.sum precision xs

theorem dec_nonneg {q : ℚ} (h : 0 ≤ q) : 0 ≤ dec q := Decimal.round_nonneg h

theorem dec_mono {x y : ℚ} (hx : 0 ≤ x) (h : x ≤ y) : dec x ≤ dec y :=
  Decimal.round_mono (by decide) hx h

theorem dec_of_onGrid {e : ℤ} {q : ℚ} (hq : Decimal.OnGrid e q) (hb : |q| ≤ 10 ^ (e + 28)) :
    dec q = q :=
  Decimal.round_of_onGrid (by decide) hq hb

theorem le_of_dec_le {e : ℤ} {x c : ℚ} (hx : Decimal.OnGrid e x) (hc : Decimal.OnGrid e c)
    (h0 : 0 ≤ c) (hb : c < 10 ^ (e + 28)) (h : dec x ≤ c) : x ≤ c :=
  Decimal.le_of_round_le (by decide) hx hc h0 hb h

/-- A sum of multiples of one unit, within 28 digits, is exact. -/
theorem decSum_of_onGrid {e : ℤ} {xs : List ℚ} (h : ∀ x ∈ xs, Decimal.OnGrid e x ∧ 0 ≤ x)
    (hb : xs.sum ≤ 10 ^ (e + 28)) :
    decSum xs = xs.sum ∧ Decimal.OnGrid e xs.sum ∧ 0 ≤ xs.sum :=
  ⟨Decimal.sum_of_onGrid (by decide) (fun x hx => (h x hx).1) (fun x hx => (h x hx).2) hb,
    .sum fun x hx => (h x hx).1, List.sum_nonneg fun x hx => (h x hx).2⟩

/-- A sum that passes a limit as it is computed was computed exactly. -/
theorem add_sum_le_of_foldl_dec_le {e : ℤ} {a c : ℚ} {xs : List ℚ} (hc : Decimal.OnGrid e c)
    (hc0 : 0 ≤ c) (hb : c < 10 ^ (e + 28)) (ha : Decimal.OnGrid e a) (ha0 : 0 ≤ a) (hac : a ≤ c)
    (hxs : ∀ x ∈ xs, Decimal.OnGrid e x ∧ 0 ≤ x)
    (h : xs.foldl (fun acc x => dec (acc + x)) a ≤ c) : a + xs.sum ≤ c := by
  induction xs generalizing a with
  | nil => simpa using hac
  | cons x xs ih =>
    rw [List.forall_mem_cons] at hxs
    obtain ⟨⟨hx, hx0⟩, hxs⟩ := hxs
    have hnonneg : 0 ≤ a + x := add_nonneg ha0 hx0
    have hfirst : dec (a + x) ≤ c := by
      refine le_trans ?_ h
      exact Decimal.foldl_le_of_sublist (by decide) (List.nil_sublist xs)
        (fun y hy => (hxs y hy).2) (dec_nonneg hnonneg) le_rfl
        (Decimal.round_round (by decide) hnonneg)
    have hle : a + x ≤ c := le_of_dec_le (ha.add hx) hc hc0 hb hfirst
    have hexact : dec (a + x) = a + x := by
      refine dec_of_onGrid (ha.add hx) ?_
      rw [abs_of_nonneg hnonneg]
      exact hle.trans hb.le
    rw [List.foldl_cons, hexact] at h
    rw [List.sum_cons, ← add_assoc]
    exact ih (ha.add hx) hnonneg hle hxs h

/-- Sums are compared exactly with a limit that fits. -/
theorem decSum_le_iff {e : ℤ} {c : ℚ} {xs : List ℚ} (hc : Decimal.OnGrid e c) (hc0 : 0 ≤ c)
    (hb : c < 10 ^ (e + 28)) (hxs : ∀ x ∈ xs, Decimal.OnGrid e x ∧ 0 ≤ x) :
    decSum xs ≤ c ↔ xs.sum ≤ c := by
  constructor
  · intro h
    have hsum := add_sum_le_of_foldl_dec_le hc hc0 hb (.zero e) le_rfl hc0 hxs h
    rwa [zero_add] at hsum
  · intro h
    rwa [(decSum_of_onGrid hxs (h.trans hb.le)).1]

theorem decSum_nonneg {xs : List ℚ} (h : ∀ x ∈ xs, 0 ≤ x) : 0 ≤ decSum xs := Decimal.sum_nonneg h

theorem decSum_le_of_sublist {xs ys : List ℚ} (h : xs.Sublist ys) (h0 : ∀ y ∈ ys, 0 ≤ y) :
    decSum xs ≤ decSum ys :=
  Decimal.sum_le_of_sublist (by decide) h h0

/-- An amount of money, never negative. -/
@[ext] structure CurrencyAmount where
  amount : ℚ
  currency : String
  nonneg : 0 ≤ amount
  deriving DecidableEq

theorem zero_amount_nonneg : (0 : ℚ) ≤ 0 := le_rfl

theorem unit_amount_nonneg : (0 : ℚ) ≤ 1 := zero_le_one

/-- The constructor with its validator. -/
def CurrencyAmount.make (amount : ℚ) (currency : String) : Result CurrencyAmount :=
  if h : 0 ≤ amount then .ok ⟨amount, currency, h⟩
  else .error (.value "economic decimals cannot be negative")

theorem CurrencyAmount.make_ok {amount : ℚ} {currency : String} {a : CurrencyAmount} :
    CurrencyAmount.make amount currency = .ok a ↔ a.amount = amount ∧ a.currency = currency := by
  unfold CurrencyAmount.make
  split
  · constructor
    · intro h
      cases h
      exact ⟨rfl, rfl⟩
    · rintro ⟨rfl, rfl⟩
      rfl
  · next h =>
    constructor
    · intro h
      cases h
    · rintro ⟨rfl, -⟩
      exact absurd a.nonneg h

end AeepRouter
