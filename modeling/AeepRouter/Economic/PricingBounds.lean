import AeepRouter.Economic.Pricing

/-!
# Bounds of a price

A rule never prices less usage higher, and its price lies between its minimum and its maximum. Where
it rounds increments up it takes no less than the exact price, but for what arithmetic in 28 digits
loses (`kept`), which is nothing on a grid where these digits suffice. So the maximum an offer is
authorized for covers its price at any quantities up to the disclosed ones.
-/

namespace AeepRouter

open Lib

namespace PricingRule

variable (rule : PricingRule)

/-! ## Valid rules -/

def amounts : List CurrencyAmount :=
  [rule.fixedAmount, rule.perUnitAmount, rule.minimumAmount, rule.maximumAmount].reduceOption

/-- `valid_rule`; one of the first two amounts is there (`priced`). -/
def validRule : Result Unit := do
  let metered : Bool := rule.perUnitAmount.isSome
  raiseIf (metered ≠ (rule.meter.isSome && rule.unit.isSome))
    (.value "per-unit pricing requires both meter and unit")
  raiseIf (¬ metered ∧ (rule.freeQuantity ≠ none ∨ rule.quantityIncrement ≠ none))
    (.value "free quantity and quantity increment require per-unit pricing")
  raiseIf (∃ a ∈ rule.amounts, a.currency ≠ rule.currency)
    (.value "all pricing-rule amounts must use one currency")
  raiseIf (∃ least ∈ rule.minimumAmount, ∃ most ∈ rule.maximumAmount, most.amount < least.amount)
    (.value "minimum amount cannot exceed maximum amount")

/-- A rule as its fields and `valid_rule` admit it. -/
structure Valid : Prop where
  free_nonneg : ∀ free ∈ rule.freeQuantity, 0 ≤ free
  increment_pos : ∀ increment ∈ rule.quantityIncrement, 0 < increment
  valid_rule : rule.validRule = .ok ()

/-! ## Exact prices -/

def excess (q : ℚ) : ℚ := max 0 (q - rule.freeQuantity.getD 0)

def exact (q : ℚ) : ℚ :=
  (rule.fixedAmount.map (·.amount)).getD 0 +
    rule.excess q * (rule.perUnitAmount.map (·.amount)).getD 0

def clamp (total : ℚ) : ℚ :=
  let total := match rule.minimumAmount with
    | some least => max total least.amount
    | none => total
  match rule.maximumAmount with
  | some most => min total most.amount
  | none => total

/-- The part of an amount that one operation leaves, at the least. -/
def kept : ℚ := 1 - 10 ^ (-27 : ℤ) / 2

/-- The amount is between the bounds that are given. -/
structure Within (amount : ℚ) : Prop where
  minimum : ∀ least ∈ rule.minimumAmount, least.amount ≤ amount
  maximum : ∀ most ∈ rule.maximumAmount, amount ≤ most.amount

/-- All numbers are multiples of `10 ^ e`, and the excess and the exact price have 28 digits. -/
structure Fits (e : ℤ) (q : ℚ) : Prop where
  nonpos : e ≤ 0
  quantity : Decimal.OnGrid e q
  free : Decimal.OnGrid e (rule.freeQuantity.getD 0)
  increment : ∀ increment ∈ rule.quantityIncrement, Decimal.OnGrid e increment
  fixed : Decimal.OnGrid e ((rule.fixedAmount.map (·.amount)).getD 0)
  rate : Decimal.OnGrid e ((rule.perUnitAmount.map (·.amount)).getD 0)
  excess_le : rule.excess q ≤ 10 ^ (e + 27)
  exact_le : rule.exact q ≤ 10 ^ (e + e + 28)

variable {rule} {q r : ℚ}

theorem clamp_mono (h : q ≤ r) : rule.clamp q ≤ rule.clamp r := by
  unfold clamp
  cases rule.minimumAmount <;> cases rule.maximumAmount
  · exact h
  · exact min_le_min_right _ h
  · exact max_le_max_right _ h
  · exact min_le_min_right _ (max_le_max_right _ h)

variable (rule) in
theorem clamp_nonneg (h : 0 ≤ q) : 0 ≤ rule.clamp q := by
  unfold clamp
  cases rule.minimumAmount with
  | none =>
    cases rule.maximumAmount with
    | none => exact h
    | some most => exact le_min h most.nonneg
  | some least =>
    cases rule.maximumAmount with
    | none => exact h.trans (le_max_left _ _)
    | some most => exact le_min (h.trans (le_max_left _ _)) most.nonneg

theorem Valid.clamp_within (h : rule.Valid) (total : ℚ) : rule.Within (rule.clamp total) := by
  have hvalid := h.valid_rule
  simp only [validRule, bind_ok, raiseIf_ok, exists_const, not_exists, not_and, not_lt] at hvalid
  obtain ⟨-, -, -, hordered⟩ := hvalid
  unfold clamp
  constructor
  · intro least hleast
    rw [hleast]
    cases hmost : rule.maximumAmount with
    | none => exact le_max_right _ _
    | some most => exact le_min (le_max_right _ _) (hordered least hleast most hmost)
  · intro most hmost
    rw [hmost]
    exact min_le_right _ _

theorem evaluate_eq (hq : 0 ≤ q) :
    rule.evaluate q = CurrencyAmount.make (rule.clamp (rule.uncapped q)) rule.currency := by
  unfold evaluate
  rw [raiseIf, if_neg hq.not_gt]
  rfl

/-! ## Monotony -/

theorem toIntegral_mono (mode : PricingRoundingMode) (hq : 0 ≤ q) (h : q ≤ r) :
    mode.toIntegral q ≤ mode.toIntegral r := by
  unfold PricingRoundingMode.toIntegral
  cases mode with
  | up => simpa only [if_pos hq, if_pos (hq.trans h)] using Int.ceil_le_ceil h
  | down => simpa only [if_pos hq, if_pos (hq.trans h)] using Int.floor_le_floor h
  | ceiling => exact Int.ceil_le_ceil h
  | floor => exact Int.floor_le_floor h
  | halfUp =>
    simp only [if_pos hq, if_pos (hq.trans h)]
    exact Int.floor_le_floor (by linarith)
  | halfEven => exact Decimal.halfEven_mono h

theorem toIntegral_nonneg (mode : PricingRoundingMode) (hq : 0 ≤ q) : 0 ≤ mode.toIntegral q := by
  have hzero : mode.toIntegral 0 = 0 := by
    unfold PricingRoundingMode.toIntegral
    cases mode <;> norm_num
  rw [← hzero]
  exact toIntegral_mono mode le_rfl hq

theorem dec_max_mono (h : q ≤ r) : max 0 (dec q) ≤ max 0 (dec r) := by
  rcases le_total q 0 with hq | hq
  · have hdec : dec q ≤ 0 := Decimal.round_nonpos hq
    rw [max_eq_left hdec]
    exact le_max_left _ _
  · exact max_le_max_left 0 (dec_mono hq h)

theorem billable_of_increment {increment : ℚ} (h : rule.quantityIncrement = some increment) (q : ℚ) :
    rule.billable q = dec (rule.roundingMode.toIntegral
      (dec (max 0 (dec (q - rule.freeQuantity.getD 0)) / increment)) * increment) := by
  unfold billable
  rw [h]

theorem billable_of_none (h : rule.quantityIncrement = none) (q : ℚ) :
    rule.billable q = max 0 (dec (q - rule.freeQuantity.getD 0)) := by
  unfold billable
  rw [h]

theorem uncapped_of_rate {rate : CurrencyAmount} (h : rule.perUnitAmount = some rate) (q : ℚ) :
    rule.uncapped q =
      dec ((rule.fixedAmount.map (·.amount)).getD 0 + dec (rule.billable q * rate.amount)) := by
  unfold uncapped
  rw [h]

theorem uncapped_of_none (h : rule.perUnitAmount = none) (q : ℚ) :
    rule.uncapped q = (rule.fixedAmount.map (·.amount)).getD 0 := by
  unfold uncapped
  rw [h]

variable (rule) in
theorem fixed_nonneg : 0 ≤ (rule.fixedAmount.map (·.amount)).getD 0 := by
  cases rule.fixedAmount with
  | none => exact le_rfl
  | some fixed => exact fixed.nonneg

theorem Valid.billable_nonneg (h : rule.Valid) (q : ℚ) : 0 ≤ rule.billable q := by
  cases hinc : rule.quantityIncrement with
  | none =>
    rw [billable_of_none hinc]
    exact le_max_left _ _
  | some increment =>
    have hpos := h.increment_pos increment hinc
    have hquotient := dec_nonneg (div_nonneg (le_max_left 0 (dec (q - rule.freeQuantity.getD 0)))
      hpos.le)
    rw [billable_of_increment hinc]
    exact dec_nonneg (mul_nonneg (Int.cast_nonneg (toIntegral_nonneg _ hquotient)) hpos.le)

theorem Valid.billable_mono (h : rule.Valid) (hqr : q ≤ r) : rule.billable q ≤ rule.billable r := by
  have hexcess := dec_max_mono (sub_le_sub_right hqr (rule.freeQuantity.getD 0))
  cases hinc : rule.quantityIncrement with
  | none =>
    rw [billable_of_none hinc, billable_of_none hinc]
    exact hexcess
  | some increment =>
    have hpos := h.increment_pos increment hinc
    have hquotient := div_nonneg (le_max_left 0 (dec (q - rule.freeQuantity.getD 0))) hpos.le
    have hwhole : (0 : ℚ) ≤ rule.roundingMode.toIntegral
        (dec (max 0 (dec (q - rule.freeQuantity.getD 0)) / increment)) :=
      Int.cast_nonneg (toIntegral_nonneg _ (dec_nonneg hquotient))
    rw [billable_of_increment hinc, billable_of_increment hinc]
    refine dec_mono (mul_nonneg hwhole hpos.le) (mul_le_mul_of_nonneg_right ?_ hpos.le)
    exact Int.cast_le.mpr (toIntegral_mono _ (dec_nonneg hquotient)
      (dec_mono hquotient (div_le_div_of_nonneg_right hexcess hpos.le)))

theorem Valid.uncapped_nonneg (h : rule.Valid) (q : ℚ) : 0 ≤ rule.uncapped q := by
  cases hrate : rule.perUnitAmount with
  | none =>
    rw [uncapped_of_none hrate]
    exact rule.fixed_nonneg
  | some rate =>
    rw [uncapped_of_rate hrate]
    exact dec_nonneg (add_nonneg rule.fixed_nonneg
      (dec_nonneg (mul_nonneg (h.billable_nonneg q) rate.nonneg)))

theorem Valid.uncapped_mono (h : rule.Valid) (hqr : q ≤ r) : rule.uncapped q ≤ rule.uncapped r := by
  cases hrate : rule.perUnitAmount with
  | none => rw [uncapped_of_none hrate, uncapped_of_none hrate]
  | some rate =>
    have hcharge := mul_nonneg (h.billable_nonneg q) rate.nonneg
    rw [uncapped_of_rate hrate, uncapped_of_rate hrate]
    refine dec_mono (add_nonneg rule.fixed_nonneg (dec_nonneg hcharge)) (add_le_add_right ?_ _)
    exact dec_mono hcharge (mul_le_mul_of_nonneg_right (h.billable_mono hqr) rate.nonneg)

theorem Valid.evaluate_ok (h : rule.Valid) (hq : 0 ≤ q) :
    ∃ a, rule.evaluate q = .ok a ∧ a.amount = rule.clamp (rule.uncapped q) ∧
      rule.Within a.amount := by
  have hnonneg := rule.clamp_nonneg (h.uncapped_nonneg q)
  refine ⟨⟨rule.clamp (rule.uncapped q), rule.currency, hnonneg⟩, ?_, rfl, h.clamp_within _⟩
  rw [evaluate_eq hq]
  exact CurrencyAmount.make_ok.mpr ⟨rfl, rfl⟩

/-! ## What rounding loses -/

theorem kept_pos : 0 < kept := by
  unfold kept
  norm_num

theorem kept_le_one : kept ≤ 1 := by
  unfold kept
  norm_num

theorem kept_mul_le (hq : 0 ≤ q) : kept * q ≤ dec q := Decimal.loss_le hq

theorem kept_mul_le_self (hq : 0 ≤ q) : kept * q ≤ q := mul_le_of_le_one_left hq kept_le_one

variable (rule) in
theorem excess_nonneg (q : ℚ) : 0 ≤ rule.excess q := le_max_left _ _

variable (rule) in
theorem kept_mul_excess_le (q : ℚ) :
    kept * rule.excess q ≤ max 0 (dec (q - rule.freeQuantity.getD 0)) := by
  unfold excess
  rcases le_total (q - rule.freeQuantity.getD 0) 0 with h | h
  · rw [max_eq_left h, mul_zero]
    exact le_max_left _ _
  · rw [max_eq_right h]
    exact (kept_mul_le h).trans (le_max_right _ _)

/-- Increments that are rounded up leave three operations to lose. -/
theorem Valid.kept_mul_excess_le_billable (h : rule.Valid) (hmode : rule.roundingMode = .ceiling)
    (q : ℚ) : kept ^ 3 * rule.excess q ≤ rule.billable q := by
  have hexcess := rule.kept_mul_excess_le q
  have hleft := mul_nonneg kept_pos.le (rule.excess_nonneg q)
  cases hinc : rule.quantityIncrement with
  | none =>
    rw [billable_of_none hinc]
    calc kept ^ 3 * rule.excess q = kept * (kept * (kept * rule.excess q)) := by ring
      _ ≤ kept * (kept * rule.excess q) := kept_mul_le_self (mul_nonneg kept_pos.le hleft)
      _ ≤ kept * rule.excess q := kept_mul_le_self hleft
      _ ≤ _ := hexcess
  | some increment =>
    have hpos := h.increment_pos increment hinc
    rw [billable_of_increment hinc, hmode]
    generalize max 0 (dec (q - rule.freeQuantity.getD 0)) = e at hexcess ⊢
    have he : 0 ≤ e := hleft.trans hexcess
    have hquotient : kept * (e / increment) ≤ dec (e / increment) :=
      kept_mul_le (div_nonneg he hpos.le)
    have hceil : dec (e / increment) ≤ ⌈dec (e / increment)⌉ := Int.le_ceil _
    have hwhole : kept * e ≤ ⌈dec (e / increment)⌉ * increment := by
      calc kept * e = kept * (e / increment) * increment := by field_simp
        _ ≤ ⌈dec (e / increment)⌉ * increment :=
          mul_le_mul_of_nonneg_right (hquotient.trans hceil) hpos.le
    have hwhole0 := (mul_nonneg kept_pos.le he).trans hwhole
    calc kept ^ 3 * rule.excess q = kept * (kept * (kept * rule.excess q)) := by ring
      _ ≤ kept * (kept * e) :=
        mul_le_mul_of_nonneg_left (mul_le_mul_of_nonneg_left hexcess kept_pos.le) kept_pos.le
      _ ≤ kept * (⌈dec (e / increment)⌉ * increment) := mul_le_mul_of_nonneg_left hwhole kept_pos.le
      _ ≤ _ := kept_mul_le hwhole0

/-- Rounding up takes no less than the exact price, but for five operations. -/
theorem Valid.kept_mul_exact_le (h : rule.Valid) (hmode : rule.roundingMode = .ceiling) (q : ℚ) :
    kept ^ 5 * rule.exact q ≤ rule.uncapped q := by
  have hpow : ∀ n : ℕ, kept ^ n ≤ 1 := fun n => pow_le_one₀ kept_pos.le kept_le_one
  unfold exact
  cases hrate : rule.perUnitAmount with
  | none =>
    rw [uncapped_of_none hrate]
    have hfixed := mul_le_of_le_one_left rule.fixed_nonneg (hpow 5)
    simpa using hfixed
  | some rate =>
    rw [uncapped_of_rate hrate]
    change kept ^ 5 * (_ + rule.excess q * rate.amount) ≤ _
    have hcharge0 := mul_nonneg (h.billable_nonneg q) rate.nonneg
    have hcharge : kept ^ 4 * (rule.excess q * rate.amount) ≤ dec (rule.billable q * rate.amount) := by
      calc kept ^ 4 * (rule.excess q * rate.amount)
          = kept * (kept ^ 3 * rule.excess q * rate.amount) := by ring
        _ ≤ kept * (rule.billable q * rate.amount) :=
          mul_le_mul_of_nonneg_left (mul_le_mul_of_nonneg_right
            (h.kept_mul_excess_le_billable hmode q) rate.nonneg) kept_pos.le
        _ ≤ _ := kept_mul_le hcharge0
    have hfixed := mul_le_of_le_one_left rule.fixed_nonneg (hpow 4)
    calc kept ^ 5 * ((rule.fixedAmount.map (·.amount)).getD 0 + rule.excess q * rate.amount)
        = kept * (kept ^ 4 * (rule.fixedAmount.map (·.amount)).getD 0 +
            kept ^ 4 * (rule.excess q * rate.amount)) := by ring
      _ ≤ kept * ((rule.fixedAmount.map (·.amount)).getD 0 + dec (rule.billable q * rate.amount)) :=
        mul_le_mul_of_nonneg_left (add_le_add hfixed hcharge) kept_pos.le
      _ ≤ _ := kept_mul_le (add_nonneg rule.fixed_nonneg (dec_nonneg hcharge0))

/-! ## Where nothing is lost -/

namespace Fits

variable {e : ℤ}

theorem excess_onGrid (h : rule.Fits e q) : Decimal.OnGrid e (rule.excess q) :=
  (Decimal.OnGrid.zero e).max (h.quantity.sub h.free)

theorem dec_excess (h : rule.Fits e q) : dec (rule.excess q) = rule.excess q := by
  refine dec_of_onGrid h.excess_onGrid ?_
  rw [abs_of_nonneg (rule.excess_nonneg q)]
  exact h.excess_le.trans (zpow_le_zpow_right₀ (by norm_num) (by omega))

theorem excess_eq (h : rule.Fits e q) :
    max 0 (dec (q - rule.freeQuantity.getD 0)) = rule.excess q := by
  have hdec := h.dec_excess
  unfold excess at hdec ⊢
  rcases le_total (q - rule.freeQuantity.getD 0) 0 with hle | hle
  · have hneg : dec (q - rule.freeQuantity.getD 0) ≤ 0 := Decimal.round_nonpos hle
    rw [max_eq_left hle, max_eq_left hneg]
  · rw [max_eq_right hle] at hdec ⊢
    rw [hdec, max_eq_right hle]

/-- The increments that are billed cover the excess: what the quotient loses is less than a step. -/
theorem excess_le_increments (h : rule.Fits e q) {increment : ℚ} (hpos : 0 < increment)
    (hgrid : Decimal.OnGrid e increment) :
    rule.excess q ≤ ⌈dec (rule.excess q / increment)⌉ * increment := by
  by_contra hlt
  have hwhole : Decimal.OnGrid e (⌈dec (rule.excess q / increment)⌉ * increment) := by
    obtain ⟨n, hn⟩ := hgrid
    refine ⟨⌈dec (rule.excess q / increment)⌉ * n, ?_⟩
    push_cast
    rw [hn]
    ring
  have hstep := hwhole.add_step_le h.excess_onGrid (not_le.mp hlt)
  have hquotient : kept * (rule.excess q / increment) ≤ ⌈dec (rule.excess q / increment)⌉ :=
    (kept_mul_le (div_nonneg (rule.excess_nonneg q) hpos.le)).trans (Int.le_ceil _)
  have hkept : kept * rule.excess q ≤ ⌈dec (rule.excess q / increment)⌉ * increment := by
    calc kept * rule.excess q = kept * (rule.excess q / increment) * increment := by field_simp
      _ ≤ _ := mul_le_mul_of_nonneg_right hquotient hpos.le
  have hpower : (10 : ℚ) ^ (e + 27) * 10 ^ (-27 : ℤ) = 10 ^ e := by
    rw [← zpow_add₀ (by norm_num : (10 : ℚ) ≠ 0)]
    congr 1
    ring
  have hloss : rule.excess q * 10 ^ (-27 : ℤ) ≤ 10 ^ e :=
    hpower ▸ mul_le_mul_of_nonneg_right h.excess_le (Decimal.zpow_pos' _).le
  have hstep0 := Decimal.zpow_pos' e
  unfold kept at hkept
  generalize (10 : ℚ) ^ (-27 : ℤ) = loss at hkept hloss
  linarith

theorem excess_le_billable (h : rule.Fits e q) (hrule : rule.Valid)
    (hmode : rule.roundingMode = .ceiling) : rule.excess q ≤ rule.billable q := by
  cases hinc : rule.quantityIncrement with
  | none => rw [billable_of_none hinc, h.excess_eq]
  | some increment =>
    have hwhole := h.excess_le_increments (hrule.increment_pos increment hinc)
      (h.increment increment hinc)
    rw [billable_of_increment hinc, hmode, h.excess_eq]
    exact h.dec_excess.ge.trans (dec_mono (rule.excess_nonneg q) hwhole)

theorem exact_le_uncapped (h : rule.Fits e q) (hrule : rule.Valid)
    (hmode : rule.roundingMode = .ceiling) : rule.exact q ≤ rule.uncapped q := by
  have hexact := h.exact_le
  have hrate := h.rate
  unfold exact at hexact ⊢
  cases hunit : rule.perUnitAmount with
  | none =>
    rw [uncapped_of_none hunit]
    simp
  | some rate =>
    rw [hunit] at hexact hrate
    change _ + rule.excess q * rate.amount ≤ _ at hexact
    change Decimal.OnGrid e rate.amount at hrate
    change _ + rule.excess q * rate.amount ≤ _
    have hfixed := rule.fixed_nonneg
    have hcharge0 := mul_nonneg (rule.excess_nonneg q) rate.nonneg
    have hgrid := h.excess_onGrid.mul hrate
    have hcharge : dec (rule.excess q * rate.amount) = rule.excess q * rate.amount :=
      dec_of_onGrid hgrid (by rw [abs_of_nonneg hcharge0]; linarith)
    have htotal : dec ((rule.fixedAmount.map (·.amount)).getD 0 + rule.excess q * rate.amount) =
        (rule.fixedAmount.map (·.amount)).getD 0 + rule.excess q * rate.amount := by
      have hnonpos := h.nonpos
      refine dec_of_onGrid ((h.fixed.refine (by omega)).add hgrid) ?_
      rwa [abs_of_nonneg (add_nonneg hfixed hcharge0)]
    have hbilled : rule.excess q * rate.amount ≤ dec (rule.billable q * rate.amount) :=
      hcharge.ge.trans (dec_mono hcharge0
        (mul_le_mul_of_nonneg_right (h.excess_le_billable hrule hmode) rate.nonneg))
    rw [uncapped_of_rate hunit]
    exact htotal.ge.trans (dec_mono (add_nonneg hfixed hcharge0) (add_le_add_right hbilled _))

end Fits

end PricingRule

/-! ## Offers -/

namespace CapabilityOffer

variable (offer : CapabilityOffer)

/-- The price of an offer at some usage, as `cash_estimate_from_offer` sums it up. -/
def price (usage : String → ℚ) : Result ℚ :=
  offer.pricingRules.foldlM (fun (total : ℚ) rule => do
    let amount ← rule.evaluate (if rule.perUnitAmount.isNone then 0 else usage (rule.meter.getD ""))
    pure (dec (total + amount.amount))) 0

def UpTo (usage : String → ℚ) (disclosed : List (String × JsonPrimitive)) : Prop :=
  ∀ meter, 0 ≤ usage meter ∧ ∀ n : ℤ, disclosed.lookup meter = some (.int n) → usage meter ≤ n

variable {offer} {disclosed : List (String × JsonPrimitive)} {usage : String → ℚ} {rule : PricingRule}

theorem evaluate_le_ruleMaximum (hrule : rule.Valid) (husage : UpTo usage disclosed)
    {most : CurrencyAmount} (h : ruleMaximum rule disclosed = .ok most) :
    ∃ a, rule.evaluate (if rule.perUnitAmount.isNone then 0 else usage (rule.meter.getD "")) = .ok a ∧
      a.amount ≤ most.amount := by
  obtain ⟨husage0, hupto⟩ := husage (rule.meter.getD "")
  unfold ruleMaximum at h
  by_cases hunit : rule.perUnitAmount.isNone
  · rw [if_pos hunit] at h ⊢
    exact ⟨most, h, le_rfl⟩
  · rw [if_neg hunit] at h ⊢
    obtain ⟨a, ha, hamount, hwithin⟩ := hrule.evaluate_ok husage0
    refine ⟨a, ha, ?_⟩
    split at h
    · rename_i n hdisclosed
      have hle := hupto n hdisclosed
      obtain ⟨b, hb, hbamount, -⟩ := hrule.evaluate_ok (husage0.trans hle)
      obtain rfl : b = most := Except.ok.inj (hb.symm.trans h)
      rw [hamount, hbamount]
      exact PricingRule.clamp_mono (hrule.uncapped_mono hle)
    · exact hwithin.maximum most (require_ok.mp h)

theorem foldl_price_le {rules : List PricingRule} (hrules : ∀ rule ∈ rules, rule.Valid)
    (husage : UpTo usage disclosed) {settlementCurrency : String} {total limit most : ℚ}
    (htotal : 0 ≤ total) (hle : total ≤ limit)
    (h : rules.foldlM (fun (total : ℚ) rule => do
      let amount ← ruleMaximum rule disclosed
      refuseIf (amount.currency ≠ settlementCurrency) "offer pricing-rule currency is inconsistent"
      pure (dec (total + amount.amount))) limit = .ok most) :
    ∃ price, rules.foldlM (fun (total : ℚ) rule => do
      let amount ← rule.evaluate
        (if rule.perUnitAmount.isNone then 0 else usage (rule.meter.getD ""))
      pure (dec (total + amount.amount))) total = .ok price ∧ price ≤ most := by
  induction rules generalizing total limit with
  | nil =>
    obtain rfl : limit = most := pure_ok.mp h
    exact ⟨total, rfl, hle⟩
  | cons rule rules ih =>
    rw [List.forall_mem_cons] at hrules
    simp only [List.foldlM_cons, bind_ok, pure_ok] at h
    obtain ⟨-, ⟨amount, hamount, -, -, rfl⟩, h⟩ := h
    obtain ⟨a, ha, hcovered⟩ := evaluate_le_ruleMaximum hrules.1 husage hamount
    have hsum := add_nonneg htotal a.nonneg
    obtain ⟨price, hprice, hpricele⟩ :=
      ih hrules.2 (dec_nonneg hsum) (dec_mono hsum (add_le_add hle hcovered)) h
    refine ⟨price, ?_, hpricele⟩
    rw [List.foldlM_cons, ha]
    exact hprice

theorem price_le_authorizedMaximum (hrules : ∀ rule ∈ offer.pricingRules, rule.Valid)
    (husage : UpTo usage disclosed) {most : CurrencyAmount}
    (h : offer.authorizedMaximum disclosed = .ok most) :
    ∃ price, offer.price usage = .ok price ∧ price ≤ most.amount := by
  simp only [authorizedMaximum, bind_ok] at h
  obtain ⟨total, htotal, hmost⟩ := h
  obtain ⟨price, hprice, hle⟩ := foldl_price_le hrules husage le_rfl le_rfl htotal
  refine ⟨price, hprice, ?_⟩
  cases hfee : offer.fixedAttemptFee with
  | none =>
    rw [hfee] at hmost
    rwa [(CurrencyAmount.make_ok.mp hmost).1]
  | some fee =>
    rw [hfee] at hmost
    simp only [bind_ok, pure_ok] at hmost
    obtain ⟨-, -, limit, rfl, hmost⟩ := hmost
    rw [(CurrencyAmount.make_ok.mp hmost).1]
    exact hle.trans (le_max_left _ _)

end CapabilityOffer

/-- A valid rule prices less usage no higher and stays within its bounds; where it rounds up it takes
no less than the exact price, but for what its operations lose, and that is nothing where 28 digits
suffice; so what an offer is authorized for covers its price up to the disclosed quantities. -/
theorem pricing_bounded :
    (∀ (rule : PricingRule), rule.Valid → ∀ q₁ q₂ : ℚ, 0 ≤ q₁ → q₁ ≤ q₂ →
      ∃ a₁ a₂, rule.evaluate q₁ = .ok a₁ ∧ rule.evaluate q₂ = .ok a₂ ∧ a₁.amount ≤ a₂.amount ∧
        rule.Within a₁.amount ∧ rule.Within a₂.amount ∧
        (rule.roundingMode = .ceiling →
          rule.clamp (PricingRule.kept ^ 5 * rule.exact q₁) ≤ a₁.amount ∧
          ∀ e, rule.Fits e q₁ → rule.clamp (rule.exact q₁) ≤ a₁.amount)) ∧
      ∀ (offer : CapabilityOffer) (disclosed : List (String × JsonPrimitive))
        (usage : String → ℚ) (most : CurrencyAmount),
        (∀ rule ∈ offer.pricingRules, rule.Valid) → CapabilityOffer.UpTo usage disclosed →
        offer.authorizedMaximum disclosed = .ok most →
        ∃ price, offer.price usage = .ok price ∧ price ≤ most.amount := by
  refine ⟨fun rule hrule q₁ q₂ hq h => ?_, fun offer disclosed usage most hrules husage hmost =>
    CapabilityOffer.price_le_authorizedMaximum hrules husage hmost⟩
  obtain ⟨a₁, ha₁, hamount₁, hwithin₁⟩ := hrule.evaluate_ok hq
  obtain ⟨a₂, ha₂, hamount₂, hwithin₂⟩ := hrule.evaluate_ok (hq.trans h)
  refine ⟨a₁, a₂, ha₁, ha₂, ?_, hwithin₁, hwithin₂, fun hmode => ⟨?_, fun e hfits => ?_⟩⟩
  · rw [hamount₁, hamount₂]
    exact PricingRule.clamp_mono (hrule.uncapped_mono h)
  · rw [hamount₁]
    exact PricingRule.clamp_mono (hrule.kept_mul_exact_le hmode q₁)
  · rw [hamount₁]
    exact PricingRule.clamp_mono (hfits.exact_le_uncapped hrule hmode)

/-! ## A dollar a call -/

theorem dollar_priced : ((none : Option CurrencyAmount).or
    (some ⟨1, "USD", unit_amount_nonneg⟩)).isSome := rfl

def dollarRule : PricingRule where
  ruleId := "calls"
  meter := some "calls"
  unit := some "call"
  fixedAmount := none
  perUnitAmount := some ⟨1, "USD", unit_amount_nonneg⟩
  freeQuantity := none
  minimumAmount := none
  maximumAmount := none
  roundingMode := .ceiling
  quantityIncrement := none
  priced := dollar_priced

theorem dollarRule_valid : dollarRule.Valid := by
  refine ⟨?_, ?_, by decide +kernel⟩
  · rintro free ⟨⟩
  · rintro increment ⟨⟩

/-- A quantity of 29 digits is priced below the exact amount. -/
theorem fine_quantity_underpriced :
    dollarRule.Valid ∧ dollarRule.roundingMode = .ceiling ∧
      dollarRule.evaluate (1 + 1 / 10 ^ 28) = .ok ⟨1, "USD", unit_amount_nonneg⟩ ∧
      1 < dollarRule.clamp (dollarRule.exact (1 + 1 / 10 ^ 28)) :=
  ⟨dollarRule_valid, rfl, by decide +kernel, by decide +kernel⟩

theorem tiered_priced : ((some ⟨1, "USD", unit_amount_nonneg⟩ : Option CurrencyAmount).or
    (some ⟨1, "USD", unit_amount_nonneg⟩)).isSome := rfl

theorem five_nonneg : 0 ≤ ((5 : ℕ) : ℚ) := Nat.cast_nonneg 5

/-- One dollar, and one for each call after the first, which come in pairs; at most five. -/
def tieredRule : PricingRule where
  ruleId := "calls"
  meter := some "calls"
  unit := some "call"
  fixedAmount := some ⟨1, "USD", unit_amount_nonneg⟩
  perUnitAmount := some ⟨1, "USD", unit_amount_nonneg⟩
  freeQuantity := some 1
  minimumAmount := some ⟨1, "USD", unit_amount_nonneg⟩
  maximumAmount := some ⟨(5 : ℕ), "USD", five_nonneg⟩
  roundingMode := .ceiling
  quantityIncrement := some (2 : ℕ)
  priced := tiered_priced

theorem tieredRule_valid : tieredRule.Valid := by
  refine ⟨?_, ?_, by decide +kernel⟩
  · rintro free ⟨⟩
    exact zero_le_one
  · rintro increment ⟨⟩
    exact Nat.cast_pos.mpr two_pos

/-- The same of another meter. -/
def tokensRule : PricingRule := { tieredRule with ruleId := "tokens", meter := some "tokens" }

theorem tokensRule_valid : tokensRule.Valid :=
  ⟨tieredRule_valid.free_nonneg, tieredRule_valid.increment_pos, by decide +kernel⟩

/-- An offer of two meters. -/
def tieredOffer : CapabilityOffer where
  offerId := "offer"
  providerId := "provider.example"
  capability := "text.statistics@1"
  executorId := "fast"
  executorFingerprint := ""
  pricingRules := [tieredRule, tokensRule]
  fixedAttemptFee := some ⟨1, "USD", unit_amount_nonneg⟩
  settlementCurrency := "USD"
  validFrom := 0
  validUntil := 10
  rest := ""

/-- Three calls are priced at three dollars, thirty at the most; what three calls are authorized for
covers two of them, and any number of tokens. -/
theorem pricing_bounded_of_calls :
    (∃ a₁ a₂, tieredRule.evaluate 3 = .ok a₁ ∧ tieredRule.evaluate 30 = .ok a₂ ∧
      a₁.amount ≤ a₂.amount ∧ tieredRule.Within a₂.amount ∧ 3 ≤ a₁.amount) ∧
      ∃ price, tieredOffer.price (fun meter => if meter = "calls" then 2 else 1000) = .ok price ∧
        price ≤ 8 := by
  obtain ⟨hrule, hoffer⟩ := pricing_bounded
  constructor
  · obtain ⟨a₁, a₂, ha₁, ha₂, hle, -, hwithin, hexact⟩ := hrule tieredRule
      tieredRule_valid 3 30 (by decide +kernel) (by decide +kernel)
    have hfits : tieredRule.Fits 0 3 :=
      ⟨le_rfl, ⟨3, by decide +kernel⟩, ⟨1, by decide +kernel⟩, by
        rintro increment ⟨⟩
        exact ⟨2, by decide +kernel⟩, ⟨1, by decide +kernel⟩, ⟨1, by decide +kernel⟩,
        by decide +kernel, by decide +kernel⟩
    have hclamp : tieredRule.clamp (tieredRule.exact 3) = 3 := by decide +kernel
    exact ⟨a₁, a₂, ha₁, ha₂, hle, hwithin, hclamp ▸ (hexact rfl).2 0 hfits⟩
  · have hmost : (tieredOffer.authorizedMaximum [("calls", .int 3)]).map (·.amount) = .ok 8 := by
      decide +kernel
    obtain ⟨most, hmost, heq⟩ := map_ok.mp hmost
    obtain ⟨price, hprice, hle⟩ := hoffer tieredOffer [("calls", .int 3)]
      (fun meter => if meter = "calls" then 2 else 1000) most
      (fun rule hrule => by
        simp only [tieredOffer, List.mem_cons, List.not_mem_nil, or_false] at hrule
        rcases hrule with rfl | rfl
        · exact tieredRule_valid
        · exact tokensRule_valid)
      (fun meter => by
        dsimp only
        split
        · next heq =>
          subst heq
          refine ⟨by decide +kernel, fun n hn => ?_⟩
          obtain rfl : 3 = n := by simpa using hn
          decide +kernel
        · next hne =>
          refine ⟨by decide +kernel, fun n hn => ?_⟩
          simp [List.lookup_cons, beq_eq_false_iff_ne.mpr hne] at hn)
      hmost
    exact ⟨price, hprice, heq ▸ hle⟩

end AeepRouter
