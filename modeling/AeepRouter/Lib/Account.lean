import Mathlib.Tactic

/-!
# Accounts under a limit

An account holds money for operations under way and has captured and refunded the rest. Its exposure
is what it holds and what it captured and did not refund. A hold is admitted only if the exposure
stays within a limit; every other step (a release, a settlement of at most what was held, a refund)
lowers the exposure, and so does a new period that has captured nothing yet (`Step.within`,
`exposure_le_of_fresh`).
-/

namespace AeepRouter.Lib

@[ext] structure Account (α : Type) where
  held : α
  captured : α
  refunded : α
  deriving DecidableEq

namespace Account

variable {α : Type} [AddCommGroup α] [LinearOrder α]

/-- What the account holds and what it captured and did not refund. -/
def exposure (a : Account α) : α := a.held + max 0 (a.captured - a.refunded)

inductive Step (limit : α) (a : Account α) : Account α → Prop where
  | stay : Step limit a a
  | hold (amount : α) : a.exposure + amount ≤ limit →
      Step limit a { a with held := a.held + amount }
  | release (amount : α) : 0 ≤ amount → Step limit a { a with held := a.held - amount }
  | settle (maximum amount : α) : 0 ≤ maximum → amount ≤ maximum →
      Step limit a { a with held := a.held - maximum, captured := a.captured + amount }
  | refund (amount : α) : 0 ≤ amount → Step limit a { a with refunded := a.refunded + amount }

variable [IsOrderedAddMonoid α]

theorem held_le_exposure (a : Account α) : a.held ≤ a.exposure :=
  le_add_of_nonneg_right (le_max_left _ _)

theorem Step.within {limit : α} {a b : Account α} (h : Step limit a b) (ha : a.exposure ≤ limit) :
    b.exposure ≤ limit := by
  cases h with
  | stay => exact ha
  | hold amount hfits =>
    refine le_trans (le_of_eq ?_) hfits
    show a.held + amount + _ = a.held + _ + amount
    exact add_right_comm _ _ _
  | release amount h0 =>
    refine le_trans ?_ ha
    show a.held - amount + _ ≤ a.held + _
    exact add_le_add_left (sub_le_self _ h0) _
  | settle maximum amount h0 hle =>
    refine le_trans ?_ ha
    have hnet : max 0 (a.captured + amount - a.refunded) ≤
        maximum + max 0 (a.captured - a.refunded) := by
      refine max_le (add_nonneg h0 (le_max_left _ _)) ?_
      calc a.captured + amount - a.refunded = amount + (a.captured - a.refunded) := by abel
        _ ≤ maximum + max 0 (a.captured - a.refunded) := add_le_add hle (le_max_right _ _)
    calc a.held - maximum + max 0 (a.captured + amount - a.refunded)
        ≤ a.held - maximum + (maximum + max 0 (a.captured - a.refunded)) :=
          add_le_add_right hnet _
      _ = a.held + max 0 (a.captured - a.refunded) := by abel
  | refund amount h0 =>
    refine le_trans ?_ ha
    show a.held + _ ≤ a.held + _
    refine add_le_add_right (max_le_max_left 0 (sub_le_sub_left ?_ _)) _
    exact le_add_of_nonneg_right h0

theorem exposure_of_fresh {a : Account α} (hcaptured : a.captured = 0) (hrefunded : 0 ≤ a.refunded) :
    a.exposure = a.held := by
  unfold exposure
  rw [hcaptured, zero_sub, max_eq_left (neg_nonpos.mpr hrefunded), add_zero]

end Account

end AeepRouter.Lib
