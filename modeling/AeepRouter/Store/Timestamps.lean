import AeepRouter.Lib.Calendar

/-!
# The timestamps of the store

The store keeps instants as texts in UTC and compares the texts, byte by byte.
-/

namespace AeepRouter.Timestamps

open Lib.Calendar

/-- `astimezone(UTC)`; nothing when the year leaves the calendar. -/
def astimezoneUtc (value : DateTime) : Option DateTime :=
  if h : value.InRange then some (value.toUtc h) else none

/-- `_utc_text`, of a datetime that is aware of its timezone. -/
def utcText (value : DateTime) : Option String := (astimezoneUtc value).map DateTime.isoformat

variable {a b : DateTime}

theorem utcText_eq (h : a.InRange) : utcText a = some (a.toUtc h).isoformat := by
  rw [utcText, astimezoneUtc, dif_pos h, Option.map_some]

theorem bytes_isoformat_lt_iff : bytes a.isoformat < bytes b.isoformat ↔ a.isoformat < b.isoformat :=
  bytes_lt_iff (ascii_isoformat a) (ascii_isoformat b)

/-- The texts of two instants compare as the instants do. -/
theorem utc_text_ordered (a b : DateTime) (ha : a.InRange) (hb : b.InRange) :
    ∃ x y, utcText a = some x ∧ utcText b = some y ∧
      (bytes x < bytes y ↔ a.instant < b.instant) ∧
      (bytes x = bytes y ↔ a.instant = b.instant) := by
  refine ⟨_, _, utcText_eq ha, utcText_eq hb, ?_, ?_⟩
  · rw [bytes_isoformat_lt_iff]
    exact DateTime.isoformat_toUtc_lt_iff ha hb
  · constructor
    · intro heq
      have hlt := bytes_isoformat_lt_iff.trans (DateTime.isoformat_toUtc_lt_iff ha hb)
      have hgt := bytes_isoformat_lt_iff.trans (DateTime.isoformat_toUtc_lt_iff hb ha)
      rw [heq] at hlt hgt
      exact le_antisymm (not_lt.mp fun h => List.lt_irrefl _ (hgt.mpr h))
        (not_lt.mp fun h => List.lt_irrefl _ (hlt.mpr h))
    · intro heq
      rw [DateTime.toUtc_congr ha hb heq]

theorem october_valid : ((1 ≤ 2026 ∧ 2026 ≤ 9999) ∧ (1 ≤ 10 ∧ 10 ≤ 12) ∧
    1 ≤ 6 ∧ 6 ≤ daysInMonth 2026 10) := by decide

theorem noon_valid : 12 < 24 ∧ 0 < 60 ∧ 0 < 60 ∧ 0 < 1000000 := by decide

theorem later_valid : 14 < 24 ∧ 0 < 60 ∧ 0 < 60 ∧ 500000 < 1000000 := by decide

theorem two_hours_lt : |(7200000000 : ℤ)| < 86400000000 := by decide

/-- Noon, and half a second later by a clock that is two hours ahead. -/
def noon : DateTime := ⟨⟨2026, 10, 6, 12, 0, 0, 0, october_valid, noon_valid⟩, 0, DateTime.zero_offset_lt⟩

def laterAhead : DateTime :=
  ⟨⟨2026, 10, 6, 14, 0, 0, 500000, october_valid, later_valid⟩, 7200000000, two_hours_lt⟩

theorem noon_before_later : ∃ x y, utcText noon = some x ∧ utcText laterAhead = some y ∧
    bytes x < bytes y ∧ bytes x ≠ bytes y := by
  obtain ⟨x, y, hx, hy, hlt, heq⟩ :=
    utc_text_ordered noon laterAhead (by decide +kernel) (by decide +kernel)
  exact ⟨x, y, hx, hy, hlt.mpr (by decide +kernel), fun h => absurd (heq.mp h) (by decide +kernel)⟩

example : utcText laterAhead = some "2026-10-06T12:00:00.500000+00:00" := by decide +kernel

end AeepRouter.Timestamps
