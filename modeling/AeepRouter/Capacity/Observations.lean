import AeepRouter.Lib.Table
import AeepRouter.Lib.Greatest
import AeepRouter.Capacity.Quota

/-!
# The latest quota observation

`save_quota_observation` writes `observed_at` by `isoformat`, in the offset it has, and
`latest_quota_observation` takes a row whose text is greatest. It is the latest as long as no
observation is saved whose wall clock and whose instant are not in one order with those before.
-/

namespace AeepRouter.Capacity

open Lib Lib.Calendar

structure QuotaObservation where
  observationId : String
  resourceId : String
  quota : SubscriptionQuota
  observedAt : DateTime
  note : Option String

namespace QuotaObservation

variable (observation : QuotaObservation)

def observedText : String := observation.observedAt.isoformat

def instant : ℤ := observation.observedAt.instant

end QuotaObservation

abbrev QuotaObservations := Table QuotaObservation (·.observationId)

namespace QuotaObservations

variable (table : QuotaObservations)

def rowsOf (resourceId : String) : List QuotaObservation :=
  table.rows.filter (·.resourceId = resourceId)

def save (observation : QuotaObservation) : Result (Unit × QuotaObservations) := do
  raiseIf (table.find? observation.observationId ≠ none) .integrity
  pure ((), table.insert observation)

/-- `save_quota_observation`, in its transaction. -/
def apply (observation : QuotaObservation) : QuotaObservations :=
  commit (table.save observation) table

def latest (pick : Pick QuotaObservation) (resourceId : String) : Option QuotaObservation :=
  greatest pick (·.observedText) (table.rowsOf resourceId)

def LatestReturned (pick : Pick QuotaObservation) : Prop :=
  ∀ resourceId, table.rowsOf resourceId ≠ [] →
    ∃ row, table.latest pick resourceId = some row ∧ row ∈ table.rowsOf resourceId ∧
      ∀ other ∈ table.rowsOf resourceId, other.instant ≤ row.instant

/-- An observation under a new id that is the latest of its resource is written as the latest, and
one that is written as the latest is not behind any. -/
def InOrder (observation : QuotaObservation) : Prop :=
  table.find? observation.observationId = none →
    ((∀ other ∈ table.rowsOf observation.resourceId, other.instant < observation.instant) →
      ∀ other ∈ table.rowsOf observation.resourceId,
        other.observedAt.ReadsBefore observation.observedAt) ∧
    ((∀ other ∈ table.rowsOf observation.resourceId,
        other.observedAt.ReadsBefore observation.observedAt) →
      ∀ other ∈ table.rowsOf observation.resourceId, other.instant ≤ observation.instant)

variable {table} {pick : Pick QuotaObservation} {observation : QuotaObservation}

theorem instant_of_text (a b : QuotaObservation) (h : a.observedText = b.observedText) :
    a.instant = b.instant := by
  have hnot : ∀ c d : QuotaObservation, c.observedText = d.observedText →
      ¬ c.observedAt.ReadsBefore d.observedAt := by
    intro c d heq hbefore
    exact (DateTime.isoformat_lt_iff.mpr hbefore).ne heq
  exact DateTime.instant_eq (hnot a b h) (hnot b a h.symm)

/-- The state obeys the law just when the text decides among the rows of each resource. -/
theorem latestReturned_iff :
    table.LatestReturned pick ↔
      ∀ resourceId, Decides (·.observedText) (·.instant) (table.rowsOf resourceId) :=
  forall_congr' fun _ => (decides_iff instant_of_text).symm

theorem rowsOf_insert (hnew : table.find? observation.observationId = none) (resourceId : String) :
    rowsOf (table.insert observation) resourceId =
      if observation.resourceId = resourceId then table.rowsOf resourceId ++ [observation]
      else table.rowsOf resourceId := by
  unfold rowsOf
  rw [Table.insert_rows hnew, List.filter_append]
  split_ifs with hsame <;> simp [hsame]

theorem apply_new (hnew : table.find? observation.observationId = none) :
    table.apply observation = table.insert observation := by
  unfold apply save
  rw [raiseIf, if_neg (not_not.mpr hnew)]
  rfl

theorem apply_known (hknown : table.find? observation.observationId ≠ none) :
    table.apply observation = table := by
  unfold apply save
  rw [raiseIf, if_pos hknown]
  rfl

/-- A save leaves the law as it is just when the observation is in order. -/
theorem latestReturned_apply (h : table.LatestReturned pick) :
    (table.apply observation).LatestReturned pick ↔ table.InOrder observation := by
  rw [latestReturned_iff] at h ⊢
  by_cases hnew : table.find? observation.observationId = none
  · have hrows := rowsOf_insert hnew
    rw [apply_new hnew]
    have hown : Decides (·.observedText) (·.instant)
        (table.rowsOf observation.resourceId ++ [observation]) ↔ table.InOrder observation := by
      rw [decides_concat instant_of_text (h _)]
      unfold KeepsOrder InOrder
      simp only [QuotaObservation.observedText, DateTime.isoformat_lt_iff]
      exact ⟨fun hkeeps _ => hkeeps, fun hin => hin hnew⟩
    rw [← hown]
    constructor
    · intro hall
      have hresource := hall observation.resourceId
      rwa [hrows, if_pos rfl] at hresource
    · intro hresource resourceId
      rw [hrows]
      split_ifs with hsame
      · rwa [← hsame]
      · exact h resourceId
  · rw [apply_known hnew]
    exact iff_of_true h fun hnone => absurd hnone hnew

/-- Every state of a run of saves returns the latest observation of each resource, just when every
observation is in order. -/
theorem latest_returned_iff (pick : Pick QuotaObservation) (observations : List QuotaObservation) :
    (∀ before after, observations = before ++ after →
      (run apply ∅ before).LatestReturned pick) ↔
      Admissible apply InOrder ∅ observations := by
  refine @forall_run_iff_admissible _ _ apply InOrder (fun table => LatestReturned table pick)
    (fun table observation => latestReturned_apply) ∅ observations ?_
  intro resourceId hne
  exact absurd rfl hne

/-! ## Two offsets -/

theorem morning_valid : (1 ≤ 2026 ∧ 2026 ≤ 9999) ∧ (1 ≤ 1 ∧ 1 ≤ 12) ∧
    1 ≤ 1 ∧ 1 ≤ daysInMonth 2026 1 := by
  decide

theorem six_valid : 6 < 24 ∧ 0 < 60 ∧ 0 < 60 ∧ 0 < 1000000 := by decide

theorem ten_valid : 10 < 24 ∧ 0 < 60 ∧ 0 < 60 ∧ 0 < 1000000 := by decide

theorem fiveHours_lt : |(18000000000 : ℤ)| < 86400000000 := by decide

def unknownState : SubscriptionQuota :=
  ⟨⟨.unknown, "turn", none⟩, none, none, 1, .user, none, none, none, 1, none, le_rfl⟩

def tenAhead : QuotaObservation :=
  ⟨"first", "pool", unknownState,
    ⟨⟨2026, 1, 1, 10, 0, 0, 0, morning_valid, ten_valid⟩, 18000000000, fiveHours_lt⟩, none⟩

/-- At six in UTC, one hour later. -/
def sixUtc : QuotaObservation :=
  ⟨"second", "pool", unknownState,
    ⟨⟨2026, 1, 1, 6, 0, 0, 0, morning_valid, six_valid⟩, 0, utc_offset_lt⟩, none⟩

/-- The later of the two observations is not returned. -/
theorem offset_hides_latest :
    tenAhead.instant < sixUtc.instant ∧
      ¬ ∃ pick, (run apply ∅ [tenAhead, sixUtc]).LatestReturned pick := by
  refine ⟨by decide +kernel, ?_⟩
  rintro ⟨pick, h⟩
  have hrows : rowsOf (run apply ∅ [tenAhead, sixUtc]) "pool" = [tenAhead, sixUtc] := rfl
  have hdecides := latestReturned_iff.mp h "pool"
  rw [hrows] at hdecides
  have hgreatest : ∀ other ∈ [tenAhead, sixUtc], other.observedText ≤ tenAhead.observedText := by
    decide +kernel
  have hle := hdecides tenAhead List.mem_cons_self hgreatest sixUtc
    (List.mem_cons_of_mem _ List.mem_cons_self)
  exact absurd hle (by decide +kernel)

end QuotaObservations

end AeepRouter.Capacity
