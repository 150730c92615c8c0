import Mathlib.Data.List.Sort
import AeepRouter.Lib.Calendar
import AeepRouter.Policy.Feasibility
import AeepRouter.Economic.Pricing
import AeepRouter.Attempt.Records

/-!
# The quota of an observation

`observation_quota` reduces the windows of a unit to one `SubscriptionQuota`: the least remaining,
the least allowance and the greatest share used, each over the windows that know it. The record that
takes them wants the remaining within the allowance, which windows may contradict that know one
without the other.
-/

namespace AeepRouter.Capacity

open Lib Lib.Calendar Policy

/-! ## Observations -/

structure CapacityEvidence where
  evidenceId : String
  source : String
  sourceDigest : String
  observedAt : DateTime
  confidence : ℚ≥0

/-- A window, as `valid_window` and its fields admit it. -/
structure CapacityWindow where
  windowId : String
  unit : String
  usedPercent : Option ℚ≥0
  allowance : Option ℚ≥0
  remaining : Option ℚ≥0
  resetAt : Option DateTime
  durationSeconds : Option ℕ
  hardLimit : Bool
  exhausted : Bool
  confidence : ℚ≥0
  evidence : List CapacityEvidence
  windowId_length : 1 ≤ windowId.length ∧ windowId.length ≤ 200
  unit_length : 1 ≤ unit.length ∧ unit.length ≤ 100
  usedPercent_le : ∀ used ∈ usedPercent, used ≤ (100 : ℕ)
  remaining_le : ∀ most ∈ allowance, ∀ left ∈ remaining, left ≤ most
  duration_pos : ∀ seconds ∈ durationSeconds, 0 < seconds
  confidence_le : confidence ≤ 1
  exhausted_empty : exhausted → ∀ left ∈ remaining, left = 0

structure CapacityObservation where
  observationId : String
  resourceId : String
  windows : List CapacityWindow
  source : String
  observedAt : DateTime
  redactedProviderMetadata : List (String × JsonPrimitive)
  windows_ne : windows ≠ []

def CapacityObservation.windowsOf (observation : CapacityObservation) (unit : String) :
    List CapacityWindow :=
  observation.windows.filter (·.unit = unit)

/-- `capacity_digest` of an observation, whose canonical text may not exist. -/
structure CapacityDigests where
  observation : CapacityObservation → Result String
  tagged : ∀ o digest, observation o = .ok digest → isSha256 digest

/-! ## Quotas -/

inductive QuotaSource where
  | user
  | host
  | officialCli
  | rateLimit
  | heuristic
  | observed
  deriving DecidableEq, Repr

structure SubscriptionQuota extends Policy.SubscriptionQuota where
  resetAt : Option DateTime
  observedAt : Option DateTime
  confidence : ℚ≥0
  source : QuotaSource
  allowanceUnits : Option ℚ≥0
  usedPercent : Option ℚ≥0
  windowDurationSeconds : Option ℕ
  windowCount : ℕ
  evidenceDigest : Option String
  confidence_le : confidence ≤ 1

/-- The other validators of a `SubscriptionQuota`, whose times are aware. -/
def SubscriptionQuota.validate (quota : SubscriptionQuota) : Result Unit := do
  raiseIf (quota.unit = "") (.value "String should have at least 1 character")
  raiseIf (100 < quota.unit.length) (.value "String should have at most 100 characters")
  raiseIf (∃ used ∈ quota.usedPercent, (100 : ℕ) < used)
    (.value "Input should be less than or equal to 100")
  raiseIf (quota.windowDurationSeconds = some 0) (.value "Input should be greater than 0")
  raiseIf (quota.windowCount = 0) (.value "Input should be greater than or equal to 1")
  raiseIf (∃ digest ∈ quota.evidenceDigest, ¬ isSha256 digest)
    (.value "String should match pattern '^sha256:[a-f0-9]\x7b64\x7d$'")
  raiseIf (∃ most ∈ quota.allowanceUnits, ∃ left ∈ quota.remainingUnits, most < left)
    (.value "remaining_units cannot exceed allowance_units")

def SubscriptionQuota.make (quota : SubscriptionQuota) : Result SubscriptionQuota := do
  quota.validate
  pure quota

/-! ## The reduction -/

def quotaState : Option ℚ≥0 → QuotaState
  | none => .unknown
  | some used =>
    if used ≤ (25 : ℕ) then .abundant
    else if used ≤ (60 : ℕ) then .normal
    else if used ≤ (80 : ℕ) then .tight
    else if used < (100 : ℕ) then .critical
    else .exhausted

namespace CapacityWindow

variable (window : CapacityWindow)

/-- `-remaining` overflows where its 28 digits reach `10 ^ 1000000`. -/
def checkRemaining : Result Unit :=
  raiseIf (∃ left ∈ window.remaining, 10 ^ 1000000 ≤ dec left) .fault

/-- The key windows are ranked by; the remaining of a window that knows none is infinite. -/
def key : ℚ ×ₗ WithBot ℚ ×ₗ String :=
  toLex ((window.usedPercent.map (↑)).getD (-1),
    toLex (window.remaining.map fun left => -dec left, window.windowId))

end CapacityWindow

/-- `sorted(windows, key=…, reverse=True)`. -/
def ranked (windows : List CapacityWindow) : List CapacityWindow :=
  windows.insertionSort fun a b => b.key ≤ a.key

/-- `now.astimezone(UTC)`. -/
def asUtc (now : DateTime) : Result ℤ := do
  raiseIf (¬ now.InRange) .fault
  pure now.instant

section Reduction

variable (digests : CapacityDigests)

def leastConfidence (windows : List CapacityWindow) : ℚ≥0 :=
  ((windows.map (·.confidence)).min?).getD 0

theorem leastConfidence_le (windows : List CapacityWindow) : leastConfidence windows ≤ 1 := by
  unfold leastConfidence
  cases hmin : (windows.map (·.confidence)).min? with
  | none => exact zero_le_one
  | some least =>
    obtain ⟨window, -, rfl⟩ := List.mem_map.mp (List.min?_eq_some_iff.mp hmin).1
    exact window.confidence_le

theorem no_confidence_le : (0 : ℚ≥0) ≤ 1 := zero_le_one

def quotaOf (observation : CapacityObservation) (unit : String) (current : ℤ)
    (windows : List CapacityWindow) (controlling : CapacityWindow) (evidenceDigest : String) :
    SubscriptionQuota where
  state :=
    if ∃ window ∈ windows, window.hardLimit ∧ window.exhausted then .exhausted
    else quotaState (windows.filterMap (·.usedPercent)).max?
  resetAt := controlling.resetAt.filter (current < ·.instant)
  observedAt := some observation.observedAt
  confidence := leastConfidence windows
  source := .rateLimit
  unit := unit
  allowanceUnits := (windows.filterMap (·.allowance)).min?
  remainingUnits := (windows.filterMap (·.remaining)).min?
  usedPercent := controlling.usedPercent
  windowDurationSeconds := controlling.durationSeconds
  windowCount := windows.length
  evidenceDigest := some evidenceDigest
  confidence_le := leastConfidence_le windows

def unknownQuota (observation : CapacityObservation) (unit evidenceDigest : String) :
    SubscriptionQuota where
  state := .unknown
  resetAt := none
  observedAt := none
  confidence := 0
  source := .rateLimit
  unit := unit
  allowanceUnits := none
  remainingUnits := none
  usedPercent := none
  windowDurationSeconds := none
  windowCount := observation.windows.length
  evidenceDigest := some evidenceDigest
  confidence_le := no_confidence_le

def observationQuota (observation : CapacityObservation) (unit : String) (now : DateTime) :
    Result SubscriptionQuota := do
  let current ← asUtc now
  let windows := observation.windowsOf unit
  if windows = [] then
    let digest ← digests.observation observation
    (unknownQuota observation unit digest).make
  else
    windows.forM (·.checkRemaining)
    let controlling ← require (ranked windows).head? .fault
    let digest ← digests.observation observation
    (quotaOf observation unit current windows controlling digest).make

end Reduction

/-! ## What constrains -/

/-- `quota` is no less constraining than any of the windows. -/
structure SubscriptionQuota.Constrains (quota : SubscriptionQuota) (windows : List CapacityWindow) :
    Prop where
  remaining : ∀ window ∈ windows, ∀ left ∈ window.remaining,
    ∃ least ∈ quota.remainingUnits, least ≤ left
  used : ∀ window ∈ windows, ∀ used ∈ window.usedPercent, ∃ most ∈ quota.usedPercent, used ≤ most
  exhausted : (∃ window ∈ windows, window.hardLimit ∧ window.exhausted) → quota.state = .exhausted

/-- `quota` has no more remaining, and no less used, than `other`. -/
structure SubscriptionQuota.AtLeast (quota other : SubscriptionQuota) : Prop where
  remaining : ∀ left ∈ other.remainingUnits, ∃ least ∈ quota.remainingUnits, least ≤ left
  used : ∀ used ∈ other.usedPercent, ∃ most ∈ quota.usedPercent, used ≤ most

/-- The time is one of UTC and the observation has a digest, the unit has the length of one where no
window has it, no remaining overflows, and where windows know an allowance and some a remaining, one
of these is within it. -/
structure Agreeing (digests : CapacityDigests) (observation : CapacityObservation) (unit : String)
    (now : DateTime) : Prop where
  inRange : now.InRange
  digest : ∃ digest, digests.observation observation = .ok digest
  named : observation.windowsOf unit = [] → 1 ≤ unit.length ∧ unit.length ≤ 100
  bounded : ∀ window ∈ observation.windowsOf unit, ∀ left ∈ window.remaining,
    dec left < 10 ^ 1000000
  covered : ∀ window ∈ observation.windowsOf unit, ∀ most ∈ window.allowance,
    (∃ other ∈ observation.windowsOf unit, other.remaining ≠ none) →
      ∃ other ∈ observation.windowsOf unit, ∃ left ∈ other.remaining, left ≤ most

section Lists

variable {α β : Type} [LinearOrder β] {f : α → Option β} {l : List α}

theorem min?_filterMap_le {a : α} {b : β} (ha : a ∈ l) (hb : b ∈ f a) :
    ∃ least ∈ (l.filterMap f).min?, least ≤ b := by
  have hmem : b ∈ l.filterMap f := List.mem_filterMap.mpr ⟨a, ha, hb⟩
  cases hmin : (l.filterMap f).min? with
  | none =>
    rw [List.min?_eq_none_iff.mp hmin] at hmem
    cases hmem
  | some least => exact ⟨least, rfl, (List.min?_eq_some_iff.mp hmin).2 b hmem⟩

theorem mem_of_mem_min?_filterMap {least : β} (h : least ∈ (l.filterMap f).min?) :
    ∃ a ∈ l, least ∈ f a :=
  List.mem_filterMap.mp (List.min?_eq_some_iff.mp h).1

end Lists

section Reduced

variable {digests : CapacityDigests} {observation more : CapacityObservation} {unit : String}
  {now later : DateTime} {quota other : SubscriptionQuota} {windows : List CapacityWindow}
  {controlling : CapacityWindow}

theorem ranked_head (h : (ranked windows).head? = some controlling) :
    controlling ∈ windows ∧ ∀ window ∈ windows, window.key ≤ controlling.key := by
  have : Std.Total fun a b : CapacityWindow => b.key ≤ a.key := ⟨fun a b => le_total b.key a.key⟩
  have : IsTrans CapacityWindow fun a b => b.key ≤ a.key := ⟨fun a b c hab hbc => hbc.trans hab⟩
  have hsorted : (ranked windows).Pairwise fun a b => b.key ≤ a.key :=
    List.pairwise_insertionSort _ windows
  obtain ⟨tail, htail⟩ := List.head?_eq_some_iff.mp h
  have hmem : ∀ window, window ∈ windows ↔ window ∈ controlling :: tail := by
    intro window
    rw [← htail]
    exact (List.mem_insertionSort _).symm
  rw [htail, List.pairwise_cons] at hsorted
  refine ⟨(hmem _).mpr List.mem_cons_self, fun window hwindow => ?_⟩
  rcases List.mem_cons.mp ((hmem window).mp hwindow) with rfl | htail
  · exact le_rfl
  · exact hsorted.1 window htail

/-- The first window has the greatest known share. -/
theorem used_le_of_key_le {window : CapacityWindow} (h : window.key ≤ controlling.key) :
    ∀ used ∈ window.usedPercent, ∃ most ∈ controlling.usedPercent, used ≤ most := by
  intro used hused
  have hle := Prod.Lex.monotone_fst _ _ h
  change (window.usedPercent.map (↑)).getD (-1 : ℚ) ≤
    (controlling.usedPercent.map (↑)).getD (-1) at hle
  rw [hused] at hle
  cases hmost : controlling.usedPercent with
  | none =>
    rw [hmost] at hle
    have hneg : (used : ℚ) ≤ -1 := hle
    linarith [used.coe_nonneg]
  | some most =>
    rw [hmost] at hle
    exact ⟨most, rfl, NNRat.coe_le_coe.mp hle⟩

theorem validate_ok :
    quota.validate = .ok () ↔ quota.unit ≠ "" ∧ quota.unit.length ≤ 100 ∧
      (∀ used ∈ quota.usedPercent, used ≤ (100 : ℕ)) ∧ quota.windowDurationSeconds ≠ some 0 ∧
      quota.windowCount ≠ 0 ∧ (∀ digest ∈ quota.evidenceDigest, isSha256 digest) ∧
      ∀ most ∈ quota.allowanceUnits, ∀ left ∈ quota.remainingUnits, left ≤ most := by
  simp only [SubscriptionQuota.validate, bind_ok, raiseIf_ok, exists_const, not_exists, not_and,
    not_not, not_lt, ne_eq]

theorem make_ok : quota.make = .ok other ↔ quota.validate = .ok () ∧ quota = other := by
  simp only [SubscriptionQuota.make, bind_ok, pure_ok]
  exact ⟨fun ⟨_, hvalid, heq⟩ => ⟨hvalid, heq⟩, fun ⟨hvalid, heq⟩ => ⟨(), hvalid, heq⟩⟩

theorem asUtc_ok {current : ℤ} : asUtc now = .ok current ↔ now.InRange ∧ now.instant = current := by
  simp only [asUtc, bind_ok, raiseIf_ok, pure_ok, exists_const, not_not]

theorem checkRemaining_ok {window : CapacityWindow} :
    window.checkRemaining = .ok () ↔ ∀ left ∈ window.remaining, dec left < 10 ^ 1000000 := by
  unfold CapacityWindow.checkRemaining
  rw [raiseIf_ok]
  push Not
  exact Iff.rfl

theorem unit_of_mem {window : CapacityWindow} (h : window ∈ observation.windowsOf unit) :
    1 ≤ unit.length ∧ unit.length ≤ 100 := by
  have hunit : window.unit = unit := by simpa using (List.mem_filter.mp h).2
  rw [← hunit]
  exact window.unit_length

theorem quotaOf_valid {current : ℤ} {digest : String}
    (hcontrolling : controlling ∈ observation.windowsOf unit) (hdigest : isSha256 digest) :
    (quotaOf observation unit current (observation.windowsOf unit) controlling digest).validate =
        .ok () ↔
      ∀ most ∈ ((observation.windowsOf unit).filterMap (·.allowance)).min?,
        ∀ left ∈ ((observation.windowsOf unit).filterMap (·.remaining)).min?, left ≤ most := by
  rw [validate_ok]
  refine ⟨fun h => h.2.2.2.2.2.2, fun h => ⟨?_, (unit_of_mem hcontrolling).2,
    controlling.usedPercent_le, fun hzero => ?_, ?_, fun given hgiven => ?_, h⟩⟩
  · rintro (rfl : unit = "")
    exact absurd (unit_of_mem hcontrolling).1 (by decide)
  · exact lt_irrefl 0 (controlling.duration_pos 0 hzero)
  · exact List.length_pos_iff_exists_mem.mpr ⟨controlling, hcontrolling⟩ |>.ne'
  · rwa [← Option.some.inj hgiven]

theorem unknownQuota_valid {digest : String} (hdigest : isSha256 digest) :
    (unknownQuota observation unit digest).validate = .ok () ↔
      1 ≤ unit.length ∧ unit.length ≤ 100 := by
  rw [validate_ok]
  refine ⟨fun h => ⟨?_, h.2.1⟩, fun h => ⟨?_, h.2, ?_, ?_, ?_, ?_, ?_⟩⟩
  · exact Nat.one_le_iff_ne_zero.mpr (mt String.length_eq_zero_iff.mp h.1)
  · exact mt String.length_eq_zero_iff.mpr (Nat.one_le_iff_ne_zero.mp h.1)
  · rintro used ⟨⟩
  · rintro ⟨⟩
  · exact (List.length_pos_iff.mpr observation.windows_ne).ne'
  · intro given hgiven
    rwa [← Option.some.inj hgiven]
  · rintro most ⟨⟩

theorem observationQuota_ok (h : observationQuota digests observation unit now = .ok quota) :
    now.InRange ∧ quota.validate = .ok () ∧
      ∃ digest, digests.observation observation = .ok digest ∧
        (observation.windowsOf unit = [] ∧ quota = unknownQuota observation unit digest ∨
          (∀ window ∈ observation.windowsOf unit, window.checkRemaining = .ok ()) ∧
            ∃ controlling, (ranked (observation.windowsOf unit)).head? = some controlling ∧
              quota = quotaOf observation unit now.instant (observation.windowsOf unit) controlling
                digest) := by
  simp only [observationQuota, bind_ok, asUtc_ok] at h
  obtain ⟨current, ⟨hrange, rfl⟩, h⟩ := h
  split_ifs at h with hnone
  · simp only [bind_ok, make_ok] at h
    obtain ⟨digest, hdigest, hvalid, rfl⟩ := h
    exact ⟨hrange, hvalid, digest, hdigest, .inl ⟨hnone, rfl⟩⟩
  · simp only [bind_ok, make_ok, forM_ok, require_ok, exists_const] at h
    obtain ⟨hchecked, controlling, hhead, digest, hdigest, hvalid, rfl⟩ := h
    exact ⟨hrange, hvalid, digest, hdigest, .inr ⟨hchecked, controlling, hhead, rfl⟩⟩

theorem remainingUnits_eq (h : observationQuota digests observation unit now = .ok quota) :
    quota.remainingUnits = ((observation.windowsOf unit).filterMap (·.remaining)).min? := by
  obtain ⟨-, -, digest, -, ⟨hnone, rfl⟩ | ⟨-, controlling, -, rfl⟩⟩ := observationQuota_ok h
  · rw [hnone]
    rfl
  · rfl

theorem usedPercent_mem (h : observationQuota digests observation unit now = .ok quota) :
    ∀ used ∈ quota.usedPercent, ∃ window ∈ observation.windowsOf unit, used ∈ window.usedPercent := by
  intro used hused
  obtain ⟨-, -, digest, -, ⟨hnone, rfl⟩ | ⟨-, controlling, hhead, rfl⟩⟩ := observationQuota_ok h
  · cases hused
  · exact ⟨controlling, (ranked_head hhead).1, hused⟩

theorem constrains_of_ok (h : observationQuota digests observation unit now = .ok quota) :
    quota.Constrains (observation.windowsOf unit) where
  remaining := by
    intro window hwindow left hleft
    rw [remainingUnits_eq h]
    exact min?_filterMap_le hwindow hleft
  used := by
    intro window hwindow
    obtain ⟨-, -, digest, -, ⟨hnone, rfl⟩ | ⟨-, controlling, hhead, rfl⟩⟩ := observationQuota_ok h
    · rw [hnone] at hwindow
      cases hwindow
    · exact used_le_of_key_le ((ranked_head hhead).2 window hwindow)
  exhausted := by
    intro hexhausted
    obtain ⟨-, -, digest, -, ⟨hnone, rfl⟩ | ⟨-, controlling, hhead, rfl⟩⟩ := observationQuota_ok h
    · rw [hnone] at hexhausted
      obtain ⟨window, hwindow, -⟩ := hexhausted
      cases hwindow
    · exact if_pos hexhausted

theorem atLeast_of_subset (hsub : observation.windows ⊆ more.windows)
    (h : observationQuota digests observation unit now = .ok quota)
    (h' : observationQuota digests more unit later = .ok other) : other.AtLeast quota := by
  have hwindows : ∀ window ∈ observation.windowsOf unit, window ∈ more.windowsOf unit :=
    fun window hwindow =>
      List.mem_filter.mpr ⟨hsub (List.mem_filter.mp hwindow).1, (List.mem_filter.mp hwindow).2⟩
  have hconstrains := constrains_of_ok h'
  constructor
  · intro left hleft
    rw [remainingUnits_eq h] at hleft
    obtain ⟨window, hwindow, hknown⟩ := mem_of_mem_min?_filterMap hleft
    exact hconstrains.remaining window (hwindows window hwindow) left hknown
  · intro used hused
    obtain ⟨window, hwindow, hknown⟩ := usedPercent_mem h used hused
    exact hconstrains.used window (hwindows window hwindow) used hknown

/-- The least of what the windows know to remain is within the least allowance. -/
theorem covered_iff :
    (∀ most ∈ (windows.filterMap (·.allowance)).min?,
        ∀ left ∈ (windows.filterMap (·.remaining)).min?, left ≤ most) ↔
      ∀ window ∈ windows, ∀ most ∈ window.allowance,
        (∃ other ∈ windows, other.remaining ≠ none) →
          ∃ other ∈ windows, ∃ left ∈ other.remaining, left ≤ most := by
  constructor
  · rintro h window hwindow most hmost ⟨other, hother, hknown⟩
    obtain ⟨known, hknown⟩ := Option.ne_none_iff_exists'.mp hknown
    obtain ⟨least, hleast, hle⟩ := min?_filterMap_le (f := (·.allowance)) hwindow hmost
    obtain ⟨left, hleft, -⟩ := min?_filterMap_le (f := (·.remaining)) hother hknown
    obtain ⟨holder, hholder, hholds⟩ := mem_of_mem_min?_filterMap hleft
    exact ⟨holder, hholder, left, hholds, (h least hleast left hleft).trans hle⟩
  · intro h most hmost left hleft
    obtain ⟨window, hwindow, hallows⟩ := mem_of_mem_min?_filterMap hmost
    obtain ⟨holder, hholder, hholds⟩ := mem_of_mem_min?_filterMap hleft
    obtain ⟨other, hother, known, hknown, hle⟩ :=
      h window hwindow most hallows ⟨holder, hholder, Option.ne_none_iff_exists'.mpr ⟨left, hholds⟩⟩
    obtain ⟨least, hleast, hleast_le⟩ := min?_filterMap_le (f := (·.remaining)) hother hknown
    rw [Option.mem_unique hleft hleast]
    exact hleast_le.trans hle

theorem agreeing_of_ok (h : observationQuota digests observation unit now = .ok quota) :
    Agreeing digests observation unit now := by
  obtain ⟨hrange, hvalid, digest, hdigest, hcases⟩ := observationQuota_ok h
  have htagged := digests.tagged _ _ hdigest
  rcases hcases with ⟨hnone, rfl⟩ | ⟨hchecked, controlling, hhead, rfl⟩
  · have hunit := (unknownQuota_valid htagged).mp hvalid
    refine ⟨hrange, ⟨digest, hdigest⟩, fun _ => hunit, ?_, ?_⟩
    · rw [hnone]
      exact List.forall_mem_nil _
    · rw [hnone]
      exact List.forall_mem_nil _
  · have hcontrolling := (ranked_head hhead).1
    exact ⟨hrange, ⟨digest, hdigest⟩, fun _ => unit_of_mem hcontrolling,
      fun window hwindow => checkRemaining_ok.mp (hchecked window hwindow),
      covered_iff.mp ((quotaOf_valid hcontrolling htagged).mp hvalid)⟩

theorem returns_of_agreeing (h : Agreeing digests observation unit now) :
    ∃ quota, observationQuota digests observation unit now = .ok quota := by
  obtain ⟨digest, hdigest⟩ := h.digest
  have htagged := digests.tagged _ _ hdigest
  simp only [observationQuota, bind_ok, asUtc_ok]
  by_cases hnone : observation.windowsOf unit = []
  · have hvalid : (unknownQuota observation unit digest).validate = .ok () :=
      (unknownQuota_valid htagged).mpr (h.named hnone)
    refine ⟨unknownQuota observation unit digest, now.instant, ⟨h.inRange, rfl⟩, ?_⟩
    rw [if_pos hnone, hdigest]
    exact make_ok.mpr ⟨hvalid, rfl⟩
  · obtain ⟨controlling, hhead⟩ : ∃ controlling,
        (ranked (observation.windowsOf unit)).head? = some controlling := by
      obtain ⟨window, hwindow⟩ := List.exists_mem_of_ne_nil _ hnone
      cases hranked : ranked (observation.windowsOf unit) with
      | nil =>
        have hmem : window ∈ ranked (observation.windowsOf unit) :=
          (List.mem_insertionSort _).mpr hwindow
        rw [hranked] at hmem
        cases hmem
      | cons controlling rest => exact ⟨controlling, rfl⟩
    have hvalid : (quotaOf observation unit now.instant (observation.windowsOf unit) controlling
        digest).validate = .ok () :=
      (quotaOf_valid (ranked_head hhead).1 htagged).mpr (covered_iff.mpr h.covered)
    refine ⟨quotaOf observation unit now.instant (observation.windowsOf unit) controlling digest,
      now.instant, ⟨h.inRange, rfl⟩, ?_⟩
    rw [if_neg hnone]
    simp only [bind_ok, forM_ok, require_ok, exists_const]
    exact ⟨fun window hwindow => checkRemaining_ok.mpr (h.bounded window hwindow), controlling, hhead,
      digest, hdigest, make_ok.mpr ⟨hvalid, rfl⟩⟩

/-- A valid quota that constrains no less than the windows of the unit is returned, and more windows
constrain no less, just where the observation agrees with itself. -/
theorem quota_constrains_iff (digests : CapacityDigests) (observation : CapacityObservation)
    (unit : String) (now : DateTime) :
    (∃ quota, observationQuota digests observation unit now = .ok quota ∧
      quota.validate = .ok () ∧ quota.Constrains (observation.windowsOf unit) ∧
      ∀ more later other, observation.windows ⊆ more.windows →
        observationQuota digests more unit later = .ok other → other.AtLeast quota) ↔
      Agreeing digests observation unit now := by
  constructor
  · rintro ⟨quota, h, -⟩
    exact agreeing_of_ok h
  · intro h
    obtain ⟨quota, hquota⟩ := returns_of_agreeing h
    obtain ⟨-, hvalid, -⟩ := observationQuota_ok hquota
    exact ⟨quota, hquota, hvalid, constrains_of_ok hquota,
      fun more later other hsub hother => atLeast_of_subset hsub hquota hother⟩

end Reduced

/-! ## Windows that contradict each other -/

theorem newYear_valid : ((1 ≤ 2026 ∧ 2026 ≤ 9999) ∧ (1 ≤ 1 ∧ 1 ≤ 12) ∧
    1 ≤ 1 ∧ 1 ≤ daysInMonth 2026 1) ∧ 12 < 24 ∧ 0 < 60 ∧ 0 < 60 ∧ 0 < 1000000 := by
  decide

theorem utc_offset_lt : |(0 : ℤ)| < 86400000000 := by decide

def newYear : DateTime :=
  ⟨⟨2026, 1, 1, 12, 0, 0, 0, newYear_valid.1, newYear_valid.2⟩, 0, utc_offset_lt⟩

theorem turn_length : 1 ≤ "turn".length ∧ "turn".length ≤ 100 := by decide

theorem window_length : 1 ≤ "window".length ∧ "window".length ≤ 200 := by decide

theorem none_known {P : ℚ≥0 → Prop} : ∀ known ∈ (none : Option ℚ≥0), P known := by
  rintro known ⟨⟩

theorem no_duration : ∀ seconds ∈ (none : Option ℕ), 0 < seconds := by
  rintro seconds ⟨⟩

theorem sure_le : (1 : ℚ≥0) ≤ 1 := le_rfl

theorem not_exhausted {P : Prop} (h : false = true) : P := by
  cases h

theorem unknown_within : ∀ most ∈ some ((10 : ℕ) : ℚ≥0), ∀ left ∈ (none : Option ℚ≥0),
    left ≤ most :=
  fun _ _ => none_known

theorem twenty_remain : ∀ most ∈ some ((100 : ℕ) : ℚ≥0), ∀ left ∈ some ((20 : ℕ) : ℚ≥0),
    left ≤ most := by
  rintro most ⟨⟩ left ⟨⟩
  exact Nat.cast_le.mpr (by decide)

def turnWindow (allowance : ℚ≥0) (remaining : Option ℚ≥0)
    (h : ∀ most ∈ some allowance, ∀ left ∈ remaining, left ≤ most) : CapacityWindow where
  windowId := "window"
  unit := "turn"
  usedPercent := none
  allowance := some allowance
  remaining := remaining
  resetAt := none
  durationSeconds := none
  hardLimit := true
  exhausted := false
  confidence := 1
  evidence := []
  windowId_length := window_length
  unit_length := turn_length
  usedPercent_le := none_known
  remaining_le := h
  duration_pos := no_duration
  confidence_le := sure_le
  exhausted_empty := not_exhausted

/-- Ten turns, of which it is not known how many are left; and twenty left of a hundred. -/
def twoWindows : List CapacityWindow :=
  [turnWindow (10 : ℕ) none unknown_within, turnWindow (100 : ℕ) (some (20 : ℕ)) twenty_remain]

theorem twoWindows_ne : twoWindows ≠ [] := List.cons_ne_nil _ _

def twoWindowObservation : CapacityObservation :=
  ⟨"observation", "resource", twoWindows, "host", newYear, [], twoWindows_ne⟩

def zeroDigest : String :=
  "sha256:0000000000000000000000000000000000000000000000000000000000000000"

theorem zeroDigest_tagged (_ : CapacityObservation) (digest : String)
    (h : (.ok zeroDigest : Result String) = .ok digest) : isSha256 digest := by
  obtain rfl : zeroDigest = digest := Except.ok.inj h
  decide +kernel

def zeroDigests : CapacityDigests := ⟨fun _ => .ok zeroDigest, zeroDigest_tagged⟩

/-- Twenty are more than the ten allowed, and no quota is returned. -/
theorem twoWindows_raise :
    newYear.InRange ∧ (zeroDigests.observation twoWindowObservation).isOk ∧
      ¬ ∃ quota, observationQuota zeroDigests twoWindowObservation "turn" newYear = .ok quota := by
  refine ⟨by decide +kernel, rfl, ?_⟩
  rintro ⟨quota, h⟩
  have hagrees := agreeing_of_ok h
  have hof : twoWindowObservation.windowsOf "turn" = twoWindows := by
    refine List.filter_eq_self.mpr fun window hwindow => ?_
    rcases List.mem_pair.mp hwindow with rfl | rfl
    · rfl
    · rfl
  have hcovered := hagrees.covered
  rw [hof] at hcovered
  obtain ⟨other, hother, left, hleft, hle⟩ := hcovered _ (List.mem_cons_self) (10 : ℕ) rfl
    ⟨_, List.mem_cons_of_mem _ List.mem_cons_self, Option.some_ne_none _⟩
  rcases List.mem_pair.mp hother with rfl | rfl
  · cases hleft
  · obtain rfl : ((20 : ℕ) : ℚ≥0) = left := Option.some.inj hleft
    exact absurd (Nat.cast_le.mp hle) (by decide)

end AeepRouter.Capacity
