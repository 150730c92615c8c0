import Mathlib.Data.String.Basic
import AeepRouter.Lib.Numeral

/-!
# Dates, times and their texts

Days of the proleptic Gregorian calendar are counted by `ordinal`, and the microseconds of a wall
clock by `micros`. A `DateTime` is a wall clock and its offset from UTC. `isoformat` writes the
clock in fields of fixed widths, a fraction and the offset, so that texts are ordered as the clocks
are, and only then by offset (`isoformat_lt_iff`); instants are what they are ordered by when all
are of UTC (`isoformat_toUtc_lt_iff`). The texts are ASCII, so that their bytes are ordered as they
are (`bytes_lt_iff`).
-/

namespace AeepRouter.Lib.Calendar

open Numeral

/-! ## Days -/

abbrev Leap (year : ℕ) : Prop := year % 4 = 0 ∧ (year % 100 ≠ 0 ∨ year % 400 = 0)

def daysInMonth (year : ℕ) : ℕ → ℕ
  | 2 => if Leap year then 29 else 28
  | 4 | 6 | 9 | 11 => 30
  | _ => 31

def daysBeforeMonth (year : ℕ) : ℕ → ℕ
  | 0 | 1 => 0
  | month + 2 => daysBeforeMonth year (month + 1) + daysInMonth year (month + 1)

def daysBeforeYear (year : ℕ) : ℕ :=
  (year - 1) * 365 + (year - 1) / 4 - (year - 1) / 100 + (year - 1) / 400

theorem daysBeforeMonth_thirteen (year : ℕ) :
    daysBeforeMonth year 13 = if Leap year then 366 else 365 := by
  simp only [daysBeforeMonth, daysInMonth]
  split_ifs <;> rfl

theorem daysBeforeYear_succ {year : ℕ} (h : 1 ≤ year) :
    daysBeforeYear (year + 1) = daysBeforeYear year + daysBeforeMonth year 13 := by
  obtain ⟨passed, rfl⟩ := Nat.exists_eq_add_of_le' h
  rw [daysBeforeMonth_thirteen]
  unfold daysBeforeYear
  simp only [Nat.add_sub_cancel]
  have hhundreds : passed / 100 ≤ passed / 4 := Nat.div_le_div_left (by norm_num) (by norm_num)
  have hdvd : 400 ∣ passed + 1 → 100 ∣ passed + 1 := dvd_trans (by norm_num)
  have hdvd' : 100 ∣ passed + 1 → 4 ∣ passed + 1 := dvd_trans (by norm_num)
  rw [Nat.succ_div, Nat.succ_div, Nat.succ_div]
  simp only [Leap, ← Nat.dvd_iff_mod_eq_zero]
  generalize passed / 4 = fours at *
  generalize passed / 100 = hundreds at *
  generalize passed / 400 = fourHundreds at *
  split_ifs <;> omega

theorem daysBeforeMonth_le {year m n : ℕ} (hm : 1 ≤ m) (h : m < n) :
    daysBeforeMonth year m + daysInMonth year m ≤ daysBeforeMonth year n := by
  induction n, h using Nat.le_induction with
  | base =>
    obtain ⟨k, rfl⟩ := Nat.exists_eq_add_of_le' hm
    exact le_rfl
  | succ n hn ih =>
    obtain ⟨k, rfl⟩ : ∃ k, n = k + 1 := Nat.exists_eq_add_of_le' (by omega)
    exact ih.trans (Nat.le_add_right _ _)

theorem daysBeforeYear_le {y z : ℕ} (hy : 1 ≤ y) (h : y < z) :
    daysBeforeYear y + daysBeforeMonth y 13 ≤ daysBeforeYear z := by
  induction z, h using Nat.le_induction with
  | base => rw [daysBeforeYear_succ hy]
  | succ z hz ih =>
    rw [daysBeforeYear_succ (by omega)]
    omega

/-! ## Wall clocks -/

@[ext] structure WallClock where
  year : ℕ
  month : ℕ
  day : ℕ
  hour : ℕ
  minute : ℕ
  second : ℕ
  microsecond : ℕ
  valid_date : (1 ≤ year ∧ year ≤ 9999) ∧ (1 ≤ month ∧ month ≤ 12) ∧
    1 ≤ day ∧ day ≤ daysInMonth year month
  valid_time : hour < 24 ∧ minute < 60 ∧ second < 60 ∧ microsecond < 1000000

namespace WallClock

variable (a b : WallClock)

def ordinal : ℕ := daysBeforeYear a.year + daysBeforeMonth a.year a.month + a.day

def timeOfDay : ℕ := ((a.hour * 60 + a.minute) * 60 + a.second) * 1000000 + a.microsecond

/-- The microseconds since the day before the first. -/
def micros : ℕ := a.ordinal * 86400000000 + a.timeOfDay

def DateBefore : Prop :=
  a.year < b.year ∨ a.year = b.year ∧ (a.month < b.month ∨ a.month = b.month ∧ a.day < b.day)

def SameDate : Prop := a.year = b.year ∧ a.month = b.month ∧ a.day = b.day

variable {a b}

theorem ordinal_lt_of_dateBefore (h : DateBefore a b) : a.ordinal < b.ordinal := by
  obtain ⟨⟨hyear, -⟩, ⟨hmonth, hlast⟩, -, hday⟩ := a.valid_date
  obtain ⟨-, -, hfirst, -⟩ := b.valid_date
  unfold ordinal
  rcases h with h | ⟨heq, h | ⟨heq', h⟩⟩
  · have hyears := daysBeforeYear_le hyear h
    have hmonths : _ ≤ daysBeforeMonth a.year 13 := daysBeforeMonth_le hmonth (by omega)
    omega
  · have hmonths : _ ≤ daysBeforeMonth a.year b.month := daysBeforeMonth_le hmonth h
    rw [← heq]
    omega
  · rw [heq, heq']
    omega

/-- Days are counted in the order of dates. -/
theorem ordinal_lt_iff : a.ordinal < b.ordinal ↔ DateBefore a b := by
  refine ⟨fun h => ?_, ordinal_lt_of_dateBefore⟩
  by_contra hnot
  have hdates : DateBefore b a ∨ SameDate a b := by
    unfold DateBefore SameDate at *
    omega
  rcases hdates with hafter | ⟨hyear, hmonth, hday⟩
  · exact absurd (ordinal_lt_of_dateBefore hafter) h.asymm
  · unfold ordinal at h
    rw [hyear, hmonth, hday] at h
    exact lt_irrefl _ h

theorem timeOfDay_lt : a.timeOfDay < 86400000000 := by
  obtain ⟨hhour, hminute, hsecond, hmicro⟩ := a.valid_time
  unfold timeOfDay
  omega

theorem ordinal_eq_iff : a.ordinal = b.ordinal ↔ SameDate a b := by
  constructor
  · intro h
    have hbefore := mt ordinal_lt_iff.mpr (Nat.not_lt.mpr h.ge)
    have hafter := mt ordinal_lt_iff.mpr (Nat.not_lt.mpr h.le)
    unfold DateBefore at hbefore hafter
    unfold SameDate
    omega
  · rintro ⟨hyear, hmonth, hday⟩
    unfold ordinal
    rw [hyear, hmonth, hday]

/-! ### The clock of a count -/

/-- The last year that begins before a day. -/
def yearOf (n : ℕ) : ℕ := Nat.findGreatest (fun year => daysBeforeYear year < n) 9999

def monthOf (year n : ℕ) : ℕ := Nat.findGreatest (fun month => daysBeforeMonth year month < n) 12

theorem yearOf_spec {n : ℕ} (hfirst : 1 ≤ n) (hlast : n ≤ 3652059) :
    (1 ≤ yearOf n ∧ yearOf n ≤ 9999) ∧ daysBeforeYear (yearOf n) < n ∧
      n ≤ daysBeforeYear (yearOf n) + daysBeforeMonth (yearOf n) 13 := by
  have hone : daysBeforeYear 1 < n := hfirst
  have hle : 1 ≤ yearOf n := Nat.le_findGreatest (by norm_num) hone
  have hbound : yearOf n ≤ 9999 := Nat.findGreatest_le 9999
  have hbefore : daysBeforeYear (yearOf n) < n :=
    Nat.findGreatest_spec (P := fun year => daysBeforeYear year < n) (by norm_num : 1 ≤ 9999) hone
  refine ⟨⟨hle, hbound⟩, hbefore, ?_⟩
  rw [← daysBeforeYear_succ hle]
  rcases hbound.lt_or_eq with hlt | heq
  · exact not_lt.mp (Nat.findGreatest_is_greatest (P := fun year => daysBeforeYear year < n)
      (Nat.lt_succ_self (yearOf n)) hlt)
  · rw [heq]
    exact hlast

theorem monthOf_spec {year n : ℕ} (hfirst : 1 ≤ n) (hlast : n ≤ daysBeforeMonth year 13) :
    (1 ≤ monthOf year n ∧ monthOf year n ≤ 12) ∧ daysBeforeMonth year (monthOf year n) < n ∧
      n ≤ daysBeforeMonth year (monthOf year n) + daysInMonth year (monthOf year n) := by
  have hone : daysBeforeMonth year 1 < n := hfirst
  have hle : 1 ≤ monthOf year n := Nat.le_findGreatest (by norm_num) hone
  have hbound : monthOf year n ≤ 12 := Nat.findGreatest_le 12
  have hbefore : daysBeforeMonth year (monthOf year n) < n :=
    Nat.findGreatest_spec (P := fun month => daysBeforeMonth year month < n)
      (by norm_num : 1 ≤ 12) hone
  refine ⟨⟨hle, hbound⟩, hbefore, ?_⟩
  have hsucc : daysBeforeMonth year (monthOf year n + 1) =
      daysBeforeMonth year (monthOf year n) + daysInMonth year (monthOf year n) := by
    obtain ⟨k, hk⟩ := Nat.exists_eq_add_of_le' hle
    rw [hk]
    rfl
  rw [← hsucc]
  rcases hbound.lt_or_eq with hlt | heq
  · exact not_lt.mp (Nat.findGreatest_is_greatest (P := fun month => daysBeforeMonth year month < n)
      (Nat.lt_succ_self (monthOf year n)) hlt)
  · rw [heq]
    exact hlast

/-- A count of microseconds that some clock has. -/
def Counted (n : ℕ) : Prop := 86400000000 ≤ n ∧ n < 3652060 * 86400000000

theorem ordinal_bounds {n : ℕ} (h : Counted n) :
    1 ≤ n / 86400000000 ∧ n / 86400000000 ≤ 3652059 := by
  unfold Counted at h
  omega

def dayOfYear (n : ℕ) : ℕ := n - daysBeforeYear (yearOf n)

theorem dayOfYear_bounds {n : ℕ} (hfirst : 1 ≤ n) (hlast : n ≤ 3652059) :
    1 ≤ dayOfYear n ∧ dayOfYear n ≤ daysBeforeMonth (yearOf n) 13 := by
  obtain ⟨-, hbefore, hafter⟩ := yearOf_spec hfirst hlast
  unfold dayOfYear
  omega

def dayOfMonth (n : ℕ) : ℕ := dayOfYear n - daysBeforeMonth (yearOf n) (monthOf (yearOf n) (dayOfYear n))

theorem valid_date_of {n : ℕ} (hfirst : 1 ≤ n) (hlast : n ≤ 3652059) :
    (1 ≤ yearOf n ∧ yearOf n ≤ 9999) ∧
      (1 ≤ monthOf (yearOf n) (dayOfYear n) ∧ monthOf (yearOf n) (dayOfYear n) ≤ 12) ∧
        1 ≤ dayOfMonth n ∧
          dayOfMonth n ≤ daysInMonth (yearOf n) (monthOf (yearOf n) (dayOfYear n)) := by
  obtain ⟨hday, hdayLast⟩ := dayOfYear_bounds hfirst hlast
  obtain ⟨hmonth, hbefore, hafter⟩ := monthOf_spec hday hdayLast
  refine ⟨(yearOf_spec hfirst hlast).1, hmonth, ?_⟩
  unfold dayOfMonth
  omega

theorem valid_time_of {t : ℕ} (h : t < 86400000000) :
    t / 3600000000 < 24 ∧ t / 60000000 % 60 < 60 ∧ t / 1000000 % 60 < 60 ∧
      t % 1000000 < 1000000 := by
  omega

def ofMicros (n : ℕ) (h : Counted n) : WallClock where
  year := yearOf (n / 86400000000)
  month := monthOf (yearOf (n / 86400000000)) (dayOfYear (n / 86400000000))
  day := dayOfMonth (n / 86400000000)
  hour := n % 86400000000 / 3600000000
  minute := n % 86400000000 / 60000000 % 60
  second := n % 86400000000 / 1000000 % 60
  microsecond := n % 86400000000 % 1000000
  valid_date := valid_date_of (ordinal_bounds h).1 (ordinal_bounds h).2
  valid_time := valid_time_of (Nat.mod_lt n (by norm_num))

theorem micros_ofMicros {n : ℕ} (h : Counted n) : (ofMicros n h).micros = n := by
  obtain ⟨hfirst, hlast⟩ := ordinal_bounds h
  have hordinal : (ofMicros n h).ordinal = n / 86400000000 := by
    obtain ⟨hday, hdayLast⟩ := dayOfYear_bounds hfirst hlast
    have hyear := (yearOf_spec hfirst hlast).2.1
    have hmonth := (monthOf_spec hday hdayLast).2.1
    simp only [ordinal, ofMicros, dayOfMonth]
    unfold dayOfYear at *
    omega
  have htime : (ofMicros n h).timeOfDay = n % 86400000000 := by
    have hlt : n % 86400000000 < 86400000000 := Nat.mod_lt n (by norm_num)
    simp only [timeOfDay, ofMicros]
    generalize n % 86400000000 = t at *
    omega
  rw [micros, hordinal, htime]
  exact Nat.div_add_mod' n 86400000000

/-- Fields decide in their order; `rest` decides between equal fields. -/
def Before (a b : WallClock) (rest : Prop) : Prop :=
  a.year < b.year ∨ a.year = b.year ∧ (a.month < b.month ∨ a.month = b.month ∧
    (a.day < b.day ∨ a.day = b.day ∧ (a.hour < b.hour ∨ a.hour = b.hour ∧
      (a.minute < b.minute ∨ a.minute = b.minute ∧
        (a.second < b.second ∨ a.second = b.second ∧ rest)))))

/-- Numbers in a mixed base are ordered as their digits are. -/
theorem mixed_iff {p q x y r : ℕ} {later : Prop} (hx : x < r) (hy : y < r) :
    p * r + x < q * r + y ∨ p * r + x = q * r + y ∧ later ↔
      p < q ∨ p = q ∧ (x < y ∨ x = y ∧ later) := by
  rcases lt_trichotomy p q with h | rfl | h
  · have : (p + 1) * r ≤ q * r := Nat.mul_le_mul_right r h
    exact iff_of_true (.inl (by linarith)) (.inl h)
  · simp
  · have : (q + 1) * r ≤ p * r := Nat.mul_le_mul_right r h
    refine iff_of_false ?_ ?_
    · rintro (hlt | ⟨heq, -⟩) <;> linarith
    · rintro (hlt | ⟨heq, -⟩) <;> omega

/-- Clocks are counted in the order of their fields. -/
theorem before_iff {later : Prop} :
    Before a b (a.microsecond < b.microsecond ∨ a.microsecond = b.microsecond ∧ later) ↔
      a.micros < b.micros ∨ a.micros = b.micros ∧ later := by
  obtain ⟨hhour, hminute, hsecond, hmicro⟩ := a.valid_time
  obtain ⟨hhour', hminute', hsecond', hmicro'⟩ := b.valid_time
  unfold micros
  rw [mixed_iff a.timeOfDay_lt b.timeOfDay_lt, ordinal_lt_iff, ordinal_eq_iff]
  unfold timeOfDay
  rw [mixed_iff hmicro hmicro', mixed_iff hsecond hsecond', mixed_iff hminute hminute']
  unfold Before DateBefore SameDate
  tauto

end WallClock

/-! ## Texts -/

theorem field_lt_iff {w m n : ℕ} {x y : List Char} (hm : m < 10 ^ w) (hn : n < 10 ^ w) :
    text (pad w m) ++ x < text (pad w n) ++ y ↔ m < n ∨ m = n ∧ x < y := by
  rw [append_lt_append_iff (by simp), text_pad_lt_iff hm hn, text_pad_inj hm hn]

theorem same_cons_lt_iff {c : Char} {x y : List Char} : c :: x < c :: y ↔ x < y := by
  rw [List.cons_lt_cons_iff]
  simp

/-- The microseconds of a second, where there are any. -/
def fractionText (n : ℕ) : List Char := if n = 0 then [] else '.' :: text (pad 6 n)

/-- A fraction, before a text that begins with a character less than the point, if with any. -/
theorem fraction_lt_iff {m n : ℕ} {x y : List Char} (hm : m < 1000000) (hn : n < 1000000)
    (hx : ∀ c ∈ x.head?, c < '.') (hy : ∀ c ∈ y.head?, c < '.') :
    fractionText m ++ x < fractionText n ++ y ↔ m < n ∨ m = n ∧ x < y := by
  unfold fractionText
  split_ifs with hmzero hnzero hnzero
  · simp [hmzero, hnzero]
  · refine iff_of_true ?_ (.inl (by omega))
    cases x with
    | nil => exact List.nil_lt_cons _ _
    | cons c x => exact List.cons_lt_cons_iff.mpr (.inl (hx c rfl))
  · refine iff_of_false ?_ (by omega)
    cases y with
    | nil => exact List.not_lt_nil _
    | cons c y =>
      have hc := hy c rfl
      intro h
      rcases List.cons_lt_cons_iff.mp h with h | ⟨h, -⟩
      · exact lt_asymm h hc
      · exact hc.ne h.symm
  · rw [List.cons_append, List.cons_append, same_cons_lt_iff]
    exact field_lt_iff hm hn

namespace WallClock

variable {a b : WallClock} {x y : List Char}

def secondsText (a : WallClock) (rest : List Char) : List Char :=
  text (pad 4 a.year) ++ '-' :: (text (pad 2 a.month) ++ '-' :: (text (pad 2 a.day) ++
    'T' :: (text (pad 2 a.hour) ++ ':' :: (text (pad 2 a.minute) ++ ':' ::
      (text (pad 2 a.second) ++ rest)))))

theorem daysInMonth_le (year month : ℕ) : daysInMonth year month ≤ 31 := by
  unfold daysInMonth
  split <;> try split_ifs
  all_goals omega

theorem secondsText_lt_iff : a.secondsText x < b.secondsText y ↔ Before a b (x < y) := by
  have hbounds : ∀ c : WallClock, c.year < 10 ^ 4 ∧ c.month < 10 ^ 2 ∧ c.day < 10 ^ 2 ∧
      c.hour < 10 ^ 2 ∧ c.minute < 10 ^ 2 ∧ c.second < 10 ^ 2 := by
    intro c
    have hdate := c.valid_date
    have htime := c.valid_time
    have hdays := daysInMonth_le c.year c.month
    omega
  obtain ⟨hyear, hmonth, hday, hhour, hminute, hsecond⟩ := hbounds a
  obtain ⟨hyear', hmonth', hday', hhour', hminute', hsecond'⟩ := hbounds b
  unfold secondsText Before
  rw [field_lt_iff hyear hyear', same_cons_lt_iff, field_lt_iff hmonth hmonth', same_cons_lt_iff,
    field_lt_iff hday hday', same_cons_lt_iff, field_lt_iff hhour hhour', same_cons_lt_iff,
    field_lt_iff hminute hminute', same_cons_lt_iff, field_lt_iff hsecond hsecond']

end WallClock

/-! ## Offsets -/

def offsetSecondsText (seconds micros : ℕ) : List Char :=
  if seconds = 0 ∧ micros = 0 then [] else ':' :: (text (pad 2 seconds) ++ fractionText micros)

theorem offsetSecondsText_lt_iff {s m s' m' : ℕ} (hs : s < 60) (hm : m < 1000000) (hs' : s' < 60)
    (hm' : m' < 1000000) :
    offsetSecondsText s m < offsetSecondsText s' m' ↔ s < s' ∨ s = s' ∧ m < m' := by
  have hfraction : fractionText m < fractionText m' ↔ m < m' := by
    have h := fraction_lt_iff (x := []) (y := []) hm hm' (by simp) (by simp)
    simpa using h
  unfold offsetSecondsText
  split_ifs with hzero hzero' hzero'
  · exact iff_of_false (List.not_lt_nil _) (by omega)
  · exact iff_of_true (List.nil_lt_cons _ _) (by omega)
  · exact iff_of_false (List.not_lt_nil _) (by omega)
  · rw [same_cons_lt_iff, field_lt_iff (by omega) (by omega), hfraction]

/-- An offset without its sign. -/
def magnitudeText (n : ℕ) : List Char :=
  text (pad 2 (n / 3600000000)) ++ ':' :: (text (pad 2 (n / 60000000 % 60)) ++
    offsetSecondsText (n / 1000000 % 60) (n % 1000000))

theorem magnitudeText_lt_iff {m n : ℕ} (hm : m < 86400000000) (hn : n < 86400000000) :
    magnitudeText m < magnitudeText n ↔ m < n := by
  unfold magnitudeText
  rw [field_lt_iff (by omega) (by omega), same_cons_lt_iff, field_lt_iff (by omega) (by omega),
    offsetSecondsText_lt_iff (by omega) (by omega) (by omega) (by omega)]
  omega

def offsetText (offset : ℤ) : List Char :=
  (if offset < 0 then '-' else '+') :: magnitudeText offset.natAbs

/-- Offsets as their texts are ordered: those ahead of UTC, then those behind it, each by size. -/
def OffsetBefore (x y : ℤ) : Prop := 0 ≤ x ∧ (y < 0 ∨ x < y) ∨ x < 0 ∧ y < x

instance (x y : ℤ) : Decidable (OffsetBefore x y) := inferInstanceAs (Decidable (_ ∨ _))

theorem offsetText_lt_iff {x y : ℤ} (hx : |x| < 86400000000) (hy : |y| < 86400000000) :
    offsetText x < offsetText y ↔ OffsetBefore x y := by
  rw [Int.abs_eq_natAbs] at hx hy
  have hsize := magnitudeText_lt_iff (m := x.natAbs) (n := y.natAbs) (by omega) (by omega)
  have hsigns : '+' < '-' := by decide
  unfold offsetText OffsetBefore
  rw [List.cons_lt_cons_iff, hsize]
  split_ifs with hxneg hyneg hyneg
  · simp only [lt_irrefl, true_and, false_or]
    omega
  · refine iff_of_false ?_ (by omega)
    rintro (hlt | ⟨heq, -⟩)
    · exact hsigns.not_gt hlt
    · exact hsigns.ne' heq
  · exact iff_of_true (.inl hsigns) (by omega)
  · simp only [lt_irrefl, true_and, false_or]
    omega

/-! ## Instants -/

/-- A wall clock and how far it is ahead of UTC, in microseconds. -/
@[ext] structure DateTime where
  clock : WallClock
  offset : ℤ
  offset_lt : |offset| < 86400000000

namespace DateTime

variable (a b : DateTime)

def instant : ℤ := a.clock.micros - a.offset

/-- `datetime.isoformat`. -/
def isoformat : String :=
  String.ofList (a.clock.secondsText (fractionText a.clock.microsecond ++ offsetText a.offset))

/-- A clock of the years 1 to 9999 reads the instant in UTC. -/
def InRange : Prop := 86400000000 ≤ a.instant ∧ a.instant < 3652060 * 86400000000

instance : Decidable a.InRange := inferInstanceAs (Decidable (_ ∧ _))

theorem counted_of_inRange {a : DateTime} (h : a.InRange) : WallClock.Counted a.instant.toNat := by
  unfold InRange at h
  unfold WallClock.Counted
  omega

theorem zero_offset_lt : |(0 : ℤ)| < 86400000000 := by norm_num

def toUtc (h : a.InRange) : DateTime where
  clock := WallClock.ofMicros a.instant.toNat (counted_of_inRange h)
  offset := 0
  offset_lt := zero_offset_lt

/-- `a` is written as the earlier one. -/
def ReadsBefore : Prop :=
  a.clock.micros < b.clock.micros ∨
    a.clock.micros = b.clock.micros ∧ OffsetBefore a.offset b.offset

instance : Decidable (ReadsBefore a b) := inferInstanceAs (Decidable (_ ∨ _))

variable {a b}

theorem offsetText_head {x : ℤ} : ∀ c ∈ (offsetText x).head?, c < '.' := by
  unfold offsetText
  split_ifs
  · rintro c ⟨⟩
    decide
  · rintro c ⟨⟩
    decide

/-- Texts are ordered by the wall clock, and by the offset between equal ones. -/
theorem isoformat_lt_iff : a.isoformat < b.isoformat ↔ a.ReadsBefore b := by
  unfold isoformat ReadsBefore
  rw [String.lt_iff_toList_lt, String.toList_ofList, String.toList_ofList,
    WallClock.secondsText_lt_iff,
    fraction_lt_iff a.clock.valid_time.2.2.2 b.clock.valid_time.2.2.2 offsetText_head
      offsetText_head,
    offsetText_lt_iff a.offset_lt b.offset_lt]
  exact WallClock.before_iff

/-- Where neither text is less, the instants are the same. -/
theorem instant_eq (hab : ¬ a.ReadsBefore b) (hba : ¬ b.ReadsBefore a) : a.instant = b.instant := by
  unfold ReadsBefore OffsetBefore at *
  unfold instant
  omega

theorem instant_toUtc (h : a.InRange) : (a.toUtc h).instant = a.instant := by
  have hnonneg : 0 ≤ a.instant := le_trans (by norm_num) h.1
  have hclock : ((a.toUtc h).clock.micros : ℤ) = a.instant := by
    rw [toUtc, WallClock.micros_ofMicros, Int.toNat_of_nonneg hnonneg]
  rw [instant, hclock]
  exact sub_zero a.instant

theorem toUtc_congr (ha : a.InRange) (hb : b.InRange) (h : a.instant = b.instant) :
    a.toUtc ha = b.toUtc hb := by
  simp only [toUtc, h]

theorem micros_toUtc (h : a.InRange) : ((a.toUtc h).clock.micros : ℤ) = a.instant := by
  have hinstant := instant_toUtc h
  rw [instant] at hinstant
  exact (sub_zero _).symm.trans hinstant

theorem isoformat_toUtc_lt_iff (ha : a.InRange) (hb : b.InRange) :
    (a.toUtc ha).isoformat < (b.toUtc hb).isoformat ↔ a.instant < b.instant := by
  have hoffsets : ¬ OffsetBefore (a.toUtc ha).offset (b.toUtc hb).offset := by
    change ¬ OffsetBefore 0 0
    decide
  rw [isoformat_lt_iff, ReadsBefore, ← micros_toUtc ha, ← micros_toUtc hb, Int.ofNat_lt]
  exact or_iff_left fun h => hoffsets h.2

end DateTime

/-! ## Bytes -/

/-- The byte of an ASCII character. -/
def byteOf (c : Char) : UInt8 := c.val.toUInt8

/-- The bytes of a text. -/
def bytes (s : String) : List UInt8 := s.toList.flatMap String.utf8EncodeChar

def Ascii (cs : List Char) : Prop := ∀ c ∈ cs, c.toNat < 128

theorem encode_of_ascii {c : Char} (h : c.toNat < 128) :
    String.utf8EncodeChar c = [byteOf c] := by
  refine String.utf8EncodeChar_eq_singleton ?_
  exact Char.utf8Size_eq_one_iff.mpr (by
    have : c.val.toNat < 128 := h
    rw [UInt32.le_iff_toNat_le]
    exact Nat.lt_succ_iff.mp this)

theorem bytes_of_ascii {cs : List Char} (h : Ascii cs) :
    cs.flatMap String.utf8EncodeChar = cs.map byteOf := by
  induction cs with
  | nil => rfl
  | cons c cs ih =>
    obtain ⟨hc, hcs⟩ := List.forall_mem_cons.mp h
    rw [List.flatMap_cons, encode_of_ascii hc, ih hcs]
    rfl

theorem byte_lt_iff {c d : Char} (hc : c.toNat < 128) (hd : d.toNat < 128) :
    byteOf c < byteOf d ↔ c < d := by
  have hc' : c.val.toNat < 128 := hc
  have hd' : d.val.toNat < 128 := hd
  unfold byteOf
  rw [UInt8.lt_iff_toNat_lt, Char.lt_def, UInt32.lt_iff_toNat_lt, UInt32.toNat_toUInt8,
    UInt32.toNat_toUInt8]
  omega

theorem map_byte_lt_iff {cs ds : List Char} (hcs : Ascii cs) (hds : Ascii ds) :
    cs.map byteOf < ds.map byteOf ↔ cs < ds := by
  induction cs generalizing ds with
  | nil =>
    cases ds with
    | nil => exact iff_of_false (List.not_lt_nil _) (List.not_lt_nil _)
    | cons d ds => exact iff_of_true (List.nil_lt_cons _ _) (List.nil_lt_cons _ _)
  | cons c cs ih =>
    cases ds with
    | nil => exact iff_of_false (List.not_lt_nil _) (List.not_lt_nil _)
    | cons d ds =>
      obtain ⟨hc, hcs⟩ := List.forall_mem_cons.mp hcs
      obtain ⟨hd, hds⟩ := List.forall_mem_cons.mp hds
      have heq : byteOf c = byteOf d ↔ c = d := by
        refine ⟨fun h => ?_, congrArg byteOf⟩
        refine le_antisymm (not_lt.mp fun hlt => ?_) (not_lt.mp fun hlt => ?_)
        · exact UInt8.lt_irrefl _ (h ▸ (byte_lt_iff hd hc).mpr hlt)
        · exact UInt8.lt_irrefl _ (h ▸ (byte_lt_iff hc hd).mpr hlt)
      rw [List.map_cons, List.map_cons, List.cons_lt_cons_iff, List.cons_lt_cons_iff,
        byte_lt_iff hc hd, heq, ih hcs hds]

theorem bytes_lt_iff {s t : String} (hs : Ascii s.toList) (ht : Ascii t.toList) :
    bytes s < bytes t ↔ s < t := by
  rw [bytes, bytes, bytes_of_ascii hs, bytes_of_ascii ht, map_byte_lt_iff hs ht,
    String.lt_iff_toList_lt]

/-! ### Texts of dates and times -/

theorem Ascii.append {cs ds : List Char} (hcs : Ascii cs) (hds : Ascii ds) : Ascii (cs ++ ds) :=
  fun c hc => (List.mem_append.mp hc).elim (hcs c) (hds c)

theorem Ascii.cons {c : Char} {cs : List Char} (hc : c.toNat < 128) (hcs : Ascii cs) :
    Ascii (c :: cs) :=
  List.forall_mem_cons.mpr ⟨hc, hcs⟩

theorem ascii_nil : Ascii [] := fun _ h => absurd h List.not_mem_nil

theorem ascii_text (digits : List Digit) : Ascii (text digits) := by
  intro c hc
  have hdigit := isDigit_of_mem_text hc
  rw [Char.isDigit, Bool.and_eq_true, decide_eq_true_eq, decide_eq_true_eq] at hdigit
  have hle : c.val.toNat ≤ 57 := UInt32.le_iff_toNat_le.mp hdigit.2
  exact lt_of_le_of_lt hle (by norm_num)

theorem ascii_fractionText (n : ℕ) : Ascii (fractionText n) := by
  unfold fractionText
  split_ifs
  · exact ascii_nil
  · exact .cons (by decide) (ascii_text _)

theorem ascii_offsetText (offset : ℤ) : Ascii (offsetText offset) := by
  have hseconds : ∀ s m, Ascii (offsetSecondsText s m) := by
    intro s m
    unfold offsetSecondsText
    split_ifs
    · exact ascii_nil
    · exact .cons (by decide) ((ascii_text _).append (ascii_fractionText m))
  have hmagnitude : Ascii (magnitudeText offset.natAbs) :=
    (ascii_text _).append (.cons (by decide) ((ascii_text _).append (hseconds _ _)))
  unfold offsetText
  split_ifs
  · exact .cons (by decide) hmagnitude
  · exact .cons (by decide) hmagnitude

theorem ascii_secondsText (a : WallClock) {rest : List Char} (h : Ascii rest) :
    Ascii (a.secondsText rest) := by
  unfold WallClock.secondsText
  refine (ascii_text _).append (.cons (by decide) ?_)
  refine (ascii_text _).append (.cons (by decide) ?_)
  refine ((ascii_text _).append ?_)
  refine .cons (by decide) ((ascii_text _).append (.cons (by decide) ?_))
  exact (ascii_text _).append (.cons (by decide) ((ascii_text _).append h))

theorem ascii_isoformat (a : DateTime) : Ascii a.isoformat.toList := by
  rw [DateTime.isoformat, String.toList_ofList]
  exact ascii_secondsText a.clock ((ascii_fractionText _).append (ascii_offsetText _))

end AeepRouter.Lib.Calendar
