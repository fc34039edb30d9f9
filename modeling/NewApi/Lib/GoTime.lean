import Mathlib.Order.SuccPred.IntervalSucc
import Mathlib.Order.Interval.Set.Monotone
import Mathlib.Algebra.Order.Group.Int
import Mathlib.Algebra.Group.Nat.Defs
import Mathlib.Data.Int.ConditionallyCompleteOrder

/-!
# Go's `time` package

Instants are Unix seconds. The calendar is the proleptic Gregorian one, and a
location is Go's: a lookup that gives the zone in use at an instant.
-/

namespace NewApi.GoTime

def wrap64 (x : Int) : Int := x.bmod (2 ^ 64)

theorem wrap64_eq {x : Int} (h₁ : -2 ^ 63 ≤ x) (h₂ : x < 2 ^ 63) : wrap64 x = x := by
  apply Int.bmod_eq_of_le
  · simpa using h₁
  · simpa using h₂

def second : Int := 1000000000

def secondsPerDay : Int := 86400

/-! ## Months and days

A month is the number `12 * year + (month - 1)`, so that a month number past December
is already the normalised one of `time.Date`. A day is the number of days since 1970-01-01.
-/

/-- The sum counts from March, so that the leap day comes last. -/
def firstDay (month : Int) : Int :=
  let year := (month - 2) / 12
  365 * year + year / 4 - year / 100 + year / 400 + (153 * ((month - 2) % 12) + 2) / 5 - 719468

/-- A guess from the mean length, and one correction. -/
def monthOf (day : Int) : Int :=
  let guess := (day + 719468) * 4800 / 146097 + 2
  if day < firstDay guess then guess - 1
  else if firstDay (guess + 1) ≤ day then guess + 1
  else guess

theorem firstDay_lt_succ (m : Int) : firstDay m < firstDay (m + 1) := by
  simp only [firstDay]
  omega

theorem firstDay_strictMono : StrictMono firstDay := strictMono_int_of_lt_succ firstDay_lt_succ

theorem firstDay_near (m : Int) : 146097 * (m - 2) - 48000 ≤ 4800 * (firstDay m + 719468) ∧
      4800 * (firstDay m + 719468) ≤ 146097 * (m - 2) + 48000 := by
  simp only [firstDay]
  omega

theorem monthOf_spec (day : Int) : firstDay (monthOf day) ≤ day ∧ day < firstDay (monthOf day + 1) := by
  have before := firstDay_near ((day + 719468) * 4800 / 146097 + 2 - 1)
  have after := firstDay_near ((day + 719468) * 4800 / 146097 + 2 + 1 + 1)
  simp only [monthOf]
  split
  · rename_i h
    exact ⟨by omega, by simpa using h⟩
  split
  · rename_i h
    exact ⟨h, by omega⟩
  · omega

theorem monthOf_mono {a b : Int} (h : a ≤ b) : monthOf a ≤ monthOf b := by
  by_contra hlt
  have hle : monthOf b + 1 ≤ monthOf a := by omega
  have := firstDay_strictMono.monotone hle
  have := (monthOf_spec a).1
  have := (monthOf_spec b).2
  omega

theorem monthOf_firstDay (m : Int) : monthOf (firstDay m) = m := by
  obtain ⟨hle, hlt⟩ := monthOf_spec (firstDay m)
  have h1 := firstDay_strictMono.le_iff_le.mp hle
  have h2 := firstDay_strictMono.lt_iff_lt.mp hlt
  omega

/-! ## Locations -/

/-- The offset east of UTC, and the instants of its use. -/
structure Zone where
  offset : Int
  start : Option Int
  stop : Option Int
deriving DecidableEq

def Zone.covers (z : Zone) (t : Int) : Bool :=
  z.start.all (fun a => decide (a ≤ t)) && z.stop.all (fun b => decide (t < b))

/-- The zones split the time line, so the zone of `t` is that of every instant it covers. -/
structure Location where
  lookup : Int → Zone
  covers_self : ∀ t, (lookup t).covers t = true
  lookup_eq : ∀ t u, (lookup t).covers u = true → lookup u = lookup t

def Location.fixed (offset : Int) : Location where
  lookup _ := ⟨offset, none, none⟩
  covers_self _ := rfl
  lookup_eq _ _ _ := rfl

def Location.change (before : Int) (at_ : Int) (after : Int) : Location where
  lookup t := if t < at_ then ⟨before, none, some at_⟩ else ⟨after, some at_, none⟩
  covers_self t := by
    split <;> simp_all [Zone.covers]
  lookup_eq t u h := by
    split at h
    · simp_all [Zone.covers]
    · have ht : ¬ t < at_ := by assumption
      have hu : ¬ u < at_ := by simpa [Zone.covers] using h
      rw [if_neg ht, if_neg hu]

variable (loc : Location) (t : Int)

/-- What a clock on the wall shows, as seconds since 1970. -/
def wall : Int := t + (loc.lookup t).offset

def dayOf : Int := wall loc t / secondsPerDay

def clock : Int := wall loc t % secondsPerDay

def month : Int := monthOf (dayOf loc t)

def dayOfMonth : Int := dayOf loc t - firstDay (month loc t) + 1

/-- `Time.Weekday`, Sunday = 0. Day 0 was a Thursday. -/
def weekday : Int := (dayOf loc t + 4) % 7

/-- Looked up as if the wall time were UTC, and again where that does not hold. -/
def resolve (w : Int) : Int :=
  let z := loc.lookup w
  if z.offset = 0 then w
  else if z.covers (w - z.offset) then w - z.offset
  else w - (loc.lookup (w - z.offset)).offset

/-- `time.Date` with the time of day in seconds. -/
def date (month day sec : Int) : Int :=
  resolve loc ((firstDay month + (day - 1)) * secondsPerDay + sec)

/-- `Time.AddDate`, with the years counted in months. -/
def addDate (t months days : Int) : Int :=
  date loc (month loc t + months) (dayOfMonth loc t + days) (clock loc t)

/-- `Time.Add` of a duration, read back with `Time.Unix`. -/
def add (t nanos : Int) : Int := (t * second + nanos) / second

/-! ## Facts -/

theorem add_eq (t nanos : Int) : add t nanos = t + nanos / second := by
  simp only [add, second]
  omega

theorem wall_eq : dayOf loc t * secondsPerDay + clock loc t = wall loc t := by
  simp only [dayOf, clock, secondsPerDay]
  omega

theorem clock_nonneg : 0 ≤ clock loc t := by
  simp only [clock, secondsPerDay]
  omega

theorem addDate_days (t days : Int) :
    addDate loc t 0 days = resolve loc ((dayOf loc t + days) * secondsPerDay + clock loc t) := by
  have hday : firstDay (month loc t) + (dayOf loc t - firstDay (month loc t) + 1 + days - 1) =
      dayOf loc t + days := by omega
  rw [addDate, date, dayOfMonth, add_zero, hday]

/-! ## Zones whose midnights come in order -/

/-- No instant at or after the one that stands for `w` shows an earlier day. -/
def Forward : Prop := ∀ w t, dayOf loc t < w / secondsPerDay → t < resolve loc w

theorem Forward.le_dayOf {loc : Location} (h : Forward loc) (w : Int) :
    w / secondsPerDay ≤ dayOf loc (resolve loc w) := by
  by_contra hlt
  exact lt_irrefl _ (h w (resolve loc w) (by omega))

theorem fixed_forward (offset : Int) : Forward (.fixed offset) := by
  intro w t ht
  simp only [dayOf, wall, Location.fixed, secondsPerDay] at ht
  simp only [resolve, Location.fixed, Zone.covers, Option.all_none, Bool.and_self, if_true]
  split <;> omega

end NewApi.GoTime

