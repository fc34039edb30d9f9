import NewApi.Code.Subscription

/-!
# The reset catch-up loop

The loop of `maybeResetUserSubscriptionWithPlanTx` stops where each boundary lies after the one before (`Sound`).
-/

namespace NewApi.Reset

open GoTime Code

/-! ## Boundaries on the wall clock -/

variable (loc : Location) (plan : SubscriptionPlan)

def dayStart (day : Int) : Int := resolve loc (day * secondsPerDay)

def dayEnd (day days : Int) : Int :=
  resolve loc (wall loc (dayStart loc day) + days * secondsPerDay)

def monthEnd (m : Int) : Int := addDate loc (dayStart loc (firstDay m)) 1 0

def daysToMonday (weekday : Int) : Int := if weekday = 0 then 1 else 8 - weekday

/-- Every instant comes before the end of its period; a custom one is at least a second in 64 bits. -/
def Sound : Prop :=
  match plan.quotaResetPeriod with
  | .never => True
  | .daily => ∀ t, dayEnd loc (dayOf loc t) 1 ≠ 0 → t < dayEnd loc (dayOf loc t) 1
  | .weekly => ∀ t, dayEnd loc (dayOf loc t) (daysToMonday (weekday loc t)) ≠ 0 →
      t < dayEnd loc (dayOf loc t) (daysToMonday (weekday loc t))
  | .monthly => ∀ t, monthEnd loc (month loc t) ≠ 0 → t < monthEnd loc (month loc t)
  | .custom => plan.quotaResetCustomSeconds ≤ 0 ∨ second ≤ wrap64 (plan.quotaResetCustomSeconds * second)

theorem date_today (t : Int) : date loc (month loc t) (dayOfMonth loc t) 0 = dayStart loc (dayOf loc t) := by
  have hday : firstDay (month loc t) + (dayOf loc t - firstDay (month loc t) + 1 - 1) = dayOf loc t := by
    omega
  rw [date, dayOfMonth, hday, add_zero, dayStart]

theorem date_first (m : Int) : date loc m 1 0 = dayStart loc (firstDay m) := by
  rw [date, sub_self, add_zero, add_zero, dayStart]

theorem addDate_dayStart (day days : Int) : addDate loc (dayStart loc day) 0 days = dayEnd loc day days := by
  rw [addDate_days, dayEnd, ← wall_eq]
  congr 1
  simp only [secondsPerDay]
  omega

section

variable (t : Int) (plan : SubscriptionPlan)

theorem nextBoundary_daily (h : plan.quotaResetPeriod = .daily) :
    nextBoundary loc t plan = some (dayEnd loc (dayOf loc t) 1) := by
  simp only [nextBoundary, h, date_today, addDate_dayStart]

theorem nextBoundary_weekly (h : plan.quotaResetPeriod = .weekly) :
    nextBoundary loc t plan = some (dayEnd loc (dayOf loc t) (daysToMonday (weekday loc t))) := by
  have hdays : 8 - (if weekday loc t = 0 then 7 else weekday loc t) = daysToMonday (weekday loc t) := by
    unfold daysToMonday
    split <;> omega
  simp only [nextBoundary, h, date_today, addDate_dayStart, hdays]

theorem nextBoundary_monthly (h : plan.quotaResetPeriod = .monthly) :
    nextBoundary loc t plan = some (monthEnd loc (month loc t)) := by
  simp only [nextBoundary, h, date_first, monthEnd]

end

/-! ## Strict progress -/

def Progresses : Prop :=
  ∀ base endUnix, calcNextResetTime loc base plan endUnix = 0 ∨ base < calcNextResetTime loc base plan endUnix

theorem progresses_iff : Progresses loc plan ↔ ∀ t, ∀ next ∈ nextBoundary loc t plan, next ≠ 0 → t < next := by
  constructor
  · intro h t next hnext hne
    rw [Option.mem_def] at hnext
    have := h t 0
    simp only [calcNextResetTime, hnext, lt_self_iff_false, false_and, if_false] at this
    exact this.resolve_left hne
  · intro h base endUnix
    unfold calcNextResetTime
    split
    · exact .inl rfl
    rename_i next hnext
    split
    · exact .inl rfl
    · by_cases hz : next = 0
      · exact .inl hz
      · exact .inr (h base next hnext hz)

theorem custom_progresses_iff (seconds : Int) :
    (∀ t : Int, add t (wrap64 seconds) ≠ 0 → t < add t (wrap64 seconds)) ↔ second ≤ wrap64 seconds := by
  simp only [add_eq, second]
  constructor
  · intro h
    -- One of the bases 1 and 2 does not lead to the instant 0.
    have h1 := h 1
    have h2 := h 2
    omega
  · intro h t _
    omega

theorem progresses_iff_sound : Progresses loc plan ↔ Sound loc plan := by
  rw [progresses_iff]
  cases h : plan.quotaResetPeriod with
  | never => simp [nextBoundary, Sound, h]
  | daily => simp [nextBoundary_daily loc _ plan h, Sound, h]
  | weekly => simp [nextBoundary_weekly loc _ plan h, Sound, h]
  | monthly => simp [nextBoundary_monthly loc _ plan h, Sound, h]
  | custom =>
    by_cases hs : plan.quotaResetCustomSeconds ≤ 0
    · simp [nextBoundary, Sound, h, hs]
    · simp only [nextBoundary, Sound, h, hs, if_false, Option.mem_def, Option.some.injEq, forall_eq',
        false_or]
      exact custom_progresses_iff _

/-! ## The loop -/

def Finishes : Prop :=
  ∀ sub now, ∃ fuel r, maybeReset fuel loc sub plan now = .ok r

/-- With progress, each turn of the loop brings `next` closer to `now`. -/
theorem catchUp_finishes (endTime now : Int) (hp : Progresses loc plan) (fuel : Nat) :
    ∀ (base next : Int) (advanced : Bool), now - next < fuel →
      ∃ r, catchUp loc plan endTime now fuel base next advanced = some r := by
  induction fuel with
  | zero =>
    intro base next advanced hfuel
    refine ⟨_, if_neg ?_⟩
    rintro ⟨-, hle⟩
    simp at hfuel
    omega
  | succ fuel ih =>
    intro base next advanced hfuel
    unfold catchUp
    split
    · rcases hp next endTime with hz | hlt
      · -- No boundary is left, so the next test stops the loop.
        rw [hz]
        exact ⟨_, by unfold catchUp; cases fuel <;> rfl⟩
      · exact ih _ _ _ (by push_cast at hfuel; omega)
    · exact ⟨_, rfl⟩

theorem finishes_of_progresses (hp : Progresses loc plan) : Finishes loc plan := by
  intro sub now
  unfold maybeReset
  split
  · exact ⟨0, _, rfl⟩
  split
  · exact ⟨0, _, rfl⟩
  dsimp only
  generalize (if sub.lastResetTime ≤ 0 then sub.startTime else sub.lastResetTime) = base
  generalize calcNextResetTime loc base plan sub.endTime = next
  obtain ⟨⟨_, _, _⟩, hr⟩ := catchUp_finishes loc plan sub.endTime now hp
    ((now - next).toNat + 1) base next false (by push_cast; omega)
  refine ⟨(now - next).toNat + 1, ?_⟩
  simp only [hr]
  split
  · exact ⟨_, rfl⟩
  · split <;> exact ⟨_, rfl⟩

theorem sound_of_forward (h : Forward loc) (hc : plan.quotaResetPeriod ≠ .custom) : Sound loc plan := by
  have hday : ∀ day days t, 0 < days → dayOf loc t = day → t < dayEnd loc day days := by
    intro day days t hdays ht
    apply h
    have := h.le_dayOf (day * secondsPerDay)
    rw [← wall_eq]
    simp only [dayStart, secondsPerDay] at *
    have := clock_nonneg loc (resolve loc (day * 86400))
    omega
  cases hp : plan.quotaResetPeriod with
  | never => simp [Sound, hp]
  | daily =>
    simp only [Sound, hp]
    exact fun t _ => hday _ 1 t (by omega) rfl
  | weekly =>
    simp only [Sound, hp]
    refine fun t _ => hday _ _ t ?_ rfl
    unfold daysToMonday weekday
    by_cases hsun : (dayOf loc t + 4) % 7 = 0
    · rw [if_pos hsun]; omega
    · rw [if_neg hsun]; omega
  | monthly =>
    simp only [Sound, hp]
    intro t _
    apply h
    -- The month of the start is `month t` or a later one, and so is the day it ends on.
    set s := dayStart loc (firstDay (month loc t)) with hs
    have hstart : firstDay (month loc t) ≤ dayOf loc s := by
      have := h.le_dayOf (firstDay (month loc t) * secondsPerDay)
      rw [hs, dayStart]
      simp only [secondsPerDay] at *
      omega
    have hmonth : month loc t ≤ month loc s := by
      have := monthOf_mono hstart
      rwa [monthOf_firstDay] at this
    have hend := firstDay_strictMono.monotone (show month loc t + 1 ≤ month loc s + 1 by omega)
    have ht : dayOf loc t < firstDay (month loc t + 1) := (monthOf_spec (dayOf loc t)).2
    have hdom : firstDay (month loc s) ≤ dayOf loc s := (monthOf_spec (dayOf loc s)).1
    have := clock_nonneg loc s
    simp only [dayOfMonth, secondsPerDay] at *
    omega
  | custom => exact absurd hp hc

theorem sound_fixed (offset : Int) (plan : SubscriptionPlan) (hc : plan.quotaResetPeriod ≠ .custom) :
    Sound (.fixed offset) plan := sound_of_forward _ plan (fixed_forward offset) hc

/-! ## The failing inputs -/

/-- Once a boundary is its own next boundary, the loop never stops. -/
theorem catchUp_stalls (endTime now t : Int) (hfix : calcNextResetTime loc t plan endTime = t) (hpos : 0 < t)
    (hnow : t ≤ now) (fuel : Nat) : ∀ base advanced, catchUp loc plan endTime now fuel base t advanced = none := by
  induction fuel with
  | zero =>
    intro base advanced
    exact if_pos ⟨hpos, hnow⟩
  | succ fuel ih =>
    intro base advanced
    rw [catchUp, if_pos ⟨hpos, hnow⟩, hfix]
    exact ih t true

def samplePlan (period : ResetPeriod) (seconds : Int) : SubscriptionPlan where
  id := 0
  title := "Pro"
  priceAmount := 10
  durationUnit := .month
  durationValue := 1
  customSeconds := 0
  allowWalletOverflow := some true
  maxPurchasePerUser := 0
  upgradeGroup := ""
  downgradeGroup := ""
  totalAmount := 1000
  quotaResetPeriod := period
  quotaResetCustomSeconds := seconds

def sampleSub (lastReset : Int) : UserSubscription where
  id := 1
  userId := 1
  planId := 1
  amountTotal := 1000
  amountUsed := 300
  startTime := lastReset
  endTime := 1800000000
  status := .active
  source := "order"
  lastResetTime := lastReset
  nextResetTime := 0
  upgradeGroup := ""
  prevUserGroup := ""
  downgradeGroup := ""
  allowWalletOverflow := true

/-- Santiago in 2024: on 8 September the clock went from 00:00 to 01:00. -/
def santiago : Location := .change (-14400) 1725768000 (-10800)

theorem maybeReset_stalls (sub : UserSubscription) (now t : Int)
    (hdue : ¬ (0 < sub.nextResetTime ∧ now < sub.nextResetTime)) (hper : plan.quotaResetPeriod ≠ .never)
    (hlast : 0 < sub.lastResetTime) (hnext : calcNextResetTime loc sub.lastResetTime plan sub.endTime = t)
    (hfix : calcNextResetTime loc t plan sub.endTime = t) (hpos : 0 < t) (hnow : t ≤ now) (fuel : Nat) :
    maybeReset fuel loc sub plan now = .error .unfinished := by
  unfold maybeReset
  rw [if_neg hdue, if_neg hper]
  simp only [if_neg (show ¬ sub.lastResetTime ≤ 0 by omega), hnext,
    catchUp_stalls loc plan sub.endTime now t hfix hpos hnow]

end NewApi.Reset



