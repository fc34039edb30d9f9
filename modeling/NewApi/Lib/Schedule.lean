import Mathlib.Algebra.Order.Ring.Int

/-!
# Schedules that are advanced late

`next` takes a time to the boundary after it. What a look finds depends on the time of the last look alone.
-/

namespace NewApi.Schedule

variable {next : Int → Int} {now later base start a b c x : Int}

def Due (now t : Int) : Prop := 0 < t ∧ t ≤ now

instance (now t : Int) : Decidable (Due now t) := inferInstanceAs (Decidable (_ ∧ _))

def Rises (next : Int → Int) : Prop := ∀ t, next t ≤ 0 ∨ t < next t

/-- The boundary `b` is the last that has come at `now`. -/
inductive Reaches (next : Int → Int) (now : Int) : Int → Int → Prop
  | stop {base : Int} (hout : ¬ Due now (next base)) : Reaches next now base base
  | step {base b : Int} (hin : Due now (next base)) (rest : Reaches next now (next base) b) : Reaches next now base b

theorem Reaches.unique (h : Reaches next now base b) (h' : Reaches next now base c) : b = c := by
  induction h with
  | stop hout =>
    cases h' with
    | stop => rfl
    | step hin => exact absurd hin hout
  | step hin _ ih =>
    cases h' with
    | stop hout => exact absurd hin hout
    | step _ rest => exact ih rest

theorem Reaches.rest (h : Reaches next now base b) (hin : Due now (next base)) : Reaches next now (next base) b := by
  cases h with
  | stop hout => exact absurd hin hout
  | step _ rest => exact rest

theorem Reaches.out (h : Reaches next now base b) : ¬ Due now (next b) := by
  induction h with
  | stop hout => exact hout
  | step _ _ ih => exact ih

theorem Reaches.le (hp : Rises next) (h : Reaches next now base b) : base ≤ b := by
  induction h with
  | stop => exact le_rfl
  | @step base _ hin _ ih =>
    have := hp base
    unfold Due at hin
    omega

theorem Reaches.le_now (h : Reaches next now base b) : b = base ∨ 0 < b ∧ b ≤ now := by
  induction h with
  | stop => exact .inl rfl
  | step hin _ ih =>
    rcases ih with rfl | hb
    · exact .inr hin
    · exact .inr hb

/-- A look in between changes nothing about what a later one finds. -/
theorem Reaches.trans (h : Reaches next now base b) (hle : now ≤ later) (h' : Reaches next later b c) :
    Reaches next later base c := by
  induction h with
  | stop => exact h'
  | step hin _ ih => exact .step ⟨hin.1, hin.2.trans hle⟩ (ih h')

def lastBoundary (next : Int → Int) (now : Int) : Nat → Int → Int
  | 0, base => base
  | fuel + 1, base => if Due now (next base) then lastBoundary next now fuel (next base) else base

theorem reaches_lastBoundary (hp : Rises next) {fuel : Nat} (hfuel : now - base ≤ fuel) :
    Reaches next now base (lastBoundary next now fuel base) := by
  induction fuel generalizing base with
  | zero =>
    refine .stop ?_
    rintro ⟨hpos, hle⟩
    have := hp base
    omega
  | succ fuel ih =>
    unfold lastBoundary
    split
    · rename_i hin
      refine .step hin (ih ?_)
      have := hp base
      unfold Due at hin
      omega
    · rename_i hout
      exact .stop hout

/-! ## Periods -/

inductive Boundary (next : Int → Int) (start : Int) : Int → Prop
  | first (hpos : 0 < next start) : Boundary next start (next start)
  | succ {x : Int} (hx : Boundary next start x) (hpos : 0 < next x) : Boundary next start (next x)

def SamePeriod (next : Int → Int) (start a b : Int) : Prop := ∀ x, Boundary next start x → (x ≤ a ↔ x ≤ b)

theorem Boundary.reaches (hp : Rises next) (h : Boundary next start x) (hle : x ≤ now)
    (hr : Reaches next now start b) : Reaches next now x b := by
  induction h with
  | first hpos => exact hr.rest ⟨hpos, hle⟩
  | @succ x _ hpos ih =>
    have := hp x
    exact (ih (by omega)).rest ⟨hpos, hle⟩

theorem Reaches.boundary (h : Reaches next now base b) (hbase : base = start ∨ Boundary next start base) :
    b = start ∨ Boundary next start b := by
  induction h with
  | stop => exact hbase
  | step hin _ ih =>
    refine ih (.inr ?_)
    rcases hbase with rfl | hbase
    · exact .first hin.1
    · exact .succ hbase hin.1

theorem SamePeriod.refl (next : Int → Int) (start a : Int) : SamePeriod next start a a := fun _ _ => Iff.rfl

theorem SamePeriod.symm (h : SamePeriod next start a b) : SamePeriod next start b a := fun x hx => (h x hx).symm

theorem SamePeriod.trans (h : SamePeriod next start a b) (h' : SamePeriod next start b c) : SamePeriod next start a c :=
  fun x hx => (h x hx).trans (h' x hx)

/-- Two looks that find the same boundary are in the same period. -/
theorem samePeriod_of_reaches (hp : Rises next) (ha : start ≤ a) (hb : start ≤ b) (hra : Reaches next a start x)
    (hrb : Reaches next b start x) : SamePeriod next start a b := by
  have hle : ∀ {a b}, start ≤ b → Reaches next a start x → Reaches next b start x →
      ∀ y, Boundary next start y → y ≤ a → y ≤ b := by
    intro a b hb hra hrb y hy hya
    have hyx := (hy.reaches hp hya hra).le hp
    rcases hrb.le_now with rfl | ⟨-, hxb⟩
    · exact hyx.trans hb
    · exact hyx.trans hxb
  exact fun y hy => ⟨hle hb hra hrb y hy, hle ha hrb hra y hy⟩

theorem not_samePeriod_of_reaches (hr : Reaches next now start b) (hlater : Reaches next later b c)
    (hne : c ≠ b) (hle : x ≤ now) : ¬ SamePeriod next start x later := by
  intro hsame
  have hin : Due later (next b) := by
    by_contra hout
    exact hne (hlater.unique (.stop hout))
  have hboundary : Boundary next start (next b) := by
    rcases hr.boundary (.inl rfl) with rfl | hb
    · exact .first hin.1
    · exact .succ hb hin.1
  have hcome := (hsame _ hboundary).mpr hin.2
  exact hr.out ⟨hin.1, hcome.trans hle⟩

end NewApi.Schedule
