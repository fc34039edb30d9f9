import NewApi.Code.RateLimit
import Mathlib.Tactic.Linarith

/-!
# The token bucket

A request takes as many tokens as the window has seconds, and each second adds as many as the limit says.
-/

namespace NewApi.Limits.TokenBucket

open Code.RateLimit

/-! ## Doubles -/

theorem toDouble_exact {x : Int} (h : x.natAbs < 2 ^ 53) : toDouble x = x := by
  have hlog : x.natAbs.log2 - 52 = 0 := by
    by_cases hx : x.natAbs = 0
    · rw [hx]
      rfl
    · have := (Nat.log2_lt hx).mpr h
      omega
  simp [toDouble, hlog]

theorem le_toDouble {x : Int} (h : 2 ^ 53 ≤ x) : 2 ^ 53 ≤ toDouble x := by
  lift x to Nat using by omega
  have hx : x ≠ 0 := by omega
  obtain ⟨k, hk⟩ := Nat.exists_eq_add_of_le ((Nat.le_log2 hx).mpr (show 2 ^ 53 ≤ x by omega))
  have hunit : (2 : Int) ≤ 2 ^ (k + 1) := le_self_pow₀ (by decide) (by omega)
  have hq : 2 ^ 52 ≤ (x : Int) / 2 ^ (k + 1) := by
    rw [Int.le_ediv_iff_mul_le (by positivity), ← pow_add, show 52 + (k + 1) = 53 + k by omega, ← hk]
    exact_mod_cast Nat.log2_self_le hx
  unfold toDouble
  dsimp only
  rw [Int.natAbs_natCast, hk, show 53 + k - 52 = k + 1 by omega]
  split <;> nlinarith

theorem toDouble_cases {x : Int} (h : 0 ≤ x) : toDouble x = x ∨ (2 ^ 53 ≤ x ∧ 2 ^ 53 ≤ toDouble x) := by
  by_cases hx : x < 2 ^ 53
  · exact .inl (toDouble_exact (by omega))
  · exact .inr ⟨by omega, le_toDouble (by omega)⟩

/-! ## Calls -/

variable {m d now : Int} {bucket : Option Bucket} {times : List Int}

/-- The tokens at a time, in whole numbers. -/
def available (m d now : Int) : Option Bucket → Int
  | none => m * d
  | some bucket => min (m * d) (bucket.tokens + (now / 1000000 - bucket.lastTime) * m)

structure Small (m d : Int) : Prop where
  limit : 0 < m
  window : 0 < d
  product : m * d < 2 ^ 53

/-- A bucket of earlier calls. -/
def Earlier (now : Int) (bucket : Option Bucket) : Prop := ∀ b ∈ bucket, 0 ≤ b.tokens ∧ b.lastTime ≤ now / 1000000

theorem Small.capacity (h : Small m d) : rateLimitCapacity m d = m * d := by
  have hfits : ¬ m > maxInt64 / d := by
    rw [gt_iff_lt, not_lt, Int.le_ediv_iff_mul_le h.window]
    have := h.product
    unfold maxInt64
    omega
  unfold rateLimitCapacity
  rw [if_neg (by have := h.limit; have := h.window; omega), if_neg hfits]

/-- What is too large to be exact is above the capacity. -/
theorem refill_eq {capacity tokens elapsed : Int} (hm : 0 < m) (hcapacity : capacity < 2 ^ 53) (htokens : 0 ≤ tokens)
    (helapsed : 0 ≤ elapsed) :
    min capacity (toDouble (tokens + toDouble (toDouble elapsed * m))) = min capacity (tokens + elapsed * m) := by
  have hproduct : 0 ≤ elapsed * m := by positivity
  have hbig : ∀ x, 2 ^ 53 ≤ x → 2 ^ 53 ≤ tokens + toDouble x := by
    intro x hx
    have := le_toDouble hx
    omega
  rcases toDouble_cases helapsed with h | ⟨h, h'⟩
  · rw [h]
    rcases toDouble_cases hproduct with h | ⟨h, h'⟩
    · rw [h]
      rcases toDouble_cases (add_nonneg htokens hproduct) with h | ⟨h, h'⟩
      · rw [h]
      · omega
    · have := le_toDouble (hbig _ h)
      omega
  · have := le_toDouble (hbig _ (show 2 ^ 53 ≤ toDouble elapsed * m by nlinarith))
    have : 2 ^ 53 ≤ elapsed * m := by nlinarith
    omega

theorem available_bounds (h : Small m d) (hb : Earlier now bucket) :
    0 ≤ available m d now bucket ∧ available m d now bucket ≤ m * d := by
  obtain ⟨hlimit, hwindow, -⟩ := h
  have hfull : 0 ≤ m * d := by positivity
  cases bucket with
  | none => exact ⟨hfull, le_rfl⟩
  | some b =>
    obtain ⟨htokens, htime⟩ := hb b rfl
    exact ⟨le_min hfull (by nlinarith), min_le_left _ _⟩

/-- What a call does. -/
theorem Small.step (h : Small m d) (hb : Earlier now bucket) (times : List Int) : ∃ allowed b,
    allowAll m d bucket (now :: times) = (now, allowed) :: allowAll m d (some b) times ∧
      (allowed = true ↔ d ≤ available m d now bucket) ∧
      b.tokens + (if allowed then d else 0) = available m d now bucket ∧ 0 ≤ b.tokens ∧ b.lastTime = now / 1000000 := by
  obtain ⟨hlimit, hwindow, hproduct⟩ := id h
  have hm : m ≤ m * d := by nlinarith
  have hd : d ≤ m * d := by nlinarith
  have hbounds := available_bounds h hb
  have htokens : tokensAt m (m * d) (now / 1000000) bucket = available m d now bucket := by
    unfold tokensAt
    rw [toDouble_exact (x := m * d) (by omega), toDouble_exact (x := m) (by omega)]
    cases bucket with
    | none => rfl
    | some b =>
      obtain ⟨htokens, htime⟩ := hb b rfl
      exact refill_eq hlimit hproduct htokens (by omega)
  rw [allowAll, allowTotal, tokenBucket, h.capacity, toDouble_exact (x := d) (by omega)]
  dsimp only
  rw [htokens]
  split
  · rename_i henough
    rw [toDouble_exact (by omega)]
    exact ⟨true, _, rfl, by simpa using henough, by simp, by dsimp only; omega, rfl⟩
  · rename_i hshort
    exact ⟨false, _, rfl, by simpa using hshort, by simp, hbounds.1, rfl⟩

/-! ## Any span of time -/

def allowedIn (x y : Int) (calls : List (Int × Bool)) : Nat := calls.countP fun c => c.2 ∧ x ≤ c.1 ∧ c.1 ≤ y

theorem available_later {next : Bucket} {later : Int}
    (htokens : next.tokens ≤ available m d now bucket) (htime : next.lastTime = now / 1000000) :
    available m d later (some next) ≤ available m d later bucket := by
  cases bucket with
  | none => exact min_le_left _ _
  | some =>
    refine le_min (min_le_left _ _) ((min_le_right _ _).trans ?_)
    have hadded := htokens.trans (min_le_right _ _)
    rw [htime]
    linarith

/-- A credit of the tokens there and those to come is not overdrawn. -/
theorem spent_le {x y credit : Int} (h : Small m d) (hsorted : times.Pairwise (· ≤ ·)) (hb : ∀ t ∈ times, Earlier t bucket)
    (hpos : 0 ≤ credit) (hcredit : ∀ t ∈ times, x ≤ t → t ≤ y →
      available m d t bucket + m * (y / 1000000 - t / 1000000) ≤ credit) :
    d * allowedIn x y (allowAll m d bucket times) ≤ credit := by
  induction times generalizing bucket credit with
  | nil => simpa [allowedIn, allowAll] using hpos
  | cons t times ih =>
    rw [List.pairwise_cons] at hsorted
    rw [List.forall_mem_cons] at hb hcredit
    obtain ⟨allowed, next, heq, hallowed, htokens, hnonneg, htime⟩ := h.step hb.1 times
    have hnext : ∀ u ∈ times, Earlier u (some next) := by
      rintro u hu _ ⟨⟩
      have := hsorted.1 u hu
      exact ⟨hnonneg, by omega⟩
    rw [heq, allowedIn, List.countP_cons]
    split
    · rename_i hcounted
      obtain ⟨rfl, hxt, hty⟩ := of_decide_eq_true hcounted
      have hspan : 0 ≤ m * (y / 1000000 - t / 1000000) := mul_nonneg h.limit.le (by omega)
      have hbound := hcredit.1 hxt hty
      have hd := hallowed.mp rfl
      have hrest : d * allowedIn x y (allowAll m d (some next) times) ≤ credit - d :=
        ih hsorted.2 hnext (by linarith) fun u hu _ _ => by
          have hadded : available m d u (some next) ≤ next.tokens + (u / 1000000 - next.lastTime) * m := min_le_right _ _
          rw [if_pos rfl] at htokens
          rw [htime] at hadded
          linarith
      rw [allowedIn] at hrest
      push_cast
      linarith
    · refine ih hsorted.2 hnext hpos fun u hu hxu huy => ?_
      have hfree : (0 : Int) ≤ if allowed then d else 0 := by
        have := h.window
        split <;> omega
      have : available m d u (some next) ≤ available m d u bucket := available_later (by linarith) htime
      linarith [hcredit.2 u hu hxu huy]

/-! ## Even calls -/

def evenTimes (t step : Int) : Nat → List Int
  | 0 => []
  | n + 1 => t :: evenTimes (t + step) step n

/-- Only a part of a second is missing from the capacity. -/
theorem even_allowed (h : Small m d) {s : Int} (hs : d * 1000000 ≤ m * s) (n : Nat) (hb : Earlier now bucket)
    (hfull : m * d * 1000000 ≤ available m d now bucket * 1000000 + m * (now % 1000000)) :
    ∀ call ∈ allowAll m d bucket (evenTimes now s n), call.2 = true := by
  have hlimit := h.limit
  have hwindow := h.window
  induction n generalizing now bucket with
  | zero => simp [evenTimes, allowAll]
  | succ n ih =>
    obtain ⟨allowed, next, heq, hallowed, htokens, hnonneg, htime⟩ := h.step hb (evenTimes (now + s) s n)
    have henough : allowed = true := by
      refine hallowed.mpr ?_
      have : m * (now % 1000000) ≤ m * 999999 := mul_le_mul_of_nonneg_left (by omega) hlimit.le
      have : 0 ≤ (m - 1) * (d - 1) := mul_nonneg (by omega) (by omega)
      nlinarith
    rw [evenTimes, heq, List.forall_mem_cons]
    rw [if_pos henough] at htokens
    refine ⟨henough, ih ?_ ?_⟩
    · rintro _ ⟨⟩
      have : 0 < s := by nlinarith
      exact ⟨hnonneg, by omega⟩
    · dsimp only [available]
      rw [htime]
      rcases min_choice (m * d) (next.tokens + ((now + s) / 1000000 - now / 1000000) * m) with hmin | hmin
      · rw [hmin]
        have : 0 ≤ m * ((now + s) % 1000000) := mul_nonneg hlimit.le (by omega)
        linarith
      · rw [hmin]
        have hnow : m * (1000000 * (now / 1000000) + now % 1000000) = m * now := by rw [Int.mul_ediv_add_emod]
        have hnext : m * (1000000 * ((now + s) / 1000000) + (now + s) % 1000000) = m * (now + s) := by
          rw [Int.mul_ediv_add_emod]
        linarith

/-- Redis times are in microseconds, and spans in whole seconds. -/
theorem token_bucket_bound (m d : Int) (h : Small m d) :
    (∀ times : List Int, times.Pairwise (· ≤ ·) → ∀ (x : Int) (T : Nat),
      d * allowedIn x (x + T * 1000000) (allowAll m d none times) ≤ m * d + m * T) ∧
    ∀ (t s : Int) (n : Nat), d * 1000000 ≤ m * s → ∀ call ∈ allowAll m d none (evenTimes t s n), call.2 = true := by
  have hlimit := h.limit
  have hfull : 0 ≤ m * d := mul_nonneg hlimit.le h.window.le
  have hnone : ∀ t, Earlier t none := by
    rintro t _ ⟨⟩
  refine ⟨fun times hsorted x T => ?_, fun t s n hs => ?_⟩
  · refine spent_le h hsorted (fun t _ => hnone t) (by positivity) fun t _ hxt hty => ?_
    exact add_le_add_right (mul_le_mul_of_nonneg_left (by omega) hlimit.le) _
  · have : 0 ≤ m * (t % 1000000) := mul_nonneg hlimit.le (by omega)
    exact even_allowed h hs n (hnone t) (by simpa [available] using this)

theorem token_bucket_bound_ten : Small 10 60 ∧
    (60 : Int) * allowedIn 0 (0 + (1 : Nat) * 1000000) (allowAll 10 60 none [0, 5, 900000]) ≤ 10 * 60 + 10 * (1 : Nat) ∧
    ∀ call ∈ allowAll 10 60 none (evenTimes 0 6000000 100), call.2 = true := by
  have hsmall : Small 10 60 := ⟨by decide, by decide, by decide⟩
  obtain ⟨hspan, heven⟩ := token_bucket_bound 10 60 hsmall
  exact ⟨hsmall, hspan [0, 5, 900000] (by decide) 0 1, heven 0 6000000 100 (by decide)⟩

/-- A double cannot take 60 from `2 ^ 63`. -/
theorem huge_limit_never_refuses :
    ∃ times : List Int, times.Pairwise (· ≤ ·) ∧ 2 ^ 60 * 60 < 60 * allowedIn 0 0 (allowAll (2 ^ 60) 60 none times) := by
  have hstep : ∀ bucket ∈ [none, some ⟨2 ^ 63, 0⟩], allowTotal (2 ^ 60) 60 0 bucket = (true, ⟨2 ^ 63, 0⟩) := by
    decide +kernel
  have hall : ∀ (n : Nat), ∀ bucket ∈ [none, some ⟨2 ^ 63, 0⟩],
      allowedIn 0 0 (allowAll (2 ^ 60) 60 bucket (List.replicate n 0)) = n := by
    intro n
    induction n with
    | zero => exact fun _ _ => rfl
    | succ n ih =>
      intro bucket hbucket
      rw [List.replicate_succ, allowAll, hstep bucket hbucket, allowedIn, List.countP_cons_of_pos (by decide)]
      exact congrArg (· + 1) (ih (some ⟨2 ^ 63, 0⟩) (by simp))
  obtain ⟨n, hn⟩ : ∃ n, 2 ^ 60 < n := ⟨_, Nat.lt_succ_self _⟩
  refine ⟨List.replicate n 0, List.pairwise_replicate.mpr (.inr le_rfl), ?_⟩
  rw [hall n none (by simp)]
  omega

end NewApi.Limits.TokenBucket
