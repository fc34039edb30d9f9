import NewApi.Code.RateLimit

/-!
# The limiter in memory

The queue of a key has every request of the last window, as long as the key is not dropped before.
-/

namespace NewApi.Limits.InMemory

open Code.RateLimit

/-- The requests and the completed reservations that count, in seconds. -/
structure State where
  now : Int
  limiter : InMemoryRateLimiter
  accepted : List Int
  succeeded : List Int

def State.start (now expirationDuration : Int) : State := ⟨now, ⟨now, [], 0, expirationDuration⟩, [], []⟩

/-- A clean-up may come later than its tick. -/
inductive Event where
  | request
  | reserve
  | complete (success : Bool)
  | cleanUp (late : Nat)
  | elapse (ns : Nat)

def State.step (m : Nat) (d : Int) (s : State) : Event → State
  | .request =>
    let (allowed, limiter) := s.limiter.request m d s.now
    { s with limiter, accepted := if allowed then s.accepted ++ [unix s.now] else s.accepted }
  | .reserve => { s with limiter := s.limiter.reserve m d s.now }
  | .complete success =>
    if s.limiter.reservations = 0 then s
    else
      let succeeded := if success then s.succeeded ++ [unix s.now] else s.succeeded
      { s with limiter := s.limiter.complete success s.now, succeeded }
  | .cleanUp late => { s with limiter := s.limiter.deleteExpiredEntries (s.now - late) }
  | .elapse ns => { s with now := s.now + ns }

/-! ## The queue -/

variable {m : Nat} {d now y : Int} {s : State} {queue : List Int}

def since (y : Int) (times : List Int) : Nat := times.countP fun t => y ≤ t

def within (y d : Int) (times : List Int) : Nat := times.countP fun t => y ≤ t ∧ t < y + d

theorem within_le_since (times : List Int) : within y d times ≤ since y times :=
  List.countP_mono_left fun t _ h => by simp at h ⊢; exact h.1

/-- Only what is out of the window goes. -/
theorem removeExpired_split (now d : Int) (hqueue : queue.Pairwise (· ≤ ·)) :
    ∃ old, queue = old ++ removeExpired now d queue ∧ ∀ t ∈ old, t ≤ now - d := by
  unfold removeExpired
  split
  · rename_i head tail _ htail
    split
    · exact ⟨[], rfl, by simp⟩
    split
    · refine ⟨queue, by simp, fun t ht => ?_⟩
      obtain ⟨front, rfl⟩ := List.getLast?_eq_some_iff.mp htail
      have hle : t ≤ tail := by
        rcases List.mem_append.mp ht with ht | ht
        · exact (List.pairwise_append.mp hqueue).2.2 t ht tail (by simp)
        · exact Int.le_of_eq (List.mem_singleton.mp ht)
      omega
    · refine ⟨_, List.takeWhile_append_dropWhile.symm, fun t ht => ?_⟩
      have := of_decide_eq_true (List.all_eq_true.mp List.all_takeWhile t ht)
      omega
  · exact ⟨[], rfl, by simp⟩

theorem within_snoc {times : List Int} {t : Int} (hle : within y d times ≤ m) (h : y > t - d → since y times < m) :
    within y d (times ++ [t]) ≤ m := by
  have := within_le_since (y := y) (d := d) times
  unfold within at *
  rw [List.countP_append, List.countP_singleton]
  split
  · rename_i hin
    have := h (by have := of_decide_eq_true hin; omega)
    omega
  · exact hle

theorem since_old {old : List Int} (hold : ∀ t ∈ old, t ≤ now - d) (hy : y > now - d) : since y old = 0 :=
  List.countP_eq_zero.mpr fun t ht => by
    have := hold t ht
    simp
    omega

theorem since_append {old : List Int} (hold : ∀ t ∈ old, t ≤ now - d) (hy : y > now - d) :
    since y (old ++ queue) = since y queue := by
  have hgone := since_old hold hy
  unfold since at *
  rw [List.countP_append, hgone, Nat.zero_add]

/-! ## The invariant -/

structure Inv (m : Nat) (d : Int) (s : State) : Prop where
  expiry : s.limiter.expirationDuration ≤ 0 ∨ d * 1000000000 ≤ s.limiter.expirationDuration
  sorted : s.limiter.requests.Pairwise (· ≤ ·)
  active : s.limiter.lastActive ≤ s.now
  past : ∀ t ∈ s.limiter.requests, t ≤ unix s.limiter.lastActive
  kept : ∀ y > unix s.now - d, since y s.accepted ≤ since y s.limiter.requests ∧
    since y s.succeeded ≤ since y s.limiter.requests
  room : ∀ y > unix s.now - d, since y s.succeeded + s.limiter.reservations ≤ m
  bound : ∀ y, within y d s.accepted ≤ m ∧ within y d s.succeeded ≤ m

section

variable (h : Inv m d s) {old : List Int} (hsplit : s.limiter.requests = old ++ queue)
  (hold : ∀ t ∈ old, t ≤ unix s.now - d)
include h hsplit hold

theorem Inv.recent (hy : y > unix s.now - d) : since y s.accepted ≤ since y queue ∧ since y s.succeeded ≤ since y queue := by
  have hkept := h.kept y hy
  rwa [hsplit, since_append hold hy] at hkept

/-- The key is used: old requests go, and one may come. -/
theorem Inv.touch {added accepted succeeded : List Int} {reservations : Nat} (hadded : added = [] ∨ added = [unix s.now])
    (hkept : ∀ y, since y accepted ≤ since y s.accepted + since y added ∧ since y succeeded ≤ since y s.succeeded + since y added)
    (hroom : ∀ y > unix s.now - d, since y succeeded + reservations ≤ m)
    (hbound : ∀ y, within y d accepted ≤ m ∧ within y d succeeded ≤ m) :
    Inv m d ⟨s.now, ⟨s.now, queue ++ added, reservations, s.limiter.expirationDuration⟩, accepted, succeeded⟩ := by
  have hpast : ∀ t ∈ queue, t ≤ unix s.now := by
    intro t ht
    have hle : unix s.limiter.lastActive ≤ unix s.now := Int.ediv_le_ediv (by decide) h.active
    exact Int.le_trans (h.past t (by simp [hsplit, ht])) hle
  have hsorted := h.sorted
  rw [hsplit] at hsorted
  refine ⟨h.expiry, ?_, Int.le_refl _, ?_, fun y hy => ?_, hroom, hbound⟩
  · refine List.pairwise_append.mpr ⟨(List.pairwise_append.mp hsorted).2.1, ?_, ?_⟩
    · rcases hadded with rfl | rfl <;> simp
    · rcases hadded with rfl | rfl
      · simp
      · simpa using hpast
  · rcases hadded with rfl | rfl <;> simpa [or_imp, forall_and] using hpast
  · have hrecent := h.recent hsplit hold hy
    have hadd := hkept y
    simp only [since, List.countP_append] at hrecent hadd ⊢
    omega

end

theorem Inv.request (h : Inv m d s) : Inv m d (s.step m d .request) := by
  obtain ⟨old, hsplit, hold⟩ := removeExpired_split (unix s.now) d h.sorted
  unfold State.step InMemoryRateLimiter.request
  dsimp only
  split
  · rename_i hfree
    refine h.touch hsplit hold (.inr rfl) (fun y => ⟨?_, Nat.le_add_right _ _⟩) h.room fun y => ⟨?_, (h.bound y).2⟩
    · simp [since]
    · refine within_snoc (h.bound y).1 fun hy => Nat.lt_of_le_of_lt ?_ hfree
      exact Nat.le_trans (h.recent hsplit hold hy).1 List.countP_le_length
  · have htouch := h.touch hsplit hold (.inl rfl) (fun y => ⟨Nat.le_add_right _ _, Nat.le_add_right _ _⟩) h.room h.bound
    rwa [List.append_nil] at htouch

theorem Inv.reserve (h : Inv m d s) : Inv m d (s.step m d .reserve) := by
  obtain ⟨old, hsplit, hold⟩ := removeExpired_split (unix s.now) d h.sorted
  unfold State.step InMemoryRateLimiter.reserve
  rw [← List.append_nil (removeExpired _ _ _)]
  refine h.touch hsplit hold (.inl rfl) (fun y => ⟨Nat.le_add_right _ _, Nat.le_add_right _ _⟩) (fun y hy => ?_) h.bound
  have := Nat.le_trans (h.recent hsplit hold hy).2 List.countP_le_length
  split
  · exact h.room y hy
  · rw [List.append_nil] at *
    omega

theorem Inv.complete (h : Inv m d s) (success : Bool) : Inv m d (s.step m d (.complete success)) := by
  unfold State.step InMemoryRateLimiter.complete
  dsimp only
  split
  · exact h
  cases success with
  | false =>
    refine ⟨h.expiry, h.sorted, h.active, h.past, h.kept, fun y hy => ?_, h.bound⟩
    have := h.room y hy
    simp
    omega
  | true =>
    refine h.touch (List.nil_append _).symm (by simp) (.inr rfl) (fun y => ⟨Nat.le_add_right _ _, ?_⟩) (fun y hy => ?_)
      fun y => ⟨(h.bound y).1, within_snoc (h.bound y).2 fun hy => ?_⟩
    · simp [since]
    · have := h.room y hy
      simp [since] at *
      split <;> omega
    · have := h.room y hy
      omega

theorem Inv.step (h : Inv m d s) (e : Event) : Inv m d (s.step m d e) := by
  cases e with
  | request => exact h.request
  | reserve => exact h.reserve
  | complete success => exact h.complete success
  | cleanUp late =>
    unfold State.step InMemoryRateLimiter.deleteExpiredEntries
    dsimp only
    split
    · -- All requests of the key are older than a window by now.
      have hold : ∀ t ∈ s.limiter.requests, t ≤ unix s.now - d := by
        intro t ht
        have := h.past t ht
        have := h.expiry
        unfold unix at *
        omega
      refine ⟨h.expiry, List.Pairwise.nil, h.active, by simp, fun y hy => ?_, h.room, h.bound⟩
      exact h.recent (List.append_nil _).symm hold hy
    · exact h
  | elapse ns =>
    have hle : unix s.now ≤ unix (s.now + ns) := Int.ediv_le_ediv (by decide) (by omega)
    have hy : ∀ y > unix (s.now + ns) - d, y > unix s.now - d := fun y hy => by omega
    have hactive : s.limiter.lastActive ≤ s.now + ns := Int.le_trans h.active (by omega)
    exact ⟨h.expiry, h.sorted, hactive, h.past, fun y h' => h.kept y (hy y h'), fun y h' => h.room y (hy y h'), h.bound⟩

/-- A window begins at any second. -/
theorem memory_limit_kept (m : Nat) (d expirationDuration now : Int)
    (h : expirationDuration ≤ 0 ∨ d * 1000000000 ≤ expirationDuration) (events : List Event) (y : Int) :
    within y d (events.foldl (State.step m d) (.start now expirationDuration)).accepted ≤ m ∧
      within y d (events.foldl (State.step m d) (.start now expirationDuration)).succeeded ≤ m := by
  have hrun : ∀ s, Inv m d s → Inv m d (events.foldl (State.step m d) s) := by
    induction events with
    | nil => exact fun _ h => h
    | cons e events ih => exact fun s h => ih _ (h.step e)
  refine (hrun _ ⟨h, List.Pairwise.nil, Int.le_refl _, ?_, ?_, ?_, ?_⟩).bound y <;> simp [State.start, since, within]

theorem memory_limit_kept_minute : (0 : Int) ≤ 0 ∧
    within 0 60 (([.request, .request] : List Event).foldl (State.step 1 60) (.start 0 0)).accepted ≤ 1 :=
  ⟨by decide, (memory_limit_kept 1 60 0 0 (.inl (by decide)) _ 0).1⟩

/-- At every moment the successes of the last window and the open reservations are within the limit. -/
theorem reservations_fit (m : Nat) (d expirationDuration now : Int)
    (h : expirationDuration ≤ 0 ∨ d * 1000000000 ≤ expirationDuration) (events : List Event) :
    let s := events.foldl (State.step m d) (.start now expirationDuration)
    since (unix s.now - d + 1) s.succeeded + s.limiter.reservations ≤ m := by
  have hrun : ∀ s, Inv m d s → Inv m d (events.foldl (State.step m d) s) := by
    induction events with
    | nil => exact fun _ h => h
    | cons e events ih => exact fun s h => ih _ (h.step e)
  refine (hrun _ ⟨h, List.Pairwise.nil, Int.le_refl _, ?_, ?_, ?_, ?_⟩).room _ (by omega) <;> simp [State.start, since, within]

theorem reservations_fit_one : (0 : Int) ≤ 0 ∧
    (([.reserve, .reserve] : List Event).foldl (State.step 1 60) (.start 0 0)).limiter.reservations ≤ 1 :=
  ⟨by decide, le_trans (Nat.le_add_left _ _) (reservations_fit 1 60 0 0 (.inl (by decide)) [.reserve, .reserve])⟩

/-- The key is dropped after 20 minutes, in a window of an hour. -/
theorem dropped_key_forgets : ¬ within 0 3600 (([.request, .elapse (1200 * 1000000000), .cleanUp 0, .request] :
    List Event).foldl (State.step 1 3600) (.start 0 (1200 * 1000000000))).accepted ≤ 1 := by
  decide +kernel

end NewApi.Limits.InMemory
