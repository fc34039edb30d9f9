import NewApi.Limits.InMemory
import NewApi.Lib.Run

/-!
# Successes in Redis

Where requests do not overlap, the list has every success of the last window up to the limit.
-/

namespace NewApi.Limits.RedisSuccess

open Code.RateLimit Run GoTime Limits.InMemory

/-- `succeeded` are the ends of the requests that succeed. -/
structure State where
  now : Int
  key : SuccessList
  calls : List Phase
  succeeded : List Int

def State.start (now : Int) (requests : Nat) : State := ⟨now, ⟨[], none⟩, List.replicate requests .llen, []⟩

inductive Event where
  | step (call : Nat) (success : Bool)
  | elapse (ms : Nat)

def State.phase (s : State) (call : Nat) : Phase := s.calls[call]?.getD .done

def ended (success : Bool) (now : Int) (log : List Int) : Phase → List Int
  | .next => if success then log ++ [now] else log
  | _ => log

def State.step (minutes : Int) (m : Nat) (s : State) : Event → Option State
  | .step call success =>
    if s.phase call = .done then none
    else
      let (phase, key) := redisRateLimitHandler minutes m s.now success s.key (s.phase call)
      some { s with key, calls := s.calls.set call phase, succeeded := ended success s.now s.succeeded (s.phase call) }
  | .elapse ms => some { s with now := s.now + ms, key := s.key.at (s.now + ms) }

def Phase.idle (p : Phase) : Bool := p = .llen ∨ p = .done

def Phase.records : Phase → Bool
  | .lpush _ | .ltrim | .expire => true
  | _ => false

/-- A request begins when no other is on, and no time passes while one is recorded. -/
def State.alone (s : State) : Event → Bool
  | .step call _ => s.phase call ≠ .llen ∨ s.calls.all Phase.idle
  | .elapse _ => s.calls.all fun p => !Phase.records p

/-! ## The list -/

section

variable (minutes : Int) (m : Nat) (now : Int) (key : SuccessList) (log : List Int)

/-- The list has the successes of the last window, and lives as long as they count. -/
structure Covers : Prop where
  length : key.times.length ≤ m
  count : ∀ y > now - minutes * 60000, since y log ≤ since y key.times
  past : ∀ t ∈ log, t ≤ now
  expiry : ∀ e ∈ key.expiry, ∀ t ∈ log, t + minutes * 60000 ≤ e

/-- There is room for one more success. -/
def Room : Prop := ∀ y > now - minutes * 60000, since y log ≤ since y (key.times.take (m - 1))

/-- What holds before a step of a request when the others are idle. -/
def Local : Phase → Prop
  | .llen | .lindex | .refuse | .done => Covers minutes m now key log
  | .next => Covers minutes m now key log ∧ Room minutes m now key log
  | .lpush time => time = now ∧ ∃ before, log = before ++ [now] ∧ Covers minutes m now key before ∧ Room minutes m now key before
  | .ltrim => key.times ≠ [] ∧ (∀ t ∈ log, t ≤ now) ∧ ∀ y > now - minutes * 60000, since y log ≤ since y (key.times.take m)
  | .expire => key.times ≠ [] ∧ (∀ t ∈ log, t ≤ now) ∧ key.times.length ≤ m ∧
    ∀ y > now - minutes * 60000, since y log ≤ since y key.times

end

variable {m : Nat} {minutes now : Int} {key : SuccessList} {log : List Int} {s : State}

theorem expire_covers (hpos : 0 < minutes) (hfits : minutes * 60000000000 < 2 ^ 63) (hlength : key.times.length ≤ m)
    (hpast : ∀ t ∈ log, t ≤ now) (hcount : ∀ y > now - minutes * 60000, since y log ≤ since y key.times)
    (hempty : key.times = [] → Covers minutes m now key log) : Covers minutes m now (key.expire minutes now) log := by
  have hseconds : (wrap64 (minutes * 60000000000)).tdiv 1000000000 = minutes * 60 := by
    rw [wrap64_eq (by omega) hfits, Int.tdiv_eq_ediv_of_nonneg (by omega)]
    omega
  unfold SuccessList.expire
  rw [hseconds]
  split
  · rename_i hnil
    exact hempty hnil
  · have hlives : ¬ (some (now + minutes * 60 * 1000)).any (· ≤ now) = true := by
      simp
      omega
    rw [SuccessList.at, if_neg hlives]
    refine ⟨hlength, hcount, hpast, fun e he t ht => ?_⟩
    have := hpast t ht
    cases he
    omega

theorem Covers.elapse (h : Covers minutes m now key log) (ms : Nat) :
    Covers minutes m (now + ms) (key.at (now + ms)) log ∧
      (Room minutes m now key log → Room minutes m (now + ms) (key.at (now + ms)) log) := by
  have hpast : ∀ t ∈ log, t ≤ now + ms := fun t ht => Int.le_trans (h.past t ht) (by omega)
  unfold SuccessList.at
  split
  · rename_i hexpired
    obtain ⟨e, he, hle⟩ := Option.any_eq_true _ _ |>.mp hexpired
    have hnone : ∀ y > now + ms - minutes * 60000, since y log = 0 := fun y => since_old fun t ht => by
      have := h.expiry e he t ht
      have := of_decide_eq_true hle
      omega
    refine ⟨⟨Nat.zero_le _, fun y hy => ?_, hpast, by simp⟩, fun _ y hy => ?_⟩ <;> rw [hnone y hy] <;> exact Nat.zero_le _
  · exact ⟨⟨h.length, fun y hy => h.count y (by omega), hpast, h.expiry⟩, fun hroom y hy => hroom y (by omega)⟩

theorem room_of_length (h : Covers minutes m now key log) (hlt : key.times.length < m) : Room minutes m now key log := by
  intro y hy
  rw [List.take_of_length_le (by omega)]
  exact h.count y hy

theorem room_of_old {oldTime : Int} (h : Covers minutes m now key log)
    (hlast : key.times.getLast? = some oldTime) (hold : oldTime ≤ now - minutes * 60000) : Room minutes m now key log := by
  intro y hy
  refine Nat.le_trans (h.count y hy) ?_
  obtain ⟨front, hfront⟩ := List.getLast?_eq_some_iff.mp hlast
  have hlength := h.length
  rw [hfront, List.length_append, List.length_singleton] at hlength
  have hgone : since y [oldTime] = 0 := since_old (by simpa using hold) hy
  rw [hfront, List.take_append, List.take_of_length_le (by omega)]
  unfold since at *
  rw [List.countP_append, List.countP_append, hgone]
  omega

/-! ## Steps -/

variable (hm : 0 < m) (hpos : 0 < minutes) (hfits : minutes * 60000000000 < 2 ^ 63)

theorem late_enough (hpos : 0 < minutes) (hfits : minutes * 60000000000 < 2 ^ 63) {oldTime : Int}
    (h : ¬ (now - oldTime).tdiv 1000 < rateLimitDurationSeconds minutes) : oldTime ≤ now - minutes * 60000 := by
  unfold rateLimitDurationSeconds maxInt64 at h
  rw [if_neg (by omega), if_neg (by omega)] at h
  by_cases hneg : now - oldTime < 0
  · rw [← Int.neg_neg (now - oldTime), Int.neg_tdiv, Int.tdiv_eq_ediv_of_nonneg (by omega)] at h
    omega
  · rw [Int.tdiv_eq_ediv_of_nonneg (by omega)] at h
    omega

include hm hpos hfits in
/-- A step of a request. -/
theorem Local.step {p : Phase} (success : Bool) (h : Local minutes m now key log p) :
    Local minutes m now (redisRateLimitHandler minutes m now success key p).2 (ended success now log p)
      (redisRateLimitHandler minutes m now success key p).1 := by
  cases p with
  | llen =>
    simp only [redisRateLimitHandler]
    split
    · exact ⟨h, room_of_length h (by omega)⟩
    · exact h
  | lindex =>
    simp only [redisRateLimitHandler]
    split
    · exact h
    · rename_i oldTime hlast
      split
      · exact h
      · rename_i hlate
        exact ⟨h, room_of_old h hlast (late_enough hpos hfits hlate)⟩
  | refuse => exact expire_covers hpos hfits h.length h.past h.count fun _ => h
  | next =>
    cases success with
    | false => exact h.1
    | true =>
      simp only [redisRateLimitHandler, ended]
      rw [if_pos (And.intro trivial (by omega))]
      exact ⟨rfl, log, rfl, h⟩
  | lpush time =>
    obtain ⟨rfl, before, rfl, hcovers, hroom⟩ := h
    obtain ⟨k, rfl⟩ : ∃ k, m = k + 1 := ⟨m - 1, by omega⟩
    refine ⟨by simp [redisRateLimitHandler], ?_, fun y hy => ?_⟩
    · simpa [ended, or_imp, forall_and] using hcovers.past
    · have := hroom y hy
      simp only [ended, redisRateLimitHandler, List.take_succ_cons]
      unfold since at *
      rw [List.countP_append, List.countP_cons, List.countP_cons]
      simp at *
      omega
  | ltrim =>
    obtain ⟨hne, hpast, hcount⟩ := h
    exact ⟨by simp [redisRateLimitHandler, hne]; omega, hpast, List.length_take_le _ _, hcount⟩
  | expire => exact expire_covers hpos hfits h.2.2.1 h.2.1 h.2.2.2 fun hnil => absurd hnil h.1
  | done => exact h

theorem local_idle {p : Phase} (hp : Phase.idle p = true) : Local minutes m now key log p ↔ Covers minutes m now key log := by
  rcases of_decide_eq_true hp with rfl | rfl <;> exact Iff.rfl

structure Inv (minutes : Int) (m : Nat) (s : State) : Prop where
  atWork : ∃ i, (∀ j ≠ i, Phase.idle (s.phase j) = true) ∧ Local minutes m s.now s.key s.succeeded (s.phase i)
  bound : ∀ y, within y (minutes * 60000) s.succeeded ≤ m

theorem phase_of_mem {f : Phase → Bool} (h : s.calls.all f = true) (hdone : f .done = true) (i : Nat) :
    f (s.phase i) = true := by
  unfold State.phase
  cases hi : s.calls[i]? with
  | none => exact hdone
  | some p => exact List.all_eq_true.mp h p (List.mem_of_getElem? hi)

/-- The request that takes a step is the one at work. -/
theorem Inv.alone (h : Inv minutes m s) {call : Nat} {success : Bool} (hok : s.alone (.step call success) = true)
    (hdone : s.phase call ≠ .done) : (∀ j ≠ call, Phase.idle (s.phase j) = true) ∧
      Local minutes m s.now s.key s.succeeded (s.phase call) := by
  obtain ⟨i, hidle, hlocal⟩ := h.atWork
  by_cases hi : call = i
  · rw [hi]
    exact ⟨hidle, hlocal⟩
  · have hcall := hidle call hi
    have hllen := (of_decide_eq_true hcall).resolve_right hdone
    have hall := phase_of_mem ((of_decide_eq_true hok).resolve_left (not_not_intro hllen)) rfl
    exact ⟨fun j _ => hall j, (local_idle hcall).mpr ((local_idle (hall i)).mp hlocal)⟩

include hm hpos hfits in
theorem Inv.step (h : Inv minutes m s) {e : Event} {t : State} (hok : s.alone e = true)
    (hstep : s.step minutes m e = some t) : Inv minutes m t := by
  cases e with
  | step call success =>
    simp only [State.step] at hstep
    split at hstep
    · cases hstep
    rename_i hdone
    cases hstep
    obtain ⟨hidle, hlocal⟩ := h.alone hok hdone
    have hphase : ∀ j p, (s.calls.set call p)[j]?.getD .done = if j = call then p else s.phase j := by
      intro j p
      have hlt : call < s.calls.length := by
        by_contra hge
        exact hdone (by simp [State.phase, List.getElem?_eq_none (Nat.le_of_not_lt hge)])
      by_cases hj : j = call
      · subst hj
        simp [hlt]
      · rw [List.getElem?_set_ne (Ne.symm hj), if_neg hj]
        rfl
    refine ⟨⟨call, fun j hj => ?_, ?_⟩, fun y => ?_⟩
    · simp only [State.phase, hphase, if_neg hj]
      exact hidle j hj
    · simp only [State.phase, hphase, if_pos]
      exact hlocal.step hm hpos hfits success
    · cases hp : s.phase call with
      | next =>
        rw [hp] at hlocal
        cases success with
        | false => exact h.bound y
        | true =>
          refine within_snoc (h.bound y) fun hy => ?_
          have := Nat.le_trans (hlocal.2 y hy) (Nat.le_trans List.countP_le_length (List.length_take_le _ _))
          omega
      | _ => exact h.bound y
  | elapse ms =>
    cases hstep
    obtain ⟨i, hidle, hlocal⟩ := h.atWork
    refine ⟨⟨i, hidle, ?_⟩, h.bound⟩
    have hwaits : (!Phase.records (s.phase i)) = true := phase_of_mem (f := fun p => !Phase.records p) hok rfl i
    show Local minutes m (s.now + ms) (s.key.at (s.now + ms)) s.succeeded (s.phase i)
    generalize s.phase i = p at hlocal hwaits
    cases p with
    | llen | lindex | refuse | done => exact (Covers.elapse hlocal ms).1
    | next => exact ⟨(hlocal.1.elapse ms).1, (hlocal.1.elapse ms).2 hlocal.2⟩
    | lpush | ltrim | expire => cases hwaits

/-- The window is that of the settings, and times are in milliseconds. -/
theorem redis_success_bound (minutes : Int) (m : Nat) (hm : 0 < m) (hfits : minutes * 60000000000 < 2 ^ 63) (now : Int)
    (requests : Nat) (events : List Event) (t : State)
    (hrun : Steps (State.step minutes m) (fun s e => s.alone e) (.start now requests) events t) (y : Int) :
    within y (rateLimitDurationSeconds minutes * 1000) t.succeeded ≤ m := by
  unfold rateLimitDurationSeconds
  split
  · have hnone : within y (0 * 1000) t.succeeded = 0 := List.countP_eq_zero.mpr fun t _ => by simp
    rw [hnone]
    exact Nat.zero_le _
  rw [if_neg (by unfold maxInt64; omega), Int.mul_assoc]
  have hstart : Inv minutes m (.start now requests) := by
    have hidle := phase_of_mem (s := .start now requests) (f := Phase.idle) (by simp [State.start, Phase.idle]) rfl
    refine ⟨⟨0, fun j _ => hidle j, (local_idle (hidle 0)).mpr ?_⟩, fun y => by simp [State.start, within]⟩
    constructor <;> simp [State.start]
  exact (hrun.invariant (fun s e t hok h hstep => h.step hm (by omega) hfits hok hstep) hstart).bound y

theorem redis_success_bound_one : ∃ events t, Steps (State.step 1 1) (fun s e => s.alone e) (.start 0 2) events t ∧
    t.succeeded.length = 1 ∧ within 0 (rateLimitDurationSeconds 1 * 1000) t.succeeded ≤ 1 := by
  have hrun : (run (State.step 1 1) (fun s e => s.alone e) (.start 0 2)
      ([0, 0, 0, 0, 0, 1, 1, 1].map (Event.step · true))).any (fun t => t.succeeded.length = 1) = true := by
    decide +kernel
  obtain ⟨t, ht, h⟩ := exists_of_run hrun
  exact ⟨_, t, ht, of_decide_eq_true h, redis_success_bound 1 1 (by decide) (by decide) 0 2 _ t ht 0⟩

/-- Both requests are let in before the first is recorded. -/
theorem overlapping_requests_pass : ∃ events t, Steps (State.step 1 1) free (.start 0 2) events t ∧
    ¬ within 0 (rateLimitDurationSeconds 1 * 1000) t.succeeded ≤ 1 := by
  have hrun : (run (State.step 1 1) free (.start 0 2) ([0, 1, 0, 1].map (Event.step · true))).any (fun t =>
      ¬ within 0 (rateLimitDurationSeconds 1 * 1000) t.succeeded ≤ 1) = true := by
    decide +kernel
  obtain ⟨t, ht, h⟩ := exists_of_run hrun
  exact ⟨_, t, ht, of_decide_eq_true h⟩

end NewApi.Limits.RedisSuccess
