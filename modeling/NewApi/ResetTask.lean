import Mathlib.Algebra.Order.BigOperators.Group.List
import NewApi.Code.Subscription
import NewApi.Ledger
import NewApi.Lib.Run
import NewApi.Reset

/-!
# The background reset run

The loop ends because a counted row is not due any more.
-/

namespace NewApi.ResetTask

open GoTime Code Run Table Ledger

variable {loc : Location} {plan : SubscriptionPlan} {sub row : UserSubscription} {s : Store} {a : ResetAccess}
  {now horizon : Int}

/-! ## The schedule of a row -/

def boundary (loc : Location) (plan : SubscriptionPlan) (sub : UserSubscription) : Nat → Int
  | 0 => if sub.lastResetTime ≤ 0 then sub.startTime else sub.lastResetTime
  | n + 1 => calcNextResetTime loc (boundary loc plan sub n) plan sub.endTime

def Within (now t : Int) : Prop := 0 < t ∧ t ≤ now

instance (now t : Int) : Decidable (Within now t) := inferInstanceAs (Decidable (_ ∧ _))

def Ends (loc : Location) (plan : SubscriptionPlan) (now : Int) (sub : UserSubscription) : Prop :=
  plan.quotaResetPeriod ≠ .never → ∃ n, ¬ Within now (boundary loc plan sub (n + 1))

/-- A boundary has passed since the row's last reset, and none is due up to the horizon. -/
def Moves (loc : Location) (plan : SubscriptionPlan) (now horizon : Int) (sub : UserSubscription) : Prop :=
  plan.quotaResetPeriod ≠ .never ∧
    ∃ n, (∀ k ≤ n, Within now (boundary loc plan sub (k + 1))) ∧ ¬ Within horizon (boundary loc plan sub (n + 2))

variable {n fuel : Nat} {r : UserSubscription × Option SaveKind} {kind : Option SaveKind}
  {rest rows : List UserSubscription}

theorem catchUp_stops (hn : ¬ Within now (boundary loc plan sub (n + 1))) (fuel : Nat) (advanced : Bool) :
    catchUp loc plan sub.endTime now fuel (boundary loc plan sub n) (boundary loc plan sub (n + 1)) advanced =
      some (boundary loc plan sub n, boundary loc plan sub (n + 1), advanced) := by
  cases fuel with
  | zero | succ => exact if_neg hn

/-- Fuel beyond the last boundary changes nothing. -/
theorem catchUp_walks (hin : ∀ k < n, Within now (boundary loc plan sub (k + 1)))
    (hout : ¬ Within now (boundary loc plan sub (n + 1))) :
    ∀ fuel k, k ≤ n → n ≤ fuel + k → ∀ advanced, catchUp loc plan sub.endTime now fuel (boundary loc plan sub k)
      (boundary loc plan sub (k + 1)) advanced =
        some (boundary loc plan sub n, boundary loc plan sub (n + 1), advanced || decide (k < n)) := by
  intro fuel
  induction fuel with
  | zero =>
    intro k hkn hfuel advanced
    obtain rfl : k = n := by omega
    simp [catchUp_stops hout]
  | succ fuel ih =>
    intro k hkn hfuel advanced
    rcases Nat.eq_or_lt_of_le hkn with rfl | hlt
    · simp [catchUp_stops hout]
    have hpassed : 0 < boundary loc plan sub (k + 1) ∧ boundary loc plan sub (k + 1) ≤ now := hin k hlt
    have hrest := ih (k + 1) hlt (by omega) true
    rw [catchUp, if_pos hpassed]
    simpa [boundary, hlt] using hrest

theorem catchUp_walked : ∀ {k : Nat} {advanced : Bool} {r : Int × Int × Bool},
      catchUp loc plan sub.endTime now fuel (boundary loc plan sub k) (boundary loc plan sub (k + 1)) advanced = some r →
      ∃ n, k ≤ n ∧ n ≤ fuel + k ∧ (∀ i, k ≤ i → i < n → Within now (boundary loc plan sub (i + 1))) ∧
        ¬ Within now (boundary loc plan sub (n + 1)) := by
  induction fuel with
  | zero =>
    intro k advanced r h
    unfold catchUp at h
    split at h
    · cases h
    · rename_i hout
      exact ⟨k, le_rfl, by omega, fun i _ _ => by omega, hout⟩
  | succ fuel ih =>
    intro k advanced r h
    unfold catchUp at h
    split at h
    · rename_i hpassed
      obtain ⟨n, hkn, hfuel, hin, hout⟩ := ih (k := k + 1) h
      refine ⟨n, by omega, by omega, ?_, hout⟩
      intro i hi hlt
      rcases Nat.eq_or_lt_of_le hi with rfl | hlater
      · exact hpassed
      · exact hin i hlater hlt
    · rename_i hout
      exact ⟨k, le_rfl, by omega, fun i _ _ => by omega, hout⟩

/-! ## One row -/

theorem not_within_of_horizon {t : Int} (hle : now ≤ horizon) (h : ¬ Within horizon t) : ¬ Within now t :=
  fun hin => h ⟨hin.1, hin.2.trans hle⟩

theorem maybeReset_due (hdue : sub.resetDueAt now) (hper : plan.quotaResetPeriod ≠ .never)
    (hin : ∀ k < n, Within now (boundary loc plan sub (k + 1)))
    (hout : ¬ Within now (boundary loc plan sub (n + 1))) (hfuel : n ≤ fuel) :
    maybeReset fuel loc sub plan now = .ok (if 0 < n then
      (afterReset sub (some .reset) (boundary loc plan sub n) (boundary loc plan sub (n + 1)), some .reset)
      else (sub, none)) := by
  have hwalk := catchUp_walks hin hout fuel 0 (Nat.zero_le n) (by omega) false
  have hnot : ¬ (0 < sub.nextResetTime ∧ now < sub.nextResetTime) := by
    unfold UserSubscription.resetDueAt at hdue
    omega
  have hset : sub.nextResetTime ≠ 0 := by
    unfold UserSubscription.resetDueAt at hdue
    omega
  unfold maybeReset
  rw [if_neg hnot, if_neg hper]
  simp only [boundary] at hwalk
  simp only [hwalk, Bool.false_or, decide_eq_true_eq, hset, false_and, if_false, afterReset, if_true]
  split <;> rfl

theorem maybeReset_never (fuel : Nat) (hper : plan.quotaResetPeriod = .never) :
    maybeReset fuel loc sub plan now = .ok (sub, none) := by
  simp [maybeReset, hper]

section

variable (hdue : sub.resetDueAt now)
include hdue

theorem stops_of_maybeReset (hper : plan.quotaResetPeriod ≠ .never) (h : maybeReset fuel loc sub plan now = .ok r) :
    ∃ n ≤ fuel, (∀ k < n, Within now (boundary loc plan sub (k + 1))) ∧
      ¬ Within now (boundary loc plan sub (n + 1)) := by
  have hnot : ¬ (0 < sub.nextResetTime ∧ now < sub.nextResetTime) := by
    unfold UserSubscription.resetDueAt at hdue
    omega
  unfold maybeReset at h
  rw [if_neg hnot, if_neg hper] at h
  dsimp only at h
  split at h
  · cases h
  · rename_i hcatch
    obtain ⟨n, -, hfuel, hin, hout⟩ := catchUp_walked (k := 0) hcatch
    exact ⟨n, hfuel, fun k => hin k (Nat.zero_le k), hout⟩

theorem moves_of_maybeReset (hle : now ≤ horizon) (h : maybeReset fuel loc sub plan now = .ok (row, kind))
    (hrow : ¬ row.resetDueAt horizon) : Moves loc plan now horizon sub := by
  have hsame : row ≠ sub := by
    rintro rfl
    exact hrow ⟨hdue.1, hdue.2.trans hle⟩
  by_cases hper : plan.quotaResetPeriod = .never
  · rw [maybeReset_never fuel hper] at h
    cases h
    exact absurd rfl hsame
  obtain ⟨n, hfuel, hin, hout⟩ := stops_of_maybeReset hdue hper h
  rw [maybeReset_due hdue hper hin hout hfuel] at h
  split at h
  · cases h
    refine ⟨hper, n - 1, fun k hk => hin k (by omega), ?_⟩
    rw [show n - 1 + 2 = n + 1 by omega]
    exact hrow
  · cases h
    exact absurd rfl hsame

theorem maybeReset_of_moves (hle : now ≤ horizon) (h : Moves loc plan now horizon sub) :
    ∃ n row, ¬ row.resetDueAt horizon ∧ row.id = sub.id ∧
      ∀ fuel ≥ n, maybeReset fuel loc sub plan now = .ok (row, some .reset) := by
  obtain ⟨hper, n, hin, hout⟩ := h
  have hstop := not_within_of_horizon hle hout
  refine ⟨n + 1, afterReset sub (some .reset) (boundary loc plan sub (n + 1)) (boundary loc plan sub (n + 2)), hout,
    rfl, ?_⟩
  intro fuel hfuel
  rw [maybeReset_due hdue hper (fun k hk => hin k (by omega)) hstop hfuel, if_pos (Nat.succ_pos n)]

theorem maybeReset_of_ends (h : Ends loc plan now sub) :
    ∃ n, ∀ fuel ≥ n, ∃ r, maybeReset fuel loc sub plan now = .ok r := by
  by_cases hper : plan.quotaResetPeriod = .never
  · exact ⟨0, fun fuel _ => ⟨_, maybeReset_never fuel hper⟩⟩
  -- The loop stops at the first boundary that has not passed.
  have hstop := h hper
  refine ⟨Nat.find hstop, fun fuel hfuel => ⟨_, maybeReset_due hdue hper ?_ (Nat.find_spec hstop) hfuel⟩⟩
  intro k hk
  exact not_not.mp (Nat.find_min hstop hk)

theorem ends_of_maybeReset (h : maybeReset fuel loc sub plan now = .ok r) : Ends loc plan now sub := by
  intro hper
  obtain ⟨n, -, -, hout⟩ := stops_of_maybeReset hdue hper h
  exact ⟨n, hout⟩

theorem maybeReset_mono {fuel' : Nat} (h : maybeReset fuel loc sub plan now = .ok r) (hle : fuel ≤ fuel') :
    maybeReset fuel' loc sub plan now = .ok r := by
  by_cases hper : plan.quotaResetPeriod = .never
  · rw [maybeReset_never fuel hper] at h
    rw [maybeReset_never fuel' hper, h]
  · obtain ⟨n, hfuel, hin, hout⟩ := stops_of_maybeReset hdue hper h
    rw [maybeReset_due hdue hper hin hout hfuel] at h
    rw [maybeReset_due hdue hper hin hout (hfuel.trans hle), h]

theorem cleared_of_moves (hle : now ≤ horizon) (hm : Moves loc plan now horizon sub)
    (h : maybeReset fuel loc sub plan now = .ok (row, kind)) : ¬ row.resetDueAt horizon := by
  obtain ⟨n, _, hclear, -, hreset⟩ := maybeReset_of_moves hdue hle hm
  have hmono := maybeReset_mono hdue h (le_max_left fuel n)
  rw [hreset _ (le_max_right fuel n)] at hmono
  cases hmono
  exact hclear

end

theorem maybeReset_error {e : Error} (h : maybeReset fuel loc sub plan now = .error e) : e = .unfinished := by
  unfold maybeReset at h
  split at h
  · cases h
  split at h
  · cases h
  dsimp only at h
  split at h
  · cases h
    rfl
  · split at h
    · cases h
    · split at h <;> cases h

theorem maybeReset_id (h : maybeReset fuel loc sub plan now = .ok (row, kind)) : row.id = sub.id := by
  obtain ⟨_, _, rfl, -⟩ := maybeReset_spec h
  rfl

/-! ## The rows of a batch -/

structure Listed (s : Store) (now : Int) (rows : List UserSubscription) : Prop where
  nodup : (rows.map UserSubscription.id).Nodup
  here : ∀ sub ∈ rows, s.sub sub.id = some sub
  due : ∀ sub ∈ rows, sub.resetDueAt now

theorem sub_commit_saveOf_ne {id : Int} (h : row.id ≠ id) : (s.commit (saveOf row kind)).sub id = s.sub id := by
  cases kind with
  | none => rfl
  | some => exact lookup_save_ne h

theorem sub_commit_saveOf (hsub : s.sub sub.id = some sub) (h : maybeReset fuel loc sub plan now = .ok (row, kind)) :
    (s.commit (saveOf row kind)).sub sub.id = some row := by
  have hid := maybeReset_id h
  obtain ⟨_, _, -, ⟨rfl, rfl⟩ | rfl | rfl⟩ := maybeReset_spec h
  · exact hsub
  · rw [← hid] at hsub ⊢
    exact lookup_save_self hsub
  · rw [← hid] at hsub ⊢
    exact lookup_save_self hsub

theorem Listed.tail (h : Listed s now (sub :: rest)) : Listed s now rest where
  nodup := (List.nodup_cons.mp h.nodup).2
  here x hx := h.here x (List.mem_cons_of_mem _ hx)
  due x hx := h.due x (List.mem_cons_of_mem _ hx)

theorem Listed.ne_head (h : Listed s now (sub :: rest)) {x : UserSubscription} (hx : x ∈ rest) : sub.id ≠ x.id := by
  intro he
  exact (List.nodup_cons.mp h.nodup).1 (he ▸ List.mem_map_of_mem hx)

theorem Listed.saved (h : Listed s now (sub :: rest))
    (hid : row.id = sub.id) : Listed (s.commit (saveOf row kind)) now rest where
  nodup := h.tail.nodup
  here x hx := (sub_commit_saveOf_ne (hid ▸ h.ne_head hx)).trans (h.tail.here x hx)
  due := h.tail.due

def RowsMove (loc : Location) (horizon : Int) (plans : List SubscriptionPlan) (a : ResetAccess) :
    List UserSubscription → Prop
  | [] => True
  | sub :: rest =>
    match getSubscriptionPlanById plans sub.planId, a.rowFails sub.id with
    | .error _, _ => RowsMove loc horizon plans a rest
    | .ok _, some .lock => RowsMove loc horizon plans a rest
    | .ok plan, some .save => Ends loc plan a.now sub
    | .ok plan, none => Moves loc plan a.now horizon sub ∧ RowsMove loc horizon plans a rest

structure Cleared (horizon : Int) (batch : ResetBatch) : Prop where
  returned : batch.error ≠ some .unfinished
  clear : ∀ id ∈ batch.counted, ∀ row, batch.store.sub id = some row → ¬ row.resetDueAt horizon

theorem resetRows_locked (hplan : getSubscriptionPlanById s.plans sub.planId = .ok plan)
    (hlock : a.rowFails sub.id ≠ some .lock) (hsub : s.sub sub.id = some sub) (hdue : sub.resetDueAt a.now) :
    resetRows loc a (sub :: rest) s =
      match maybeReset a.fuel loc sub plan a.now with
      | .error e => ⟨[], some e, s⟩
      | .ok (row, kind) =>
        if a.rowFails sub.id = some .save then ⟨[], some .database, s⟩
        else
          let batch := resetRows loc a rest (s.commit (saveOf row kind))
          { batch with counted := sub.id :: batch.counted } := by
  have hrow : resetDueSubscription a.fuel loc s plan sub.id a.now =
      (maybeReset a.fuel loc sub plan a.now).map fun r => saveOf r.1 r.2 := by
    have hdue' : 0 < sub.nextResetTime ∧ sub.nextResetTime ≤ a.now := hdue
    unfold resetDueSubscription
    simp only [hsub, if_pos hdue']
    cases maybeReset a.fuel loc sub plan a.now <;> rfl
  rw [resetRows]
  simp only [hplan, if_neg hlock, hrow, hsub, Option.any_some, hdue, decide_true, if_true]
  cases maybeReset a.fuel loc sub plan a.now <;> rfl

theorem resetRows_keeps {P : Store → Prop} (hs : P s)
    (keep : ∀ t, ∀ x ∈ rows, ∀ row kind, row.id = x.id → P t → P (t.commit (saveOf row kind))) :
    P (resetRows loc a rows s).store := by
  induction rows generalizing s with
  | nil => exact hs
  | cons sub rest ih =>
    have hrest := fun t x hx => keep t x (List.mem_cons_of_mem _ hx)
    unfold resetRows
    split
    · exact ih hs hrest
    split
    · exact ih hs hrest
    split
    · exact hs
    rename_i writes hwrites
    have hwritten : P (s.commit writes) := by
      rcases resetDueSubscription_spec hwrites with rfl | ⟨_, row, kind, hsub, hreset, rfl⟩
      · exact hs
      · exact keep s sub List.mem_cons_self row kind ((maybeReset_id hreset).trans (id_of_sub hsub)) hs
    split
    · exact hs
    · split <;> exact ih hwritten hrest

theorem resetRows_frame {id : Int} (h : id ∉ rows.map UserSubscription.id) :
    (resetRows loc a rows s).store.sub id = s.sub id := by
  apply resetRows_keeps (P := fun t => t.sub id = s.sub id) rfl
  intro t x hx row kind hid ht
  have hne : row.id ≠ id := by
    rintro rfl
    exact h (hid ▸ List.mem_map_of_mem hx)
  exact (sub_commit_saveOf_ne hne).trans ht

theorem keys_commit_saveOf (row : UserSubscription) (kind : Option SaveKind) :
    (s.commit (saveOf row kind)).subs.map UserSubscription.id = s.subs.map UserSubscription.id := by
  cases kind with
  | none => rfl
  | some => exact keys_save s.subs row

theorem keys_resetRows (rows : List UserSubscription) :
    (resetRows loc a rows s).store.subs.map UserSubscription.id = s.subs.map UserSubscription.id := by
  apply resetRows_keeps (P := fun t => t.subs.map UserSubscription.id = s.subs.map UserSubscription.id) rfl
  intro t x hx row kind hid ht
  exact (keys_commit_saveOf row kind).trans ht

theorem rows_clear (hrows : Listed s a.now rows) (hle : a.now ≤ horizon) (h : RowsMove loc horizon s.plans a rows) :
    ∃ n, ∀ fuel ≥ n, Cleared horizon (resetRows loc { a with fuel := fuel } rows s) := by
  induction rows generalizing s with
  | nil => exact ⟨0, fun fuel _ => ⟨by simp [resetRows], by simp [resetRows]⟩⟩
  | cons sub rest ih =>
    have hsub := hrows.here sub List.mem_cons_self
    have hdue := hrows.due sub List.mem_cons_self
    unfold RowsMove at h
    split at h
    · rename_i hplan
      obtain ⟨n, hn⟩ := ih hrows.tail h
      refine ⟨n, fun fuel hfuel => ?_⟩
      simp only [resetRows, hplan]
      exact hn fuel hfuel
    · rename_i hplan hlock
      obtain ⟨n, hn⟩ := ih hrows.tail h
      refine ⟨n, fun fuel hfuel => ?_⟩
      simp only [resetRows, hplan, hlock, if_true]
      exact hn fuel hfuel
    · rename_i plan hplan hsave
      obtain ⟨n, hn⟩ := maybeReset_of_ends hdue h
      refine ⟨n, fun fuel hfuel => ?_⟩
      obtain ⟨r, hr⟩ := hn fuel hfuel
      rw [resetRows_locked (a := { a with fuel := fuel }) hplan (by simp [hsave]) hsub hdue]
      simp only [hr, hsave, if_true]
      exact ⟨by simp, by simp⟩
    · rename_i plan hplan hnone
      obtain ⟨n, row, hclear, hid, hreset⟩ := maybeReset_of_moves hdue hle h.1
      obtain ⟨m, hm⟩ := ih (s := s.commit (saveOf row (some .reset))) (hrows.saved hid) (by rw [commit_plans]; exact h.2)
      refine ⟨max n m, fun fuel hfuel => ?_⟩
      have hr := hreset fuel (le_of_max_le_left hfuel)
      have htail := hm fuel (le_of_max_le_right hfuel)
      rw [resetRows_locked (a := { a with fuel := fuel }) hplan (by simp [hnone]) hsub hdue]
      simp only [hr, hnone, reduceCtorEq, if_false]
      refine ⟨htail.returned, ?_⟩
      intro id hmem x hx
      rcases List.mem_cons.mp hmem with rfl | hmem
      · -- No later row has this key, so the row is as it was saved.
        rw [resetRows_frame (List.nodup_cons.mp hrows.nodup).1, sub_commit_saveOf hsub hr] at hx
        cases hx
        exact hclear
      · exact htail.clear id hmem x hx

theorem rowsMove_of_cleared (hrows : Listed s a.now rows) (hle : a.now ≤ horizon)
    (h : Cleared horizon (resetRows loc a rows s)) : RowsMove loc horizon s.plans a rows := by
  induction rows generalizing s with
  | nil => trivial
  | cons sub rest ih =>
    have hsub := hrows.here sub List.mem_cons_self
    have hdue := hrows.due sub List.mem_cons_self
    unfold RowsMove
    split
    · rename_i hplan
      simp only [resetRows, hplan] at h
      exact ih hrows.tail h
    · rename_i hplan hlock
      simp only [resetRows, hplan, hlock, if_true] at h
      exact ih hrows.tail h
    · rename_i plan hplan hsave
      rw [resetRows_locked hplan (by simp [hsave]) hsub hdue] at h
      split at h
      · rename_i e he
        exact absurd (congrArg some (maybeReset_error he)) h.returned
      · rename_i hr
        exact ends_of_maybeReset hdue hr
    · rename_i plan hplan hnone
      rw [resetRows_locked hplan (by simp [hnone]) hsub hdue] at h
      split at h
      · rename_i e he
        exact absurd (congrArg some (maybeReset_error he)) h.returned
      rename_i row kind hr
      simp only [hnone, reduceCtorEq, if_false] at h
      have hkeep : (resetRows loc a rest (s.commit (saveOf row kind))).store.sub sub.id = some row := by
        rw [resetRows_frame (List.nodup_cons.mp hrows.nodup).1, sub_commit_saveOf hsub hr]
      refine ⟨moves_of_maybeReset hdue hle hr (h.clear sub.id List.mem_cons_self row hkeep), ?_⟩
      have htail := ih (hrows.saved (maybeReset_id hr))
        ⟨h.returned, fun id hmem => h.clear id (List.mem_cons_of_mem _ hmem)⟩
      rwa [commit_plans] at htail

/-! ## The run -/

def dueBy (horizon : Int) (s : Store) : Int :=
  (s.subs.map fun sub => if sub.resetDueAt horizon then (1 : Int) else 0).sum

theorem dueBy_nonneg (horizon : Int) (s : Store) : 0 ≤ dueBy horizon s := by
  apply List.sum_nonneg
  intro n hn
  obtain ⟨_, -, rfl⟩ := List.mem_map.mp hn
  split <;> decide

section

variable (hkeys : (s.subs.map UserSubscription.id).Nodup)
include hkeys

theorem dueBy_saved (hsub : s.sub sub.id = some sub) (hdue : sub.resetDueAt horizon)
    (hr : maybeReset fuel loc sub plan now = .ok (row, kind)) (hclear : ¬ row.resetDueAt horizon) :
    dueBy horizon (s.commit (saveOf row kind)) + 1 = dueBy horizon s := by
  cases kind with
  | none =>
    obtain ⟨_, _, -, ⟨-, rfl⟩ | hk | hk⟩ := maybeReset_spec hr
    · exact absurd hdue hclear
    · cases hk
    · cases hk
  | some =>
    rw [← maybeReset_id hr] at hsub
    have hsum := sum_save (fun sub => if sub.resetDueAt horizon then (1 : Int) else 0) hkeys hsub
    rw [if_pos hdue, if_neg hclear] at hsum
    show ((save UserSubscription.id s.subs row).map _).sum + 1 = _
    rw [hsum, dueBy]
    omega

theorem rows_count (hrows : Listed s a.now rows) (hle : a.now ≤ horizon) (hmove : RowsMove loc horizon s.plans a rows) :
    dueBy horizon (resetRows loc a rows s).store + (resetRows loc a rows s).counted.length ≤ dueBy horizon s := by
  induction rows generalizing s with
  | nil => simp [resetRows]
  | cons sub rest ih =>
    have hsub := hrows.here sub List.mem_cons_self
    have hdue := hrows.due sub List.mem_cons_self
    unfold RowsMove at hmove
    split at hmove
    · rename_i hplan
      simp only [resetRows, hplan]
      exact ih hkeys hrows.tail hmove
    · rename_i hplan hlock
      simp only [resetRows, hplan, hlock, if_true]
      exact ih hkeys hrows.tail hmove
    · rename_i plan hplan hsave
      rw [resetRows_locked hplan (by simp [hsave]) hsub hdue]
      split <;> simp [hsave]
    rename_i plan hplan hnone
    rw [resetRows_locked hplan (by simp [hnone]) hsub hdue]
    split
    · simp
    rename_i row kind hr
    have hclear := cleared_of_moves hdue hle hmove.1 hr
    have hone := dueBy_saved hkeys hsub ⟨hdue.1, hdue.2.trans hle⟩ hr hclear
    have hrest := ih (s := s.commit (saveOf row kind)) (by rwa [keys_commit_saveOf])
      (hrows.saved (maybeReset_id hr)) (by rw [commit_plans]; exact hmove.2)
    simp only [hnone, reduceCtorEq, if_false, List.length_cons, Nat.cast_succ]
    omega

theorem listed_dueForReset (now limit : Int) : Listed s now (s.dueForReset now limit) := by
  have hmem : ∀ sub ∈ s.dueForReset now limit, sub ∈ s.subs ∧ sub.resetDueAt now := by
    intro sub hsub
    have hsorted := List.mem_of_mem_take hsub
    rw [List.mem_insertionSort, List.mem_filter, decide_eq_true_eq] at hsorted
    exact ⟨hsorted.1, hsorted.2.1⟩
  refine ⟨?_, fun sub hsub => lookup_of_mem hkeys (hmem sub hsub).1, fun sub hsub => (hmem sub hsub).2⟩
  refine List.Nodup.sublist ((List.take_sublist _ _).map UserSubscription.id) ?_
  rw [((List.perm_insertionSort ResetsBefore _).map UserSubscription.id).nodup_iff]
  exact hkeys.sublist (List.filter_sublist.map UserSubscription.id)

end

def Moving (loc : Location) (horizon : Int) (s : Store) (a : ResetAccess) : Prop :=
  a.queryFails = false → RowsMove loc horizon s.plans a (s.dueForReset a.now subscriptionResetBatchSize)

def Clears (loc : Location) (horizon : Int) (s : Store) (a : ResetAccess) : Prop :=
  ∃ fuel, Cleared horizon (resetDueSubscriptions loc s { a with fuel := fuel } subscriptionResetBatchSize)

theorem rowsMove_fuel {plans : List SubscriptionPlan} :
    RowsMove loc horizon plans { a with fuel := fuel } rows ↔ RowsMove loc horizon plans a rows := by
  induction rows with
  | nil => exact Iff.rfl
  | cons sub rest ih =>
    unfold RowsMove
    dsimp only
    split
    · exact ih
    · exact ih
    · exact Iff.rfl
    · exact and_congr_right fun _ => ih

theorem batch_of_query (h : a.queryFails = false) : resetDueSubscriptions loc s a subscriptionResetBatchSize =
    resetRows loc a (s.dueForReset a.now subscriptionResetBatchSize) s := by
  unfold resetDueSubscriptions
  rw [h]
  rfl

theorem batch_of_failure (h : a.queryFails = true) :
    resetDueSubscriptions loc s a subscriptionResetBatchSize = ⟨[], some .database, s⟩ := by
  unfold resetDueSubscriptions
  rw [h]
  rfl

theorem clears_iff_moving (hkeys : (s.subs.map UserSubscription.id).Nodup) (hle : a.now ≤ horizon) :
    Clears loc horizon s a ↔ Moving loc horizon s a := by
  have hrows := listed_dueForReset hkeys a.now subscriptionResetBatchSize
  constructor
  · rintro ⟨fuel, h⟩ hquery
    rw [batch_of_query (a := { a with fuel := fuel }) hquery] at h
    exact rowsMove_fuel.mp (rowsMove_of_cleared (a := { a with fuel := fuel }) hrows hle h)
  intro h
  by_cases hquery : a.queryFails = false
  · obtain ⟨n, hn⟩ := rows_clear hrows hle (h hquery)
    refine ⟨n, ?_⟩
    rw [batch_of_query (a := { a with fuel := n }) hquery]
    exact hn n le_rfl
  · refine ⟨0, ?_⟩
    rw [batch_of_failure (a := { a with fuel := 0 }) (Bool.eq_true_of_not_eq_false hquery)]
    exact ⟨by simp, by simp⟩

theorem batch_count (hkeys : (s.subs.map UserSubscription.id).Nodup) (hle : a.now ≤ horizon)
    (h : Moving loc horizon s a) {batch : ResetBatch}
    (hbatch : resetDueSubscriptions loc s a subscriptionResetBatchSize = batch) :
    (batch.store.subs.map UserSubscription.id).Nodup ∧
      dueBy horizon batch.store + batch.counted.length ≤ dueBy horizon s := by
  subst hbatch
  by_cases hquery : a.queryFails = false
  · rw [batch_of_query hquery, keys_resetRows]
    exact ⟨hkeys, rows_count hkeys (listed_dueForReset hkeys ..) hle (h hquery)⟩
  · rw [batch_of_failure (Bool.eq_true_of_not_eq_false hquery)]
    exact ⟨hkeys, by simp⟩

theorem turn_spec {r t : ResetRun} (h : r.turn loc a = some t) : r.running = true ∧ ∃ batch,
    resetDueSubscriptions loc r.store a subscriptionResetBatchSize = batch ∧ t.store = batch.store ∧
      (t.running = true → subscriptionResetBatchSize ≤ batch.counted.length) := by
  unfold ResetRun.turn at h
  split at h
  · rename_i hrunning
    refine ⟨hrunning, _, rfl, ?_⟩
    dsimp only at h
    split at h
    · cases h
    · cases h
      exact ⟨rfl, fun h => by cases h⟩
    · cases h
      refine ⟨rfl, fun h => ?_⟩
      exact not_lt.mp (of_decide_eq_true h).2
  · cases h

theorem turns_bounded {r t : ResetRun} {es : List ResetAccess}
    (h : Steps (ResetRun.turn loc) (fun r a => a.now ≤ horizon ∧ Moving loc horizon r.store a) r es t)
    (hkeys : (r.store.subs.map UserSubscription.id).Nodup) :
    subscriptionResetBatchSize * es.length ≤ dueBy horizon r.store + subscriptionResetBatchSize := by
  induction h with
  | done r =>
    have := dueBy_nonneg horizon r.store
    simp only [List.length_nil, subscriptionResetBatchSize]
    omega
  | @more r t u a es hok hstep rest ih =>
    obtain ⟨-, batch, hbatch, hstore, hfull⟩ := turn_spec hstep
    obtain ⟨hnext, hcount⟩ := batch_count hkeys hok.1 hok.2 hbatch
    rw [hstore] at ih
    have hrest := ih hnext
    have hpos := dueBy_nonneg horizon batch.store
    simp only [List.length_cons, Nat.cast_succ, subscriptionResetBatchSize] at hrest hfull ⊢
    cases rest with
    | done =>
      simp only [List.length_nil]
      omega
    | more hok' hstep' =>
      -- Another turn follows, so the loop is still running and this batch was full.
      have := hfull (turn_spec hstep').1
      omega

/-- The clocks of the turns are at most `horizon`. -/
theorem reset_run_clears_iff (loc : Location) (horizon : Int) :
    (∀ (s : Store) (a : ResetAccess), (s.subs.map UserSubscription.id).Nodup → a.now ≤ horizon →
      (Clears loc horizon s a ↔ Moving loc horizon s a)) ∧
    ∀ (r t : ResetRun) (es : List ResetAccess), (r.store.subs.map UserSubscription.id).Nodup →
      Steps (ResetRun.turn loc) (fun r a => a.now ≤ horizon ∧ Moving loc horizon r.store a) r es t →
        subscriptionResetBatchSize * es.length ≤ dueBy horizon r.store + subscriptionResetBatchSize :=
  ⟨fun _ _ hkeys hle => clears_iff_moving hkeys hle, fun _ _ _ hkeys h => turns_bounded h hkeys⟩

open NewApi.Reset (samplePlan sampleSub)

def dailyPlan : SubscriptionPlan := { samplePlan .daily 0 with id := 1 }

def dailySub (id : Int) : UserSubscription := { sampleSub 1700000000 with id := id, nextResetTime := 1700006400 }

def dailyStore : Store where
  plans := [dailyPlan]
  subs := [dailySub 1]
  nextSubId := 2
  records := []
  users := []

def quiet : ResetAccess := ⟨1, 1700010000, false, fun _ => none⟩

theorem moving_daily : Moving (.fixed 0) 1700010000 dailyStore quiet := by
  intro _
  have hfirst : boundary (.fixed 0) dailyPlan (dailySub 1) 1 = 1700006400 := by decide
  have hsecond : boundary (.fixed 0) dailyPlan (dailySub 1) 2 = 1700092800 := by
    rw [boundary, hfirst]
    decide
  refine ⟨⟨by decide, 0, ?_, ?_⟩, trivial⟩
  · intro k hk
    obtain rfl : k = 0 := by omega
    show Within _ (boundary (.fixed 0) dailyPlan (dailySub 1) 1)
    rw [hfirst]
    decide
  · show ¬ Within _ (boundary (.fixed 0) dailyPlan (dailySub 1) 2)
    rw [hsecond]
    decide

theorem reset_run_daily :
    Clears (.fixed 0) 1700010000 dailyStore quiet ∧
      subscriptionResetBatchSize * 1 ≤ dueBy 1700010000 dailyStore + subscriptionResetBatchSize := by
  have hall := reset_run_clears_iff (.fixed 0) 1700010000
  refine ⟨(hall.1 dailyStore quiet (by decide) (by decide)).mpr moving_daily, ?_⟩
  exact hall.2 ⟨dailyStore, true⟩ _ [quiet] (by decide) (.more ⟨by decide, moving_daily⟩ rfl (.done _))

theorem resetRows_never (hper : plan.quotaResetPeriod = .never)
    (hplan : ∀ sub ∈ rows, getSubscriptionPlanById s.plans sub.planId = .ok plan)
    (hfails : ∀ id, a.rowFails id = none) (hrows : Listed s a.now rows) :
    resetRows loc a rows s = ⟨rows.map UserSubscription.id, none, s⟩ := by
  induction rows with
  | nil => rfl
  | cons sub rest ih =>
    have hsub := hrows.here sub List.mem_cons_self
    have hdue := hrows.due sub List.mem_cons_self
    have hrest := ih (fun x hx => hplan x (List.mem_cons_of_mem _ hx)) hrows.tail
    rw [resetRows_locked (hplan sub List.mem_cons_self) (by simp [hfails]) hsub hdue]
    simp only [maybeReset_never a.fuel hper, hfails, reduceCtorEq, if_false]
    rw [show s.commit (saveOf sub none) = s from rfl, hrest, List.map_cons]

def editedPlan : SubscriptionPlan := { dailyPlan with quotaResetPeriod := .never }

/-- The plan was edited to have no resets. -/
def editedStore : Store where
  plans := [editedPlan]
  subs := (List.range 300).map fun i : Nat => dailySub i
  nextSubId := 300
  records := []
  users := []

theorem keys_editedStore : (editedStore.subs.map UserSubscription.id).Nodup := by
  rw [editedStore, List.map_map]
  apply List.Nodup.map
  · intro i j h
    exact Int.ofNat.inj h
  · exact List.nodup_range

theorem mem_editedStore (h : sub ∈ editedStore.subs) : ∃ id, sub = dailySub id := by
  obtain ⟨i, -, rfl⟩ := List.mem_map.mp h
  exact ⟨i, rfl⟩

theorem batch_editedStore : resetDueSubscriptions loc editedStore quiet subscriptionResetBatchSize =
    ⟨(editedStore.dueForReset quiet.now subscriptionResetBatchSize).map UserSubscription.id, none, editedStore⟩ := by
  rw [batch_of_query rfl]
  refine resetRows_never (show editedPlan.quotaResetPeriod = .never from rfl) ?_ ?_ ?_
  · intro sub hsub
    have hmem := List.mem_of_mem_take hsub
    rw [List.mem_insertionSort] at hmem
    obtain ⟨_, rfl⟩ := mem_editedStore (List.mem_of_mem_filter hmem)
    rfl
  · exact fun _ => rfl
  · exact listed_dueForReset keys_editedStore ..

theorem length_editedStore : (editedStore.dueForReset quiet.now subscriptionResetBatchSize).length = 300 := by
  have hall : (editedStore.subs.filter fun sub => sub.resetDueAt quiet.now ∧ sub.status = .active) =
      editedStore.subs := by
    rw [List.filter_eq_self]
    intro sub hsub
    obtain ⟨_, rfl⟩ := mem_editedStore hsub
    rfl
  have hlength : editedStore.subs.length = 300 := by rw [editedStore, List.length_map, List.length_range]
  rw [Store.dueForReset, hall, List.length_take, List.length_insertionSort, hlength]
  rfl

theorem turn_editedStore : ResetRun.turn loc ⟨editedStore, true⟩ quiet = some ⟨editedStore, true⟩ := by
  unfold ResetRun.turn
  simp only [batch_editedStore, List.length_map, length_editedStore, if_true]
  simp [subscriptionResetBatchSize]

/-- Every batch counts 300 rows as reset and changes none. -/
theorem reset_run_never_ends :
    (∀ sub ∈ editedStore.subs, sub.nextResetTime =
      calcNextResetTime (.fixed 0) sub.startTime dailyPlan sub.endTime) ∧
    (∃ ids, ids.length = 300 ∧
      resetDueSubscriptions (.fixed 0) editedStore quiet subscriptionResetBatchSize = ⟨ids, none, editedStore⟩) ∧
    ∀ n, Steps (ResetRun.turn (.fixed 0)) free ⟨editedStore, true⟩ (List.replicate n quiet) ⟨editedStore, true⟩ := by
  refine ⟨?_, ⟨_, ?_, batch_editedStore⟩, ?_⟩
  · intro sub hsub
    obtain ⟨_, rfl⟩ := mem_editedStore hsub
    show 1700006400 = calcNextResetTime (.fixed 0) 1700000000 dailyPlan 1800000000
    decide
  · rw [List.length_map, length_editedStore]
  intro n
  induction n with
  | zero => exact .done _
  | succ n ih => exact .more trivial turn_editedStore ih

end NewApi.ResetTask

