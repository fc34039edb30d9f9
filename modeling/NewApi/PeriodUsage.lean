import NewApi.Budget
import NewApi.Lib.Schedule

/-!
# Usage by period

What a row says after a look depends on the time of the look and on the amounts accepted in the period of that time.
-/

namespace NewApi.PeriodUsage

open GoTime Table Code Ledger Run Reset Budget Schedule

variable {fuel : Nat} {loc : Location} {s : Store} {sub row chosen : UserSubscription} {plan : SubscriptionPlan}
  {plans : List SubscriptionPlan} {writes : List Write} {userId amount now id touched : Int}

/-! ## The schedule as a function of the time -/

def nextReset (loc : Location) (plan : SubscriptionPlan) (endUnix : Int) : Int → Int :=
  fun base => calcNextResetTime loc base plan endUnix

theorem rises_nextReset (hp : Progresses loc plan) (endUnix : Int) : Rises (nextReset loc plan endUnix) := by
  intro base
  rcases hp base endUnix with hz | hlt
  · exact .inl (le_of_eq hz)
  · exact .inr hlt

/-- Counted from the purchase. -/
def lastReset (loc : Location) (plan : SubscriptionPlan) (sub : UserSubscription) (now : Int) : Int :=
  lastBoundary (nextReset loc plan sub.endTime) now (now - sub.startTime).toNat sub.startTime

/-- A subscription that ends before its first boundary has neither time. -/
def schedule (loc : Location) (plan : SubscriptionPlan) (sub : UserSubscription) (now : Int) : Int × Int :=
  (if 0 < nextReset loc plan sub.endTime sub.startTime then lastReset loc plan sub now else 0,
    nextReset loc plan sub.endTime (lastReset loc plan sub now))

theorem reaches_lastReset (hp : Progresses loc plan) (sub : UserSubscription) (now : Int) :
    Reaches (nextReset loc plan sub.endTime) now sub.startTime (lastReset loc plan sub now) :=
  reaches_lastBoundary (rises_nextReset hp _) (Int.self_le_toNat _)

theorem catchUp_reaches {endTime base b next : Int} {advanced advanced' : Bool} (hp : Progresses loc plan)
    (h : catchUp loc plan endTime now fuel base (nextReset loc plan endTime base) advanced =
      some (b, next, advanced')) :
    Reaches (nextReset loc plan endTime) now base b ∧ next = nextReset loc plan endTime b ∧
      advanced' = (advanced || decide (b ≠ base)) := by
  induction fuel generalizing base advanced with
  | zero =>
    unfold catchUp at h
    split at h
    · cases h
    · rename_i hout
      cases h
      exact ⟨.stop hout, rfl, by simp⟩
  | succ fuel ih =>
    unfold catchUp at h
    split at h
    · rename_i hin
      obtain ⟨hreach, hnext, hadv⟩ := ih h
      refine ⟨.step hin hreach, hnext, ?_⟩
      have hlater : b ≠ base := by
        have hle := hreach.le (rises_nextReset hp endTime)
        have hup := rises_nextReset hp endTime base
        omega
      rw [hadv]
      simp [hlater]
    · rename_i hout
      cases h
      exact ⟨.stop hout, rfl, by simp⟩

structure OnSchedule (loc : Location) (plan : SubscriptionPlan) (touched : Int) (row : UserSubscription) : Prop where
  started : 0 < row.startTime
  since : row.startTime ≤ touched
  fields : (row.lastResetTime, row.nextResetTime) = schedule loc plan row touched

theorem OnSchedule.base (hp : Progresses loc plan) (h : OnSchedule loc plan touched row) :
    (if row.lastResetTime ≤ 0 then row.startTime else row.lastResetTime) = lastReset loc plan row touched := by
  have hreach := reaches_lastReset hp row touched
  have hlast : row.lastResetTime = (schedule loc plan row touched).1 := congrArg Prod.fst h.fields
  have hle := hreach.le (rises_nextReset hp _)
  have hstarted := h.started
  rw [hlast]
  unfold schedule
  by_cases hfirst : 0 < nextReset loc plan row.endTime row.startTime
  · rw [if_pos hfirst, if_neg (by omega)]
  · rw [if_neg hfirst, if_pos le_rfl]
    exact (Reaches.stop fun hdue => hfirst hdue.1).unique hreach

variable {kind : Option SaveKind} {subs : List UserSubscription} {y : UserSubscription} {requestId : String}

theorem maybeReset_schedule {row' : UserSubscription} (hp : Progresses loc plan)
    (hper : plan.quotaResetPeriod ≠ .never) (hrow : OnSchedule loc plan touched row) (hle : touched ≤ now)
    (h : maybeReset fuel loc row plan now = .ok (row', kind)) :
    row' = afterReset row kind (schedule loc plan row now).1 (schedule loc plan row now).2 ∧
      (kind = some .reset ↔ lastReset loc plan row now ≠ lastReset loc plan row touched) := by
  have hbase := hrow.base hp
  have hlast := congrArg Prod.fst hrow.fields
  have hnext := congrArg Prod.snd hrow.fields
  dsimp only at hlast hnext
  have hthen := reaches_lastReset hp row touched
  have hnow := reaches_lastReset hp row now
  -- Where the look finds the boundary of the last one, the row stays as it is.
  have hsame : lastReset loc plan row now = lastReset loc plan row touched →
      row = afterReset row none (schedule loc plan row now).1 (schedule loc plan row now).2 := by
    intro he
    have hsched : schedule loc plan row now = schedule loc plan row touched := by
      unfold schedule
      rw [he]
    rw [hsched, ← hlast, ← hnext]
    rfl
  unfold maybeReset at h
  by_cases hnot : 0 < row.nextResetTime ∧ now < row.nextResetTime
  · rw [if_pos hnot] at h
    cases h
    have hstop : Reaches (nextReset loc plan row.endTime) now (lastReset loc plan row touched)
        (lastReset loc plan row touched) := by
      refine .stop ?_
      rintro ⟨-, hdue⟩
      rw [hnext] at hnot
      exact absurd hnot.2 (not_lt.mpr hdue)
    have he := hnow.unique (hthen.trans hle hstop)
    exact ⟨hsame he, by simp [he]⟩
  rw [if_neg hnot, if_neg hper] at h
  dsimp only at h
  rw [hbase] at h
  split at h
  · cases h
  rename_i b next advanced hcatch
  obtain ⟨hreach, rfl, hadv⟩ := catchUp_reaches hp hcatch
  obtain rfl := hnow.unique (hthen.trans hle hreach)
  rw [Bool.false_or] at hadv
  split at h
  · rename_i hmoved
    cases h
    rw [hadv, decide_eq_true_eq] at hmoved
    refine ⟨?_, by simp [hmoved]⟩
    -- A boundary has come, so there is a first one.
    have hfirst : 0 < nextReset loc plan row.endTime row.startTime := by
      by_contra hnone
      have hstop : ∀ t, lastReset loc plan row t = row.startTime := fun t =>
        (reaches_lastReset hp row t).unique (.stop fun hdue => hnone hdue.1)
      exact hmoved ((hstop now).trans (hstop touched).symm)
    unfold schedule
    rw [if_pos hfirst]
    rfl
  · rename_i hmoved
    rw [hadv, decide_eq_true_eq, not_not] at hmoved
    split at h
    · rename_i hset
      rw [hmoved] at hset
      exact absurd (hnext.symm.trans hset.1) (ne_of_gt hset.2)
    · cases h
      exact ⟨hsame hmoved, by simp [hmoved]⟩

/-! ## The rows that a pre-consume looks at -/

def visited (subs : List UserSubscription) (chosenId : Int) : List Int :=
  (subs.map UserSubscription.id).takeWhile (· ≠ chosenId) ++ [chosenId]

theorem visited_subset {chosenId : Int} (h : chosenId ∈ subs.map UserSubscription.id) :
    visited subs chosenId ⊆ subs.map UserSubscription.id := by
  intro id hid
  rcases List.mem_append.mp hid with hid | hid
  · exact (List.takeWhile_sublist _).subset hid
  · rw [List.mem_singleton.mp hid]
    exact h

theorem chosen_mem (h : selectCandidate fuel loc plans amount now subs = .ok (chosen, writes)) :
    chosen.id ∈ subs.map UserSubscription.id := by
  obtain ⟨_, _, _, _, -, rfl, hc, -⟩ := selectCandidate_spec h
  rw [refresh_id hc]
  simp

theorem sub_commit_saveOf (hsub : s.sub sub.id = some sub)
    (hid : y.id = sub.id) (hnone : kind = none → y = sub) (hrow : s.sub id = some row) :
    (s.commit (saveOf y kind)).sub id = some (if id = sub.id then y else row) := by
  split
  · rename_i he
    subst he
    cases kind with
    | none =>
      obtain rfl := hnone rfl
      exact hsub
    | some k =>
      show (s.write (.saveSub k y)).sub sub.id = some y
      rw [← hid] at hsub ⊢
      exact sub_saveSub_self hsub
  · rename_i hne
    cases kind with
    | none => exact hrow
    | some k =>
      show (s.write (.saveSub k y)).sub id = some row
      rw [sub_saveSub_ne (hid ▸ Ne.symm hne), hrow]

theorem maybeReset_none (h : maybeReset fuel loc row plan now = .ok (y, none)) : y = row := by
  obtain ⟨_, _, -, hkind⟩ := maybeReset_spec h
  simpa using hkind

theorem maybeReset_id (h : maybeReset fuel loc row plan now = .ok (y, kind)) : y.id = row.id := by
  obtain ⟨_, _, rfl, -⟩ := maybeReset_spec h
  rfl

theorem refresh_none (h : refresh fuel loc plans now row = .ok (y, none)) : y = row := by
  obtain ⟨_, _, -, hkind⟩ := refresh_spec h
  simpa using hkind

/-- A row that the loop comes to is left as the reset helper does. -/
theorem selectCandidate_rows (hsubs : ∀ x ∈ subs, s.sub x.id = some x) (hnodup : (subs.map UserSubscription.id).Nodup)
    (h : selectCandidate fuel loc plans amount now subs = .ok (chosen, writes)) (hrow : s.sub id = some row) :
    (id ∉ visited subs chosen.id ∧ (s.commit writes).sub id = some row) ∨
      (id ∈ visited subs chosen.id ∧ ∃ y kind, refresh fuel loc plans now row = .ok (y, kind) ∧
        (s.commit writes).sub id = some y ∧ (id = chosen.id → y = chosen)) := by
  induction subs generalizing s writes row with
  | nil => cases h
  | cons c rest ih =>
    have hc : s.sub c.id = some c := hsubs c List.mem_cons_self
    rw [List.map_cons, List.nodup_cons] at hnodup
    unfold selectCandidate at h
    split at h
    · cases h
    rename_i y k hy
    have hsaved : ∀ {id row}, s.sub id = some row →
        (s.commit (saveOf y k)).sub id = some (if id = c.id then y else row) :=
      sub_commit_saveOf hc (refresh_id hy) fun hk => refresh_none (hk ▸ hy)
    split at h
    · cases h
      have hid : chosen.id = c.id := refresh_id hy
      have hvisited : visited (c :: rest) chosen.id = [c.id] := by simp [visited, hid]
      rw [hvisited, List.mem_singleton, hsaved hrow]
      by_cases he : id = c.id
      · subst he
        rw [hc] at hrow
        cases hrow
        rw [if_pos rfl]
        exact .inr ⟨rfl, chosen, k, hy, rfl, fun _ => rfl⟩
      · rw [if_neg he]
        exact .inl ⟨he, rfl⟩
    · split at h
      · cases h
      rename_i ws hrest
      cases h
      have hchosen := chosen_mem hrest
      have hne : c.id ≠ chosen.id := by
        intro he
        exact hnodup.1 (he ▸ hchosen)
      have hvisited : visited (c :: rest) chosen.id = c.id :: visited rest chosen.id := by simp [visited, hne]
      have hrest' : ∀ x ∈ rest, (s.commit (saveOf y k)).sub x.id = some x := by
        intro x hx
        rw [hsaved (hsubs x (List.mem_cons_of_mem _ hx)), if_neg]
        intro he
        exact hnodup.1 (he ▸ List.mem_map_of_mem hx)
      rw [hvisited, List.mem_cons, commit_append]
      have hthen := ih hrest' hnodup.2 hrest (hsaved hrow)
      by_cases he : id = c.id
      · subst he
        rw [hc] at hrow
        cases hrow
        rw [if_pos rfl] at hthen
        have hout : c.id ∉ visited rest chosen.id := fun hin => hnodup.1 (visited_subset hchosen hin)
        obtain ⟨-, hstays⟩ := hthen.resolve_right fun hin => hout hin.1
        exact .inr ⟨.inl rfl, y, k, hy, hstays, fun he => absurd he hne⟩
      · rw [if_neg he] at hthen
        simpa only [he, false_or] using hthen

theorem activeSubs_nodup (hkeys : (s.subs.map UserSubscription.id).Nodup) :
    ((s.activeSubs userId now).map UserSubscription.id).Nodup := by
  unfold Store.activeSubs
  rw [((List.perm_insertionSort _ _).map _).nodup_iff]
  exact hkeys.sublist (List.filter_sublist.map _)

theorem sub_commit_charge {resets : List Write} (hrow : (s.commit resets).sub id = some row) :
    (s.commit (resets ++ (charge requestId userId amount chosen).2)).sub id =
      some (if id = chosen.id then { chosen with amountUsed := wrap64 (chosen.amountUsed + amount) } else row) := by
  rw [commit_append]
  show ((s.commit resets).write (.saveSub .charge
    { chosen with amountUsed := wrap64 (chosen.amountUsed + amount) })).sub id = _
  split
  · rename_i he
    subst he
    exact sub_saveSub_self hrow
  · rename_i hne
    have hkey : chosen.id ≠ id := Ne.symm hne
    rw [sub_saveSub_ne (by exact hkey), hrow]

theorem preConsume_rows {result : SubscriptionPreConsumeResult}
    (hkeys : (s.subs.map UserSubscription.id).Nodup) (hnew : s.record requestId = none)
    (h : preConsumeUserSubscription fuel loc s requestId userId amount now = .ok (result, writes))
    (hrow : s.sub id = some row) :
    (id ∉ visited (s.activeSubs userId now) result.userSubscriptionId ∧ (s.commit writes).sub id = some row) ∨
      (id ∈ visited (s.activeSubs userId now) result.userSubscriptionId ∧
        ∃ y kind, refresh fuel loc s.plans now row = .ok (y, kind) ∧
          (id ≠ result.userSubscriptionId ∧ (s.commit writes).sub id = some y ∨
            id = result.userSubscriptionId ∧ y.canHold amount ∧
              (s.commit writes).sub id = some { y with amountUsed := wrap64 (y.amountUsed + amount) })) := by
  obtain ⟨-, ⟨hsome, -⟩ | ⟨chosen, _, -, hselect, rfl, rfl⟩⟩ := preConsume_spec h
  · exact absurd hnew hsome
  have hloop := preConsumeSelect_spec hselect
  have hsubs : ∀ x ∈ s.activeSubs userId now, s.sub x.id = some x := by
    intro x hx
    exact lookup_of_mem hkeys (mem_activeSubs.mp hx).1
  rcases selectCandidate_rows hsubs (activeSubs_nodup hkeys) hloop hrow with ⟨hout, hstays⟩ | ⟨hin, y, kind, hy, hrow', hchosen⟩
  · have hne : id ≠ chosen.id := by
      rintro rfl
      exact hout (List.mem_append_right _ List.mem_cons_self)
    refine .inl ⟨hout, ?_⟩
    rw [sub_commit_charge hstays, if_neg hne]
  · refine .inr ⟨hin, y, kind, hy, ?_⟩
    rw [sub_commit_charge hrow']
    by_cases he : id = chosen.id
    · obtain rfl := hchosen he
      obtain ⟨-, -, -, -, -, -, -, hhold, -⟩ := selectCandidate_spec hloop
      rw [if_pos he]
      exact .inr ⟨he, hhold, rfl⟩
    · rw [if_neg he]
      exact .inl ⟨he, rfl⟩

/-! ## Visits -/

/-- A pre-consume, and a background transaction on one row. -/
inductive Visit where
  | preConsume (requestId : String) (userId amount now : Int)
  | resetDue (plan : SubscriptionPlan) (id now : Int)

def Visit.time : Visit → Int
  | .preConsume _ _ _ now => now
  | .resetDue _ _ now => now

def Visit.event : Visit → Event
  | .preConsume requestId userId amount now => .preConsume requestId userId amount now
  | .resetDue plan id now => .resetDue plan id now

/-- It charges none where it fails or knows the request. -/
def charged (fuel : Nat) (loc : Location) (s : Store) : Visit → Option (Int × Int)
  | .preConsume requestId userId amount now =>
    match s.record requestId, preConsumeUserSubscription fuel loc s requestId userId amount now with
    | none, .ok (result, _) => some (result.userSubscriptionId, amount)
    | _, _ => none
  | .resetDue _ _ _ => none

def touches (fuel : Nat) (loc : Location) (s : Store) : Visit → List Int
  | .preConsume requestId userId amount now =>
    match charged fuel loc s (.preConsume requestId userId amount now) with
    | some (chosenId, _) => visited (s.activeSubs userId now) chosenId
    | none => []
  | .resetDue plan id now =>
    match s.sub id, resetDueSubscription fuel loc s plan id now with
    | some locked, .ok _ => if 0 < locked.nextResetTime ∧ locked.nextResetTime ≤ now then [id] else []
    | _, _ => []

/-- The last visit, the last touch, and what was accepted when. -/
structure Usage where
  store : Store
  clock : Int
  touched : Int
  accepted : List (Int × Int)

def accept (id time : Int) (accepted : List (Int × Int)) : Option (Int × Int) → List (Int × Int)
  | some (chosenId, amount) => if chosenId = id then (time, amount) :: accepted else accepted
  | none => accepted

def Usage.step (fuel : Nat) (loc : Location) (id : Int) (u : Usage) (v : Visit) : Option Usage :=
  some {
    store := u.store.step fuel loc v.event
    clock := v.time
    touched := if id ∈ touches fuel loc u.store v then v.time else u.touched
    accepted := accept id v.time u.accepted (charged fuel loc u.store v) }

/-- Time does not go back, and the plan is the subscription's. -/
def Timely (plan : SubscriptionPlan) (id : Int) (u : Usage) : Visit → Prop
  | .preConsume _ _ _ now => u.clock ≤ now
  | .resetDue plan' id' now => u.clock ≤ now ∧ (id' = id → plan' = plan)

open Classical in
noncomputable def usedIn (next : Int → Int) (start now : Int) : List (Int × Int) → Int
  | [] => 0
  | (time, amount) :: rest => (if SamePeriod next start time now then amount else 0) + usedIn next start now rest

theorem usedIn_congr {next : Int → Int} {start a b : Int} (hsame : SamePeriod next start a b)
    (accepted : List (Int × Int)) : usedIn next start a accepted = usedIn next start b accepted := by
  induction accepted with
  | nil => rfl
  | cons p rest ih =>
    have hiff : SamePeriod next start p.1 a ↔ SamePeriod next start p.1 b :=
      ⟨fun h => h.trans hsame, fun h => h.trans hsame.symm⟩
    classical
    simp only [usedIn, ih]
    rw [if_congr hiff rfl rfl]

theorem usedIn_other {next : Int → Int} {start a : Int} {accepted : List (Int × Int)}
    (hother : ∀ p ∈ accepted, ¬ SamePeriod next start p.1 a) : usedIn next start a accepted = 0 := by
  induction accepted with
  | nil => rfl
  | cons p rest ih =>
    simp only [usedIn, hother p List.mem_cons_self, if_false, zero_add]
    exact ih fun q hq => hother q (List.mem_cons_of_mem _ hq)

/-! ## One visit -/

/-- On schedule, and charged with the amounts of the period of `touched`. -/
structure RowOk (loc : Location) (plan : SubscriptionPlan) (sub : UserSubscription) (touched : Int)
    (accepted : List (Int × Int)) (row : UserSubscription) : Prop where
  planId : row.planId = sub.planId
  startTime : row.startTime = sub.startTime
  endTime : row.endTime = sub.endTime
  amountTotal : row.amountTotal = sub.amountTotal
  schedule : OnSchedule loc plan touched row
  times : ∀ p ∈ accepted, p.1 ≤ touched
  used : row.amountUsed = wrap64 (usedIn (nextReset loc plan sub.endTime) sub.startTime touched accepted)
  exact : 0 < sub.amountTotal →
    row.amountUsed = usedIn (nextReset loc plan sub.endTime) sub.startTime touched accepted

variable {accepted : List (Int × Int)}

theorem RowOk.touch (hp : Progresses loc plan)
    (hper : plan.quotaResetPeriod ≠ .never) (hrow : RowOk loc plan sub touched accepted row) (hle : touched ≤ now)
    (h : maybeReset fuel loc row plan now = .ok (y, kind)) : RowOk loc plan sub now accepted y := by
  obtain ⟨rfl, hkind⟩ := maybeReset_schedule hp hper hrow.schedule hle h
  have hthen := reaches_lastReset hp row touched
  have hnow := reaches_lastReset hp row now
  have hrises := rises_nextReset hp row.endTime
  have hused : usedIn (nextReset loc plan sub.endTime) sub.startTime now accepted =
      if kind = some .reset then 0 else usedIn (nextReset loc plan sub.endTime) sub.startTime touched accepted := by
    rw [← hrow.endTime, ← hrow.startTime]
    split
    · rename_i hreset
      apply usedIn_other
      intro p hpmem
      obtain ⟨b, hb⟩ : ∃ b, Reaches (nextReset loc plan row.endTime) now (lastReset loc plan row touched) b :=
        ⟨_, reaches_lastBoundary hrises (Int.self_le_toNat _)⟩
      have hbnow := (hthen.trans hle hb).unique hnow
      refine not_samePeriod_of_reaches hthen hb ?_ (hrow.times p hpmem)
      rw [hbnow]
      exact hkind.mp hreset
    · rename_i hkeep
      have he : lastReset loc plan row now = lastReset loc plan row touched := by
        by_contra hne
        exact hkeep (hkind.mpr hne)
      apply usedIn_congr
      have hsince := hrow.schedule.since
      exact samePeriod_of_reaches hrises (hsince.trans hle) hsince hnow (he ▸ hthen)
  refine ⟨hrow.planId, hrow.startTime, hrow.endTime, hrow.amountTotal,
    ⟨hrow.schedule.started, hrow.schedule.since.trans hle, rfl⟩, fun p hpmem => (hrow.times p hpmem).trans hle, ?_, ?_⟩
  · show (if kind = some .reset then 0 else row.amountUsed) = _
    rw [hused]
    split
    · rfl
    · exact hrow.used
  · intro hlimited
    show (if kind = some .reset then 0 else row.amountUsed) = _
    rw [hused]
    split
    · rfl
    · exact hrow.exact hlimited

theorem wrap64_add (a b : Int) : wrap64 (wrap64 a + b) = wrap64 (b + a) := by
  unfold wrap64
  rw [Int.bmod_add_bmod, Int.add_comm]

theorem RowOk.charge (hrow : RowOk loc plan sub now accepted row) (hbudget : InBudget row) (hamount : 0 < amount)
    (hhold : row.canHold amount) : RowOk loc plan sub now ((now, amount) :: accepted)
      { row with amountUsed := wrap64 (row.amountUsed + amount) } := by
  have hused : usedIn (nextReset loc plan sub.endTime) sub.startTime now ((now, amount) :: accepted) =
      amount + usedIn (nextReset loc plan sub.endTime) sub.startTime now accepted := by
    simp only [usedIn, SamePeriod.refl, if_true]
  refine ⟨hrow.planId, hrow.startTime, hrow.endTime, hrow.amountTotal, ⟨hrow.schedule.started, hrow.schedule.since,
    hrow.schedule.fields⟩, ?_, ?_, ?_⟩
  · rintro p (_ | ⟨_, hpmem⟩)
    · exact le_rfl
    · exact hrow.times p hpmem
  · show wrap64 (row.amountUsed + amount) = _
    rw [hused, hrow.used, wrap64_add]
  intro hlimited
  show wrap64 (row.amountUsed + amount) = _
  have hroom : row.amountUsed + amount ≤ row.amountTotal :=
    (canHold_iff hbudget).mp hhold (hrow.amountTotal ▸ hlimited)
  obtain ⟨hsmall, hin⟩ := hbudget
  obtain ⟨hnonneg, -⟩ := hin (hrow.amountTotal ▸ hlimited)
  rw [hused, wrap64_eq (by omega) (by omega), hrow.exact hlimited, Int.add_comm]

structure Follows (loc : Location) (plan : SubscriptionPlan) (sub : UserSubscription) (u : Usage) : Prop where
  valid : Valid u.store
  stored : getSubscriptionPlanById u.store.plans sub.planId = .ok plan
  clock : u.touched ≤ u.clock
  row : ∃ row, u.store.sub sub.id = some row ∧ RowOk loc plan sub u.touched u.accepted row

theorem refresh_plan (hplan : getSubscriptionPlanById plans row.planId = .ok plan)
    (h : refresh fuel loc plans now row = .ok (y, kind)) : maybeReset fuel loc row plan now = .ok (y, kind) := by
  unfold refresh at h
  rwa [hplan] at h

def After (fuel : Nat) (loc : Location) (plan : SubscriptionPlan) (sub : UserSubscription) (s : Store) (touched : Int)
    (accepted : List (Int × Int)) (v : Visit) : Prop :=
  ∃ row, (s.step fuel loc v.event).sub sub.id = some row ∧
    RowOk loc plan sub (if sub.id ∈ touches fuel loc s v then v.time else touched)
      (accept sub.id v.time accepted (charged fuel loc s v)) row

theorem after_untouched {v : Visit} (hcharged : charged fuel loc s v = none) (htouches : sub.id ∉ touches fuel loc s v)
    (hsub : (s.step fuel loc v.event).sub sub.id = some row) (hrow : RowOk loc plan sub touched accepted row) :
    After fuel loc plan sub s touched accepted v := by
  refine ⟨row, hsub, ?_⟩
  rw [hcharged, if_neg htouches]
  exact hrow

theorem preConsume_row (hp : Progresses loc plan) (hper : plan.quotaResetPeriod ≠ .never)
    (hvalid : Valid s) (hplan : getSubscriptionPlanById s.plans sub.planId = .ok plan)
    (hsub : s.sub sub.id = some row) (hrow : RowOk loc plan sub touched accepted row) (hle : touched ≤ now) :
    After fuel loc plan sub s touched accepted (.preConsume requestId userId amount now) := by
  -- A call that fails, and one whose request is known, change nothing.
  have hnothing : charged fuel loc s (.preConsume requestId userId amount now) = none →
      (Event.preConsume requestId userId amount now).writes fuel loc s = [] →
      After fuel loc plan sub s touched accepted (.preConsume requestId userId amount now) := by
    intro hnone hnil
    refine after_untouched hnone (by simp [touches, hnone]) ?_ hrow
    show (s.commit ((Event.preConsume requestId userId amount now).writes fuel loc s)).sub sub.id = some row
    rw [hnil]
    exact hsub
  cases hr : preConsumeUserSubscription fuel loc s requestId userId amount now with
  | error => exact hnothing (by simp [charged, hr]) (by simp [Event.writes, hr, Except.map, committed])
  | ok answer =>
    obtain ⟨result, writes⟩ := answer
    have hwrites : (Event.preConsume requestId userId amount now).writes fuel loc s = writes := by
      simp [Event.writes, hr, Except.map, committed]
    obtain ⟨hguard, hcase⟩ := preConsume_spec hr
    cases hnew : s.record requestId with
    | some =>
      rcases hcase with ⟨-, hnil⟩ | ⟨-, -, hnone, -⟩
      · exact hnothing (by simp [charged, hnew]) (hwrites.trans hnil)
      · rw [hnew] at hnone
        cases hnone
    | none =>
      have hcharged : charged fuel loc s (.preConsume requestId userId amount now) =
          some (result.userSubscriptionId, amount) := by simp [charged, hnew, hr]
      have hamount := (preConsumeGuard_spec hguard).2.2
      have hstep : s.step fuel loc (Visit.preConsume requestId userId amount now).event = s.commit writes :=
        congrArg s.commit hwrites
      unfold After
      simp only [hstep, touches, hcharged, accept, Visit.time]
      rcases preConsume_rows hvalid.nodup hnew hr hsub with ⟨hout, hstays⟩ | ⟨hin, y, _, hy, hrow'⟩
      · have hne : result.userSubscriptionId ≠ sub.id := by
          intro he
          exact hout (he ▸ List.mem_append_right _ List.mem_cons_self)
        rw [if_neg hout, if_neg hne]
        exact ⟨row, hstays, hrow⟩
      · rw [if_pos hin]
        have htouch := hrow.touch hp hper hle (refresh_plan (hrow.planId ▸ hplan) hy)
        rcases hrow' with ⟨hne, hstays⟩ | ⟨he, hhold, hstays⟩
        · rw [if_neg (Ne.symm hne)]
          exact ⟨y, hstays, htouch⟩
        · rw [if_pos he.symm]
          have hbudget := inBudget_refresh (hvalid.budget row (mem_of_sub hsub)) hy
          exact ⟨_, hstays, htouch.charge hbudget hamount hhold⟩

theorem resetDue_cases (fuel : Nat) (loc : Location) (s : Store) (plan : SubscriptionPlan) (id now : Int) :
    ((Event.resetDue plan id now).writes fuel loc s = [] ∧ touches fuel loc s (.resetDue plan id now) = []) ∨
      ∃ locked y kind, s.sub id = some locked ∧ 0 < locked.nextResetTime ∧ locked.nextResetTime ≤ now ∧
        maybeReset fuel loc locked plan now = .ok (y, kind) ∧
        (Event.resetDue plan id now).writes fuel loc s = saveOf y kind ∧
        touches fuel loc s (.resetDue plan id now) = [id] := by
  simp only [Event.writes, touches]
  cases hlocked : s.sub id with
  | none => exact .inl ⟨by simp [resetDueSubscription, hlocked, committed], rfl⟩
  | some locked =>
    by_cases hdue : 0 < locked.nextResetTime ∧ locked.nextResetTime ≤ now
    · cases hr : maybeReset fuel loc locked plan now with
      | error => exact .inl (by simp [resetDueSubscription, hlocked, hdue, hr, committed])
      | ok answer =>
        obtain ⟨y, kind⟩ := answer
        refine .inr ⟨locked, y, kind, rfl, hdue.1, hdue.2, hr, ?_, ?_⟩ <;>
          simp [resetDueSubscription, hlocked, hdue, hr, committed]
    · exact .inl (by simp [resetDueSubscription, hlocked, hdue, committed])

theorem resetDue_row {plan' : SubscriptionPlan} {id' : Int} (hp : Progresses loc plan)
    (hper : plan.quotaResetPeriod ≠ .never) (hsame : id' = sub.id → plan' = plan)
    (hsub : s.sub sub.id = some row) (hrow : RowOk loc plan sub touched accepted row) (hle : touched ≤ now) :
    After fuel loc plan sub s touched accepted (.resetDue plan' id' now) := by
  rcases resetDue_cases fuel loc s plan' id' now with
    ⟨hnil, htouches⟩ | ⟨locked, y, kind, hlocked, -, -, hr, hwrites, htouches⟩
  · have hstep : s.step fuel loc (Visit.resetDue plan' id' now).event = s := congrArg s.commit hnil
    refine after_untouched rfl (by simp [htouches]) ?_ hrow
    rw [hstep]
    exact hsub
  have hstep : s.step fuel loc (Visit.resetDue plan' id' now).event = s.commit (saveOf y kind) :=
    congrArg s.commit hwrites
  obtain rfl := id_of_sub hlocked
  have hrow' : (s.commit (saveOf y kind)).sub sub.id = some (if sub.id = locked.id then y else row) :=
    sub_commit_saveOf hlocked (maybeReset_id hr) (fun hk => maybeReset_none (hk ▸ hr)) hsub
  by_cases he : sub.id = locked.id
  · rw [he, hlocked] at hsub
    cases hsub
    obtain rfl := hsame he.symm
    rw [if_pos he] at hrow'
    refine ⟨y, by rw [hstep]; exact hrow', ?_⟩
    rw [htouches, if_pos (List.mem_singleton.mpr he)]
    exact hrow.touch hp hper hle hr
  · rw [if_neg he] at hrow'
    refine after_untouched rfl ?_ (by rw [hstep]; exact hrow') hrow
    rw [htouches, List.mem_singleton]
    exact he

/-! ## Every run -/

variable {u v : Usage}

theorem Follows.step {e : Visit} (hp : Progresses loc plan) (hper : plan.quotaResetPeriod ≠ .never)
    (h : Follows loc plan sub u) (hok : Timely plan sub.id u e) (hstep : u.step fuel loc sub.id e = some v) :
    Follows loc plan sub v := by
  obtain rfl := Option.some.inj hstep
  obtain ⟨_, hsub, hrow⟩ := h.row
  have hafter : After fuel loc plan sub u.store u.touched u.accepted e := by
    cases e with
    | preConsume =>
      exact preConsume_row hp hper h.valid h.stored hsub hrow (h.clock.trans hok)
    | resetDue => exact resetDue_row hp hper hok.2 hsub hrow (h.clock.trans hok.1)
  have hlater : u.clock ≤ e.time := by
    cases e with
    | preConsume => exact hok
    | resetDue => exact hok.1
  refine ⟨step_valid _ h.valid, ?_, ?_, hafter⟩
  · show getSubscriptionPlanById (u.store.commit _).plans sub.planId = .ok plan
    rw [commit_plans]
    exact h.stored
  split
  · exact le_rfl
  · exact h.clock.trans hlater

/-- An accepted charge leaves the sum of its period in the row, in 64 bits. -/
theorem usage_by_period (fuel : Nat) (loc : Location) (plan : SubscriptionPlan) (s : Store)
    (id userId start endUnix : Int) (source currentGroup : String) (visits : List Visit) (u : Usage)
    (hp : Progresses loc plan) (hper : plan.quotaResetPeriod ≠ .never) (hstart : 0 < start) (hvalid : Valid s)
    (hplan : getSubscriptionPlanById s.plans plan.id = .ok plan)
    (hsub : s.sub id = some (newSubscription loc id userId plan source start endUnix currentGroup))
    (hrun : Steps (Usage.step fuel loc id) (Timely plan id) ⟨s, start, start, []⟩ visits u) :
    let sub := newSubscription loc id userId plan source start endUnix currentGroup
    (∃ row, u.store.sub id = some row ∧
      (row.lastResetTime, row.nextResetTime) = schedule loc plan sub u.touched) ∧
    ∀ v amount, Timely plan id u v → charged fuel loc u.store v = some (id, amount) →
      ∃ row, (u.store.step fuel loc v.event).sub id = some row ∧
        row.amountUsed =
          wrap64 (usedIn (nextReset loc plan endUnix) start v.time ((v.time, amount) :: u.accepted)) ∧
        (0 < plan.totalAmount →
          row.amountUsed = usedIn (nextReset loc plan endUnix) start v.time ((v.time, amount) :: u.accepted)) := by
  intro sub
  have hinit : RowOk loc plan sub start [] sub := by
    refine ⟨rfl, rfl, rfl, rfl, ⟨hstart, le_rfl, ?_⟩, by simp, rfl, fun _ => rfl⟩
    have hfirst : lastReset loc plan sub start = start := by
      have hfuel : (start - sub.startTime).toNat = 0 := by simp [sub, newSubscription]
      unfold lastReset
      rw [hfuel]
      rfl
    unfold schedule
    rw [hfirst]
    rfl
  have hfollows : Follows loc plan sub u := by
    refine hrun.invariant ?_ ⟨hvalid, hplan, le_rfl, sub, hsub, hinit⟩
    intro u v t hok hu hstep
    exact hu.step hp hper hok hstep
  constructor
  · obtain ⟨row, hrow, hok⟩ := hfollows.row
    refine ⟨row, hrow, hok.schedule.fields.trans ?_⟩
    unfold schedule lastReset
    rw [hok.startTime, hok.endTime]
  · intro v amount hok hcharged
    obtain ⟨row, hrow, hafter⟩ := (hfollows.step hp hper hok rfl).row
    have htouched : sub.id ∈ touches fuel loc u.store v := by
      cases v with
      | preConsume =>
        simp only [touches, hcharged]
        exact List.mem_append_right _ List.mem_cons_self
      | resetDue => cases hcharged
    have haccept : accept sub.id v.time u.accepted (charged fuel loc u.store v) = (v.time, amount) :: u.accepted := by
      rw [hcharged]
      exact if_pos rfl
    rw [if_pos htouched, haccept] at hafter
    exact ⟨row, hrow, hafter.used, hafter.exact⟩

/-! ## A subscription of 30 days with daily resets -/

def dailyPlan : SubscriptionPlan := { samplePlan .daily 0 with id := 1 }

def bought : UserSubscription := newSubscription (.fixed 0) 1 1 dailyPlan "order" 1700000000 1702592000 "default"

def boughtStore : Store := { sampleStore with plans := [dailyPlan], subs := [bought] }

def firstCharge : Visit := .preConsume "a" 1 300 1700000100

def afterFirst : Usage where
  store := boughtStore.step 5 (.fixed 0) firstCharge.event
  clock := 1700000100
  touched := 1700000100
  accepted := [(1700000100, 300)]

theorem dailyPlan_progresses : Progresses (.fixed 0) dailyPlan :=
  (progresses_iff_sound _ _).mpr (sound_fixed 0 _ (by decide))

theorem boughtStore_valid : Valid boughtStore where
  nodup := by decide
  fresh := by decide
  plans := by decide
  budget := by
    intro sub hsub
    rw [List.mem_singleton.mp hsub]
    exact ⟨by decide, by decide⟩

theorem first_charge_run :
    Steps (Usage.step 5 (.fixed 0) 1) (Timely dailyPlan 1) ⟨boughtStore, 1700000000, 1700000000, []⟩ [firstCharge]
      afterFirst := by
  refine .more (show (1700000000 : Int) ≤ 1700000100 by decide) ?_ (.done _)
  have htouches : 1 ∈ touches 5 (.fixed 0) boughtStore firstCharge := by decide +kernel
  have hcharged : charged 5 (.fixed 0) boughtStore firstCharge = some (1, 300) := by decide +kernel
  unfold Usage.step
  rw [if_pos htouches, hcharged]
  rfl

theorem second_day : afterFirst.clock ≤ 1700100000 := by decide

theorem usage_by_period_second_day :
    ∃ row, (afterFirst.store.step 5 (.fixed 0) (.preConsume "b" 1 200 1700100000)).sub 1 = some row ∧
      row.amountUsed = usedIn (nextReset (.fixed 0) dailyPlan 1702592000) 1700000000 1700100000
        [(1700100000, 200), (1700000100, 300)] := by
  obtain ⟨row, hrow, -, hused⟩ := (usage_by_period 5 (.fixed 0) dailyPlan boughtStore 1 1 1700000000 1702592000 "order"
    "default" [firstCharge] afterFirst dailyPlan_progresses (by decide) (by decide) boughtStore_valid (by decide)
    (by decide) first_charge_run).2 (.preConsume "b" 1 200 1700100000) 200 second_day (by decide +kernel)
  exact ⟨row, hrow, hused (by decide)⟩

/-- A rejected charge is rolled back with its reset. -/
theorem rejected_keeps_old_usage :
    ∃ loc plan s visits u v row, Progresses loc plan ∧ plan.quotaResetPeriod ≠ .never ∧ Valid s ∧
      getSubscriptionPlanById s.plans plan.id = .ok plan ∧
      s.sub 1 = some (newSubscription loc 1 1 plan "order" 1700000000 1702592000 "default") ∧
      Steps (Usage.step 5 loc 1) (Timely plan 1) ⟨s, 1700000000, 1700000000, []⟩ visits u ∧ Timely plan 1 u v ∧
      (∃ requestId, v = .preConsume requestId 1 5000 1700100000) ∧
      (u.store.step 5 loc v.event).sub 1 = some row ∧ row.amountUsed = 300 ∧
      usedIn (nextReset loc plan 1702592000) 1700000000 v.time u.accepted = 0 := by
  refine ⟨.fixed 0, dailyPlan, boughtStore, [firstCharge], afterFirst, .preConsume "b" 1 5000 1700100000,
    { bought with amountUsed := 300 }, dailyPlan_progresses, by decide, boughtStore_valid, by decide, by decide,
    first_charge_run, second_day, ⟨"b", rfl⟩, by decide +kernel, rfl, ?_⟩
  apply usedIn_other
  intro p hp hsame
  rw [List.mem_singleton.mp hp] at hsame
  -- Midnight lies between the two calls.
  have hmidnight := hsame _ (.first (by decide))
  exact absurd (hmidnight.mpr (by decide)) (by decide)

end NewApi.PeriodUsage
