import NewApi.Ledger
import NewApi.Reset

/-!
# The budget of a subscription

Every writer of `amount_used` keeps a limited subscription between zero and its total.
-/

namespace NewApi.Budget

open GoTime Table Code Ledger Run Reset

variable {fuel : Nat} {loc : Location} {s t : Store} {sub row : UserSubscription}
  {userId amount now : Int} {w : Write} {writes : List Write}

def InBudget (sub : UserSubscription) : Prop :=
  sub.amountTotal < 2 ^ 63 ∧ (0 < sub.amountTotal → 0 ≤ sub.amountUsed ∧ sub.amountUsed ≤ sub.amountTotal)

structure Valid (s : Store) : Prop where
  nodup : (s.subs.map UserSubscription.id).Nodup
  fresh : ∀ sub ∈ s.subs, sub.id < s.nextSubId
  plans : ∀ plan ∈ s.plans, plan.totalAmount < 2 ^ 63
  budget : ∀ sub ∈ s.subs, InBudget sub

/-! ## One write -/

def Keeps : Write → Prop
  | .createSub _ => False
  | .saveSub _ row => InBudget row
  | _ => True

theorem valid_write (hs : Valid s) (hw : Keeps w) : Valid (s.write w) := by
  cases w with
  | createSub => exact hw.elim
  | saveSub kind row =>
    refine ⟨?_, ?_, hs.plans, ?_⟩
    · show ((save UserSubscription.id s.subs row).map UserSubscription.id).Nodup
      rw [keys_save]
      exact hs.nodup
    · intro sub hsub
      have hkey : sub.id ∈ (save UserSubscription.id s.subs row).map UserSubscription.id :=
        List.mem_map_of_mem hsub
      rw [keys_save] at hkey
      obtain ⟨old, hold, hid⟩ := List.mem_map.mp hkey
      rw [← hid]
      exact hs.fresh old hold
    · intro sub hsub
      rcases mem_save hsub with rfl | ⟨hold, -⟩
      · exact hw
      · exact hs.budget sub hold
  | deleteSub =>
    refine ⟨hs.nodup.sublist (List.filter_sublist.map _), ?_, hs.plans, ?_⟩
    · intro sub hsub
      exact hs.fresh sub (List.mem_of_mem_filter hsub)
    · intro sub hsub
      exact hs.budget sub (List.mem_of_mem_filter hsub)
  | createRecord | saveRecord | setGroup => exact ⟨hs.nodup, hs.fresh, hs.plans, hs.budget⟩

theorem valid_commit (hs : Valid s) (hw : ∀ w ∈ writes, Keeps w) : Valid (s.commit writes) := by
  induction writes generalizing s with
  | nil => exact hs
  | cons w ws ih =>
    apply ih (valid_write hs (hw w List.mem_cons_self))
    intro x hx
    exact hw x (List.mem_cons_of_mem _ hx)

theorem valid_createSub (hs : Valid s) (hid : sub.id = s.nextSubId) (hsub : InBudget sub) :
    Valid (s.write (.createSub sub)) := by
  refine ⟨?_, ?_, hs.plans, ?_⟩
  · show ((s.subs ++ [sub]).map UserSubscription.id).Nodup
    rw [List.map_append, List.nodup_append]
    refine ⟨hs.nodup, by simp, ?_⟩
    intro a ha b hb
    obtain ⟨old, hold, rfl⟩ := List.mem_map.mp ha
    have := hs.fresh old hold
    simp only [List.map_cons, List.map_nil, List.mem_singleton] at hb
    omega
  · intro row hrow
    show row.id < s.nextSubId + 1
    rcases List.mem_append.mp hrow with hold | hnew
    · have := hs.fresh row hold
      omega
    · rw [List.mem_singleton.mp hnew]
      omega
  · intro row hrow
    rcases List.mem_append.mp hrow with hold | hnew
    · exact hs.budget row hold
    · rw [List.mem_singleton.mp hnew]
      exact hsub

/-! ## The writers of the counter -/

def Holds (sub : UserSubscription) (amount : Int) : Prop :=
  0 < sub.amountTotal → sub.amountUsed + amount ≤ sub.amountTotal

theorem canHold_iff (h : InBudget sub) : sub.canHold amount ↔ Holds sub amount := by
  constructor
  · intro hc hpos
    have hb := h.2 hpos
    have := hc hpos
    rw [wrap64_eq (by omega) (by have := h.1; omega)] at this
    omega
  · intro hh hpos
    have hb := h.2 hpos
    have := hh hpos
    rw [wrap64_eq (by omega) (by have := h.1; omega)]
    omega

theorem inBudget_afterReset (h : InBudget sub) (kind : Option SaveKind) (last next : Int) :
    InBudget (afterReset sub kind last next) := by
  refine ⟨h.1, ?_⟩
  intro hpos
  have hb := h.2 hpos
  have htotal : 0 < sub.amountTotal := hpos
  simp only [afterReset]
  split <;> omega

theorem inBudget_charge (h : InBudget sub) (hamount : 0 < amount) (hhold : sub.canHold amount) :
    InBudget { sub with amountUsed := wrap64 (sub.amountUsed + amount) } := by
  refine ⟨h.1, ?_⟩
  intro hpos
  have hb := h.2 hpos
  have hroom := (canHold_iff h).mp hhold hpos
  have htotal := h.1
  simp only
  rw [wrap64_eq (by omega) (by omega)]
  omega

theorem inBudget_refresh {plans : List SubscriptionPlan} {kind : Option SaveKind} (h : InBudget sub)
    (hr : refresh fuel loc plans now sub = .ok (row, kind)) : InBudget row := by
  obtain ⟨last, next, rfl, -⟩ := refresh_spec hr
  exact inBudget_afterReset h kind last next

theorem delta_keeps {id delta : Int} (hs : Valid s)
    (h : postConsumeUserSubscriptionDelta s id delta = .ok writes) (hw : w ∈ writes) : Keeps w := by
  rcases delta_spec h with ⟨-, rfl⟩ | ⟨sub, hsub, hroom, rfl⟩
  · cases hw
  rw [List.mem_singleton.mp hw]
  refine ⟨(hs.budget sub (mem_of_sub hsub)).1, ?_⟩
  intro hpos
  exact ⟨le_max_right _ _, hroom hpos⟩

theorem preConsume_keeps {requestId : String} {result : SubscriptionPreConsumeResult} (hs : Valid s)
    (h : preConsumeUserSubscription fuel loc s requestId userId amount now = .ok (result, writes))
    (hw : w ∈ writes) : Keeps w := by
  cases preConsume_writes h hw with
  | refreshed hsub hrow => exact inBudget_refresh (hs.budget _ hsub) hrow
  | charged hsub hrow hamount hhold => exact inBudget_charge (inBudget_refresh (hs.budget _ hsub) hrow) hamount hhold
  | recorded => trivial

theorem refund_keeps {requestId : String} {fails : Faults} (hs : Valid s)
    (hw : w ∈ (refundSubscriptionPreConsume s requestId fails).2) : Keeps w := by
  rcases refund_writes hw with ⟨_, _, _, hdelta, hw⟩ | ⟨_, rfl⟩
  · exact delta_keeps hs hdelta hw
  · trivial

theorem reset_keeps {e : Event} (hs : Valid s) (hw : w ∈ e.writes fuel loc s) (he : IsReset e) : Keeps w := by
  obtain ⟨sub, hsub, _, last, next, -, rfl⟩ := reset_writes hw he
  exact inBudget_afterReset (hs.budget sub hsub) _ last next

theorem ending_keeps {e : Event} (hs : Valid s) (hw : w ∈ e.writes fuel loc s) (he : IsEnding e) : Keeps w := by
  cases ending_writes hw he with
  | @status sub row hsub hid htotal hused =>
    show InBudget row
    unfold InBudget
    rw [htotal, hused]
    exact hs.budget sub hsub
  | delete | group => trivial

/-! ## One transaction -/

theorem writes_keep (e : Event) (hs : Valid s) (hw : w ∈ e.writes fuel loc s)
    (hpurchase : ∀ userId planId source now, e ≠ .purchase userId planId source now) : Keeps w := by
  cases e with
  | purchase userId planId source now => exact absurd rfl (hpurchase userId planId source now)
  | preConsume =>
    obtain ⟨writes, hr, hw⟩ := mem_committed hw
    obtain ⟨_, hr⟩ := map_eq_ok hr
    exact preConsume_keeps hs hr hw
  | delta =>
    obtain ⟨_, hr, hw⟩ := mem_committed hw
    exact delta_keeps hs hr hw
  | refund => exact refund_keeps hs hw
  | resetDue | resetUser | resetPlan => exact reset_keeps hs hw trivial
  | expire | invalidate | delete => exact ending_keeps hs hw trivial

theorem purchase_valid {planId : Int} {source : String} (hs : Valid s) :
    Valid (s.step fuel loc (.purchase userId planId source now)) := by
  unfold Store.step
  rcases purchase_writes fuel loc s userId planId source now with h | ⟨_, _, hplan, hr⟩
  · rw [h]
    exact hs
  obtain ⟨stored, hstored, rfl⟩ := getSubscriptionPlanById_spec hplan
  obtain ⟨_, _, -, -, rfl, hwrites⟩ := purchase_spec hr
  rw [hwrites, commit_append]
  -- The new row is empty, so only its total has to be looked at.
  refine valid_createSub (valid_commit hs ?_) ?_ ⟨hs.plans stored hstored, fun hpos => ⟨le_rfl, le_of_lt hpos⟩⟩
  · intro w hw
    split at hw
    · rw [List.mem_singleton.mp hw]
      trivial
    · cases hw
  · split <;> rfl

theorem step_valid (e : Event) (hs : Valid s) : Valid (s.step fuel loc e) := by
  by_cases h : ∃ userId planId source now, e = .purchase userId planId source now
  · obtain ⟨_, _, _, _, rfl⟩ := h
    exact purchase_valid hs
  · push Not at h
    exact valid_commit hs fun w hw => writes_keep e hs hw h

/-! ## Where a pre-consume lands -/

def CanTake (fuel : Nat) (loc : Location) (s : Store) (now amount : Int) (sub : UserSubscription) : Prop :=
  ∃ row kind, refresh fuel loc s.plans now sub = .ok (row, kind) ∧ Holds row amount

def LandsEarliest (fuel : Nat) (loc : Location) (s t : Store) (userId amount now id : Int) : Prop :=
  ∃ candidate ∈ s.subs, candidate.id = id ∧ candidate.userId = userId ∧ candidate.activeAt now ∧
    (∃ row kind, refresh fuel loc s.plans now candidate = .ok (row, kind) ∧ Holds row amount ∧
      t.sub id = some { row with amountUsed := wrap64 (row.amountUsed + amount) }) ∧
    (∀ other ∈ s.subs, other.userId = userId → other.activeAt now →
      CanTake fuel loc s now amount other → candidate.endTime ≤ other.endTime) ∧
    ∀ other ∈ s.subs, other.id ≠ id → t.sub other.id = some other ∨
      ∃ row kind, refresh fuel loc s.plans now other = .ok (row, kind) ∧ t.sub other.id = some row

theorem Valid.sub_eq (hs : Valid s) (h : sub ∈ s.subs) : s.sub sub.id = some sub :=
  lookup_of_mem hs.nodup h

theorem Valid.eq_of_id (hs : Valid s) (h : sub ∈ s.subs) (hrow : row ∈ s.subs) (hid : sub.id = row.id) : sub = row := by
  have h₁ := hs.sub_eq h
  rw [hid, hs.sub_eq hrow] at h₁
  exact (Option.some.inj h₁).symm

theorem refresh_id {plans : List SubscriptionPlan} {kind : Option SaveKind}
    (hr : refresh fuel loc plans now sub = .ok (row, kind)) : row.id = sub.id := by
  obtain ⟨_, _, rfl, -⟩ := refresh_spec hr
  rfl

theorem sub_commit_select {chosen : UserSubscription} (hs : Valid s)
    (h : preConsumeSelect fuel loc s userId amount now = .ok (chosen, writes)) {other : UserSubscription}
    (hother : other ∈ s.subs) : (s.commit writes).sub other.id = some other ∨
      ∃ row kind, refresh fuel loc s.plans now other = .ok (row, kind) ∧ (s.commit writes).sub other.id = some row := by
  rcases sub_commit_saves (keepsKeys_of_saves (select_saves h)) (hs.sub_eq hother) with hrow | ⟨k, y, hy, hid, hrow⟩
  · exact .inl hrow
  -- The save is the refreshed row of some subscription, which has the key of `other`.
  obtain ⟨x, hx, _, _, hr, he⟩ := (select_writes h).2.2 _ hy
  cases he
  have hxo : x = other := hs.eq_of_id hx hother (by rw [← refresh_id hr, hid])
  subst hxo
  exact .inr ⟨y, some k, hr, hrow⟩

theorem preConsume_lands {requestId : String} {result : SubscriptionPreConsumeResult} (hs : Valid s)
    (hnew : s.record requestId = none)
    (h : preConsumeUserSubscription fuel loc s requestId userId amount now = .ok (result, writes)) :
    LandsEarliest fuel loc s (s.commit writes) userId amount now result.userSubscriptionId := by
  obtain ⟨-, ⟨hsome, -⟩ | ⟨chosen, resets, -, hselect, rfl, rfl⟩⟩ := preConsume_spec h
  · exact absurd hnew hsome
  obtain ⟨skipped, candidate, _, kind, _, hsubs, hc, hhold, hskip, -⟩ :=
    selectCandidate_spec (preConsumeSelect_spec hselect)
  have hcandidate := mem_activeSubs.mp (hsubs ▸ List.mem_append_right skipped List.mem_cons_self)
  have hid : chosen.id = candidate.id := refresh_id hc
  -- The charge is the last save, so it decides the row of the chosen subscription and no other.
  have hcharge : ∀ id', (s.commit (resets ++ (charge requestId userId amount chosen).2)).sub id' =
      ((s.commit resets).write (.saveSub .charge
        { chosen with amountUsed := wrap64 (chosen.amountUsed + amount) })).sub id' := by
    intro id'
    rw [commit_append]
    rfl
  refine ⟨candidate, hcandidate.1, hid.symm, hcandidate.2.1, hcandidate.2.2, ?_, ?_, ?_⟩
  · refine ⟨chosen, kind, hc, (canHold_iff (inBudget_refresh (hs.budget _ hcandidate.1) hc)).mp hhold, ?_⟩
    show (s.commit _).sub chosen.id = _
    rw [hcharge]
    obtain ⟨row, hrow⟩ : ∃ row, (s.commit resets).sub chosen.id = some row := by
      rw [hid]
      rcases sub_commit_select hs hselect hcandidate.1 with hrow | ⟨row, k, -, hrow⟩ <;> exact ⟨_, hrow⟩
    exact sub_saveSub_self hrow
  · intro other hother huser hactive ⟨row, k, hr, hroom⟩
    have hsorted := activeSubs_sorted s userId now
    have hin : other ∈ s.activeSubs userId now := mem_activeSubs.mpr ⟨hother, huser, hactive⟩
    rw [hsubs] at hsorted hin
    rcases List.mem_append.mp hin with hin | hin
    · -- A row that was passed over has no room.
      obtain ⟨y, _, hy, hfull⟩ := hskip other hin
      rw [hr] at hy
      cases hy
      exact absurd ((canHold_iff (inBudget_refresh (hs.budget _ hother) hr)).mpr hroom) hfull
    · rcases List.mem_cons.mp hin with rfl | hin
      · exact le_rfl
      · exact endTime_le_of_endsBefore (List.rel_of_pairwise_cons (List.pairwise_append.mp hsorted).2.1 hin)
  · intro other hother hne
    rw [hcharge]
    rw [sub_saveSub_ne (by show chosen.id ≠ other.id; exact fun he => hne he.symm)]
    exact sub_commit_select hs hselect hother

/-! ## Every run -/

def sampleStore : Store where
  plans := [{ samplePlan .never 0 with id := 1 }]
  subs := [sampleSub 1700000000]
  nextSubId := 2
  records := []
  users := [⟨1, "default"⟩]

theorem sampleStore_valid : Valid sampleStore where
  nodup := by decide
  fresh := by decide
  plans := by decide
  budget := by
    intro sub hsub
    rw [List.mem_singleton.mp hsub]
    exact ⟨by decide, by decide⟩

theorem run_valid {es : List Event} (hs : Valid s)
    (h : Steps (fun s e => some (s.step fuel loc e)) free s es t) : Valid t := by
  refine h.invariant ?_ hs
  intro s e t _ hinv hstep
  cases hstep
  exact step_valid e hinv

/-- A charge lands in the earliest ending subscription with room, and a known request charges nothing. -/
theorem limited_subscription_stays_in_budget (fuel : Nat) (loc : Location) (s t : Store) (es : List Event)
    (hs : Valid s) (h : Steps (fun s e => some (s.step fuel loc e)) free s es t) :
    (∀ sub ∈ t.subs, 0 < sub.amountTotal → 0 ≤ sub.amountUsed ∧ sub.amountUsed ≤ sub.amountTotal) ∧
    ∀ requestId userId amount now result writes,
      preConsumeUserSubscription fuel loc t requestId userId amount now = .ok (result, writes) →
      (t.record requestId ≠ none → writes = []) ∧
      (t.record requestId = none →
        LandsEarliest fuel loc t (t.commit writes) userId amount now result.userSubscriptionId) := by
  have ht := run_valid hs h
  refine ⟨fun sub hsub => (ht.budget sub hsub).2, ?_⟩
  intro requestId userId amount now result writes hok
  refine ⟨?_, fun hnew => preConsume_lands ht hnew hok⟩
  intro hknown
  obtain ⟨-, ⟨-, hnone⟩ | ⟨_, _, hnew, -⟩⟩ := preConsume_spec hok
  · exact hnone
  · exact absurd hnew hknown

theorem budget_after_charge_and_delta :
    Valid sampleStore ∧
    ∀ sub ∈ ((sampleStore.step 0 (.fixed 0) (.preConsume "r" 1 500 1700000100)).step 0 (.fixed 0)
        (.delta 1 200)).subs,
      0 < sub.amountTotal → 0 ≤ sub.amountUsed ∧ sub.amountUsed ≤ sub.amountTotal := by
  have hrun : Steps (fun s e => some (s.step 0 (.fixed 0) e)) free sampleStore
      [.preConsume "r" 1 500 1700000100, .delta 1 200] _ :=
    .more trivial rfl (.more trivial rfl (.done _))
  exact ⟨sampleStore_valid,
    (limited_subscription_stays_in_budget 0 (.fixed 0) _ _ _ sampleStore_valid hrun).1⟩

end NewApi.Budget
