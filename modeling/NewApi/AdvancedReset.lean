import NewApi.PeriodUsage

/-!
# After an administrator's reset

A reset that advances stores 0 where the subscription ends before the next boundary, and the helper takes a 0 for a row
without a schedule.
-/

namespace NewApi.AdvancedReset

open GoTime Table Code Ledger Run Reset Budget PeriodUsage

variable {fuel : Nat} {loc : Location} {s u : Store} {sub row : UserSubscription} {plan : SubscriptionPlan}
  {w : Write} {writes : List Write} {t now id : Int} {e : Event}

/-! ## The row after the administrator's reset -/

structure Held (loc : Location) (plan : SubscriptionPlan) (sub : UserSubscription) (t : Int) (row : UserSubscription) :
    Prop where
  id : row.id = sub.id
  planId : row.planId = sub.planId
  startTime : row.startTime = sub.startTime
  endTime : row.endTime = sub.endTime
  next : row.nextResetTime = calcNextResetTime loc t plan sub.endTime
  last : row.lastResetTime = if 0 < calcNextResetTime loc t plan sub.endTime then t else 0

def Restarts (loc : Location) (plan : SubscriptionPlan) (sub : UserSubscription) (t : Int) : Prop :=
  0 < calcNextResetTime loc t plan sub.endTime ∨ plan.quotaResetPeriod = .never ∨
    ¬ 0 < calcNextResetTime loc sub.startTime plan sub.endTime

def Before (loc : Location) (plan : SubscriptionPlan) (sub : UserSubscription) (t now : Int) : Prop :=
  0 < calcNextResetTime loc t plan sub.endTime → now < calcNextResetTime loc t plan sub.endTime

theorem held_reset (loc : Location) (plan : SubscriptionPlan) (sub : UserSubscription) (t : Int) :
    Held loc plan sub t (resetUserSubscription loc sub plan t true) := ⟨rfl, rfl, rfl, rfl, rfl, rfl⟩

theorem maybeReset_held (hheld : Held loc plan sub t row) (hrestarts : Restarts loc plan sub t)
    (hbefore : Before loc plan sub t now) : maybeReset fuel loc row plan now = .ok (row, none) := by
  unfold maybeReset
  by_cases hnext : 0 < calcNextResetTime loc t plan sub.endTime
  · rw [hheld.next, if_pos ⟨hnext, hbefore hnext⟩]
  rw [hheld.next, if_neg fun h => hnext h.1]
  by_cases hnever : plan.quotaResetPeriod = .never
  · rw [if_pos hnever]
  rw [if_neg hnever]
  have hfirst := (hrestarts.resolve_left hnext).resolve_left hnever
  -- The zero sends the helper back to the purchase, from where there is no boundary either.
  have hlast : row.lastResetTime ≤ 0 := by
    rw [hheld.last, if_neg hnext]
  have hcatch : ∀ fuel, catchUp loc plan row.endTime now fuel row.startTime
      (calcNextResetTime loc row.startTime plan row.endTime) false =
        some (row.startTime, calcNextResetTime loc row.startTime plan row.endTime, false) := by
    intro fuel
    rw [hheld.startTime, hheld.endTime]
    cases fuel with
    | zero | succ => exact if_neg fun h => hfirst h.1
  rw [← hheld.startTime, ← hheld.endTime] at hfirst
  simp only [hlast, if_true, hcatch, hfirst, and_false, if_false]
  rfl

/-! ## Writes that leave the row alone -/

def Calm (ok : UserSubscription → Prop) (id : Int) : Write → Prop
  | .saveSub kind row => row.id = id → kind ≠ .reset ∧ ok row
  | .deleteSub _ => False
  | _ => True

theorem calm_commit {ok : UserSubscription → Prop} (h : ∀ w ∈ writes, Calm ok id w) (hsub : s.sub id = some row)
    (hrow : ok row) : ∃ row', (s.commit writes).sub id = some row' ∧ ok row' := by
  induction writes generalizing s row with
  | nil => exact ⟨row, hsub, hrow⟩
  | cons w ws ih =>
    have hw := h w List.mem_cons_self
    have hws : ∀ w ∈ ws, Calm ok id w := fun w hw => h w (List.mem_cons_of_mem _ hw)
    cases w with
    | createSub => exact ih hws (lookup_append_old hsub) hrow
    | saveSub kind saved =>
      by_cases hid : saved.id = id
      · subst hid
        exact ih hws (sub_saveSub_self hsub) (hw rfl).2
      · exact ih hws ((sub_saveSub_ne hid).trans hsub) hrow
    | deleteSub => exact hw.elim
    | createRecord => exact ih hws hsub hrow
    | saveRecord => exact ih hws hsub hrow
    | setGroup => exact ih hws hsub hrow

/-! ## Every other transaction -/

theorem Held.same {old : UserSubscription} (h : Held loc plan sub t old) (hid : row.id = old.id)
    (hplan : row.planId = old.planId) (hstart : row.startTime = old.startTime) (hend : row.endTime = old.endTime)
    (hnext : row.nextResetTime = old.nextResetTime) (hlast : row.lastResetTime = old.lastResetTime) :
    Held loc plan sub t row :=
  ⟨hid.trans h.id, hplan.trans h.planId, hstart.trans h.startTime, hend.trans h.endTime, hnext.trans h.next,
    hlast.trans h.last⟩

variable (hvalid : Valid s) (hsub : s.sub sub.id = some row) (hheld : Held loc plan sub t row)
include hvalid hsub hheld

theorem calm_save {old new : UserSubscription} {kind : SaveKind} (hold : old ∈ s.subs) (hkind : kind ≠ .reset)
    (hid : new.id = old.id) (hplan : new.planId = old.planId) (hstart : new.startTime = old.startTime)
    (hend : new.endTime = old.endTime) (hnext : new.nextResetTime = old.nextResetTime)
    (hlast : new.lastResetTime = old.lastResetTime) : Calm (Held loc plan sub t) sub.id (.saveSub kind new) := by
  intro hkey
  have hrow : old = row := by
    have hfound := hvalid.sub_eq hold
    rw [← hid, hkey, hsub] at hfound
    exact (Option.some.inj hfound).symm
  subst hrow
  exact ⟨hkind, hheld.same hid hplan hstart hend hnext hlast⟩

theorem delta_calm {amount : Int} (h : postConsumeUserSubscriptionDelta s id amount = .ok writes) (hw : w ∈ writes) :
    Calm (Held loc plan sub t) sub.id w := by
  rcases delta_spec h with ⟨-, rfl⟩ | ⟨_, hold, -, rfl⟩
  · cases hw
  · rw [List.mem_singleton.mp hw]
    exact calm_save hvalid hsub hheld (mem_of_sub hold) (by decide) rfl rfl rfl rfl rfl rfl

theorem refund_calm {requestId : String} {fails : Faults}
    (hw : w ∈ (refundSubscriptionPreConsume s requestId fails).2) : Calm (Held loc plan sub t) sub.id w := by
  rcases refund_writes hw with ⟨_, _, _, hdelta, hw⟩ | ⟨_, rfl⟩
  · exact delta_calm hvalid hsub hheld hdelta hw
  · trivial

theorem expire_calm {userId : Int} (h : expireUserSubscriptions s userId now = .ok writes) (hw : w ∈ writes) :
    Calm (Held loc plan sub t) sub.id w := by
  have hmarks : ∀ w ∈ markExpired s userId now, Calm (Held loc plan sub t) sub.id w := by
    intro w hw
    obtain ⟨_, hold, -, -, rfl⟩ := mem_markExpired hw
    exact calm_save hvalid hsub hheld hold (by decide) rfl rfl rfl rfl rfl rfl
  rcases expire_spec h with rfl | ⟨_, _, -, -, -, -, rfl⟩
  · exact hmarks w hw
  rcases List.mem_append.mp hw with hw | hw
  · exact hmarks w hw
  · rw [List.mem_singleton.mp hw]
    trivial

theorem preConsume_calm {requestId : String} {userId amount : Int} {result : SubscriptionPreConsumeResult}
    (hrestarts : Restarts loc plan sub t) (hbefore : Before loc plan sub t now)
    (hplan : getSubscriptionPlanById s.plans sub.planId = .ok plan)
    (h : preConsumeUserSubscription fuel loc s requestId userId amount now = .ok (result, writes)) (hw : w ∈ writes) :
    Calm (Held loc plan sub t) sub.id w := by
  have hquiet : ∀ {x y : UserSubscription} {k : Option SaveKind}, x ∈ s.subs →
      refresh fuel loc s.plans now x = .ok (y, k) → y.id = sub.id → y = row ∧ k = none := by
    intro x y k hx hy hkey
    have hrow : x = row := by
      have hfound := hvalid.sub_eq hx
      rw [← refresh_id hy, hkey, hsub] at hfound
      exact (Option.some.inj hfound).symm
    subst hrow
    have hsame := refresh_plan (hheld.planId ▸ hplan) hy
    rw [maybeReset_held hheld hrestarts hbefore] at hsame
    cases hsame
    exact ⟨rfl, rfl⟩
  cases preConsume_writes h hw with
  | refreshed hx hy =>
    intro hkey
    cases (hquiet hx hy hkey).2
  | charged hx hy =>
    intro hkey
    obtain ⟨rfl, -⟩ := hquiet hx hy hkey
    exact ⟨by decide, hheld.same rfl rfl rfl rfl rfl rfl⟩
  | recorded => trivial

omit hvalid in
theorem resetDue_calm {plan' : SubscriptionPlan} {id' : Int} (hbefore : Before loc plan sub t now)
    (hw : w ∈ (Event.resetDue plan' id' now).writes fuel loc s) : Calm (Held loc plan sub t) sub.id w := by
  rcases resetDue_cases fuel loc s plan' id' now with
    ⟨hnil, -⟩ | ⟨locked, y, kind, hlocked, hpos, hdue, hr, hwrites, -⟩
  · rw [hnil] at hw
    cases hw
  rw [hwrites] at hw
  obtain ⟨k, rfl, rfl⟩ := mem_saveOf.mp hw
  intro hkey
  rw [maybeReset_id hr, id_of_sub hlocked] at hkey
  rw [hkey, hsub] at hlocked
  cases hlocked
  rw [hheld.next] at hpos hdue
  exact absurd (hbefore hpos) (not_lt.mpr hdue)

omit hvalid hsub hheld

theorem purchase_calm {userId planId : Int} {source : String} {ok : UserSubscription → Prop}
    (hw : w ∈ (Event.purchase userId planId source now).writes fuel loc s) : Calm ok id w := by
  obtain ⟨_, -, ⟨_, _, rfl⟩ | ⟨-, rfl⟩⟩ := mem_purchase hw
  · trivial
  · trivial

/-! ## Every run -/

def Resets (fuel : Nat) (loc : Location) (s : Store) (e : Event) (id : Int) : Prop :=
  ∃ row, row.id = id ∧ .saveSub .reset row ∈ e.writes fuel loc s

def Advances (t : Int) : Event → Prop
  | .resetUser _ _ now advance => now = t ∧ advance = true
  | .resetPlan _ now advance => now = t ∧ advance = true
  | _ => False

/-- Only charges and background runs, and before the next boundary. -/
def Follows (loc : Location) (plan : SubscriptionPlan) (sub : UserSubscription) (t : Int) : Event → Prop
  | .preConsume _ _ _ now => Before loc plan sub t now
  | .resetDue plan' id now => Before loc plan sub t now ∧ (id = sub.id → plan' = plan)
  | .purchase _ _ _ _ | .delta _ _ | .refund _ _ | .expire _ _ => True
  | .resetUser _ _ _ _ | .resetPlan _ _ _ | .invalidate _ _ | .delete _ _ => False

theorem follows_calm (hvalid : Valid s) (hsub : s.sub sub.id = some row) (hheld : Held loc plan sub t row)
    (hrestarts : Restarts loc plan sub t) (hplan : getSubscriptionPlanById s.plans sub.planId = .ok plan)
    (he : Follows loc plan sub t e) (hw : w ∈ e.writes fuel loc s) : Calm (Held loc plan sub t) sub.id w := by
  cases e with
  | purchase => exact purchase_calm hw
  | preConsume =>
    obtain ⟨writes, hr, hw⟩ := mem_committed hw
    obtain ⟨_, hr⟩ := map_eq_ok hr
    exact preConsume_calm hvalid hsub hheld hrestarts he hplan hr hw
  | delta =>
    obtain ⟨writes, hr, hw⟩ := mem_committed hw
    exact delta_calm hvalid hsub hheld hr hw
  | refund => exact refund_calm hvalid hsub hheld hw
  | resetDue => exact resetDue_calm hsub hheld he.1 hw
  | expire =>
    obtain ⟨_, hr, hw⟩ := mem_committed hw
    exact expire_calm hvalid hsub hheld hr hw
  | resetUser | resetPlan | invalidate | delete => exact he.elim

theorem resetAll_row {planId : Int} {plan' : SubscriptionPlan} {subs : List UserSubscription}
    (hplan : getSubscriptionPlanById s.plans sub.planId = .ok plan)
    (hread : getSubscriptionPlanById s.plans planId = .ok plan')
    (hsubs : ∀ x ∈ subs, x ∈ s.subs ∧ x.planId = plan'.id) (hw : w ∈ resetAll loc plan' t true subs) :
    ∃ old ∈ s.subs, ∃ new, w = .saveSub .reset new ∧ new.id = old.id ∧
      (old = sub → new = resetUserSubscription loc sub plan t true) := by
  obtain ⟨old, hold, rfl⟩ := mem_resetAll hw
  obtain ⟨hmem, hid⟩ := hsubs old hold
  refine ⟨old, hmem, _, rfl, rfl, ?_⟩
  rintro rfl
  rw [hid, id_of_plan hread, hread] at hplan
  cases hplan
  rfl

theorem advances_writes (hplan : getSubscriptionPlanById s.plans sub.planId = .ok plan) (he : Advances t e)
    (hw : w ∈ e.writes fuel loc s) : ∃ old ∈ s.subs, ∃ new, w = .saveSub .reset new ∧ new.id = old.id ∧
      (old = sub → new = resetUserSubscription loc sub plan t true) := by
  cases e with
  | resetUser =>
    obtain ⟨rfl, rfl⟩ := he
    obtain ⟨writes, hr, hw⟩ := mem_committed hw
    obtain ⟨result, hr⟩ := map_eq_ok hr
    obtain ⟨plan', subs, hread, rfl, hsubs⟩ := adminResetUser_spec hr
    exact resetAll_row hplan hread hsubs hw
  | resetPlan =>
    obtain ⟨rfl, rfl⟩ := he
    obtain ⟨_, hr, hw⟩ := mem_committed hw
    obtain ⟨_, hr⟩ := map_eq_ok hr
    obtain ⟨_, _, hread, rfl, hsubs⟩ := adminResetPlan_spec hr
    exact resetAll_row hplan hread hsubs hw
  | _ => exact he.elim

theorem row_advanced (hvalid : Valid s) (hsub : s.sub sub.id = some sub)
    (hplan : getSubscriptionPlanById s.plans sub.planId = .ok plan) (he : Advances t e)
    (hresets : Resets fuel loc s e sub.id) :
    (s.step fuel loc e).sub sub.id = some (resetUserSubscription loc sub plan t true) := by
  have hkeys : ∀ w ∈ e.writes fuel loc s, KeepsKeys w := by
    intro w hw
    obtain ⟨-, -, new, rfl, -⟩ := advances_writes hplan he hw
    trivial
  obtain ⟨row, hrow⟩ : ∃ row, (s.step fuel loc e).sub sub.id = some row := by
    rcases sub_commit_saves hkeys hsub with hrow | ⟨-, row, -, -, hrow⟩ <;> exact ⟨_, hrow⟩
  have hid : row.id = sub.id := id_of_sub hrow
  rw [hrow]
  -- The row is one that the call has saved, since it has saved one with this key.
  rcases mem_commit_subs (mem_of_sub hrow) with ⟨-, hkept⟩ | ⟨_, hsave⟩ | hnew
  · obtain ⟨new, hnew, hmem⟩ := hresets
    exact absurd (hnew.trans hid.symm) (hkept _ _ hmem)
  · obtain ⟨_, hold, _, hnew, hkey, hsame⟩ := advances_writes hplan he hsave
    cases hnew
    rw [hsame (hvalid.eq_of_id hold (mem_of_sub hsub) (hkey.symm.trans hid))]
  · exact (hkeys _ hnew).elim

structure Kept (loc : Location) (plan : SubscriptionPlan) (sub : UserSubscription) (t : Int) (u : Store) : Prop where
  valid : Valid u
  stored : getSubscriptionPlanById u.plans sub.planId = .ok plan
  row : ∃ row, u.sub sub.id = some row ∧ Held loc plan sub t row

theorem Kept.step (h : Kept loc plan sub t u) (hrestarts : Restarts loc plan sub t) (he : Follows loc plan sub t e) :
    Kept loc plan sub t (u.step fuel loc e) := by
  obtain ⟨_, hrow, hheld⟩ := h.row
  refine ⟨step_valid e h.valid, ?_,
    calm_commit (fun w hw => follows_calm h.valid hrow hheld hrestarts h.stored he hw) hrow hheld⟩
  rw [Store.step, commit_plans]
  exact h.stored

/-- Nothing resets the subscription before the next boundary. -/
theorem advanced_reset_restarts (fuel : Nat) (loc : Location) (plan : SubscriptionPlan) (s : Store)
    (sub : UserSubscription) (t : Int) (e : Event) (es : List Event) (u : Store) (hvalid : Valid s)
    (hsub : s.sub sub.id = some sub) (hplan : getSubscriptionPlanById s.plans sub.planId = .ok plan)
    (he : Advances t e) (hresets : Resets fuel loc s e sub.id) (hrestarts : Restarts loc plan sub t)
    (hrun : Steps (fun s e => some (s.step fuel loc e)) (fun _ e => Follows loc plan sub t e) (s.step fuel loc e) es u) :
    ∀ e', Follows loc plan sub t e' → ¬ Resets fuel loc u e' sub.id := by
  have hkept : Kept loc plan sub t u := by
    refine hrun.invariant ?_ ?_
    · intro u e v hok hu hstep
      cases hstep
      exact hu.step hrestarts hok
    · refine ⟨step_valid e hvalid, ?_, _, row_advanced hvalid hsub hplan he hresets, held_reset loc plan sub t⟩
      rw [Store.step, commit_plans]
      exact hplan
  obtain ⟨_, hrow, hheld⟩ := hkept.row
  rintro _ hok ⟨_, hid, hw⟩
  exact (follows_calm hkept.valid hrow hheld hrestarts hkept.stored hok hw hid).1 rfl

/-! ## A subscription of 150000 seconds that resets after 100000 -/

def customPlan : SubscriptionPlan := { samplePlan .custom 100000 with id := 1 }

def customSub : UserSubscription := newSubscription (.fixed 0) 1 1 customPlan "order" 1700000000 1700150000 "default"

def customStore : Store := { sampleStore with plans := [customPlan], subs := [customSub] }

theorem customStore_valid : Valid customStore where
  nodup := by decide
  fresh := by decide
  plans := by decide
  budget := by
    intro sub hsub
    rw [List.mem_singleton.mp hsub]
    exact ⟨by decide, by decide⟩

theorem advanced_reset_restarts_custom :
    ∃ u, Steps (fun s e => some (s.step 5 (.fixed 0) e)) (fun _ e => Follows (.fixed 0) customPlan customSub 1700040000 e)
        (customStore.step 5 (.fixed 0) (.resetUser 1 1 1700040000 true)) [.preConsume "a" 1 400 1700110000] u ∧
      ¬ Resets 5 (.fixed 0) u (.resetDue customPlan 1 1700120000) 1 := by
  have hcalc : calcNextResetTime (.fixed 0) 1700040000 customPlan customSub.endTime = 1700140000 := by decide
  have hbefore : ∀ now < 1700140000, Before (.fixed 0) customPlan customSub 1700040000 now := by
    intro now hnow _
    rw [hcalc]
    exact hnow
  refine ⟨_, .more (hbefore _ (by decide)) rfl (.done _), ?_⟩
  exact advanced_reset_restarts 5 (.fixed 0) customPlan customStore customSub 1700040000 (.resetUser 1 1 1700040000 true)
    [.preConsume "a" 1 400 1700110000] _ customStore_valid (by decide) (by decide) ⟨rfl, rfl⟩
    ⟨resetUserSubscription (.fixed 0) customSub customPlan 1700040000 true, rfl, by decide +kernel⟩ (.inl (by rw [hcalc]; decide)) (.more (hbefore _ (by decide)) rfl (.done _))
    (.resetDue customPlan 1 1700120000) ⟨hbefore _ (by decide), fun _ => rfl⟩

/-- The next boundary lies beyond the end, so the next pre-consume counts from the purchase again. -/
theorem reset_after_advance :
    ∃ fuel loc plan s sub t e es u e', Valid s ∧ s.sub sub.id = some sub ∧
      getSubscriptionPlanById s.plans sub.planId = .ok plan ∧ Advances t e ∧ Resets fuel loc s e sub.id ∧
      Steps (fun s e => some (s.step fuel loc e)) (fun _ e => Follows loc plan sub t e) (s.step fuel loc e) es u ∧
      calcNextResetTime loc t plan sub.endTime = 0 ∧ Follows loc plan sub t e' ∧ Resets fuel loc u e' sub.id ∧
      (u.sub sub.id).map UserSubscription.amountUsed = some 400 ∧
      ((u.step fuel loc e').sub sub.id).map UserSubscription.amountUsed = some 0 := by
  have hcalc : calcNextResetTime (.fixed 0) 1700090000 customPlan customSub.endTime = 0 := by decide
  have hbefore : ∀ now, Before (.fixed 0) customPlan customSub 1700090000 now := by
    intro now hpos
    rw [hcalc] at hpos
    exact absurd hpos (by decide)
  refine ⟨5, .fixed 0, customPlan, customStore, customSub, 1700090000, .resetUser 1 1 1700090000 true,
    [.preConsume "a" 1 400 1700095000], _, .resetDue customPlan 1 1700100500, customStore_valid, by decide, by decide,
    ⟨rfl, rfl⟩,
    ⟨resetUserSubscription (.fixed 0) customSub customPlan 1700090000 true, rfl, by decide +kernel⟩, .more (hbefore _) rfl (.done _), hcalc, ⟨hbefore _, fun _ => rfl⟩,
    ?_, by decide +kernel, by decide +kernel⟩
  refine ⟨{ customSub with amountUsed := 0, lastResetTime := 1700100000, nextResetTime := 0 }, rfl, ?_⟩
  decide +kernel

end NewApi.AdvancedReset
