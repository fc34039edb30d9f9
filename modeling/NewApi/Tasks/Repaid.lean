import NewApi.Tasks.Once

/-!
# A failed task is not kept paid

A task that fails through a guarded update is refunded or charged for its usage.
-/

namespace NewApi.Tasks

open Code.Tasks Run

def Priced : Charge → Prop
  | .recalculate actualQuota => 0 ≤ actualQuota
  | _ => True

instance (c : Charge) : Decidable (Priced c) := by
  cases c <;> unfold Priced <;> infer_instance

/-- The funding source takes the charge, which is not negative. -/
def Repays (id : Int) (s : State) (e : Event) : Prop :=
  Once id s e ∧
  match e with
  | .bill k usage fails => ∀ b ∈ s.bills[k]?, b.task.id = id → fails = false ∧ Priced (b.charge usage)
  | _ => True

instance (id : Int) (s : State) : (e : Event) → Decidable (Repays id s e)
  | .bill k usage fails => inferInstanceAs (Decidable (Once id s (.bill k usage fails) ∧
      ∀ b ∈ s.bills[k]?, b.task.id = id → fails = false ∧ Priced (b.charge usage)))
  | .query _ | .observe _ | .wait _ | .timedOut _ | .nullTasks _ _ | .missingChannel _ _ _ | .work _ _ _
  | .writeBack _ _ => inferInstanceAs (Decidable (_ ∧ True))

def Repaid (charge : Int) (x : Settlement) : Prop :=
  x.charge = .refund ∧ x.delta = -charge ∨
    ∃ actual, x.charge = .recalculate actual ∧ 0 ≤ actual ∧ x.delta = actual - charge

/-- One billing is waiting or done, or an old task has lost its quota. -/
def Repaying (id charge : Int) (s : State) : Prop :=
  ∀ row, s.db.find id = some row → row.status = .failure →
    (∃ b, s.billsOf id = [b] ∧ b.task.status = .failure ∧ b.after ≠ .nothing ∧ s.settlementsOf id = []) ∨
    (s.billsOf id = [] ∧ ∃ x, s.settlementsOf id = [x] ∧ Repaid charge x) ∨
    (isLegacy row = true ∧ row.quota = 0 ∧ s.billsOf id = [] ∧ s.settlementsOf id = [])

variable {settings : TaskSettings} {id charge : Int} {s t : State} {address : Nat} {task : Task} {a : Attempt}
  {fails : Bool}

/-! ## Attempts -/

theorem recordPollFailure_billed {now : Int} {fromStatus : TaskStatus} (hopen : task.status.isDone = false)
    (h : (recordPollFailure settings now task fromStatus).task.status = .failure) :
    (recordPollFailure settings now task fromStatus).after ≠ .nothing := by
  unfold recordPollFailure at h ⊢
  dsimp only at h ⊢
  split at h
  · rw [if_pos ‹_›]
    exact nofun
  · rw [h] at hopen
    cases hopen

theorem applyTaskResult_billed {now : Int} {snap : TaskSnapshot} {httpClass : PollClass} {body : String}
    {info : TaskInfo} (hopen : task.status.isDone = false)
    (h : (applyTaskResult settings now snap task httpClass body info).task.status = .failure) :
    (applyTaskResult settings now snap task httpClass body info).after ≠ .nothing := by
  unfold applyTaskResult at h ⊢
  dsimp only at h ⊢
  split at h
  · rw [if_pos ‹_›]
    exact recordPollFailure_billed hopen h
  rw [if_neg ‹_›]
  split at h
  · rw [if_pos ‹_›]
    exact recordPollFailure_billed hopen h
  rw [if_neg ‹_›]
  have hstatus : (mergeTaskResult settings now task body info).status = .failure := by
    split at h
    · exact h
    · split at h <;> exact h
  simp only [hstatus, TaskStatus.isDone]
  split
  · exact nofun
  · split <;> exact nofun

theorem attempt_billed {now : Int} (w : Work) (hopen : task.status.isDone = false) (hquota : task.quota ≠ 0)
    (h : (w.attempt settings now task).task.status = .failure) : (w.attempt settings now task).after ≠ .nothing ∨
      isLegacy (w.attempt settings now task).task = true ∧ (w.attempt settings now task).task.quota = 0 := by
  cases w with
  | single =>
    left
    simp only [Work.attempt, updateVideoSingleTask] at h ⊢
    split at h
    · exact recordPollFailure_billed hopen h
    split at h
    · simp [failTaskFromPoll]
    · exact recordPollFailure_billed hopen h
    · exact recordPollFailure_billed hopen h
    split at h
    · exact recordPollFailure_billed hopen h
    · exact applyTaskResult_billed hopen h
    · exact applyTaskResult_billed hopen h
  | batchItem pass upstreamID statusCode item =>
    left
    simp only [Work.attempt, updateBatchTask] at h ⊢
    split at h
    · rw [if_pos ‹_›]
      exact recordPollFailure_billed hopen h
    rw [if_neg ‹_›]
    split at h
    · rw [if_pos ‹_›]
      exact recordPollFailure_billed hopen h
    rw [if_neg ‹_›]
    have hdone : (mergeBatchResult task item).status.isDone = true := by
      rw [h]
      rfl
    rw [if_pos ⟨hdone, ne_of_isDone hopen hdone⟩]
    simp
  | batchFailure pass k notFound =>
    left
    simp only [Work.attempt] at h ⊢
    cases notFound with
    | true => simp [failTaskFromPoll]
    | false => exact recordPollFailure_billed hopen h
  | sweep =>
    simp only [Work.attempt, sweepTimedOutTask]
    split
    · rename_i hlegacy
      exact .inr ⟨hlegacy, rfl⟩
    · exact .inl (by simp)

theorem repaying_attempt (hinv : Inv id charge s) (h : Repaying id charge s) (haddress : s.heap[address]? = some task)
    (hkeep : a.task.id = task.id) (hopen : task.id = id → task.status.isDone = false)
    (hguard : task.id = id → Guarded task a)
    (hbilled : task.id = id → task.quota = charge → a.task.status = .failure →
      a.after ≠ .nothing ∨ isLegacy a.task = true ∧ a.task.quota = 0) :
    Repaying id charge (s.attempt address a fails) := by
  by_cases hid : a.task.id = id
  · have htask := hkeep.symm.trans hid
    rcases update_spec s a fails with hlost | ⟨row, hwrite, hrow, hwon⟩
    · rw [attempt_lost (hguard htask) hlost]
      exact h
    -- The row was not done, so this is the first billing.
    have hstatus : row.status.isDone = false := by
      rcases (hguard htask).write with hsome | ⟨hnone, -⟩
      · rw [hwrite] at hsome
        rw [Option.some.inj hsome]
        exact hopen htask
      · rw [hwrite] at hnone
        cases hnone
    obtain ⟨_, hrow', hbefore, -⟩ := hinv.finalised
    rw [hid] at hrow
    cases hrow.symm.trans hrow'
    obtain ⟨-, -, hbills, hsettlements⟩ := hbefore hstatus
    intro after hafter hfailed
    have hsame : after = a.task := by
      simp only [State.attempt] at hafter
      rw [hwon, find_save, if_pos hid, hrow] at hafter
      exact (Option.some.inj hafter).symm
    subst hsame
    have hbill := hbilled htask (hinv.copies address task haddress htask (hopen htask)) hfailed
    by_cases hnothing : a.after = .nothing
    · obtain ⟨hlegacy, hzero⟩ := hbill.resolve_left fun hafter => hafter hnothing
      refine .inr (.inr ⟨hlegacy, hzero, ?_, hsettlements⟩)
      simp only [State.billsOf, State.attempt]
      rw [if_pos (.inl hnothing)]
      exact hbills
    · refine .inl ⟨⟨address, a.task, a.after⟩, ?_, hfailed, hnothing, hsettlements⟩
      have hwin : ¬ (a.after = .nothing ∨ a.needsWin ∧ (s.update a fails).1 = false) := by
        rintro (hfalse | ⟨-, hfalse⟩)
        · exact hnothing hfalse
        · rw [hwon] at hfalse
          cases hfalse
      simp only [State.billsOf, State.attempt] at hbills ⊢
      rw [if_neg hwin, List.filter_append, hbills]
      simp [hid]
  · have hwrite : Repaying id charge (s.attempt address a fails) ↔ Repaying id charge s := by
      unfold Repaying
      rw [show (s.attempt address a fails).db.find id = s.db.find id from attempt_find_other hid,
        show (s.attempt address a fails).billsOf id = s.billsOf id from attempt_bills_other hid]
      rfl
    exact hwrite.mpr h

/-! ## Billing -/

theorem settle_of_failed (info : TaskInfo) (usage : Usage) (hstatus : task.status = .failure) :
    settleTaskBillingOnComplete task info usage = none ∨
      ∃ actual, settleTaskBillingOnComplete task info usage = some (.recalculate actual) := by
  unfold settleTaskBillingOnComplete
  split
  · exact .inl rfl
  split
  · exact .inl rfl
  split
  · exact .inr ⟨_, rfl⟩
  extract_lets tokens
  split
  · cases usage.byTokens tokens with
    | none => exact .inl rfl
    | some actual => exact .inr ⟨actual, rfl⟩
  · exact .inl rfl

theorem charge_of_failed {b : Bill} (usage : Usage) (hafter : b.after ≠ .nothing) (hstatus : b.task.status = .failure)
    (hquota : b.task.quota ≠ 0) : b.charge usage = .refund ∨ ∃ actual, b.charge usage = .recalculate actual := by
  unfold Bill.charge
  split
  · exact absurd ‹_› hafter
  · rename_i info hinfo
    unfold finalizeTerminalTask
    rcases settle_of_failed info usage hstatus with hnone | ⟨actual, hactual⟩
    · rw [hnone]
      exact .inl (if_pos ⟨hstatus, hquota⟩)
    · rw [hactual]
      exact .inr ⟨actual, rfl⟩
  · exact .inl rfl

theorem apply_repaid (id : Int) {c : Charge} {quota : Int} (hquota : quota ≠ 0)
    (h : c = .refund ∨ ∃ actual, c = .recalculate actual ∧ 0 ≤ actual) :
    ∃ delta after, c.apply quota false = some (delta, after) ∧ Repaid quota ⟨id, c, delta⟩ := by
  rcases h with rfl | ⟨actual, rfl, hactual⟩
  · refine ⟨-quota, some 0, ?_, .inl ⟨rfl, rfl⟩⟩
    simp [Charge.apply, hquota]
  by_cases hsame : actual - quota = 0
  · refine ⟨0, none, ?_, .inr ⟨actual, rfl, hactual, hsame.symm⟩⟩
    rw [Charge.apply, if_neg (by omega), if_pos hsame]
  · refine ⟨actual - quota, some actual, ?_, .inr ⟨actual, rfl, hactual, rfl⟩⟩
    rw [Charge.apply, if_neg (by omega), if_neg hsame]
    rfl

theorem settle_find (s : State) (b : Bill) (c : Charge) (fails : Bool) (id : Int) :
    (s.settle b c fails).db.find id = s.db.find id := by
  unfold State.settle
  split <;> rfl

theorem settle_bills (s : State) (b : Bill) (c : Charge) (fails : Bool) : (s.settle b c fails).bills = s.bills := by
  unfold State.settle
  split <;> rfl

theorem settle_settlements_other {b : Bill} {c : Charge} (hid : b.task.id ≠ id) :
    (s.settle b c fails).settlementsOf id = s.settlementsOf id := by
  unfold State.settle
  split
  · rfl
  · simp only [State.settlementsOf]
    rw [List.filter_append]
    simp [hid]

theorem repaying_bill_other {k : Nat} {b : Bill} {c : Charge} (h : Repaying id charge s) (hb : s.bills[k]? = some b)
    (hid : b.task.id ≠ id) : Repaying id charge ({ s with bills := s.bills.eraseIdx k }.settle b c fails) := by
  have hbills : ({ s with bills := s.bills.eraseIdx k }.settle b c fails).billsOf id = s.billsOf id := by
    rw [State.billsOf, settle_bills]
    exact billsOf_erase_other hb hid
  unfold Repaying
  rw [settle_find, hbills, settle_settlements_other hid]
  exact h

theorem repaying_bill {k : Nat} {b : Bill} {usage : Usage} (hinv : Inv id charge s) (hcharge : charge ≠ 0)
    (h : Repaying id charge s) (hb : s.bills[k]? = some b) (hid : b.task.id = id) (hpriced : Priced (b.charge usage)) :
    Repaying id charge ({ s with bills := s.bills.eraseIdx k }.settle b (b.charge usage) false) := by
  obtain ⟨_, -, -, hpaid⟩ := hinv.addressed b (List.mem_of_getElem? hb)
  have hquota : b.task.quota = charge := (hpaid hid).1
  have hmem : b ∈ s.billsOf id := List.mem_filter.mpr ⟨List.mem_of_getElem? hb, by simpa using hid⟩
  intro row hrow hfailed
  rw [settle_find] at hrow
  rcases h row hrow hfailed with ⟨_, hbills, hstatus, hafter, hnone⟩ | ⟨hbills, -⟩ | ⟨-, -, hbills, -⟩
  · rw [hbills] at hmem
    obtain rfl := List.mem_singleton.mp hmem
    have hempty : ((s.bills.eraseIdx k).filter fun x => decide (x.task.id = id)) = [] := by
      have hcount := billsOf_erase id hb
      rw [hbills, if_pos hid] at hcount
      exact List.length_eq_zero_iff.mp (by simpa using hcount)
    have hkind : b.charge usage = .refund ∨ ∃ actual, b.charge usage = .recalculate actual ∧ 0 ≤ actual := by
      rcases charge_of_failed usage hafter hstatus (hquota ▸ hcharge) with hrefund | ⟨actual, hactual⟩
      · exact .inl hrefund
      · rw [hactual] at hpriced
        exact .inr ⟨actual, hactual, hpriced⟩
    obtain ⟨delta, _, happly, hrepaid⟩ := apply_repaid b.task.id (hquota ▸ hcharge : b.task.quota ≠ 0) hkind
    rw [hquota] at hrepaid
    refine .inr (.inl ⟨?_, ⟨b.task.id, b.charge usage, delta⟩, ?_, hrepaid⟩)
    · rw [State.billsOf, settle_bills]
      exact hempty
    unfold State.settle
    rw [happly]
    simp only [State.settlementsOf] at hnone ⊢
    rw [List.filter_append, hnone]
    simp [hid]
  · rw [hbills] at hmem
    cases hmem
  · rw [hbills] at hmem
    cases hmem

/-! ## Runs -/

theorem repaying_step {e : Event} (hcharge : charge ≠ 0) (hok : Repays id s e) (hinv : Inv id charge s)
    (h : Repaying id charge s) (hstep : step settings s e = some t) : Repaying id charge t := by
  obtain ⟨honce, hmore⟩ := hok
  cases effect_of_step hstep with
  | read => exact h
  | bulk _ ids failReason fails passes hids =>
    intro row hrow
    rw [find_bulk_other s.db failReason (hids id honce)] at hrow
    exact h row hrow
  | work w now fails address task htarget =>
    have hdrop : Inv id charge (s.drop w) ∧ Repaying id charge (s.drop w) ∧ (s.drop w).heap = s.heap := by
      cases w <;> exact ⟨⟨hinv.copies, hinv.addressed, hinv.writeBacks, hinv.finalised⟩, h, rfl⟩
    have hopen := honce (address, task) htarget
    refine repaying_attempt hdrop.1 hdrop.2.1 (hdrop.2.2 ▸ heap_of_target htarget) (attempt_id settings now task w) hopen
      (fun hid => attempt_guarded w (hopen hid)) ?_
    intro hid hquota hfailed
    exact attempt_billed w (hopen hid) (hquota ▸ hcharge) hfailed
  | bill k usage fails b hb =>
    by_cases hid : b.task.id = id
    · obtain ⟨rfl, hpriced⟩ := hmore b hb hid
      exact repaying_bill hinv hcharge h hb hid hpriced
    · exact repaying_bill_other h hb hid
  | writeBack k fails q hq =>
    intro after hafter hfailed
    obtain ⟨row, hrow, -⟩ := hinv.finalised
    obtain ⟨_, hafter', hstatus, -, hsame⟩ := find_updateQuota s.db q.1 q.2 fails hrow
    cases hafter'.symm.trans hafter
    rcases h row hrow (hstatus.symm.trans hfailed) with hwaiting | hdone | ⟨hlegacy, hzero, hbills, hnone⟩
    · exact .inl hwaiting
    · exact .inr (.inl hdone)
    -- An old task has no billing, so the quota that is written is another's.
    have hne : q.1 ≠ id := fun hid => hinv.writeBacks q (List.mem_of_getElem? hq) hid hnone
    rw [hsame hne]
    exact .inr (.inr ⟨hlegacy, hzero, hbills, hnone⟩)

/-- Waiting, paid back or replaced, or the task is an old one without a quota. -/
theorem failed_task_repaid (settings : TaskSettings) (db : TaskTable) (row : Task) (hrow : db.find row.id = some row)
    (hopen : row.status.isDone = false) (hcharge : 0 < row.quota) (es : List Event) (t : State)
    (hrun : Steps (step settings) (Repays row.id) (State.start db) es t) (after : Task)
    (hafter : t.db.find row.id = some after) (hfailed : after.status = .failure) :
    ((t.billsOf row.id).length = 1 ∧ t.settlementsOf row.id = []) ∨
    (t.billsOf row.id = [] ∧ ∃ x, t.settlementsOf row.id = [x] ∧ Repaid row.quota x) ∨
    (isLegacy after = true ∧ after.quota = 0 ∧ t.billsOf row.id = [] ∧ t.settlementsOf row.id = []) := by
  have hstart : Repaying row.id row.quota (State.start db) := by
    intro first hfirst hfailure
    cases hrow.symm.trans hfirst
    rw [hfailure] at hopen
    cases hopen
  have hkeep : ∀ u e v, Repays row.id u e → Inv row.id row.quota u ∧ Repaying row.id row.quota u →
      step settings u e = some v → Inv row.id row.quota v ∧ Repaying row.id row.quota v := by
    rintro u e v hok ⟨hinv, hu⟩ hstep
    exact ⟨inv_step hok.1 hinv hstep, repaying_step hcharge.ne' hok hinv hu hstep⟩
  obtain ⟨-, hend⟩ := hrun.invariant hkeep ⟨inv_start hrow hopen, hstart⟩
  rcases hend after hafter hfailed with ⟨b, hbills, -, -, hnone⟩ | hdone | hlegacy
  · exact .inl ⟨by rw [hbills]; rfl, hnone⟩
  · exact .inr (.inl hdone)
  · exact .inr (.inr hlegacy)

theorem failed_task_repaid_timeout : ∃ t after, Steps (step sampleSettings) (Repays 1) (State.start oneTask)
      [.timedOut 1780100000, .work (.sweep 0) 1780100000 false, .bill 0 noUsage false] t ∧
    t.db.find 1 = some after ∧ after.status = .failure ∧
    (((t.billsOf 1).length = 1 ∧ t.settlementsOf 1 = []) ∨
      (t.billsOf 1 = [] ∧ ∃ x, t.settlementsOf 1 = [x] ∧ Repaid 100 x) ∨
      (isLegacy after = true ∧ after.quota = 0 ∧ t.billsOf 1 = [] ∧ t.settlementsOf 1 = [])) := by
  have hfailed : (run (step sampleSettings) (Repays 1) (State.start oneTask)
      [.timedOut 1780100000, .work (.sweep 0) 1780100000 false, .bill 0 noUsage false]).map
        (fun t => (t.db.find 1).map Task.status) = some (some .failure) := by
    decide +kernel
  obtain ⟨t, ht, hstatus⟩ := Option.map_eq_some_iff.mp hfailed
  obtain ⟨after, hafter, hstatus⟩ := Option.map_eq_some_iff.mp hstatus
  have hrun := steps_of_run ht
  exact ⟨t, after, hrun, hafter, hstatus, failed_task_repaid sampleSettings oneTask (sampleTask 1 "task_a")
    (by decide +kernel) rfl (by decide) _ t hrun after hafter hstatus⟩

def oldTask : TaskTable := ⟨[{ sampleTask 1 "task_a" with submitTime := 1771718399 }], by decide⟩

def nameless : TaskTable := ⟨[{ sampleTask 1 "" with privateData := ⟨"", "", none, "", 0⟩ }], by decide⟩

theorem failed_task_kept_paid :
    (∃ t, Steps (step sampleSettings) free (State.start oldTask)
        [.timedOut 1780100000, .work (.sweep 0) 1780100000 false] t ∧
      (t.db.find 1).map Task.status = some .failure ∧ t.bills = [] ∧ t.settlements = []) ∧
    (∃ t, Steps (step sampleSettings) free (State.start oneTask) [.query "sora", .missingChannel 0 7 false] t ∧
      (t.db.find 1).map Task.status = some .failure ∧ t.bills = [] ∧ t.settlements = []) ∧
    ∃ t, Steps (step sampleSettings) free (State.start nameless) [.query "sora", .nullTasks 0 false] t ∧
      (t.db.find 1).map Task.status = some .failure ∧ t.bills = [] ∧ t.settlements = [] := by
  have hreach : ∀ db es, (run (step sampleSettings) free (State.start db) es).map
        (fun t => ((t.db.find 1).map Task.status, t.bills, t.settlements)) = some (some .failure, [], []) →
      ∃ t, Steps (step sampleSettings) free (State.start db) es t ∧
        (t.db.find 1).map Task.status = some .failure ∧ t.bills = [] ∧ t.settlements = [] := by
    intro db es h
    obtain ⟨t, ht, hall⟩ := Option.map_eq_some_iff.mp h
    rw [Prod.mk.injEq, Prod.mk.injEq] at hall
    exact ⟨t, steps_of_run ht, hall⟩
  exact ⟨hreach _ _ (by decide +kernel), hreach _ _ (by decide +kernel), hreach _ _ (by decide +kernel)⟩

end NewApi.Tasks
