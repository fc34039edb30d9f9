import NewApi.Tasks.Once

/-!
# Unfinished tasks are found

Both queries leave out tasks with the progress 100%, which is what the provider reports, whatever the status.
-/

namespace NewApi.Tasks

open Table Code.Tasks Run

/-- The answer does not report 100% with a status that is not terminal. -/
def Honest (info : TaskInfo) : Prop := info.status.isDone = false → info.progress ≠ "100%"

def Work.Honest : Work → Prop
  | .single _ _ (.response _ _ (.newApi _ info)) | .single _ _ (.response _ _ (.adaptor info)) => Tasks.Honest info
  | .batchItem _ _ _ item => Tasks.Honest item.taskInfo
  | _ => True

/-- The reports are honest, and no copy that is done is looked at again. -/
def Shows (id : Int) (s : State) : Event → Prop
  | .work w _ _ => ∀ copy ∈ s.target w, copy.2.id = id → copy.2.status.isDone = false ∧ w.Honest
  | _ => True

instance : DecidablePred Work.Honest := by
  intro w
  unfold Work.Honest Tasks.Honest
  split <;> infer_instance

instance (id : Int) (s : State) : (e : Event) → Decidable (Shows id s e)
  | .work w _ _ => inferInstanceAs (Decidable (∀ copy ∈ s.target w, copy.2.id = id →
      copy.2.status.isDone = false ∧ w.Honest))
  | .query _ | .observe _ | .wait _ | .timedOut _ | .nullTasks _ _ | .missingChannel _ _ _ | .bill _ _ _
  | .writeBack _ _ => inferInstanceAs (Decidable True)

def Visible (task : Task) : Prop := task.status.isDone = false → task.progress ≠ "100%"

instance (task : Task) : Decidable (Visible task) := inferInstanceAs (Decidable (_ → _))

theorem unfinished_of_visible {task : Task} (h : Visible task) (hopen : task.status.isDone = false) :
    unfinished task = true := by
  unfold unfinished
  simp only [decide_eq_true_eq]
  refine ⟨h hopen, ?_, ?_⟩ <;> intro hstatus <;> rw [hstatus] at hopen <;> cases hopen

/-! ## Attempts -/

section Attempts

variable {settings : TaskSettings} {now : Int} {task : Task}

theorem visible_of_done (h : task.status.isDone = true) : Visible task := by
  intro hopen
  rw [h] at hopen
  cases hopen

theorem recordPollFailure_visible {fromStatus : TaskStatus} (h : Visible task) :
    Visible (recordPollFailure settings now task fromStatus).task := by
  unfold recordPollFailure
  dsimp only
  split
  · exact visible_of_done rfl
  · exact h

theorem applyStatus_progress {info : TaskInfo} (hstatus : info.status.isDone = false) (h : task.progress ≠ "100%") :
    (applyStatus settings now task info).progress ≠ "100%" := by
  unfold applyStatus
  cases hinfo : info.status with
  | submitted =>
    show "10%" ≠ "100%"
    decide
  | queued =>
    show "20%" ≠ "100%"
    decide
  | inProgress =>
    show "30%" ≠ "100%"
    decide
  | success | failure =>
    rw [hinfo] at hstatus
    cases hstatus
  | notStart | unknown | other => exact h

theorem mergeTaskResult_visible {body : String} {info : TaskInfo} (h : Visible task)
    (hopen : task.status.isDone = false) (hhonest : Honest info) :
    Visible (mergeTaskResult settings now task body info) := by
  intro hmerged
  have hstatus : info.status.isDone = false := by
    rw [(mergeTaskResult_same settings now task body info).2.2] at hmerged
    exact hmerged
  have hinfo : completeInfo info = info := if_neg (ne_of_isDone hstatus rfl)
  unfold mergeTaskResult
  dsimp only
  rw [hinfo]
  split
  · exact hhonest hstatus
  · exact applyStatus_progress hstatus (h hopen)

theorem applyTaskResult_visible {snap : TaskSnapshot} {httpClass : PollClass} {body : String} {info : TaskInfo}
    (h : Visible task) (hopen : task.status.isDone = false) (hhonest : Honest info) :
    Visible (applyTaskResult settings now snap task httpClass body info).task := by
  have hmerge : Visible (mergeTaskResult settings now task body info) := mergeTaskResult_visible h hopen hhonest
  unfold applyTaskResult
  dsimp only
  split
  · exact recordPollFailure_visible h
  split
  · exact recordPollFailure_visible h
  · split
    · exact hmerge
    · split <;> exact hmerge

theorem updateBatchTask_visible {statusCode : Int} {item : BatchTaskResult} (h : Visible task)
    (hopen : task.status.isDone = false) (hhonest : Honest item.taskInfo) :
    Visible (updateBatchTask settings now statusCode task item).task := by
  unfold updateBatchTask
  dsimp only
  split
  · exact recordPollFailure_visible h
  split
  · exact recordPollFailure_visible h
  intro hmerged
  unfold mergeBatchResult at hmerged ⊢
  dsimp only at hmerged ⊢
  split at hmerged
  · cases hmerged
  rename_i hfailed
  have hnot : ¬ ((decide (item.taskInfo.reason ≠ "" ∨ item.taskInfo.status = .failure)) = true ∨
      item.taskInfo.status = .success) := by
    rintro (hfalse | hsuccess)
    · exact hfailed hfalse
    · rw [hsuccess] at hmerged
      cases hmerged
  rw [if_neg hnot]
  split
  · exact hhonest hmerged
  · exact h hopen

theorem attempt_visible (w : Work) (h : Visible task) (hopen : task.status.isDone = false) (hhonest : w.Honest) :
    Visible (w.attempt settings now task).task := by
  cases w with
  | single =>
    simp only [Work.attempt, updateVideoSingleTask]
    split
    · exact recordPollFailure_visible h
    split
    · exact visible_of_done rfl
    · exact recordPollFailure_visible h
    · exact recordPollFailure_visible h
    split
    · exact recordPollFailure_visible h
    · exact applyTaskResult_visible h hopen hhonest
    · exact applyTaskResult_visible h hopen hhonest
  | batchItem => exact updateBatchTask_visible h hopen hhonest
  | batchFailure =>
    simp only [Work.attempt]
    split
    · exact visible_of_done rfl
    · exact recordPollFailure_visible h
  | sweep =>
    simp only [Work.attempt, sweepTimedOutTask]
    split <;> exact visible_of_done rfl

end Attempts

/-! ## Steps -/

structure Seen (id : Int) (s : State) : Prop where
  row : ∃ row, s.db.find id = some row ∧ Visible row
  copies : ∀ (i : Nat) (task : Task), s.heap[i]? = some task → task.id = id → Visible task

section Steps

variable {settings : TaskSettings} {id : Int} {s t : State}

theorem seen_read (h : Seen id s) (tasks : List Task) (passes : List Pass) (timedOut : List Nat)
    (hread : ∀ task ∈ tasks, task ∈ s.db.rows) : Seen id { s with heap := s.heap ++ tasks, passes, timedOut } := by
  refine ⟨h.row, ?_⟩
  intro i task hi hid
  rcases List.mem_append.mp (List.mem_of_getElem? hi) with hold | hnew
  · obtain ⟨j, hj⟩ := List.getElem?_of_mem hold
    exact h.copies j task hj hid
  obtain ⟨_, hrow, hvisible⟩ := h.row
  have hfind := find_of_mem (hread task hnew)
  rw [hid, hrow] at hfind
  rwa [← Option.some.inj hfind]

theorem seen_bulk (h : Seen id s) (passes : List Pass) (ids : List Int) (failReason : Option String) (fails : Bool) :
    Seen id { s with db := s.db.taskBulkUpdateByID ids failReason fails, passes } := by
  refine ⟨?_, h.copies⟩
  obtain ⟨row, hrow, hvisible⟩ := h.row
  rw [find_taskBulkUpdateByID, hrow]
  split
  · exact ⟨bulkFailure failReason row, rfl, visible_of_done rfl⟩
  · exact ⟨row, rfl, hvisible⟩

theorem seen_attempt {address : Nat} {a : Attempt} {fails : Bool} (h : Seen id s)
    (hvisible : a.task.id = id → Visible a.task) : Seen id (s.attempt address a fails) := by
  constructor
  · obtain ⟨row, hrow, hold⟩ := h.row
    simp only [State.attempt]
    rcases update_spec s a fails with hlost | ⟨_, -, -, hwon⟩
    · rw [hlost]
      exact ⟨row, hrow, hold⟩
    rw [hwon, find_save, hrow]
    split
    · exact ⟨a.task, rfl, hvisible ‹_›⟩
    · exact ⟨row, rfl, hold⟩
  · intro i task hi hid
    simp only [State.attempt] at hi
    rw [List.getElem?_set] at hi
    split at hi
    · split at hi
      · cases hi
        exact hvisible hid
      · cases hi
    · exact h.copies i task hi hid

theorem seen_step {e : Event} (hok : Shows id s e) (h : Seen id s) (hstep : step settings s e = some t) : Seen id t := by
  cases effect_of_step hstep with
  | read _ tasks passes timedOut hread => exact seen_read h tasks passes timedOut fun task htask => (hread task htask).1
  | bulk _ ids failReason fails passes => exact seen_bulk h passes ids failReason fails
  | work w now fails address task htarget =>
    have hdrop : Seen id (s.drop w) := by
      cases w <;> exact ⟨h.row, h.copies⟩
    refine seen_attempt hdrop ?_
    intro hid
    have htask := (attempt_id settings now task w).symm.trans hid
    obtain ⟨hopen, hhonest⟩ := hok (address, task) htarget htask
    exact attempt_visible w (h.copies address task (heap_of_target htarget) htask) hopen hhonest
  | bill =>
    unfold State.settle
    split
    · exact ⟨h.row, h.copies⟩
    refine ⟨h.row, ?_⟩
    intro i task hi hid
    rw [getElem?_settled] at hi
    obtain ⟨old, hold, rfl⟩ := Option.map_eq_some_iff.mp hi
    split at hid
    · rw [if_pos ‹_›]
      exact h.copies i old hold hid
    · rw [if_neg ‹_›]
      exact h.copies i old hold hid
  | writeBack k fails q =>
    refine ⟨?_, h.copies⟩
    obtain ⟨_, hrow, hvisible⟩ := h.row
    obtain ⟨after, hafter, hstatus, hprogress, -⟩ := find_updateQuota s.db q.1 q.2 fails hrow
    refine ⟨after, hafter, ?_⟩
    unfold Visible at hvisible ⊢
    rwa [hstatus, hprogress]

/-! ## What the queries find -/

section

variable {db : TaskTable} {row : Task} (hrow : row ∈ db.rows) (hunfinished : unfinished row = true)
include hrow hunfinished

theorem mem_getAllUnFinishSyncTasks {limit : Nat}
    (hrank : (db.rows.filter fun y => unfinished y ∧ y.id ≤ row.id ∧ y ≠ row).length < limit) :
    row ∈ getAllUnFinishSyncTasks db limit :=
  mem_page hrow hunfinished hrank

theorem mem_getTimedOutUnfinishedTasks {cutoff : Int} {limit : Nat} (hold : row.submitTime < cutoff)
    (hrank : (db.rows.filter fun y => (unfinished y ∧ y.submitTime < cutoff) ∧ y.submitTime ≤ row.submitTime ∧ y ≠ row).length < limit)
    : row ∈ getTimedOutUnfinishedTasks db cutoff limit := by
  refine mem_page hrow ?_ ?_
  · simpa using ⟨hunfinished, hold⟩
  · simpa using hrank

end

/-! ## Sweeps -/

def State.late (s : State) (cutoff : Int) : Nat :=
  (s.db.rows.filter fun task => unfinished task ∧ task.submitTime < cutoff).length

/-- Every statement and every refund goes through. -/
def Sweeps (now : Int) (e : Event) : Prop :=
  e = .timedOut now ∨ (∃ k, e = .work (.sweep k) now false) ∨ ∃ k usage, e = .bill k usage false

theorem sweepTimedOutTask_fails (now : Int) (task : Task) :
    (sweepTimedOutTask now task).task.id = task.id ∧ (sweepTimedOutTask now task).task.status = .failure ∧
      (sweepTimedOutTask now task).write = some task.status := by
  unfold sweepTimedOutTask
  split <;> exact ⟨rfl, rfl, rfl⟩

theorem sweepTimedOutTask_refunds (now : Int) {task : Task} (hlegacy : isLegacy task = false) (hquota : task.quota ≠ 0) :
    (sweepTimedOutTask now task).after = .refund ∧ (sweepTimedOutTask now task).task.quota = task.quota := by
  unfold sweepTimedOutTask
  rw [if_neg (Bool.eq_false_iff.mp hlegacy)]
  exact ⟨if_pos hquota, rfl⟩

theorem attempt_of_won (address : Nat) {a : Attempt} {db : TaskTable} (h : s.update a false = (true, db)) :
    (s.attempt address a false).db = db ∧
      (a.after ≠ .nothing → (s.attempt address a false).bills = s.bills ++ [⟨address, a.task, a.after⟩]) := by
  simp only [State.attempt]
  rw [h]
  refine ⟨rfl, ?_⟩
  intro hafter
  rw [if_neg]
  rintro (hnothing | ⟨-, hlost⟩)
  · exact hafter hnothing
  · cases hlost

theorem sweep_head (id : Int) {now : Int} {x : Task} {rest : List Task} (hminutes : 0 < settings.taskTimeoutMinutes)
    (hpage : getTimedOutUnfinishedTasks s.db (now - settings.taskTimeoutMinutes * 60) sweepLimit = x :: rest) :
    ∃ es u, (∀ e ∈ es, Sweeps now e) ∧ Steps (step settings) (Shows id) s es u ∧
      u.db = s.db.save (sweepTimedOutTask now x).task ∧
      ((sweepTimedOutTask now x).after = .refund →
        u.bills = s.bills ++ [⟨s.heap.length, (sweepTimedOutTask now x).task, .refund⟩]) := by
  obtain ⟨hrow, hunfinished, -⟩ := mem_of_timedOutTasks (hpage ▸ List.mem_cons_self)
  obtain ⟨hid, -, hwrite⟩ := sweepTimedOutTask_fails now x
  let read : State := { s with
    heap := s.heap ++ x :: rest
    timedOut := s.timedOut ++ (addresses s.heap (x :: rest)).map Prod.fst }
  have hread : step settings s (.timedOut now) = some read := by
    simp only [step]
    rw [if_neg (by omega), hpage]
  have htarget : read.target (.sweep s.timedOut.length) = some (s.heap.length, x) := by
    simp [read, State.target, addresses]
  let w : Work := .sweep s.timedOut.length
  have hwon : (read.drop w).update (sweepTimedOutTask now x) false =
      (true, s.db.save (sweepTimedOutTask now x).task) := by
    unfold State.update TaskTable.updateWithStatus
    rw [hwrite]
    simp [w, read, State.drop, hid, find_of_mem hrow]
  obtain ⟨hdb, hbills⟩ := attempt_of_won s.heap.length hwon
  refine ⟨[.timedOut now, .work w now false], (read.drop w).attempt s.heap.length (sweepTimedOutTask now x) false, ?_,
    .more trivial hread (.more ?_ ?_ (.done _)), hdb, ?_⟩
  · intro e he
    simp only [List.mem_cons, List.not_mem_nil, or_false] at he
    rcases he with rfl | rfl
    · exact .inl rfl
    · exact .inr (.inl ⟨_, rfl⟩)
  · intro copy hcopy _
    rw [htarget] at hcopy
    cases hcopy
    exact ⟨isDone_of_unfinished hunfinished, trivial⟩
  · rw [step, htarget]
    rfl
  · intro hrefund
    rw [hbills (by rw [hrefund]; exact After.noConfusion), hrefund]
    rfl

theorem unfinished_of_sweep (now : Int) (task : Task) : unfinished (sweepTimedOutTask now task).task = false := by
  unfold unfinished
  rw [(sweepTimedOutTask_fails now task).2.1]
  simp

theorem late_sweep {cutoff now : Int} {x : Task} {u : State} (hrow : x ∈ s.db.rows) (hunfinished : unfinished x = true)
    (hold : x.submitTime < cutoff) (hdb : u.db = s.db.save (sweepTimedOutTask now x).task) :
    u.late cutoff < s.late cutoff := by
  unfold State.late
  rw [hdb]
  refine length_filter_save hrow (sweepTimedOutTask_fails now x).1 ?_ ?_
  · simpa using ⟨hunfinished, hold⟩
  · simp [unfinished_of_sweep]

theorem bill_refund (settings : TaskSettings) (id now : Int) {b : Bill} {bills : List Bill} (hbills : s.bills = bills ++ [b])
    (hafter : b.after = .refund) (hquota : b.task.quota ≠ 0) :
    ∃ e u, Sweeps now e ∧ Steps (step settings) (Shows id) s [e] u ∧ u.db = s.db ∧
      ⟨b.task.id, .refund, -b.task.quota⟩ ∈ u.settlements := by
  have hget : s.bills[bills.length]? = some b := by
    rw [hbills]
    simp
  have hcharge : b.charge noUsage = .refund := by
    unfold Bill.charge
    rw [hafter]
  have happly : Charge.apply b.task.quota false .refund = some (-b.task.quota, some 0) := by
    simp [Charge.apply, hquota]
  refine ⟨.bill bills.length noUsage false,
    { s with bills := s.bills.eraseIdx bills.length }.settle b .refund false, ?_, .more trivial ?_ (.done _), ?_, ?_⟩
  · exact .inr (.inr ⟨_, _, rfl⟩)
  · rw [step, hget, ← hcharge]
    rfl
  · unfold State.settle
    rw [happly]
  · unfold State.settle
    rw [happly]
    simp

theorem swept {now : Int} {row : Task} (hminutes : 0 < settings.taskTimeoutMinutes)
    (hold : row.submitTime < now - settings.taskTimeoutMinutes * 60) (hrow : row ∈ s.db.rows)
    (hunfinished : unfinished row = true) :
    ∃ es u after, (∀ e ∈ es, Sweeps now e) ∧ Steps (step settings) (Shows id) s es u ∧
      u.db.find row.id = some after ∧ after.status = .failure ∧
      (isLegacy row = false → row.quota ≠ 0 → ⟨row.id, .refund, -row.quota⟩ ∈ u.settlements) := by
  -- The induction is on the number of tasks that are late; each sweep fails the first of them.
  induction hn : s.late (now - settings.taskTimeoutMinutes * 60) using Nat.strong_induction_on generalizing s with
  | _ n ih =>
    obtain ⟨x, rest, hpage⟩ : ∃ x rest, getTimedOutUnfinishedTasks s.db (now - settings.taskTimeoutMinutes * 60)
        sweepLimit = x :: rest := by
      apply List.exists_cons_of_ne_nil
      intro hempty
      have hmem : row ∈ s.db.rows.filter fun task =>
          unfinished task ∧ task.submitTime < now - settings.taskTimeoutMinutes * 60 :=
        List.mem_filter.mpr ⟨hrow, by simpa using ⟨hunfinished, hold⟩⟩
      rw [getTimedOutUnfinishedTasks, List.take_eq_nil_iff] at hempty
      rcases hempty with hzero | hnil
      · cases hzero
      · rw [← List.mem_insertionSort fun a b : Task => a.submitTime ≤ b.submitTime, hnil] at hmem
        cases hmem
    obtain ⟨hx, hxopen, hxold⟩ := mem_of_timedOutTasks (hpage ▸ List.mem_cons_self)
    obtain ⟨hid, hfailure, -⟩ := sweepTimedOutTask_fails now x
    obtain ⟨es, u, hes, hsteps, hdb, hbills⟩ := sweep_head id hminutes hpage
    by_cases hxrow : x = row
    · subst hxrow
      have hfind : u.db.find x.id = some (sweepTimedOutTask now x).task := by
        rw [hdb, find_save, if_pos hid, find_of_mem hx]
        rfl
      by_cases hrefund : isLegacy x = false ∧ x.quota ≠ 0
      · obtain ⟨hafter, hquota⟩ := sweepTimedOutTask_refunds now hrefund.1 hrefund.2
        obtain ⟨e, v, he, hlast, hsame, hpaid⟩ := bill_refund settings id now (hbills hafter) rfl
          (hquota ▸ hrefund.2)
        refine ⟨es ++ [e], v, _, ?_, hsteps.append hlast, hsame ▸ hfind, hfailure, ?_⟩
        · intro e' he'
          rcases List.mem_append.mp he' with hmem | hmem
          · exact hes e' hmem
          · rw [List.mem_singleton.mp hmem]
            exact he
        · rw [hid, hquota] at hpaid
          exact fun _ _ => hpaid
      · exact ⟨es, u, _, hes, hsteps, hfind, hfailure, fun hl hq => absurd ⟨hl, hq⟩ hrefund⟩
    · have hne : x.id ≠ row.id := by
        intro heq
        have hfind := find_of_mem hx
        rw [heq, find_of_mem hrow] at hfind
        exact hxrow (Option.some.inj hfind).symm
      have hkept : row ∈ u.db.rows := by
        have hfind : u.db.find row.id = some row := by
          rw [hdb, find_save, if_neg (hid ▸ hne), find_of_mem hrow]
        exact mem_of_lookup hfind
      obtain ⟨es', v, after, hes', hsteps', hrest⟩ := ih _ (hn ▸ late_sweep hx hxopen hxold hdb) hkept rfl
      refine ⟨es ++ es', v, after, ?_, hsteps.append hsteps', hrest⟩
      intro e he
      exact (List.mem_append.mp he).elim (hes e) (hes' e)

end Steps

/-- Unless the page is full of others. A sweeper that goes on fails it and pays its charge back. -/
theorem unfinished_task_found (settings : TaskSettings) (db : TaskTable) (first : Task)
    (hfirst : db.find first.id = some first) (hvisible : Visible first) (es : List Event) (t : State)
    (hrun : Steps (step settings) (Shows first.id) (State.start db) es t) (row : Task)
    (hrow : t.db.find first.id = some row) (hopen : row.status.isDone = false) :
    unfinished row = true ∧
    (∀ limit, (t.db.rows.filter fun y => unfinished y ∧ y.id ≤ row.id ∧ y ≠ row).length < limit →
      row ∈ getAllUnFinishSyncTasks t.db limit) ∧
    (∀ cutoff limit, row.submitTime < cutoff →
      (t.db.rows.filter fun y =>
        (unfinished y ∧ y.submitTime < cutoff) ∧ y.submitTime ≤ row.submitTime ∧ y ≠ row).length < limit →
      row ∈ getTimedOutUnfinishedTasks t.db cutoff limit) ∧
    ∀ now, 0 < settings.taskTimeoutMinutes → row.submitTime < now - settings.taskTimeoutMinutes * 60 →
      ∃ es' u after, (∀ e ∈ es', Sweeps now e) ∧ Steps (step settings) (Shows first.id) t es' u ∧
        u.db.find first.id = some after ∧ after.status = .failure ∧
        (isLegacy row = false → row.quota ≠ 0 → ⟨first.id, .refund, -row.quota⟩ ∈ u.settlements) := by
  have hstart : Seen first.id (State.start db) := by
    refine ⟨⟨first, hfirst, hvisible⟩, ?_⟩
    intro i task hi
    cases hi
  have hseen : Seen first.id t := hrun.invariant (fun _ _ _ hok h hstep => seen_step hok h hstep) hstart
  obtain ⟨_, hrow', hshown⟩ := hseen.row
  cases hrow'.symm.trans hrow
  have hunfinished : unfinished row = true := unfinished_of_visible hshown hopen
  have hmem : row ∈ t.db.rows := mem_of_lookup hrow
  refine ⟨hunfinished, ?_, ?_, ?_⟩
  · intro limit hrank
    exact mem_getAllUnFinishSyncTasks hmem hunfinished hrank
  · intro cutoff limit hold hrank
    exact mem_getTimedOutUnfinishedTasks hmem hunfinished hold hrank
  · intro now hminutes hold
    rw [← id_of_find hrow]
    exact swept hminutes hold hmem hunfinished

def reported (status : String) (progress : Int) : Answer :=
  .response 200 "body" (.adaptor (seedanceTaskResult status (some progress) ""))

theorem unfinished_task_found_running : ∃ t row, Steps (step sampleSettings) (Shows 1) (State.start oneTask)
      [.query "sora", .work (.single 0 0 (reported "running" 60)) 1780000100 false] t ∧
    t.db.find 1 = some row ∧ row.progress = "60%" ∧ row ∈ getAllUnFinishSyncTasks t.db 1000 ∧
    ∃ es' u after, (∀ e ∈ es', Sweeps 1780100000 e) ∧ Steps (step sampleSettings) (Shows 1) t es' u ∧
      u.db.find 1 = some after ∧ after.status = .failure ∧
      (isLegacy row = false → row.quota ≠ 0 → ⟨1, .refund, -row.quota⟩ ∈ u.settlements) := by
  have hreach : ((run (step sampleSettings) (Shows 1) (State.start oneTask)
      [.query "sora", .work (.single 0 0 (reported "running" 60)) 1780000100 false]).bind fun t =>
        (t.db.find 1).map fun row => (row.status.isDone, row.progress, row.submitTime,
          decide ((t.db.rows.filter fun y => unfinished y ∧ y.id ≤ row.id ∧ y ≠ row).length < 1000))) =
      some (false, "60%", 1780000000, true) := by
    decide +kernel
  obtain ⟨t, ht, hmore⟩ := Option.bind_eq_some_iff.mp hreach
  obtain ⟨row, hrow, hfacts⟩ := Option.map_eq_some_iff.mp hmore
  simp only [Prod.mk.injEq, decide_eq_true_eq] at hfacts
  obtain ⟨hopen, hprogress, hsubmit, hrank⟩ := hfacts
  have hrun := steps_of_run ht
  obtain ⟨-, hquery, -, hsweep⟩ := unfinished_task_found sampleSettings oneTask (sampleTask 1 "task_a")
    (by decide +kernel) (by decide +kernel) _ t hrun row hrow hopen
  refine ⟨t, row, hrun, hrow, hprogress, hquery 1000 hrank, hsweep 1780100000 (by decide) ?_⟩
  rw [hsubmit]
  decide

/-- A provider that says "running" and 100% hides the task from both queries. -/
theorem unfinished_task_hidden : ∃ t row, Steps (step sampleSettings) free (State.start oneTask)
      [.query "sora", .work (.single 0 0 (reported "running" 100)) 1780000100 false] t ∧
    t.db.find 1 = some row ∧ row.status = .inProgress ∧
    (∀ limit, row ∉ getAllUnFinishSyncTasks t.db limit) ∧
    ∀ cutoff limit, row ∉ getTimedOutUnfinishedTasks t.db cutoff limit := by
  have hreach : ((run (step sampleSettings) free (State.start oneTask)
      [.query "sora", .work (.single 0 0 (reported "running" 100)) 1780000100 false]).bind fun t =>
        (t.db.find 1).map fun row => (row.status, unfinished row)) = some (.inProgress, false) := by
    decide +kernel
  obtain ⟨t, ht, hmore⟩ := Option.bind_eq_some_iff.mp hreach
  obtain ⟨row, hrow, hfacts⟩ := Option.map_eq_some_iff.mp hmore
  rw [Prod.mk.injEq] at hfacts
  obtain ⟨hstatus, hhidden⟩ := hfacts
  refine ⟨t, row, steps_of_run ht, hrow, hstatus, ?_, ?_⟩
  · intro limit hmem
    rw [(mem_of_unfinishedTasks hmem).2] at hhidden
    cases hhidden
  · intro cutoff limit hmem
    rw [(mem_of_timedOutTasks hmem).2.1] at hhidden
    cases hhidden

end NewApi.Tasks

