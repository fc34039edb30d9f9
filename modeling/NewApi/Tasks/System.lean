import NewApi.Code.Task
import NewApi.Lib.Run

/-!
# Pollers and the sweeper

Each statement is one step, and so is each change of a funding source. A copy is known by its address.
-/

namespace NewApi.Tasks

open Table Code.Tasks

/-- With the copy as it was when the billing began. -/
structure Bill where
  address : Nat
  task : Task
  after : After
deriving DecidableEq

structure Settlement where
  id : Int
  charge : Charge
  delta : Int
deriving DecidableEq

/-- `heap` are the copies, `timedOut` those still to be swept. `wins` and `settlements`: who moved a task, and what was
charged. -/
structure State where
  db : TaskTable
  heap : List Task
  passes : List Pass
  timedOut : List Nat
  bills : List Bill
  writeBacks : List (Int × Int)
  wins : List (Int × TaskStatus)
  settlements : List Settlement
deriving DecidableEq

/-- A single answer, an item of a batch, a failure of a batch, or a time-out. -/
inductive Work where
  | single (pass k : Nat) (answer : Answer)
  | batchItem (pass : Nat) (upstreamID : String) (statusCode : Int) (item : BatchTaskResult)
  | batchFailure (pass k : Nat) (notFound : Bool)
  | sweep (k : Nat)
deriving DecidableEq

inductive Event where
  | query (platform : String)
  | observe (id : Int)
  | wait (address : Nat)
  | timedOut (now : Int)
  | nullTasks (pass : Nat) (fails : Bool)
  | missingChannel (pass : Nat) (channelId : Int) (fails : Bool)
  | work (w : Work) (now : Int) (fails : Bool)
  | bill (k : Nat) (usage : Usage) (fails : Bool)
  | writeBack (k : Nat) (fails : Bool)

/-! ## Steps -/

def addresses (heap tasks : List Task) : List (Nat × Task) := (tasks.zipIdx heap.length).map Prod.swap

def taskPlatformMidjourney : String := "mj"

/-- Midjourney tasks are not polled here. -/
def planFor (platform : String) (tasks : List (Nat × Task)) : Pass :=
  if platform = taskPlatformMidjourney then { plan tasks with taskM := [], taskChannelM := [] } else plan tasks

def singlePass (address : Nat) (task : Task) : Pass :=
  ⟨[(task.getUpstreamTaskID, address)], [(task.channelId, task.getUpstreamTaskID)], []⟩

def bulkReason : String := "Failed to get the channel information. Please contact the administrator"

def State.failedIDs (s : State) (p : Pass) (channelId : Int) : List Int :=
  (p.taskChannelM.filter fun entry => entry.1 = channelId).filterMap fun entry =>
    (p.task entry.2).bind fun address => s.heap[address]?.map Task.id

def State.entry (s : State) (p : Pass) (k : Nat) : Option (Nat × Task) :=
  p.taskChannelM[k]?.bind fun entry => (p.task entry.2).bind fun address =>
    s.heap[address]?.map fun task => (address, task)

def State.target (s : State) : Work → Option (Nat × Task)
  | .single pass k _ | .batchFailure pass k _ => s.passes[pass]?.bind fun p => s.entry p k
  | .batchItem pass upstreamID _ _ =>
    s.passes[pass]?.bind fun p => (p.task upstreamID).bind fun address =>
      s.heap[address]?.map fun task => (address, task)
  | .sweep k => s.timedOut[k]?.bind fun address => s.heap[address]?.map fun task => (address, task)

/-- An entry of a list is worked off once. -/
def State.drop (s : State) : Work → State
  | .single pass k _ | .batchFailure pass k _ =>
    { s with passes := s.passes.modify pass fun p => { p with taskChannelM := p.taskChannelM.eraseIdx k } }
  | .batchItem _ _ _ _ => s
  | .sweep k => { s with timedOut := s.timedOut.eraseIdx k }

def Work.attempt (settings : TaskSettings) (now : Int) (task : Task) : Work → Attempt
  | .single _ _ answer => updateVideoSingleTask settings now task answer
  | .batchItem _ _ statusCode item => updateBatchTask settings now statusCode task item
  | .batchFailure _ _ notFound =>
    if notFound then failTaskFromPoll now task task.status "Upstream task not found"
    else recordPollFailure settings now task task.status
  | .sweep _ => sweepTimedOutTask now task

def State.update (s : State) (a : Attempt) (fails : Bool) : Bool × TaskTable :=
  match a.write with
  | none => (false, s.db)
  | some fromStatus => s.db.updateWithStatus a.task fromStatus fails

def State.attempt (s : State) (address : Nat) (a : Attempt) (fails : Bool) : State :=
  let won := (s.update a fails).1
  { s with
    db := (s.update a fails).2
    heap := s.heap.set address a.task
    wins := if won ∧ a.task.status.isDone then s.wins ++ [(a.task.id, a.task.status)] else s.wins
    bills :=
      if a.after = .nothing ∨ a.needsWin ∧ won = false then s.bills else s.bills ++ [⟨address, a.task, a.after⟩] }

def Bill.charge (b : Bill) (usage : Usage) : Charge :=
  match b.after with
  | .nothing => .keep
  | .finalize info => finalizeTerminalTask b.task info usage
  | .refund => .refund

def State.settle (s : State) (b : Bill) (charge : Charge) (fails : Bool) : State :=
  match charge.apply b.task.quota fails with
  | none => s
  | some (delta, quota) =>
    { s with
      settlements := s.settlements ++ [⟨b.task.id, charge, delta⟩]
      heap := quota.elim s.heap fun quota => s.heap.modify b.address fun task => { task with quota }
      writeBacks := quota.elim s.writeBacks fun quota => s.writeBacks ++ [(b.task.id, quota)] }

def sweepLimit : Nat := 100

def step (settings : TaskSettings) (s : State) : Event → Option State
  | .query platform =>
    let tasks := (getAllUnFinishSyncTasks s.db settings.taskQueryLimit).filter fun task => task.platform = platform
    let pass := planFor platform (addresses s.heap tasks)
    some { s with heap := s.heap ++ tasks, passes := s.passes ++ [pass] }
  | .observe id =>
    match s.db.find id with
    | none => none
    | some task =>
      if task.status.isDone then none
      else some { s with heap := s.heap ++ [task], passes := s.passes ++ [singlePass s.heap.length task] }
  | .wait address =>
    match s.heap[address]? with
    | none => none
    | some task => if task.status.isDone then none else some { s with passes := s.passes ++ [singlePass address task] }
  | .nullTasks pass fails =>
    s.passes[pass]?.map fun p => { s with db := s.db.taskBulkUpdateByID p.nullTaskIds none fails }
  | .missingChannel pass channelId fails =>
    s.passes[pass]?.map fun p =>
      let taskChannelM := p.taskChannelM.filter fun entry => entry.1 ≠ channelId
      { s with
        db := s.db.taskBulkUpdateByID (s.failedIDs p channelId) (some bulkReason) fails
        passes := s.passes.set pass { p with taskChannelM } }
  | .timedOut now =>
    if settings.taskTimeoutMinutes ≤ 0 then some s
    else
      let tasks := getTimedOutUnfinishedTasks s.db (now - settings.taskTimeoutMinutes * 60) sweepLimit
      some { s with
        heap := s.heap ++ tasks
        timedOut := s.timedOut ++ (addresses s.heap tasks).map Prod.fst }
  | .work w now fails =>
    (s.target w).map fun (address, task) => (s.drop w).attempt address (w.attempt settings now task) fails
  | .bill k usage fails =>
    s.bills[k]?.map fun b => { s with bills := s.bills.eraseIdx k }.settle b (b.charge usage) fails
  | .writeBack k fails =>
    s.writeBacks[k]?.map fun (id, quota) =>
      { s with db := s.db.updateQuota id quota fails, writeBacks := s.writeBacks.eraseIdx k }

def State.start (db : TaskTable) : State := ⟨db, [], [], [], [], [], [], []⟩

/-! ## The table -/

section Table

variable {db : TaskTable} {task row : Task} {id : Int} {fromStatus : TaskStatus} {fails : Bool}

theorem find_of_mem (h : task ∈ db.rows) : db.find task.id = some task := lookup_of_mem db.nodup h

theorem id_of_find (h : db.find id = some row) : row.id = id := key_of_lookup h

theorem find_save (db : TaskTable) (task : Task) (id : Int) :
    (db.save task).find id = if task.id = id then (db.find id).map fun _ => task else db.find id :=
  lookup_save db.rows task id

theorem updateWithStatus_spec (db : TaskTable) (task : Task) (fromStatus : TaskStatus) (fails : Bool) :
    db.updateWithStatus task fromStatus fails = (false, db) ∨
    ∃ row, db.find task.id = some row ∧ row.status = fromStatus ∧
      db.updateWithStatus task fromStatus fails = (true, db.save task) := by
  unfold TaskTable.updateWithStatus
  split
  · exact .inl rfl
  split
  · exact .inl rfl
  rename_i row hrow
  split
  · rename_i hstatus
    exact .inr ⟨row, hrow, hstatus, rfl⟩
  · exact .inl rfl

theorem find_updateQuota (db : TaskTable) (id' quota : Int) (fails : Bool) (h : db.find id = some row) :
    ∃ after, (db.updateQuota id' quota fails).find id = some after ∧ after.status = row.status ∧
      after.progress = row.progress ∧ (id' ≠ id → after = row) := by
  unfold TaskTable.updateQuota
  split
  · exact ⟨row, h, rfl, rfl, fun _ => rfl⟩
  split
  · exact ⟨row, h, rfl, rfl, fun _ => rfl⟩
  rename_i old hold
  rw [find_save, id_of_find hold]
  split
  · rename_i heq
    subst heq
    cases hold.symm.trans h
    rw [h]
    exact ⟨_, rfl, rfl, rfl, fun hne => absurd rfl hne⟩
  · exact ⟨row, h, rfl, rfl, fun _ => rfl⟩

theorem find_taskBulkUpdateByID (db : TaskTable) (ids : List Int) (failReason : Option String) (fails : Bool)
    (id : Int) : (db.taskBulkUpdateByID ids failReason fails).find id =
      if fails = false ∧ id ∈ ids then (db.find id).map (bulkFailure failReason) else db.find id := by
  unfold TaskTable.taskBulkUpdateByID
  cases fails with
  | true => rfl
  | false =>
    unfold TaskTable.find lookup
    rw [if_neg Bool.false_ne_true, List.find?_map]
    have hkey : (fun r : Task => decide (r.id = id)) ∘
        (fun row => if row.id ∈ ids then bulkFailure failReason row else row) = fun r => decide (r.id = id) := by
      funext row
      dsimp only [Function.comp]
      split <;> rfl
    rw [hkey]
    cases hfind : db.rows.find? fun r => decide (r.id = id) with
    | none => simp
    | some row =>
      have hid : row.id = id := by simpa using List.find?_some hfind
      simp only [Option.map_some, hid, true_and]
      split <;> rfl

end Table

/-! ## Attempts -/

/-- The status of the copy is the guard, and only a won update is billed. -/
structure Guarded (task : Task) (a : Attempt) : Prop where
  id_eq : a.task.id = task.id
  write : a.write = some task.status ∨ a.write = none ∧ a.task.status.isDone = false
  after : a.after ≠ .nothing → a.task.status.isDone ∧ a.needsWin
  quota : a.task.quota = task.quota ∨ a.task.status.isDone ∧ a.after = .nothing

section Attempts

variable {settings : TaskSettings} {now : Int} {task : Task}

theorem failTaskFromPoll_guarded (reason : String) : Guarded task (failTaskFromPoll now task task.status reason) :=
  ⟨rfl, .inl rfl, fun _ => ⟨rfl, rfl⟩, .inl rfl⟩

theorem recordPollFailure_guarded : Guarded task (recordPollFailure settings now task task.status) := by
  unfold recordPollFailure
  dsimp only
  split
  · exact ⟨rfl, .inl rfl, fun _ => ⟨rfl, rfl⟩, .inl rfl⟩
  · exact ⟨rfl, .inl rfl, fun hafter => absurd rfl hafter, .inl rfl⟩

theorem mergeTaskResult_same (settings : TaskSettings) (now : Int) (task : Task) (body : String) (info : TaskInfo) :
    (mergeTaskResult settings now task body info).id = task.id ∧
      (mergeTaskResult settings now task body info).quota = task.quota ∧
      (mergeTaskResult settings now task body info).status = info.status := by
  unfold mergeTaskResult applyStatus
  cases info.status <;> exact ⟨rfl, rfl, rfl⟩

theorem ne_of_isDone {a b : TaskStatus} (ha : a.isDone = false) (hb : b.isDone = true) : a ≠ b := by
  rintro rfl
  rw [ha] at hb
  cases hb

theorem applyTaskResult_id (snap : TaskSnapshot) (task : Task) (httpClass : PollClass) (body : String) (info : TaskInfo) :
    (applyTaskResult settings now snap task httpClass body info).task.id = task.id := by
  have hfailure : (recordPollFailure settings now task snap.status).task.id = task.id := by
    unfold recordPollFailure
    dsimp only
    split <;> rfl
  have hmerge := (mergeTaskResult_same settings now task body info).1
  unfold applyTaskResult
  dsimp only
  repeat' split
  all_goals first | exact hfailure | exact hmerge

theorem applyTaskResult_guarded {copy : Task} {httpClass : PollClass} {body : String} {info : TaskInfo}
    (hid : copy.id = task.id) (hquota : copy.quota = task.quota) (hstatus : copy.status = task.status)
    (h : task.status.isDone = false) :
    Guarded task (applyTaskResult settings now task.snapshot copy httpClass body info) := by
  have hfailure : Guarded task (recordPollFailure settings now copy task.snapshot.status) := by
    have hcopy : Guarded copy (recordPollFailure settings now copy copy.status) := recordPollFailure_guarded
    rw [hstatus] at hcopy
    obtain ⟨h1, h2, h3, h4⟩ := hcopy
    rw [hstatus] at h2
    exact ⟨h1.trans hid, h2, h3, hquota ▸ h4⟩
  unfold applyTaskResult
  split
  · exact hfailure
  split
  · exact hfailure
  obtain ⟨mid, mquota, -⟩ := mergeTaskResult_same settings now copy body info
  extract_lets merged after
  have hsame : merged.quota = task.quota := mquota.trans hquota
  by_cases hdone : merged.status.isDone = true
  · rw [if_pos ⟨hdone, ne_of_isDone h hdone⟩]
    exact ⟨mid.trans hid, .inl rfl, fun _ => ⟨hdone, rfl⟩, .inl hsame⟩
  have hnothing : after = .nothing := if_neg hdone
  have hopen : merged.status.isDone = false := Bool.eq_false_iff.mpr hdone
  rw [if_neg fun hboth => hdone hboth.1]
  split
  · exact ⟨mid.trans hid, .inl rfl, fun hafter => absurd hnothing hafter, .inl hsame⟩
  · exact ⟨mid.trans hid, .inr ⟨rfl, hopen⟩, fun hafter => absurd hnothing hafter, .inl hsame⟩

theorem updateVideoSingleTask_guarded (answer : Answer) (h : task.status.isDone = false) :
    Guarded task (updateVideoSingleTask settings now task answer) := by
  unfold updateVideoSingleTask
  split
  · exact recordPollFailure_guarded
  split
  · exact failTaskFromPoll_guarded _
  · exact recordPollFailure_guarded
  · exact recordPollFailure_guarded
  split
  · exact recordPollFailure_guarded
  · exact applyTaskResult_guarded rfl rfl rfl h
  · exact applyTaskResult_guarded rfl rfl rfl h

theorem updateBatchTask_guarded (statusCode : Int) (item : BatchTaskResult) :
    Guarded task (updateBatchTask settings now statusCode task item) := by
  unfold updateBatchTask
  dsimp only
  split
  · exact recordPollFailure_guarded
  split
  · exact recordPollFailure_guarded
  refine ⟨rfl, .inl rfl, ?_, .inl rfl⟩
  split
  · rename_i hdone
    exact fun _ => ⟨hdone.1, rfl⟩
  · exact fun hafter => absurd rfl hafter

theorem sweepTimedOutTask_guarded : Guarded task (sweepTimedOutTask now task) := by
  unfold sweepTimedOutTask
  split
  · exact ⟨rfl, .inl rfl, fun hafter => absurd rfl hafter, .inr ⟨rfl, rfl⟩⟩
  · exact ⟨rfl, .inl rfl, fun _ => ⟨rfl, rfl⟩, .inl rfl⟩

theorem attempt_guarded (w : Work) (h : task.status.isDone = false) : Guarded task (w.attempt settings now task) := by
  cases w with
  | single pass k answer => exact updateVideoSingleTask_guarded answer h
  | batchItem pass upstreamID statusCode item => exact updateBatchTask_guarded statusCode item
  | batchFailure =>
    unfold Work.attempt
    dsimp only
    split
    · exact failTaskFromPoll_guarded _
    · exact recordPollFailure_guarded
  | sweep => exact sweepTimedOutTask_guarded

theorem attempt_id (settings : TaskSettings) (now : Int) (task : Task) (w : Work) :
    (w.attempt settings now task).task.id = task.id := by
  cases w with
  | single =>
    simp only [Work.attempt, updateVideoSingleTask]
    split
    · exact recordPollFailure_guarded.id_eq
    split
    · rfl
    · exact recordPollFailure_guarded.id_eq
    · exact recordPollFailure_guarded.id_eq
    split
    · exact recordPollFailure_guarded.id_eq
    · exact applyTaskResult_id _ _ _ _ _
    · exact applyTaskResult_id _ _ _ _ _
  | batchItem pass upstreamID statusCode item => exact (updateBatchTask_guarded statusCode item).id_eq
  | batchFailure =>
    simp only [Work.attempt]
    split
    · rfl
    · exact recordPollFailure_guarded.id_eq
  | sweep => exact sweepTimedOutTask_guarded.id_eq

end Attempts

/-! ## What the steps read -/

section Steps

variable {s : State} {w : Work} {address : Nat} {task : Task}

theorem heap_of_target (h : s.target w = some (address, task)) : s.heap[address]? = some task := by
  have hentry : ∀ (o : Option Nat), (o.bind fun i => s.heap[i]?.map fun x => (i, x)) = some (address, task) →
      s.heap[address]? = some task := by
    intro o ho
    obtain ⟨i, -, hi⟩ := Option.bind_eq_some_iff.mp ho
    obtain ⟨x, hx, hpair⟩ := Option.map_eq_some_iff.mp hi
    cases hpair
    exact hx
  cases w with
  | single | batchFailure =>
    obtain ⟨p, -, hp⟩ := Option.bind_eq_some_iff.mp h
    obtain ⟨_, -, he⟩ := Option.bind_eq_some_iff.mp hp
    exact hentry _ he
  | batchItem =>
    obtain ⟨p, -, hp⟩ := Option.bind_eq_some_iff.mp h
    exact hentry _ hp
  | sweep => exact hentry _ h

theorem isDone_of_unfinished (h : unfinished task = true) : task.status.isDone = false := by
  unfold unfinished at h
  simp only [decide_eq_true_eq] at h
  obtain ⟨-, hfailure, hsuccess⟩ := h
  cases hstatus : task.status <;> first | rfl | exact absurd hstatus ‹_›

theorem mem_of_unfinishedTasks {db : TaskTable} {limit : Nat} (h : task ∈ getAllUnFinishSyncTasks db limit) :
    task ∈ db.rows ∧ unfinished task = true := by
  have hmem := List.mem_of_mem_take h
  rw [List.mem_insertionSort, List.mem_filter] at hmem
  exact hmem

theorem mem_of_timedOutTasks {db : TaskTable} {cutoff : Int} {limit : Nat}
    (h : task ∈ getTimedOutUnfinishedTasks db cutoff limit) :
    task ∈ db.rows ∧ unfinished task = true ∧ task.submitTime < cutoff := by
  have hmem := List.mem_of_mem_take h
  rw [List.mem_insertionSort, List.mem_filter] at hmem
  simpa using hmem

theorem update_spec (s : State) (a : Attempt) (fails : Bool) : s.update a fails = (false, s.db) ∨
    ∃ row, a.write = some row.status ∧ s.db.find a.task.id = some row ∧
      s.update a fails = (true, s.db.save a.task) := by
  unfold State.update
  split
  · exact .inl rfl
  rename_i fromStatus hwrite
  rcases updateWithStatus_spec s.db a.task fromStatus fails with hlost | ⟨row, hrow, rfl, hwon⟩
  · exact .inl hlost
  · exact .inr ⟨row, hwrite, hrow, hwon⟩

theorem getElem?_settled (heap : List Task) (address : Nat) (quota : Option Int) (i : Nat) :
    (quota.elim heap fun quota => heap.modify address fun task => { task with quota })[i]? =
      heap[i]?.map fun task => if address = i then { task with quota := quota.getD task.quota } else task := by
  cases quota with
  | none => simp
  | some =>
    simp only [Option.elim_some, Option.getD_some]
    rw [List.getElem?_modify]
    rfl

end Steps

end NewApi.Tasks
