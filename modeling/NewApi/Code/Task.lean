import Mathlib.Data.List.Dedup
import NewApi.Lib.Table

/-!
# Polling of asynchronous tasks

`service/task_polling.go`, `service/task_billing.go` and `model/task.go`. An attempt is what a poller makes of one answer, on
its copy of the row. The order of platforms and channels is open.
-/

namespace NewApi.Code.Tasks

open Table

inductive TaskStatus where
  | notStart | submitted | queued | inProgress | failure | success | unknown
  | other (text : String)
deriving DecidableEq

def TaskStatus.isDone : TaskStatus → Bool
  | .failure | .success => true
  | _ => false

/-- `tiered` says that there is a snapshot of a usage expression. -/
structure TaskBillingContext where
  perCallBilling : Bool
  tiered : Bool
deriving DecidableEq

structure TaskPrivateData where
  upstreamTaskID : String
  resultURL : String
  billingContext : Option TaskBillingContext
  pluginState : String
  pollFailures : Int
deriving DecidableEq

structure Task where
  id : Int
  taskID : String
  platform : String
  channelId : Int
  quota : Int
  status : TaskStatus
  failReason : String
  submitTime : Int
  startTime : Int
  finishTime : Int
  progress : String
  privateData : TaskPrivateData
  data : String
deriving DecidableEq

def Task.getUpstreamTaskID (task : Task) : String :=
  if task.privateData.upstreamTaskID ≠ "" then task.privateData.upstreamTaskID else task.taskID

structure TaskSnapshot where
  status : TaskStatus
  progress : String
  startTime : Int
  finishTime : Int
  failReason : String
  resultURL : String
  data : String
  pluginState : String
  pollFailures : Int
deriving DecidableEq

def Task.snapshot (task : Task) : TaskSnapshot :=
  ⟨task.status, task.progress, task.startTime, task.finishTime, task.failReason, task.privateData.resultURL, task.data,
    task.privateData.pluginState, task.privateData.pollFailures⟩

structure TaskInfo where
  status : TaskStatus
  reason : String
  url : String
  progress : String
  completionTokens : Int
  totalTokens : Int
  pluginState : String
deriving DecidableEq

def failTaskInfo (reason : String) : TaskInfo := ⟨.failure, reason, "", "", 0, 0, ""⟩

structure TaskSettings where
  taskQueryLimit : Nat
  taskTimeoutMinutes : Int
  taskPollMaxFailures : Int
  serverAddress : String
deriving DecidableEq

/-! ## The table -/

structure TaskTable where
  rows : List Task
  nodup : (rows.map Task.id).Nodup
deriving DecidableEq

variable (db : TaskTable)

def TaskTable.find (id : Int) : Option Task := lookup Task.id db.rows id

def TaskTable.save (task : Task) : TaskTable :=
  ⟨Table.save Task.id db.rows task, by rw [keys_save]; exact db.nodup⟩

/-- The whole copy is written if the row still has the status. An error counts as lost. -/
def TaskTable.updateWithStatus (task : Task) (fromStatus : TaskStatus) (fails : Bool) : Bool × TaskTable :=
  if fails then (false, db)
  else
    match db.find task.id with
    | none => (false, db)
    | some row => if row.status = fromStatus then (true, db.save task) else (false, db)

def TaskTable.updateQuota (id quota : Int) (fails : Bool) : TaskTable :=
  if fails then db
  else
    match db.find id with
    | none => db
    | some row => db.save { row with quota }

/-- What callers of `TaskBulkUpdateByID` ask for; tasks without an id get no reason. -/
def bulkFailure (failReason : Option String) (task : Task) : Task :=
  { task with failReason := failReason.getD task.failReason, status := .failure, progress := "100%" }

def TaskTable.taskBulkUpdateByID (ids : List Int) (failReason : Option String) (fails : Bool) : TaskTable :=
  if fails then db
  else
    ⟨db.rows.map fun row => if row.id ∈ ids then bulkFailure failReason row else row, by
      have hid : Task.id ∘ (fun row => if row.id ∈ ids then bulkFailure failReason row else row) = Task.id := by
        funext row
        dsimp only [Function.comp]
        split <;> rfl
      rw [List.map_map, hid]
      exact db.nodup⟩

def unfinished (task : Task) : Bool := task.progress ≠ "100%" ∧ task.status ≠ .failure ∧ task.status ≠ .success

def getAllUnFinishSyncTasks (limit : Nat) : List Task :=
  ((db.rows.filter unfinished).insertionSort fun a b => a.id ≤ b.id).take limit

def getTimedOutUnfinishedTasks (cutoffUnix : Int) (limit : Nat) : List Task :=
  ((db.rows.filter fun task => unfinished task ∧ task.submitTime < cutoffUnix).insertionSort
    fun a b => a.submitTime ≤ b.submitTime).take limit

/-! ## Attempts -/

inductive After where
  | nothing
  | finalize (info : TaskInfo)
  | refund
deriving DecidableEq

/-- `write` is the guard. With `needsWin` the rest is left out where the update is lost. -/
structure Attempt where
  task : Task
  write : Option TaskStatus
  after : After
  needsWin : Bool
deriving DecidableEq

def failTaskFromPoll (now : Int) (task : Task) (fromStatus : TaskStatus) (reason : String) : Attempt :=
  let failed := { task with
    status := .failure
    progress := "100%"
    finishTime := if task.finishTime = 0 then now else task.finishTime
    failReason := reason }
  ⟨failed, some fromStatus, .finalize (failTaskInfo reason), true⟩

variable (settings : TaskSettings)

def recordPollFailure (now : Int) (task : Task) (fromStatus : TaskStatus) : Attempt :=
  let pollFailures := task.privateData.pollFailures + 1
  let counted := { task with privateData := { task.privateData with pollFailures } }
  if 0 < settings.taskPollMaxFailures ∧ settings.taskPollMaxFailures ≤ pollFailures then
    failTaskFromPoll now counted fromStatus "Failed to query the upstream task status"
  else ⟨counted, some fromStatus, .nothing, false⟩

def knownPollStatus : TaskStatus → Bool
  | .notStart | .submitted | .queued | .inProgress | .success | .failure => true
  | _ => false

def isNonTerminalPollStatus : TaskStatus → Bool
  | .notStart | .submitted | .queued | .inProgress => true
  | _ => false

inductive PollClass where
  | ok | notFound | auth | transient | otherClient
deriving DecidableEq

def classifyPollHTTP (statusCode : Int) : PollClass :=
  if 200 ≤ statusCode ∧ statusCode < 300 then .ok
  else if statusCode = 404 ∨ statusCode = 410 then .notFound
  else if statusCode = 401 ∨ statusCode = 403 then .auth
  else if statusCode = 429 ∨ 500 ≤ statusCode then .transient
  else if 400 ≤ statusCode ∧ statusCode < 500 then .otherClient
  else .transient

def buildProxyURL (taskID : String) : String :=
  settings.serverAddress ++ "/v1/videos/" ++ taskID ++ "/content"

/-! ## Single tasks -/

/-- The body as the host's own response format, or as the adaptor reads it. -/
inductive Parsed where
  | newApi (data : String) (info : TaskInfo)
  | adaptor (info : TaskInfo)
  | hookError
deriving DecidableEq

/-- `body` is the redacted body. -/
inductive Answer where
  | transportError
  | response (statusCode : Int) (body : String) (parsed : Parsed)
deriving DecidableEq

def applyStatus (now : Int) (task : Task) (info : TaskInfo) : Task :=
  let finishTime := if task.finishTime = 0 then now else task.finishTime
  match info.status with
  | .submitted => { task with progress := "10%" }
  | .queued => { task with progress := "20%" }
  | .inProgress => { task with progress := "30%", startTime := if task.startTime = 0 then now else task.startTime }
  | .success =>
    let resultURL :=
      if info.url.startsWith "data:" then buildProxyURL settings task.taskID
      else if info.url ≠ "" then info.url
      else buildProxyURL settings task.taskID
    { task with progress := "100%", finishTime, privateData := { task.privateData with resultURL } }
  | .failure => { task with progress := "100%", finishTime, failReason := info.reason }
  | _ => task

def completeInfo (info : TaskInfo) : TaskInfo :=
  if info.status = .failure then { info with progress := "100%" } else info

/-- The reported progress comes last. -/
def mergeTaskResult (now : Int) (task : Task) (body : String) (info : TaskInfo) : Task :=
  let pluginState := if info.pluginState ≠ "" then info.pluginState else task.privateData.pluginState
  let pollFailures := if isNonTerminalPollStatus info.status then 0 else task.privateData.pollFailures
  let privateData := { task.privateData with pluginState, pollFailures }
  let task := applyStatus settings now { task with data := body, privateData, status := info.status } info
  let progress := (completeInfo info).progress
  { task with progress := if progress ≠ "" then progress else task.progress }

/-- `updateVideoSingleTask` from the parsed answer on. `snap` is from before the request. -/
def applyTaskResult (now : Int) (snap : TaskSnapshot) (task : Task) (httpClass : PollClass) (body : String)
    (info : TaskInfo) : Attempt :=
  if knownPollStatus info.status = false then recordPollFailure settings now task snap.status
  else if httpClass = .otherClient ∧ isNonTerminalPollStatus info.status then
    recordPollFailure settings now task snap.status
  else
    let task := mergeTaskResult settings now task body info
    let after := if task.status.isDone then .finalize (completeInfo info) else .nothing
    if task.status.isDone ∧ snap.status ≠ task.status then ⟨task, some snap.status, after, true⟩
    else if snap ≠ task.snapshot then ⟨task, some snap.status, after, false⟩
    else ⟨task, none, after, false⟩

def updateVideoSingleTask (now : Int) (task : Task) : Answer → Attempt
  | .transportError => recordPollFailure settings now task task.status
  | .response statusCode body parsed =>
    match classifyPollHTTP statusCode with
    | .notFound => failTaskFromPoll now task task.status "Upstream task not found"
    | .auth | .transient => recordPollFailure settings now task task.status
    | httpClass =>
      match parsed with
      | .hookError => recordPollFailure settings now task task.status
      | .newApi data info => applyTaskResult settings now task.snapshot { task with data } httpClass body info
      | .adaptor info => applyTaskResult settings now task.snapshot task httpClass body info

/-- `parseTaskResult` of the seedanceapi plugin. The progress is a whole number, or none. -/
def seedanceTaskResult (status : String) (progress : Option Int) (reason : String) : TaskInfo :=
  let status : TaskStatus :=
    match status.toLower with
    | "queued" | "pending" | "submitted" => .queued
    | "running" | "processing" | "in_progress" => .inProgress
    | "succeeded" | "completed" => .success
    | "failed" | "cancelled" | "expired" => .failure
    | _ => .unknown
  let progress := if status = .success then 100 else progress.getD 0
  ⟨status, reason, "", toString (max 0 (min progress 100)) ++ "%", 0, 0, ""⟩

/-! ## Batches -/

structure BatchTaskResult where
  taskInfo : TaskInfo
  submitTime : Int
  startTime : Int
  finishTime : Int
  data : Option String
deriving DecidableEq

/-- An item with a reason is a failure, whatever its status. -/
def mergeBatchResult (task : Task) (item : BatchTaskResult) : Task :=
  let info := item.taskInfo
  let pollFailures := if isNonTerminalPollStatus info.status then 0 else task.privateData.pollFailures
  let pluginState := if info.pluginState ≠ "" then info.pluginState else task.privateData.pluginState
  let resultURL := if info.url ≠ "" then info.url else task.privateData.resultURL
  let failed : Bool := info.reason ≠ "" ∨ info.status = .failure
  let progress := if info.progress ≠ "" then info.progress else task.progress
  { task with
    status := if failed then .failure else info.status
    failReason := if info.reason ≠ "" then info.reason else task.failReason
    submitTime := if item.submitTime ≠ 0 then item.submitTime else task.submitTime
    startTime := if item.startTime ≠ 0 then item.startTime else task.startTime
    finishTime := if item.finishTime ≠ 0 then item.finishTime else task.finishTime
    progress := if failed ∨ info.status = .success then "100%" else progress
    privateData := { task.privateData with pollFailures, pluginState, resultURL }
    data := item.data.getD task.data }

def updateBatchTask (now : Int) (statusCode : Int) (task : Task) (item : BatchTaskResult) : Attempt :=
  let status := item.taskInfo.status
  if knownPollStatus status = false then recordPollFailure settings now task task.status
  else if classifyPollHTTP statusCode = .otherClient ∧ isNonTerminalPollStatus status then
    recordPollFailure settings now task task.status
  else
    let updated := mergeBatchResult task item
    let terminalTransition := updated.status.isDone ∧ task.status ≠ updated.status
    ⟨updated, some task.status, if terminalTransition then .finalize item.taskInfo else .nothing, true⟩

/-! ## The sweeper -/

def taskRefundLegacyCutoff : Int := 1771718400

def isLegacy (task : Task) : Bool := 0 < task.submitTime ∧ task.submitTime < taskRefundLegacyCutoff

/-- A task from the old system loses its quota without a refund. -/
def sweepTimedOutTask (now : Int) (task : Task) : Attempt :=
  let failed := { task with status := .failure, progress := "100%", finishTime := now }
  if isLegacy task then
    let failReason := "Task timed out (a task left by the old system is not refunded; contact the administrator)"
    ⟨{ failed with failReason, quota := 0 }, some task.status, .nothing, true⟩
  else
    let after := if task.quota ≠ 0 then .refund else .nothing
    ⟨{ failed with failReason := "Task timed out" }, some task.status, after, true⟩

/-! ## One pass -/

/-- The maps of `RunTaskPollingOnce`. The last task with an upstream id is in `taskM`; `taskChannelM` names it once per
task. -/
structure Pass where
  taskM : List (String × Nat)
  taskChannelM : List (Int × String)
  nullTaskIds : List Int
deriving DecidableEq

def plan (tasks : List (Nat × Task)) : Pass :=
  let named := tasks.filter fun t => t.2.getUpstreamTaskID ≠ ""
  { taskM := named.map fun t => (t.2.getUpstreamTaskID, t.1)
    taskChannelM := named.map fun t => (t.2.channelId, t.2.getUpstreamTaskID)
    nullTaskIds := (tasks.filter fun t => t.2.getUpstreamTaskID = "").map fun t => t.2.id }

def Pass.task (p : Pass) (upstreamID : String) : Option Nat :=
  (p.taskM.reverse.find? fun entry => entry.1 = upstreamID).map Prod.snd

/-! ## Billing -/

/-- The usage expression (`none` is an error), the adaptor, the tokens. -/
structure Usage where
  tiered : Option Int
  adjustBillingOnComplete : Int
  byTokens : Int → Option Int

inductive Charge where
  | keep
  | recalculate (actualQuota : Int)
  | refund
deriving DecidableEq

/-- `settleTaskBillingOnComplete`; `none` is its answer `false`. -/
def settleTaskBillingOnComplete (task : Task) (info : TaskInfo) (usage : Usage) : Option Charge :=
  if task.privateData.billingContext.any TaskBillingContext.tiered then
    if task.status = .failure then none
    else
      match usage.tiered with
      | none => some .keep
      | some actualQuota => some (.recalculate actualQuota)
  else if task.privateData.billingContext.any TaskBillingContext.perCallBilling then none
  else if 0 < usage.adjustBillingOnComplete then some (.recalculate usage.adjustBillingOnComplete)
  else
    let tokens := if info.totalTokens = 0 ∧ 0 < info.completionTokens then info.completionTokens else info.totalTokens
    if 0 < tokens then (usage.byTokens tokens).map .recalculate else none

def finalizeTerminalTask (task : Task) (info : TaskInfo) (usage : Usage) : Charge :=
  match settleTaskBillingOnComplete task info usage with
  | some charge => charge
  | none => if task.status = .failure ∧ task.quota ≠ 0 then .refund else .keep

/-- `RefundTaskQuota` and `RecalculateTaskQuota`: the charge and the new quota of the task. -/
def Charge.apply (quota : Int) (fails : Bool) : Charge → Option (Int × Option Int)
  | .keep => none
  | .refund => if quota = 0 ∨ fails then none else some (-quota, some 0)
  | .recalculate actualQuota =>
    if actualQuota < 0 then none
    else if actualQuota - quota = 0 then some (0, none)
    else if fails then none
    else some (actualQuota - quota, some actualQuota)

/-! ## Dispatch of a run -/

inductive FetchMode where
  | single | batch
deriving DecidableEq

structure BatchItems where
  items : List (String × BatchTaskResult)
  nodup : (items.map Prod.fst).Nodup
deriving DecidableEq

/-- Without items the adaptor cannot read the body. -/
inductive BatchAnswer where
  | transportError
  | response (statusCode : Int) (items : Option BatchItems)
deriving DecidableEq

/-- Channels, adaptors (`none` is a platform without one), and answers with their times. -/
structure Providers where
  hasChannel : Int → Bool
  adaptor : String → Option FetchMode
  single : String → Int → String → Int × Answer
  batch : String → Int → List String → Int × BatchAnswer

structure Call where
  platform : String
  channelId : Int
  upstreamID : String
  address : Nat
deriving DecidableEq

inductive Outcome where
  | missingChannel
  | single (now : Int) (answer : Answer)
  | batchFailure (now : Int) (notFound : Bool)
  | batchItem (now statusCode : Int) (item : BatchTaskResult)
deriving DecidableEq

structure Look where
  call : Call
  outcome : Outcome
deriving DecidableEq

def Outcome.apply (settings : TaskSettings) (task : Task) : Outcome → Task
  | .missingChannel => bulkFailure (some "Failed to get the channel information. Please contact the administrator") task
  | .single now answer => (updateVideoSingleTask settings now task answer).task
  | .batchFailure now notFound =>
    if notFound then (failTaskFromPoll now task task.status "Upstream task not found").task
    else (recordPollFailure settings now task task.status).task
  | .batchItem now statusCode item => (updateBatchTask settings now statusCode task item).task

/-! ## One platform -/

def Pass.channelIds (p : Pass) : List Int := (p.taskChannelM.map Prod.fst).dedup

def Pass.taskIds (p : Pass) (channelId : Int) : List String :=
  (p.taskChannelM.filter fun entry => entry.1 = channelId).map Prod.snd

/-- The map is asked for the upstream id alone. -/
def Pass.call (p : Pass) (platform : String) (channelId : Int) (upstreamID : String) : Option Call :=
  (p.task upstreamID).map fun address => ⟨platform, channelId, upstreamID, address⟩

def Pass.calls (p : Pass) (platform : String) (channelId : Int) : List Call :=
  (p.taskIds channelId).filterMap fun upstreamID => p.call platform channelId upstreamID

/-- The loop of `updateBatchTasks` over the items, whichever they are. -/
def Pass.itemLooks (p : Pass) (platform : String) (channelId now statusCode : Int)
    (items : List (String × BatchTaskResult)) : List Look :=
  items.filterMap fun entry =>
    (p.call platform channelId entry.1).map fun call => ⟨call, .batchItem now statusCode entry.2⟩

def updateBatchTasks (w : Providers) (platform : String) (p : Pass) (channelId : Int) : List Look :=
  let tasks := p.calls platform channelId
  if w.hasChannel channelId = false then tasks.map fun call => ⟨call, .missingChannel⟩
  else
    let now := (w.batch platform channelId (p.taskIds channelId)).1
    let failures := fun notFound => tasks.map fun call => (⟨call, .batchFailure now notFound⟩ : Look)
    match (w.batch platform channelId (p.taskIds channelId)).2 with
    | .transportError => failures false
    | .response statusCode items =>
      match classifyPollHTTP statusCode with
      | .notFound => failures true
      | .auth | .transient => failures false
      | .ok | .otherClient =>
        match items with
        | none => failures false
        | some answer => p.itemLooks platform channelId now statusCode answer.items

def updateVideoTasks (w : Providers) (platform : String) (p : Pass) (channelId : Int) : List Look :=
  let tasks := p.calls platform channelId
  if w.hasChannel channelId = false then tasks.map fun call => ⟨call, .missingChannel⟩
  else if w.adaptor platform = none then []
  else
    tasks.map fun call =>
      let answer := w.single platform channelId call.upstreamID
      ⟨call, .single answer.1 answer.2⟩

def updateTasks (w : Providers) (platform : String) (p : Pass) (channelId : Int) : List Look :=
  if w.adaptor platform = some .batch then updateBatchTasks w platform p channelId
  else updateVideoTasks w platform p channelId

def platformMidjourney : String := "mj"

def dispatchChannels (platform : String) (p : Pass) : List Int :=
  if platform = platformMidjourney then [] else p.channelIds

/-! ## The run -/

def withAddress (tasks : List Task) : List (Nat × Task) := tasks.zipIdx.map Prod.swap

def platformPass (tasks : List Task) (platform : String) : Pass :=
  plan ((withAddress tasks).filter fun t => t.2.platform = platform)

def platforms (tasks : List Task) : List String := (tasks.map Task.platform).dedup

def runCalls (tasks : List Task) : List Call :=
  (platforms tasks).flatMap fun platform =>
    (dispatchChannels platform (platformPass tasks platform)).flatMap fun channelId =>
      (platformPass tasks platform).calls platform channelId

def runLooks (w : Providers) (tasks : List Task) : List Look :=
  (platforms tasks).flatMap fun platform =>
    (dispatchChannels platform (platformPass tasks platform)).flatMap fun channelId =>
      updateTasks w platform (platformPass tasks platform) channelId

def applyLooks (settings : TaskSettings) (looks : List Look) (tasks : List Task) : List Task :=
  looks.foldl (fun tasks look => tasks.modify look.call.address fun task => look.outcome.apply settings task) tasks

end NewApi.Code.Tasks
