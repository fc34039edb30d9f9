import NewApi.Lib.GoText
import NewApi.Lib.GoTime
import NewApi.Lib.Table

/-!
# Subscriptions

The reset schedule, the ledger and the background reset of `model/subscription.go`, with the loop of
`service/subscription_reset_task.go`. A transaction reads the store and answers with the writes it commits; one that
fails commits none.
-/

namespace NewApi.Code

open GoTime GoText Table

/-- A text of the source, `gorm.ErrRecordNotFound`, or a failed statement. `unfinished`: the fuel is used up, so the
call has not returned. -/
inductive Error where
  | text (message : String)
  | recordNotFound
  | database
  | unfinished
deriving DecidableEq

/-- `SubscriptionReset*`, after `NormalizeResetPeriod`. -/
inductive ResetPeriod where
  | never | daily | weekly | monthly | custom
deriving DecidableEq

inductive DurationUnit where
  | year | month | day | hour | custom
deriving DecidableEq

inductive SubscriptionStatus where
  | active | expired | cancelled
deriving DecidableEq

structure SubscriptionPlan where
  id : Int
  title : String
  priceAmount : Rat
  durationUnit : DurationUnit
  durationValue : Int
  customSeconds : Int
  allowWalletOverflow : Option Bool
  maxPurchasePerUser : Int
  upgradeGroup : String
  downgradeGroup : String
  totalAmount : Int
  quotaResetPeriod : ResetPeriod
  quotaResetCustomSeconds : Int
deriving DecidableEq

structure UserSubscription where
  id : Int
  userId : Int
  planId : Int
  amountTotal : Int
  amountUsed : Int
  startTime : Int
  endTime : Int
  status : SubscriptionStatus
  source : String
  lastResetTime : Int
  nextResetTime : Int
  upgradeGroup : String
  prevUserGroup : String
  downgradeGroup : String
  allowWalletOverflow : Bool
deriving DecidableEq

/-- The plan as it is stored. `groups` are those with a ratio. -/
def adminCreateSubscriptionPlan (groups : List String) (plan : SubscriptionPlan) : Except Error SubscriptionPlan :=
  let plan := { plan with
    id := 0
    durationValue :=
      if plan.durationValue ≤ 0 ∧ plan.durationUnit ≠ .custom then 1 else plan.durationValue
    allowWalletOverflow := some (plan.allowWalletOverflow.getD true)
    upgradeGroup := trimSpace plan.upgradeGroup
    downgradeGroup := trimSpace plan.downgradeGroup }
  if trimSpace plan.title = "" then .error (.text "Subscription plan title cannot be empty")
  else if plan.priceAmount < 0 then .error (.text "Price cannot be negative")
  else if 9999 < plan.priceAmount then .error (.text "Price cannot exceed 9999")
  else if plan.maxPurchasePerUser < 0 then .error (.text "Purchase limit cannot be negative")
  else if plan.totalAmount < 0 then .error (.text "Total quota cannot be negative")
  else if plan.upgradeGroup ≠ "" ∧ plan.upgradeGroup ∉ groups then
    .error (.text "Upgrade group does not exist")
  else if plan.downgradeGroup ≠ "" ∧ plan.downgradeGroup ∉ groups then
    .error (.text "Downgrade group does not exist")
  else if plan.quotaResetPeriod = .custom ∧ plan.quotaResetCustomSeconds ≤ 0 then
    .error (.text "Custom reset cycle must be greater than 0 seconds")
  else .ok plan

/-! ## The schedule -/

/-- The boundary before the look at the end time. -/
def nextBoundary (loc : Location) (base : Int) (plan : SubscriptionPlan) : Option Int :=
  match plan.quotaResetPeriod with
  | .never => none
  | .daily => some (addDate loc (date loc (month loc base) (dayOfMonth loc base) 0) 0 1)
  | .weekly =>
    -- Monday = 1 to Sunday = 7, so that Sunday is one day before the next Monday.
    let day := if weekday loc base = 0 then 7 else weekday loc base
    some (addDate loc (date loc (month loc base) (dayOfMonth loc base) 0) 0 (8 - day))
  | .monthly => some (addDate loc (date loc (month loc base) 1 0) 1 0)
  | .custom =>
    if plan.quotaResetCustomSeconds ≤ 0 then none
    else some (add base (wrap64 (plan.quotaResetCustomSeconds * second)))

def calcNextResetTime (loc : Location) (base : Int) (plan : SubscriptionPlan) (endUnix : Int) : Int :=
  match nextBoundary loc base plan with
  | none => 0
  | some next => if 0 < endUnix ∧ endUnix < next then 0 else next

def calcPlanEndTime (loc : Location) (start : Int) (plan : SubscriptionPlan) : Except Error Int :=
  if plan.durationValue ≤ 0 ∧ plan.durationUnit ≠ .custom then
    .error (.text "duration_value must be > 0")
  else
    match plan.durationUnit with
    | .year => .ok (addDate loc start (12 * plan.durationValue) 0)
    | .month => .ok (addDate loc start plan.durationValue 0)
    | .day => .ok (add start (wrap64 (wrap64 (plan.durationValue * 24) * (3600 * second))))
    | .hour => .ok (add start (wrap64 (plan.durationValue * (3600 * second))))
    | .custom =>
      if plan.customSeconds ≤ 0 then .error (.text "custom_seconds must be > 0")
      else .ok (add start (wrap64 (plan.customSeconds * second)))

/-! ## The catch-up loop -/

/-- The loop of `maybeResetUserSubscriptionWithPlanTx`, which has no bound; `none` is a loop still running. -/
def catchUp (loc : Location) (plan : SubscriptionPlan) (endTime now : Int) :
    Nat → Int → Int → Bool → Option (Int × Int × Bool)
  | 0, base, next, advanced => if 0 < next ∧ next ≤ now then none else some (base, next, advanced)
  | fuel + 1, base, next, advanced =>
    if 0 < next ∧ next ≤ now then
      catchUp loc plan endTime now fuel next (calcNextResetTime loc next plan endTime) true
    else some (base, next, advanced)

inductive SaveKind where
  | schedule | reset | charge | status
deriving DecidableEq

/-- `maybeResetUserSubscriptionWithPlanTx`: the row, and the save it made. -/
def maybeReset (fuel : Nat) (loc : Location) (sub : UserSubscription) (plan : SubscriptionPlan)
    (now : Int) : Except Error (UserSubscription × Option SaveKind) :=
  if 0 < sub.nextResetTime ∧ now < sub.nextResetTime then .ok (sub, none)
  else if plan.quotaResetPeriod = .never then .ok (sub, none)
  else
    let baseUnix := if sub.lastResetTime ≤ 0 then sub.startTime else sub.lastResetTime
    match catchUp loc plan sub.endTime now fuel baseUnix
        (calcNextResetTime loc baseUnix plan sub.endTime) false with
    | none => .error .unfinished
    | some (base, next, advanced) =>
      if advanced then
        .ok ({ sub with amountUsed := 0, lastResetTime := base, nextResetTime := next }, some .reset)
      else if sub.nextResetTime = 0 ∧ 0 < next then
        .ok ({ sub with nextResetTime := next, lastResetTime := base }, some .schedule)
      else .ok (sub, none)

def resetUserSubscription (loc : Location) (sub : UserSubscription) (plan : SubscriptionPlan)
    (now : Int) (advanceResetTime : Bool) : UserSubscription :=
  if advanceResetTime then
    let nextReset := calcNextResetTime loc now plan sub.endTime
    { sub with
      amountUsed := 0
      nextResetTime := nextReset
      lastResetTime := if 0 < nextReset then now else 0 }
  else { sub with amountUsed := 0 }

/-! ## The ledger -/

inductive RecordStatus where
  | consumed | refunded
deriving DecidableEq

structure SubscriptionPreConsumeRecord where
  requestId : String
  userId : Int
  userSubscriptionId : Int
  preConsumed : Int
  status : RecordStatus
deriving DecidableEq

structure User where
  id : Int
  group : String
deriving DecidableEq

/-- `nextSubId` is the next key of `user_subscriptions`. -/
structure Store where
  plans : List SubscriptionPlan
  subs : List UserSubscription
  nextSubId : Int
  records : List SubscriptionPreConsumeRecord
  users : List User
deriving DecidableEq

inductive Write where
  | createSub (sub : UserSubscription)
  | saveSub (kind : SaveKind) (sub : UserSubscription)
  | deleteSub (id : Int)
  | createRecord (record : SubscriptionPreConsumeRecord)
  | saveRecord (record : SubscriptionPreConsumeRecord)
  | setGroup (user : User)
deriving DecidableEq

variable (s : Store)

def Store.write : Write → Store
  | .createSub sub => { s with subs := s.subs ++ [sub], nextSubId := s.nextSubId + 1 }
  | .saveSub _ sub => { s with subs := save UserSubscription.id s.subs sub }
  | .deleteSub id => { s with subs := s.subs.filter fun sub => sub.id ≠ id }
  | .createRecord record => { s with records := s.records ++ [record] }
  | .saveRecord record => { s with records := save SubscriptionPreConsumeRecord.requestId s.records record }
  | .setGroup user => { s with users := save User.id s.users user }

def Store.commit (writes : List Write) : Store := writes.foldl Store.write s

/-! ## Reads -/

def Store.sub (id : Int) : Option UserSubscription := lookup UserSubscription.id s.subs id

def Store.record (requestId : String) : Option SubscriptionPreConsumeRecord :=
  lookup SubscriptionPreConsumeRecord.requestId s.records requestId

/-- `getSubscriptionPlanByIdTx`, with the plan cache left out. -/
def getSubscriptionPlanById (plans : List SubscriptionPlan) (id : Int) : Except Error SubscriptionPlan :=
  if id ≤ 0 then .error (.text "invalid plan id")
  else
    match lookup SubscriptionPlan.id plans id with
    | some plan => .ok { plan with allowWalletOverflow := some (plan.allowWalletOverflow.getD true) }
    | none => .error .recordNotFound

def EndsBefore (a b : UserSubscription) : Prop :=
  a.endTime < b.endTime ∨ a.endTime = b.endTime ∧ a.id ≤ b.id

instance : DecidableRel EndsBefore := fun a b =>
  inferInstanceAs (Decidable (a.endTime < b.endTime ∨ a.endTime = b.endTime ∧ a.id ≤ b.id))

def UserSubscription.activeAt (sub : UserSubscription) (now : Int) : Prop :=
  sub.status = .active ∧ now < sub.endTime

instance (sub : UserSubscription) (now : Int) : Decidable (sub.activeAt now) :=
  inferInstanceAs (Decidable (_ ∧ _))

def Store.activeSubs (userId now : Int) : List UserSubscription :=
  (s.subs.filter fun sub => sub.userId = userId ∧ sub.activeAt now).insertionSort EndsBefore

/-! ## Pre-consume -/

structure SubscriptionPreConsumeResult where
  userSubscriptionId : Int
  preConsumed : Int
  amountTotal : Int
  amountUsedBefore : Int
  amountUsedAfter : Int
deriving DecidableEq

def preConsumeLookup (requestId : String) : Except Error (Option SubscriptionPreConsumeResult) :=
  match s.record requestId with
  | none => .ok none
  | some existing =>
    if existing.status = .refunded then
      .error (.text "subscription pre-consume already refunded")
    else
      match s.sub existing.userSubscriptionId with
      | none => .error .recordNotFound
      | some sub => .ok (some ⟨sub.id, existing.preConsumed, sub.amountTotal, sub.amountUsed, sub.amountUsed⟩)

def UserSubscription.canHold (sub : UserSubscription) (amount : Int) : Prop :=
  0 < sub.amountTotal → amount ≤ wrap64 (sub.amountTotal - sub.amountUsed)

instance (sub : UserSubscription) (amount : Int) : Decidable (sub.canHold amount) :=
  inferInstanceAs (Decidable (_ → _))

def refresh (fuel : Nat) (loc : Location) (plans : List SubscriptionPlan) (now : Int)
    (candidate : UserSubscription) : Except Error (UserSubscription × Option SaveKind) :=
  match getSubscriptionPlanById plans candidate.planId with
  | .error e => .error e
  | .ok plan => maybeReset fuel loc candidate plan now

def saveOf (sub : UserSubscription) (kind : Option SaveKind) : List Write :=
  kind.toList.map fun k => .saveSub k sub

def selectCandidate (fuel : Nat) (loc : Location) (plans : List SubscriptionPlan) (amount now : Int) :
    List UserSubscription → Except Error (UserSubscription × List Write)
  | [] => .error (.text s!"subscription quota insufficient, need={amount}")
  | candidate :: rest =>
    match refresh fuel loc plans now candidate with
    | .error e => .error e
    | .ok (sub, kind) =>
      if sub.canHold amount then .ok (sub, saveOf sub kind)
      else
        match selectCandidate fuel loc plans amount now rest with
        | .error e => .error e
        | .ok (chosen, writes) => .ok (chosen, saveOf sub kind ++ writes)

def preConsumeSelect (fuel : Nat) (loc : Location) (s : Store) (userId amount now : Int) :
    Except Error (UserSubscription × List Write) :=
  match s.activeSubs userId now with
  | [] => .error (.text "no active subscription")
  | subs => selectCandidate fuel loc s.plans amount now subs

/-- The unique index rejects a second record, and the call answers from the first. -/
def preConsumeInsert (requestId : String) (userId amount : Int) (sub : UserSubscription) :
    Except Error (SubscriptionPreConsumeResult × List Write) :=
  match s.record requestId with
  | some dup =>
    if dup.status = .refunded then .error (.text "subscription pre-consume already refunded")
    else .ok (⟨sub.id, dup.preConsumed, sub.amountTotal, sub.amountUsed, sub.amountUsed⟩, [])
  | none =>
    let charged := { sub with amountUsed := wrap64 (sub.amountUsed + amount) }
    .ok (⟨sub.id, amount, sub.amountTotal, sub.amountUsed, charged.amountUsed⟩,
      [.createRecord ⟨requestId, userId, sub.id, amount, .consumed⟩, .saveSub .charge charged])

def preConsumeGuard (requestId : String) (userId amount : Int) : Except Error Unit :=
  if userId ≤ 0 then .error (.text "invalid userId")
  else if trimSpace requestId = "" then .error (.text "requestId is empty")
  else if amount ≤ 0 then .error (.text "amount must be > 0")
  else .ok ()

/-- No other transaction comes between its statements. -/
def preConsumeUserSubscription (fuel : Nat) (loc : Location) (s : Store) (requestId : String)
    (userId amount now : Int) : Except Error (SubscriptionPreConsumeResult × List Write) :=
  match preConsumeGuard requestId userId amount, preConsumeLookup s requestId with
  | .error e, _ => .error e
  | _, .error e => .error e
  | .ok (), .ok (some result) => .ok (result, [])
  | .ok (), .ok none =>
    match preConsumeSelect fuel loc s userId amount now with
    | .error e => .error e
    | .ok (sub, resets) =>
      match preConsumeInsert s requestId userId amount sub with
      | .error e => .error e
      | .ok (result, writes) => .ok (result, resets ++ writes)

/-! ## Settlement deltas and refunds -/

def postConsumeUserSubscriptionDelta (userSubscriptionId delta : Int) : Except Error (List Write) :=
  if userSubscriptionId ≤ 0 then .error (.text "invalid userSubscriptionId")
  else if delta = 0 then .ok []
  else
    match s.sub userSubscriptionId with
    | none => .error .recordNotFound
    | some sub =>
      let newUsed := max (wrap64 (sub.amountUsed + delta)) 0
      if 0 < sub.amountTotal ∧ sub.amountTotal < newUsed then
        let total := sub.amountTotal
        .error (.text s!"subscription used exceeds total, used={newUsed} total={total}")
      else .ok [.saveSub .charge { sub with amountUsed := newUsed }]

/-- The delta has a transaction of its own; `inner` is everything up to its commit. -/
inductive RefundStep where
  | lockRecord | inner | saveRecord | commit
deriving DecidableEq

abbrev Faults := RefundStep → Bool

def finishRefund (record : SubscriptionPreConsumeRecord) (fails : Faults) (writes : List Write) :
    Except Error Unit × List Write :=
  if fails .saveRecord ∨ fails .commit then (.error .database, writes)
  else (.ok (), writes ++ [.saveRecord { record with status := .refunded }])

/-- Its answer and the writes that stay, the delta among them. -/
def refundSubscriptionPreConsume (requestId : String) (fails : Faults) : Except Error Unit × List Write :=
  if trimSpace requestId = "" then (.error (.text "requestId is empty"), [])
  else if fails .lockRecord then (.error .database, [])
  else
    match s.record requestId with
    | none => (.error .recordNotFound, [])
    | some record =>
      if record.status = .refunded then
        if fails .commit then (.error .database, []) else (.ok (), [])
      else if record.preConsumed ≤ 0 then finishRefund record fails []
      else if fails .inner then (.error .database, [])
      else
        match postConsumeUserSubscriptionDelta s record.userSubscriptionId (-record.preConsumed) with
        | .error e => (.error e, [])
        | .ok writes => finishRefund record fails writes

def maxAttempts : Nat := 3

def refundWithRetry (fn : Store → Faults → Except Error Unit × List Write) :
    Except Error Unit → Store → List Faults → Except Error Unit × Store
  | lastErr, s, [] => (lastErr, s)
  | _, s, fails :: rest =>
    match fn s fails with
    | (.ok (), writes) => (.ok (), s.commit writes)
    | (.error e, writes) => refundWithRetry fn (.error e) (s.commit writes) rest

/-- `attempts` are the faults of each attempt. -/
def subscriptionRefund (requestId : String) (preConsumed : Int) (attempts : Nat → Faults) : Except Error Unit × Store :=
  if preConsumed ≤ 0 then (.ok (), s)
  else refundWithRetry (fun s fails => refundSubscriptionPreConsume s requestId fails) (.ok ()) s
    ((List.range maxAttempts).map attempts)

/-! ## Resets -/

/-- The transaction of `ResetDueSubscriptions` on one row, whose plan was read before. -/
def resetDueSubscription (fuel : Nat) (loc : Location) (s : Store) (plan : SubscriptionPlan)
    (id now : Int) : Except Error (List Write) :=
  match s.sub id with
  | none => .ok []
  | some locked =>
    if 0 < locked.nextResetTime ∧ locked.nextResetTime ≤ now then
      match maybeReset fuel loc locked plan now with
      | .error e => .error e
      | .ok (sub, kind) => .ok (saveOf sub kind)
    else .ok []

structure SubscriptionResetResult where
  planId : Int
  matchedCount : Nat
  resetCount : Nat
  userCount : Nat
  advanceResetTime : Bool
  planTitle : String
  affectedUserIds : List Int
deriving DecidableEq

def buildSubscriptionResetResult (plan : SubscriptionPlan) (subs : List UserSubscription)
    (advanceResetTime : Bool) : SubscriptionResetResult :=
  let userIds := (subs.map UserSubscription.userId).reverse.dedup.reverse
  ⟨plan.id, subs.length, subs.length, userIds.length, advanceResetTime, plan.title, userIds⟩

def resetAll (loc : Location) (plan : SubscriptionPlan) (now : Int) (advanceResetTime : Bool)
    (subs : List UserSubscription) : List Write :=
  subs.map fun sub => .saveSub .reset (resetUserSubscription loc sub plan now advanceResetTime)

def adminResetUserSubscriptionsByPlan (loc : Location) (s : Store) (userId planId now : Int)
    (advanceResetTime : Bool) : Except Error (SubscriptionResetResult × List Write) :=
  if userId ≤ 0 ∨ planId ≤ 0 then .error (.text "invalid userId or planId")
  else
    match getSubscriptionPlanById s.plans planId with
    | .error e => .error e
    | .ok plan =>
      match (s.activeSubs userId now).filter fun sub => sub.planId = plan.id with
      | [] => .error (.text "This user has no active subscription to this plan")
      | subs => .ok (buildSubscriptionResetResult plan subs advanceResetTime,
          resetAll loc plan now advanceResetTime subs)

def adminResetPlanSubscriptions (loc : Location) (s : Store) (planId now : Int)
    (advanceResetTime : Bool) : Except Error (SubscriptionResetResult × List Write) :=
  if planId ≤ 0 then .error (.text "invalid planId")
  else
    match getSubscriptionPlanById s.plans planId with
    | .error e => .error e
    | .ok plan =>
      let subs := (s.subs.filter fun sub => sub.planId = plan.id ∧ sub.activeAt now).insertionSort
        fun a b => a.userId < b.userId ∨ a.userId = b.userId ∧ EndsBefore a b
      .ok (buildSubscriptionResetResult plan subs advanceResetTime,
        resetAll loc plan now advanceResetTime subs)

/-! ## The background reset -/

def subscriptionResetBatchSize : Int := 300

/-- A row or plan that cannot be read is passed over. -/
inductive RowFault where
  | lock | save
deriving DecidableEq

/-- The clock, and the accesses that fail. `fuel` bounds each catch-up loop. -/
structure ResetAccess where
  fuel : Nat
  now : Int
  queryFails : Bool
  rowFails : Int → Option RowFault

def UserSubscription.resetDueAt (sub : UserSubscription) (now : Int) : Prop :=
  0 < sub.nextResetTime ∧ sub.nextResetTime ≤ now

instance (sub : UserSubscription) (now : Int) : Decidable (sub.resetDueAt now) :=
  inferInstanceAs (Decidable (_ ∧ _))

def ResetsBefore (a b : UserSubscription) : Prop := a.nextResetTime ≤ b.nextResetTime

instance : DecidableRel ResetsBefore := fun a b =>
  inferInstanceAs (Decidable (a.nextResetTime ≤ b.nextResetTime))

/-- The rows that a batch reads. Equal times come in the order of the table. -/
def Store.dueForReset (s : Store) (now limit : Int) : List UserSubscription :=
  ((s.subs.filter fun sub => sub.resetDueAt now ∧ sub.status = .active).insertionSort ResetsBefore).take
    limit.toNat

/-- The answer of a batch. `counted` are the rows behind `resetCount`. -/
structure ResetBatch where
  counted : List Int
  error : Option Error
  store : Store

/-- A row without a plan is passed over; one that is locked and still due is counted. -/
def resetRows (loc : Location) (a : ResetAccess) : List UserSubscription → Store → ResetBatch
  | [], s => ⟨[], none, s⟩
  | sub :: rest, s =>
    match getSubscriptionPlanById s.plans sub.planId with
    | .error _ => resetRows loc a rest s
    | .ok plan =>
      if a.rowFails sub.id = some .lock then resetRows loc a rest s
      else
        match resetDueSubscription a.fuel loc s plan sub.id a.now with
        | .error e => ⟨[], some e, s⟩
        | .ok writes =>
          if a.rowFails sub.id = some .save then ⟨[], some .database, s⟩
          else
            let batch := resetRows loc a rest (s.commit writes)
            if (s.sub sub.id).any fun locked => locked.resetDueAt a.now then
              { batch with counted := sub.id :: batch.counted }
            else batch

def resetDueSubscriptions (loc : Location) (s : Store) (a : ResetAccess) (limit : Int) : ResetBatch :=
  let limit := if limit ≤ 0 then 200 else limit
  if a.queryFails then ⟨[], some .database, s⟩ else resetRows loc a (s.dueForReset a.now limit) s

structure ResetRun where
  store : Store
  running : Bool

/-- One turn of the loop. A batch that has not returned is no turn. -/
def ResetRun.turn (loc : Location) (r : ResetRun) (a : ResetAccess) : Option ResetRun :=
  if r.running then
    let batch := resetDueSubscriptions loc r.store a subscriptionResetBatchSize
    match batch.error with
    | some .unfinished => none
    | some _ => some ⟨batch.store, false⟩
    | none =>
      let n : Int := batch.counted.length
      some ⟨batch.store, n ≠ 0 ∧ ¬ n < subscriptionResetBatchSize⟩
  else none

end NewApi.Code
