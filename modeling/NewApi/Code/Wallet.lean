import NewApi.Code.Credit
import NewApi.Code.Reserve

/-!
# Operations on a wallet

What credits or charges one user in `model/{user,checkin,user_quota_adjustment,topup,redemption}.go`, and the flush of
the batch updater.
-/

namespace NewApi.Code.Wallets

open GoTime Code.Credit Code.Reserve

structure CheckinSetting where
  enabled : Bool
  minQuota : Int
  maxQuota : Int
deriving DecidableEq

structure Settings extends ReserveSettings where
  sqlite : Bool
  quotaPerUnit : ℚ
  checkin : CheckinSetting
deriving DecidableEq

structure UserWallet extends Wallet where
  affQuota : Int
  role : Int
  checkins : List String
deriving DecidableEq

def errWalletQuotaLimitExceeded : Error := .text "Wallet quota limit exceeded"

abbrev Outcome := Except Error Unit × UserWallet

variable (settings : Settings) (w : UserWallet)

def cacheIncrUserQuota (delta : Int) : UserWallet :=
  if settings.redisEnabled then { w with cache := (userQuotaDeltaScript w.cache delta).2 } else w

@[simp] theorem db_cacheIncrUserQuota (delta : Int) : (cacheIncrUserQuota settings w delta).db = w.db := by
  unfold cacheIncrUserQuota
  split <;> rfl

@[simp] theorem queue_cacheIncrUserQuota (delta : Int) : (cacheIncrUserQuota settings w delta).queue = w.queue := by
  unfold cacheIncrUserQuota
  split <;> rfl

def addUserQuotaRecord (value : Int) : UserWallet := { w with queue := saturatingAdd w.queue value }

/-! ## Payments, refunds and charges -/

/-- The credit in its transaction, then `syncCreditUserQuotaCache`. -/
def pay (creditedQuota : Int) (fails : Bool) : Outcome :=
  if fails then (.error .database, w)
  else
    match creditBalance w.db creditedQuota with
    | .error e => (.error e, w)
    | .ok db =>
      let w := { w with db }
      (.ok (), if creditedQuota ≤ 0 then w else cacheIncrUserQuota settings w creditedQuota)

def increaseQuota (quota : Int) (fails : Bool) : Except Error Int :=
  if fails then .error .database
  else if w.db ≤ maxWalletQuota - quota then .ok (w.db + quota)
  else .error errWalletQuotaLimitExceeded

def increaseUserQuota (quota : Int) (db fails : Bool) : Outcome :=
  if quota < 0 then (.error (.text "quota cannot be negative"), w)
  else
    match validateWalletQuota quota with
    | .error e => (.error e, w)
    | .ok () =>
      if db = false ∧ settings.batchUpdateEnabled then
        (.ok (), cacheIncrUserQuota settings (addUserQuotaRecord w quota) quota)
      else
        match increaseQuota w quota fails with
        | .error e => (.error e, w)
        | .ok balance => (.ok (), cacheIncrUserQuota settings { w with db := balance } quota)

/-- The cache is changed first, also where the statement fails. -/
def decreaseUserQuota (quota : Int) (db fails : Bool) : Outcome :=
  if quota < 0 then (.error (.text "quota cannot be negative"), w)
  else
    let w := cacheIncrUserQuota settings w (-quota)
    if db = false ∧ settings.batchUpdateEnabled then (.ok (), addUserQuotaRecord w (-quota))
    else if fails then (.error .database, w)
    else (.ok (), { w with db := w.db - quota })

/-! ## Check-in -/

structure CheckinFaults where
  read : Bool
  create : Bool
  quota : Bool
  commit : Bool
  delete : Bool
deriving DecidableEq

/-- The award, with the number that `rand.Intn` draws from. -/
def quotaAwarded (setting : CheckinSetting) (draw : Nat) : Int :=
  if setting.minQuota < setting.maxQuota then
    setting.minQuota + draw % (setting.maxQuota - setting.minQuota + 1)
  else setting.minQuota

def userCheckinWithTransaction (today : String) (award : Int) (fails : CheckinFaults) : Outcome :=
  if fails.create ∨ today ∈ w.checkins then (.error (.text "Check-in failed, please try again later"), w)
  else if fails.quota then (.error (.text "Check-in failed: quota update error"), w)
  else if fails.commit then (.error .database, w)
  else
    (.ok (), cacheIncrUserQuota settings { w with db := w.db + award, checkins := w.checkins ++ [today] } award)

/-- On SQLite the record is deleted by hand, which may fail. -/
def userCheckinWithoutTransaction (today : String) (award : Int) (fails : CheckinFaults) : Outcome :=
  if fails.create ∨ today ∈ w.checkins then (.error (.text "Check-in failed, please try again later"), w)
  else
    match increaseUserQuota settings { w with checkins := w.checkins ++ [today] } award true fails.quota with
    | (.ok (), after) => (.ok (), after)
    | (.error _, after) =>
      (.error (.text "Check-in failed: quota update error"),
        if fails.delete then after else { after with checkins := w.checkins })

def userCheckin (today : String) (draw : Nat) (fails : CheckinFaults) : Outcome :=
  if settings.checkin.enabled = false then (.error (.text "Check-in feature is not enabled"), w)
  else if fails.read then (.error .database, w)
  else if today ∈ w.checkins then (.error (.text "Already checked in today"), w)
  else
    let award := quotaAwarded settings.checkin draw
    if settings.sqlite then userCheckinWithoutTransaction settings w today award fails
    else userCheckinWithTransaction settings w today award fails

/-! ## Transfer and adjustment -/

/-- `fails`: a statement of its transaction fails. -/
def transferAffQuotaToQuota (quota : Int) (fails : Bool) : Outcome :=
  if (quota : ℚ) < settings.quotaPerUnit then (.error (.text "Minimum transfer quota is {{min}}!"), w)
  else if fails then (.error .database, w)
  else if w.affQuota < quota then (.error (.text "Invitation quota is insufficient!"), w)
  else (.ok (), { w with affQuota := wrap64 (w.affQuota - quota), db := wrap64 (w.db + quota) })

inductive AdjustMode where
  | add | subtract | override
deriving DecidableEq

def errInvalidUserQuotaAdjustment : Error := .text "invalid user quota adjustment"
def errUserQuotaPermission : Error := .text "cannot adjust quota for this user role"

def roleRootUser : Int := 100

/-- `AdjustUserQuota`. An unknown mode is `none`. -/
def adjustUserQuota (operatorRole : Int) (mode : Option AdjustMode) (value : Int) (fails : Bool) : Outcome :=
  match mode with
  | none => (.error errInvalidUserQuotaAdjustment, w)
  | some mode =>
    if mode ≠ .override ∧ value ≤ 0 then (.error errInvalidUserQuotaAdjustment, w)
    else if maxWalletQuota < value ∨ value < -maxWalletQuota then (.error errWalletQuotaLimitExceeded, w)
    else if fails then (.error .database, w)
    else if operatorRole ≠ roleRootUser ∧ operatorRole ≤ w.role then (.error errUserQuotaPermission, w)
    else if maxWalletQuota < w.db ∨ w.db < -maxWalletQuota then (.error errWalletQuotaLimitExceeded, w)
    else
      let quota : ℚ :=
        match mode with
        | .add => w.db + value
        | .subtract => w.db - value
        | .override => value
      match walletQuotaFromDecimalStrict quota with
      | none => (.error errWalletQuotaLimitExceeded, w)
      | some after =>
        let delta := after - w.db
        (.ok (), if delta ≠ 0 then cacheIncrUserQuota settings { w with db := after } delta else w)

/-! ## The batch updater and reservations -/

/-- `updateUserQuotaUsedQuotaAndRequestCount`; a failing statement is only logged. -/
def flush (fails : Bool) : UserWallet := if fails then { w with queue := 0 } else { w with db := w.db + w.queue, queue := 0 }

def terminal : Call → Bool
  | .reserved _ | .bought _ | .finished => true
  | _ => false

/-- Redis without errors; a read and a fill may find the user pending. -/
def redisWorks : Call → Reply → Bool
  | .reserve _, reply | .retry _, reply | .compensate _, reply | .decrCache _, reply => reply = .done
  | .cacheGetUserBase _, reply | .populate _ _, reply => reply ≠ .failed
  | _, _ => true

def finishCall : Wallet → Call → List Reply → Option Wallet
  | w, call, [] => if terminal call then some w else none
  | w, call, reply :: replies =>
    if redisWorks call reply then
      let next := call.advance settings.toReserveSettings w reply
      finishCall next.1 next.2 replies
    else none

inductive Start where
  | reserve (quota : Int)
  | read
  | purchase (requiredQuota : Int)
deriving DecidableEq

def Start.quota : Start → Int
  | .reserve quota => quota
  | _ => 0

def Start.call (settings : Settings) : Start → Call
  | .reserve quota => Reserve.tryReserveUserQuota settings.toReserveSettings quota
  | .read => .cacheGetUserBase none
  | .purchase requiredQuota => .buy requiredQuota

/-! ## The system -/

inductive Operation where
  | pay (creditedQuota : Int) (fails : Bool)
  | increase (quota : Int) (db fails : Bool)
  | decrease (quota : Int) (db fails : Bool)
  | checkin (today : String) (draw : Nat) (fails : CheckinFaults)
  | transfer (quota : Int) (fails : Bool)
  | adjust (operatorRole : Int) (mode : Option AdjustMode) (value : Int) (fails : Bool)

def Operation.run : Operation → Outcome
  | .pay creditedQuota fails => Wallets.pay settings w creditedQuota fails
  | .increase quota db fails => increaseUserQuota settings w quota db fails
  | .decrease quota db fails => decreaseUserQuota settings w quota db fails
  | .checkin today draw fails => userCheckin settings w today draw fails
  | .transfer quota fails => transferAffQuotaToQuota settings w quota fails
  | .adjust operatorRole mode value fails => adjustUserQuota settings w operatorRole mode value fails

/-- Calls of `Reserve` run, the updater flushes and the cached hash expires. -/
inductive Event where
  | operation (op : Operation)
  | call (start : Start) (replies : List Reply)
  | flush (fails : Bool)
  | expire

def step : Event → Option UserWallet
  | .operation op => some (op.run settings w).2
  | .call start replies =>
    (finishCall settings w.toWallet (start.call settings) replies).map fun after => { w with toWallet := after }
  | .flush fails => some (flush w fails)
  | .expire => some { w with cache := none }

end NewApi.Code.Wallets
