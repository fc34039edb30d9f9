import NewApi.Code.Credit

/-!
# Top-up orders

What completes or closes an order in `model/topup.go`, each a transaction that holds the order's row; and the updates of
the Stripe and Waffo controllers that save a row from memory without a lock.
-/

namespace NewApi.Code

open Table Code.Credit

inductive TopUpStatus where
  | pending | success | failed | expired
deriving DecidableEq

/-- Found and saved by its trade number, which is unique. -/
structure TopUp where
  userId : Int
  amount : Int
  money : Rat
  tradeNo : String
  paymentMethod : String
  paymentProvider : String
  createTime : Int
  completeTime : Int
  status : TopUpStatus
deriving DecidableEq

structure TopUpDb where
  topUps : List TopUp
  users : List Payer
deriving DecidableEq

def TopUpDb.topUp (db : TopUpDb) (tradeNo : String) : Option TopUp := lookup TopUp.tradeNo db.topUps tradeNo

def paymentProviderEpay : String := "epay"
def paymentProviderStripe : String := "stripe"
def paymentProviderCreem : String := "creem"
def paymentProviderWaffo : String := "waffo"
def paymentProviderWaffoPancake : String := "waffo_pancake"

def errPaymentMethodMismatch : Error := .text "payment method mismatch"
def errTopUpNotFound : Error := .text "topup not found"
def errTopUpStatusInvalid : Error := .text "topup status invalid"

/-! ## Statements of a transaction -/

/-- A failed lock is taken for a missing order. -/
inductive TopUpStatement where
  | lock | save | user | credit | commit
deriving DecidableEq

structure TopUpAccess where
  now : Int
  fails : TopUpStatement → Bool

def lockTopUp (db : TopUpDb) (access : TopUpAccess) (tradeNo : String) (missing : Error) : Except Error TopUp :=
  if access.fails .lock then .error missing
  else
    match db.topUp tradeNo with
    | none => .error missing
    | some topUp => .ok topUp

def saveTopUp (db : TopUpDb) (access : TopUpAccess) (topUp : TopUp) : Except Error TopUpDb :=
  if access.fails .save then .error .database
  else .ok { db with topUps := save TopUp.tradeNo db.topUps topUp }

def topUpQuota (d : ℚ) : Except Error Int :=
  match walletQuotaFromDecimalStrict d with
  | none => .error errInvalidTopUpQuota
  | some quota => if quota ≤ 0 then .error errInvalidTopUpQuota else .ok quota

def TopUp.complete (topUp : TopUp) (now : Int) : TopUp := { topUp with completeTime := now, status := .success }

def completeTopUp (db : TopUpDb) (access : TopUpAccess) (topUp : TopUp) (d : ℚ) :
    Except Error (Option Receipt × TopUpDb) := do
  let quota ← topUpQuota d
  let db ← saveTopUp db access (topUp.complete access.now)
  let users ← creditTopUpQuota db.users (access.fails .credit) topUp.userId quota id
  .ok (some ⟨topUp.userId, quota⟩, { db with users })

def hideError (r : Except Error (Option Receipt) × TopUpDb) : Except Error (Option Receipt) × TopUpDb :=
  match r.1 with
  | .error _ => (.error (.text "top-up failed"), r.2)
  | .ok _ => r

/-! ## The functions of `model/topup.go`

A completion answers with what it has credited, and with `none` for an order that had succeeded before.
-/

section Functions

variable (quotaPerUnit : ℚ) (db : TopUpDb) (access : TopUpAccess)

def updatePendingTopUpStatus (tradeNo expectedPaymentProvider : String) (targetStatus : TopUpStatus) :
    Except Error Unit × TopUpDb :=
  if tradeNo = "" then (.error (.text "payment order number not provided"), db)
  else transaction db (access.fails .commit) do
    let topUp ← lockTopUp db access tradeNo errTopUpNotFound
    if expectedPaymentProvider ≠ "" ∧ topUp.paymentProvider ≠ expectedPaymentProvider then
      .error errPaymentMethodMismatch
    else if topUp.status ≠ .pending then .error errTopUpStatusInvalid
    else do
      let db ← saveTopUp db access { topUp with status := targetStatus }
      .ok ((), db)

def rechargeEpay (tradeNo actualPaymentMethod : String) : Except Error (Option Receipt) × TopUpDb :=
  if tradeNo = "" then (.error (.text "payment order number not provided"), db)
  else transaction db (access.fails .commit) do
    let topUp ← lockTopUp db access tradeNo errTopUpNotFound
    if topUp.paymentProvider ≠ paymentProviderEpay then .error errPaymentMethodMismatch
    else if topUp.status = .success then .ok (none, db)
    else if topUp.status ≠ .pending then .error errTopUpStatusInvalid
    else
      let topUp :=
        if actualPaymentMethod ≠ "" ∧ topUp.paymentMethod ≠ actualPaymentMethod then
          { topUp with paymentMethod := actualPaymentMethod }
        else topUp
      completeTopUp db access topUp (topUp.amount * quotaPerUnit)

/-- `Recharge`, for Stripe: the order is saved before its quota is computed. -/
def recharge (referenceId customerId : String) : Except Error (Option Receipt) × TopUpDb :=
  if referenceId = "" then (.error (.text "payment order number not provided"), db)
  else hideError <| transaction db (access.fails .commit) do
    let topUp ← lockTopUp db access referenceId (.text "top-up order not found")
    if topUp.paymentProvider ≠ paymentProviderStripe then .error errPaymentMethodMismatch
    else if topUp.status ≠ .pending then .error (.text "invalid top-up order status")
    else do
      let db ← saveTopUp db access (topUp.complete access.now)
      let quota ← topUpQuota (topUp.money * quotaPerUnit)
      let users ← creditTopUpQuota db.users (access.fails .credit) topUp.userId quota fun user =>
        { user with stripeCustomer := customerId }
      .ok (some ⟨topUp.userId, quota⟩, { db with users })

def manualCompleteTopUp (tradeNo : String) : Except Error (Option Receipt) × TopUpDb :=
  if tradeNo = "" then (.error (.text "Order number not provided"), db)
  else transaction db (access.fails .commit) do
    let topUp ← lockTopUp db access tradeNo (.text "Top-up order does not exist")
    if topUp.status = .success then .ok (none, db)
    else if topUp.status ≠ .pending then .error (.text "Order is not pending payment and cannot be completed")
    else
      completeTopUp db access topUp
        (if topUp.paymentProvider = paymentProviderStripe then topUp.money * quotaPerUnit
          else topUp.amount * quotaPerUnit)

/-- What `RechargeCreem` sets beside the quota: the address, where the user has none. -/
def creemUpdates (access : TopUpAccess) (userId : Int) (customerEmail : String) : Except Error (Payer → Payer) :=
  if customerEmail = "" then .ok id
  else if access.fails .user then .error .database
  else
    match lookup Payer.id db.users userId with
    | none => .error .recordNotFound
    | some user => .ok (if user.email = "" then fun user => { user with email := customerEmail } else id)

def rechargeCreem (referenceId customerEmail : String) : Except Error (Option Receipt) × TopUpDb :=
  if referenceId = "" then (.error (.text "payment order number not provided"), db)
  else hideError <| transaction db (access.fails .commit) do
    let topUp ← lockTopUp db access referenceId (.text "top-up order not found")
    if topUp.paymentProvider ≠ paymentProviderCreem then .error errPaymentMethodMismatch
    else if topUp.status ≠ .pending then .error (.text "invalid top-up order status")
    else do
      let db ← saveTopUp db access (topUp.complete access.now)
      let quota ← topUpQuota topUp.amount
      let updates ← creemUpdates db access topUp.userId customerEmail
      let users ← creditTopUpQuota db.users (access.fails .credit) topUp.userId quota updates
      .ok (some ⟨topUp.userId, quota⟩, { db with users })

/-- The two Waffo gateways differ in their provider only. -/
def rechargeGateway (paymentProvider tradeNo : String) : Except Error (Option Receipt) × TopUpDb :=
  if tradeNo = "" then (.error (.text "payment order number not provided"), db)
  else hideError <| transaction db (access.fails .commit) do
    let topUp ← lockTopUp db access tradeNo (.text "top-up order not found")
    if topUp.paymentProvider ≠ paymentProvider then .error errPaymentMethodMismatch
    else if topUp.status = .success then .ok (none, db)
    else if topUp.status ≠ .pending then .error (.text "invalid top-up order status")
    else completeTopUp db access topUp (topUp.amount * quotaPerUnit)

def rechargeWaffo (tradeNo : String) : Except Error (Option Receipt) × TopUpDb :=
  rechargeGateway quotaPerUnit db access paymentProviderWaffo tradeNo

def rechargeWaffoPancake (tradeNo : String) : Except Error (Option Receipt) × TopUpDb :=
  rechargeGateway quotaPerUnit db access paymentProviderWaffoPancake tradeNo

end Functions

/-! ## Updates without a lock -/

def TopUpDb.insert (db : TopUpDb) (topUp : TopUp) : Option TopUpDb :=
  if (db.topUp topUp.tradeNo).isSome then none else some { db with topUps := db.topUps ++ [topUp] }

/-- The row that it goes on to save. -/
def sessionAsyncPaymentFailed (db : TopUpDb) (referenceId : String) : Option TopUp :=
  if referenceId = "" then none
  else
    match db.topUp referenceId with
    | none => none
    | some topUp =>
      if topUp.paymentProvider ≠ paymentProviderStripe then none
      else if topUp.status ≠ .pending then none
      else some { topUp with status := .failed }

/-- `TopUp.Update`: every column as it is in memory. -/
def TopUpDb.update (db : TopUpDb) (topUp : TopUp) (fails : Bool) : TopUpDb :=
  if fails then db else { db with topUps := save TopUp.tradeNo db.topUps topUp }

end NewApi.Code
