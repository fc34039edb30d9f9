import Mathlib.Data.Rat.Floor
import NewApi.Code.Subscription
import NewApi.Lib.Table

/-!
# Credits to a wallet

The conversions of `common/quota_math.go`, and `creditTopUpQuota` of `model/topup.go`, with which orders and
redemption codes pay.
-/

namespace NewApi.Code.Credit

open Table

def maxWalletQuota : Int := 2 ^ 53 - 1

def validateWalletQuota (quota : Int) : Except Error Unit :=
  if maxWalletQuota < quota then .error (.text "wallet quota exceeds 9007199254740991") else .ok ()

def errInvalidTopUpQuota : Error := .text "Invalid top-up quota"

def errTopUpQuotaLimitExceeded : Error := .text "Top-up quota limit exceeded"

def roundDecimal (d : ℚ) : Int := if 0 ≤ d then ⌊d + 1 / 2⌋ else -⌊-d + 1 / 2⌋

/-- Up to the ceiling every integer is a `float64`; `none` is the `QuotaClamp` error. -/
def walletQuotaFromDecimalStrict (d : ℚ) : Option Int :=
  let quota := roundDecimal d
  if maxWalletQuota < quota ∨ quota < -maxWalletQuota then none else some quota

def topUpQuotaMaxCurrent (creditedQuota : Int) : Except Error Int :=
  if creditedQuota ≤ 0 ∨ maxWalletQuota < creditedQuota then .error errInvalidTopUpQuota
  else .ok (maxWalletQuota - creditedQuota)

def creditBalance (balance creditedQuota : Int) : Except Error Int :=
  match topUpQuotaMaxCurrent creditedQuota with
  | .error e => .error e
  | .ok maxCurrentQuota =>
    if balance ≤ maxCurrentQuota then .ok (balance + creditedQuota) else .error errTopUpQuotaLimitExceeded

theorem creditBalance_ok {balance creditedQuota after : Int} (h : creditBalance balance creditedQuota = .ok after) :
    0 < creditedQuota ∧ after = balance + creditedQuota ∧ after ≤ maxWalletQuota := by
  unfold creditBalance topUpQuotaMaxCurrent at h
  split at h
  · cases h
  rename_i hmax
  split at hmax
  · cases hmax
  cases hmax
  split at h
  · cases h
    omega
  · cases h

structure Payer where
  id : Int
  quota : Int
  email : String
  stripeCustomer : String
deriving DecidableEq

/-- `updates` are the other columns of the statement. -/
def creditTopUpQuota (users : List Payer) (fails : Bool) (userId creditedQuota : Int) (updates : Payer → Payer) :
    Except Error (List Payer) :=
  match topUpQuotaMaxCurrent creditedQuota with
  | .error e => .error e
  | .ok _ =>
    if fails then .error .database
    else
      match lookup Payer.id users userId with
      | none => .error .recordNotFound
      | some user =>
        match creditBalance user.quota creditedQuota with
        | .error e => .error e
        | .ok quota => .ok (save Payer.id users { updates user with id := user.id, quota })

structure Receipt where
  userId : Int
  quota : Int
deriving DecidableEq

def transaction {α δ : Type} (db : δ) (commitFails : Bool) (body : Except Error (α × δ)) : Except Error α × δ :=
  match body with
  | .error e => (.error e, db)
  | .ok (answer, after) => if commitFails then (.error .database, db) else (.ok answer, after)

end NewApi.Code.Credit
