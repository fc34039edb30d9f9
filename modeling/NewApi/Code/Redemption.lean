import NewApi.Code.Credit

/-!
# Redemption codes

`model/redemption.go`, and `UpdateRedemption` of `controller/redemption.go`. A redemption is one transaction on the locked
row; an edit reads the row, and writes five of its columns later.
-/

namespace NewApi.Code

open Table Code.Credit

def redemptionCodeStatusEnabled : Int := 1
def redemptionCodeStatusUsed : Int := 3

/-- The status is a number, and an administrator may send any. -/
structure Redemption where
  id : Int
  key : String
  status : Int
  name : String
  quota : Int
  redeemedTime : Int
  usedUserId : Int
  expiredTime : Int
deriving DecidableEq

structure RedemptionDb where
  codes : List Redemption
  users : List Payer
deriving DecidableEq

variable (db : RedemptionDb)

def RedemptionDb.code (key : String) : Option Redemption :=
  db.codes.find? fun redemption => redemption.key = key

inductive RedeemStatement where
  | lock | swap | credit | commit
deriving DecidableEq

structure RedeemAccess where
  now : Int
  fails : RedeemStatement → Bool

def markUsed (codes : List Redemption) (id userId now : Int) : Option (List Redemption) :=
  if codes.any fun x => x.id = id ∧ x.status = redemptionCodeStatusEnabled then
    some (codes.map fun x =>
      if x.id = id ∧ x.status = redemptionCodeStatusEnabled then
        { x with redeemedTime := now, status := redemptionCodeStatusUsed, usedUserId := userId }
      else x)
  else none

def redeemTx (access : RedeemAccess) (key : String) (userId : Int) : Except Error (Int × RedemptionDb) :=
  match (if access.fails .lock then none else db.code key) with
  | none => .error (.text "invalid redemption code")
  | some redemption =>
    if redemption.status ≠ redemptionCodeStatusEnabled then .error (.text "redemption code already used")
    else if redemption.expiredTime ≠ 0 ∧ redemption.expiredTime < access.now then
      .error (.text "redemption code expired")
    else if access.fails .swap then .error .database
    else
      match markUsed db.codes redemption.id userId access.now with
      | none => .error (.text "redemption code already used")
      | some codes => do
        let users ← creditTopUpQuota db.users (access.fails .credit) userId redemption.quota id
        .ok (redemption.quota, { codes, users })

/-- The credited quota. Every error has the same text. -/
def redeem (db : RedemptionDb) (access : RedeemAccess) (key : String) (userId : Int) :
    Except Error Int × RedemptionDb :=
  if key = "" then (.error (.text "redemption code not provided"), db)
  else if userId = 0 then (.error (.text "invalid user id"), db)
  else
    match transaction db (access.fails .commit) (redeemTx db access key userId) with
    | (.error _, after) => (.error (.text "redeem.failed"), after)
    | (.ok quota, after) => (.ok quota, after)

/-! ## Edits -/

structure RedemptionEdit where
  id : Int
  statusOnly : Bool
  status : Int
  name : String
  quota : Int
  expiredTime : Int
deriving DecidableEq

def validateExpiredTime (expired now : Int) : Except Error Unit :=
  if expired ≠ 0 ∧ expired < now then .error (.text "Expiration time cannot be earlier than current time") else .ok ()

def getRedemptionById (id : Int) : Except Error Redemption :=
  if id = 0 then .error (.text "ID is empty")
  else
    match lookup Redemption.id db.codes id with
    | none => .error .recordNotFound
    | some redemption => .ok redemption

/-- `UpdateRedemption` up to its write. -/
def readForUpdate (edit : RedemptionEdit) (now : Int) : Except Error Redemption := do
  let cleanRedemption ← getRedemptionById db edit.id
  if edit.statusOnly then .ok { cleanRedemption with status := edit.status }
  else if edit.quota ≤ 0 then .error (.text "Redemption quota must be positive")
  else do
    validateWalletQuota edit.quota
    validateExpiredTime edit.expiredTime now
    .ok { cleanRedemption with name := edit.name, quota := edit.quota, expiredTime := edit.expiredTime }

/-- The selected columns are written as they are in memory. -/
def RedemptionDb.update (redemption : Redemption) (fails : Bool) : Except Error Unit × RedemptionDb :=
  if redemption.quota ≤ 0 then (.error (.text "redemption quota must be positive"), db)
  else
    match validateWalletQuota redemption.quota with
    | .error e => (.error e, db)
    | .ok () =>
      if fails then (.error .database, db)
      else
        (.ok (), { db with codes := db.codes.map fun x =>
          if x.id = redemption.id then
            { x with
              name := redemption.name
              status := redemption.status
              quota := redemption.quota
              redeemedTime := redemption.redeemedTime
              expiredTime := redemption.expiredTime }
          else x })

end NewApi.Code

