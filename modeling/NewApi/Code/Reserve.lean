import NewApi.Code.Batch

/-!
# Reservations from the wallet

`model/quota_reserve.go`, `model/user_cache.go` and `PurchaseSubscriptionWithBalance`. Scripts, statements and transactions
are single steps.
-/

namespace NewApi.Code.Reserve

structure ReserveSettings where
  redisEnabled : Bool
  batchUpdateEnabled : Bool
deriving DecidableEq

/-- `queue` is the waiting sum, `inFlight` the sums that a flush has swapped out. -/
structure Wallet where
  db : Int
  cache : Option Int
  queue : Int
  inFlight : List Int
deriving DecidableEq

/-! ## Scripts and statements -/

inductive CacheQuotaResult where
  | insufficient | ok | miss
deriving DecidableEq

def userQuotaReserveScript (cache : Option Int) (amount : Int) : CacheQuotaResult × Option Int :=
  match cache with
  | none => (.miss, none)
  | some quota => if quota < amount then (.insufficient, some quota) else (.ok, some (quota - amount))

def userQuotaDeltaScript (cache : Option Int) (delta : Int) : CacheQuotaResult × Option Int :=
  match cache with
  | none => (.miss, none)
  | some quota => (.ok, some (quota + delta))

variable (settings : ReserveSettings)

/-- `writeUserCache` with the quota: a balance that is there stays. -/
def populateUserCache (cache : Option Int) (quota : Int) : Option Int :=
  if settings.redisEnabled then some (cache.getD quota) else cache

def cacheDecrUserQuota (cache : Option Int) (delta : Int) : Option Int :=
  if settings.redisEnabled then (userQuotaDeltaScript cache (-delta)).2 else cache

def reserveUserQuotaDB (db quota : Int) : Bool × Int :=
  if quota ≤ db then (true, db - quota) else (false, db)

/-- The price taken and the row, or a refusal. -/
def purchase (db requiredQuota : Int) : Option (Int × Int) :=
  if 0 < requiredQuota ∧ db < requiredQuota then none
  else if 0 < requiredQuota then some (requiredQuota, db - requiredQuota)
  else some (0, db)

/-! ## Calls -/

/-- How an access ends. `pending` is `ErrUserAuthCachePending`. -/
inductive Reply where
  | done | failed | pending
deriving DecidableEq

/-- A `GetUserCache` with `waiting = some quota` serves a reservation. -/
inductive Call where
  | reserve (quota : Int)
  | cacheGetUserBase (waiting : Option Int)
  | getUserById (waiting : Option Int)
  | populate (snapshot : Int) (waiting : Option Int)
  | retry (quota : Int)
  | persist (quota : Int)
  | compensate (quota : Int)
  | reserveDB (quota : Int)
  | buy (requiredQuota : Int)
  | decrCache (chargedQuota : Int)
  | reserved (quota : Int)
  | bought (chargedQuota : Int)
  | finished
deriving DecidableEq

def tryReserveUserQuota (quota : Int) : Call :=
  if quota < 0 then .finished
  else if quota = 0 then .reserved 0
  else if settings.redisEnabled then .reserve quota
  else .reserveDB quota

def hydrated : Option Int → Call
  | some quota => .retry quota
  | none => .finished

def hydrateFailed : Option Int → Call
  | some quota => .reserveDB quota
  | none => .finished

/-- It goes on with `miss` after a miss; an error goes to the database. -/
def cacheTryReserveUserQuota (w : Wallet) (reply : Reply) (quota : Int) (miss : Call) : Wallet × Call :=
  if reply = .done then
    match userQuotaReserveScript w.cache quota with
    | (.miss, _) => (w, miss)
    | (.insufficient, _) => (w, .finished)
    | (.ok, cache) => ({ w with cache }, .persist quota)
  else (w, .reserveDB quota)

/-- In batch mode the change is queued, which cannot fail. -/
def persistUserQuotaDelta (w : Wallet) (reply : Reply) (quota : Int) : Wallet × Call :=
  if settings.batchUpdateEnabled then ({ w with queue := saturatingAdd w.queue (-quota) }, .reserved quota)
  else if reply = .done then ({ w with db := w.db - quota }, .reserved quota)
  else (w, .compensate quota)

def Call.advance (w : Wallet) (reply : Reply) : Call → Wallet × Call
  | .reserve quota => cacheTryReserveUserQuota w reply quota (.cacheGetUserBase (some quota))
  | .cacheGetUserBase waiting =>
    if settings.redisEnabled ∧ reply = .done ∧ w.cache.isSome then (w, hydrated waiting)
    else (w, .getUserById waiting)
  | .getUserById waiting =>
    if reply = .done then (w, .populate w.db waiting) else (w, hydrateFailed waiting)
  | .populate snapshot waiting =>
    match reply with
    | .done => ({ w with cache := populateUserCache settings w.cache snapshot }, hydrated waiting)
    | .failed => (w, hydrated waiting) -- only logged
    | .pending => (w, hydrateFailed waiting)
  | .retry quota => cacheTryReserveUserQuota w reply quota (.reserveDB quota)
  | .persist quota => persistUserQuotaDelta settings w reply quota
  | .compensate quota =>
    if reply = .done then ({ w with cache := (userQuotaDeltaScript w.cache quota).2 }, .finished) else (w, .finished)
  | .reserveDB quota =>
    if reply = .done then
      match reserveUserQuotaDB w.db quota with
      | (true, db) => ({ w with db }, .reserved quota)
      | (false, _) => (w, .finished)
    else (w, .finished)
  | .buy requiredQuota =>
    if reply = .done then
      match purchase w.db requiredQuota with
      | none => (w, .finished)
      | some (chargedQuota, db) =>
        ({ w with db }, if 0 < chargedQuota then .decrCache chargedQuota else .bought chargedQuota)
    else (w, .finished)
  | .decrCache chargedQuota =>
    if reply = .done then
      ({ w with cache := cacheDecrUserQuota settings w.cache chargedQuota }, .bought chargedQuota)
    else (w, .bought chargedQuota) -- only logged
  | call => (w, call)

end NewApi.Code.Reserve

