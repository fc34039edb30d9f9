import NewApi.Lib.GoTime
import NewApi.Lib.Table

/-!
# The batch updater

`model/utils.go`: changes of balances are summed up in memory, and a run swaps the sums out and writes them.
-/

namespace NewApi.Code

open GoTime Table

inductive BatchType where
  | userQuota | tokenQuota | usedQuota | channelUsedQuota | requestCount
deriving DecidableEq

def batchTypes : List BatchType := [.userQuota, .tokenQuota, .usedQuota, .channelUsedQuota, .requestCount]

/-! ## The queues -/

/-- A sum that waits. The code keeps `value` only; `deltas` is its history. -/
structure Amount where
  value : Int
  deltas : List Int
deriving DecidableEq

def Amount.zero : Amount := ⟨0, []⟩

structure Entry where
  id : Int
  amount : Amount
deriving DecidableEq

abbrev Stores := BatchType → List Entry

def Stores.empty : Stores := fun _ => []

def amountOf (store : List Entry) (id : Int) : Amount := (lookup Entry.id store id).elim .zero Entry.amount

def maxInt : Int := 2 ^ 63 - 1

def minInt : Int := -2 ^ 63

def saturatingAdd (old value : Int) : Int :=
  let sum := wrap64 (old + value)
  if 0 < value ∧ sum < old ∨ value < 0 ∧ old < sum then
    if 0 < value then maxInt else minInt
  else sum

theorem saturatingAdd_eq {old value : Int} (h₁ : -2 ^ 63 ≤ old + value) (h₂ : old + value < 2 ^ 63) :
    saturatingAdd old value = old + value := by
  unfold saturatingAdd
  rw [wrap64_eq h₁ h₂]
  rw [if_neg (by omega)]

def addToStore (store : List Entry) (id value : Int) : List Entry :=
  match lookup Entry.id store id with
  | none => store ++ [⟨id, value, [value]⟩]
  | some old =>
    save Entry.id store ⟨id, saturatingAdd old.amount.value value, old.amount.deltas ++ [value]⟩

def addNewRecord (stores : Stores) (type : BatchType) (id value : Int) : Stores :=
  Function.update stores type (addToStore (stores type) id value)

/-! ## The database -/

structure UserRow where
  id : Int
  quota : Int
  usedQuota : Int
  requestCount : Int
deriving DecidableEq

structure TokenRow where
  id : Int
  remainQuota : Int
  usedQuota : Int
deriving DecidableEq

structure ChannelRow where
  id : Int
  usedQuota : Int
deriving DecidableEq

structure Balances where
  users : List UserRow
  tokens : List TokenRow
  channels : List ChannelRow
deriving DecidableEq

inductive Statement where
  | token (id : Int) (amount : Amount)
  | channel (id : Int) (amount : Amount)
  | user (id : Int) (quota usedQuota requestCount : Amount)
deriving DecidableEq

/-- `increaseTokenQuota` of a flush: the value may be negative. -/
def batchTokenQuota (db : Balances) (id value : Int) : Balances :=
  { db with tokens := updateRow TokenRow.id db.tokens id fun row =>
      { row with remainQuota := row.remainQuota + value, usedQuota := row.usedQuota - value } }

def updateChannelUsedQuota (db : Balances) (id value : Int) : Balances :=
  { db with channels := updateRow ChannelRow.id db.channels id fun row =>
      { row with usedQuota := row.usedQuota + value } }

def updateUserQuotaUsedQuotaAndRequestCount (db : Balances) (id quota usedQuota requestCount : Int) : Balances :=
  if quota = 0 ∧ usedQuota = 0 ∧ requestCount = 0 then db
  else { db with users := updateRow UserRow.id db.users id fun row =>
      { row with
        quota := row.quota + quota
        usedQuota := row.usedQuota + usedQuota
        requestCount := row.requestCount + requestCount } }

def Statement.exec (db : Balances) : Statement → Balances
  | .token id amount => batchTokenQuota db id amount.value
  | .channel id amount => updateChannelUsedQuota db id amount.value
  | .user id quota usedQuota requestCount =>
    updateUserQuotaUsedQuotaAndRequestCount db id quota.value usedQuota.value requestCount.value

/-! ## `batchUpdate` -/

def userIds (stores : Stores) : List Int :=
  ((stores .userQuota).map Entry.id ++ (stores .usedQuota).map Entry.id ++
    (stores .requestCount).map Entry.id).dedup

/-- What a flush writes, in any order. -/
def statements (stores : Stores) : List Statement :=
  (stores .tokenQuota).map (fun e => .token e.id e.amount) ++
  (stores .channelUsedQuota).map (fun e => .channel e.id e.amount) ++
  (userIds stores).map fun id => .user id (amountOf (stores .userQuota) id) (amountOf (stores .usedQuota) id)
    (amountOf (stores .requestCount) id)

inductive BatchRun where
  | checking (rest : List BatchType)
  | swapping (rest : List BatchType) (stores : Stores)
  | draining (pending : List Statement)
  | finished

def BatchRun.advance (queue : Stores) : BatchRun → BatchRun × Stores
  | .checking [] => (.finished, queue)
  | .checking (type :: rest) =>
    if queue type = [] then (.checking rest, queue) else (.swapping batchTypes .empty, queue)
  | .swapping [] stores => (.draining (statements stores), queue)
  | .swapping (type :: rest) stores =>
    (.swapping rest (Function.update stores type (queue type)), Function.update queue type [])
  | .draining [] => (.finished, queue)
  | .draining pending => (.draining pending, queue)
  | .finished => (.finished, queue)

end NewApi.Code
