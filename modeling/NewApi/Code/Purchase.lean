import NewApi.Code.Group
import NewApi.Code.TopUp

/-!
# Purchases of a subscription

`model/subscription.go`, access by access. Writes are seen when a transaction commits, and a row that it has locked stays
locked until then.
-/

namespace NewApi.Code.Purchase

open GoTime Table Code.Credit

/-- A plain read sees what is committed now, or at the transaction's first plain read. -/
inductive Isolation where
  | perStatement | snapshot
deriving DecidableEq

structure SubscriptionOrder where
  userId : Int
  planId : Int
  money : Rat
  tradeNo : String
  paymentMethod : String
  paymentProvider : String
  status : TopUpStatus
  createTime : Int
  completeTime : Int
  providerPayload : String
deriving DecidableEq

structure PlanSale where
  enabled : Bool
  allowBalancePay : Option Bool
deriving DecidableEq

structure Settings where
  isolation : Isolation
  loc : Location
  quotaPerUnit : ℚ
  sale : Int → PlanSale

/-- What is committed. `wallets` are the balances of the users. -/
structure World where
  store : Store
  orders : List SubscriptionOrder
  topUps : List TopUp
  wallets : Int → Int

def World.order (w : World) (tradeNo : String) : Option SubscriptionOrder :=
  lookup SubscriptionOrder.tradeNo w.orders tradeNo

def errSubscriptionOrderNotFound : Error := .text "subscription order not found"
def errSubscriptionOrderStatusInvalid : Error := .text "subscription order status invalid"

def paymentMethodBalance : String := "balance"
def paymentProviderBalance : String := "balance"

/-- The number in the text of a refused conversion is left out. -/
def calcSubscriptionBalanceQuota (quotaPerUnit priceAmount : ℚ) : Except Error Int :=
  if priceAmount ≤ 0 then .ok 0
  else if quotaPerUnit ≤ 0 then .error (.text "Quota unit is misconfigured")
  else
    match walletQuotaFromDecimalStrict ⌈priceAmount * quotaPerUnit⌉ with
    | none => .error (.text "quota conversion (WalletQuotaFromDecimal) overflow")
    | some quota => .ok quota

def upsertSubscriptionTopUp (topUps : List TopUp) (order : SubscriptionOrder) (now : Int) : Except Error (List TopUp) :=
  match lookup TopUp.tradeNo topUps order.tradeNo with
  | none =>
    .ok (topUps ++ [{
      userId := order.userId
      amount := 0
      money := order.money
      tradeNo := order.tradeNo
      paymentMethod := order.paymentMethod
      paymentProvider := ""
      createTime := order.createTime
      completeTime := now
      status := .success }])
  | some topUp =>
    if topUp.paymentMethod ≠ "" ∧ topUp.paymentMethod ≠ order.paymentMethod then .error errPaymentMethodMismatch
    else
      .ok (save TopUp.tradeNo topUps { topUp with
        money := order.money
        paymentMethod := if topUp.paymentMethod = "" then order.paymentMethod else topUp.paymentMethod
        createTime := if topUp.createTime = 0 then order.createTime else topUp.createTime
        completeTime := now
        status := .success })

/-! ## Transactions -/

structure Completion where
  tradeNo : String
  providerPayload : String
  expectedPaymentProvider : String
  actualPaymentMethod : String
deriving DecidableEq

/-- On whose behalf a subscription is created. -/
inductive Buyer where
  | order (call : Completion) (order : SubscriptionOrder)
  | balance (userId requiredQuota : Int)
  | admin (userId : Int)

def Buyer.userId : Buyer → Int
  | .order _ row => row.userId
  | .balance userId _ => userId
  | .admin userId => userId

def Buyer.source : Buyer → String
  | .order _ _ => "order"
  | .balance _ _ => paymentMethodBalance
  | .admin _ => "admin"

/-- Where a transaction stands. A snapshot that it has fixed goes with it. -/
inductive Tx where
  | idle
  | completing (call : Completion)
  | ordered (call : Completion) (order : SubscriptionOrder)
  | buying (userId planId : Int)
  | binding (userId planId : Int)
  | planned (buyer : Buyer) (plan : SubscriptionPlan) (view : Option (List UserSubscription))
  | locked (buyer : Buyer) (plan : SubscriptionPlan) (view : Option (List UserSubscription))
  | counted (buyer : Buyer) (plan : SubscriptionPlan) (view : List UserSubscription)
  | finished (answer : Except Error Unit)

/-- The clock, the cache of plans, failures, and the trade number of a purchase. -/
structure Access where
  now : Int
  cached : Bool
  fails : Bool
  tradeNo : String

def checkOrder (call : Completion) (order : SubscriptionOrder) : Except (Except Error Unit) Unit :=
  if call.expectedPaymentProvider ≠ "" ∧ order.paymentProvider ≠ call.expectedPaymentProvider then
    .error (.error errPaymentMethodMismatch)
  else if order.status = .success then .error (.ok ())
  else if order.status ≠ .pending then .error (.error errSubscriptionOrderStatusInvalid)
  else .ok ()

def checkSale (settings : Settings) (plan : SubscriptionPlan) : Except Error Int :=
  if (settings.sale plan.id).enabled = false then .error (.text "Subscription plan is not enabled")
  else if plan.priceAmount < 0 then .error (.text "Price cannot be negative")
  else if (settings.sale plan.id).allowBalancePay = some false then
    .error (.text "This plan does not allow balance redemption")
  else calcSubscriptionBalanceQuota settings.quotaPerUnit plan.priceAmount

def checkUser (w : World) : Buyer → Except Error Unit
  | .balance userId requiredQuota =>
    if 0 < requiredQuota ∧ w.wallets userId < requiredQuota then .error (.text "Insufficient balance") else .ok ()
  | _ => .ok ()

def SubscriptionOrder.complete (order : SubscriptionOrder) (call : Completion) (now : Int) : SubscriptionOrder :=
  { order with
    status := .success
    completeTime := now
    providerPayload := if call.providerPayload ≠ "" then call.providerPayload else order.providerPayload
    paymentMethod :=
      if call.actualPaymentMethod ≠ "" ∧ order.paymentMethod ≠ call.actualPaymentMethod then
        call.actualPaymentMethod
      else order.paymentMethod }

def balanceOrder (userId requiredQuota : Int) (plan : SubscriptionPlan) (access : Access) : SubscriptionOrder where
  userId := userId
  planId := plan.id
  money := plan.priceAmount
  tradeNo := access.tradeNo
  paymentMethod := paymentMethodBalance
  paymentProvider := paymentProviderBalance
  status := .success
  createTime := access.now
  completeTime := access.now
  providerPayload := "charged_quota=" ++ toString requiredQuota

def settle (w : World) (access : Access) (plan : SubscriptionPlan) : Buyer → Except Error World
  | .order call order => do
    let topUps ← upsertSubscriptionTopUp w.topUps order access.now
    .ok { w with
      topUps
      orders := save SubscriptionOrder.tradeNo w.orders (order.complete call access.now) }
  | .balance userId requiredQuota =>
    if (w.order access.tradeNo).isSome then .error .database
    else .ok { w with
      wallets := fun u => if u = userId then w.wallets u - max requiredQuota 0 else w.wallets u
      orders := w.orders ++ [balanceOrder userId requiredQuota plan access] }
  | .admin _ => .ok w

/-- `CreateUserSubscriptionFromPlanTx` on the rows that its count sees. -/
def create (settings : Settings) (w : World) (access : Access) (buyer : Buyer) (plan : SubscriptionPlan)
    (view : List UserSubscription) : Except Error World :=
  if access.fails then .error .database
  else do
    let (_, writes) ← createUserSubscriptionFromPlan settings.loc { w.store with subs := view } buyer.userId plan
      buyer.source access.now
    settle { w with store := w.store.commit writes } access plan buyer

/-! ## The system -/

/-- `created` remembers the orders that have created a subscription. -/
structure State where
  world : World
  txs : Nat → Tx
  userLock : Int → Option Nat
  orderLock : String → Option Nat
  created : List String

def State.set (s : State) (i : Nat) (tx : Tx) : State := { s with txs := Function.update s.txs i tx }

/-- The transaction ends and gives its locks back. -/
def State.finish (s : State) (i : Nat) (answer : Except Error Unit) : State where
  world := s.world
  txs := Function.update s.txs i (.finished answer)
  userLock := fun u => if s.userLock u = some i then none else s.userLock u
  orderLock := fun n => if s.orderLock n = some i then none else s.orderLock n
  created := s.created

def State.lockUser (s : State) (i : Nat) (userId : Int) : State :=
  { s with userLock := Function.update s.userLock userId (some i) }

def State.lockOrder (s : State) (i : Nat) (tradeNo : String) : State :=
  { s with orderLock := Function.update s.orderLock tradeNo (some i) }

def Buyer.creates : Buyer → List String
  | .order _ row => [row.tradeNo]
  | _ => []

inductive Event where
  | complete (i : Nat) (call : Completion)
  | buy (i : Nat) (userId planId : Int)
  | bind (i : Nat) (userId planId : Int)
  | advance (i : Nat) (access : Access)
  | insertOrder (order : SubscriptionOrder)
  | expireOrder (tradeNo expectedPaymentProvider : String) (access : Access)
  | failOrder (order : SubscriptionOrder)

/-- The next access of a transaction, or `none` while it waits for a lock. -/
def advance (settings : Settings) (s : State) (i : Nat) (access : Access) : Option State :=
  match s.txs i with
  | .completing call =>
    if s.orderLock call.tradeNo ≠ none then none
    else
      match (if access.fails then none else s.world.order call.tradeNo) with
      | none => some (s.finish i (.error errSubscriptionOrderNotFound))
      | some order =>
        match checkOrder call order with
        | .error answer => some (s.finish i answer)
        | .ok () => some ((s.set i (.ordered call order)).lockOrder i call.tradeNo)
  | .ordered call order =>
    -- The plan is read outside of the transaction.
    match (if access.fails then .error .database else getSubscriptionPlanById s.world.store.plans order.planId) with
    | .error e => some (s.finish i (.error e))
    | .ok plan => some (s.set i (.planned (.order call order) plan none))
  | .buying userId planId =>
    -- This read is the first one of the transaction where the plan is not in the cache.
    match (if access.fails then .error .database else getSubscriptionPlanById s.world.store.plans planId) with
    | .error e => some (s.finish i (.error e))
    | .ok plan =>
      match checkSale settings plan with
      | .error e => some (s.finish i (.error e))
      | .ok requiredQuota =>
        some (s.set i (.planned (.balance userId requiredQuota) plan
          (if settings.isolation = .snapshot ∧ access.cached = false then some s.world.store.subs else none)))
  | .binding userId planId =>
    match (if access.fails then .error .database else getSubscriptionPlanById s.world.store.plans planId) with
    | .error e => some (s.finish i (.error e))
    | .ok plan => some (s.set i (.planned (.admin userId) plan none))
  | .planned buyer plan view =>
    if s.userLock buyer.userId ≠ none then none
    else if access.fails then some (s.finish i (.error .database))
    else if lookup User.id s.world.store.users buyer.userId = none then some (s.finish i (.error .recordNotFound))
    else
      match checkUser s.world buyer with
      | .error e => some (s.finish i (.error e))
      | .ok () => some ((s.set i (.locked buyer plan view)).lockUser i buyer.userId)
  | .locked buyer plan view => some (s.set i (.counted buyer plan (view.getD s.world.store.subs)))
  | .counted buyer plan view =>
    match create settings s.world access buyer plan view with
    | .error e => some (s.finish i (.error e))
    | .ok world =>
      let done := s.finish i (.ok ())
      some { done with world, created := done.created ++ buyer.creates }
  | _ => none

/-- `ExpireSubscriptionOrder`, which locks the order in one transaction. -/
def expireSubscriptionOrder (w : World) (tradeNo expectedPaymentProvider : String) (access : Access) :
    Except Error Unit × World :=
  if tradeNo = "" then (.error (.text "tradeNo is empty"), w)
  else
    match (if access.fails then none else w.order tradeNo) with
    | none => (.error errSubscriptionOrderNotFound, w)
    | some order =>
      if expectedPaymentProvider ≠ "" ∧ order.paymentProvider ≠ expectedPaymentProvider then
        (.error errPaymentMethodMismatch, w)
      else if order.status ≠ .pending then (.ok (), w)
      else
        let expired := { order with status := .expired, completeTime := access.now }
        (.ok (), { w with orders := save SubscriptionOrder.tradeNo w.orders expired })

/-- `failOrder` saves a row in memory after the gateway has refused the checkout. -/
def step (settings : Settings) (s : State) : Event → Option State
  | .complete i call =>
    match s.txs i with
    | .idle =>
      if call.tradeNo = "" then some (s.finish i (.error (.text "tradeNo is empty")))
      else some (s.set i (.completing call))
    | _ => none
  | .buy i userId planId =>
    match s.txs i with
    | .idle =>
      if userId ≤ 0 ∨ planId ≤ 0 then some (s.finish i (.error (.text "invalid userId or planId")))
      else some (s.set i (.buying userId planId))
    | _ => none
  | .bind i userId planId =>
    match s.txs i with
    | .idle =>
      if userId ≤ 0 ∨ planId ≤ 0 then some (s.finish i (.error (.text "invalid userId or planId")))
      else some (s.set i (.binding userId planId))
    | _ => none
  | .advance i access => advance settings s i access
  | .insertOrder order =>
    if order.status = .pending ∧ s.world.order order.tradeNo = none then
      some { s with world := { s.world with orders := s.world.orders ++ [order] } }
    else none
  | .expireOrder tradeNo expectedPaymentProvider access =>
    if s.orderLock tradeNo ≠ none then none
    else
      some { s with world := (expireSubscriptionOrder s.world tradeNo expectedPaymentProvider access).2 }
  | .failOrder order =>
    if s.orderLock order.tradeNo ≠ none then none
    else
      let failed := { order with status := .failed }
      some { s with world := { s.world with orders := save SubscriptionOrder.tradeNo s.world.orders failed } }

end NewApi.Code.Purchase
