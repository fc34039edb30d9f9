import Mathlib.Data.Rat.Init
import Mathlib.Algebra.Order.Ring.Unbundled.Rat
import NewApi.Code.Subscription

/-!
# The billing session

`service/billing_session.go` and `service/funding_source.go`. The answers of the database are inputs, and a step that
fails has no effect.
-/

namespace NewApi.Code

open GoTime GoText

/-! ## Accounts -/

structure Accounts where
  wallet : Int
  token : Int
  store : Store
deriving DecidableEq

inductive Answer where
  | granted | refused | failed
deriving DecidableEq

/-- `fails` stands for every other reason to leave the row as it is. -/
def checkedQuota (quota : Int) (fails : Bool) (after : Accounts) : Except Error Accounts :=
  if quota < 0 then .error (.text "quota cannot be negative")
  else if fails then .error .database
  else .ok after

def increaseUserQuota (a : Accounts) (quota : Int) (fails : Bool) : Except Error Accounts :=
  checkedQuota quota fails { a with wallet := a.wallet + quota }

def decreaseUserQuota (a : Accounts) (quota : Int) (fails : Bool) : Except Error Accounts :=
  checkedQuota quota fails { a with wallet := a.wallet - quota }

def increaseTokenQuota (a : Accounts) (quota : Int) (fails : Bool) : Except Error Accounts :=
  checkedQuota quota fails { a with token := a.token + quota }

def decreaseTokenQuota (a : Accounts) (quota : Int) (fails : Bool) : Except Error Accounts :=
  checkedQuota quota fails { a with token := a.token - quota }

def errInsufficientWalletQuota : Error := .text "wallet quota insufficient"

/-- `TryReserveUserQuota`. The balance that answers is not looked at here. -/
def tryReserveUserQuota (a : Accounts) (quota : Int) (answer : Answer) : Except Error (Bool × Accounts) :=
  if quota < 0 then .error (.text "quota cannot be negative")
  else if quota = 0 then .ok (true, a)
  else
    match answer with
    | .granted => .ok (true, { a with wallet := a.wallet - quota })
    | .refused => .ok (false, a)
    | .failed => .error .database

/-- `TryReserveTokenQuota`. A token without a limit is never refused. -/
def tryReserveTokenQuota (a : Accounts) (quota : Int) (unlimited : Bool) (answer : Answer) :
    Except Error (Bool × Accounts) :=
  if quota < 0 then .error (.text "quota cannot be negative")
  else if quota = 0 then .ok (true, a)
  else if unlimited then (decreaseTokenQuota a quota (answer = .failed)).map fun a => (true, a)
  else
    match answer with
    | .granted => .ok (true, { a with token := a.token - quota })
    | .refused => .ok (false, a)
    | .failed => .error .database

/-! ## Funding sources -/

structure WalletFunding where
  userId : Int
  consumed : Int
deriving DecidableEq

structure SubscriptionFunding where
  requestId : String
  userId : Int
  amount : Int
  subscriptionId : Int
  preConsumed : Int
  amountTotal : Int
  amountUsedAfter : Int
deriving DecidableEq

inductive FundingSource where
  | wallet (w : WalletFunding)
  | subscription (f : SubscriptionFunding)
deriving DecidableEq

inductive BillingSource where
  | wallet | subscription
deriving DecidableEq

def FundingSource.source : FundingSource → BillingSource
  | .wallet _ => .wallet
  | .subscription _ => .subscription

structure Clock where
  fuel : Nat
  loc : Location
  now : Int

def WalletFunding.preConsume (w : WalletFunding) (a : Accounts) (amount : Int) (answer : Answer) :
    Except Error (WalletFunding × Accounts) :=
  if amount ≤ 0 then .ok (w, a)
  else
    match tryReserveUserQuota a amount answer with
    | .error e => .error e
    | .ok (false, _) => .error errInsufficientWalletQuota
    | .ok (true, a) => .ok ({ w with consumed := w.consumed + amount }, a)

/-- The argument is ignored; the amount is the constructor's. -/
def SubscriptionFunding.preConsume (f : SubscriptionFunding) (clock : Clock) (a : Accounts) (fails : Bool) :
    Except Error (SubscriptionFunding × Accounts) :=
  if fails then .error .database
  else
    match preConsumeUserSubscription clock.fuel clock.loc a.store f.requestId f.userId f.amount clock.now with
    | .error e => .error e
    | .ok (result, writes) =>
      .ok ({ f with
          subscriptionId := result.userSubscriptionId
          preConsumed := result.preConsumed
          amountTotal := result.amountTotal
          amountUsedAfter := result.amountUsedAfter },
        { a with store := a.store.commit writes })

def FundingSource.preConsume (clock : Clock) (a : Accounts) (amount : Int) (answer : Answer) :
    FundingSource → Except Error (FundingSource × Accounts)
  | .wallet w => (w.preConsume a amount answer).map fun (w, a) => (.wallet w, a)
  | .subscription f => (f.preConsume clock a (answer = .failed)).map fun (f, a) => (.subscription f, a)

/-- A delta on the subscription, in a transaction that may fail. -/
def subscriptionDelta (a : Accounts) (id delta : Int) (fails : Bool) : Except Error Accounts :=
  if fails then .error .database
  else (postConsumeUserSubscriptionDelta a.store id delta).map fun writes =>
    { a with store := a.store.commit writes }

def FundingSource.settle (a : Accounts) (delta : Int) (fails : Bool) : FundingSource → Except Error Accounts
  | .wallet _ =>
    if delta = 0 then .ok a
    else if 0 < delta then decreaseUserQuota a delta fails
    else increaseUserQuota a (-delta) fails
  | .subscription f => if delta = 0 then .ok a else subscriptionDelta a f.subscriptionId delta fails

def FundingSource.refund (a : Accounts) (fails : Bool) : FundingSource → Except Error Unit × Accounts
  | .wallet w =>
    if w.consumed ≤ 0 then (.ok (), a)
    else
      match increaseUserQuota a w.consumed fails with
      | .error e => (.error e, a)
      | .ok a => (.ok (), a)
  | .subscription f =>
    let (answer, store) := subscriptionRefund a.store f.requestId f.preConsumed fun _ _ => fails
    (answer, { a with store })

/-! ## The session -/

/-- `imageRequest` is the type test on `Request`; `tokenQuota` is in the request context. -/
structure RelayInfo where
  requestId : String
  userId : Int
  userQuota : Int
  tokenQuota : Int
  tokenUnlimited : Bool
  isPlayground : Bool
  forcePreConsume : Bool
  imageRequest : Bool
  imageRequestCount : Int
  billingPreference : String
  finalPreConsumedQuota : Int
  billingSource : Option BillingSource
  subscriptionId : Int
  subscriptionPreConsumed : Int
  subscriptionPostDelta : Int
  subscriptionAmountTotal : Int
  subscriptionAmountUsedAfterPreConsume : Int
deriving DecidableEq

structure BillingSession where
  relayInfo : RelayInfo
  funding : FundingSource
  preConsumedQuota : Int
  tokenConsumed : Int
  extraReserved : Int
  trusted : Bool
  fundingSettled : Bool
  settled : Bool
  refunded : Bool
deriving DecidableEq

def BillingSession.fresh (relayInfo : RelayInfo) (funding : FundingSource) : BillingSession where
  relayInfo
  funding
  preConsumedQuota := 0
  tokenConsumed := 0
  extraReserved := 0
  trusted := false
  fundingSettled := false
  settled := false
  refunded := false

inductive ErrorCode where
  | invalidRequest | modelPriceError | queryDataError | updateDataError | insufficientUserQuota
  | preConsumeTokenQuotaFailed
deriving DecidableEq

/-- A translated text is given by its key. -/
structure ApiError where
  cause : Error
  code : ErrorCode
  status : Nat
deriving DecidableEq

def Error.message : Error → String
  | .text message => message
  | .recordNotFound => "record not found"
  | .database => "database error"
  | .unfinished => ""

def contains (text part : String) : Prop := part.toList <:+: text.toList

instance (text part : String) : Decidable (contains text part) :=
  inferInstanceAs (Decidable (part.toList <:+: text.toList))

variable (s : BillingSession)

def BillingSession.syncRelayInfo : BillingSession :=
  let info := { s.relayInfo with
    finalPreConsumedQuota := s.preConsumedQuota
    billingSource := some s.funding.source }
  match s.funding with
  | .subscription f =>
    { s with relayInfo := { info with
        subscriptionId := f.subscriptionId
        subscriptionPreConsumed := f.preConsumed + s.extraReserved
        subscriptionPostDelta := 0
        subscriptionAmountTotal := f.amountTotal
        subscriptionAmountUsedAfterPreConsume := f.amountUsedAfter + s.extraReserved } }
  | .wallet _ => { s with relayInfo := { info with subscriptionId := 0, subscriptionPreConsumed := 0 } }

/-! ## Pre-consume -/

/-- `PreConsumeTokenQuota`, with the two amounts of its message left out. -/
def preConsumeTokenQuota (info : RelayInfo) (a : Accounts) (quota : Int) (answer : Answer) : Except Error Accounts :=
  if quota < 0 then .error (.text "quota cannot be negative")
  else if info.isPlayground then .ok a
  else
    match tryReserveTokenQuota a quota info.tokenUnlimited answer with
    | .error e => .error e
    | .ok (false, _) => .error (.text "token quota is not enough")
    | .ok (true, a) => .ok a

/-- `trustQuota` is `none` where the product is not finite. -/
def BillingSession.shouldTrust (trustQuota : Option ℚ) : Bool :=
  match trustQuota with
  | none => false
  | some limit =>
    if s.relayInfo.forcePreConsume then false
    else if limit ≤ 0 then false
    else if s.relayInfo.tokenUnlimited = false ∧ ¬ limit < s.relayInfo.tokenQuota then false
    else
      match s.funding.source with
      | .wallet => limit < s.relayInfo.userQuota
      | .subscription => false

def fundingError (e : Error) : ApiError :=
  if e = errInsufficientWalletQuota then ⟨.text "quota.user_insufficient", .insufficientUserQuota, 403⟩
  else if contains e.message "no active subscription" ∨ contains e.message "subscription quota insufficient" then
    ⟨.text "quota.subscription_insufficient", .insufficientUserQuota, 403⟩
  else ⟨e, .updateDataError, 500⟩

structure Answers where
  token : Answer
  funding : Answer
deriving DecidableEq

def BillingSession.effectiveQuota (trustQuota : Option ℚ) (quota : Int) : Int :=
  if s.shouldTrust trustQuota then 0 else quota

def BillingSession.preConsumeToken (a : Accounts) (effectiveQuota : Int) (answer : Answer) :
    Except Error (Int × Accounts) :=
  if 0 < effectiveQuota then
    (preConsumeTokenQuota s.relayInfo a effectiveQuota answer).map fun a => (effectiveQuota, a)
  else .ok (s.tokenConsumed, a)

/-- The rollback of the token quota is a credit, which succeeds. -/
def BillingSession.preConsume (clock : Clock) (trustQuota : Option ℚ) (a : Accounts) (quota : Int) (answers : Answers)
    : Except ApiError Unit × BillingSession × Accounts :=
  let effectiveQuota := s.effectiveQuota trustQuota quota
  let s := { s with trusted := s.trusted || s.shouldTrust trustQuota }
  match s.preConsumeToken a effectiveQuota answers.token with
  | .error e => (.error ⟨e, .preConsumeTokenQuotaFailed, 403⟩, s, a)
  | .ok (tokenConsumed, a) =>
    match s.funding.preConsume clock a effectiveQuota answers.funding with
    | .error e =>
      if 0 < tokenConsumed ∧ s.relayInfo.isPlayground = false then
        (.error (fundingError e), { s with tokenConsumed := 0 },
          { a with token := a.token + tokenConsumed })
      else (.error (fundingError e), { s with tokenConsumed }, a)
    | .ok (funding, a) =>
      (.ok (), ({ s with funding, tokenConsumed, preConsumedQuota := effectiveQuota }).syncRelayInfo, a)

/-! ## Reserve -/

/-- A wallet that need not cover the amount is charged without a check. -/
def BillingSession.reserveFunding (a : Accounts) (delta : Int) (requireAvailableQuota : Bool) (answer : Answer)
    : Except ApiError (FundingSource × Accounts) :=
  match s.funding with
  | .wallet w =>
    if requireAvailableQuota then
      match w.preConsume a delta answer with
      | .error e =>
        if e = errInsufficientWalletQuota then .error ⟨e, .insufficientUserQuota, 403⟩
        else .error ⟨e, .updateDataError, 500⟩
      | .ok (w, a) => .ok (.wallet w, a)
    else
      match decreaseUserQuota a delta (answer = .failed) with
      | .error e => .error ⟨e, .updateDataError, 500⟩
      | .ok a => .ok (.wallet { w with consumed := w.consumed + delta }, a)
  | .subscription f =>
    match subscriptionDelta a f.subscriptionId delta (answer = .failed) with
    | .error _ => .error ⟨.text "quota.subscription_insufficient", .insufficientUserQuota, 403⟩
    | .ok a => .ok (.subscription f, a)

def rollbackFundingReserve (funding : FundingSource) (a : Accounts) (delta : Int) (fails : Bool) :
    FundingSource × Accounts :=
  match funding with
  | .wallet w =>
    match increaseUserQuota a delta fails with
    | .error _ => (.wallet w, a)
    | .ok a => (.wallet { w with consumed := w.consumed - delta }, a)
  | .subscription f =>
    match subscriptionDelta a f.subscriptionId (-delta) fails with
    | .error _ => (.subscription f, a)
    | .ok a => (.subscription f, a)

def BillingSession.reserveToken (a : Accounts) (delta : Int) (answer : Answer) : Except ApiError Accounts :=
  if delta ≤ 0 ∨ s.relayInfo.isPlayground then .ok a
  else
    match preConsumeTokenQuota s.relayInfo a delta answer with
    | .error e => .error ⟨e, .preConsumeTokenQuotaFailed, 403⟩
    | .ok a => .ok a

/-- `Reserve` (`false`) and `ReserveBeforeSubmit` (`true`). -/
def BillingSession.reserve (a : Accounts) (targetQuota : Int) (requireAvailableQuota : Bool) (answers : Answers)
    : Except ApiError Unit × BillingSession × Accounts :=
  let require := requireAvailableQuota || s.relayInfo.imageRequest || 0 < s.relayInfo.imageRequestCount
  if s.settled ∨ s.refunded ∨ (s.trusted ∧ require = false) ∨ targetQuota ≤ s.preConsumedQuota then
    (.ok (), s, a)
  else
    let delta := targetQuota - s.preConsumedQuota
    match s.reserveFunding a delta require answers.funding with
    | .error e => (.error e, s, a)
    | .ok (funding, charged) =>
      match s.reserveToken charged delta answers.token with
      | .error e =>
        let (funding, a) := rollbackFundingReserve funding charged delta false
        (.error e, { s with funding }, a)
      | .ok a =>
        (.ok (), ({ s with
            funding
            preConsumedQuota := s.preConsumedQuota + delta
            tokenConsumed := s.tokenConsumed + delta
            extraReserved := s.extraReserved + delta
            trusted := s.trusted && !require }).syncRelayInfo, a)

/-! ## Settle and refund -/

structure SettleFaults where
  funding : Bool
  token : Bool
deriving DecidableEq

def settleToken (info : RelayInfo) (a : Accounts) (delta : Int) (fails : Bool) : Except Error Accounts :=
  if info.isPlayground then .ok a
  else if 0 < delta then decreaseTokenQuota a delta fails
  else increaseTokenQuota a (-delta) fails

def BillingSession.notePostDelta (delta : Int) : RelayInfo :=
  match s.funding with
  | .subscription _ => { s.relayInfo with subscriptionPostDelta := s.relayInfo.subscriptionPostDelta + delta }
  | .wallet _ => s.relayInfo

/-- Once the funding source has paid, the session is settled whatever the token step does. -/
def BillingSession.settle (a : Accounts) (actualQuota : Int) (fails : SettleFaults) :
    Except Error Unit × BillingSession × Accounts :=
  let delta := actualQuota - s.preConsumedQuota
  if s.settled then (.ok (), s, a)
  else if delta = 0 then (.ok (), { s with settled := true }, a)
  else
    match (if s.fundingSettled then .ok a else s.funding.settle a delta fails.funding) with
    | .error e => (.error e, s, a)
    | .ok a =>
      let s := { s with relayInfo := s.notePostDelta delta, fundingSettled := true, settled := true }
      match settleToken s.relayInfo a delta fails.token with
      | .error e => (.error e, s, a)
      | .ok a => (.ok (), s, a)

def BillingSession.needsRefund : Bool :=
  if s.settled ∨ s.refunded ∨ s.fundingSettled then false
  else
    match s.funding with
    | .subscription f => 0 < s.tokenConsumed ∨ 0 < f.preConsumed
    | .wallet _ => 0 < s.tokenConsumed

/-- `Refund` under the lock: the session, and whether the call goes on. -/
def BillingSession.beginRefund : BillingSession × Bool :=
  if s.settled ∨ s.refunded ∨ s.needsRefund = false then (s, false)
  else ({ s with refunded := true }, true)

/-- The funding source is shared with the goroutine, not copied. -/
structure RefundTask where
  isPlayground : Bool
  tokenConsumed : Int
  extraReserved : Int
  subscriptionId : Int
deriving DecidableEq

def BillingSession.refundTask : RefundTask where
  isPlayground := s.relayInfo.isPlayground
  tokenConsumed := s.tokenConsumed
  extraReserved := s.extraReserved
  subscriptionId := s.relayInfo.subscriptionId

def refundFunding (funding : FundingSource) (a : Accounts) (fails : Bool) : Accounts := (funding.refund a fails).2

def RefundTask.refundExtra (task : RefundTask) (funding : FundingSource) (a : Accounts) (fails : Bool) : Accounts :=
  if 0 < task.extraReserved ∧ funding.source = .subscription ∧ 0 < task.subscriptionId then
    match subscriptionDelta a task.subscriptionId (-task.extraReserved) fails with
    | .error _ => a
    | .ok a => a
  else a

def RefundTask.refundToken (task : RefundTask) (a : Accounts) (fails : Bool) : Accounts :=
  if 0 < task.tokenConsumed ∧ task.isPlayground = false then
    match increaseTokenQuota a task.tokenConsumed fails with
    | .error _ => a
    | .ok a => a
  else a

/-! ## Sessions from requests -/

structure Attempt where
  walletRead : Option Int
  wallet : Answers
  subscription : Answers
  hasSubFails : Bool
  overflowFails : Bool

inductive BillingPreference where
  | subscriptionFirst | walletFirst | subscriptionOnly | walletOnly
deriving DecidableEq

def normalizeBillingPreference (pref : String) : BillingPreference :=
  if trimSpace pref = "wallet_first" then .walletFirst
  else if trimSpace pref = "subscription_only" then .subscriptionOnly
  else if trimSpace pref = "wallet_only" then .walletOnly
  else .subscriptionFirst

section Requests

variable (clock : Clock) (trustQuota : Option ℚ) (info : RelayInfo) (a : Accounts) (quota : Int) (attempt : Attempt)

def opened : Except ApiError Unit × BillingSession × Accounts → Except ApiError BillingSession × Accounts
  | (.ok (), s, a) => (.ok s, a)
  | (.error e, _, a) => (.error e, a)

/-- `tryWallet`. `walletRead` is what `GetUserQuota` answers. -/
def tryWallet : Except ApiError BillingSession × Accounts :=
  match attempt.walletRead with
  | none => (.error ⟨.database, .queryDataError, 500⟩, a)
  | some userQuota =>
    if userQuota ≤ 0 then (.error ⟨.text "quota.user_insufficient", .insufficientUserQuota, 403⟩, a)
    else if userQuota - quota < 0 then
      (.error ⟨.text "quota.pre_consume_insufficient", .insufficientUserQuota, 403⟩, a)
    else opened <|
      (BillingSession.fresh { info with userQuota } (.wallet ⟨info.userId, 0⟩)).preConsume clock trustQuota a quota
        attempt.wallet

/-- `trySubscription`. A subscription is charged at least one unit. -/
def trySubscription : Except ApiError BillingSession × Accounts :=
  let subConsume := if quota ≤ 0 then 1 else quota
  opened <| (BillingSession.fresh info (.subscription ⟨info.requestId, info.userId, subConsume, 0, 0, 0, 0⟩)).preConsume
      clock trustQuota a subConsume attempt.subscription

def newBillingSession : Except ApiError BillingSession × Accounts :=
  match normalizeBillingPreference info.billingPreference with
  | .subscriptionOnly => trySubscription clock trustQuota info a quota attempt
  | .walletOnly => tryWallet clock trustQuota info a quota attempt
  | .walletFirst =>
    match tryWallet clock trustQuota info a quota attempt with
    | (.error e, a) =>
      if e.code = .insufficientUserQuota then trySubscription clock trustQuota info a quota attempt
      else (.error e, a)
    | (.ok s, a) => (.ok s, a)
  | .subscriptionFirst =>
    if info.userId ≤ 0 then (.error ⟨.text "invalid userId", .queryDataError, 500⟩, a)
    else if attempt.hasSubFails then (.error ⟨.database, .queryDataError, 500⟩, a)
    else if a.store.activeSubs info.userId clock.now = [] then tryWallet clock trustQuota info a quota attempt
    else
      match trySubscription clock trustQuota info a quota attempt with
      | (.ok s, a) => (.ok s, a)
      | (.error e, a) =>
        if e.code = .insufficientUserQuota then
          if attempt.overflowFails then (.error ⟨.database, .queryDataError, 500⟩, a)
          else if (a.store.activeSubs info.userId clock.now).all fun sub => sub.allowWalletOverflow then
            tryWallet clock trustQuota info a quota attempt
          else (.error e, a)
        else (.error e, a)

/-- For a request without a session. `quotaClamp` is the message of `relayInfo.QuotaClamp`. -/
def preConsumeBilling (quotaClamp : Option String) : Except ApiError BillingSession × Accounts :=
  match quotaClamp with
  | some message => (.error ⟨.text message, .modelPriceError, 400⟩, a)
  | none =>
    if quota < 0 then
      (.error ⟨.text s!"pre-consume quota cannot be negative: {quota}", .modelPriceError, 400⟩, a)
    else newBillingSession clock trustQuota info a quota attempt

end Requests

end NewApi.Code

