import NewApi.Code.Subscription

/-!
# Subscriptions and the user's group

`model/subscription.go`: a purchase may move the user into the plan's group, and the end of a
subscription may move the user back.
-/

namespace NewApi.Code

open GoTime GoText Table

variable (s : Store)

/-- `Find` leaves the empty string where there is no such user. -/
def getUserGroupById (userId : Int) : Except Error String :=
  if userId ≤ 0 then .error (.text "invalid userId")
  else .ok ((lookup User.id s.users userId).elim "" User.group)

def latest (subs : List UserSubscription) : Option UserSubscription :=
  (subs.insertionSort EndsBefore).getLast?

/-! ## Purchase -/

def newSubscription (loc : Location) (id userId : Int) (plan : SubscriptionPlan) (source : String)
    (now endUnix : Int) (currentGroup : String) : UserSubscription :=
  let nextReset := calcNextResetTime loc now plan endUnix
  let upgradeGroup := trimSpace plan.upgradeGroup
  { id
    userId
    planId := plan.id
    amountTotal := plan.totalAmount
    amountUsed := 0
    startTime := now
    endTime := endUnix
    status := .active
    source
    lastResetTime := if 0 < nextReset then now else 0
    nextResetTime := nextReset
    upgradeGroup
    prevUserGroup := if upgradeGroup ≠ "" ∧ currentGroup ≠ upgradeGroup then currentGroup else ""
    downgradeGroup := trimSpace plan.downgradeGroup
    allowWalletOverflow := plan.allowWalletOverflow.getD true }

def createUserSubscriptionFromPlan (loc : Location) (s : Store) (userId : Int) (plan : SubscriptionPlan)
    (source : String) (now : Int) : Except Error (UserSubscription × List Write) :=
  if plan.id = 0 then .error (.text "invalid plan")
  else if userId ≤ 0 then .error (.text "invalid user id")
  else if 0 < plan.maxPurchasePerUser ∧ plan.maxPurchasePerUser ≤
      (s.subs.countP fun sub => sub.userId = userId ∧ sub.planId = plan.id : Nat) then
    .error (.text "Purchase limit for this plan has been reached")
  else
    match calcPlanEndTime loc now plan, getUserGroupById s userId with
    | .error e, _ => .error e
    | _, .error e => .error e
    | .ok endUnix, .ok currentGroup =>
      let upgradeGroup := trimSpace plan.upgradeGroup
      let sub := newSubscription loc s.nextSubId userId plan source now endUnix currentGroup
      -- The group is read and written only where the plan has one.
      if upgradeGroup ≠ "" ∧ currentGroup ≠ upgradeGroup then
        .ok (sub, [.setGroup ⟨userId, upgradeGroup⟩, .createSub sub])
      else .ok (sub, [.createSub sub])

/-! ## The end of a subscription -/

def hasActiveUpgrade (userId now : Int) : Prop :=
  ∃ sub ∈ s.subs, sub.userId = userId ∧ sub.activeAt now ∧ sub.upgradeGroup ≠ ""

instance (s : Store) (userId now : Int) : Decidable (hasActiveUpgrade s userId now) :=
  inferInstanceAs (Decidable (∃ sub ∈ s.subs, _))

/-- The group the user moves to, or `""`. -/
def downgradeUserGroupForSubscription (sub : UserSubscription) (now : Int) : Except Error (String × List Write) :=
  let downgradeGroup := trimSpace sub.downgradeGroup
  let upgradeGroup := trimSpace sub.upgradeGroup
  if downgradeGroup = "" ∧ upgradeGroup = "" then .ok ("", [])
  else
    match getUserGroupById s sub.userId with
    | .error e => .error e
    | .ok currentGroup =>
      let others := { s with subs := s.subs.filter fun other => other.id ≠ sub.id }
      if hasActiveUpgrade others sub.userId now then .ok ("", [])
      else if downgradeGroup = "" ∧ currentGroup ≠ upgradeGroup then .ok ("", [])
      else
        let target := if downgradeGroup = "" then trimSpace sub.prevUserGroup else downgradeGroup
        if target = "" ∨ target = currentGroup then .ok ("", [])
        else .ok (target, [.setGroup ⟨sub.userId, target⟩])

/-- `AdminInvalidateUserSubscription`, with the group its message names. -/
def adminInvalidateUserSubscription (userSubscriptionId now : Int) : Except Error (String × List Write) :=
  if userSubscriptionId ≤ 0 then .error (.text "invalid userSubscriptionId")
  else
    match s.sub userSubscriptionId with
    | none => .error .recordNotFound
    | some sub =>
      let cancelled := { sub with status := .cancelled, endTime := now }
      let write := Write.saveSub .status cancelled
      match downgradeUserGroupForSubscription (s.write write) cancelled now with
      | .error e => .error e
      | .ok (target, writes) => .ok (target, write :: writes)

def adminDeleteUserSubscription (userSubscriptionId now : Int) : Except Error (String × List Write) :=
  if userSubscriptionId ≤ 0 then .error (.text "invalid userSubscriptionId")
  else
    match s.sub userSubscriptionId with
    | none => .error .recordNotFound
    | some sub =>
      match downgradeUserGroupForSubscription s sub now with
      | .error e => .error e
      | .ok (target, writes) => .ok (target, writes ++ [.deleteSub userSubscriptionId])

def UserSubscription.dueAt (sub : UserSubscription) (now : Int) : Prop :=
  sub.status = .active ∧ 0 < sub.endTime ∧ sub.endTime ≤ now

instance (sub : UserSubscription) (now : Int) : Decidable (sub.dueAt now) :=
  inferInstanceAs (Decidable (_ ∧ _))

def markExpired (userId now : Int) : List Write :=
  (s.subs.filter fun sub => sub.userId = userId ∧ sub.dueAt now).map
    fun sub => .saveSub .status { sub with status := .expired }

def lastExpired (userId : Int) : Option UserSubscription :=
  latest (s.subs.filter fun sub =>
    sub.userId = userId ∧ sub.status = .expired ∧ (sub.downgradeGroup ≠ "" ∨ sub.upgradeGroup ≠ ""))

/-- Where the last expired subscription sends a user in `currentGroup`, or `""`. -/
def expiryTarget (last : UserSubscription) (currentGroup : String) : String :=
  if trimSpace last.downgradeGroup ≠ "" then trimSpace last.downgradeGroup
  else if trimSpace last.upgradeGroup = "" ∨ trimSpace last.prevUserGroup = "" then ""
  else if currentGroup ≠ trimSpace last.upgradeGroup then ""
  else trimSpace last.prevUserGroup

/-- The transaction of `ExpireDueSubscriptions` for one user. -/
def expireUserSubscriptions (userId now : Int) : Except Error (List Write) :=
  let marks := markExpired s userId now
  let marked := s.commit marks
  if hasActiveUpgrade marked userId now then .ok marks
  else
    match lastExpired marked userId, getUserGroupById marked userId with
    | none, _ => .ok marks
    | some _, .error e => .error e
    | some last, .ok currentGroup =>
      let target := expiryTarget last currentGroup
      if target = "" ∨ target = currentGroup then .ok marks
      else .ok (marks ++ [.setGroup ⟨userId, target⟩])

def dueBatch (limit now : Int) : List UserSubscription :=
  let limit := if limit ≤ 0 then 200 else limit
  ((s.subs.filter fun sub => sub.dueAt now).insertionSort EndsBefore).take limit.toNat

def dueUsers (limit now : Int) : List Int :=
  ((dueBatch s limit now).map UserSubscription.userId).dedup.filter fun userId => 0 < userId

/-- The order of `range` over a map, which Go leaves open. -/
structure MapOrder where
  visit : List Int → List Int
  perm : ∀ keys, (visit keys).Perm keys

/-- What the database refuses: the batch, and per user the rows or what follows. -/
structure ExpiryFaults where
  read : Bool
  mark : Int → Bool
  finish : Int → Bool

/-- The loop of `ExpireDueSubscriptions`; a failed transaction ends it, with its rows in the count. -/
def expireUsers (now : Int) (fails : ExpiryFaults) : Nat → Store → List Int → (Nat × Option Error) × Store
  | count, s, [] => ((count, none), s)
  | count, s, userId :: rest =>
    if fails.mark userId then ((count, some .database), s)
    else
      let count := count + (markExpired s userId now).length
      if fails.finish userId then ((count, some .database), s)
      else
        match expireUserSubscriptions s userId now with
        | .error e => ((count, some e), s)
        | .ok writes => expireUsers now fails count (s.commit writes) rest

def expireDueSubscriptions (limit now : Int) (order : MapOrder) (fails : ExpiryFaults) : (Nat × Option Error) × Store :=
  if fails.read then ((0, some .database), s)
  else expireUsers now fails 0 s (order.visit (dueUsers s limit now))

/-! ## The system -/

/-- A failed transaction leaves no event, but a refund's delta may outlive it. -/
inductive Event where
  | purchase (userId planId : Int) (source : String) (now : Int)
  | preConsume (requestId : String) (userId amount now : Int)
  | delta (userSubscriptionId amount : Int)
  | refund (requestId : String) (fails : Faults)
  | resetDue (plan : SubscriptionPlan) (id now : Int)
  | resetUser (userId planId now : Int) (advanceResetTime : Bool)
  | resetPlan (planId now : Int) (advanceResetTime : Bool)
  | expire (userId now : Int)
  | invalidate (userSubscriptionId now : Int)
  | delete (userSubscriptionId now : Int)

def committed : Except Error (List Write) → List Write
  | .ok writes => writes
  | .error _ => []

def Event.writes (fuel : Nat) (loc : Location) (s : Store) : Event → List Write
  | .purchase userId planId source now => committed <|
    match getSubscriptionPlanById s.plans planId with
    | .error e => .error e
    | .ok plan => (createUserSubscriptionFromPlan loc s userId plan source now).map Prod.snd
  | .preConsume requestId userId amount now => committed <|
    (preConsumeUserSubscription fuel loc s requestId userId amount now).map Prod.snd
  | .delta id amount => committed (postConsumeUserSubscriptionDelta s id amount)
  | .refund requestId fails => (refundSubscriptionPreConsume s requestId fails).2
  | .resetDue plan id now => committed (resetDueSubscription fuel loc s plan id now)
  | .resetUser userId planId now advance => committed <|
    (adminResetUserSubscriptionsByPlan loc s userId planId now advance).map Prod.snd
  | .resetPlan planId now advance => committed <| (adminResetPlanSubscriptions loc s planId now advance).map Prod.snd
  | .expire userId now => committed (expireUserSubscriptions s userId now)
  | .invalidate id now => committed ((adminInvalidateUserSubscription s id now).map Prod.snd)
  | .delete id now => committed ((adminDeleteUserSubscription s id now).map Prod.snd)

def Store.step (fuel : Nat) (loc : Location) (s : Store) (e : Event) : Store :=
  s.commit (e.writes fuel loc s)

end NewApi.Code

