import NewApi.Code.Purchase
import NewApi.Ledger
import NewApi.Reset

/-!
# The purchase limit

The count and the insert have the user's row locked. A purchase with the balance may read its plan first, and with
snapshots this read fixes what its count will see.
-/

namespace NewApi.PurchaseLimit

open Table Code Code.Purchase Run Ledger

variable {settings : Settings} {s t : State} {i : Nat} {access : Access}

def owned (subs : List UserSubscription) (userId planId : Int) : Nat :=
  subs.countP fun sub => sub.userId = userId ∧ sub.planId = planId

/-! ## What a transaction holds -/

def orderOf : Buyer → Option SubscriptionOrder
  | .order _ row => some row
  | _ => none

def heldOrder : Tx → Option SubscriptionOrder
  | .ordered _ order => some order
  | .planned buyer _ _ | .locked buyer _ _ | .counted buyer _ _ => orderOf buyer
  | _ => none

def heldUser : Tx → Option Int
  | .locked buyer _ _ | .counted buyer _ _ => some buyer.userId
  | _ => none

def planOf : Tx → Option SubscriptionPlan
  | .planned _ plan _ | .locked _ plan _ | .counted _ plan _ => some plan
  | _ => none

/-! ## What an access does -/

inductive Advance (settings : Settings) (s : State) (i : Nat) : State → Prop where
  | finish (answer : Except Error Unit) : Advance settings s i (s.finish i answer)
  | order (call : Completion) (row : SubscriptionOrder) (hfree : s.orderLock call.tradeNo = none)
      (hrow : s.world.order call.tradeNo = some row) (hpending : row.status = .pending) :
      Advance settings s i ((s.set i (.ordered call row)).lockOrder i call.tradeNo)
  | plan (buyer : Buyer) (plan : SubscriptionPlan) (view : Option (List UserSubscription))
      (horder : orderOf buyer = heldOrder (s.txs i))
      (hplan : getSubscriptionPlanById s.world.store.plans plan.id = .ok plan) :
      Advance settings s i (s.set i (.planned buyer plan view))
  | user (buyer : Buyer) (plan : SubscriptionPlan) (view : Option (List UserSubscription))
      (htx : s.txs i = .planned buyer plan view) (hfree : s.userLock buyer.userId = none) :
      Advance settings s i ((s.set i (.locked buyer plan view)).lockUser i buyer.userId)
  | count (buyer : Buyer) (plan : SubscriptionPlan) (view : Option (List UserSubscription))
      (htx : s.txs i = .locked buyer plan view) :
      Advance settings s i (s.set i (.counted buyer plan (view.getD s.world.store.subs)))
  | commit (buyer : Buyer) (plan : SubscriptionPlan) (view : List UserSubscription) (access : Access) (world : World)
      (htx : s.txs i = .counted buyer plan view)
      (hcreate : create settings s.world access buyer plan view = .ok world) :
      Advance settings s i { s.finish i (.ok ()) with world, created := s.created ++ buyer.creates }

variable {plan : SubscriptionPlan} {userId : Int} {world : World} {buyer : Buyer} {tx : Tx}
  {view : Option (List UserSubscription)}

theorem id_of_plan {plans : List SubscriptionPlan} {id : Int}
    (h : getSubscriptionPlanById plans id = .ok plan) : plan.id = id := by
  unfold getSubscriptionPlanById at h
  split at h
  · cases h
  split at h
  · rename_i stored hstored
    cases h
    exact (key_of_lookup hstored : stored.id = id)
  · cases h

theorem plan_of_read {plans : List SubscriptionPlan} {id : Int} {fails : Bool}
    (h : (if fails then .error .database else getSubscriptionPlanById plans id) = .ok plan) :
    getSubscriptionPlanById plans plan.id = .ok plan := by
  split at h
  · cases h
  · rwa [id_of_plan h]

theorem pending_of_checkOrder {call : Completion} {order : SubscriptionOrder} (h : checkOrder call order = .ok ()) :
    order.status = .pending := by
  unfold checkOrder at h
  split at h
  · cases h
  split at h
  · cases h
  split at h
  · cases h
  · rename_i hpending
    exact not_not.mp hpending

theorem advance_spec (h : advance settings s i access = some t) : Advance settings s i t := by
  unfold advance at h
  split at h
  · split at h
    · cases h
    rename_i hfree
    split at h
    · cases h
      exact .finish _
    rename_i order hread
    split at h
    · cases h
      exact .finish _
    rename_i hcheck
    cases h
    refine .order _ order (not_not.mp hfree) ?_ (pending_of_checkOrder hcheck)
    split at hread
    · cases hread
    · exact hread
  · rename_i htx
    split at h
    · cases h
      exact .finish _
    rename_i plan hread
    cases h
    refine .plan _ plan _ ?_ (plan_of_read hread)
    rw [htx]
    rfl
  · rename_i htx
    split at h
    · cases h
      exact .finish _
    rename_i plan hread
    split at h
    · cases h
      exact .finish _
    cases h
    refine .plan _ plan _ ?_ (plan_of_read hread)
    rw [htx]
    rfl
  · rename_i htx
    split at h
    · cases h
      exact .finish _
    rename_i plan hread
    cases h
    refine .plan _ plan _ ?_ (plan_of_read hread)
    rw [htx]
    rfl
  · rename_i htx
    split at h
    · cases h
    rename_i hfree
    split at h
    · cases h
      exact .finish _
    split at h
    · cases h
      exact .finish _
    split at h
    · cases h
      exact .finish _
    · cases h
      exact .user _ _ _ htx (not_not.mp hfree)
  · rename_i htx
    cases h
    exact .count _ _ _ htx
  · rename_i htx
    split at h
    · cases h
      exact .finish _
    · rename_i world hcreate
      cases h
      exact .commit _ _ _ access world htx hcreate
  · cases h

/-! ## What a purchase commits -/

theorem count_of_purchase {store : Store} {loc : GoTime.Location} {now : Int} {source : String}
    {answer : UserSubscription × List Write}
    (h : createUserSubscriptionFromPlan loc store userId plan source now = .ok answer) :
    0 < plan.maxPurchasePerUser → (owned store.subs userId plan.id : Int) < plan.maxPurchasePerUser := by
  intro hlimit
  unfold createUserSubscriptionFromPlan at h
  split at h
  · cases h
  split at h
  · cases h
  split at h
  · cases h
  · rename_i hcount
    exact not_le.mp fun hle => hcount ⟨hlimit, hle⟩

structure OrdersAfter (w world : World) (buyer : Buyer) : Prop where
  completed : ∀ n ∈ buyer.creates, (w.order n).isSome → ∃ order, world.order n = some order ∧ order.status ≠ .pending
  kept : ∀ n order, w.order n = some order → n ∉ buyer.creates → world.order n = some order

theorem settle_spec {w : World}
    (h : settle w access plan buyer = .ok world) : world.store = w.store ∧ OrdersAfter w world buyer := by
  cases buyer with
  | order call row =>
    obtain ⟨topUps, -, h⟩ := ok_of_bind h
    cases h
    have hlookup : ∀ n, lookup SubscriptionOrder.tradeNo
        (save SubscriptionOrder.tradeNo w.orders (row.complete call access.now)) n =
          if row.tradeNo = n then (w.order n).map fun _ => row.complete call access.now else w.order n :=
      fun n => lookup_save ..
    refine ⟨rfl, ?_, ?_⟩
    · intro n hn hsome
      obtain rfl := List.mem_singleton.mp hn
      obtain ⟨old, hold⟩ := Option.isSome_iff_exists.mp hsome
      refine ⟨row.complete call access.now, ?_, by simp [SubscriptionOrder.complete]⟩
      rw [World.order, hlookup, if_pos rfl, hold]
      rfl
    · intro n order hn hne
      rw [World.order, hlookup, if_neg, hn]
      rintro rfl
      exact hne List.mem_cons_self
  | balance =>
    simp only [settle] at h
    split at h
    · cases h
    cases h
    refine ⟨rfl, ?_, fun n order hn _ => lookup_append_old hn⟩
    intro n hn
    cases hn
  | admin =>
    cases h
    refine ⟨rfl, ?_, fun n order hn _ => hn⟩
    intro n hn
    cases hn

theorem create_spec {w : World} {view : List UserSubscription}
    (h : create settings w access buyer plan view = .ok world) :
    (∃ sub, world.store.subs = w.store.subs ++ [sub] ∧ sub.userId = buyer.userId ∧ sub.planId = plan.id) ∧
      world.store.plans = w.store.plans ∧ OrdersAfter w world buyer ∧
      (0 < plan.maxPurchasePerUser → (owned view buyer.userId plan.id : Int) < plan.maxPurchasePerUser) := by
  unfold create at h
  split at h
  · cases h
  obtain ⟨⟨sub, writes⟩, hcreate, h⟩ := ok_of_bind h
  obtain ⟨hstore, horders⟩ := settle_spec h
  refine ⟨⟨sub, ?_⟩, ?_, ⟨horders.completed, horders.kept⟩, count_of_purchase hcreate⟩
  · obtain ⟨endUnix, group, -, -, hnew, hwrites⟩ := purchase_spec hcreate
    rw [hnew] at hwrites ⊢
    refine ⟨?_, rfl, rfl⟩
    rw [hstore, hwrites, commit_append]
    split <;> rfl
  · rw [hstore]
    exact commit_plans

/-! ## The invariant -/

/-- A count that it has made covers what is committed now. -/
structure TxOk (s : State) (i : Nat) (tx : Tx) : Prop where
  user : ∀ u, heldUser tx = some u → s.userLock u = some i
  order : ∀ order, heldOrder tx = some order → s.orderLock order.tradeNo = some i ∧
    s.world.order order.tradeNo = some order ∧ order.status = .pending
  plan : ∀ plan, planOf tx = some plan → getSubscriptionPlanById s.world.store.plans plan.id = .ok plan
  view : ∀ buyer plan view, tx = .counted buyer plan view →
    owned s.world.store.subs buyer.userId plan.id ≤ owned view buyer.userId plan.id

def CreatedOnce (s : State) : Prop :=
  ∀ n, s.created.count n ≤ 1 ∧ (n ∈ s.created → ∃ order, s.world.order n = some order ∧ order.status ≠ .pending)

structure Inv (s : State) : Prop where
  txs : ∀ i, TxOk s i (s.txs i)
  created : CreatedOnce s

/-- What `j` has locked is left alone. -/
structure Keeps (s t : State) (j : Nat) : Prop where
  users : ∀ u, s.userLock u = some j → t.userLock u = some j
  orders : ∀ n order, s.orderLock n = some j → s.world.order n = some order →
    t.orderLock n = some j ∧ t.world.order n = some order
  plans : t.world.store.plans = s.world.store.plans
  counts : ∀ u p, s.userLock u = some j → owned t.world.store.subs u p ≤ owned s.world.store.subs u p

theorem TxOk.kept {j : Nat} (h : TxOk s j tx) (hkeeps : Keeps s t j) : TxOk t j tx where
  user u hu := hkeeps.users u (h.user u hu)
  order order ho := by
    obtain ⟨hlock, hrow, hpending⟩ := h.order order ho
    obtain ⟨hlock', hrow'⟩ := hkeeps.orders _ order hlock hrow
    exact ⟨hlock', hrow', hpending⟩
  plan plan hp := by
    rw [hkeeps.plans]
    exact h.plan plan hp
  view buyer plan view hv := by
    have huser : heldUser tx = some buyer.userId := by rw [hv]; rfl
    exact (hkeeps.counts _ _ (h.user _ huser)).trans (h.view buyer plan view hv)

theorem Inv.move (h : Inv s) (htxs : t.txs = Function.update s.txs i tx)
    (hkeeps : ∀ j ≠ i, Keeps s t j) (hi : TxOk t i tx) (hcreated : CreatedOnce t) : Inv t where
  created := hcreated
  txs j := by
    rw [htxs]
    by_cases hji : j = i
    · subst hji
      rwa [Function.update_self]
    · rw [Function.update_of_ne hji]
      exact (h.txs j).kept (hkeeps j hji)

theorem txOk_idle (huser : heldUser tx = none) (horder : heldOrder tx = none) (hplan : planOf tx = none) :
    TxOk s i tx where
  user u hu := by
    rw [huser] at hu
    cases hu
  order order ho := by
    rw [horder] at ho
    cases ho
  plan plan hp := by
    rw [hplan] at hp
    cases hp
  view buyer plan view hv := by
    rw [hv] at huser
    cases huser

theorem keeps_set (j : Nat) : Keeps s (s.set i tx) j :=
  ⟨fun _ hu => hu, fun _ _ hn hrow => ⟨hn, hrow⟩, rfl, fun _ _ _ => le_rfl⟩

theorem Inv.set_idle (h : Inv s) (huser : heldUser tx = none) (horder : heldOrder tx = none)
    (hplan : planOf tx = none) : Inv (s.set i tx) :=
  h.move rfl (fun j _ => keeps_set j) (txOk_idle huser horder hplan) h.created

theorem keeps_finish {answer : Except Error Unit} {j : Nat} (hj : j ≠ i) : Keeps s (s.finish i answer) j := by
  have hother : ∀ {o : Option Nat}, o = some j → ¬ o = some i := by
    rintro o rfl he
    exact hj (Option.some.inj he)
  refine ⟨?_, ?_, rfl, fun _ _ _ => le_rfl⟩
  · intro u hu
    show (if s.userLock u = some i then none else s.userLock u) = some j
    rw [if_neg (hother hu), hu]
  intro n order hn hrow
  refine ⟨?_, hrow⟩
  show (if s.orderLock n = some i then none else s.orderLock n) = some j
  rw [if_neg (hother hn), hn]

theorem Inv.finish (h : Inv s) (answer : Except Error Unit) : Inv (s.finish i answer) :=
  h.move rfl (fun _ hj => keeps_finish hj) (txOk_idle rfl rfl rfl) h.created

theorem Inv.begin {refused : Prop} [Decidable refused] {answer : Except Error Unit} (h : Inv s)
    (huser : heldUser tx = none) (horder : heldOrder tx = none) (hplan : planOf tx = none)
    (hstep : (if refused then some (s.finish i answer) else some (s.set i tx)) = some t) : Inv t := by
  split at hstep <;> cases hstep
  · exact h.finish answer
  · exact h.set_idle huser horder hplan

theorem Inv.lockOrder {call : Completion} {row : SubscriptionOrder} (h : Inv s)
    (hfree : s.orderLock call.tradeNo = none) (hrow : s.world.order call.tradeNo = some row)
    (hpending : row.status = .pending) : Inv ((s.set i (.ordered call row)).lockOrder i call.tradeNo) := by
  have hkey : row.tradeNo = call.tradeNo := key_of_lookup hrow
  refine h.move rfl ?_ ?_ h.created
  · intro j _
    refine ⟨fun _ hu => hu, ?_, rfl, fun _ _ _ => le_rfl⟩
    intro n order hn hkept
    refine ⟨?_, hkept⟩
    show Function.update s.orderLock call.tradeNo (some i) n = some j
    rw [Function.update_of_ne, hn]
    rintro rfl
    rw [hfree] at hn
    cases hn
  · refine ⟨by rintro u ⟨⟩, ?_, by rintro p ⟨⟩, by rintro b p v ⟨⟩⟩
    rintro order ⟨⟩
    refine ⟨?_, hkey ▸ hrow, hpending⟩
    show Function.update s.orderLock call.tradeNo (some i) row.tradeNo = some i
    rw [hkey, Function.update_self]

theorem Inv.readPlan (h : Inv s) (horder : orderOf buyer = heldOrder (s.txs i))
    (hplan : getSubscriptionPlanById s.world.store.plans plan.id = .ok plan) :
    Inv (s.set i (.planned buyer plan view)) := by
  refine h.move rfl (fun j _ => keeps_set j) ?_ h.created
  refine ⟨by rintro u ⟨⟩, ?_, ?_, by rintro b p v ⟨⟩⟩
  · intro order ho
    exact (h.txs i).order order (horder ▸ ho)
  · rintro p ⟨⟩
    exact hplan

theorem Inv.lockUser (h : Inv s) (htx : s.txs i = .planned buyer plan view) (hfree : s.userLock buyer.userId = none) :
    Inv ((s.set i (.locked buyer plan view)).lockUser i buyer.userId) := by
  have hi := h.txs i
  rw [htx] at hi
  refine h.move rfl ?_ ?_ h.created
  · intro j _
    refine ⟨?_, fun _ _ hn hrow => ⟨hn, hrow⟩, rfl, fun _ _ _ => le_rfl⟩
    intro u hu
    show Function.update s.userLock buyer.userId (some i) u = some j
    rw [Function.update_of_ne, hu]
    rintro rfl
    rw [hfree] at hu
    cases hu
  · refine ⟨?_, hi.order, hi.plan, by rintro b p v ⟨⟩⟩
    rintro u ⟨⟩
    exact Function.update_self ..

theorem Inv.count (h : Inv s) (htx : s.txs i = .locked buyer plan view)
    (hcurrent : ∀ rows, view = some rows →
      owned s.world.store.subs buyer.userId plan.id ≤ owned rows buyer.userId plan.id) :
    Inv (s.set i (.counted buyer plan (view.getD s.world.store.subs))) := by
  have hi := h.txs i
  rw [htx] at hi
  refine h.move rfl (fun j _ => keeps_set j) ?_ h.created
  refine ⟨hi.user, hi.order, hi.plan, ?_⟩
  rintro _ _ _ ⟨⟩
  cases view with
  | none => exact le_rfl
  | some rows => exact hcurrent rows rfl

theorem owned_append (subs : List UserSubscription) (sub : UserSubscription) (userId planId : Int) :
    owned (subs ++ [sub]) userId planId =
      owned subs userId planId + if sub.userId = userId ∧ sub.planId = planId then 1 else 0 := by
  simp [owned, List.countP_append, List.countP_cons]

theorem order_of_creates {n : String} (h : n ∈ buyer.creates) :
    ∃ call row, buyer = .order call row ∧ n = row.tradeNo := by
  cases buyer with
  | order call row => exact ⟨call, row, rfl, List.mem_singleton.mp h⟩
  | balance | admin => cases h

theorem createdOnce_commit (h : Inv s)
    (horder : ∀ order, orderOf buyer = some order →
      s.world.order order.tradeNo = some order ∧ order.status = .pending)
    (hafter : OrdersAfter s.world world buyer) {after : State} (hworld : after.world = world)
    (hcreated : after.created = s.created ++ buyer.creates) : CreatedOnce after := by
  intro n
  obtain ⟨hone, hdone⟩ := h.created n
  rw [hcreated, hworld, List.count_append, List.mem_append]
  by_cases hn : n ∈ buyer.creates
  · -- The order was pending until now, so it is new among the created ones.
    obtain ⟨call, row, rfl, rfl⟩ := order_of_creates hn
    obtain ⟨hrow, hpending⟩ := horder row rfl
    have hnew : row.tradeNo ∉ s.created := by
      intro hmem
      obtain ⟨order, hsome, hstatus⟩ := hdone hmem
      rw [hrow] at hsome
      cases hsome
      exact hstatus hpending
    refine ⟨?_, fun _ => hafter.completed _ hn (by rw [hrow]; rfl)⟩
    rw [List.count_eq_zero_of_not_mem hnew]
    simp [Buyer.creates]
  · rw [List.count_eq_zero_of_not_mem hn]
    refine ⟨hone, ?_⟩
    rintro (hmem | hmem)
    · obtain ⟨order, hsome, hstatus⟩ := hdone hmem
      exact ⟨order, hafter.kept n order hsome hn, hstatus⟩
    · exact absurd hmem hn

theorem Inv.commit {view : List UserSubscription} (h : Inv s)
    (htx : s.txs i = .counted buyer plan view) (hcreate : create settings s.world access buyer plan view = .ok world) :
    Inv { s.finish i (.ok ()) with world, created := s.created ++ buyer.creates } := by
  have hi := h.txs i
  rw [htx] at hi
  obtain ⟨⟨sub, hsubs, huser, -⟩, hplans, hafter, -⟩ := create_spec hcreate
  refine h.move rfl ?_ (txOk_idle rfl rfl rfl) (createdOnce_commit h ?_ hafter rfl rfl)
  · intro j hj
    have hfinish : Keeps s (s.finish i (.ok ())) j := keeps_finish hj
    refine ⟨hfinish.users, ?_, hplans, ?_⟩
    · intro n order hn hrow
      refine ⟨(hfinish.orders n order hn hrow).1, hafter.kept n order hrow ?_⟩
      -- The buyer's order is locked by this transaction, not by `j`.
      intro hmem
      obtain ⟨call, row, rfl, rfl⟩ := order_of_creates hmem
      have hmine := (hi.order row rfl).1
      rw [hn] at hmine
      exact hj (Option.some.inj hmine)
    · intro u p hu
      show owned world.store.subs u p ≤ _
      rw [hsubs, owned_append, if_neg, Nat.add_zero]
      rintro ⟨rfl, -⟩
      have hmine := hi.user _ rfl
      rw [← huser, hu] at hmine
      exact hj (Option.some.inj hmine)
  · intro order ho
    exact (hi.order order ho).2

theorem Inv.ofWorld (h : Inv s) (htxs : t.txs = s.txs) (hkeeps : ∀ j, Keeps s t j) (hcreated : CreatedOnce t) :
    Inv t where
  created := hcreated
  txs j := by
    rw [htxs]
    exact (h.txs j).kept (hkeeps j)

theorem Inv.insertOrder {order : SubscriptionOrder} (h : Inv s) :
    Inv { s with world := { s.world with orders := s.world.orders ++ [order] } } := by
  refine h.ofWorld rfl ?_ ?_
  · intro j
    exact ⟨fun _ hu => hu, fun _ _ hn hrow => ⟨hn, lookup_append_old hrow⟩, rfl, fun _ _ _ => le_rfl⟩
  intro n
  refine ⟨(h.created n).1, fun hn => ?_⟩
  obtain ⟨old, hrow, hstatus⟩ := (h.created n).2 hn
  exact ⟨old, lookup_append_old hrow, hstatus⟩

theorem Inv.closeOrder {row : SubscriptionOrder} (h : Inv s) (hfree : s.orderLock row.tradeNo = none)
    (hstatus : row.status ≠ .pending) :
    Inv { s with world := { s.world with orders := save SubscriptionOrder.tradeNo s.world.orders row } } := by
  have hlookup : ∀ n, lookup SubscriptionOrder.tradeNo (save SubscriptionOrder.tradeNo s.world.orders row) n =
      if row.tradeNo = n then (s.world.order n).map fun _ => row else s.world.order n := fun n => lookup_save ..
  refine h.ofWorld rfl ?_ ?_
  · intro j
    refine ⟨fun _ hu => hu, ?_, rfl, fun _ _ _ => le_rfl⟩
    intro n order hn hrow
    refine ⟨hn, ?_⟩
    rw [World.order, hlookup, if_neg, hrow]
    rintro rfl
    rw [hfree] at hn
    cases hn
  · intro n
    refine ⟨(h.created n).1, fun hn => ?_⟩
    obtain ⟨old, hrow, hold⟩ := (h.created n).2 hn
    simp only [World.order] at hrow ⊢
    rw [hlookup]
    split
    · refine ⟨row, ?_, hstatus⟩
      rw [World.order, hrow]
      rfl
    · exact ⟨old, hrow, hold⟩

theorem expire_spec (w : World) (tradeNo expectedPaymentProvider : String) :
    (expireSubscriptionOrder w tradeNo expectedPaymentProvider access).2 = w ∨
      ∃ row : SubscriptionOrder, row.tradeNo = tradeNo ∧ row.status ≠ .pending ∧
        (expireSubscriptionOrder w tradeNo expectedPaymentProvider access).2 =
          { w with orders := save SubscriptionOrder.tradeNo w.orders row } := by
  unfold expireSubscriptionOrder
  split
  · exact .inl rfl
  split
  · exact .inl rfl
  rename_i order hread
  split
  · exact .inl rfl
  split
  · exact .inl rfl
  refine .inr ⟨{ order with status := .expired, completeTime := access.now }, ?_, by simp, rfl⟩
  split at hread
  · cases hread
  · exact (key_of_lookup hread : order.tradeNo = tradeNo)

/-- A snapshot misses nothing that is committed when the count comes. -/
def Covers (s : State) : Tx → Prop
  | .locked buyer plan (some view) =>
    owned s.world.store.subs buyer.userId plan.id ≤ owned view buyer.userId plan.id
  | _ => True

instance (s : State) (tx : Tx) : Decidable (Covers s tx) := by
  unfold Covers
  split <;> infer_instance

/-- The count sees all that was committed since the plan read. -/
def CountsCurrent (s : State) : Purchase.Event → Prop
  | .advance i _ => Covers s (s.txs i)
  | _ => True

instance (s : State) (e : Purchase.Event) : Decidable (CountsCurrent s e) := by
  unfold CountsCurrent
  split <;> infer_instance

theorem inv_advance (hok : CountsCurrent s (.advance i access)) (h : Inv s)
    (hstep : advance settings s i access = some t) : Inv t := by
  cases advance_spec hstep with
  | finish answer => exact h.finish answer
  | order call row hfree hrow hpending => exact h.lockOrder hfree hrow hpending
  | plan buyer plan view horder hplan => exact h.readPlan horder hplan
  | user buyer plan view htx hfree => exact h.lockUser htx hfree
  | count buyer plan view htx =>
    refine h.count htx ?_
    rintro rows rfl
    have hcovers : Covers s (s.txs i) := hok
    rwa [htx] at hcovers
  | commit buyer plan view access world htx hcreate => exact h.commit htx hcreate

theorem inv_step {e : Purchase.Event} (hok : CountsCurrent s e) (h : Inv s) (hstep : step settings s e = some t) :
    Inv t := by
  cases e with
  | complete | buy | bind =>
    simp only [step] at hstep
    split at hstep
    · exact h.begin rfl rfl rfl hstep
    · cases hstep
  | advance => exact inv_advance hok h hstep
  | insertOrder =>
    simp only [step] at hstep
    split at hstep <;> cases hstep
    exact h.insertOrder
  | expireOrder tradeNo expectedPaymentProvider =>
    simp only [step] at hstep
    split at hstep
    · cases hstep
    rename_i hfree
    cases hstep
    rcases expire_spec s.world tradeNo expectedPaymentProvider with hsame | ⟨row, hkey, hstatus, hsaved⟩
    · rw [hsame]
      exact h
    · rw [hsaved]
      exact h.closeOrder (hkey ▸ not_not.mp hfree) hstatus
  | failOrder =>
    simp only [step] at hstep
    split at hstep
    · cases hstep
    · rename_i hfree
      cases hstep
      exact h.closeOrder (not_not.mp hfree) (by simp)

/-! ## The limit -/

def Within (userId : Int) (plan : SubscriptionPlan) (s : State) : Prop :=
  getSubscriptionPlanById s.world.store.plans plan.id = .ok plan ∧
    (owned s.world.store.subs userId plan.id : Int) ≤ plan.maxPurchasePerUser

theorem Within.of_store (h : Within userId plan s) (hstore : t.world.store = s.world.store) : Within userId plan t := by
  unfold Within at h ⊢
  rwa [hstore]

theorem within_advance (hlimit : 0 < plan.maxPurchasePerUser) (hinv : Inv s)
    (h : Within userId plan s) (hstep : advance settings s i access = some t) : Within userId plan t := by
  cases advance_spec hstep with
  | commit buyer plan' view access world htx hcreate =>
    obtain ⟨⟨sub, hsubs, huser, hplan⟩, hplans, -, hcount⟩ := create_spec hcreate
    refine ⟨(congrArg (getSubscriptionPlanById · plan.id) hplans).trans h.1, ?_⟩
    show (owned world.store.subs userId plan.id : Int) ≤ _
    rw [hsubs, owned_append]
    split
    · -- The new row is one of those that were counted, with the user's row locked since then.
      rename_i hsame
      have hi := hinv.txs i
      rw [htx] at hi
      have huser' : buyer.userId = userId := huser.symm.trans hsame.1
      have hid : plan'.id = plan.id := hplan.symm.trans hsame.2
      have hread := hi.plan plan' rfl
      rw [hid, h.1] at hread
      obtain rfl := Except.ok.inj hread
      have hview := hi.view buyer plan view rfl
      have hroom := hcount hlimit
      rw [huser'] at hview hroom
      omega
    · exact h.2
  | _ => exact h

theorem within_step {e : Purchase.Event} (hlimit : 0 < plan.maxPurchasePerUser)
    (hinv : Inv s) (h : Within userId plan s) (hstep : step settings s e = some t) : Within userId plan t := by
  cases e with
  | advance => exact within_advance hlimit hinv h hstep
  | insertOrder | failOrder =>
    simp only [step] at hstep
    split at hstep <;> cases hstep
    exact h
  | expireOrder tradeNo expectedPaymentProvider =>
    simp only [step] at hstep
    split at hstep <;> cases hstep
    refine h.of_store ?_
    rcases expire_spec s.world tradeNo expectedPaymentProvider with hsame | ⟨row, -, -, hsaved⟩
    · rw [hsame]
    · rw [hsaved]
  | _ =>
    simp only [step] at hstep
    split at hstep
    · split at hstep <;> cases hstep <;> exact h
    · cases hstep

structure Start (s : State) : Prop where
  txs : ∀ i, s.txs i = .idle
  created : s.created = []

theorem Start.inv (h : Start s) : Inv s where
  txs i := by
    rw [h.txs i]
    exact txOk_idle rfl rfl rfl
  created n := by
    rw [h.created]
    exact ⟨Nat.zero_le 1, fun hn => by cases hn⟩

theorem purchase_limit_kept (settings : Settings) (s t : State) (es : List Purchase.Event) (hstart : Start s)
    (hrun : Steps (step settings) CountsCurrent s es t) :
    (∀ (userId : Int) (plan : SubscriptionPlan), 0 < plan.maxPurchasePerUser →
      getSubscriptionPlanById s.world.store.plans plan.id = .ok plan →
      (owned s.world.store.subs userId plan.id : Int) ≤ plan.maxPurchasePerUser →
      (owned t.world.store.subs userId plan.id : Int) ≤ plan.maxPurchasePerUser) ∧
    ∀ tradeNo, t.created.count tradeNo ≤ 1 := by
  constructor
  · intro userId plan hlimit hplan hcount
    have hkeep : ∀ u e v, CountsCurrent u e → Inv u ∧ Within userId plan u → step settings u e = some v →
        Inv v ∧ Within userId plan v := by
      rintro u e v hok ⟨hinv, hwithin⟩ hstep
      exact ⟨inv_step hok hinv hstep, within_step hlimit hinv hwithin hstep⟩
    exact (hrun.invariant hkeep ⟨hstart.inv, hplan, hcount⟩).2.2
  · intro tradeNo
    have hinv : Inv t := hrun.invariant (fun _ _ _ hok h hstep => inv_step hok h hstep) hstart.inv
    exact (hinv.created tradeNo).1

open NewApi.Reset (samplePlan)

def limitedPlan : SubscriptionPlan := { samplePlan .never 0 with id := 1, maxPurchasePerUser := 1 }

def sampleWorld : World where
  store := ⟨[limitedPlan], [], 1, [], [⟨1, "default"⟩]⟩
  orders := []
  topUps := []
  wallets := fun _ => 10000000

def sampleStart : State := ⟨sampleWorld, fun _ => .idle, fun _ => none, fun _ => none, []⟩

def sampleSettings : Settings := ⟨.snapshot, .fixed 0, 500000, fun _ => ⟨true, none⟩⟩

def drawing (tradeNo : String) : Access := ⟨1700000000, false, false, tradeNo⟩

def purchase (i : Nat) (tradeNo : String) : List Purchase.Event :=
  .buy i 1 1 :: List.replicate 4 (.advance i (drawing tradeNo))

theorem purchase_limit_kept_twice : ∃ t, Steps (step sampleSettings) CountsCurrent sampleStart
      (purchase 0 "A" ++ purchase 1 "B") t ∧ (owned t.world.store.subs 1 1 : Int) ≤ 1 ∧ t.created.count "A" ≤ 1 := by
  have hsome : (run (step sampleSettings) CountsCurrent sampleStart (purchase 0 "A" ++ purchase 1 "B")).isSome := by
    decide +kernel
  obtain ⟨t, ht⟩ := Option.isSome_iff_exists.mp hsome
  have hrun := steps_of_run ht
  have hall := purchase_limit_kept sampleSettings _ t _ ⟨fun _ => rfl, rfl⟩ hrun
  exact ⟨t, hrun, hall.1 1 limitedPlan (by decide) (by decide) (by decide), hall.2 "A"⟩

/-- Two purchases read their plan before either has locked the user. -/
def crossing : List Purchase.Event :=
  [.buy 0 1 1, .buy 1 1 1, .advance 0 (drawing "A"), .advance 1 (drawing "B")] ++
    List.replicate 3 (.advance 0 (drawing "A")) ++ List.replicate 3 (.advance 1 (drawing "B"))

/-- The second one counts in a snapshot from before the first one's commit. -/
theorem purchase_limit_exceeded : ∃ t, Steps (step sampleSettings) free sampleStart crossing t ∧
    owned t.world.store.subs 1 1 = 2 ∧ limitedPlan.maxPurchasePerUser = 1 := by
  have hcount : (run (step sampleSettings) free sampleStart crossing).map
      (fun t => owned t.world.store.subs 1 1) = some 2 := by
    decide +kernel
  obtain ⟨t, ht, howned⟩ := Option.map_eq_some_iff.mp hcount
  exact ⟨t, steps_of_run ht, howned, rfl⟩

end NewApi.PurchaseLimit
