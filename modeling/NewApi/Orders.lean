import NewApi.Code.TopUp
import NewApi.Lib.Run
import NewApi.Receipts

/-!
# Top-up orders and what they credit

Every function that completes an order locks its row and asks for the status `pending`.
-/

namespace NewApi.Orders

open Table Code Code.Credit Run Receipts

variable {quotaPerUnit : ℚ} {db after : TopUpDb} {access : TopUpAccess} {topUp : TopUp}

/-! ## Callbacks -/

/-- Two gateways close an order that was not paid. -/
inductive Callback where
  | epay (tradeNo actualPaymentMethod : String)
  | stripe (referenceId customerId : String)
  | creem (referenceId customerEmail : String)
  | waffo (tradeNo : String)
  | waffoPancake (tradeNo : String)
  | manual (tradeNo : String)
  | stripeExpired (referenceId : String)
  | waffoFailed (merchantOrderId : String)
deriving DecidableEq

def Callback.tradeNo : Callback → String
  | .epay tradeNo _ | .stripe tradeNo _ | .creem tradeNo _ | .waffo tradeNo | .waffoPancake tradeNo
  | .manual tradeNo | .stripeExpired tradeNo | .waffoFailed tradeNo => tradeNo

/-- An administrator completes any order. -/
def Callback.provider : Callback → Option String
  | .epay _ _ => some paymentProviderEpay
  | .stripe _ _ | .stripeExpired _ => some paymentProviderStripe
  | .creem _ _ => some paymentProviderCreem
  | .waffo _ | .waffoFailed _ => some paymentProviderWaffo
  | .waffoPancake _ => some paymentProviderWaffoPancake
  | .manual _ => none

def closing (r : Except Error Unit × TopUpDb) : Except Error (Option Receipt) × TopUpDb :=
  (r.1.map fun _ => none, r.2)

def Callback.run (quotaPerUnit : ℚ) (db : TopUpDb) (access : TopUpAccess) :
    Callback → Except Error (Option Receipt) × TopUpDb
  | .epay tradeNo actualPaymentMethod => rechargeEpay quotaPerUnit db access tradeNo actualPaymentMethod
  | .stripe referenceId customerId => recharge quotaPerUnit db access referenceId customerId
  | .creem referenceId customerEmail => rechargeCreem db access referenceId customerEmail
  | .waffo tradeNo => rechargeWaffo quotaPerUnit db access tradeNo
  | .waffoPancake tradeNo => rechargeWaffoPancake quotaPerUnit db access tradeNo
  | .manual tradeNo => manualCompleteTopUp quotaPerUnit db access tradeNo
  | .stripeExpired referenceId =>
    closing (updatePendingTopUpStatus db access referenceId paymentProviderStripe .expired)
  | .waffoFailed merchantOrderId =>
    closing (updatePendingTopUpStatus db access merchantOrderId paymentProviderWaffo .failed)

/-! ## What a callback does -/

def Credits (db after : TopUpDb) (topUp : TopUp) (receipt : Receipt) : Prop :=
  receipt.userId = topUp.userId ∧ Credited db.users after.users receipt ∧
    ∃ row, row.tradeNo = topUp.tradeNo ∧ row.status = .success ∧ after.topUps = save TopUp.tradeNo db.topUps row

/-- Refuse, find the order completed, close it or complete it. -/
inductive Outcome (db : TopUpDb) (tradeNo : String) (provider : Option String) :
    Except Error (Option Receipt) × TopUpDb → Prop where
  | refused (e : Error) : Outcome db tradeNo provider (.error e, db)
  | repeated : Outcome db tradeNo provider (.ok none, db)
  | closed (topUp : TopUp) (status : TopUpStatus) (hrow : db.topUp tradeNo = some topUp)
      (hpending : topUp.status = .pending) (hprovider : ∀ p ∈ provider, topUp.paymentProvider = p)
      (hstatus : status ≠ .success) : Outcome db tradeNo provider
        (.ok none, { db with topUps := save TopUp.tradeNo db.topUps { topUp with status } })
  | completed (topUp : TopUp) (receipt : Receipt) (after : TopUpDb) (hrow : db.topUp tradeNo = some topUp)
      (hpending : topUp.status = .pending) (hprovider : ∀ p ∈ provider, topUp.paymentProvider = p)
      (hcredits : Credits db after topUp receipt) : Outcome db tradeNo provider (.ok (some receipt), after)

theorem lockTopUp_ok {tradeNo : String} {missing : Error} (h : lockTopUp db access tradeNo missing = .ok topUp) :
    db.topUp tradeNo = some topUp := by
  unfold lockTopUp at h
  split at h
  · cases h
  split at h
  · cases h
  · rename_i hrow
    cases h
    exact hrow

theorem saveTopUp_ok (h : saveTopUp db access topUp = .ok after) :
    after = { db with topUps := save TopUp.tradeNo db.topUps topUp } := by
  unfold saveTopUp at h
  split at h
  · cases h
  · cases h
    rfl

variable {row : TopUp} {provider : Option String} {c : Callback}

theorem credits_of {middle : TopUpDb} {quota : Int} {updates : Payer → Payer} {users : List Payer}
    (hsave : saveTopUp db access row = .ok middle)
    (hcredit : creditTopUpQuota middle.users (access.fails .credit) topUp.userId quota updates = .ok users)
    (hrow : row.tradeNo = topUp.tradeNo) (hstatus : row.status = .success) :
    Credits db { middle with users } topUp ⟨topUp.userId, quota⟩ := by
  obtain rfl := saveTopUp_ok hsave
  exact ⟨rfl, creditTopUpQuota_ok hcredit, row, hrow, hstatus, rfl⟩

theorem completeTopUp_ok {d : ℚ} {answer : Option Receipt} (h : completeTopUp db access topUp d = .ok (answer, after)) :
    ∃ receipt, answer = some receipt ∧ Credits db after topUp receipt := by
  obtain ⟨_, -, h⟩ := ok_of_bind h
  obtain ⟨_, hsave, h⟩ := ok_of_bind h
  obtain ⟨_, hcredit, h⟩ := ok_of_bind h
  cases h
  exact ⟨_, rfl, credits_of hsave hcredit rfl rfl⟩

theorem Credits.of_columns {topUp' : TopUp} {receipt : Receipt} (h : Credits db after topUp' receipt)
    (htrade : topUp'.tradeNo = topUp.tradeNo) (huser : topUp'.userId = topUp.userId) :
    Credits db after topUp receipt := by
  unfold Credits at h ⊢
  rwa [htrade, huser] at h

/-! ### The transaction around it -/

theorem outcome_transaction {tradeNo : String} {body : Except Error (Option Receipt × TopUpDb)}
    (h : ∀ answer after, body = .ok (answer, after) → Outcome db tradeNo provider (.ok answer, after)) :
    Outcome db tradeNo provider (transaction db (access.fails .commit) body) := by
  unfold transaction
  split
  · exact .refused _
  · split
    · exact .refused _
    · exact h _ _ rfl

theorem outcome_hideError {tradeNo : String}
    {r : Except Error (Option Receipt) × TopUpDb} (h : Outcome db tradeNo provider r) :
    Outcome db tradeNo provider (hideError r) := by
  cases h with
  | refused => exact .refused _
  | repeated => exact .repeated
  | closed topUp status hrow hpending hprovider hstatus => exact .closed topUp status hrow hpending hprovider hstatus
  | completed topUp receipt after hrow hpending hprovider hcredits =>
    exact .completed topUp receipt after hrow hpending hprovider hcredits

theorem outcome_locked {tradeNo provider : String} {missing mismatch : Error}
    {rest : TopUp → Except Error (Option Receipt × TopUpDb)}
    (h : ∀ topUp answer after, db.topUp tradeNo = some topUp → (∀ p ∈ some provider, topUp.paymentProvider = p) →
      rest topUp = .ok (answer, after) → Outcome db tradeNo (some provider) (.ok answer, after)) :
    Outcome db tradeNo (some provider) (transaction db (access.fails .commit) do
      let topUp ← lockTopUp db access tradeNo missing
      if topUp.paymentProvider ≠ provider then .error mismatch else rest topUp) := by
  apply outcome_transaction
  intro answer after hbody
  obtain ⟨topUp, hlock, hbody⟩ := ok_of_bind hbody
  split at hbody
  · cases hbody
  rename_i hprovider
  refine h topUp answer after (lockTopUp_ok hlock) ?_ hbody
  rintro p ⟨⟩
  exact not_not.mp hprovider

theorem outcome_complete {tradeNo : String} {d : ℚ} {answer : Option Receipt}
    (hrow : db.topUp tradeNo = some topUp) (hpending : ¬ topUp.status ≠ .pending)
    (hprovider : ∀ p ∈ provider, topUp.paymentProvider = p) (htrade : row.tradeNo = topUp.tradeNo)
    (huser : row.userId = topUp.userId) (h : completeTopUp db access row d = .ok (answer, after)) :
    Outcome db tradeNo provider (.ok answer, after) := by
  obtain ⟨receipt, rfl, hcredits⟩ := completeTopUp_ok h
  exact .completed topUp receipt after hrow (not_not.mp hpending) hprovider (hcredits.of_columns htrade huser)

theorem outcome_updatePending {tradeNo provider : String} {status : TopUpStatus} (hstatus : status ≠ .success)
    (hprovider : provider ≠ "") :
    Outcome db tradeNo (some provider) (closing (updatePendingTopUpStatus db access tradeNo provider status)) := by
  unfold updatePendingTopUpStatus
  split
  · exact .refused _
  unfold transaction
  split
  · exact .refused _
  rename_i after h
  split
  · exact .refused _
  obtain ⟨topUp, hlock, h⟩ := ok_of_bind h
  split at h
  · cases h
  rename_i hmatch
  split at h
  · cases h
  rename_i hpending
  obtain ⟨_, hsave, h⟩ := ok_of_bind h
  cases h
  obtain rfl := saveTopUp_ok hsave
  refine .closed topUp status (lockTopUp_ok hlock) (not_not.mp hpending) ?_ hstatus
  rintro p ⟨⟩
  exact not_not.mp fun hne => hmatch ⟨hprovider, hne⟩

theorem outcome_epay (tradeNo actualPaymentMethod : String) : Outcome db tradeNo (some paymentProviderEpay)
    (rechargeEpay quotaPerUnit db access tradeNo actualPaymentMethod) := by
  unfold rechargeEpay
  split
  · exact .refused _
  apply outcome_locked
  intro topUp answer after hrow hprovider h
  split at h
  · cases h
    exact .repeated
  split at h
  · cases h
  rename_i hpending
  refine outcome_complete hrow hpending hprovider ?_ ?_ h
  · split <;> rfl
  · split <;> rfl

theorem outcome_stripe (referenceId customerId : String) : Outcome db referenceId (some paymentProviderStripe)
    (recharge quotaPerUnit db access referenceId customerId) := by
  unfold recharge
  split
  · exact .refused _
  apply outcome_hideError
  apply outcome_locked
  intro topUp answer after hrow hprovider h
  split at h
  · cases h
  rename_i hpending
  obtain ⟨_, hsave, h⟩ := ok_of_bind h
  obtain ⟨_, -, h⟩ := ok_of_bind h
  obtain ⟨_, hcredit, h⟩ := ok_of_bind h
  cases h
  exact .completed topUp _ _ hrow (not_not.mp hpending) hprovider (credits_of hsave hcredit rfl rfl)

theorem outcome_creem (referenceId customerEmail : String) : Outcome db referenceId (some paymentProviderCreem)
    (rechargeCreem db access referenceId customerEmail) := by
  unfold rechargeCreem
  split
  · exact .refused _
  apply outcome_hideError
  apply outcome_locked
  intro topUp answer after hrow hprovider h
  split at h
  · cases h
  rename_i hpending
  obtain ⟨_, hsave, h⟩ := ok_of_bind h
  obtain ⟨_, -, h⟩ := ok_of_bind h
  obtain ⟨_, -, h⟩ := ok_of_bind h
  obtain ⟨_, hcredit, h⟩ := ok_of_bind h
  cases h
  exact .completed topUp _ _ hrow (not_not.mp hpending) hprovider (credits_of hsave hcredit rfl rfl)

theorem outcome_manual (tradeNo : String) :
    Outcome db tradeNo none (manualCompleteTopUp quotaPerUnit db access tradeNo) := by
  unfold manualCompleteTopUp
  split
  · exact .refused _
  apply outcome_transaction
  intro answer after h
  obtain ⟨_, hlock, h⟩ := ok_of_bind h
  split at h
  · cases h
    exact .repeated
  split at h
  · cases h
  · rename_i hpending
    refine outcome_complete (lockTopUp_ok hlock) hpending ?_ rfl rfl h
    rintro p ⟨⟩

theorem outcome_gateway (provider tradeNo : String) : Outcome db tradeNo (some provider)
    (rechargeGateway quotaPerUnit db access provider tradeNo) := by
  unfold rechargeGateway
  split
  · exact .refused _
  apply outcome_hideError
  apply outcome_locked
  intro topUp answer after hrow hprovider h
  split at h
  · cases h
    exact .repeated
  split at h
  · cases h
  · rename_i hpending
    exact outcome_complete hrow hpending hprovider rfl rfl h

theorem outcome_run (c : Callback) : Outcome db c.tradeNo c.provider (c.run quotaPerUnit db access) := by
  cases c with
  | epay tradeNo method => exact outcome_epay tradeNo method
  | stripe referenceId customerId => exact outcome_stripe referenceId customerId
  | creem referenceId customerEmail => exact outcome_creem referenceId customerEmail
  | waffo tradeNo | waffoPancake tradeNo => exact outcome_gateway _ tradeNo
  | manual tradeNo => exact outcome_manual tradeNo
  | stripeExpired | waffoFailed => exact outcome_updatePending (by decide) (by decide)

theorem unchanged_of_error {e : Error} (h : (c.run quotaPerUnit db access).1 = .error e) :
    (c.run quotaPerUnit db access).2 = db := by
  have hout : Outcome db c.tradeNo c.provider (c.run quotaPerUnit db access) := outcome_run c
  generalize c.run quotaPerUnit db access = r at h hout
  cases hout with
  | refused | repeated => rfl
  | closed | completed => cases h

theorem unchanged_of_foreign
    (h : ∀ topUp, db.topUp c.tradeNo = some topUp →
      topUp.status ≠ .pending ∨ ∃ p ∈ c.provider, topUp.paymentProvider ≠ p) :
    (c.run quotaPerUnit db access).2 = db := by
  have hout : Outcome db c.tradeNo c.provider (c.run quotaPerUnit db access) := outcome_run c
  generalize c.run quotaPerUnit db access = r at hout
  have hnot : ∀ topUp, db.topUp c.tradeNo = some topUp → topUp.status = .pending →
      ¬ ∀ p ∈ c.provider, topUp.paymentProvider = p := by
    intro topUp hrow hpending hprovider
    rcases h topUp hrow with hstatus | ⟨p, hp, hne⟩
    · exact hstatus hpending
    · exact hne (hprovider p hp)
  cases hout with
  | refused | repeated => rfl
  | closed topUp _ hrow hpending hprovider | completed topUp _ _ hrow hpending hprovider =>
    exact absurd hprovider (hnot topUp hrow hpending)

/-! ## The system -/

/-- `copies` are about to be saved by a failure path. `paid`: what each order has credited. -/
structure State where
  db : TopUpDb
  copies : List TopUp
  paid : List (String × Receipt)
deriving DecidableEq

inductive Event where
  | create (topUp : TopUp)
  | callback (c : Callback) (access : TopUpAccess)
  | read (referenceId : String)
  | save (copy : Nat) (fails : Bool)

/-- The Waffo gateways fail an order that the gateway refuses. -/
def keepsCopy (topUp : TopUp) : Prop :=
  topUp.paymentProvider = paymentProviderWaffo ∨ topUp.paymentProvider = paymentProviderWaffoPancake

instance (topUp : TopUp) : Decidable (keepsCopy topUp) := inferInstanceAs (Decidable (_ ∨ _))

def step (quotaPerUnit : ℚ) (s : State) : Event → Option State
  | .create topUp =>
    if topUp.status = .pending then
      (s.db.insert topUp).map fun db =>
        { s with
          db
          copies := if keepsCopy topUp then s.copies ++ [{ topUp with status := .failed }] else s.copies }
    else none
  | .callback c access =>
    match c.run quotaPerUnit s.db access with
    | (.ok (some receipt), db) => some { s with db, paid := s.paid ++ [(c.tradeNo, receipt)] }
    | (_, db) => some { s with db }
  | .read referenceId =>
    (sessionAsyncPaymentFailed s.db referenceId).map fun topUp => { s with copies := s.copies ++ [topUp] }
  | .save copy fails =>
    s.copies[copy]?.map fun topUp =>
      { s with db := s.db.update topUp fails, copies := s.copies.eraseIdx copy }

def State.paidFor (s : State) (tradeNo : String) : List Receipt :=
  (s.paid.filter fun p => p.1 = tradeNo).map Prod.snd

def Succeeded (db : TopUpDb) (tradeNo : String) : Prop :=
  ∃ topUp, db.topUp tradeNo = some topUp ∧ topUp.status = .success

def State.receipts (s : State) : List Receipt := s.paid.map Prod.snd

/-- No row is saved from memory over an order that has succeeded. -/
def SparesSuccess (s : State) : Event → Prop
  | .save copy _ => ∀ topUp ∈ s.copies[copy]?, ¬ Succeeded s.db topUp.tradeNo
  | _ => True

structure Inv (tradeNo : String) (s : State) : Prop where
  failures : ∀ topUp ∈ s.copies, topUp.status = .failed
  paid : s.paidFor tradeNo = [] ∧ ¬ Succeeded s.db tradeNo ∨
    ∃ receipt, s.paidFor tradeNo = [receipt] ∧ Succeeded s.db tradeNo

variable {s t : State} {tradeNo : String}

theorem succeeded_save (hrow : (db.topUp row.tradeNo).isSome) (tradeNo : String) :
    Succeeded { db with topUps := save TopUp.tradeNo db.topUps row } tradeNo ↔
      if row.tradeNo = tradeNo then row.status = .success else Succeeded db tradeNo := by
  obtain ⟨_, hold⟩ := Option.isSome_iff_exists.mp hrow
  unfold Succeeded
  simp only [TopUpDb.topUp] at hold ⊢
  rw [lookup_save]
  split
  · rename_i htrade
    subst htrade
    simp [hold]
  · exact Iff.rfl

theorem succeeded_insert (h : db.insert topUp = some after) (hpending : topUp.status = .pending) :
    Succeeded after tradeNo ↔ Succeeded db tradeNo := by
  unfold TopUpDb.insert at h
  split at h
  · cases h
  cases h
  unfold Succeeded
  simp only [TopUpDb.topUp, lookup_append]
  cases lookup TopUp.tradeNo db.topUps tradeNo with
  | some => simp
  | none =>
    rw [Option.none_or]
    split
    · simp [hpending]
    · simp

theorem Credits.succeeded {receipt : Receipt} (h : Credits db after topUp receipt)
    (hrow : (db.topUp topUp.tradeNo).isSome) (tradeNo : String) :
    Succeeded after tradeNo ↔ topUp.tradeNo = tradeNo ∨ Succeeded db tradeNo := by
  obtain ⟨-, -, row, htrade, hstatus, hsaved⟩ := h
  have hdb : Succeeded after tradeNo ↔
      Succeeded { db with topUps := save TopUp.tradeNo db.topUps row } tradeNo := by
    unfold Succeeded TopUpDb.topUp
    rw [hsaved]
  rw [hdb, succeeded_save (htrade ▸ hrow), htrade]
  split
  · rename_i he
    simp [he, hstatus]
  · rename_i hne
    simp [hne]

theorem not_succeeded_of_pending (hrow : db.topUp tradeNo = some topUp) (hpending : topUp.status = .pending) :
    ¬ Succeeded db tradeNo := by
  rintro ⟨_, hlookup, hstatus⟩
  rw [hrow] at hlookup
  cases hlookup
  rw [hpending] at hstatus
  cases hstatus

theorem tradeNo_of_topUp (h : db.topUp tradeNo = some topUp) : topUp.tradeNo = tradeNo := key_of_lookup h

theorem succeeded_of_spared (hrow : ¬ Succeeded db row.tradeNo) (hstatus : row.status ≠ .success) :
    Succeeded { db with topUps := save TopUp.tradeNo db.topUps row } tradeNo ↔ Succeeded db tradeNo := by
  by_cases hsome : (db.topUp row.tradeNo).isSome
  · rw [succeeded_save hsome]
    split
    · rename_i he
      rw [← he]
      exact iff_of_false hstatus hrow
    · exact Iff.rfl
  · have hnone : lookup TopUp.tradeNo db.topUps row.tradeNo = none := Option.not_isSome_iff_eq_none.mp hsome
    unfold Succeeded
    simp only [TopUpDb.topUp, lookup_save]
    split
    · rename_i he
      simp [← he, hnone]
    · exact Iff.rfl

theorem Inv.of_same (h : Inv tradeNo s) (hcopies : ∀ topUp ∈ t.copies, topUp.status = .failed)
    (hpaid : t.paidFor tradeNo = s.paidFor tradeNo) (hsuccess : Succeeded t.db tradeNo ↔ Succeeded s.db tradeNo) :
    Inv tradeNo t where
  failures := hcopies
  paid := by
    rw [hpaid, hsuccess]
    exact h.paid

theorem inv_callback (h : Inv tradeNo s) (hstep : step quotaPerUnit s (.callback c access) = some t) :
    Inv tradeNo t := by
  have hout : Outcome s.db c.tradeNo c.provider (c.run quotaPerUnit s.db access) := outcome_run c
  simp only [step] at hstep
  generalize c.run quotaPerUnit s.db access = r at hstep hout
  cases hout with
  | refused | repeated =>
    cases hstep
    exact h
  | closed topUp status hrow hpending hprovider hstatus =>
    cases hstep
    refine h.of_same h.failures rfl (succeeded_of_spared ?_ hstatus)
    exact not_succeeded_of_pending (tradeNo_of_topUp hrow ▸ hrow) hpending
  | completed topUp receipt after hrow hpending hprovider hcredits =>
    cases hstep
    have htrade := tradeNo_of_topUp hrow
    have hsuccess := hcredits.succeeded (by rw [htrade, hrow]; rfl) tradeNo
    refine ⟨h.failures, ?_⟩
    unfold State.paidFor
    rw [List.filter_append, List.map_append]
    by_cases he : c.tradeNo = tradeNo
    · -- The order was pending, so it had no credit before.
      subst he
      rcases h.paid with ⟨hnone, -⟩ | ⟨-, -, hdone⟩
      · refine .inr ⟨receipt, ?_, hsuccess.mpr (.inl htrade)⟩
        simp only [State.paidFor] at hnone
        rw [hnone]
        simp
      · exact absurd hdone (not_succeeded_of_pending hrow hpending)
    · have hsame : Succeeded after tradeNo ↔ Succeeded s.db tradeNo := by
        rw [hsuccess, htrade]
        simp [he]
      rw [hsame]
      simpa [he, State.paidFor] using h.paid

theorem inv_step {e : Event} (hok : SparesSuccess s e) (h : Inv tradeNo s) (hstep : step quotaPerUnit s e = some t) :
    Inv tradeNo t := by
  cases e with
  | create =>
    simp only [step] at hstep
    split at hstep
    · rename_i hpending
      obtain ⟨_, hinsert, rfl⟩ := Option.map_eq_some_iff.mp hstep
      refine h.of_same ?_ rfl (succeeded_insert hinsert hpending)
      intro copy hcopy
      split at hcopy
      · rcases List.mem_append.mp hcopy with hold | hnew
        · exact h.failures copy hold
        · rw [List.mem_singleton.mp hnew]
      · exact h.failures copy hcopy
    · cases hstep
  | callback => exact inv_callback h hstep
  | read =>
    obtain ⟨topUp, hread, rfl⟩ := Option.map_eq_some_iff.mp hstep
    refine h.of_same ?_ rfl Iff.rfl
    intro copy hcopy
    rcases List.mem_append.mp hcopy with hold | hnew
    · exact h.failures copy hold
    rw [List.mem_singleton.mp hnew]
    unfold sessionAsyncPaymentFailed at hread
    split at hread
    · cases hread
    split at hread
    · cases hread
    split at hread
    · cases hread
    split at hread
    · cases hread
    · cases hread
      rfl
  | save =>
    obtain ⟨topUp, hcopy, rfl⟩ := Option.map_eq_some_iff.mp hstep
    have hfailed := h.failures topUp (List.mem_of_getElem? hcopy)
    refine h.of_same (fun x hx => h.failures x (List.mem_of_mem_eraseIdx hx)) rfl ?_
    unfold TopUpDb.update
    split
    · exact Iff.rfl
    · exact succeeded_of_spared (hok topUp hcopy) (by rw [hfailed]; decide)

/-! ## The wallets -/

theorem moved_step {e : Event} (hstep : step quotaPerUnit s e = some t) :
    Moved s.db.users t.db.users s.receipts t.receipts := by
  have hsame : ∀ db copies, db.users = s.db.users →
      Moved s.db.users db.users s.receipts (State.mk db copies s.paid).receipts := by
    intro db copies husers
    rw [husers]
    exact .refl _ _
  cases e with
  | create =>
    simp only [step] at hstep
    split at hstep
    · obtain ⟨_, hinsert, rfl⟩ := Option.map_eq_some_iff.mp hstep
      apply hsame
      unfold TopUpDb.insert at hinsert
      split at hinsert
      · cases hinsert
      · cases hinsert
        rfl
    · cases hstep
  | callback c access =>
    have hout : Outcome s.db c.tradeNo c.provider (c.run quotaPerUnit s.db access) := outcome_run c
    simp only [step] at hstep
    generalize c.run quotaPerUnit s.db access = r at hstep hout
    cases hout with
    | refused | repeated | closed =>
      cases hstep
      exact hsame _ _ rfl
    | completed topUp receipt after hrow hpending hprovider hcredits =>
      cases hstep
      unfold State.receipts
      rw [List.map_append]
      exact hcredits.2.1.moved _
  | read =>
    obtain ⟨topUp, -, rfl⟩ := Option.map_eq_some_iff.mp hstep
    exact hsame _ _ rfl
  | save =>
    obtain ⟨_, -, rfl⟩ := Option.map_eq_some_iff.mp hstep
    apply hsame
    unfold TopUpDb.update
    split <;> rfl

theorem moved_run {ok : State → Event → Prop} {es : List Event} (h : Steps (step quotaPerUnit) ok s es t) :
    Moved s.db.users t.db.users s.receipts t.receipts := by
  have hkeep : ∀ u e v, ok u e → Moved s.db.users u.db.users s.receipts u.receipts →
      step quotaPerUnit u e = some v → Moved s.db.users v.db.users s.receipts v.receipts :=
    fun _ _ _ _ hu hstep => hu.trans (moved_step hstep)
  exact h.invariant hkeep (.refl _ _)

/-! ## Runs -/

theorem credited_iff_success (quotaPerUnit : ℚ) :
    (∀ (db : TopUpDb) (access : TopUpAccess) (c : Callback),
      ((∃ e, (c.run quotaPerUnit db access).1 = .error e) → (c.run quotaPerUnit db access).2 = db) ∧
      ((∀ topUp, db.topUp c.tradeNo = some topUp →
        topUp.status ≠ .pending ∨ ∃ p ∈ c.provider, topUp.paymentProvider ≠ p) →
          (c.run quotaPerUnit db access).2 = db)) ∧
    ∀ (s t : State) (es : List Event), Steps (step quotaPerUnit) SparesSuccess s es t →
      (∀ topUp ∈ s.copies, topUp.status = .failed) →
      (∀ tradeNo, s.paidFor tradeNo = [] → ¬ Succeeded s.db tradeNo →
        (t.paidFor tradeNo).length ≤ 1 ∧ (t.paidFor tradeNo ≠ [] ↔ Succeeded t.db tradeNo)) ∧
      Moved s.db.users t.db.users s.receipts t.receipts := by
  refine ⟨fun db access c => ⟨fun ⟨e, h⟩ => unchanged_of_error h, unchanged_of_foreign⟩, ?_⟩
  intro s t es hrun hcopies
  refine ⟨?_, moved_run hrun⟩
  intro tradeNo hnone hopen
  have hinv : Inv tradeNo t :=
    hrun.invariant (fun _ _ _ hok h hstep => inv_step hok h hstep) ⟨hcopies, .inl ⟨hnone, hopen⟩⟩
  rcases hinv.paid with ⟨hpaid, hnot⟩ | ⟨_, hpaid, hdone⟩
  · simp [hpaid, hnot]
  · simp [hpaid, hdone]

def sampleTopUp : TopUp where
  userId := 1
  amount := 2
  money := 2
  tradeNo := "T1"
  paymentMethod := "stripe"
  paymentProvider := "stripe"
  createTime := 1700000000
  completeTime := 0
  status := .pending

def sampleState : State where
  db := ⟨[sampleTopUp], [⟨1, 0, "", ""⟩]⟩
  copies := []
  paid := []

def smooth : TopUpAccess := ⟨1700000100, fun _ => false⟩

def payment : Event := .callback (.stripe "T1" "cus_1") smooth

def paidState : State where
  db := ⟨[sampleTopUp.complete 1700000100], [⟨1, 1000000, "", "cus_1"⟩]⟩
  copies := []
  paid := [("T1", ⟨1, 1000000⟩)]

/-- The callback comes twice. -/
theorem credited_iff_success_stripe : Steps (step 500000) SparesSuccess sampleState [payment, payment] paidState ∧
    (paidState.paidFor "T1").length ≤ 1 ∧ (paidState.paidFor "T1" ≠ [] ↔ Succeeded paidState.db "T1") := by
  have hpaid : step 500000 sampleState payment = some paidState := by decide +kernel
  have hagain : step 500000 paidState payment = some paidState := by decide +kernel
  have hrun : Steps (step 500000) SparesSuccess sampleState [payment, payment] paidState :=
    .more trivial hpaid (.more trivial hagain (.done _))
  have hopen : ¬ Succeeded sampleState.db "T1" :=
    not_succeeded_of_pending (show sampleState.db.topUp "T1" = some sampleTopUp from rfl) rfl
  obtain ⟨horder, -⟩ := (credited_iff_success 500000).2 _ _ _ hrun (by simp [sampleState])
  exact ⟨hrun, horder "T1" rfl hopen⟩

/-- A report saves its pending row after another has completed the order. -/
theorem credited_order_ends_failed : ∃ t, Steps (step 500000) free sampleState
      [.read "T1", payment, .save 0 false] t ∧
    t.paidFor "T1" = [⟨1, 1000000⟩] ∧ balance t.db.users 1 = some 1000000 ∧ ¬ Succeeded t.db "T1" := by
  refine ⟨⟨⟨[{ sampleTopUp with status := .failed }], [⟨1, 1000000, "", "cus_1"⟩]⟩, [], [("T1", ⟨1, 1000000⟩)]⟩, ?_⟩
  refine ⟨steps_of_run (by decide +kernel), by decide, by decide, ?_⟩
  rintro ⟨_, hrow, hstatus⟩
  cases hrow
  cases hstatus

end NewApi.Orders
