import NewApi.Payment

/-!
# One session, from the pre-consume to the end

A session is open, settled once or refunded once, whatever its calls do and however their steps interleave.
-/

namespace NewApi.Session

open GoTime GoText Code Ledger Run Reset Budget

/-! ## The system -/

inductive RefundCall where
  | unlocked
  | funding (task : RefundTask)
  | extra (task : RefundTask)
  | token (task : RefundTask)
  | finished
deriving DecidableEq

/-- The actual quota of the call that settled, and whether its token step succeeded. -/
structure State where
  session : BillingSession
  accounts : Accounts
  calls : List RefundCall
  settlement : Option (Int × Bool)
deriving DecidableEq

inductive Event where
  | reserve (targetQuota : Int) (requireAvailableQuota : Bool) (answers : Answers)
  | settle (actualQuota : Int) (fails : SettleFaults)
  | refund
  | advance (call : Nat)
deriving DecidableEq

def RefundCall.advance (s : BillingSession) (a : Accounts) : RefundCall → Option (RefundCall × Accounts)
  | .unlocked => some (.funding s.refundTask, a)
  | .funding task => some (.extra task, refundFunding s.funding a false)
  | .extra task => some (.token task, task.refundExtra s.funding a false)
  | .token task => some (.finished, task.refundToken a false)
  | .finished => none

def State.settled (st : State) (actualQuota : Int) : Except Error Unit × BillingSession × Accounts → State
  | (answer, session, accounts) =>
    { st with
      session
      accounts
      settlement := if st.session.settled = false ∧ session.settled = true then
        some (actualQuota, answer.toBool) else st.settlement }

def step (st : State) : Event → Option State
  | .reserve target require answers =>
    let (_, session, accounts) := st.session.reserve st.accounts target require answers
    some { st with session, accounts }
  | .settle actual fails => some (st.settled actual (st.session.settle st.accounts actual fails))
  | .refund =>
    match st.session.beginRefund with
    | (_, false) => some st
    | (session, true) => some { st with session, calls := st.calls ++ [.unlocked] }
  | .advance i =>
    match st.calls[i]? with
    | none => none
    | some call =>
      match call.advance st.session st.accounts with
      | none => none
      | some (next, accounts) => some { st with accounts, calls := st.calls.set i next }

def Orderly (start : Accounts) (st : State) : Event → Prop
  | .reserve target _ _ => Fits start target st.session.funding
  | .settle actual _ => st.session.refunded = false ∧ Fits start actual st.session.funding
  | _ => True

section Steps

variable {start a a' : Accounts} {s : BillingSession} {funding : FundingSource}

/-! ## Every run -/

/-- The values are copied after the lock. -/
def Returning (start : Accounts) (s : BillingSession) (a : Accounts) : RefundCall → Prop
  | .unlocked => Holds start s a
  | .funding task => task = s.refundTask ∧ Holds start s a
  | .extra task => task = s.refundTask ∧ Returnable start s ∧ Paid start a (rest s s.funding) s.funding ∧
      a.token = start.token - onToken s.relayInfo s.preConsumedQuota
  | .token task => task = s.refundTask ∧ Returnable start s ∧ Paid start a 0 s.funding ∧
      a.token = start.token - onToken s.relayInfo s.preConsumedQuota
  | .finished => Paid start a 0 s.funding ∧ a.token = start.token

inductive Phase (start : Accounts) : State → Prop
  | holding {st : State} (hsettled : st.session.settled = false ∧ st.session.fundingSettled = false)
      (hrefunded : st.session.refunded = false) (hcalls : st.calls = []) (hnone : st.settlement = none)
      (h : Holds start st.session st.accounts) : Phase start st
  | settled {st : State} {actual : Int} {ok : Bool} (hsettled : st.session.settled = true)
      (hrefunded : st.session.refunded = false) (hcalls : st.calls = []) (hsome : st.settlement = some (actual, ok))
      (hpaid : Paid start st.accounts actual st.session.funding)
      (htoken : TokenPays start st.accounts st.session actual ok) : Phase start st
  | refunding {st : State} {call : RefundCall} (hsettled : st.session.settled = false)
      (hrefunded : st.session.refunded = true) (hcalls : st.calls = [call]) (hnone : st.settlement = none)
      (h : Returning start st.session st.accounts call) : Phase start st

theorem Holds.refunded (h : Holds start s a) : Holds start { s with refunded := true } a := by
  refine ⟨h.nonneg, h.consumed, h.fits, h.paid, ?_, h.token⟩
  have hreturns := h.returns
  show Returns _ a s.funding
  cases hf : s.funding with
  | wallet =>
    rw [hf] at hreturns
    exact hreturns
  | subscription =>
    rw [hf] at hreturns
    obtain ⟨hcharged, hextra, htotal, hsynced, hpos, hnamed, hrecord⟩ := hreturns
    exact ⟨hcharged, hextra, htotal, hsynced, hpos, hnamed, hrecord⟩

theorem returning_advance {call next : RefundCall} (h : Returning start s a call)
    (hstep : call.advance s a = some (next, a')) : Returning start s a' next := by
  cases call with
  | unlocked =>
    cases hstep
    exact ⟨rfl, h⟩
  | funding =>
    cases hstep
    obtain ⟨htask, h⟩ := h
    obtain ⟨hpaid, htoken⟩ := refundFunding_paid h
    exact ⟨htask, h.returnable, hpaid, htoken.trans h.token⟩
  | extra =>
    cases hstep
    obtain ⟨rfl, hret, hpaid, htoken⟩ := h
    obtain ⟨hpaid', htoken'⟩ := refundExtra_paid hret hpaid
    exact ⟨rfl, hret, hpaid', htoken'.trans htoken⟩
  | token =>
    cases hstep
    obtain ⟨rfl, hret, hpaid, htoken⟩ := h
    rw [refundToken_eq hret htoken]
    refine ⟨?_, rfl⟩
    cases hf : s.funding with
    | wallet =>
      rw [hf] at hpaid
      exact hpaid
    | subscription =>
      rw [hf] at hpaid
      exact hpaid
  | finished => cases hstep

end Steps

section Opening

variable {clock : Clock} {trustQuota : Option ℚ} {info : RelayInfo} {a a' : Accounts} {funding : FundingSource}
  {quota : Int} {answers : Answers} {attempt : Attempt} {s' : BillingSession}

/-! ## The opening -/

theorem preConsumeToken_spec {s : BillingSession} {q n : Int} {answer : Answer} (hfresh : s.tokenConsumed = 0)
    (h : s.preConsumeToken a q answer = .ok (n, a')) :
    n = max q 0 ∧ a' = { a with token := a.token - onToken s.relayInfo n } := by
  unfold BillingSession.preConsumeToken at h
  split at h
  · rename_i hpos
    cases hr : preConsumeTokenQuota s.relayInfo a q answer with
    | error =>
      rw [hr] at h
      cases h
    | ok =>
      rw [hr] at h
      cases h
      exact ⟨by omega, preConsumeToken_ok hpos hr⟩
  · cases h
    refine ⟨by omega, ?_⟩
    rw [hfresh, show onToken s.relayInfo 0 = 0 by unfold onToken; split <;> rfl, Int.sub_zero]

theorem preConsume_error {e : ApiError}
    (h : (BillingSession.fresh info funding).preConsume clock trustQuota a quota answers = (.error e, s', a')) :
    a' = a := by
  unfold BillingSession.preConsume at h
  dsimp only at h
  split at h
  · cases h
    rfl
  rename_i tokenConsumed b htaken
  obtain ⟨hn, rfl⟩ := preConsumeToken_spec rfl htaken
  split at h
  · -- What was taken from the token is put back, and a playground token was not charged.
    split at h
    · rename_i hback
      cases h
      have hplay : info.isPlayground = false := hback.2
      simp [onToken, BillingSession.fresh, hplay]
    · rename_i hback
      cases h
      have hzero : onToken info tokenConsumed = 0 := by
        unfold onToken
        split
        · rfl
        · rename_i hplay
          have : ¬ 0 < tokenConsumed := fun hpos => hback ⟨hpos, Bool.eq_false_iff.mpr hplay⟩
          omega
      show { a with token := a.token - onToken info tokenConsumed } = a
      rw [hzero, Int.sub_zero]
  · cases h

theorem preConsume_ok
    (h : (BillingSession.fresh info funding).preConsume clock trustQuota a quota answers = (.ok (), s', a')) :
    ∃ q trusted funding' b, q = (BillingSession.fresh info funding).effectiveQuota trustQuota quota ∧
      b = { a with token := a.token - onToken info (max q 0) } ∧
      funding.preConsume clock b q answers.funding = .ok (funding', a') ∧
      s' = ({ BillingSession.fresh info funding with
        trusted, funding := funding', tokenConsumed := max q 0, preConsumedQuota := q }).syncRelayInfo := by
  unfold BillingSession.preConsume at h
  dsimp only at h
  split at h
  · cases h
  rename_i tokenConsumed b htaken
  obtain ⟨rfl, hb⟩ := preConsumeToken_spec rfl htaken
  split at h
  · split at h <;> cases h
  · rename_i funding' c hfunding
    cases h
    exact ⟨_, _, funding', b, rfl, hb, hfunding, rfl⟩

theorem opened_ok {r : Except ApiError Unit × BillingSession × Accounts} (h : opened r = (.ok s', a')) :
    r = (.ok (), s', a') := by
  obtain ⟨_ | _, s, b⟩ := r
  · cases h
  · cases h
    rfl

def opening (s : BillingSession) (a : Accounts) : State := ⟨s, a, [], none⟩

theorem opening_phase {start : Accounts} {s : BillingSession} (hflags : s.settled = false ∧ s.fundingSettled = false)
    (hrefunded : s.refunded = false) (h : Holds start s a) : Phase start (opening s a) :=
  .holding hflags hrefunded rfl rfl h

theorem preConsumeWallet_phase {userId : Int} (hquota : 0 ≤ quota)
    (h : (BillingSession.fresh info (.wallet ⟨userId, 0⟩)).preConsume clock trustQuota a quota answers =
      (.ok (), s', a')) : Phase a (opening s' a') := by
  obtain ⟨q, trusted, _, b, hq, hb, hfunding, rfl⟩ := preConsume_ok h
  have hpos : 0 ≤ q := by
    rw [hq]
    unfold BillingSession.effectiveQuota
    split <;> omega
  obtain ⟨⟨w, a'⟩, hpre, heq⟩ := ok_of_map hfunding
  obtain ⟨rfl, rfl⟩ := Prod.mk.inj heq
  obtain ⟨hw, rfl⟩ : w.consumed = q ∧ a' = { b with wallet := b.wallet - q } := by
    by_cases hzero : q = 0
    · unfold WalletFunding.preConsume at hpre
      rw [if_pos (by omega)] at hpre
      cases hpre
      exact ⟨hzero.symm, by rw [hzero, Int.sub_zero]⟩
    · obtain ⟨rfl, rfl⟩ := walletPreConsume_ok (by omega) hpre
      exact ⟨Int.zero_add q, rfl⟩
  obtain ⟨info', hsync, hplay, -⟩ := sync_spec { BillingSession.fresh info (.wallet ⟨userId, 0⟩) with
    trusted, funding := .wallet w, tokenConsumed := max q 0, preConsumedQuota := q }
  rw [hsync]
  refine opening_phase ⟨rfl, rfl⟩ rfl ⟨hpos, max_eq_left hpos, trivial, ?_, hw, ?_⟩
  · show b.wallet - q = a.wallet - q
    rw [hb]
  · show b.token = a.token - onToken info' q
    rw [hb, onToken_congr hplay, max_eq_left hpos]
    rfl

/-- No reset due, room in the counter, and a new request. -/
structure Ready (clock : Clock) (info : RelayInfo) (start : Accounts) (quota : Int) : Prop where
  valid : Valid start.store
  nonneg : ∀ sub ∈ start.store.subs, 0 ≤ sub.amountUsed
  ids : ∀ sub ∈ start.store.subs, 0 < sub.id
  unseen : start.store.record info.requestId = none
  steady : ∀ sub ∈ start.store.activeSubs info.userId clock.now, ∀ row kind,
    refresh clock.fuel clock.loc start.store.plans clock.now sub = .ok (row, kind) → kind ≠ some .reset
  range : ∀ sub ∈ start.store.activeSubs info.userId clock.now, sub.amountUsed + max quota 1 < 2 ^ 63

theorem record_charged {store : Store} {requestId : String} {userId amount now : Int}
    {result : SubscriptionPreConsumeResult} {writes : List Write} (hnew : store.record requestId = none)
    (h : preConsumeUserSubscription clock.fuel clock.loc store requestId userId amount now = .ok (result, writes)) :
    0 < amount ∧ trimSpace requestId ≠ "" ∧ result.preConsumed = amount ∧
      (store.commit writes).record requestId =
        some ⟨requestId, userId, result.userSubscriptionId, amount, .consumed⟩ := by
  obtain ⟨hguard, ⟨hsome, -⟩ | ⟨chosen, resets, -, hselect, rfl, rfl⟩⟩ := preConsume_spec h
  · exact absurd hnew hsome
  obtain ⟨-, hnamed, hpos⟩ := preConsumeGuard_spec hguard
  refine ⟨hpos, hnamed, rfl, ?_⟩
  have hresets : (store.commit resets).record requestId = none := by
    unfold Store.record
    rw [commit_records]
    · exact hnew
    · intro w hw
      obtain ⟨_, _, rfl⟩ := select_saves hselect w hw
      trivial
  rw [commit_append]
  exact record_createRecord ⟨requestId, userId, chosen.id, amount, .consumed⟩ hresets

theorem subscriptionPreConsume_paid {f f' : SubscriptionFunding} {start : Accounts} {fails : Bool}
    (hready : Ready clock info start quota) (hstore : a.store = start.store) (hrequest : f.requestId = info.requestId)
    (huser : f.userId = info.userId) (hamount : f.amount ≤ max quota 1) (h : f.preConsume clock a fails = .ok (f', a')) :
    0 < f.amount ∧ f'.preConsumed = f.amount ∧ 0 < f'.subscriptionId ∧ trimSpace f'.requestId ≠ "" ∧
      Fits start f.amount (.subscription f') ∧ Paid start a' f.amount (.subscription f') ∧ a'.token = a.token ∧
      a'.store.record f'.requestId = some ⟨f'.requestId, f'.userId, f'.subscriptionId, f.amount, .consumed⟩ := by
  unfold SubscriptionFunding.preConsume at h
  split at h
  · cases h
  split at h
  · cases h
  rename_i result writes hr
  cases h
  rw [hstore] at hr
  obtain ⟨hpos, hnamed, hpre, hrecord⟩ := record_charged (hrequest ▸ hready.unseen) hr
  obtain ⟨candidate, hmem, hid, hown, hactive, ⟨row, kind, hrefresh, hroom, hrow⟩, -, -⟩ :=
    preConsume_lands hready.valid (hrequest ▸ hready.unseen) hr
  have hin : candidate ∈ start.store.activeSubs info.userId clock.now :=
    mem_activeSubs.mpr ⟨hmem, hown.trans huser, hactive⟩
  -- No reset is due, so the row is charged as it is.
  obtain ⟨last, next, rfl, -⟩ := refresh_spec hrefresh
  have hsteady := hready.steady candidate hin _ kind hrefresh
  have hused : (afterReset candidate kind last next).amountUsed = candidate.amountUsed := if_neg hsteady
  have hnonneg := hready.nonneg candidate hmem
  have hrange := hready.range candidate hin
  have hstart : start.store.sub result.userSubscriptionId = some candidate := by
    rw [← hid]
    exact hready.valid.sub_eq hmem
  have hwrap : wrap64 (candidate.amountUsed + f.amount) = candidate.amountUsed + f.amount :=
    wrap64_eq (by omega) (by omega)
  rw [hused, hwrap] at hrow
  refine ⟨hpos, hpre, hid ▸ hready.ids candidate hmem, hnamed, ?_, ?_, rfl, ?_⟩
  · show -2 ^ 63 ≤ used start.store result.userSubscriptionId + f.amount ∧ _ + f.amount < 2 ^ 63
    rw [used_eq hstart]
    omega
  · refine ⟨candidate, { afterReset candidate kind last next with amountUsed := candidate.amountUsed + f.amount },
      hstart, ?_, rfl, hnonneg, ?_, ?_⟩
    · show (a.store.commit writes).sub result.userSubscriptionId = _
      rw [hstore]
      exact hrow
    · show candidate.amountUsed + f.amount = max (candidate.amountUsed + f.amount) 0
      omega
    intro htotal
    have hlimit : (afterReset candidate kind last next).amountUsed + f.amount ≤ candidate.amountTotal := hroom htotal
    rw [hused] at hlimit
    exact hlimit
  · show (a.store.commit writes).record f.requestId = _
    rw [hstore]
    exact hrecord

theorem trySubscription_phase (h : trySubscription clock trustQuota info a quota attempt = (.ok s', a')) :
    s'.funding.source = .subscription ∧ (Ready clock info a quota → Phase a (opening s' a')) := by
  unfold trySubscription at h
  have hamount : (if quota ≤ 0 then 1 else quota) ≤ max quota 1 := by
    split <;> omega
  generalize (if quota ≤ 0 then 1 else quota) = amount at h hamount
  obtain ⟨q, trusted, _, b, hq, hb, hfunding, rfl⟩ := preConsume_ok (opened_ok h)
  -- A subscription is never trusted, so all of the amount is taken.
  obtain rfl : q = amount := by
    rw [hq]
    unfold BillingSession.effectiveQuota BillingSession.shouldTrust
    cases trustQuota <;> simp [BillingSession.fresh, FundingSource.source]
  obtain ⟨⟨f, _⟩, hpre, heq⟩ := ok_of_map hfunding
  obtain ⟨rfl, rfl⟩ := Prod.mk.inj heq
  obtain ⟨_, hsync, hplay, hsynced⟩ :=
    sync_spec { BillingSession.fresh info (.subscription ⟨info.requestId, info.userId, q, 0, 0, 0, 0⟩) with
      trusted, funding := .subscription f, tokenConsumed := max q 0, preConsumedQuota := q }
  rw [hsync]
  refine ⟨rfl, ?_⟩
  intro hready
  obtain ⟨hpos, hcharged, hid, hnamed, hfits, hpaid, htoken, hrecord⟩ :=
    subscriptionPreConsume_paid hready (by rw [hb]) rfl rfl hamount hpre
  have hmax : max q 0 = q := max_eq_left (Int.le_of_lt hpos)
  refine opening_phase ⟨rfl, rfl⟩ rfl ⟨Int.le_of_lt hpos, hmax, hfits, hpaid, ?_, ?_⟩
  · refine ⟨by rw [hcharged]; exact hpos, Int.le_refl 0, ?_, hsynced f rfl, hid, hnamed, ?_⟩
    · rw [hcharged]
      exact Int.add_zero q
    · rw [hcharged]
      exact hrecord
  · rw [htoken, hb, hmax, onToken_congr hplay]
    rfl

theorem opened_error {r : Except ApiError Unit × BillingSession × Accounts} {e : ApiError}
    (h : opened r = (.error e, a')) : ∃ s, r = (.error e, s, a') := by
  obtain ⟨_ | _, s, b⟩ := r
  · cases h
    exact ⟨s, rfl⟩
  · cases h

theorem trySubscription_error {e : ApiError}
    (h : trySubscription clock trustQuota info a quota attempt = (.error e, a')) : a' = a := by
  obtain ⟨s, hr⟩ := opened_error h
  exact preConsume_error hr

theorem tryWallet_error {e : ApiError} (h : tryWallet clock trustQuota info a quota attempt = (.error e, a')) :
    a' = a := by
  unfold tryWallet at h
  split at h
  · cases h
    rfl
  split at h
  · cases h
    rfl
  split at h
  · cases h
    rfl
  · obtain ⟨s, hr⟩ := opened_error h
    exact preConsume_error hr

theorem tryWallet_phase (hquota : 0 ≤ quota) (h : tryWallet clock trustQuota info a quota attempt = (.ok s', a')) :
    Phase a (opening s' a') := by
  unfold tryWallet at h
  split at h
  · cases h
  split at h
  · cases h
  · split at h
    · cases h
    · exact preConsumeWallet_phase hquota (opened_ok h)

theorem newBillingSession_error {e : ApiError}
    (h : newBillingSession clock trustQuota info a quota attempt = (.error e, a')) : a' = a := by
  unfold newBillingSession at h
  split at h
  · exact trySubscription_error h
  · exact tryWallet_error h
  · split at h
    · rename_i b hwallet
      obtain rfl := tryWallet_error hwallet
      split at h
      · exact trySubscription_error h
      · cases h
        rfl
    · cases h
  · split at h
    · cases h
      rfl
    split at h
    · cases h
      rfl
    split at h
    · exact tryWallet_error h
    split at h
    · cases h
    rename_i b hsub
    obtain rfl := trySubscription_error hsub
    split at h
    · split at h
      · cases h
        rfl
      split at h
      · exact tryWallet_error h
      · cases h
        rfl
    · cases h
      rfl

theorem newBillingSession_ok (h : newBillingSession clock trustQuota info a quota attempt = (.ok s', a')) :
    trySubscription clock trustQuota info a quota attempt = (.ok s', a') ∨
      tryWallet clock trustQuota info a quota attempt = (.ok s', a') := by
  unfold newBillingSession at h
  split at h
  · exact .inl h
  · exact .inr h
  · split at h
    · rename_i b hfirst
      obtain rfl := tryWallet_error hfirst
      split at h
      · exact .inl h
      · cases h
    · rename_i hfirst
      cases h
      exact .inr hfirst
  · split at h
    · cases h
    split at h
    · cases h
    split at h
    · exact .inr h
    split at h
    · rename_i hfirst
      cases h
      exact .inl hfirst
    rename_i b hfirst
    obtain rfl := trySubscription_error hfirst
    split at h
    · split at h
      · cases h
      · split at h
        · exact .inr h
        · cases h
    · cases h

theorem newBillingSession_phase (hquota : 0 ≤ quota)
    (h : newBillingSession clock trustQuota info a quota attempt = (.ok s', a'))
    (hready : s'.funding.source = .subscription → Ready clock info a quota) : Phase a (opening s' a') := by
  rcases newBillingSession_ok h with h | h
  · obtain ⟨hsource, hphase⟩ := trySubscription_phase h
    exact hphase (hready hsource)
  · exact tryWallet_phase hquota h

end Opening

section Runs

variable {start : Accounts} {st t : State}

theorem holding_step (e : Event) (hok : Orderly start st e)
    (hsettled : st.session.settled = false ∧ st.session.fundingSettled = false)
    (hrefunded : st.session.refunded = false) (hcalls : st.calls = []) (hnone : st.settlement = none)
    (h : Holds start st.session st.accounts) (hstep : step st e = some t) : Phase start t := by
  cases e with
  | reserve target require answers =>
    obtain ⟨⟨r, s', a'⟩, hr⟩ : ∃ x, st.session.reserve st.accounts target require answers = x := ⟨_, rfl⟩
    obtain ⟨hholds, ⟨hs, href, hfs⟩, -⟩ := reserve_spec h hok hr
    simp only [step, hr] at hstep
    cases hstep
    exact .holding ⟨hs.trans hsettled.1, hfs.trans hsettled.2⟩ (href.trans hrefunded) hcalls hnone hholds
  | settle actual faults =>
    obtain ⟨⟨r, _, _⟩, hr⟩ : ∃ x, st.session.settle st.accounts actual faults = x := ⟨_, rfl⟩
    simp only [step, hr, State.settled] at hstep
    cases hstep
    rcases settle_spec h hsettled hok.2 hr with ⟨rfl, rfl⟩ | ⟨hs, href, hpaid, htoken⟩
    · refine .holding hsettled hrefunded hcalls ?_ h
      show (if _ ∧ _ then _ else st.settlement) = none
      rw [if_neg (by rw [hsettled.1]; simp)]
      exact hnone
    · refine .settled hs (href.trans hrefunded) hcalls ?_ hpaid htoken
      show (if _ ∧ _ then _ else st.settlement) = _
      rw [if_pos ⟨hsettled.1, hs⟩]
  | refund =>
    unfold step BillingSession.beginRefund at hstep
    dsimp only at hstep
    split at hstep
    · rename_i hgo
      split at hgo <;> cases hgo
      cases hstep
      exact .holding hsettled hrefunded hcalls hnone h
    · rename_i hgo
      split at hgo <;> cases hgo
      cases hstep
      have hone : st.calls ++ [RefundCall.unlocked] = [.unlocked] := by rw [hcalls]; rfl
      exact .refunding hsettled.1 rfl hone hnone h.refunded
  | advance =>
    unfold step at hstep
    rw [hcalls] at hstep
    cases hstep

theorem step_closed {e : Event} (hcalls : st.calls = []) (hsettled : st.session.settled = true)
    (hstep : step st e = some t) : t = st := by
  cases e with
  | reserve =>
    simp only [step, reserve_closed (.inl hsettled)] at hstep
    exact (Option.some.inj hstep).symm
  | settle =>
    simp only [step, settle_settled hsettled, State.settled, hsettled] at hstep
    exact (Option.some.inj hstep).symm
  | refund =>
    simp only [step, beginRefund_closed (.inl hsettled)] at hstep
    exact (Option.some.inj hstep).symm
  | advance =>
    unfold step at hstep
    rw [hcalls] at hstep
    cases hstep

theorem step_phase (e : Event) (hok : Orderly start st e) (h : Phase start st) (hstep : step st e = some t) :
    Phase start t := by
  cases h with
  | holding hsettled hrefunded hcalls hnone h => exact holding_step e hok hsettled hrefunded hcalls hnone h hstep
  | settled hsettled hrefunded hcalls hsome hpaid htoken =>
    rw [step_closed hcalls hsettled hstep]
    exact .settled hsettled hrefunded hcalls hsome hpaid htoken
  | refunding hsettled hrefunded hcalls hnone h =>
    cases e with
    | reserve =>
      simp only [step, reserve_closed (.inr hrefunded)] at hstep
      cases hstep
      exact .refunding hsettled hrefunded hcalls hnone h
    | settle =>
      rw [hok.1] at hrefunded
      cases hrefunded
    | refund =>
      simp only [step, beginRefund_closed (.inr hrefunded)] at hstep
      cases hstep
      exact .refunding hsettled hrefunded hcalls hnone h
    | advance i =>
      unfold step at hstep
      rw [hcalls] at hstep
      -- There is one call, so it is this one that goes on.
      cases i with
      | succ => cases hstep
      | zero =>
        dsimp only [List.getElem?_cons_zero] at hstep
        split at hstep
        · cases hstep
        · rename_i next accounts hadv
          cases hstep
          exact .refunding hsettled hrefunded rfl hnone (returning_advance h hadv)

theorem Paid.counter_start {a : Accounts} {funding : FundingSource} (h : Paid start a 0 funding) :
    counter a funding = counter start funding := by
  cases funding with
  | wallet => exact h.trans (Int.sub_zero _)
  | subscription f =>
    obtain ⟨_, _, hbefore, hafter, -, hnonneg, hused, -⟩ := h
    show used a.store f.subscriptionId = used start.store f.subscriptionId
    rw [used_eq hbefore, used_eq hafter]
    omega

/-- A settlement takes the actual quota from both, and a refund leaves both as they were. -/
structure Conserved (start : Accounts) (st : State) : Prop where
  settled : ∀ actual ok, st.settlement = some (actual, ok) →
    Pays start st.accounts actual st.session.funding ∧ TokenPays start st.accounts st.session actual ok
  refunded : st.session.refunded = true → (∀ call ∈ st.calls, call = .finished) →
    counter st.accounts st.session.funding = counter start st.session.funding ∧ st.accounts.token = start.token
  reserved : ∀ target require answers e s a, Fits start target st.session.funding →
    st.session.reserve st.accounts target require answers = (.error e, s, a) →
    counter a st.session.funding = counter st.accounts st.session.funding ∧ a.token = st.accounts.token

theorem Phase.conserved (h : Phase start st) : Conserved start st := by
  cases h with
  | holding hsettled hrefunded hcalls hnone h =>
    refine ⟨?_, ?_, ?_⟩
    · intro actual ok hsome
      rw [hnone] at hsome
      cases hsome
    · intro htrue
      rw [hrefunded] at htrue
      cases htrue
    · intro target require answers e s a hfits hr
      exact ((reserve_spec h hfits hr).2.2 e rfl).2
  | settled hsettled hrefunded hcalls hsome hpaid htoken =>
    refine ⟨?_, ?_, ?_⟩
    · intro actual ok he
      rw [hsome] at he
      cases he
      exact ⟨hpaid.pays, htoken⟩
    · intro htrue
      rw [hrefunded] at htrue
      cases htrue
    · intro target require answers e s a _ hr
      rw [reserve_closed (.inl hsettled)] at hr
      cases hr
  | refunding hsettled hrefunded hcalls hnone h =>
    rename_i call
    refine ⟨?_, ?_, ?_⟩
    · intro actual ok hsome
      rw [hnone] at hsome
      cases hsome
    · intro _ hall
      obtain rfl : call = .finished := hall call (by rw [hcalls]; exact List.mem_cons_self)
      exact ⟨h.1.counter_start, h.2⟩
    · intro target require answers e s a _ hr
      rw [reserve_closed (.inr hrefunded)] at hr
      cases hr

theorem session_conserves (clock : Clock) (trustQuota : Option ℚ) (info : RelayInfo) (start : Accounts) (quota : Int)
    (attempt : Attempt) (quotaClamp : Option String) :
    (∀ e a, preConsumeBilling clock trustQuota info start quota attempt quotaClamp = (.error e, a) → a = start) ∧
    ∀ s a, preConsumeBilling clock trustQuota info start quota attempt quotaClamp = (.ok s, a) →
      (s.funding.source = .subscription → Ready clock info start quota) →
      ∀ es t, Steps step (Orderly start) (opening s a) es t → Conserved start t := by
  constructor
  · intro e a h
    unfold preConsumeBilling at h
    split at h
    · cases h
      rfl
    split at h
    · cases h
      rfl
    · exact newBillingSession_error h
  · intro s a h hready es t hrun
    unfold preConsumeBilling at h
    split at h
    · cases h
    split at h
    · cases h
    · have hphase := newBillingSession_phase (by omega) h hready
      exact (hrun.invariant (fun _ e _ hok hinv hstep => step_phase e hok hinv hstep) hphase).conserved

def sampleInfo (preference : String) : RelayInfo where
  requestId := "r"
  userId := 1
  userQuota := 0
  tokenQuota := 1000
  tokenUnlimited := false
  isPlayground := false
  forcePreConsume := false
  imageRequest := false
  imageRequestCount := 0
  billingPreference := preference
  finalPreConsumedQuota := 0
  billingSource := none
  subscriptionId := 0
  subscriptionPreConsumed := 0
  subscriptionPostDelta := 0
  subscriptionAmountTotal := 0
  subscriptionAmountUsedAfterPreConsume := 0

def sampleAccounts : Accounts := ⟨1000, 1000, sampleStore⟩

def sampleClock : Clock := ⟨0, .fixed 0, 1700000100⟩

def granted : Answers := ⟨.granted, .granted⟩

def sampleAttempt : Attempt := ⟨some 1000, granted, granted, false, false⟩

def sampleOpening (preference : String) : Except ApiError BillingSession × Accounts :=
  preConsumeBilling sampleClock none (sampleInfo preference) sampleAccounts 100 sampleAttempt none

/-- The token step fails. A subscription goes no lower than zero. -/
theorem settlement_is_not_exact :
    (∃ s a t, sampleOpening "wallet_only" = (.ok s, a) ∧
      Steps step (Orderly sampleAccounts) (opening s a) [.settle 150 ⟨false, true⟩, .settle 150 ⟨false, false⟩] t ∧
      t.session.settled = true ∧ t.accounts.wallet = sampleAccounts.wallet - 150 ∧
      t.accounts.token = sampleAccounts.token - 100) ∧
    ∃ s a t, sampleOpening "subscription_only" = (.ok s, a) ∧
      Steps step (Orderly sampleAccounts) (opening s a) [.settle (-500) ⟨false, false⟩] t ∧
      t.session.settled = true ∧ used sampleAccounts.store 1 = 300 ∧ used t.accounts.store 1 = 0 := by
  refine ⟨⟨_, _, _, rfl, .more ⟨rfl, trivial⟩ rfl (.more ⟨rfl, trivial⟩ rfl (.done _)), by decide, by decide, by decide⟩,
    ⟨_, _, _, rfl, .more ⟨rfl, ?_⟩ rfl (.done _), by decide, by decide, by decide⟩⟩
  show -2 ^ 63 ≤ used sampleAccounts.store 1 + -500 ∧ used sampleAccounts.store 1 + -500 < 2 ^ 63
  decide

theorem sample_ready : Ready sampleClock (sampleInfo "subscription_only") sampleAccounts 100 where
  valid := sampleStore_valid
  nonneg := by decide
  ids := by decide
  unseen := rfl
  steady := by
    intro sub hsub row kind hr
    obtain rfl : sub = sampleSub 1700000000 := List.mem_singleton.mp (mem_activeSubs.mp hsub).1
    cases hr
    decide
  range := by
    intro sub hsub
    obtain rfl : sub = sampleSub 1700000000 := List.mem_singleton.mp (mem_activeSubs.mp hsub).1
    decide

theorem session_conserves_refund :
    ∃ s a t, sampleOpening "subscription_only" = (.ok s, a) ∧ Steps step (Orderly sampleAccounts) (opening s a)
        [.reserve 250 false granted, .refund, .refund, .advance 0, .advance 0, .advance 0, .advance 0] t ∧
      Conserved sampleAccounts t := by
  have hrun : ∃ s a t, sampleOpening "subscription_only" = (.ok s, a) ∧
      Steps step (Orderly sampleAccounts) (opening s a)
        [.reserve 250 false granted, .refund, .refund, .advance 0, .advance 0, .advance 0, .advance 0] t := by
    refine ⟨_, _, _, rfl, .more ?_ rfl (.more trivial rfl (.more trivial rfl (.more trivial rfl (.more trivial rfl
      (.more trivial rfl (.more trivial rfl (.done _)))))))⟩
    show -2 ^ 63 ≤ used sampleAccounts.store 1 + 250 ∧ used sampleAccounts.store 1 + 250 < 2 ^ 63
    decide
  obtain ⟨s, a, t, hopen, hsteps⟩ := hrun
  exact ⟨s, a, t, hopen, hsteps, (session_conserves sampleClock none (sampleInfo "subscription_only") sampleAccounts 100
    sampleAttempt none).2 s a hopen (fun _ => sample_ready) _ t hsteps⟩

/-! ## Settlements and refunds alone -/

/-- A settlement after a refund is for what was pre-consumed. -/
def Apart (st : State) : Event → Prop
  | .reserve _ _ _ => False
  | .settle actual _ => st.session.refunded = true → actual = st.session.preConsumedQuota
  | .refund | .advance _ => True

theorem settle_keeps (s : BillingSession) (a : Accounts) (actual : Int) (fails : SettleFaults) :
    (s.settle a actual fails).2.1.refunded = s.refunded ∧
      ((s.settle a actual fails).2.1.settled = false ∨ actual = s.preConsumedQuota →
        (s.settle a actual fails).2.2 = a) := by
  unfold BillingSession.settle
  dsimp only
  split
  · exact ⟨rfl, fun _ => rfl⟩
  split
  · exact ⟨rfl, fun _ => rfl⟩
  rename_i hmoves
  have hother : actual ≠ s.preConsumedQuota := fun h => hmoves (Int.sub_eq_zero.mpr h)
  split
  · exact ⟨rfl, fun _ => rfl⟩
  · split <;> exact ⟨rfl, fun h => h.elim (fun h => by cases h) fun h => absurd h hother⟩

theorem step_refunded {e : Event} (he : Apart st e) (h : st.session.refunded = true) (hstep : step st e = some t) :
    t.session.refunded = true := by
  cases e with
  | reserve => exact he.elim
  | settle actual fails =>
    cases hstep
    exact (settle_keeps st.session st.accounts actual fails).1.trans h
  | refund =>
    simp only [step, beginRefund_closed (.inr h)] at hstep
    cases hstep
    exact h
  | advance =>
    simp only [step] at hstep
    split at hstep
    · cases hstep
    split at hstep
    · cases hstep
    · cases hstep
      exact h

/-- A call of the refund is there only after the session has been taken. -/
theorem step_calls {e : Event} (he : Apart st e) (h : st.calls ≠ [] → st.session.refunded = true)
    (hstep : step st e = some t) : t.calls ≠ [] → t.session.refunded = true := by
  by_cases hrefunded : st.session.refunded = true
  · exact fun _ => step_refunded he hrefunded hstep
  have hnone : st.calls = [] := not_not.mp fun hne => hrefunded (h hne)
  cases e with
  | reserve => exact he.elim
  | settle =>
    cases hstep
    exact fun hne => absurd hnone hne
  | refund =>
    unfold step BillingSession.beginRefund at hstep
    dsimp only at hstep
    split at hstep
    · cases hstep
      exact fun hne => absurd hnone hne
    · rename_i hgo
      split at hgo <;> cases hgo
      cases hstep
      exact fun _ => rfl
  | advance =>
    simp only [step, hnone] at hstep
    cases hstep

def IsSettle (e : Event) : Prop := ∃ actual fails, e = .settle actual fails

end Runs

end NewApi.Session
