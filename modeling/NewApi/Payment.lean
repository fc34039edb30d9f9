import NewApi.Budget
import NewApi.Code.Session

/-!
# What a session has paid

The funding source and the token carry the same amount while a session is open.
-/

namespace NewApi.Session

open GoTime GoText Code Ledger

/-! ## What is paid -/

def used (s : Store) (id : Int) : Int := (s.sub id).elim 0 UserSubscription.amountUsed

/-- The counter of a subscription stops at zero. -/
def Pays (start a : Accounts) (amount : Int) : FundingSource → Prop
  | .wallet _ => a.wallet = start.wallet - amount
  | .subscription f =>
    used a.store f.subscriptionId = max (used start.store f.subscriptionId + amount) 0

def counter (a : Accounts) : FundingSource → Int
  | .wallet _ => a.wallet
  | .subscription f => used a.store f.subscriptionId

def Fits (start : Accounts) (amount : Int) : FundingSource → Prop
  | .wallet _ => True
  | .subscription f => -2 ^ 63 ≤ used start.store f.subscriptionId + amount ∧
      used start.store f.subscriptionId + amount < 2 ^ 63

section Steps

variable {start a a' : Accounts} {s s' : BillingSession} {p delta : Int} {f : SubscriptionFunding} {fails : Bool}
  {funding : FundingSource} {answer : Answer}

def Paid (start a : Accounts) (p : Int) : FundingSource → Prop
  | .wallet _ => a.wallet = start.wallet - p
  | .subscription f => ∃ before after, start.store.sub f.subscriptionId = some before ∧
      a.store.sub f.subscriptionId = some after ∧ after.amountTotal = before.amountTotal ∧
      0 ≤ before.amountUsed ∧ after.amountUsed = max (before.amountUsed + p) 0 ∧
      (0 < after.amountTotal → after.amountUsed ≤ after.amountTotal)

variable {id quota : Int} {w : WalletFunding} {info : RelayInfo}

theorem used_eq {store : Store} {sub : UserSubscription} (h : store.sub id = some sub) :
    used store id = sub.amountUsed := by
  unfold used
  rw [h]
  rfl

theorem Paid.pays (h : Paid start a p funding) : Pays start a p funding := by
  cases funding with
  | wallet => exact h
  | subscription f =>
    obtain ⟨_, _, hbefore, hafter, -, -, hused, -⟩ := h
    show used a.store f.subscriptionId = max (used start.store f.subscriptionId + p) 0
    rw [used_eq hbefore, used_eq hafter]
    exact hused

theorem Paid.counter_eq (h : Paid start a p funding) (h' : Paid start a' p funding) :
    counter a' funding = counter a funding := by
  have hpays := h.pays
  have hpays' := h'.pays
  cases funding with
  | wallet | subscription => exact hpays'.trans hpays.symm

theorem paid_token (h : Paid start a p funding) (token : Int) : Paid start { a with token } p funding := by
  cases funding with
  | wallet | subscription => exact h

theorem checkedQuota_ok {after : Accounts} (h : checkedQuota quota fails after = .ok a') : a' = after := by
  unfold checkedQuota at h
  split at h
  · cases h
  split at h
  · cases h
  · cases h
    rfl

theorem checkedQuota_succeeds (h : 0 ≤ quota) (after : Accounts) : checkedQuota quota false after = .ok after := by
  unfold checkedQuota
  rw [if_neg (by omega)]
  rfl

theorem subscriptionDelta_spec (h : subscriptionDelta a id delta fails = .ok a') (hdelta : delta ≠ 0) :
    ∃ sub, a.store.sub id = some sub ∧
      (0 < sub.amountTotal → max (wrap64 (sub.amountUsed + delta)) 0 ≤ sub.amountTotal) ∧
      a' = { a with
        store := a.store.write
          (.saveSub .charge { sub with amountUsed := max (wrap64 (sub.amountUsed + delta)) 0 }) } := by
  unfold subscriptionDelta at h
  split at h
  · cases h
  cases hw : postConsumeUserSubscriptionDelta a.store id delta with
  | error =>
    rw [hw] at h
    cases h
  | ok =>
    rw [hw] at h
    cases h
    rcases delta_spec hw with ⟨hzero, -⟩ | ⟨sub, hsub, hfits, rfl⟩
    · exact absurd hzero hdelta
    · exact ⟨sub, hsub, hfits, rfl⟩

theorem sub_charged {sub : UserSubscription} {n : Int} (h : a.store.sub id = some sub) :
    (a.store.write (.saveSub .charge { sub with amountUsed := n })).sub id = some { sub with amountUsed := n } := by
  have hid := id_of_sub h
  subst hid
  exact sub_saveSub_self h

theorem paid_delta (h : Paid start a p (.subscription f)) (hpos : 0 ≤ p) (hdelta : delta ≠ 0)
    (hfits : Fits start (p + delta) (.subscription f))
    (hr : subscriptionDelta a f.subscriptionId delta fails = .ok a') :
    Paid start a' (p + delta) (.subscription f) ∧ a'.token = a.token ∧ a'.wallet = a.wallet ∧
      a'.store.records = a.store.records := by
  obtain ⟨before, after, hbefore, hafter, htotal, hnonneg, hused, -⟩ := h
  obtain ⟨_, hsub, hlimit, rfl⟩ := subscriptionDelta_spec hr hdelta
  rw [hafter] at hsub
  cases hsub
  refine ⟨⟨before, _, hbefore, sub_charged hafter, htotal, hnonneg, ?_, hlimit⟩, rfl, rfl, rfl⟩
  -- The counter has not been cut off so far, so the sum is that of the start.
  have hsum : after.amountUsed + delta = before.amountUsed + (p + delta) := by omega
  obtain ⟨hlow, hhigh⟩ := hfits
  rw [used_eq hbefore] at hlow hhigh
  show max (wrap64 (after.amountUsed + delta)) 0 = _
  rw [hsum, wrap64_eq hlow hhigh]

theorem wallet_paid (h : Paid start a p (.wallet w)) (w' : WalletFunding) (delta : Int) :
    Paid start { a with wallet := a.wallet - delta } (p + delta) (.wallet w') := by
  have hwallet : a.wallet = start.wallet - p := h
  show a.wallet - delta = start.wallet - (p + delta)
  omega

theorem paid_settle (h : Paid start a p funding) (hpos : 0 ≤ p) (hdelta : delta ≠ 0)
    (hfits : Fits start (p + delta) funding) (hr : funding.settle a delta fails = .ok a') :
    Paid start a' (p + delta) funding ∧ a'.token = a.token := by
  cases funding with
  | wallet w =>
    unfold FundingSource.settle at hr
    simp only [hdelta, if_false] at hr
    split at hr
    · rw [checkedQuota_ok hr]
      exact ⟨wallet_paid h w delta, rfl⟩
    · rw [checkedQuota_ok hr, show a.wallet + -delta = a.wallet - delta by omega]
      exact ⟨wallet_paid h w delta, rfl⟩
  | subscription =>
    unfold FundingSource.settle at hr
    simp only [hdelta, if_false] at hr
    obtain ⟨hpaid, htoken, -⟩ := paid_delta h hpos hdelta hfits hr
    exact ⟨hpaid, htoken⟩

theorem Paid.fits_of_le {q r : Int} (h : Paid start a r (.subscription f)) (hq : 0 ≤ q) (hle : q ≤ p)
    (hfits : Fits start p (.subscription f)) : Fits start q (.subscription f) := by
  obtain ⟨_, -, hbefore, -, -, hnonneg, -⟩ := h
  obtain ⟨-, hhigh⟩ := hfits
  rw [used_eq hbefore] at hhigh
  show -2 ^ 63 ≤ used start.store f.subscriptionId + q ∧ used start.store f.subscriptionId + q < 2 ^ 63
  rw [used_eq hbefore]
  omega

section

variable (h : Paid start a p (.subscription f)) (hid : 0 < f.subscriptionId) (hdelta : 0 < delta) (hle : delta ≤ p)
  (hfits : Fits start p (.subscription f))
include h hid hdelta hle hfits

theorem return_succeeds :
    ∃ writes, postConsumeUserSubscriptionDelta a.store f.subscriptionId (-delta) = .ok writes := by
  obtain ⟨_, after, hbefore, hafter, -, hnonneg, hused, hlimit⟩ := h
  obtain ⟨-, hhigh⟩ := hfits
  rw [used_eq hbefore] at hhigh
  unfold postConsumeUserSubscriptionDelta
  rw [if_neg (by omega), if_neg (by omega), hafter]
  have hwrap : wrap64 (after.amountUsed + -delta) = after.amountUsed + -delta := wrap64_eq (by omega) (by omega)
  dsimp only
  rw [hwrap, if_neg]
  · exact ⟨_, rfl⟩
  · rintro ⟨htotal, hover⟩
    omega

theorem paid_return :
    ∃ a', subscriptionDelta a f.subscriptionId (-delta) false = .ok a' ∧ Paid start a' (p - delta) (.subscription f) ∧
      a'.token = a.token ∧ a'.wallet = a.wallet ∧ a'.store.records = a.store.records := by
  obtain ⟨writes, hw⟩ := return_succeeds h hid hdelta hle hfits
  have hr : subscriptionDelta a f.subscriptionId (-delta) false = .ok { a with store := a.store.commit writes } := by
    unfold subscriptionDelta
    rw [hw]
    rfl
  exact ⟨_, hr, paid_delta h (by omega) (by omega) (h.fits_of_le (by omega) (by omega) hfits) hr⟩

end

/-! ## The open session -/

def onToken (info : RelayInfo) (amount : Int) : Int := if info.isPlayground then 0 else amount

/-- The record of a subscription session, and what it reserved since. -/
structure Backed (s : BillingSession) (a : Accounts) (f : SubscriptionFunding) : Prop where
  charged : 0 < f.preConsumed
  extra : 0 ≤ s.extraReserved
  total : f.preConsumed + s.extraReserved = s.preConsumedQuota
  synced : s.relayInfo.subscriptionId = f.subscriptionId
  id_pos : 0 < f.subscriptionId
  named : trimSpace f.requestId ≠ ""
  recorded : a.store.record f.requestId = some ⟨f.requestId, f.userId, f.subscriptionId, f.preConsumed, .consumed⟩

def Returns (s : BillingSession) (a : Accounts) : FundingSource → Prop
  | .wallet w => w.consumed = s.preConsumedQuota
  | .subscription f => Backed s a f

structure Holds (start : Accounts) (s : BillingSession) (a : Accounts) : Prop where
  nonneg : 0 ≤ s.preConsumedQuota
  consumed : s.tokenConsumed = s.preConsumedQuota
  fits : Fits start s.preConsumedQuota s.funding
  paid : Paid start a s.preConsumedQuota s.funding
  returns : Returns s a s.funding
  token : a.token = start.token - onToken s.relayInfo s.preConsumedQuota

def extend (delta : Int) : FundingSource → FundingSource
  | .wallet w => .wallet { w with consumed := w.consumed + delta }
  | .subscription f => .subscription f

theorem walletPreConsume_ok {w' : WalletFunding} (hdelta : 0 < delta) (h : w.preConsume a delta answer = .ok (w', a')) :
    w' = { w with consumed := w.consumed + delta } ∧ a' = { a with wallet := a.wallet - delta } := by
  unfold WalletFunding.preConsume tryReserveUserQuota at h
  rw [if_neg (by omega), if_neg (by omega), if_neg (by omega)] at h
  cases answer with
  | granted =>
    cases h
    exact ⟨rfl, rfl⟩
  | refused | failed => cases h

section

variable (h : Holds start s a) (hdelta : 0 < delta) (hfits : Fits start (s.preConsumedQuota + delta) s.funding)
include h hdelta hfits

theorem reserveFunding_spec {require : Bool} {funding' : FundingSource}
    (hr : s.reserveFunding a delta require answer = .ok (funding', a')) :
    funding' = extend delta s.funding ∧ Paid start a' (s.preConsumedQuota + delta) funding' ∧ a'.token = a.token ∧
      a'.store.records = a.store.records := by
  have hpaid := h.paid
  have hnonneg := h.nonneg
  unfold BillingSession.reserveFunding at hr
  cases hf : s.funding with
  | wallet =>
    rw [hf] at hr hpaid
    dsimp only at hr
    split at hr
    · split at hr
      · split at hr <;> cases hr
      rename_i w' a'' hpre
      cases hr
      obtain ⟨rfl, rfl⟩ := walletPreConsume_ok hdelta hpre
      exact ⟨rfl, wallet_paid hpaid _ delta, rfl, rfl⟩
    · split at hr
      · cases hr
      rename_i hok
      cases hr
      rw [checkedQuota_ok hok]
      exact ⟨rfl, wallet_paid hpaid _ delta, rfl, rfl⟩
  | subscription =>
    rw [hf] at hr hpaid hfits
    dsimp only at hr
    split at hr
    · cases hr
    rename_i hok
    cases hr
    obtain ⟨hp, htoken, -, hrecords⟩ := paid_delta hpaid hnonneg (by omega) hfits hok
    exact ⟨rfl, hp, htoken, hrecords⟩

theorem rollback_spec (hpaid : Paid start a' (s.preConsumedQuota + delta) (extend delta s.funding)) :
    ∃ b, rollbackFundingReserve (extend delta s.funding) a' delta false = (s.funding, b) ∧
      Paid start b s.preConsumedQuota s.funding ∧ b.token = a'.token ∧ b.store.records = a'.store.records := by
  have hnonneg := h.nonneg
  have hreturns := h.returns
  cases hf : s.funding with
  | wallet w =>
    rw [hf] at hpaid
    refine ⟨{ a' with wallet := a'.wallet + delta }, ?_, ?_, rfl, rfl⟩
    · unfold extend rollbackFundingReserve increaseUserQuota
      dsimp only
      rw [checkedQuota_succeeds (by omega)]
      rw [show w.consumed + delta - delta = w.consumed by omega]
    · have hwallet : a'.wallet = start.wallet - (s.preConsumedQuota + delta) := hpaid
      show a'.wallet + delta = start.wallet - s.preConsumedQuota
      omega
  | subscription =>
    rw [hf] at hpaid hfits hreturns
    obtain ⟨b, hr, hb, htoken, -, hrecords⟩ := paid_return hpaid hreturns.id_pos hdelta (by omega) hfits
    rw [show s.preConsumedQuota + delta - delta = s.preConsumedQuota by omega] at hb
    refine ⟨b, ?_, hb, htoken, hrecords⟩
    unfold extend rollbackFundingReserve
    dsimp only
    rw [hr]

end

theorem tryReserveToken_ok {unlimited : Bool} (hquota : 0 < quota)
    (h : tryReserveTokenQuota a quota unlimited answer = .ok (true, a')) :
    a' = { a with token := a.token - quota } := by
  unfold tryReserveTokenQuota at h
  rw [if_neg (by omega), if_neg (by omega)] at h
  split at h
  · cases hr : decreaseTokenQuota a quota (answer = .failed) with
    | error =>
      rw [hr] at h
      cases h
    | ok =>
      rw [hr] at h
      cases h
      exact checkedQuota_ok hr
  · cases answer with
    | granted =>
      cases h
      rfl
    | refused | failed => cases h

theorem preConsumeToken_ok (hquota : 0 < quota) (h : preConsumeTokenQuota info a quota answer = .ok a') :
    a' = { a with token := a.token - onToken info quota } := by
  unfold preConsumeTokenQuota at h
  unfold onToken
  rw [if_neg (by omega)] at h
  split at h
  · rename_i hplay
    cases h
    rw [if_pos hplay, Int.sub_zero]
  rename_i hplay
  rw [if_neg hplay]
  split at h
  · cases h
  · cases h
  · rename_i hr
    cases h
    exact tryReserveToken_ok hquota hr

theorem reserveToken_ok (hdelta : 0 < delta) (h : s.reserveToken a delta answer = .ok a') :
    a' = { a with token := a.token - onToken s.relayInfo delta } := by
  unfold BillingSession.reserveToken at h
  split at h
  · rename_i hplay
    cases h
    unfold onToken
    rw [if_pos (hplay.resolve_left (by omega)), Int.sub_zero]
  · split at h
    · cases h
    · rename_i hr
      cases h
      exact preConsumeToken_ok hdelta hr

theorem onToken_add (info : RelayInfo) (x y : Int) : onToken info (x + y) = onToken info x + onToken info y := by
  unfold onToken
  split <;> rfl

theorem sync_spec (s : BillingSession) :
    ∃ info, s.syncRelayInfo = { s with relayInfo := info } ∧ info.isPlayground = s.relayInfo.isPlayground ∧
      ∀ f, s.funding = .subscription f → info.subscriptionId = f.subscriptionId := by
  unfold BillingSession.syncRelayInfo
  cases hf : s.funding with
  | wallet => exact ⟨_, rfl, rfl, fun f he => by cases he⟩
  | subscription =>
    refine ⟨_, rfl, rfl, ?_⟩
    intro f' he
    cases he
    rfl

theorem onToken_congr {info' : RelayInfo} (h : info'.isPlayground = info.isPlayground) (x : Int) :
    onToken info' x = onToken info x := by
  unfold onToken
  rw [h]

theorem holds_extend {trusted : Bool} (h : Holds start s a) (hdelta : 0 < delta)
    (hfits : Fits start (s.preConsumedQuota + delta) s.funding)
    (hpaid : Paid start a' (s.preConsumedQuota + delta) (extend delta s.funding))
    (htoken : a'.token = a.token - onToken s.relayInfo delta) (hrecords : a'.store.records = a.store.records) :
    Holds start ({ s with
      funding := extend delta s.funding
      preConsumedQuota := s.preConsumedQuota + delta
      tokenConsumed := s.tokenConsumed + delta
      extraReserved := s.extraReserved + delta
      trusted }).syncRelayInfo a' := by
  have hnonneg := h.nonneg
  have hreturns := h.returns
  obtain ⟨info, hsync, hplay, hid⟩ := sync_spec { s with
    funding := extend delta s.funding
    preConsumedQuota := s.preConsumedQuota + delta
    tokenConsumed := s.tokenConsumed + delta
    extraReserved := s.extraReserved + delta
    trusted }
  rw [hsync]
  refine ⟨?_, ?_, ?_, hpaid, ?_, ?_⟩
  · show 0 ≤ s.preConsumedQuota + delta
    omega
  · show s.tokenConsumed + delta = s.preConsumedQuota + delta
    rw [h.consumed]
  · show Fits start (s.preConsumedQuota + delta) (extend delta s.funding)
    cases hf : s.funding with
    | wallet => trivial
    | subscription =>
      rw [hf] at hfits
      exact hfits
  · show Returns _ a' (extend delta s.funding)
    cases hf : s.funding with
    | wallet w =>
      rw [hf] at hreturns
      show w.consumed + delta = s.preConsumedQuota + delta
      rw [show w.consumed = s.preConsumedQuota from hreturns]
    | subscription f =>
      rw [hf] at hreturns
      obtain ⟨hcharged, hextra, htotal, -, hpos, hnamed, hrecord⟩ := hreturns
      refine ⟨hcharged, ?_, ?_, hid f (by rw [hf]; rfl), hpos, hnamed, ?_⟩
      · show 0 ≤ s.extraReserved + delta
        omega
      · show f.preConsumed + (s.extraReserved + delta) = s.preConsumedQuota + delta
        omega
      · unfold Store.record at hrecord ⊢
        rw [hrecords]
        exact hrecord
  · show a'.token = start.token - onToken info (s.preConsumedQuota + delta)
    have hstart := h.token
    rw [onToken_congr hplay, onToken_add]
    show a'.token = start.token - (onToken s.relayInfo s.preConsumedQuota + onToken s.relayInfo delta)
    omega

theorem holds_records (h : Holds start s a) (hpaid : Paid start a' s.preConsumedQuota s.funding)
    (htoken : a'.token = a.token) (hrecords : a'.store.records = a.store.records) : Holds start s a' := by
  refine ⟨h.nonneg, h.consumed, h.fits, hpaid, ?_, by rw [htoken]; exact h.token⟩
  have hreturns := h.returns
  cases hf : s.funding with
  | wallet =>
    rw [hf] at hreturns
    exact hreturns
  | subscription =>
    rw [hf] at hreturns
    refine ⟨hreturns.charged, hreturns.extra, hreturns.total, hreturns.synced, hreturns.id_pos, hreturns.named, ?_⟩
    unfold Store.record
    rw [hrecords]
    exact hreturns.recorded

def SameFlags (s s' : BillingSession) : Prop :=
  s'.settled = s.settled ∧ s'.refunded = s.refunded ∧ s'.fundingSettled = s.fundingSettled

theorem reserve_spec {target : Int} {require : Bool} {answers : Answers} {r : Except ApiError Unit}
    (h : Holds start s a) (hfits : Fits start target s.funding)
    (hr : s.reserve a target require answers = (r, s', a')) : Holds start s' a' ∧ SameFlags s s' ∧
      (∀ e, r = .error e → s' = s ∧ counter a' s.funding = counter a s.funding ∧ a'.token = a.token) := by
  unfold BillingSession.reserve at hr
  dsimp only at hr
  split at hr
  · cases hr
    exact ⟨h, ⟨rfl, rfl, rfl⟩, fun e he => by cases he⟩
  have hdelta : 0 < target - s.preConsumedQuota := by omega
  have hfits' : Fits start (s.preConsumedQuota + (target - s.preConsumedQuota)) s.funding := by
    rw [show s.preConsumedQuota + (target - s.preConsumedQuota) = target by omega]
    exact hfits
  split at hr
  · cases hr
    exact ⟨h, ⟨rfl, rfl, rfl⟩, fun e _ => ⟨rfl, rfl, rfl⟩⟩
  rename_i funding charged hfunding
  obtain ⟨rfl, hpaid, htoken, hrecords⟩ := reserveFunding_spec h hdelta hfits' hfunding
  split at hr
  · -- The token refuses, and the funding source is set back.
    obtain ⟨b, hroll, hb, hbtoken, hbrecords⟩ := rollback_spec h hdelta hfits' hpaid
    rw [hroll] at hr
    cases hr
    refine ⟨holds_records h hb (hbtoken.trans htoken) (hbrecords.trans hrecords), ⟨rfl, rfl, rfl⟩, ?_⟩
    intro e _
    exact ⟨rfl, h.paid.counter_eq hb, hbtoken.trans htoken⟩
  · rename_i b hb
    cases hr
    have hbtoken := reserveToken_ok hdelta hb
    subst hbtoken
    refine ⟨holds_extend h hdelta hfits' (paid_token hpaid _) ?_ hrecords, ?_, fun e he => by cases he⟩
    · show charged.token - onToken s.relayInfo (target - s.preConsumedQuota) = _
      rw [htoken]
    obtain ⟨_, hsync, -⟩ := sync_spec { s with
      funding := extend (target - s.preConsumedQuota) s.funding
      preConsumedQuota := s.preConsumedQuota + (target - s.preConsumedQuota)
      tokenConsumed := s.tokenConsumed + (target - s.preConsumedQuota)
      extraReserved := s.extraReserved + (target - s.preConsumedQuota)
      trusted := s.trusted && !(require || s.relayInfo.imageRequest || 0 < s.relayInfo.imageRequestCount) }
    rw [hsync]
    exact ⟨rfl, rfl, rfl⟩

/-! ## Settlement -/

theorem settleToken_spec (h : settleToken info a delta fails = .ok a') :
    a' = { a with token := a.token - onToken info delta } := by
  unfold settleToken at h
  unfold onToken
  split at h
  · rename_i hplay
    cases h
    rw [if_pos hplay, Int.sub_zero]
  rename_i hplay
  rw [if_neg hplay]
  split at h
  · exact checkedQuota_ok h
  · rw [checkedQuota_ok h, show a.token + -delta = a.token - delta by omega]

def TokenPays (start a : Accounts) (s : BillingSession) (actual : Int) (ok : Bool) : Prop :=
  a.token = start.token - onToken s.relayInfo (if ok then actual else s.preConsumedQuota)

theorem settle_spec {actual : Int} {faults : SettleFaults} {r : Except Error Unit} (h : Holds start s a)
    (hopen : s.settled = false ∧ s.fundingSettled = false) (hfits : Fits start actual s.funding)
    (hr : s.settle a actual faults = (r, s', a')) : s' = s ∧ a' = a ∨
      s'.settled = true ∧ s'.refunded = s.refunded ∧ Paid start a' actual s'.funding ∧
        TokenPays start a' s' actual r.toBool := by
  have hnonneg := h.nonneg
  unfold BillingSession.settle at hr
  rw [hopen.1, hopen.2] at hr
  simp only [Bool.false_eq_true, if_false] at hr
  by_cases hzero : actual - s.preConsumedQuota = 0
  · -- The estimate was exact, and nothing moves.
    rw [if_pos hzero] at hr
    cases hr
    obtain rfl : actual = s.preConsumedQuota := by omega
    exact .inr ⟨rfl, rfl, h.paid, h.token⟩
  · rw [if_neg hzero] at hr
    split at hr
    · cases hr
      exact .inl ⟨rfl, rfl⟩
    rename_i b hb
    have hsum : s.preConsumedQuota + (actual - s.preConsumedQuota) = actual := by omega
    obtain ⟨hpaid, htoken⟩ := paid_settle h.paid hnonneg hzero (hsum.symm ▸ hfits) hb
    rw [hsum] at hpaid
    have hbtoken : b.token = start.token - onToken s.relayInfo s.preConsumedQuota := htoken.trans h.token
    have hplay : (s.notePostDelta (actual - s.preConsumedQuota)).isPlayground = s.relayInfo.isPlayground := by
      unfold BillingSession.notePostDelta
      cases s.funding <;> rfl
    split at hr
    · cases hr
      refine .inr ⟨rfl, rfl, hpaid, ?_⟩
      unfold TokenPays
      rw [onToken_congr hplay]
      exact hbtoken
    · rename_i c hc
      cases hr
      obtain rfl := settleToken_spec hc
      refine .inr ⟨rfl, rfl, paid_token hpaid _, ?_⟩
      have hadd := onToken_add s.relayInfo s.preConsumedQuota (actual - s.preConsumedQuota)
      rw [hsum] at hadd
      unfold TokenPays
      dsimp only
      rw [onToken_congr hplay, onToken_congr hplay, hbtoken]
      show _ = start.token - onToken s.relayInfo actual
      omega

theorem settle_settled (h : s.settled = true) (actual : Int) (faults : SettleFaults) :
    s.settle a actual faults = (.ok (), s, a) := by
  unfold BillingSession.settle
  rw [if_pos h]

theorem reserve_closed (h : s.settled = true ∨ s.refunded = true) (target : Int) (require : Bool) (answers : Answers) :
    s.reserve a target require answers = (.ok (), s, a) := by
  unfold BillingSession.reserve
  rw [if_pos]
  rcases h with h | h
  · exact .inl h
  · exact .inr (.inl h)

theorem beginRefund_closed (h : s.settled = true ∨ s.refunded = true) : s.beginRefund = (s, false) := by
  unfold BillingSession.beginRefund
  rw [if_pos]
  rcases h with h | h
  · exact .inl h
  · exact .inr (.inl h)

/-! ## Refund -/

def rest (s : BillingSession) : FundingSource → Int
  | .wallet _ => 0
  | .subscription _ => s.extraReserved

theorem refundWallet_paid (h : Paid start a p (.wallet w)) (hconsumed : w.consumed = p) (hpos : 0 ≤ p) :
    Paid start (refundFunding (.wallet w) a false) 0 (.wallet w) ∧
      (refundFunding (.wallet w) a false).token = a.token := by
  have hwallet : a.wallet = start.wallet - p := h
  unfold refundFunding FundingSource.refund
  dsimp only
  split
  · refine ⟨?_, rfl⟩
    show a.wallet = start.wallet - 0
    omega
  unfold increaseUserQuota
  rw [checkedQuota_succeeds (by omega)]
  refine ⟨?_, rfl⟩
  show a.wallet + w.consumed = start.wallet - 0
  omega

theorem subscriptionRefund_eq {store : Store} {record : SubscriptionPreConsumeRecord} {requestId : String}
    {writes : List Write} (hnamed : trimSpace requestId ≠ "") (hrecord : store.record requestId = some record)
    (hst : record.status = .consumed) (hpos : 0 < record.preConsumed)
    (hw : postConsumeUserSubscriptionDelta store record.userSubscriptionId (-record.preConsumed) = .ok writes) :
    subscriptionRefund store requestId record.preConsumed (fun _ _ => false) =
      (.ok (), store.commit (writes ++ [.saveRecord { record with status := .refunded }])) := by
  have hattempt : refundSubscriptionPreConsume store requestId (fun _ => false) =
      (.ok (), writes ++ [.saveRecord { record with status := .refunded }]) := by
    unfold refundSubscriptionPreConsume
    rw [if_neg hnamed, if_neg (by simp), hrecord]
    dsimp only
    rw [hst, if_neg (by simp), if_neg (by omega), if_neg (by simp), hw]
    rfl
  unfold subscriptionRefund
  rw [if_neg (by omega)]
  show refundWithRetry _ _ _ [_, _, _] = _
  unfold refundWithRetry
  rw [hattempt]

theorem refundSubscription_paid (h : Paid start a p (.subscription f)) (hback : Backed s a f)
    (hp : s.preConsumedQuota = p) (hfits : Fits start p (.subscription f)) :
    Paid start (refundFunding (.subscription f) a false) s.extraReserved (.subscription f) ∧
      (refundFunding (.subscription f) a false).token = a.token := by
  have htotal := hback.total
  have hextra := hback.extra
  obtain ⟨writes, hw⟩ := return_succeeds h hback.id_pos hback.charged (by omega) hfits
  obtain ⟨b, hr, hb, htoken, -⟩ := paid_return h hback.id_pos hback.charged (by omega) hfits
  have hb' : b = { a with store := a.store.commit writes } := by
    unfold subscriptionDelta at hr
    rw [hw] at hr
    cases hr
    rfl
  have heq : refundFunding (.subscription f) a false = { a with
      store := (a.store.commit writes).write
        (.saveRecord ⟨f.requestId, f.userId, f.subscriptionId, f.preConsumed, .refunded⟩) } := by
    unfold refundFunding FundingSource.refund
    dsimp only
    rw [subscriptionRefund_eq hback.named hback.recorded rfl hback.charged hw, commit_append]
    rfl
  rw [heq]
  subst hb'
  rw [show p - f.preConsumed = s.extraReserved by omega] at hb
  exact ⟨hb, rfl⟩

theorem refundFunding_paid (h : Holds start s a) :
    Paid start (refundFunding s.funding a false) (rest s s.funding) s.funding ∧
      (refundFunding s.funding a false).token = a.token := by
  have hpaid := h.paid
  have hreturns := h.returns
  have hfits := h.fits
  cases hf : s.funding with
  | wallet =>
    rw [hf] at hpaid hreturns
    exact refundWallet_paid hpaid hreturns h.nonneg
  | subscription =>
    rw [hf] at hpaid hreturns hfits
    exact refundSubscription_paid hpaid hreturns rfl hfits

structure Returnable (start : Accounts) (s : BillingSession) : Prop where
  nonneg : 0 ≤ s.preConsumedQuota
  consumed : s.tokenConsumed = s.preConsumedQuota
  fits : Fits start s.preConsumedQuota s.funding
  extra : ∀ f, s.funding = .subscription f → 0 ≤ s.extraReserved ∧ s.extraReserved ≤ s.preConsumedQuota ∧
    s.relayInfo.subscriptionId = f.subscriptionId ∧ 0 < f.subscriptionId

theorem Holds.returnable (h : Holds start s a) : Returnable start s := by
  refine ⟨h.nonneg, h.consumed, h.fits, ?_⟩
  intro f hf
  have hback := h.returns
  rw [hf] at hback
  have htotal := hback.total
  have hcharged := hback.charged
  exact ⟨hback.extra, by omega, hback.synced, hback.id_pos⟩

theorem refundExtra_paid (h : Returnable start s) (hpaid : Paid start a (rest s s.funding) s.funding) :
    Paid start (s.refundTask.refundExtra s.funding a false) 0 s.funding ∧
      (s.refundTask.refundExtra s.funding a false).token = a.token := by
  have hextra := h.extra
  have hfits := h.fits
  unfold RefundTask.refundExtra BillingSession.refundTask
  cases hf : s.funding with
  | wallet =>
    rw [hf] at hpaid
    rw [if_neg (by simp [FundingSource.source])]
    exact ⟨hpaid, rfl⟩
  | subscription f =>
    rw [hf] at hpaid hfits
    obtain ⟨hnonneg, hle, hsynced, hid⟩ := hextra f hf
    by_cases hpos : 0 < s.extraReserved
    · rw [if_pos ⟨hpos, rfl, hsynced.symm ▸ hid⟩, hsynced]
      obtain ⟨b, hr, hb, htoken, -⟩ := paid_return hpaid hid hpos (Int.le_refl _) (hpaid.fits_of_le hnonneg hle hfits)
      rw [hr]
      rw [show rest s (.subscription f) - s.extraReserved = 0 from Int.sub_self _] at hb
      exact ⟨hb, htoken⟩
    · rw [if_neg fun hc => hpos hc.1]
      have hzero : s.extraReserved = 0 := by omega
      rw [show rest s (.subscription f) = 0 from hzero] at hpaid
      exact ⟨hpaid, rfl⟩

theorem refundToken_eq (h : Returnable start s)
    (htoken : a.token = start.token - onToken s.relayInfo s.preConsumedQuota) :
    s.refundTask.refundToken a false = { a with token := start.token } := by
  have hnonneg := h.nonneg
  have hconsumed := h.consumed
  unfold RefundTask.refundToken BillingSession.refundTask
  unfold onToken at htoken
  dsimp only
  cases hplay : s.relayInfo.isPlayground with
  | true =>
    rw [hplay, if_pos rfl] at htoken
    rw [if_neg (by simp), ← show a.token = start.token by omega]
  | false =>
    rw [hplay, if_neg (by simp)] at htoken
    by_cases hpos : 0 < s.tokenConsumed
    · rw [if_pos ⟨hpos, rfl⟩]
      unfold increaseTokenQuota
      rw [checkedQuota_succeeds (by omega)]
      rw [show a.token + s.tokenConsumed = start.token by omega]
    · rw [if_neg fun hc => hpos hc.1, ← show a.token = start.token by omega]

end Steps

end NewApi.Session

