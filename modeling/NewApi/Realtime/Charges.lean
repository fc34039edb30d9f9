import Mathlib.Tactic.Positivity
import NewApi.Code.Realtime
import NewApi.Session

/-!
# The charges of a realtime session

Each response is charged when it is done, and the settlement charges the sum of all responses once more.
-/

namespace NewApi.Realtime

open Code Run Session

/-! ## The system -/

/-- The quota of the log, and whether the settlement had no error. -/
inductive Phase where
  | serving | usageCharged | ended | settled (logged : Int) (ok : Bool)
deriving DecidableEq

/-- A charge that was taken: as it was rounded, and its exact price. -/
structure Charge where
  quota : Int
  price : ℚ
deriving DecidableEq

/-- `refused`: which kind of response ended the reader. -/
structure Tokens where
  next : Nat
  usage : List Nat
  localUsage : List Nat
  sum : List Nat
  paid : List Nat
  refused : Option Bool
deriving DecidableEq

def Tokens.fresh : Tokens := ⟨0, [], [], [], [], none⟩

def Tokens.countLocal (k : Tokens) : Tokens := { k with next := k.next + 1, localUsage := k.localUsage ++ [k.next] }

def Tokens.count (k : Tokens) (reported : Bool) : Tokens :=
  if reported then { k with next := k.next + 1, usage := k.usage ++ [k.next] } else k.countLocal

def Tokens.offer (k : Tokens) (due : List Nat) (pays : Bool) : Tokens :=
  { k with sum := k.sum ++ due, paid := k.paid ++ if pays then due else [] }

def Tokens.clear (k : Tokens) (reported : Bool) : Tokens :=
  if reported then { k with usage := [], localUsage := [] } else { k with localUsage := [] }

structure State where
  realtime : Realtime
  phase : Phase
  charges : List Charge
  tokens : Tokens
deriving DecidableEq

inductive Event where
  | client (text audio : Int)
  | target (text audio : Int)
  | responseDone (reported : Option RealtimeUsage) (text audio : Int) (access : WssAccess)
  | chargeUsage (access : WssAccess)
  | chargeLocal (access : WssAccess)
  | settle (settings : RatioSettings) (fails : SettleFaults)

section System

variable (env : RealtimeInfo)

def preWssPrice (usage : RealtimeUsage) (access : WssAccess) : ℚ :=
  audioPrice access.ratios (preWssQuotaInfo env access.ratios usage)

def charge (info : RelayInfo) (a : Accounts) (usage : RealtimeUsage) (access : WssAccess) : Option Charge :=
  let price := preWssPrice env usage access
  let quota := quotaFromDecimal price
  if env.usePrice then none
  else
    match preWssChecks access quota, postConsumeFunding info a quota access.fails.funding with
    | .ok (), .ok _ => some ⟨quota, price⟩
    | _, _ => none

def piece (s : State) : Event → Option (RealtimeUsage × WssAccess)
  | .responseDone reported text audio access =>
    some ((s.realtime.handler.count text audio reported).due reported, access)
  | .chargeUsage access =>
    if s.realtime.handler.usage.totalTokens ≠ 0 then some (s.realtime.handler.usage, access) else none
  | .chargeLocal access =>
    if s.realtime.handler.localUsage.totalTokens ≠ 0 then some (s.realtime.handler.localUsage, access) else none
  | _ => none

def charged (s : State) (e : Event) : List Charge :=
  match piece s e with
  | none => []
  | some (usage, access) => (charge env s.realtime.billing.relayInfo s.realtime.accounts usage access).toList

def pays (s : State) (e : Event) : Bool := (charged env s e).any fun c => c.price ≠ 0

def Tokens.respond (k : Tokens) (reported pays stopped : Bool) : Tokens :=
  let k := k.count reported
  let k := k.offer (if reported then k.usage else k.localUsage) pays
  if stopped then { k with refused := some reported } else k.clear reported

def track (s : State) (e : Event) : Tokens :=
  match e with
  | .client _ _ | .target _ _ => s.tokens.countLocal
  | .responseDone reported text audio access =>
    s.tokens.respond reported.isSome (pays env s e)
      (responseDone env s.realtime reported text audio access).handler.stopped
  | .chargeUsage _ =>
    if s.realtime.handler.usage.totalTokens ≠ 0 then s.tokens.offer s.tokens.usage (pays env s e) else s.tokens
  | .chargeLocal _ =>
    if s.realtime.handler.localUsage.totalTokens ≠ 0 then s.tokens.offer s.tokens.localUsage (pays env s e)
    else s.tokens
  | .settle _ _ => s.tokens

def settled (settings : RatioSettings) (fails : SettleFaults) (s : State) : State :=
  let quota := postWssQuota env settings s.realtime.handler.sumUsage
  let (answer, billing, accounts) := settleBilling s.realtime.billing s.realtime.accounts quota fails
  { s with realtime := { s.realtime with billing, accounts }, phase := .settled quota answer.toBool }

def step (s : State) (e : Event) : Option State :=
  let r := s.realtime
  let charges := s.charges ++ charged env s e
  let tokens := track env s e
  match e with
  | .client text audio =>
    if s.phase = .serving then
      let handler := { r.handler with localUsage := r.handler.localUsage.addInput text audio }
      some { s with realtime := { r with handler }, tokens }
    else none
  | .target text audio =>
    if s.phase = .serving ∧ r.handler.stopped = false then
      let handler := { r.handler with localUsage := r.handler.localUsage.addOutput text audio }
      some { s with realtime := { r with handler }, tokens }
    else none
  | .responseDone reported text audio access =>
    if s.phase = .serving ∧ r.handler.stopped = false then
      some { s with realtime := responseDone env r reported text audio access, charges, tokens }
    else none
  | .chargeUsage access =>
    if s.phase = .serving then
      some { realtime := chargeRest env r r.handler.usage access, phase := .usageCharged, charges, tokens }
    else none
  | .chargeLocal access =>
    if s.phase = .usageCharged then
      some { realtime := chargeRest env r r.handler.localUsage access, phase := .ended, charges, tokens }
    else none
  | .settle settings fails => if s.phase = .ended then some (settled env settings fails s) else none

/-- The ratio is zero at this moment, or the charge is refused. -/
def Unpaid (info : RelayInfo) (a : Accounts) (usage : RealtimeUsage) (access : WssAccess) : Prop :=
  actualGroupRatio env access.ratios * access.ratios.modelRatio env.originModelName = 0 ∨
    charge env info a usage access = none

def Uncharged (s : State) (e : Event) : Prop :=
  ∀ p ∈ piece s e, Unpaid env s.realtime.billing.relayInfo s.realtime.accounts p.1 p.2

def Renewed (s : State) : Event → Prop
  | .chargeUsage _ => s.tokens.refused = some true → s.realtime.handler.usage.totalTokens = 0
  | .chargeLocal _ => s.tokens.refused = some false → s.realtime.handler.localUsage.totalTokens = 0
  | _ => True

def Clean (s : State) (e : Event) : Prop := Uncharged env s e ∧ Renewed s e

def RatioPriced : Prop := env.usePrice = false ∧ env.priceData.usePrice = false ∧ env.tieredQuota = none

end System

def funding : Billing → FundingSource
  | .session s => s.funding
  | .none info => .wallet ⟨info.userId, 0⟩

def reserved : Billing → Int
  | .session s => s.preConsumedQuota
  | .none _ => 0

def total (charges : List Charge) : Int := (charges.map Charge.quota).sum

/-- The part of the charges that is due to their rounding. -/
def rounding (s : State) : ℚ := (s.charges.map fun c => (c.quota : ℚ) - c.price).sum

def taken (start : Accounts) (s : State) : Int :=
  match funding s.realtime.billing with
  | .wallet _ => start.wallet - s.realtime.accounts.wallet
  | .subscription f => used s.realtime.accounts.store f.subscriptionId - used start.store f.subscriptionId

def InRange (env : RealtimeInfo) (start : Accounts) (s : State) : Event → Prop
  | .settle settings _ => Fits start (postWssQuota env settings s.realtime.handler.sumUsage + total s.charges)
      (funding s.realtime.billing)
  | e => Fits start (reserved s.realtime.billing + total (s.charges ++ charged env s e)) (funding s.realtime.billing)

/-! ## Prices -/

section Prices

variable {env : RealtimeInfo}

theorem quotaFromDecimal_nonneg {d : ℚ} (h : 0 ≤ d) : 0 ≤ quotaFromDecimal d := by
  have hfloor : 0 ≤ ⌊d + 1 / 2⌋ := Int.floor_nonneg.mpr (by positivity)
  simp only [quotaFromDecimal, if_pos h]
  omega

section

variable {info : QuotaInfo} (hprice : info.usePrice = false)
include hprice

theorem audioPrice_pos {settings : RatioSettings} (hratio : info.groupRatio * info.modelRatio ≠ 0)
    : 0 < audioPrice settings info := by
  simp only [audioPrice, hprice, Bool.false_eq_true, if_false]
  split
  · exact one_pos
  · rename_i h
    simpa [hratio] using h

theorem audioPrice_zero {settings : RatioSettings} (hratio : info.groupRatio * info.modelRatio = 0)
    : audioPrice settings info = 0 := by
  simp [audioPrice, hprice, hratio]

theorem audioPrice_nonneg {settings : RatioSettings} : 0 ≤ audioPrice settings info := by
  by_cases hratio : info.groupRatio * info.modelRatio = 0
  · exact (audioPrice_zero hprice hratio).ge
  · exact (audioPrice_pos hprice hratio).le

end

theorem preWssPrice_nonneg (henv : env.usePrice = false) (usage : RealtimeUsage) (access : WssAccess) :
    0 ≤ preWssPrice env usage access := audioPrice_nonneg henv

theorem preWssPrice_eq_zero (henv : env.usePrice = false) (usage : RealtimeUsage) (access : WssAccess) :
    preWssPrice env usage access = 0 ↔
      actualGroupRatio env access.ratios * access.ratios.modelRatio env.originModelName = 0 := by
  constructor
  · intro hzero
    by_contra hratio
    have hpos : 0 < preWssPrice env usage access := audioPrice_pos henv hratio
    exact hpos.ne' hzero
  · intro hratio
    exact audioPrice_zero henv hratio

theorem postWssQuota_nonneg (henv : RatioPriced env) (settings : RatioSettings) (usage : RealtimeUsage) :
    0 ≤ postWssQuota env settings usage := by
  unfold postWssQuota
  split
  · exact le_rfl
  · rw [henv.2.2]
    exact quotaFromDecimal_nonneg (audioPrice_nonneg henv.2.1)

end Prices

/-! ## Charges -/

def Synced (info : RelayInfo) : FundingSource → Prop
  | .wallet _ => info.billingSource ≠ some .subscription
  | .subscription f => info.billingSource = some .subscription ∧ info.subscriptionId = f.subscriptionId

def SameSource (info info' : RelayInfo) : Prop :=
  info'.billingSource = info.billingSource ∧ info'.subscriptionId = info.subscriptionId ∧
    info'.finalPreConsumedQuota = info.finalPreConsumedQuota

section Charges

variable {env : RealtimeInfo} {start a a' : Accounts} {info info' : RelayInfo} {source : FundingSource} {p quota : Int}
  {usage : RealtimeUsage} {access : WssAccess} {answer : Except Error Unit}

theorem SameSource.rfl : SameSource info info := ⟨Eq.refl _, Eq.refl _, Eq.refl _⟩

theorem Synced.of_same (h : Synced info source) (hsame : SameSource info info') : Synced info' source := by
  obtain ⟨hsource, hid, -⟩ := hsame
  cases source with
  | wallet =>
    show info'.billingSource ≠ _
    rw [hsource]
    exact h
  | subscription => exact ⟨hsource.trans h.1, hid.trans h.2⟩

section

variable (hsync : Synced info source) (h : Paid start a p source) (hp : 0 ≤ p) (hfits : Fits start (p + quota) source)
include hsync h hp hfits

theorem postConsumeFunding_paid {fails : Bool} (hr : postConsumeFunding info a quota fails = .ok (info', a')) :
    Paid start a' (p + quota) source ∧ SameSource info info' := by
  unfold postConsumeFunding at hr
  cases source with
  | wallet w =>
    rw [if_neg hsync] at hr
    split at hr <;> obtain ⟨b, hb, heq⟩ := ok_of_map hr <;> obtain ⟨rfl, rfl⟩ := Prod.mk.inj heq
    · rw [checkedQuota_ok hb]
      exact ⟨wallet_paid h w quota, .rfl⟩
    · rw [checkedQuota_ok hb, show a.wallet + -quota = a.wallet - quota by omega]
      exact ⟨wallet_paid h w quota, .rfl⟩
  | subscription =>
    rw [if_pos hsync.1] at hr
    split at hr
    · cases hr
    split at hr
    · rename_i hzero
      obtain ⟨rfl, rfl⟩ := Prod.mk.inj (Except.ok.inj hr)
      rw [hzero, Int.add_zero]
      exact ⟨h, .rfl⟩
    · rename_i hzero
      obtain ⟨b, hb, heq⟩ := ok_of_map hr
      obtain ⟨rfl, rfl⟩ := Prod.mk.inj heq
      rw [hsync.2] at hb
      exact ⟨(paid_delta h hp hzero hfits hb).1, ⟨rfl, rfl, rfl⟩⟩

theorem postConsumeQuota_paid {fails : SettleFaults} {after : RelayInfo × Accounts}
    (hfunding : postConsumeFunding info a quota fails.funding = .ok after)
    (hr : postConsumeQuota info a quota fails = (answer, info', a')) :
    Paid start a' (p + quota) source ∧ SameSource info info' := by
  obtain ⟨hpaid, hsame⟩ := postConsumeFunding_paid hsync h hp hfits hfunding
  unfold postConsumeQuota at hr
  rw [hfunding] at hr
  dsimp only at hr
  split at hr
  · obtain ⟨-, rfl, rfl⟩ := hr
    exact ⟨hpaid, hsame⟩
  rename_i c hc
  obtain ⟨-, rfl, rfl⟩ := hr
  rw [settleToken_spec hc]
  exact ⟨paid_token hpaid _, hsame⟩

end

theorem preWss_paid (henv : env.usePrice = false) (hsync : Synced info source) (h : Paid start a p source) (hp : 0 ≤ p)
    (hfits : Fits start (p + total (charge env info a usage access).toList) source)
    (hr : preWssConsumeQuota env info a usage access = (answer, info', a')) :
    Paid start a' (p + total (charge env info a usage access).toList) source ∧ SameSource info info' := by
  have hquota : calculateAudioQuota access.ratios (preWssQuotaInfo env access.ratios usage) =
      quotaFromDecimal (preWssPrice env usage access) := rfl
  unfold preWssConsumeQuota at hr
  unfold charge at hfits ⊢
  simp only [henv, hquota, Bool.false_eq_true, if_false] at hr hfits ⊢
  cases hchecks : preWssChecks access (quotaFromDecimal (preWssPrice env usage access)) with
  | error =>
    rw [hchecks] at hr
    obtain ⟨-, rfl, rfl⟩ := hr
    simpa [total] using And.intro h SameSource.rfl
  | ok =>
    cases hfunding : postConsumeFunding info a (quotaFromDecimal (preWssPrice env usage access))
        access.fails.funding with
    | error =>
      simp only [hchecks, postConsumeQuota, hfunding] at hr
      obtain ⟨-, rfl, rfl⟩ := hr
      simpa [total] using And.intro h SameSource.rfl
    | ok =>
      simp only [hchecks, hfunding, total, Option.toList_some, List.map_cons, List.map_nil, List.sum_singleton]
        at hr hfits ⊢
      exact postConsumeQuota_paid hsync h hp hfits hfunding hr

theorem mem_charge {c : Charge} (henv : env.usePrice = false) (h : c ∈ charge env info a usage access) :
    c.price = preWssPrice env usage access ∧ 0 ≤ c.price ∧ 0 ≤ c.quota := by
  have hprice := preWssPrice_nonneg henv usage access
  unfold charge at h
  simp only [henv, Bool.false_eq_true, if_false] at h
  split at h
  · obtain rfl := Option.mem_some_iff.mp h
    exact ⟨rfl, hprice, quotaFromDecimal_nonneg hprice⟩
  · cases h

theorem unpaid_iff (henv : env.usePrice = false) :
    Unpaid env info a usage access ↔ ∀ c ∈ charge env info a usage access, c.price = 0 := by
  unfold Unpaid
  rw [← preWssPrice_eq_zero henv usage access]
  constructor
  · rintro (hzero | hnone) c hc
    · exact (mem_charge henv hc).1.trans hzero
    · rw [hnone] at hc
      cases hc
  · intro h
    cases hc : charge env info a usage access with
    | none => exact .inr rfl
    | some c => exact .inl ((mem_charge henv hc).1.symm.trans (h c hc))

end Charges

/-! ## The open session -/

def Live : Billing → Prop
  | .session s => s.settled = false ∧ s.fundingSettled = false
  | .none info => info.finalPreConsumedQuota = 0

/-- The reservation and the charges are what the funding source has paid. -/
structure Good (start : Accounts) (billing : Billing) (a : Accounts) (charges : List Charge) : Prop where
  live : Live billing
  synced : Synced billing.relayInfo (funding billing)
  nonneg : 0 ≤ reserved billing
  prices : ∀ c ∈ charges, 0 ≤ c.price ∧ 0 ≤ c.quota
  paid : Paid start a (reserved billing + total charges) (funding billing)

section Open

variable {env : RealtimeInfo} {start a a' : Accounts} {billing billing' : Billing} {charges : List Charge} {quota : Int}
  {usage : RealtimeUsage} {access : WssAccess} {r : Realtime} {answer : Except Error Unit} {fails : SettleFaults}

theorem total_append (xs ys : List Charge) : total (xs ++ ys) = total xs + total ys := by
  simp [total]

theorem total_nonneg (h : ∀ c ∈ charges, 0 ≤ c.price ∧ 0 ≤ c.quota) : 0 ≤ total charges := by
  refine List.sum_nonneg fun x hx => ?_
  obtain ⟨c, hc, rfl⟩ := List.mem_map.mp hx
  exact (h c hc).2

theorem funding_withInfo (info : RelayInfo) (h : Synced info (funding billing)) :
    Paid start a quota (funding billing) → Paid start a quota (funding (billing.withInfo info)) ∧
      Synced (billing.withInfo info).relayInfo (funding (billing.withInfo info)) := by
  cases billing with
  | session | none => exact fun hpaid => ⟨hpaid, h⟩

theorem live_withInfo {info : RelayInfo} (h : Live billing) (hsame : SameSource billing.relayInfo info) :
    Live (billing.withInfo info) := by
  cases billing with
  | session => exact h
  | none => exact hsame.2.2.trans h

theorem reserved_withInfo (info : RelayInfo) : reserved (billing.withInfo info) = reserved billing := by
  cases billing <;> rfl

theorem Good.preConsumeUsage (henv : env.usePrice = false) (h : Good start r.billing r.accounts charges)
    (hfits : Fits start (reserved r.billing + total (charges ++
      (charge env r.billing.relayInfo r.accounts usage access).toList)) (funding r.billing)) :
    Good start (preConsumeUsage env r usage access).2.billing (preConsumeUsage env r usage access).2.accounts
      (charges ++ (charge env r.billing.relayInfo r.accounts usage access).toList) := by
  have hnonneg := total_nonneg h.prices
  have hreserved := h.nonneg
  unfold Code.preConsumeUsage
  rcases hr : preWssConsumeQuota env r.billing.relayInfo r.accounts usage access with ⟨_, info', _⟩
  rw [total_append, ← Int.add_assoc] at hfits
  obtain ⟨hpaid, hsame⟩ := preWss_paid henv h.synced h.paid (by omega) hfits hr
  obtain ⟨hpaid', hsynced⟩ := funding_withInfo info' (h.synced.of_same hsame) hpaid
  refine ⟨live_withInfo h.live hsame, hsynced, ?_, ?_, ?_⟩
  · rw [reserved_withInfo]
    exact h.nonneg
  · intro c hc
    rcases List.mem_append.mp hc with hc | hc
    · exact h.prices c hc
    · exact (mem_charge henv (Option.mem_toList.mp hc)).2
  · rw [reserved_withInfo, total_append, ← Int.add_assoc]
    exact hpaid'

theorem session_settle_paid {s s' : BillingSession} {p : Int} (hflags : s.settled = false ∧ s.fundingSettled = false)
    (hp : 0 ≤ p) (h : Paid start a p s.funding) (hfits : Fits start (p + (quota - s.preConsumedQuota)) s.funding)
    (hr : s.settle a quota fails = (.ok (), s', a')) :
    s'.funding = s.funding ∧ Paid start a' (p + (quota - s.preConsumedQuota)) s.funding := by
  unfold BillingSession.settle at hr
  rw [hflags.1, hflags.2] at hr
  simp only [Bool.false_eq_true, if_false] at hr
  by_cases hzero : quota - s.preConsumedQuota = 0
  · rw [if_pos hzero] at hr
    cases hr
    rw [hzero, Int.add_zero]
    exact ⟨rfl, h⟩
  · rw [if_neg hzero] at hr
    split at hr
    · cases hr
    rename_i b hb
    split at hr
    · cases hr
    rename_i c hc
    cases hr
    rw [settleToken_spec hc]
    exact ⟨rfl, paid_token (paid_settle h hp hzero hfits hb).1 _⟩

theorem Good.settle (h : Good start billing a charges) (hfits : Fits start (quota + total charges) (funding billing))
    (hr : settleBilling billing a quota fails = (answer, billing', a')) (hok : answer.toBool = true) :
    Paid start a' (quota + total charges) (funding billing') := by
  have hnonneg := total_nonneg h.prices
  have hreserved := h.nonneg
  have hpaid := h.paid
  obtain ⟨⟩ | ⟨⟨⟩⟩ := answer
  · cases hok
  cases billing with
  | session s =>
    have hsum : s.preConsumedQuota + total charges + (quota - s.preConsumedQuota) = quota + total charges := by omega
    rcases hs : s.settle a quota fails with ⟨r, s', b⟩
    simp only [settleBilling, hs] at hr
    obtain ⟨rfl, rfl, rfl⟩ := hr
    obtain ⟨hfunding, hpaid'⟩ := session_settle_paid h.live (Int.add_nonneg hreserved hnonneg) hpaid (hsum ▸ hfits) hs
    show Paid start _ _ s'.funding
    rw [hfunding, ← hsum]
    exact hpaid'
  | none info =>
    have hlive : info.finalPreConsumedQuota = 0 := h.live
    have hpaid : Paid start a (total charges) (.wallet ⟨info.userId, 0⟩) := by
      simpa [reserved, funding] using hpaid
    simp only [settleBilling, hlive, Int.sub_zero] at hr
    rw [Int.add_comm] at hfits ⊢
    split at hr
    · rename_i hzero
      obtain ⟨-, rfl, rfl⟩ := hr
      rw [hzero, Int.add_zero]
      exact hpaid
    · rcases hpost : postConsumeQuota info a quota fails with ⟨r, _, b⟩
      rw [hpost] at hr
      obtain ⟨rfl, rfl, rfl⟩ := hr
      cases hfunding : postConsumeFunding info a quota fails.funding with
      | error => simp [postConsumeQuota, hfunding] at hpost
      | ok => exact (postConsumeQuota_paid h.synced hpaid hnonneg hfits hfunding hpost).1

end Open

/-! ## Runs -/

inductive Stage (start : Accounts) (s : State) : Prop
  | running (hphase : ∀ logged ok, s.phase ≠ .settled logged ok)
      (h : Good start s.realtime.billing s.realtime.accounts s.charges) : Stage start s
  | closed {logged : Int} {ok : Bool} (hphase : s.phase = .settled logged ok) (hlogged : 0 ≤ logged)
      (hprices : ∀ c ∈ s.charges, 0 ≤ c.price ∧ 0 ≤ c.quota)
      (hpaid : ok = true → Paid start s.realtime.accounts (logged + total s.charges) (funding s.realtime.billing)) :
      Stage start s

section Runs

variable {env : RealtimeInfo} {start : Accounts} {s t : State} {es : List Event}

theorem responseDone_eq (env : RealtimeInfo) (r : Code.Realtime) (reported : Option RealtimeUsage)
    (text audio : Int) (access : WssAccess) :
    let handler := r.handler.count text audio reported
    let after := (preConsumeUsage env { r with handler } (handler.due reported) access).2
    (responseDone env r reported text audio access).billing = after.billing ∧
      (responseDone env r reported text audio access).accounts = after.accounts := by
  unfold responseDone
  dsimp only
  split
  · rename_i r' hr
    rw [hr]
    exact ⟨rfl, rfl⟩
  · rename_i r' hr
    rw [hr]
    exact ⟨rfl, rfl⟩

theorem Good.chargeRest {r : Code.Realtime} {charges : List Charge} {usage : RealtimeUsage} {access : WssAccess}
    {more : List Charge} (henv : env.usePrice = false) (h : Good start r.billing r.accounts charges)
    (hmore : more =
      if usage.totalTokens ≠ 0 then (charge env r.billing.relayInfo r.accounts usage access).toList else [])
    (hfits : Fits start (reserved r.billing + total (charges ++ more)) (funding r.billing)) :
    Good start (chargeRest env r usage access).billing (chargeRest env r usage access).accounts (charges ++ more) := by
  unfold Code.chargeRest
  split at hmore
  · rename_i htokens
    subst hmore
    rw [if_pos htokens]
    exact h.preConsumeUsage henv hfits
  · rename_i htokens
    subst hmore
    rw [if_neg htokens, List.append_nil]
    exact h

theorem step_stage (henv : RatioPriced env) (e : Event) (hok : InRange env start s e) (hs : Stage start s)
    (hstep : step env s e = some t) : Stage start t := by
  obtain ⟨hphase, h⟩ | ⟨hphase, -, -, -⟩ := hs
  case closed => cases e <;> simp [step, hphase] at hstep
  cases e with
  | client | target =>
    obtain ⟨-, rfl⟩ := Option.ite_some_none_eq_some.mp hstep
    exact .running hphase h
  | responseDone reported text audio access =>
    obtain ⟨-, rfl⟩ := Option.ite_some_none_eq_some.mp hstep
    refine .running hphase ?_
    obtain ⟨hbilling, haccounts⟩ := responseDone_eq env s.realtime reported text audio access
    rw [hbilling, haccounts]
    exact h.preConsumeUsage henv.1 hok
  | chargeUsage =>
    obtain ⟨-, rfl⟩ := Option.ite_some_none_eq_some.mp hstep
    refine .running (by simp) (h.chargeRest henv.1 ?_ hok)
    by_cases htokens : s.realtime.handler.usage.totalTokens = 0 <;> simp [charged, piece, htokens]
  | chargeLocal =>
    obtain ⟨-, rfl⟩ := Option.ite_some_none_eq_some.mp hstep
    refine .running (by simp) (h.chargeRest henv.1 ?_ hok)
    by_cases htokens : s.realtime.handler.localUsage.totalTokens = 0 <;> simp [charged, piece, htokens]
  | settle settings =>
    obtain ⟨-, rfl⟩ := Option.ite_some_none_eq_some.mp hstep
    refine .closed rfl (postWssQuota_nonneg henv settings _) h.prices ?_
    intro hanswer
    exact h.settle hok rfl hanswer

theorem charges_step {e : Event} (hstep : step env s e = some t) : t.charges = s.charges ++ charged env s e := by
  cases e <;> simp only [step] at hstep <;> split at hstep <;> cases hstep
  case client => exact (List.append_nil _).symm
  case target => exact (List.append_nil _).symm
  case settle => exact (List.append_nil _).symm
  all_goals rfl

theorem uncharged_iff (henv : env.usePrice = false) (e : Event) :
    Uncharged env s e ↔ ∀ c ∈ charged env s e, c.price = 0 := by
  unfold Uncharged charged
  cases piece s e with
  | none => simp
  | some =>
    simp only [Option.mem_some_iff, forall_eq', Option.mem_toList]
    exact unpaid_iff henv

theorem mem_charges_run {ok : State → Event → Prop} (hrun : Steps (step env) ok s es t) {c : Charge}
    (hc : c ∈ s.charges) : c ∈ t.charges := by
  have hkeep : ∀ s e t, ok s e → c ∈ s.charges → step env s e = some t → c ∈ t.charges := by
    intro s e t _ hmem hstep
    rw [charges_step hstep]
    exact List.mem_append_left _ hmem
  exact hrun.invariant hkeep hc

end Runs

end NewApi.Realtime

