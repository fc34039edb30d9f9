import Mathlib.Data.Rat.Floor
import NewApi.Code.Session

/-!
# Realtime sessions

`OpenaiRealtimeHandler` of `relay/channel/openai/relay_realtime.go` and the charges of `service/quota.go`. A message is what
the handler counts in it; balances, ratios and failures are inputs.
-/

namespace NewApi.Code

/-! ## Usage -/

structure RealtimeUsage where
  totalTokens : Int
  inputTokens : Int
  outputTokens : Int
  inputCached : Int
  inputText : Int
  inputAudio : Int
  outputText : Int
  outputAudio : Int
deriving DecidableEq

def RealtimeUsage.zero : RealtimeUsage := ⟨0, 0, 0, 0, 0, 0, 0, 0⟩

def RealtimeUsage.add (u v : RealtimeUsage) : RealtimeUsage where
  totalTokens := u.totalTokens + v.totalTokens
  inputTokens := u.inputTokens + v.inputTokens
  outputTokens := u.outputTokens + v.outputTokens
  inputCached := u.inputCached + v.inputCached
  inputText := u.inputText + v.inputText
  inputAudio := u.inputAudio + v.inputAudio
  outputText := u.outputText + v.outputText
  outputAudio := u.outputAudio + v.outputAudio

def RealtimeUsage.addInput (u : RealtimeUsage) (text audio : Int) : RealtimeUsage :=
  { u with
    totalTokens := u.totalTokens + (text + audio)
    inputTokens := u.inputTokens + (text + audio)
    inputText := u.inputText + text
    inputAudio := u.inputAudio + audio }

def RealtimeUsage.addOutput (u : RealtimeUsage) (text audio : Int) : RealtimeUsage :=
  { u with
    totalTokens := u.totalTokens + (text + audio)
    outputTokens := u.outputTokens + (text + audio)
    outputText := u.outputText + text
    outputAudio := u.outputAudio + audio }

/-! ## Prices -/

structure RatioSettings where
  quotaPerUnit : ℚ
  modelRatio : String → ℚ
  completionRatio : String → ℚ
  audioRatio : String → ℚ
  audioCompletionRatio : String → ℚ
  groupRatio : String → ℚ
  groupGroupRatio : String → String → Option ℚ

structure QuotaInfo where
  usage : RealtimeUsage
  modelName : String
  usePrice : Bool
  modelPrice : ℚ
  modelRatio : ℚ
  groupRatio : ℚ

/-- Half away from zero, cut off at `int32`. -/
def quotaFromDecimal (d : ℚ) : Int :=
  let rounded := if 0 ≤ d then ⌊d + 1 / 2⌋ else -⌊-d + 1 / 2⌋
  max (-2 ^ 31) (min (2 ^ 31 - 1) rounded)

def audioPrice (settings : RatioSettings) (info : QuotaInfo) : ℚ :=
  if info.usePrice then info.modelPrice * settings.quotaPerUnit * info.groupRatio
  else
    let completionRatio := settings.completionRatio info.modelName
    let audioRatio := settings.audioRatio info.modelName
    let audioCompletionRatio := settings.audioCompletionRatio info.modelName
    let ratio := info.groupRatio * info.modelRatio
    let quota := (info.usage.inputText + info.usage.outputText * completionRatio +
      info.usage.inputAudio * audioRatio + info.usage.outputAudio * audioRatio * audioCompletionRatio) * ratio
    if ratio ≠ 0 ∧ quota ≤ 0 then 1 else quota

def calculateAudioQuota (settings : RatioSettings) (info : QuotaInfo) : Int :=
  quotaFromDecimal (audioPrice settings info)

/-! ## Charges -/

structure PriceData where
  modelPrice : ℚ
  modelRatio : ℚ
  groupRatio : ℚ
  usePrice : Bool

/-- `tieredQuota` is what `TryTieredSettle` answers. -/
structure RealtimeInfo where
  originModelName : String
  upstreamModelName : String
  usingGroup : String
  userGroup : String
  autoGroup : Option String
  usePrice : Bool
  priceData : PriceData
  tieredQuota : Option Int

/-- The step of `postConsumeQuotaWithResult` on the funding source. -/
def postConsumeFunding (info : RelayInfo) (a : Accounts) (quota : Int) (fails : Bool) :
    Except Error (RelayInfo × Accounts) :=
  if info.billingSource = some .subscription then
    if info.subscriptionId = 0 then .error (.text "subscription id is missing")
    else if quota = 0 then .ok (info, a)
    else (subscriptionDelta a info.subscriptionId quota fails).map fun a =>
      ({ info with subscriptionPostDelta := info.subscriptionPostDelta + quota }, a)
  else if 0 < quota then (decreaseUserQuota a quota fails).map fun a => (info, a)
  else (increaseUserQuota a (-quota) fails).map fun a => (info, a)

/-- A token step that fails does not undo the funding step. -/
def postConsumeQuota (info : RelayInfo) (a : Accounts) (quota : Int) (fails : SettleFaults) :
    Except Error Unit × RelayInfo × Accounts :=
  match postConsumeFunding info a quota fails.funding with
  | .error e => (.error e, info, a)
  | .ok (info, a) =>
    match settleToken info a quota fails.token with
    | .error e => (.error e, info, a)
    | .ok a => (.ok (), info, a)

structure TokenRead where
  unlimitedQuota : Bool
  remainQuota : Int
deriving DecidableEq

/-- What one `PreWssConsumeQuota` meets. A read that fails is `none`. -/
structure WssAccess where
  userQuota : Option Int
  token : Option TokenRead
  ratios : RatioSettings
  fails : SettleFaults

def actualGroupRatio (info : RealtimeInfo) (ratios : RatioSettings) : ℚ :=
  let usingGroup := info.autoGroup.getD info.usingGroup
  (ratios.groupGroupRatio info.userGroup usingGroup).getD (ratios.groupRatio usingGroup)

def preWssQuotaInfo (info : RealtimeInfo) (ratios : RatioSettings) (usage : RealtimeUsage) : QuotaInfo where
  usage
  modelName := info.originModelName
  usePrice := info.usePrice
  modelPrice := 0
  modelRatio := ratios.modelRatio info.originModelName
  groupRatio := actualGroupRatio info ratios

def preWssChecks (access : WssAccess) (quota : Int) : Except Error Unit :=
  match access.userQuota, access.token with
  | none, _ => .error .database
  | some _, none => .error .database
  | some userQuota, some token =>
    if userQuota < quota then .error (.text "user quota is not enough, user quota: %s, need quota: %s")
    else if token.unlimitedQuota = false ∧ token.remainQuota < quota then
      .error (.text "token quota is not enough, token remain quota: %s, need quota: %s")
    else .ok ()

variable (env : RealtimeInfo)

def preWssConsumeQuota (info : RelayInfo) (a : Accounts) (usage : RealtimeUsage) (access : WssAccess)
    : Except Error Unit × RelayInfo × Accounts :=
  if env.usePrice then (.ok (), info, a)
  else
    let quota := calculateAudioQuota access.ratios (preWssQuotaInfo env access.ratios usage)
    match preWssChecks access quota with
    | .error e => (.error e, info, a)
    | .ok () => postConsumeQuota info a quota access.fails

/-! ## The settlement -/

/-- `relayInfo.Billing`, or the `RelayInfo` of a request without one. -/
inductive Billing where
  | session (s : BillingSession)
  | none (info : RelayInfo)
deriving DecidableEq

def Billing.relayInfo : Billing → RelayInfo
  | .session s => s.relayInfo
  | .none info => info

def Billing.withInfo (info : RelayInfo) : Billing → Billing
  | .session s => .session { s with relayInfo := info }
  | .none _ => .none info

def settleBilling (billing : Billing) (a : Accounts) (actualQuota : Int) (fails : SettleFaults) :
    Except Error Unit × Billing × Accounts :=
  match billing with
  | .session s =>
    let (r, s, a) := s.settle a actualQuota fails
    (r, .session s, a)
  | .none info =>
    let quotaDelta := actualQuota - info.finalPreConsumedQuota
    if quotaDelta = 0 then (.ok (), .none info, a)
    else
      let (r, info, a) := postConsumeQuota info a quotaDelta fails
      (r, .none info, a)

def postWssQuota (settings : RatioSettings) (usage : RealtimeUsage) : Int :=
  if usage.totalTokens = 0 then 0
  else
    env.tieredQuota.getD (calculateAudioQuota settings {
      usage
      modelName := env.upstreamModelName
      usePrice := env.priceData.usePrice
      modelPrice := env.priceData.modelPrice
      modelRatio := env.priceData.modelRatio
      groupRatio := env.priceData.groupRatio })

/-! ## The handler -/

/-- `stopped`: the reader of the upstream has returned with an error. -/
structure RealtimeHandler where
  usage : RealtimeUsage
  localUsage : RealtimeUsage
  sumUsage : RealtimeUsage
  stopped : Bool
deriving DecidableEq

def RealtimeHandler.fresh : RealtimeHandler := ⟨.zero, .zero, .zero, false⟩

structure Realtime where
  handler : RealtimeHandler
  billing : Billing
  accounts : Accounts
deriving DecidableEq

def preConsumeUsage (r : Realtime) (usage : RealtimeUsage) (access : WssAccess) : Except Error Unit × Realtime :=
  let (answer, info, accounts) := preWssConsumeQuota env r.billing.relayInfo r.accounts usage access
  (answer, {
    handler := { r.handler with sumUsage := r.handler.sumUsage.add usage }
    billing := r.billing.withInfo info
    accounts })

/-- What a `response.done` adds before it is charged. -/
def RealtimeHandler.count (h : RealtimeHandler) (text audio : Int) : Option RealtimeUsage → RealtimeHandler
  | some usage => { h with usage := h.usage.add usage }
  | none => { h with localUsage := h.localUsage.addInput text audio }

def RealtimeHandler.due (h : RealtimeHandler) (reported : Option RealtimeUsage) : RealtimeUsage :=
  if reported.isSome then h.usage else h.localUsage

/-- With reported usage the local count is dropped as well. -/
def RealtimeHandler.clear (h : RealtimeHandler) : Option RealtimeUsage → RealtimeHandler
  | some _ => { h with usage := .zero, localUsage := .zero }
  | none => { h with localUsage := .zero }

/-- An error ends the reader and leaves the sums as they are. -/
def responseDone (r : Realtime) (reported : Option RealtimeUsage) (text audio : Int) (access : WssAccess) : Realtime :=
  let handler := r.handler.count text audio reported
  match preConsumeUsage env { r with handler } (handler.due reported) access with
  | (.ok (), r) => { r with handler := r.handler.clear reported }
  | (.error _, r) => { r with handler := { r.handler with stopped := true } }

/-- The end charges what is left of a sum, and ignores an error. -/
def chargeRest (r : Realtime) (usage : RealtimeUsage) (access : WssAccess) : Realtime :=
  if usage.totalTokens ≠ 0 then (preConsumeUsage env r usage access).2 else r

end NewApi.Code

