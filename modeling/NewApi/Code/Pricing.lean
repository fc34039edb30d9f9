import Mathlib.Data.List.Infix
import Mathlib.Data.Rat.Floor
import NewApi.Lib.Formula

/-!
# Prices of text requests

`calculateTextQuotaSummary` of `service/text_quota.go` and `buildTieredTokenParams` of `service/tiered_settle.go`. Amounts
are exact and not yet rounded.
-/

namespace NewApi.Code.Pricing

open Formulas

def hasPrefix (s text : String) : Bool := text.toList.isPrefixOf s.toList

def hasText (s text : String) : Bool := text.toList <:+: s.toList

/-! ## Usage -/

structure CachedTokenDetails where
  textTokens : Option Int
  imageTokens : Option Int
  audioTokens : Option Int
deriving DecidableEq

/-- `ttl12hTokens` is from `CacheWriteTokensDetails`, if the details are there. -/
structure InputTokenDetails where
  cachedTokens : Int
  cachedTokensDetails : Option CachedTokenDetails
  cachedCreationTokens : Int
  cacheWriteTokens : Int
  ttl12hTokens : Option Int
  audioTokens : Int
  imageTokens : Int
deriving DecidableEq

def InputTokenDetails.cacheCreationTokensTotal (d : InputTokenDetails) : Int :=
  let total := max d.cacheWriteTokens d.cachedCreationTokens
  if total < 0 then 0 else total

def InputTokenDetails.cacheWrite12hTokens (d : InputTokenDetails) : Int :=
  match d.ttl12hTokens with
  | none => 0
  | some tokens => min (max tokens 0) d.cacheCreationTokensTotal

structure OutputTokenDetails where
  audioTokens : Int
  imageTokens : Int
deriving DecidableEq

inductive UsageSemantic where
  | openai | anthropic | gemini
  | other (text : String)
deriving DecidableEq

/-- An empty semantic is `none`. A cost that is missing is 0. -/
structure Usage where
  promptTokens : Int
  completionTokens : Int
  usageSemantic : Option UsageSemantic
  usageSource : String
  promptTokensDetails : InputTokenDetails
  completionTokenDetails : OutputTokenDetails
  claudeCacheCreation5mTokens : Int
  claudeCacheCreation1hTokens : Int
  cost : ℚ
deriving DecidableEq

structure RelayInfo where
  billingModelName : String
  claudeFormat : Bool
  openRouter : Bool
deriving DecidableEq

def usageSemanticFromUsage (info : RelayInfo) (usage : Usage) : UsageSemantic :=
  match usage.usageSemantic with
  | some semantic => semantic
  | none => if info.claudeFormat then .anthropic else .openai

def isClaudeUsageSemantic (info : RelayInfo) (usage : Usage) : Bool := usageSemanticFromUsage info usage = .anthropic

def isLegacyClaudeDerivedOpenAIUsage (info : RelayInfo) (usage : Usage) : Bool :=
  if info.claudeFormat then false
  else if usage.usageSource ≠ "" ∨ usage.usageSemantic ≠ none then false
  else 0 < usage.claudeCacheCreation5mTokens ∨ 0 < usage.claudeCacheCreation1hTokens

/-! ## Ratios -/

def claudeCacheCreation1hMultiplier : ℚ := 6 / (15 / 4)

def openAICacheCreation12hMultiplier : ℚ := 2

structure PriceData where
  modelPrice : ℚ
  modelRatio : ℚ
  completionRatio : ℚ
  cacheRatio : ℚ
  cacheCreationRatio : ℚ
  cacheCreation5mRatio : ℚ
  cacheCreation1hRatio : ℚ
  cacheCreation12hRatio : ℚ
  imageRatio : ℚ
  otherRatios : List ℚ
  usePrice : Bool
  groupRatio : ℚ
deriving DecidableEq

def PriceData.applyOtherRatios (price : PriceData) (value : ℚ) : ℚ :=
  price.otherRatios.foldl (fun value ratio => if 0 < ratio ∧ ratio ≠ 1 then value * ratio else value) value

/-- The tables of the ratio settings. -/
structure PricingSettings where
  quotaPerUnit : ℚ
  selfUseModeEnabled : Bool
  getHardcodedCompletionModelRatio : String → ℚ × Bool
  defaultModelRatio : String → Option ℚ

def getGeminiInputAudioPricePerMillionTokens (modelName : String) : ℚ :=
  if hasPrefix modelName "gemini-2.5-flash-preview-native-audio" then 3
  else if hasPrefix modelName "gemini-2.5-flash-preview-lite" then 1 / 2
  else if hasPrefix modelName "gemini-2.5-flash-preview" then 1
  else if hasPrefix modelName "gemini-2.5-flash" then 1
  else if hasPrefix modelName "gemini-2.0-flash" then 7 / 10
  else if hasPrefix modelName "gemini-robotics-er-1.5" then 1
  else 0

variable (settings : PricingSettings)

def hasCustomModelRatio (modelName : String) (currentRatio : ℚ) : Bool :=
  match settings.defaultModelRatio modelName with
  | none => true
  | some defaultRatio => currentRatio ≠ defaultRatio

def maxQuota : Int := 2 ^ 31 - 1

def minQuota : Int := -2 ^ 31

/-- Halves are rounded away from zero; beyond 32 bits there is nothing. -/
def quotaRoundChecked (value : ℚ) : Option Int :=
  let rounded := if 0 ≤ value then ⌊value + 1 / 2⌋ else ⌈value - 1 / 2⌉
  if maxQuota < rounded ∨ rounded < minQuota then none else some rounded

/-- What the cost of the request leaves over. A division by zero is beyond every bound. -/
def calcOpenRouterCacheCreateTokens (usage : Usage) (price : PriceData) : Int :=
  if price.cacheCreationRatio = 1 then 0
  else
    let quotaPrice := price.modelRatio / settings.quotaPerUnit
    let promptCacheCreatePrice := quotaPrice * price.cacheCreationRatio
    let promptCacheReadPrice := quotaPrice * price.cacheRatio
    let completionPrice := quotaPrice * price.completionRatio
    if promptCacheCreatePrice - quotaPrice = 0 then -1
    else
      let value := (usage.cost - usage.promptTokens * quotaPrice +
        usage.promptTokensDetails.cachedTokens * (quotaPrice - promptCacheReadPrice) -
        usage.completionTokens * completionPrice) / (promptCacheCreatePrice - quotaPrice)
      (quotaRoundChecked value).getD (-1)

/-- The cost is an interface in the source, so it is never equal to 0. -/
def billedTokens (info : RelayInfo) (price : PriceData) (usage : Usage) : Int × Int :=
  let cacheCreationTokens := usage.promptTokensDetails.cacheCreationTokensTotal
  if info.openRouter ∧ isClaudeUsageSemantic info usage then
    let promptTokens := usage.promptTokens - usage.promptTokensDetails.cachedTokens
    let isUsingCustomSettings :=
      price.usePrice || hasCustomModelRatio settings info.billingModelName price.modelRatio
    let maybeCacheCreationTokens := calcOpenRouterCacheCreateTokens settings usage price
    let cacheCreationTokens :=
      if cacheCreationTokens = 0 ∧ price.cacheCreationRatio ≠ 1 ∧ isUsingCustomSettings = false ∧
          0 ≤ maybeCacheCreationTokens ∧ maybeCacheCreationTokens ≤ promptTokens then maybeCacheCreationTokens
      else cacheCreationTokens
    (promptTokens - cacheCreationTokens, cacheCreationTokens)
  else (usage.promptTokens, cacheCreationTokens)

def cachedCreationTokensWithRatio (price : PriceData) (usage : Usage) (separate : Bool) (cacheCreationTokens : Int) : ℚ :=
  let tokens5m := usage.claudeCacheCreation5mTokens
  let tokens1h := usage.claudeCacheCreation1hTokens
  if cacheCreationTokens ≠ 0 ∨ 0 < tokens5m ∨ 0 < tokens1h then
    if separate then
      let remaining := max (cacheCreationTokens - tokens5m - tokens1h) 0
      remaining * price.cacheCreationRatio + tokens5m * price.cacheCreation5mRatio +
        tokens1h * price.cacheCreation1hRatio
    else
      let tokens12h := usage.promptTokensDetails.cacheWrite12hTokens
      (cacheCreationTokens - tokens12h) * price.cacheCreationRatio + tokens12h * price.cacheCreation12hRatio
  else 0

/-- Up to the final rounding and the minimum charge. -/
def calculateTextQuota (info : RelayInfo) (price : PriceData) (usage : Usage) (toolCallSurchargeQuota : ℚ) : ℚ :=
  if price.usePrice then
    price.applyOtherRatios (price.modelPrice * settings.quotaPerUnit * price.groupRatio) + toolCallSurchargeQuota
  else
    let (promptTokens, cacheCreationTokens) := billedTokens settings info price usage
    let cacheTokens := usage.promptTokensDetails.cachedTokens
    let imageTokens := usage.promptTokensDetails.imageTokens
    let audioTokens := usage.promptTokensDetails.audioTokens
    let audioInputPrice := getGeminiInputAudioPricePerMillionTokens info.billingModelName
    -- Cached tokens are not part of a prompt that Claude has counted.
    let separate := isClaudeUsageSemantic info usage || isLegacyClaudeDerivedOpenAIUsage info usage
    let baseTokens : ℚ := promptTokens - (if separate then 0 else cacheTokens) -
      (if separate then 0 else cacheCreationTokens) - imageTokens - (if 0 < audioInputPrice then audioTokens else 0)
    let baseTokens := if baseTokens < 0 then 0 else baseTokens
    let promptQuota := baseTokens + cacheTokens * price.cacheRatio + imageTokens * price.imageRatio +
      cachedCreationTokensWithRatio price usage separate cacheCreationTokens
    let completionQuota := usage.completionTokens * price.completionRatio
    let audioInputQuota :=
      if 0 < audioInputPrice then audioInputPrice / 1000000 * audioTokens * price.groupRatio * settings.quotaPerUnit
      else 0
    let quota := (promptQuota + completionQuota) * (price.modelRatio * price.groupRatio) + audioInputQuota
    price.applyOtherRatios quota + toolCallSurchargeQuota

/-! ## Expressions -/

inductive Var where
  | p | c | len | cr | cc | cc1h | cc12h | img | imgCR | imgO | ai | ao
deriving DecidableEq

structure TokenParams where
  p : ℚ
  c : ℚ
  len : ℚ
  cr : ℚ
  cc : ℚ
  cc1h : ℚ
  cc12h : ℚ
  img : ℚ
  imgCR : ℚ
  imgO : ℚ
  ai : ℚ
  ao : ℚ
deriving DecidableEq

def TokenParams.get (t : TokenParams) : Var → ℚ
  | .p => t.p
  | .c => t.c
  | .len => t.len
  | .cr => t.cr
  | .cc => t.cc
  | .cc1h => t.cc1h
  | .cc12h => t.cc12h
  | .img => t.img
  | .imgCR => t.imgCR
  | .imgO => t.imgO
  | .ai => t.ai
  | .ao => t.ao

/-- `tier` records its name and leaves the value as it is, so it is a label. -/
abbrev BillingExpr := Formula Var

def normalizeCacheCreationSplit (totalTokens tokens5m tokens1h : Int) : Int × Int :=
  let remainder := totalTokens - tokens5m - tokens1h
  let remainder := if remainder < 0 then 0 else remainder
  (tokens5m + remainder, tokens1h)

/-- The loop over the counts of the other modalities. -/
def fitsIn (remaining : Int) : List (Option Int) → Bool
  | [] => true
  | none :: counts => fitsIn remaining counts
  | some count :: counts => if count < 0 ∨ remaining < count then false else fitsIn (remaining - count) counts

def cachedImageTokens (usage : Usage) : Option Int :=
  let d := usage.promptTokensDetails
  d.cachedTokensDetails.bind fun details => details.imageTokens.bind fun cachedImage =>
    if 0 ≤ cachedImage ∧ cachedImage ≤ d.cachedTokens ∧ cachedImage ≤ d.imageTokens ∧
        d.cachedTokens ≤ usage.promptTokens ∧
        d.imageTokens ≤ usage.promptTokens - (d.cachedTokens - cachedImage) ∧
        fitsIn (d.cachedTokens - cachedImage) [details.textTokens, details.audioTokens] then some cachedImage
    else none

/-- Claude counts cached tokens beside the prompt; those without a price join the input. -/
def mergeClaudeTokens (used : Var → Bool) (t : TokenParams) : TokenParams :=
  let p := if used .cr then t.p else t.p + t.cr
  let cc := if used .cc1h then t.cc else t.cc + t.cc1h * claudeCacheCreation1hMultiplier
  let cc1h := if used .cc1h then t.cc1h else 0
  { t with
    p := if used .cc then p else p + cc
    cc := if used .cc then cc else 0
    cc1h }

/-- The prompt counts everything. What has a price of its own is taken out. -/
def splitOpenAITokens (used : Var → Bool) (tokens12h : ℚ) (t : TokenParams) : TokenParams :=
  let p := if used .cr then t.p - t.cr else t.p
  let cc := t.cc - tokens12h
  let p := if used .cc12h then p - tokens12h else p
  let ccTokens := if used .cc12h then cc else cc + tokens12h
  let cc12h := if used .cc12h then tokens12h else 0
  let cc := if used .cc12h then cc else cc + tokens12h * openAICacheCreation12hMultiplier
  let p := if used .cc then p - ccTokens else p + (cc - ccTokens)
  let cc := if used .cc then cc else 0
  let p := if used .cc1h then p - t.cc1h else p
  let p := if used .img then p - t.img else p
  let p := if used .imgCR then p - t.imgCR else p
  let p := if used .ai then p - t.ai else p
  let c := if used .imgO then t.c - t.imgO else t.c
  let c := if used .ao then c - t.ao else c
  { t with p, c, cc, cc12h }

/-- Cached images are a category only if the expression asks for them. -/
def reportedTokens (usage : Usage) (claude : Bool) (used : Var → Bool) : TokenParams :=
  let d := usage.promptTokensDetails
  let total := d.cacheCreationTokensTotal
  let split :=
    normalizeCacheCreationSplit total usage.claudeCacheCreation5mTokens usage.claudeCacheCreation1hTokens
  let cc : ℚ := if usage.usageSemantic = some .anthropic then split.1 else total
  let cc1h : ℚ := if usage.usageSemantic = some .anthropic then split.2 else 0
  let imgCR : ℚ := if used .imgCR ∧ claude = false then (cachedImageTokens usage).getD 0 else 0
  let p : ℚ := usage.promptTokens
  let cr : ℚ := d.cachedTokens - imgCR
  { p
    c := usage.completionTokens
    len := if claude then p + cr + cc + cc1h else p
    cr, cc, cc1h
    cc12h := 0
    img := d.imageTokens - imgCR
    imgCR
    imgO := usage.completionTokenDetails.imageTokens
    ai := d.audioTokens
    ao := usage.completionTokenDetails.audioTokens }

def TokenParams.clamp (t : TokenParams) : TokenParams :=
  { t with
    p := if t.p < 0 then 0 else t.p
    c := if t.c < 0 then 0 else t.c }

def buildTieredTokenParams (usage : Usage) (claude : Bool) (used : Var → Bool) : TokenParams :=
  let t := reportedTokens usage claude used
  TokenParams.clamp <|
    if claude then mergeClaudeTokens used t
    else splitOpenAITokens used usage.promptTokensDetails.cacheWrite12hTokens t

/-- `ComputeTieredQuota` with the surcharge of `composeTieredTextQuota`, before rounding; prices are per million tokens.
-/
def tieredQuota (groupRatio : ℚ) (info : RelayInfo) (e : BillingExpr) (usage : Usage) (toolCallSurchargeQuota : ℚ)
    : ℚ :=
  let params := buildTieredTokenParams usage (isClaudeUsageSemantic info usage) fun v => e.uses v
  e.eval params.get / 1000000 * settings.quotaPerUnit * groupRatio + toolCallSurchargeQuota

end NewApi.Code.Pricing

