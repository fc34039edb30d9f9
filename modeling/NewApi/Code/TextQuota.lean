import Mathlib.Data.List.Sort
import NewApi.Code.Pricing

/-!
# The charge for a text request

`calculateTextQuotaSummary` as a whole: counts wrap around at 64 bits, and the amount is rounded, saturated and raised to
the minimum charge.
-/

namespace NewApi.Code.Pricing

def wrapInt (n : Int) : Int := (n + 2 ^ 63) % 2 ^ 64 - 2 ^ 63

/-! ## Tool surcharges -/

structure ToolSurchargeItem where
  name : String
  count : Int
  price : ℚ
deriving DecidableEq

def maxInt64 : Int := 2 ^ 63 - 1

def maxBillableToolCallCount : Int := 10000

/-- `price` is the price of the tool for the model. -/
def collectToolSurchargeItem (items : List ToolSurchargeItem) (name : String) (count : Int) (price : ℚ) :
    List ToolSurchargeItem :=
  if count ≤ 0 then items else if price ≤ 0 then items else items ++ [⟨name, count, price⟩]

def sortToolSurchargeItems (items : List ToolSurchargeItem) : List ToolSurchargeItem :=
  items.insertionSort fun a b => a.name < b.name ∨ a.name = b.name ∧ a.price ≤ b.price

/-- `merged` is in the order of its last item first. -/
def mergeSorted : List ToolSurchargeItem → List ToolSurchargeItem → List ToolSurchargeItem
  | merged, [] => merged.reverse
  | [], item :: items => mergeSorted [item] items
  | last :: merged, item :: items =>
    if last.name = item.name ∧ last.price = item.price then
      let count := if maxInt64 - last.count < item.count then maxInt64 else last.count + item.count
      mergeSorted ({ last with count } :: merged) items
    else mergeSorted (item :: last :: merged) items

def mergeToolSurchargeItems (items : List ToolSurchargeItem) : List ToolSurchargeItem :=
  mergeSorted [] (sortToolSurchargeItems items)

def roundHalfAway (value : ℚ) : Int := if 0 ≤ value then ⌊value + 1 / 2⌋ else ⌈value - 1 / 2⌉

/-- A division of decimals keeps sixteen places. -/
def decimalDiv (a b : ℚ) : ℚ := roundHalfAway (a / b * 10 ^ 16) / 10 ^ 16

/-- The tools with their counts, and whether this is the Responses API. -/
structure ToolUsage where
  builtInTools : List (String × Int)
  responsesMode : Bool
deriving DecidableEq

def hasSuffix (s text : String) : Bool := text.toList.reverse.isPrefixOf s.toList.reverse

def toolSurchargeItems (getToolPrice : String → ℚ) (modelName : String) (tools : ToolUsage) : List ToolSurchargeItem :=
  let items := tools.builtInTools.foldl
    (fun items tool =>
      collectToolSurchargeItem items tool.1 (min tool.2 maxBillableToolCallCount) (getToolPrice tool.1)) []
  let items :=
    if tools.responsesMode = false ∧ hasSuffix modelName "search-preview" = true then
      collectToolSurchargeItem items "web_search_preview" 1 (getToolPrice "web_search_preview")
    else items
  mergeToolSurchargeItems items

def calculateTextToolCallSurcharge (settings : PricingSettings) (getToolPrice : String → ℚ) (groupRatio : ℚ)
    (modelName : String) (tools : ToolUsage) : ℚ :=
  (toolSurchargeItems getToolPrice modelName tools).foldl
    (fun surcharge item =>
      surcharge + decimalDiv (item.price * item.count) 1000 * groupRatio * settings.quotaPerUnit) 0

/-! ## The summary -/

/-- The total counts what was reported. -/
structure TextQuotaSummary where
  promptTokens : Int
  completionTokens : Int
  totalTokens : Int
  cacheTokens : Int
  cacheCreationTokens : Int
  cacheCreationTokens5m : Int
  cacheCreationTokens1h : Int
  cacheCreationTokens12h : Int
  imageTokens : Int
  audioTokens : Int
  isClaudeUsageSemantic : Bool
  legacyClaudeDerived : Bool
  toolCallSurchargeQuota : ℚ
  fixedPriceBilling : Bool
  quota : Int
deriving DecidableEq

def TextQuotaSummary.hasBillableUsage (s : TextQuotaSummary) : Bool :=
  s.fixedPriceBilling || 0 < s.totalTokens ||
    (s.isClaudeUsageSemantic && (0 < s.cacheTokens || 0 < s.cacheCreationTokens || 0 < s.cacheCreationTokens5m ||
      0 < s.cacheCreationTokens1h)) ||
    s.toolCallSurchargeQuota ≠ 0

/-- OpenRouter counts cached tokens in the prompt. A fixed price is only known after the settlement. -/
def summarize (settings : PricingSettings) (info : RelayInfo) (price : PriceData) (usage : Usage) (surcharge : ℚ) :
    TextQuotaSummary :=
  let isClaude := isClaudeUsageSemantic info usage
  let legacy := isLegacyClaudeDerivedOpenAIUsage info usage
  let summary : TextQuotaSummary := {
    promptTokens := usage.promptTokens
    completionTokens := usage.completionTokens
    totalTokens := wrapInt (usage.promptTokens + usage.completionTokens)
    cacheTokens := usage.promptTokensDetails.cachedTokens
    cacheCreationTokens := usage.promptTokensDetails.cacheCreationTokensTotal
    cacheCreationTokens5m := usage.claudeCacheCreation5mTokens
    cacheCreationTokens1h := usage.claudeCacheCreation1hTokens
    cacheCreationTokens12h :=
      if isClaude = false ∧ legacy = false then usage.promptTokensDetails.cacheWrite12hTokens else 0
    imageTokens := usage.promptTokensDetails.imageTokens
    audioTokens := usage.promptTokensDetails.audioTokens
    isClaudeUsageSemantic := isClaude
    legacyClaudeDerived := legacy
    toolCallSurchargeQuota := surcharge
    fixedPriceBilling := false
    quota := 0 }
  if info.openRouter ∧ isClaude then
    let promptTokens := wrapInt (summary.promptTokens - summary.cacheTokens)
    let isUsingCustomSettings :=
      price.usePrice || hasCustomModelRatio settings info.billingModelName price.modelRatio
    let maybeCacheCreationTokens := calcOpenRouterCacheCreateTokens settings usage price
    let cacheCreationTokens :=
      if summary.cacheCreationTokens = 0 ∧ price.cacheCreationRatio ≠ 1 ∧ isUsingCustomSettings = false ∧
          0 ≤ maybeCacheCreationTokens ∧ maybeCacheCreationTokens ≤ promptTokens then maybeCacheCreationTokens
      else summary.cacheCreationTokens
    { summary with promptTokens := wrapInt (promptTokens - cacheCreationTokens), cacheCreationTokens }
  else summary

def TextQuotaSummary.cachedCreationTokensWithRatio (s : TextQuotaSummary) (price : PriceData) : ℚ :=
  if s.cacheCreationTokens ≠ 0 ∨ 0 < s.cacheCreationTokens5m ∨ 0 < s.cacheCreationTokens1h then
    if s.isClaudeUsageSemantic = false ∧ s.legacyClaudeDerived = false then
      (s.cacheCreationTokens - s.cacheCreationTokens12h) * price.cacheCreationRatio +
        s.cacheCreationTokens12h * price.cacheCreation12hRatio
    else
      let remaining :=
        max (wrapInt (wrapInt (s.cacheCreationTokens - s.cacheCreationTokens5m) - s.cacheCreationTokens1h)) 0
      remaining * price.cacheCreationRatio + s.cacheCreationTokens5m * price.cacheCreation5mRatio +
        s.cacheCreationTokens1h * price.cacheCreation1hRatio
  else 0

def TextQuotaSummary.baseTokens (s : TextQuotaSummary) (audioInputPrice : ℚ) : ℚ :=
  let separate := s.isClaudeUsageSemantic || s.legacyClaudeDerived
  let baseTokens : ℚ := s.promptTokens - (if separate then 0 else s.cacheTokens) -
    (if separate then 0 else s.cacheCreationTokens) - s.imageTokens -
    (if 0 < audioInputPrice then s.audioTokens else 0)
  if baseTokens < 0 then 0 else baseTokens

def TextQuotaSummary.tokenQuota (s : TextQuotaSummary) (settings : PricingSettings) (info : RelayInfo)
    (price : PriceData) : ℚ :=
  if price.usePrice then price.applyOtherRatios (price.modelPrice * settings.quotaPerUnit * price.groupRatio)
  else
    let audioInputPrice := getGeminiInputAudioPricePerMillionTokens info.billingModelName
    let promptQuota := s.baseTokens audioInputPrice + s.cacheTokens * price.cacheRatio +
      s.imageTokens * price.imageRatio + s.cachedCreationTokensWithRatio price
    let completionQuota := s.completionTokens * price.completionRatio
    let audioInputQuota :=
      if 0 < audioInputPrice then audioInputPrice / 1000000 * s.audioTokens * price.groupRatio * settings.quotaPerUnit
      else 0
    price.applyOtherRatios
      ((promptQuota + completionQuota) * (price.modelRatio * price.groupRatio) + audioInputQuota)

/-- `QuotaFromDecimal`: rounded, and saturated at 32 bits. -/
def quotaFromDecimal (value : ℚ) : Int := max minQuota (min maxQuota (roundHalfAway value))

def estimatedUsage (estimatePromptTokens : Int) : Usage :=
  ⟨estimatePromptTokens, 0, none, "", ⟨0, none, 0, 0, none, 0, 0⟩, ⟨0, 0⟩, 0, 0, 0⟩

def calculateTextQuotaSummary (settings : PricingSettings) (getToolPrice : String → ℚ) (info : RelayInfo)
    (price : PriceData) (tools : ToolUsage) (estimatePromptTokens : Int) (usage : Option Usage) : TextQuotaSummary :=
  let surcharge := calculateTextToolCallSurcharge settings getToolPrice price.groupRatio info.billingModelName tools
  let summary := summarize settings info price (usage.getD (estimatedUsage estimatePromptTokens)) surcharge
  let ratio := price.modelRatio * price.groupRatio
  let amount := summary.tokenQuota settings info price + surcharge
  let amount := if price.usePrice = false ∧ ratio ≠ 0 ∧ amount ≤ 0 then 1 else amount
  let quota := quotaFromDecimal amount
  let quota := if summary.hasBillableUsage = false then 0 else if ratio ≠ 0 ∧ quota = 0 then 1 else quota
  { summary with quota }

end NewApi.Code.Pricing
