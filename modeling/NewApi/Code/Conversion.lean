import NewApi.Code.Pricing

/-!
# From ratios to an expression

`model/model_pricing_conversion.go`, with the effective prices of `model/model_pricing_config.go` and the price data of
`relay/helper/price.go`.
-/

namespace NewApi.Code.Pricing

open Formulas

/-! ## Settings -/

inductive BillingMode where
  | ratio | tieredExpr
deriving DecidableEq

/-- The prices of one model. A field that is not configured is `none`. -/
structure PricingValues where
  modelPrice : Option ℚ
  modelRatio : Option ℚ
  completionRatio : Option ℚ
  cacheRatio : Option ℚ
  createCacheRatio : Option ℚ
  imageRatio : Option ℚ
  audioRatio : Option ℚ
  audioCompletionRatio : Option ℚ
  billingMode : Option BillingMode
deriving DecidableEq

abbrev PricingMaps := String → PricingValues

def replaceModelPricing (values : PricingMaps) (name : String) (draft : PricingValues) : PricingMaps :=
  fun other => if other = name then draft else values other

def handleThinkingBudgetModel (name text wildcard : String) : String :=
  if hasPrefix name text && hasText name "-thinking-" then wildcard else name

def formatMatchingModelName (name : String) : String :=
  let name :=
    if hasPrefix name "gemini-2.5-flash-lite" then
      handleThinkingBudgetModel name "gemini-2.5-flash-lite" "gemini-2.5-flash-lite-thinking-*"
    else if hasPrefix name "gemini-2.5-flash" then
      handleThinkingBudgetModel name "gemini-2.5-flash" "gemini-2.5-flash-thinking-*"
    else if hasPrefix name "gemini-2.5-pro" then
      handleThinkingBudgetModel name "gemini-2.5-pro" "gemini-2.5-pro-thinking-*"
    else name
  let name := if hasPrefix name "gpt-4-gizmo" then "gpt-4-gizmo-*" else name
  if hasPrefix name "gpt-4o-gizmo" then "gpt-4o-gizmo-*" else name

variable (settings : PricingSettings)

def resolveCompletionRatio (name : String) (configured : Option ℚ) : ℚ :=
  let name := formatMatchingModelName name
  let (hardCodedRatio, locked) := settings.getHardcodedCompletionModelRatio name
  match configured with
  | none => hardCodedRatio
  | some ratio => if hasText name "/" then ratio else if locked then hardCodedRatio else ratio

def defaultCacheRatio : ℚ := 1

def defaultCreateCacheRatio : ℚ := 5 / 4

def defaultImageRatio : ℚ := 1

def selfUseModelRatio : ℚ := 75 / 2

def modelPriceHelper (values : PricingMaps) (name : String) (groupRatio : ℚ) : Option PriceData :=
  let own := values name
  let matching := values (formatMatchingModelName name)
  let cacheCreationRatio := own.createCacheRatio.getD defaultCreateCacheRatio
  match matching.modelPrice with
  | some modelPrice => some
    { modelPrice, modelRatio := 0, completionRatio := 0, cacheRatio := 0, cacheCreationRatio := 0,
      cacheCreation5mRatio := 0, cacheCreation1hRatio := 0, cacheCreation12hRatio := 0, imageRatio := 0,
      otherRatios := [], usePrice := true, groupRatio }
  | none =>
    if matching.modelRatio = none ∧ settings.selfUseModeEnabled = false then none
    else some
      { modelPrice := -1
        modelRatio := matching.modelRatio.getD selfUseModelRatio
        completionRatio := resolveCompletionRatio settings name matching.completionRatio
        cacheRatio := own.cacheRatio.getD defaultCacheRatio
        cacheCreationRatio
        cacheCreation5mRatio := cacheCreationRatio
        cacheCreation1hRatio := cacheCreationRatio * claudeCacheCreation1hMultiplier
        cacheCreation12hRatio := cacheCreationRatio * openAICacheCreation12hMultiplier
        imageRatio := own.imageRatio.getD defaultImageRatio
        otherRatios := []
        usePrice := false
        groupRatio }

/-! ## Effective prices -/

/-- What `PreviewModelPricing` makes of a draft in the ratio mode. -/
structure EffectivePricing where
  modelPrice : Option ℚ
  modelRatio : Option ℚ
  completionRatio : ℚ
  cacheRatio : ℚ
  createCacheRatio : ℚ
  imageRatio : ℚ
  audioRatio : Option ℚ
  audioCompletionRatio : Option ℚ
deriving DecidableEq

def effectiveModelPricing (values : PricingMaps) (name : String) : EffectivePricing :=
  let own := values name
  let matching := values (formatMatchingModelName name)
  { modelPrice := matching.modelPrice
    modelRatio :=
      if matching.modelRatio = none ∧ settings.selfUseModeEnabled then some selfUseModelRatio else matching.modelRatio
    completionRatio := resolveCompletionRatio settings name matching.completionRatio
    cacheRatio := own.cacheRatio.getD defaultCacheRatio
    createCacheRatio := own.createCacheRatio.getD defaultCreateCacheRatio
    imageRatio := own.imageRatio.getD defaultImageRatio
    audioRatio := matching.audioRatio
    audioCompletionRatio := matching.audioCompletionRatio }

/-- The source may name any of the negative fields. -/
def validateModelPricing (name : String) (values : PricingValues) : Except String Unit :=
  let fields := [("ModelPrice", values.modelPrice), ("ModelRatio", values.modelRatio),
    ("CompletionRatio", values.completionRatio), ("CacheRatio", values.cacheRatio),
    ("CreateCacheRatio", values.createCacheRatio), ("ImageRatio", values.imageRatio),
    ("AudioRatio", values.audioRatio), ("AudioCompletionRatio", values.audioCompletionRatio)]
  if name.toList.all Char.isWhitespace then .error "model name is required"
  else
    match fields.find? fun field => field.2.any (· < 0) with
    | some field => .error (field.1 ++ " must be a finite, non-negative number")
    | none => .ok ()

def EffectivePricing.values (effective : EffectivePricing) : PricingValues :=
  ⟨effective.modelPrice, effective.modelRatio, some effective.completionRatio, some effective.cacheRatio,
    some effective.createCacheRatio, some effective.imageRatio, effective.audioRatio, effective.audioCompletionRatio,
    some .ratio⟩

inductive CacheWriteMode where
  | none | standard | claudeTTL | openAITTL
deriving DecidableEq

def resolveCacheWriteMode (name : String) (configured : PricingValues) : CacheWriteMode :=
  if hasText name.toLower "claude" then .claudeTTL
  else if configured.createCacheRatio.isSome then
    if hasText name.toLower "gpt" then .openAITTL else .standard
  else .none

def legacyInputPricePerMillion (ratio : ℚ) : Except String ℚ :=
  if settings.quotaPerUnit ≤ 0 then .error "invalid quota unit"
  else if ratio < 0 then .error "input ratio must be finite and non-negative"
  else .ok (ratio * 1000000 / settings.quotaPerUnit)

/-- `audioTextBranches`: requests with audio have a branch of their own. -/
structure LegacyBillingDetails where
  audioInputPrice : Option ℚ
  audioOutputPrice : Option ℚ
  audioTextBranches : Bool
  conflictingAudioPrices : Bool
deriving DecidableEq

def LegacyBillingDetails.empty : LegacyBillingDetails := ⟨none, none, false, false⟩

def resolveLegacyBillingDetails (name : String) (effective : EffectivePricing) (configured : PricingValues)
    : LegacyBillingDetails :=
  match effective.modelPrice, effective.modelRatio with
  | some _, _ | none, none => .empty
  | none, some ratio =>
    match legacyInputPricePerMillion settings ratio with
    | .error _ => .empty
    | .ok base =>
      let price := getGeminiInputAudioPricePerMillionTokens name
      let hasAudio := effective.audioRatio.isSome || effective.audioCompletionRatio.isSome
      let input := base * effective.audioRatio.getD 1
      let output := input * effective.audioCompletionRatio.getD 1
      if 0 < price then
        { audioInputPrice := some price
          audioOutputPrice := none
          audioTextBranches := false
          conflictingAudioPrices := hasAudio && (input ≠ price || output ≠ base * effective.completionRatio) }
      else if hasAudio = false then .empty
      else
        { audioInputPrice := some input
          audioOutputPrice := some output
          audioTextBranches := effective.cacheRatio ≠ 1 || effective.imageRatio ≠ 1 ||
            resolveCacheWriteMode name configured ≠ .none
          conflictingAudioPrices := false }

/-! ## Routing -/

/-- `upstream` is where the mapping leads, if it can be followed. -/
structure Channel where
  models : List String
  taskPlugin : Bool
  openAIVideo : Bool
  openRouter : Bool
  enabled : Bool
  upstream : Option String
deriving DecidableEq

/-- `task`: a plugin declares the model. `endpoints`: those of the matching rows, none for one that cannot be read. -/
structure Routing where
  task : Bool
  channels : List Channel
  endpoints : List (Option (List String))
deriving DecidableEq

def taskPricing : String := "Task pricing must be converted manually using the task usage schema."

def videoPricing : String := "Video pricing must be converted manually."

def unverifiedRouting : String := "The model routing configuration could not be verified."

def Channel.unsupported (name : String) (effective : EffectivePricing) (ch : Channel) : Option String :=
  if name ∉ ch.models then none
  else if ch.taskPlugin then some taskPricing
  else if ch.openAIVideo then some videoPricing
  else if ch.enabled ∧ ch.openRouter ∧ hasText name.toLower "claude" ∧ effective.modelPrice = none ∧
      (settings.defaultModelRatio name).isSome ∧ effective.modelRatio = settings.defaultModelRatio name ∧
      effective.createCacheRatio ≠ 1 then
    some ("This OpenRouter Claude price derives cache-write usage from upstream cost " ++
      "and must be converted manually.")
  else if ch.upstream = none then some unverifiedRouting
  else none

def Routing.names (routing : Routing) (name : String) : List String :=
  name :: (routing.channels.filter fun ch => name ∈ ch.models).filterMap Channel.upstream

def Routing.unsupported (name : String) (effective : EffectivePricing) (routing : Routing) : Option String :=
  let endpointReason : Option (List String) → Option String
    | none => some unverifiedRouting
    | some endpoints => if "openai-video" ∈ endpoints then some videoPricing else none
  if routing.task then some taskPricing
  else
    (routing.channels.findSome? (Channel.unsupported settings name effective)).or <|
    (if (routing.names name).any (fun n => hasText n.toLower "realtime") then
      some "Realtime pricing must be converted manually." else none).or <|
    routing.endpoints.findSome? endpointReason

/-! ## The expression -/

/-- A fixed price has expressions of its own, which are not followed here. -/
inductive Conversion where
  | unsupported (reason : String)
  | fixedPrice (price : ℚ)
  | expression (e : BillingExpr)
deriving DecidableEq

def mergeCacheRead (base : ℚ) (effective : EffectivePricing) (mode : CacheWriteMode) (details : LegacyBillingDetails) :
    Bool :=
  base = 0 || mode = .none && effective.imageRatio = 1 &&
    (details.audioInputPrice = none || details.audioOutputPrice.isSome)

def laneKept (base : ℚ) (effective : EffectivePricing) (mode : CacheWriteMode) (details : LegacyBillingDetails)
    (branches : Bool) (v : Var) (ratio : ℚ) : Bool :=
  if details.audioOutputPrice.isSome ∧ branches = false ∧ v ≠ .c then false
  else if v = .cc ∧ mode = .none ∨ v = .cc1h ∧ mode ≠ .claudeTTL ∨ v = .cc12h ∧ mode ≠ .openAITTL then false
  -- What costs as much as the input stays in the input.
  else if (v = .img ∨ v = .cr ∧ mergeCacheRead base effective mode details) ∧ ratio = 1 then false
  else true

def tokenLanes (base : ℚ) (effective : EffectivePricing) (mode : CacheWriteMode) (details : LegacyBillingDetails)
    (branches : Bool) : List (Var × ℚ) :=
  let lanes : List (Var × ℚ × ℚ) := [(.c, effective.completionRatio, 1), (.cr, effective.cacheRatio, 1),
    (.cc, effective.createCacheRatio, 1), (.cc1h, effective.createCacheRatio, claudeCacheCreation1hMultiplier),
    (.cc12h, effective.createCacheRatio, openAICacheCreation12hMultiplier), (.img, effective.imageRatio, 1)]
  (lanes.filter fun lane => laneKept base effective mode details branches lane.1 lane.2.1).map
    fun lane => (lane.1, base * lane.2.1 * lane.2.2)

def audioLanes (details : LegacyBillingDetails) (branches : Bool) : List (Var × ℚ) :=
  if branches then []
  else (details.audioInputPrice.map (Var.ai, ·)).toList ++ (details.audioOutputPrice.map (Var.ao, ·)).toList

def term (v : Var) (price : ℚ) : BillingExpr := .mul (.var v) (.lit price)

/-- The settlement of audio knows no ratios for caches and images. -/
def audioBranch (base completion input output : ℚ) : BillingExpr :=
  .label "audio"
    ((Formula.mul (.max (.sub (.var .len) (.var .ai)) (.lit 0)) (.lit base)).plus
      [(.c, completion), (.ai, input), (.ao, output)])

def textBranch (base : ℚ) (effective : EffectivePricing) (mode : CacheWriteMode) (details : LegacyBillingDetails)
    (branches : Bool) : BillingExpr :=
  .label "base"
    ((term .p base).plus (tokenLanes base effective mode details branches ++ audioLanes details branches))

def convertRatios (base : ℚ) (effective : EffectivePricing) (mode : CacheWriteMode) (details : LegacyBillingDetails) :
    BillingExpr :=
  let branches := details.audioTextBranches || (details.audioOutputPrice.isSome && mode ≠ .none)
  let text := textBranch base effective mode details branches
  match details.audioInputPrice, details.audioOutputPrice with
  | some input, some output =>
    if branches then
      .cond (.either (.positive .ai) (.positive .ao))
        (audioBranch base (base * effective.completionRatio) input output) text
    else text
  | _, _ => text

def previewModelPricingConversion (routing : Routing) (values : PricingMaps) (name : String) (draft : PricingValues)
    : Except String Conversion := do
  validateModelPricing name draft
  if draft.billingMode = some .tieredExpr then return .unsupported "This model already uses an expression."
  let effective := effectiveModelPricing settings (replaceModelPricing values name draft) name
  validateModelPricing name effective.values
  let details := resolveLegacyBillingDetails settings name effective draft
  if details.conflictingAudioPrices then
    return .unsupported ("Gemini and OpenAI audio prices differ for this model. " ++
      "Use separate billing model names to convert them.")
  match routing.unsupported settings name effective, effective.modelPrice, effective.modelRatio with
  | some reason, _, _ => return .unsupported reason
  | none, some price, _ => return .fixedPrice price
  | none, none, none => return .unsupported "Configure an input price before converting this model."
  | none, none, some ratio =>
    let base ← legacyInputPricePerMillion settings ratio
    return .expression (convertRatios base effective (resolveCacheWriteMode name draft) details)

end NewApi.Code.Pricing

