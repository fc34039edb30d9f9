import NewApi.Lib.GoTime

/-!
# Claude usage and OpenAI usage

`UsageFromClaudeAPIUsage` and `UsageFromOpenAI` of `relayconvert/internal`. A payload is a usage without its
`BillingUsage`, which every copy drops.
-/

namespace NewApi.Code.ClaudeUsages

open GoTime

/-! ## Claude -/

structure ClaudeCacheCreationUsage where
  ephemeral5mInputTokens : Int := 0
  ephemeral1hInputTokens : Int := 0
deriving DecidableEq

structure ClaudePayload where
  inputTokens : Int := 0
  cacheCreationInputTokens : Int := 0
  cacheReadInputTokens : Int := 0
  outputTokens : Int := 0
  cacheCreation : Option ClaudeCacheCreationUsage := none
  claudeCacheCreation5mTokens : Int := 0
  claudeCacheCreation1hTokens : Int := 0
deriving DecidableEq

def ClaudePayload.getCacheCreation5mTokens (u : ClaudePayload) : Int :=
  (u.cacheCreation.map ClaudeCacheCreationUsage.ephemeral5mInputTokens).getD 0

def ClaudePayload.getCacheCreation1hTokens (u : ClaudePayload) : Int :=
  (u.cacheCreation.map ClaudeCacheCreationUsage.ephemeral1hInputTokens).getD 0

def ClaudePayload.counters (u : ClaudePayload) : List Int :=
  [u.inputTokens, u.outputTokens, u.cacheCreationInputTokens, u.cacheReadInputTokens, u.claudeCacheCreation5mTokens,
    u.claudeCacheCreation1hTokens, u.getCacheCreation5mTokens, u.getCacheCreation1hTokens]

/-! ## OpenAI -/

structure CachedTokenDetails where
  textTokens : Option Int
  imageTokens : Option Int
  audioTokens : Option Int
deriving DecidableEq

structure CacheWriteTokenDetails where
  ttl30mTokens : Int
  ttl12hTokens : Int
deriving DecidableEq

structure InputTokenDetails where
  cachedTokens : Int := 0
  cachedTokensDetails : Option CachedTokenDetails := none
  cachedCreationTokens : Int := 0
  cacheWriteTokens : Int := 0
  cacheWriteTokensDetails : Option CacheWriteTokenDetails := none
  textTokens : Int := 0
  audioTokens : Int := 0
  imageTokens : Int := 0
deriving DecidableEq

def InputTokenDetails.cacheCreationTokensTotal (d : InputTokenDetails) : Int :=
  let total := max d.cacheWriteTokens d.cachedCreationTokens
  if total < 0 then 0 else total

def InputTokenDetails.counters (d : InputTokenDetails) : List Int :=
  [d.cachedTokens, d.cachedCreationTokens, d.cacheWriteTokens, d.textTokens, d.imageTokens, d.audioTokens] ++
    (d.cachedTokensDetails.elim [] fun c =>
      [c.textTokens.getD 0, c.imageTokens.getD 0, c.audioTokens.getD 0]) ++
    d.cacheWriteTokensDetails.elim [] fun w => [w.ttl30mTokens, w.ttl12hTokens]

structure OutputTokenDetails where
  textTokens : Int := 0
  audioTokens : Int := 0
  imageTokens : Int := 0
  reasoningTokens : Int := 0
deriving DecidableEq

structure Payload where
  promptTokens : Int := 0
  completionTokens : Int := 0
  totalTokens : Int := 0
  promptCacheHitTokens : Int := 0
  usageSemantic : String := ""
  usageSource : String := ""
  promptTokensDetails : InputTokenDetails := {}
  completionTokenDetails : OutputTokenDetails := {}
  inputTokens : Int := 0
  outputTokens : Int := 0
  inputTokensDetails : Option InputTokenDetails := none
  claudeCacheCreation5mTokens : Int := 0
  claudeCacheCreation1hTokens : Int := 0
deriving DecidableEq

def Payload.counters (u : Payload) : List Int :=
  [u.promptTokens, u.completionTokens, u.totalTokens, u.inputTokens, u.outputTokens, u.promptCacheHitTokens,
    u.claudeCacheCreation5mTokens, u.claudeCacheCreation1hTokens, u.completionTokenDetails.reasoningTokens,
    u.completionTokenDetails.textTokens, u.completionTokenDetails.imageTokens, u.completionTokenDetails.audioTokens] ++
    u.promptTokensDetails.counters ++ u.inputTokensDetails.elim [] InputTokenDetails.counters

/-! ## The sidecar -/

structure BillingUsage where
  source : String
  semantic : String
  estimated : Bool
  openAIUsage : Option Payload
  claudeUsage : Option ClaudePayload
deriving DecidableEq

structure ClaudeUsage extends ClaudePayload where
  billingUsage : Option BillingUsage := none
deriving DecidableEq

structure Usage extends Payload where
  billingUsage : Option BillingUsage := none
deriving DecidableEq

def Usage.withoutSidecar (usage : Usage) : Usage := { usage with billingUsage := none }

/-- `HasClaudeUsageTokens` and `HasOpenAIUsageTokens`. -/
def hasTokens (counters : List Int) : Bool := counters.any (· ≠ 0)

def newClaudeMessagesBillingUsage (usage : ClaudePayload) : Option BillingUsage :=
  if hasTokens usage.counters then some ⟨"claude_messages", "anthropic", false, none, some usage⟩ else none

def newOpenAIChatBillingUsage (usage : Payload) : Option BillingUsage :=
  if hasTokens usage.counters then some ⟨"oai_chat", "openai", false, some usage, none⟩ else none

/-! ## The bridge -/

def normalizeCacheCreationSplit (totalTokens tokens5m tokens1h : Int) : Int × Int :=
  let remainder := wrap64 (totalTokens - tokens5m - tokens1h)
  (wrap64 (tokens5m + if remainder < 0 then 0 else remainder), tokens1h)

def cacheCreationTokensForOpenAIUsage (usage : Payload) : Int :=
  let split := wrap64 (usage.claudeCacheCreation5mTokens + usage.claudeCacheCreation1hTokens)
  if split = 0 then usage.promptTokensDetails.cachedCreationTokens
  else if usage.promptTokensDetails.cachedCreationTokens > split then usage.promptTokensDetails.cachedCreationTokens
  else split

/-- `buildOpenAIStyleUsageFromClaudeUsage`. -/
def usageFromClaudeUsage (usage : Usage) : Usage :=
  let split := normalizeCacheCreationSplit usage.promptTokensDetails.cachedCreationTokens
    usage.claudeCacheCreation5mTokens usage.claudeCacheCreation1hTokens
  let cacheCreationTokens := cacheCreationTokensForOpenAIUsage usage.toPayload
  let totalInputTokens :=
    wrap64 (usage.promptTokens + usage.promptTokensDetails.cachedTokens + cacheCreationTokens)
  { usage with
    claudeCacheCreation5mTokens := split.1
    claudeCacheCreation1hTokens := split.2
    promptTokensDetails := { usage.promptTokensDetails with cacheWriteTokens := cacheCreationTokens }
    promptTokens := totalInputTokens
    inputTokens := totalInputTokens
    totalTokens := wrap64 (totalInputTokens + usage.completionTokens)
    usageSemantic := "openai"
    usageSource := "anthropic" }

def usageFromClaudeAPIUsage : Option ClaudeUsage → Usage
  | none => {}
  | some usage => usageFromClaudeUsage {
      promptTokens := usage.inputTokens
      completionTokens := usage.outputTokens
      usageSemantic := "anthropic"
      usageSource := "anthropic"
      billingUsage := usage.billingUsage.or (newClaudeMessagesBillingUsage usage.toClaudePayload)
      promptTokensDetails :=
        { cachedTokens := usage.cacheReadInputTokens, cachedCreationTokens := usage.cacheCreationInputTokens }
      claudeCacheCreation5mTokens := usage.getCacheCreation5mTokens
      claudeCacheCreation1hTokens := usage.getCacheCreation1hTokens }

/-- The Claude usage that a sidecar has kept. -/
def BillingUsage.claude (b : BillingUsage) : Option ClaudePayload :=
  if b.source = "claude_messages" ∨ b.semantic = "anthropic" then b.claudeUsage else none

def synthesizeClaudeUsage (usage : Usage) : ClaudeUsage :=
  let split := normalizeCacheCreationSplit usage.promptTokensDetails.cachedCreationTokens
    usage.claudeCacheCreation5mTokens usage.claudeCacheCreation1hTokens
  let cacheCreationTokens := usage.promptTokensDetails.cacheCreationTokensTotal
  let inputTokens := wrap64 (usage.promptTokens - usage.promptTokensDetails.cachedTokens - cacheCreationTokens)
  { inputTokens :=
      if usage.usageSemantic ≠ "anthropic" then if inputTokens < 0 then 0 else inputTokens else usage.promptTokens
    outputTokens := usage.completionTokens
    cacheCreationInputTokens := cacheCreationTokens
    cacheReadInputTokens := usage.promptTokensDetails.cachedTokens
    billingUsage := usage.billingUsage.or (newOpenAIChatBillingUsage usage.toPayload)
    cacheCreation := if 0 < split.1 ∨ 0 < split.2 then some ⟨split.1, split.2⟩ else none }

def usageFromOpenAI (usage : Option Usage) : Option ClaudeUsage :=
  usage.map fun usage =>
    match usage.billingUsage.bind BillingUsage.claude with
    | some payload => { payload with billingUsage := usage.billingUsage }
    | none => synthesizeClaudeUsage usage

end NewApi.Code.ClaudeUsages
