import NewApi.Code.ClaudeUsage

/-!
# Claude usage across the OpenAI bridge

The way back takes off what the way there has added, so the counters survive without the sidecar.
-/

namespace NewApi.Relay.UsageBridge

open GoTime Code.ClaudeUsages

abbrev NonNegative (u : ClaudePayload) : Prop := ∀ n ∈ u.counters, 0 ≤ n

/-- The total, or the sum of the split where that is larger. -/
def cacheWrites (u : ClaudePayload) : Int :=
  max u.cacheCreationInputTokens (u.getCacheCreation5mTokens + u.getCacheCreation1hTokens)

variable {total tokens5m tokens1h : Int}

section

variable (htotal : 0 ≤ total) (h5m : 0 ≤ tokens5m) (h1h : 0 ≤ tokens1h)
  (hfits : max total (tokens5m + tokens1h) < 2 ^ 63)
include htotal h5m h1h hfits

/-- Writes that no bucket names go to the 5m bucket. -/
theorem normalizeCacheCreationSplit_eq :
    normalizeCacheCreationSplit total tokens5m tokens1h = (max tokens5m (total - tokens1h), tokens1h) := by
  have hremainder : wrap64 (total - tokens5m - tokens1h) = total - tokens5m - tokens1h :=
    wrap64_eq (by omega) (by omega)
  simp only [normalizeCacheCreationSplit, hremainder, Prod.mk.injEq, and_true]
  rw [wrap64_eq (by split <;> omega) (by split <;> omega)]
  split <;> omega

/-- A split that has been normalised stays as it is. -/
theorem normalizeCacheCreationSplit_normalized :
    normalizeCacheCreationSplit total (max tokens5m (total - tokens1h)) tokens1h =
      (max tokens5m (total - tokens1h), tokens1h) := by
  rw [normalizeCacheCreationSplit_eq htotal (by omega) h1h (by omega)]
  simp

end

theorem cacheCreationTokens_eq {usage : Payload}
    (htotal : 0 ≤ usage.promptTokensDetails.cachedCreationTokens) (h5m : 0 ≤ usage.claudeCacheCreation5mTokens)
    (h1h : 0 ≤ usage.claudeCacheCreation1hTokens)
    (hfits : usage.claudeCacheCreation5mTokens + usage.claudeCacheCreation1hTokens < 2 ^ 63) :
    cacheCreationTokensForOpenAIUsage usage = max usage.promptTokensDetails.cachedCreationTokens
      (usage.claudeCacheCreation5mTokens + usage.claudeCacheCreation1hTokens) := by
  unfold cacheCreationTokensForOpenAIUsage
  rw [wrap64_eq (by omega) hfits]
  dsimp only
  split
  · omega
  · split <;> omega

theorem split_of_object {p : ClaudePayload} {a b : Int} (ha : 0 ≤ a) (hb : 0 ≤ b)
    (hp : p.cacheCreation = if 0 < a ∨ 0 < b then some ⟨a, b⟩ else none) :
    p.getCacheCreation5mTokens = a ∧ p.getCacheCreation1hTokens = b := by
  unfold ClaudePayload.getCacheCreation5mTokens ClaudePayload.getCacheCreation1hTokens
  rw [hp]
  split
  · exact ⟨rfl, rfl⟩
  · simp only [Option.map_none, Option.getD_none]
    omega

/-- For a prompt that fits into 64 bits. -/
structure Bridged (u : ClaudePayload) (mapped : Payload) : Prop where
  prompt : mapped.promptTokens = u.inputTokens + u.cacheReadInputTokens + cacheWrites u
  completion : mapped.completionTokens = u.outputTokens
  cached : mapped.promptTokensDetails.cachedTokens = u.cacheReadInputTokens
  created : mapped.promptTokensDetails.cachedCreationTokens = u.cacheCreationInputTokens
  written : mapped.promptTokensDetails.cacheWriteTokens = cacheWrites u
  tokens5m : mapped.claudeCacheCreation5mTokens =
    max u.getCacheCreation5mTokens (u.cacheCreationInputTokens - u.getCacheCreation1hTokens)
  tokens1h : mapped.claudeCacheCreation1hTokens = u.getCacheCreation1hTokens
  openai : mapped.usageSemantic = "openai"

section

variable {u : ClaudeUsage} (hu : NonNegative u.toClaudePayload)
  (hfits : u.inputTokens + u.cacheReadInputTokens + cacheWrites u.toClaudePayload < 2 ^ 63)

include hu hfits

theorem bridged : Bridged u.toClaudePayload (usageFromClaudeAPIUsage (some u)).toPayload := by
  simp only [NonNegative, ClaudePayload.counters, List.forall_mem_cons] at hu
  obtain ⟨hinput, -, htotal, hread, -, -, h5m, h1h, -⟩ := hu
  unfold cacheWrites at hfits
  have hsplit := normalizeCacheCreationSplit_eq htotal h5m h1h (by omega)
  simp only [usageFromClaudeAPIUsage, usageFromClaudeUsage, hsplit]
  rw [cacheCreationTokens_eq htotal h5m h1h (by dsimp only; omega)]
  exact ⟨wrap64_eq (by dsimp only; omega) hfits, rfl, rfl, rfl, rfl, rfl, rfl, rfl⟩

theorem Bridged.synthesized (mapped : Usage) (h : Bridged u.toClaudePayload mapped.toPayload) :
    (synthesizeClaudeUsage mapped).inputTokens = u.inputTokens ∧
      (synthesizeClaudeUsage mapped).cacheCreationInputTokens = cacheWrites u.toClaudePayload ∧
      (synthesizeClaudeUsage mapped).getCacheCreation5mTokens =
        max u.getCacheCreation5mTokens (u.cacheCreationInputTokens - u.getCacheCreation1hTokens) ∧
      (synthesizeClaudeUsage mapped).getCacheCreation1hTokens = u.getCacheCreation1hTokens := by
  simp only [NonNegative, ClaudePayload.counters, List.forall_mem_cons] at hu
  obtain ⟨hinput, -, htotal, hread, -, -, h5m, h1h, -⟩ := hu
  have hwrites : cacheWrites u.toClaudePayload =
    max u.cacheCreationInputTokens (u.getCacheCreation5mTokens + u.getCacheCreation1hTokens) := rfl
  have hall : mapped.promptTokensDetails.cacheCreationTokensTotal = cacheWrites u.toClaudePayload := by
    unfold InputTokenDetails.cacheCreationTokensTotal
    rw [h.written, h.created]
    dsimp only
    split <;> omega
  refine ⟨?_, hall, split_of_object (by omega) h1h ?_⟩
  · simp only [synthesizeClaudeUsage, h.openai, h.prompt, h.cached, hall]
    rw [if_pos (by decide), wrap64_eq (by omega) (by omega)]
    split <;> omega
  · simp only [synthesizeClaudeUsage, h.created, h.tokens5m, h.tokens1h]
    rw [normalizeCacheCreationSplit_normalized htotal h5m h1h (by omega)]

end

def splitUsage : ClaudeUsage where
  inputTokens := 10
  outputTokens := 7
  cacheCreationInputTokens := 9
  cacheReadInputTokens := 4
  cacheCreation := some ⟨2, 3⟩

/-- Two buckets of 2^62 tokens have no sum in 64 bits. -/
def largeUsage : ClaudeUsage where
  cacheCreation := some ⟨2 ^ 62, 2 ^ 62⟩

end NewApi.Relay.UsageBridge

