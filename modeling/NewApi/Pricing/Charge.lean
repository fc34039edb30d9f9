import NewApi.Code.TextQuota
import NewApi.Pricing.SamePrice

/-!
# What a text request is charged

Counts that do not fit together take the input below zero, where it is clamped.
-/

namespace NewApi.Pricing

open Code.Pricing

/-! ## The surcharge of tools -/

section Surcharge

variable {settings : PricingSettings} {getToolPrice : String → ℚ} {groupRatio : ℚ} {modelName : String}
  {tools : ToolUsage} {items merged : List ToolSurchargeItem} {item : ToolSurchargeItem}

def Charged (items : List ToolSurchargeItem) : Prop := ∀ item ∈ items, 0 < item.count ∧ 0 < item.price

theorem charged_cons : Charged (item :: items) ↔ (0 < item.count ∧ 0 < item.price) ∧ Charged items := by
  simp [Charged]

theorem charged_collect (name : String) (count : Int) (price : ℚ) (h : Charged items) :
    Charged (collectToolSurchargeItem items name count price) := by
  unfold collectToolSurchargeItem
  split
  · exact h
  split
  · exact h
  rename_i hcount hprice
  intro item hitem
  rcases List.mem_append.mp hitem with hitem | hitem
  · exact h item hitem
  · rw [List.mem_singleton.mp hitem]
    exact ⟨not_le.mp hcount, not_le.mp hprice⟩

theorem charged_foldl (getToolPrice : String → ℚ) (built : List (String × Int)) (h : Charged items) :
    Charged (built.foldl (fun items tool =>
      collectToolSurchargeItem items tool.1 (min tool.2 maxBillableToolCallCount) (getToolPrice tool.1)) items) := by
  induction built generalizing items with
  | nil => exact h
  | cons tool built ih => exact ih (charged_collect _ _ _ h)

theorem charged_mergeSorted (h : Charged items) (hmerged : Charged merged) : Charged (mergeSorted merged items) := by
  induction items generalizing merged with
  | nil =>
    cases merged <;> exact fun item hitem => hmerged item (List.mem_reverse.mp hitem)
  | cons item items ih =>
    rw [charged_cons] at h
    cases merged with
    | nil => exact ih h.2 (charged_cons.mpr ⟨h.1, hmerged⟩)
    | cons =>
      unfold mergeSorted
      split
      · apply ih h.2
        obtain ⟨hlast, hrest⟩ := charged_cons.mp hmerged
        refine charged_cons.mpr ⟨⟨?_, hlast.2⟩, hrest⟩
        dsimp only
        split
        · decide
        · exact add_pos hlast.1 h.1.1
      · exact ih h.2 (charged_cons.mpr ⟨h.1, hmerged⟩)

theorem charged_items : Charged (toolSurchargeItems getToolPrice modelName tools) := by
  have hnone : Charged [] := fun _ hitem => absurd hitem List.not_mem_nil
  have hbuilt := charged_foldl getToolPrice tools.builtInTools hnone
  refine charged_mergeSorted (fun item hitem => ?_) hnone
  rw [sortToolSurchargeItems, List.mem_insertionSort] at hitem
  split at hitem
  · exact charged_collect _ _ _ hbuilt item hitem
  · exact hbuilt item hitem

theorem roundHalfAway_nonneg {value : ℚ} (h : 0 ≤ value) : 0 ≤ roundHalfAway value := by
  rw [roundHalfAway, if_pos h]
  exact Int.floor_nonneg.mpr (by linarith)

theorem decimalDiv_nonneg {a b : ℚ} (ha : 0 ≤ a) (hb : 0 ≤ b) : 0 ≤ decimalDiv a b := by
  have hround := roundHalfAway_nonneg (mul_nonneg (div_nonneg ha hb) (by positivity : (0 : ℚ) ≤ 10 ^ 16))
  exact div_nonneg (by exact_mod_cast hround) (by positivity)

theorem surcharge_nonneg (getToolPrice : String → ℚ) (modelName : String) (tools : ToolUsage) (hgroup : 0 ≤ groupRatio)
    (hunit : 0 ≤ settings.quotaPerUnit) :
    0 ≤ calculateTextToolCallSurcharge settings getToolPrice groupRatio modelName tools := by
  have hsum : ∀ (items : List ToolSurchargeItem) (sum : ℚ), Charged items → 0 ≤ sum →
      0 ≤ items.foldl (fun surcharge item =>
        surcharge + decimalDiv (item.price * item.count) 1000 * groupRatio * settings.quotaPerUnit) sum := by
    intro items
    induction items with
    | nil => exact fun _ _ hsum => hsum
    | cons item items ih =>
      intro sum hitems hsum
      obtain ⟨⟨hcount, hprice⟩, hrest⟩ := charged_cons.mp hitems
      have hcount' : (0 : ℚ) ≤ item.count := by exact_mod_cast hcount.le
      have hpart := decimalDiv_nonneg (mul_nonneg hprice.le hcount') (by norm_num : (0 : ℚ) ≤ 1000)
      exact ih _ hrest (add_nonneg hsum (mul_nonneg (mul_nonneg hpart hgroup) hunit))
  exact hsum _ 0 charged_items le_rfl

end Surcharge

/-! ## The amount -/

section Amount

variable {settings : PricingSettings} {info : RelayInfo} {price : PriceData} {usage : Usage} {s : TextQuotaSummary}
  {surcharge : ℚ}

/-- The price of a request counts only where the model has one. -/
structure NonNegativeRatios (price : PriceData) : Prop where
  modelPrice : price.usePrice = true → 0 ≤ price.modelPrice
  modelRatio : 0 ≤ price.modelRatio
  groupRatio : 0 ≤ price.groupRatio
  completion : 0 ≤ price.completionRatio
  cache : 0 ≤ price.cacheRatio
  image : 0 ≤ price.imageRatio
  write : 0 ≤ price.cacheCreationRatio
  write5m : 0 ≤ price.cacheCreation5mRatio
  write1h : 0 ≤ price.cacheCreation1hRatio
  write12h : 0 ≤ price.cacheCreation12hRatio

structure Countable (s : TextQuotaSummary) : Prop where
  completion : 0 ≤ s.completionTokens
  cached : 0 ≤ s.cacheTokens
  image : 0 ≤ s.imageTokens
  audio : 0 ≤ s.audioTokens
  writes5m : 0 ≤ s.cacheCreationTokens5m
  writes1h : 0 ≤ s.cacheCreationTokens1h
  writes12h : 0 ≤ s.cacheCreationTokens12h
  writes : s.cacheCreationTokens12h ≤ s.cacheCreationTokens

theorem countable_summarize (hcounts : NonNegative { usage with promptTokens := 0 }) :
    Countable (summarize settings info price usage surcharge) := by
  obtain ⟨h12h, hwrites⟩ := write12h_bounds usage.promptTokensDetails
  unfold summarize
  dsimp only
  split
  · rename_i hrouter
    -- Claude counts no writes for twelve hours, and an estimate is only taken if it is not negative.
    have hnone : ¬ (isClaudeUsageSemantic info usage = false ∧
        isLegacyClaudeDerivedOpenAIUsage info usage = false) := by simp [hrouter.2]
    refine ⟨hcounts.completion, hcounts.cached, hcounts.image, hcounts.audio, hcounts.writes5m, hcounts.writes1h, ?_, ?_⟩
    · rw [if_neg hnone]
    rw [if_neg hnone]
    split
    · rename_i hestimate
      exact hestimate.2.2.2.1
    · exact h12h.trans hwrites
  · refine ⟨hcounts.completion, hcounts.cached, hcounts.image, hcounts.audio, hcounts.writes5m, hcounts.writes1h, ?_, ?_⟩
    all_goals dsimp only; split <;> omega

theorem baseTokens_nonneg (audioInputPrice : ℚ) : 0 ≤ s.baseTokens audioInputPrice := by
  unfold TextQuotaSummary.baseTokens
  rw [ite_neg_eq_max]
  exact le_max_right _ 0

theorem writes_nonneg (hprice : NonNegativeRatios price) (hs : Countable s) :
    0 ≤ s.cachedCreationTokensWithRatio price := by
  have h5m : (0 : ℚ) ≤ s.cacheCreationTokens5m := by exact_mod_cast hs.writes5m
  have h1h : (0 : ℚ) ≤ s.cacheCreationTokens1h := by exact_mod_cast hs.writes1h
  have h12h : (0 : ℚ) ≤ s.cacheCreationTokens12h := by exact_mod_cast hs.writes12h
  have hrest : (0 : ℚ) ≤ s.cacheCreationTokens - s.cacheCreationTokens12h :=
    sub_nonneg.mpr (by exact_mod_cast hs.writes)
  unfold TextQuotaSummary.cachedCreationTokensWithRatio
  split
  · split
    · exact add_nonneg (mul_nonneg hrest hprice.write) (mul_nonneg h12h hprice.write12h)
    · have hremaining (n : Int) : (0 : ℚ) ≤ (max n 0 : Int) := by exact_mod_cast le_max_right n 0
      exact add_nonneg (add_nonneg (mul_nonneg (hremaining _) hprice.write) (mul_nonneg h5m hprice.write5m))
        (mul_nonneg h1h hprice.write1h)
  · exact le_rfl

theorem applyOtherRatios_nonneg {value : ℚ} (h : 0 ≤ value) : 0 ≤ price.applyOtherRatios value := by
  unfold PriceData.applyOtherRatios
  induction price.otherRatios generalizing value with
  | nil => exact h
  | cons ratio ratios ih =>
    apply ih
    dsimp only
    split
    · rename_i hratio
      exact mul_nonneg h hratio.1.le
    · exact h

theorem tokenQuota_nonneg (info : RelayInfo) (hprice : NonNegativeRatios price) (hunit : 0 ≤ settings.quotaPerUnit) (hs : Countable s) :
    0 ≤ s.tokenQuota settings info price := by
  unfold TextQuotaSummary.tokenQuota
  split
  · exact applyOtherRatios_nonneg
      (mul_nonneg (mul_nonneg (hprice.modelPrice ‹_›) hunit) hprice.groupRatio)
  have hcompletion : (0 : ℚ) ≤ s.completionTokens := by exact_mod_cast hs.completion
  have hcached : (0 : ℚ) ≤ s.cacheTokens := by exact_mod_cast hs.cached
  have himage : (0 : ℚ) ≤ s.imageTokens := by exact_mod_cast hs.image
  have haudio : (0 : ℚ) ≤ s.audioTokens := by exact_mod_cast hs.audio
  apply applyOtherRatios_nonneg
  apply add_nonneg
  · refine mul_nonneg (add_nonneg ?_ (mul_nonneg hcompletion hprice.completion))
      (mul_nonneg hprice.modelRatio hprice.groupRatio)
    exact add_nonneg (add_nonneg (add_nonneg (baseTokens_nonneg _) (mul_nonneg hcached hprice.cache))
      (mul_nonneg himage hprice.image)) (writes_nonneg hprice hs)
  · split
    · have hrate : (0 : ℚ) ≤ getGeminiInputAudioPricePerMillionTokens info.billingModelName / 1000000 :=
        div_nonneg (le_of_lt ‹_›) (by norm_num)
      exact mul_nonneg (mul_nonneg (mul_nonneg hrate haudio) hprice.groupRatio) hunit
    · exact le_rfl

theorem quotaFromDecimal_nonneg {value : ℚ} (h : 0 ≤ value) : 0 ≤ quotaFromDecimal value := by
  have hround := roundHalfAway_nonneg h
  unfold quotaFromDecimal maxQuota
  omega

theorem minimum_charge {billable : Bool} {ratio : ℚ} {quota : Int} (hquota : 0 ≤ quota) :
    let charged := if billable = false then 0 else if ratio ≠ 0 ∧ quota = 0 then 1 else quota
    0 ≤ charged ∧ (ratio ≠ 0 → billable = true → 1 ≤ charged) := by
  cases billable with
  | false => exact ⟨le_rfl, fun _ h => absurd h Bool.false_ne_true⟩
  | true =>
    rw [if_neg (by decide)]
    split
    · exact ⟨by decide, fun _ _ => le_rfl⟩
    rename_i hcharged
    refine ⟨hquota, fun hratio _ => ?_⟩
    have hsome : quota ≠ 0 := fun hzero => hcharged ⟨hratio, hzero⟩
    omega

end Amount

/-! ## Counts that do not wrap around -/

section InRange

variable (settings : PricingSettings) (info : RelayInfo) (price : PriceData) (surcharge : ℚ) {usage : Usage}

theorem wrapInt_eq {n : Int} (hlow : -2 ^ 63 ≤ n) (hhigh : n < 2 ^ 63) : wrapInt n = n := by
  unfold wrapInt
  omega

structure InRange (usage : Usage) : Prop extends NonNegative usage where
  total : usage.promptTokens + usage.completionTokens < 2 ^ 63
  input : usage.promptTokensDetails.cachedTokens + usage.promptTokensDetails.cacheCreationTokensTotal < 2 ^ 63
  writes : usage.claudeCacheCreation5mTokens + usage.claudeCacheCreation1hTokens < 2 ^ 63

/-- The unbounded model of the prices and the summary bill the same tokens. -/
theorem summarize_billed (h : InRange usage) :
    (summarize settings info price usage surcharge).promptTokens = (billedTokens settings info price usage).1 ∧
      (summarize settings info price usage surcharge).cacheCreationTokens =
        (billedTokens settings info price usage).2 := by
  have htotal := write12h_bounds usage.promptTokensDetails
  obtain ⟨⟨hprompt, hcompletion, hcached, -, -, -, -⟩, hsum, hinput, -⟩ := h
  unfold summarize billedTokens
  dsimp only
  split
  · have hrest : wrapInt (usage.promptTokens - usage.promptTokensDetails.cachedTokens) =
        usage.promptTokens - usage.promptTokensDetails.cachedTokens := wrapInt_eq (by omega) (by omega)
    rw [hrest]
    refine ⟨?_, rfl⟩
    apply wrapInt_eq <;> split <;> omega
  · exact ⟨rfl, rfl⟩

theorem billed_writes_bounds (h : InRange usage) :
    0 ≤ (billedTokens settings info price usage).2 ∧ (billedTokens settings info price usage).2 < 2 ^ 63 := by
  have htotal := write12h_bounds usage.promptTokensDetails
  obtain ⟨⟨hprompt, hcompletion, hcached, -, -, -, -⟩, hsum, hinput, -⟩ := h
  unfold billedTokens
  dsimp only
  split
  · split <;> omega
  · omega

/-- Only the prompt and the cache writes depend on the channel. -/
theorem summarize_kept (usage : Usage) : ∃ promptTokens cacheCreationTokens,
    summarize settings info price usage surcharge = {
      promptTokens, cacheCreationTokens
      completionTokens := usage.completionTokens
      totalTokens := wrapInt (usage.promptTokens + usage.completionTokens)
      cacheTokens := usage.promptTokensDetails.cachedTokens
      cacheCreationTokens5m := usage.claudeCacheCreation5mTokens
      cacheCreationTokens1h := usage.claudeCacheCreation1hTokens
      cacheCreationTokens12h :=
        if isClaudeUsageSemantic info usage = false ∧ isLegacyClaudeDerivedOpenAIUsage info usage = false then
          usage.promptTokensDetails.cacheWrite12hTokens
        else 0
      imageTokens := usage.promptTokensDetails.imageTokens
      audioTokens := usage.promptTokensDetails.audioTokens
      isClaudeUsageSemantic := isClaudeUsageSemantic info usage
      legacyClaudeDerived := isLegacyClaudeDerivedOpenAIUsage info usage
      toolCallSurchargeQuota := surcharge
      fixedPriceBilling := false
      quota := 0 } := by
  unfold summarize
  dsimp only
  split <;> exact ⟨_, _, rfl⟩

theorem summarize_writes (h : InRange usage) :
    (summarize settings info price usage surcharge).cachedCreationTokensWithRatio price =
      cachedCreationTokensWithRatio price usage
        (isClaudeUsageSemantic info usage || isLegacyClaudeDerivedOpenAIUsage info usage)
        (billedTokens settings info price usage).2 := by
  obtain ⟨hlow, hhigh⟩ := billed_writes_bounds settings info price h
  have hbilled := (summarize_billed settings info price surcharge h).2
  obtain ⟨_, _, hkept⟩ := summarize_kept settings info price surcharge usage
  obtain ⟨⟨-, -, -, -, -, h5m, h1h⟩, -, -, hsplit⟩ := h
  rw [hkept] at hbilled ⊢
  subst hbilled
  have hremaining : wrapInt (wrapInt ((billedTokens settings info price usage).2 - usage.claudeCacheCreation5mTokens) -
      usage.claudeCacheCreation1hTokens) = (billedTokens settings info price usage).2 -
        usage.claudeCacheCreation5mTokens - usage.claudeCacheCreation1hTokens := by
    rw [wrapInt_eq (n := _ - usage.claudeCacheCreation5mTokens) (by omega) (by omega)]
    exact wrapInt_eq (by omega) (by omega)
  unfold TextQuotaSummary.cachedCreationTokensWithRatio cachedCreationTokensWithRatio
  rw [hremaining]
  cases isClaudeUsageSemantic info usage <;> cases isLegacyClaudeDerivedOpenAIUsage info usage <;> simp

theorem tokenQuota_eq_textQuota (h : InRange usage) :
    (summarize settings info price usage surcharge).tokenQuota settings info price + surcharge =
      calculateTextQuota settings info price usage surcharge := by
  obtain ⟨hprompt, hbilled⟩ := summarize_billed settings info price surcharge h
  have hwrites := summarize_writes settings info price surcharge h
  obtain ⟨_, _, hkept⟩ := summarize_kept settings info price surcharge usage
  rw [hkept] at hprompt hbilled hwrites ⊢
  unfold TextQuotaSummary.tokenQuota calculateTextQuota
  rw [hwrites]
  subst hprompt hbilled
  split <;> rfl

theorem billable_of_tokens (h : InRange usage) (htokens : 0 < usage.promptTokens + usage.completionTokens) :
    (summarize settings info price usage surcharge).hasBillableUsage = true := by
  obtain ⟨_, _, hkept⟩ := summarize_kept settings info price surcharge usage
  have hlow := h.total
  rw [hkept]
  simp [TextQuotaSummary.hasBillableUsage, wrapInt_eq (by omega) hlow, htokens]

end InRange

/-! ## The charge -/

section Charge

variable (settings : PricingSettings) (getToolPrice : String → ℚ) (info : RelayInfo) (price : PriceData)
  (tools : ToolUsage) (estimatePromptTokens : Int) (usage : Option Usage)

theorem countable_usage (hcounts : ∀ u, usage = some u → NonNegative u) (surcharge : ℚ) :
    Countable (summarize settings info price (usage.getD (estimatedUsage estimatePromptTokens)) surcharge) := by
  apply countable_summarize
  cases usage with
  | none => constructor <;> exact le_rfl
  | some u =>
    obtain ⟨-, hcompletion, hcached, himage, haudio, h5m, h1h⟩ := hcounts u rfl
    exact ⟨le_rfl, hcompletion, hcached, himage, haudio, h5m, h1h⟩

/-- What can be billed costs something unless the model is free. -/
theorem charge_nonneg (hprice : NonNegativeRatios price) (hunit : 0 ≤ settings.quotaPerUnit)
    (hcounts : ∀ u, usage = some u → NonNegative u) :
    let summary := calculateTextQuotaSummary settings getToolPrice info price tools estimatePromptTokens usage
    0 ≤ summary.quota ∧
      (price.modelRatio * price.groupRatio ≠ 0 → summary.hasBillableUsage = true → 1 ≤ summary.quota) := by
  have hsurcharge := surcharge_nonneg getToolPrice info.billingModelName tools hprice.groupRatio hunit
  have htokens := tokenQuota_nonneg info hprice hunit
    (countable_usage settings info price estimatePromptTokens usage hcounts
      (calculateTextToolCallSurcharge settings getToolPrice price.groupRatio info.billingModelName tools))
  refine minimum_charge (quotaFromDecimal_nonneg ?_)
  split
  · exact zero_le_one
  · exact add_nonneg htokens hsurcharge

/-- More is cached than the prompt has. -/
theorem charge_nonneg_overlap : ∃ summary : TextQuotaSummary,
    summary = calculateTextQuotaSummary ⟨500000, false, fun _ => (1, false), fun _ => none⟩ (fun _ => 10)
      ⟨"gpt-4o", false, false⟩ ⟨-1, 5 / 4, 4, 1 / 2, 5 / 4, 5 / 4, 2, 5 / 2, 1, [], false, 1⟩
      ⟨[("web_search", 2)], true⟩ 0 (some ⟨10, 0, none, "", ⟨90, none, 0, 40, some 30, 5, 7⟩, ⟨0, 0⟩, 0, 0, 0⟩) ∧
    summary.promptTokens < summary.cacheTokens ∧ 1 ≤ summary.quota := by
  refine ⟨_, rfl, by decide +kernel, (charge_nonneg _ _ _ _ _ _ _ ?_ ?_ ?_).2 ?_ ?_⟩
  · constructor <;> decide +kernel
  · decide +kernel
  · rintro u ⟨rfl⟩
    constructor <;> decide +kernel
  · decide +kernel
  · decide +kernel

end Charge

end NewApi.Pricing
