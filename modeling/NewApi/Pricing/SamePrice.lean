import Mathlib.Tactic.LinearCombination
import NewApi.Lib.Run
import NewApi.Pricing.Reading

/-!
# A converted model costs the same

An expression leaves some categories in the input; the ratios take all out of the prompt and clamp the rest at zero.
-/

namespace NewApi.Pricing

open Code.Pricing Run

section Clamp

variable {rest left extra : ℚ}

theorem ite_neg_eq_max (x : ℚ) : (if x < 0 then 0 else x) = max x 0 := by
  split
  · exact (max_eq_right (le_of_lt ‹_›)).symm
  · exact (max_eq_left (not_lt.mp ‹_›)).symm

theorem max_eq_iff_fits (hextra : 0 ≤ extra) (hle : extra ≤ left) :
    max (rest + extra) 0 = max (rest - left) 0 + left + extra ↔ left ≤ max rest 0 := by
  constructor
  · intro hsame
    by_contra hover
    have hrest : rest < left := (le_max_left rest 0).trans_lt (not_le.mp hover)
    have hclamped : max (rest + extra) 0 ≤ max rest 0 + extra :=
      max_le (add_le_add_left (le_max_left rest 0) extra) (add_nonneg (le_max_right rest 0) hextra)
    rw [hsame, max_eq_right (by linarith : rest - left ≤ 0)] at hclamped
    linarith
  · intro hfits
    rcases le_or_gt 0 rest with hrest | hrest
    · rw [max_eq_left hrest] at hfits
      rw [max_eq_left (by linarith), max_eq_left (by linarith)]
      ring
    rw [max_eq_right hrest.le] at hfits
    have hleft : left = 0 := le_antisymm hfits (hextra.trans hle)
    have hnone : extra = 0 := le_antisymm (hle.trans hfits) hextra
    rw [hleft, hnone]
    ring_nf

end Clamp

/-! ## The two engines -/

variable (used : Var → Bool)

section Engines

variable {settings : PricingSettings} {info : RelayInfo} {usage : Usage} {effective : EffectivePricing}
  {ratio writeRatio groupRatio : ℚ}

abbrev cached (usage : Usage) : ℚ := usage.promptTokensDetails.cachedTokens

abbrev written (usage : Usage) : ℚ := usage.promptTokensDetails.cacheCreationTokensTotal

abbrev images (usage : Usage) : ℚ := usage.promptTokensDetails.imageTokens

abbrev audio (usage : Usage) : ℚ := usage.promptTokensDetails.audioTokens

def ratioPrice (effective : EffectivePricing) (ratio writeRatio groupRatio : ℚ) : PriceData :=
  { modelPrice := -1
    modelRatio := ratio
    completionRatio := effective.completionRatio
    cacheRatio := effective.cacheRatio
    cacheCreationRatio := writeRatio
    cacheCreation5mRatio := writeRatio
    cacheCreation1hRatio := writeRatio * claudeCacheCreation1hMultiplier
    cacheCreation12hRatio := writeRatio * openAICacheCreation12hMultiplier
    imageRatio := effective.imageRatio
    otherRatios := []
    usePrice := false
    groupRatio }

theorem ratioPrice_writes (createCacheRatio : ℚ) :
    ratioPrice { effective with createCacheRatio } ratio writeRatio groupRatio =
      ratioPrice effective ratio writeRatio groupRatio := rfl

theorem write12h_bounds (d : InputTokenDetails) :
    0 ≤ d.cacheWrite12hTokens ∧ d.cacheWrite12hTokens ≤ d.cacheCreationTokensTotal := by
  have htotal : 0 ≤ d.cacheCreationTokensTotal := by
    unfold InputTokenDetails.cacheCreationTokensTotal
    dsimp only
    split <;> omega
  unfold InputTokenDetails.cacheWrite12hTokens
  split
  · exact ⟨le_rfl, htotal⟩
  · omega

/-- Those for 12 hours count twice. -/
def openAIWrites (usage : Usage) : ℚ :=
  let tokens12h : ℚ := usage.promptTokensDetails.cacheWrite12hTokens
  usage.promptTokensDetails.cacheCreationTokensTotal - tokens12h + tokens12h * openAICacheCreation12hMultiplier

/-- Cache writes beside the prompt: those for one hour count more. -/
def claudeWrites (usage : Usage) : ℚ :=
  let split := normalizeCacheCreationSplit usage.promptTokensDetails.cacheCreationTokensTotal
    usage.claudeCacheCreation5mTokens usage.claudeCacheCreation1hTokens
  split.1 + split.2 * claudeCacheCreation1hMultiplier

/-- Tokens of a prompt that includes everything, as the ratios weigh them. -/
def ratioTokens (effective : EffectivePricing) (writeRatio : ℚ) (usage : Usage) (audioTaken : ℚ) : ℚ :=
  max (usage.promptTokens - cached usage - written usage - images usage - audioTaken) 0 +
    cached usage * effective.cacheRatio + images usage * effective.imageRatio + openAIWrites usage * writeRatio +
    usage.completionTokens * effective.completionRatio

theorem writes_openAI : cachedCreationTokensWithRatio (ratioPrice effective ratio writeRatio groupRatio) usage false
        usage.promptTokensDetails.cacheCreationTokensTotal = openAIWrites usage * writeRatio := by
  obtain ⟨hlow, hhigh⟩ := write12h_bounds usage.promptTokensDetails
  unfold cachedCreationTokensWithRatio openAIWrites
  dsimp only
  split
  · rw [if_neg Bool.false_ne_true]
    simp only [ratioPrice]
    ring
  rename_i hguard
  have htotal : usage.promptTokensDetails.cacheCreationTokensTotal = 0 := by
    by_contra hne
    exact hguard (.inl hne)
  have hnone : usage.promptTokensDetails.cacheWrite12hTokens = 0 := by omega
  simp [htotal, hnone]

theorem writes_claude (h5m : 0 ≤ usage.claudeCacheCreation5mTokens) (h1h : 0 ≤ usage.claudeCacheCreation1hTokens) :
    cachedCreationTokensWithRatio (ratioPrice effective ratio writeRatio groupRatio) usage true
        usage.promptTokensDetails.cacheCreationTokensTotal = claudeWrites usage * writeRatio := by
  have hremaining : ∀ n : Int, (if n < 0 then 0 else n) = max n 0 := by
    intro n
    split <;> omega
  unfold cachedCreationTokensWithRatio claudeWrites normalizeCacheCreationSplit
  dsimp only
  split
  · rw [if_pos rfl, hremaining]
    simp only [ratioPrice]
    push_cast
    ring
  · have h5 : usage.claudeCacheCreation5mTokens = 0 := by omega
    have h1 : usage.claudeCacheCreation1hTokens = 0 := by omega
    have htotal : usage.promptTokensDetails.cacheCreationTokensTotal = 0 := by omega
    simp [h5, h1, htotal]

theorem textQuota_openAI {surcharge : ℚ} (hclaude : isClaudeUsageSemantic info usage = false)
    (hderived : isLegacyClaudeDerivedOpenAIUsage info usage = false) :
    calculateTextQuota settings info (ratioPrice effective ratio writeRatio groupRatio) usage surcharge =
      ratioTokens effective writeRatio usage
          (if 0 < getGeminiInputAudioPricePerMillionTokens info.billingModelName then audio usage else 0) *
        (ratio * groupRatio) +
      (if 0 < getGeminiInputAudioPricePerMillionTokens info.billingModelName then
        getGeminiInputAudioPricePerMillionTokens info.billingModelName / 1000000 *
          audio usage * groupRatio * settings.quotaPerUnit else 0) + surcharge := by
  have hbilled : billedTokens settings info (ratioPrice effective ratio writeRatio groupRatio) usage =
      (usage.promptTokens, usage.promptTokensDetails.cacheCreationTokensTotal) := by
    unfold billedTokens
    rw [hclaude]
    simp
  unfold calculateTextQuota
  rw [if_neg (by simp [ratioPrice]), hbilled, hclaude, hderived]
  dsimp only
  rw [Bool.or_false, writes_openAI, ite_neg_eq_max]
  simp [PriceData.applyOtherRatios, ratioPrice, ratioTokens]

theorem textQuota_claude {surcharge : ℚ} (hsemantic : usage.usageSemantic = some .anthropic)
    (hrouter : info.openRouter = false) (hprompt : 0 ≤ usage.promptTokens)
    (h5m : 0 ≤ usage.claudeCacheCreation5mTokens) (h1h : 0 ≤ usage.claudeCacheCreation1hTokens)
    (himage : usage.promptTokensDetails.imageTokens = 0) (haudio : usage.promptTokensDetails.audioTokens = 0) :
    calculateTextQuota settings info (ratioPrice effective ratio writeRatio groupRatio) usage surcharge =
      (usage.promptTokens + cached usage * effective.cacheRatio +
        claudeWrites usage * writeRatio + usage.completionTokens * effective.completionRatio) *
          (ratio * groupRatio) + surcharge := by
  have hclaude : isClaudeUsageSemantic info usage = true := by
    simp [isClaudeUsageSemantic, usageSemanticFromUsage, hsemantic]
  have hbilled : billedTokens settings info (ratioPrice effective ratio writeRatio groupRatio) usage =
      (usage.promptTokens, usage.promptTokensDetails.cacheCreationTokensTotal) := by
    unfold billedTokens
    rw [hrouter]
    simp
  have hpositive : (0 : ℚ) ≤ usage.promptTokens := by exact_mod_cast hprompt
  unfold calculateTextQuota
  rw [if_neg (by simp [ratioPrice]), hbilled, hclaude]
  dsimp only
  rw [Bool.true_or, writes_claude h5m h1h, ite_neg_eq_max]
  simp [PriceData.applyOtherRatios, ratioPrice, himage, haudio, hpositive]

theorem ite_sub_eq (b : Bool) (x y : ℚ) : (if b then x - y else x) = x - if b then y else 0 := by
  cases b
  · exact (sub_zero x).symm
  · rfl

theorem clamp_eq (t : TokenParams) : t.clamp = { t with p := max t.p 0, c := max t.c 0 } := by
  rw [TokenParams.clamp, ite_neg_eq_max, ite_neg_eq_max]

section

variable (tokens12h : ℚ) (t : TokenParams)

theorem split_kept : (splitOpenAITokens used tokens12h t).cr = t.cr ∧ (splitOpenAITokens used tokens12h t).img = t.img ∧
      (splitOpenAITokens used tokens12h t).ai = t.ai ∧ (splitOpenAITokens used tokens12h t).ao = t.ao :=
  ⟨rfl, rfl, rfl, rfl⟩

/-- A 12h write without a price counts once more. -/
theorem split_p (himgCR : used .imgCR = false) (h12h : used .cc12h = true → used .cc = true) (hcc1h : t.cc1h = 0) :
    (splitOpenAITokens used tokens12h t).p =
      t.p - ((if used .cr then t.cr else 0) + (if used .cc then t.cc else 0) + (if used .img then t.img else 0) +
        (if used .ai then t.ai else 0)) + (if used .cc then 0 else tokens12h) := by
  unfold splitOpenAITokens
  simp only [ite_sub_eq, himgCR, hcc1h]
  cases hcc : used .cc with
  | true =>
    cases used .cc12h <;> simp <;> ring
  | false =>
    have hlong : used .cc12h = false := Bool.eq_false_iff.mpr fun h => by simp [h12h h] at hcc
    simp [hlong, openAICacheCreation12hMultiplier]
    ring

theorem split_writes (h12h : used .cc12h = true → used .cc = true) (hcc1h : t.cc1h = 0) (price factor : ℚ) :
    let s := splitOpenAITokens used tokens12h t
    (if used .cc then s.cc * price else 0) + (if used .cc1h then s.cc1h * (price * factor) else 0) +
        (if used .cc12h then s.cc12h * (price * openAICacheCreation12hMultiplier) else 0) =
      if used .cc then (t.cc - tokens12h + tokens12h * openAICacheCreation12hMultiplier) * price else 0 := by
  unfold splitOpenAITokens
  simp only [hcc1h]
  cases hcc : used .cc with
  | true =>
    cases used .cc12h <;> simp
    ring
  | false =>
    have hlong : used .cc12h = false := Bool.eq_false_iff.mpr fun h => by simp [h12h h] at hcc
    simp [hlong]

end

/-- Where Claude has counted the prompt, what has no price is input. -/
theorem merge_writes (t : TokenParams) (h1h : used .cc1h = true → used .cc = true) (h12h : t.cc12h = 0)
    (price factor : ℚ) :
    let s := mergeClaudeTokens used t
    (if used .cc then s.cc * price else 0) +
        (if used .cc1h then s.cc1h * (price * claudeCacheCreation1hMultiplier) else 0) +
        (if used .cc12h then s.cc12h * (price * factor) else 0) =
      if used .cc then (t.cc + t.cc1h * claudeCacheCreation1hMultiplier) * price else 0 := by
  unfold mergeClaudeTokens
  simp only [h12h]
  cases hcc : used .cc with
  | true =>
    cases used .cc1h <;> simp
    ring
  | false =>
    have hlong : used .cc1h = false := Bool.eq_false_iff.mpr fun h => by simp [h1h h] at hcc
    simp [hlong]

theorem merge_p (t : TokenParams) (h1h : used .cc1h = true → used .cc = true) :
    (mergeClaudeTokens used t).p = t.p + (if used .cr then 0 else t.cr) +
      (if used .cc then 0 else t.cc + t.cc1h * claudeCacheCreation1hMultiplier) := by
  unfold mergeClaudeTokens
  cases hcc : used .cc with
  | true => cases used .cr <;> simp
  | false =>
    have hlong : used .cc1h = false := Bool.eq_false_iff.mpr fun h => by simp [h1h h] at hcc
    cases used .cr <;> simp [hlong]

end Engines

/-! ## The same price -/

section Same

variable {settings : PricingSettings} {info : RelayInfo} {usage : Usage} {effective : EffectivePricing}
  {mode : CacheWriteMode} {e : BillingExpr} {base audioPrice writeRatio : ℚ}

def takenOut (e : BillingExpr) (usage : Usage) : ℚ :=
  let d := usage.promptTokensDetails
  (if e.uses .cr then (d.cachedTokens : ℚ) else 0) + (if e.uses .cc then (d.cacheCreationTokensTotal : ℚ) else 0) +
    (if e.uses .img then (d.imageTokens : ℚ) else 0) + (if e.uses .ai then (d.audioTokens : ℚ) else 0)

def leftIn (e : BillingExpr) (usage : Usage) : ℚ :=
  let d := usage.promptTokensDetails
  (if e.uses .cr then 0 else (d.cachedTokens : ℚ)) + (if e.uses .cc then 0 else (d.cacheCreationTokensTotal : ℚ)) +
    (if e.uses .img then 0 else (d.imageTokens : ℚ))

def Fits (e : BillingExpr) (usage : Usage) : Prop := leftIn e usage ≤ max (usage.promptTokens - takenOut e usage) 0

instance (e : BillingExpr) (usage : Usage) : Decidable (Fits e usage) := inferInstanceAs (Decidable (_ ≤ _))

structure NonNegative (usage : Usage) : Prop where
  prompt : 0 ≤ usage.promptTokens
  completion : 0 ≤ usage.completionTokens
  cached : 0 ≤ usage.promptTokensDetails.cachedTokens
  image : 0 ≤ usage.promptTokensDetails.imageTokens
  audio : 0 ≤ usage.promptTokensDetails.audioTokens
  writes5m : 0 ≤ usage.claudeCacheCreation5mTokens
  writes1h : 0 ≤ usage.claudeCacheCreation1hTokens

def NoWrites (usage : Usage) : Prop :=
  usage.promptTokensDetails.cacheCreationTokensTotal = 0 ∧ usage.claudeCacheCreation5mTokens = 0 ∧
    usage.claudeCacheCreation1hTokens = 0

/-- Without a ratio of their own, writes cost as much as input. -/
def WritesAgree (e : BillingExpr) (effective : EffectivePricing) (usage : Usage) (writeRatio : ℚ) : Prop :=
  if e.uses .cc then writeRatio = effective.createCacheRatio else writeRatio = 1 ∨ NoWrites usage

theorem writes_of_agree (writes : ℚ) (h : WritesAgree e effective usage writeRatio)
    (hnone : NoWrites usage → writes = 0) :
    (if e.uses .cc then 0 else writes) + (if e.uses .cc then writes * effective.createCacheRatio else 0) =
      writes * writeRatio := by
  unfold WritesAgree at h
  split at h
  · rw [if_pos ‹_›, if_pos ‹_›, h, zero_add]
  rw [if_neg ‹_›, if_neg ‹_›]
  rcases h with h | h
  · rw [h, mul_one, add_zero]
  · rw [hnone h]
    ring

theorem kept_or_merged {b : Bool} {x price : ℚ} (h : b = false → price = 1) :
    (if b then 0 else x) + (if b then x * price else 0) = x * price := by
  cases b
  · simp [h rfl]
  · simp

theorem writes_need_cc (hconv : Converted e base effective mode audioPrice) {v : Var} (hv : v = .cc1h ∨ v = .cc12h)
    (h : e.uses v = true) : e.uses .cc = true := by
  rw [hconv.write v (.inr hv)] at h
  rw [hconv.write .cc (.inl rfl)]
  rcases hv with rfl | rfl <;> cases mode <;> first | rfl | cases h

def allTokens (usage : Usage) (cc cc1h len : ℚ) : TokenParams :=
  { p := usage.promptTokens
    c := usage.completionTokens
    len
    cr := usage.promptTokensDetails.cachedTokens
    cc, cc1h
    cc12h := 0
    img := usage.promptTokensDetails.imageTokens
    imgCR := 0
    imgO := usage.completionTokenDetails.imageTokens
    ai := usage.promptTokensDetails.audioTokens
    ao := usage.completionTokenDetails.audioTokens }

def openAITokens (usage : Usage) : TokenParams :=
  allTokens usage usage.promptTokensDetails.cacheCreationTokensTotal 0 usage.promptTokens

theorem build_openAI {used : Var → Bool} (himgCR : used .imgCR = false)
    (hsemantic : usage.usageSemantic ≠ some .anthropic) : buildTieredTokenParams usage false used =
      (splitOpenAITokens used usage.promptTokensDetails.cacheWrite12hTokens (openAITokens usage)).clamp := by
  have hreported : reportedTokens usage false used = openAITokens usage := by
    simp [reportedTokens, openAITokens, allTokens, himgCR, hsemantic]
  unfold buildTieredTokenParams
  rw [hreported]
  rfl

/-- Only one half of the double count is in the prompt. -/
def unpriced12h (e : BillingExpr) (usage : Usage) : ℚ :=
  if e.uses .cc then 0 else usage.promptTokensDetails.cacheWrite12hTokens

theorem unpriced12h_bounds (hcounts : NonNegative usage) :
    0 ≤ unpriced12h e usage ∧ unpriced12h e usage ≤ leftIn e usage := by
  obtain ⟨hlow, hhigh⟩ := write12h_bounds usage.promptTokensDetails
  have hpositive : (0 : ℚ) ≤ usage.promptTokensDetails.cacheWrite12hTokens := by exact_mod_cast hlow
  have hwrites : (usage.promptTokensDetails.cacheWrite12hTokens : ℚ) ≤
      usage.promptTokensDetails.cacheCreationTokensTotal := by exact_mod_cast hhigh
  have hcached : (0 : ℚ) ≤ usage.promptTokensDetails.cachedTokens := by exact_mod_cast hcounts.cached
  have himage : (0 : ℚ) ≤ usage.promptTokensDetails.imageTokens := by exact_mod_cast hcounts.image
  simp only [unpriced12h, leftIn]
  split_ifs <;> constructor <;> linarith

/-- The clamp takes it from an expression and not from the ratios. -/
def lostInput (e : BillingExpr) (usage : Usage) : ℚ :=
  max (usage.promptTokens - takenOut e usage - leftIn e usage) 0 + leftIn e usage + unpriced12h e usage -
    max (usage.promptTokens - takenOut e usage + unpriced12h e usage) 0

theorem lostInput_eq_zero_iff (hcounts : NonNegative usage) : lostInput e usage = 0 ↔ Fits e usage := by
  obtain ⟨hlow, hhigh⟩ := unpriced12h_bounds (e := e) hcounts
  unfold lostInput Fits
  rw [sub_eq_zero, eq_comm]
  exact max_eq_iff_fits hlow hhigh

theorem claudeWrites_nonneg (hcounts : NonNegative usage) : 0 ≤ claudeWrites usage := by
  have h5m : (0 : ℚ) ≤ usage.claudeCacheCreation5mTokens := by exact_mod_cast hcounts.writes5m
  have h1h : (0 : ℚ) ≤ usage.claudeCacheCreation1hTokens := by exact_mod_cast hcounts.writes1h
  have hremainder : ∀ n : Int, (0 : ℚ) ≤ ((if n < 0 then 0 else n : Int) : ℚ) := by
    intro n
    have : 0 ≤ if n < 0 then 0 else n := by
      split <;> omega
    exact_mod_cast this
  have hfactor : 0 ≤ claudeCacheCreation1hMultiplier := by
    unfold claudeCacheCreation1hMultiplier
    norm_num
  unfold claudeWrites normalizeCacheCreationSplit
  push_cast
  have := hremainder (usage.promptTokensDetails.cacheCreationTokensTotal - usage.claudeCacheCreation5mTokens -
    usage.claudeCacheCreation1hTokens)
  push_cast at this
  positivity

def claudeTokens (usage : Usage) : TokenParams :=
  let split := normalizeCacheCreationSplit usage.promptTokensDetails.cacheCreationTokensTotal
    usage.claudeCacheCreation5mTokens usage.claudeCacheCreation1hTokens
  allTokens usage split.1 split.2 (usage.promptTokens + usage.promptTokensDetails.cachedTokens + split.1 + split.2)

theorem build_claude (hsemantic : usage.usageSemantic = some .anthropic) :
    buildTieredTokenParams usage true used = (mergeClaudeTokens used (claudeTokens usage)).clamp := by
  have hreported : reportedTokens usage true used = claudeTokens usage := by
    simp [reportedTokens, claudeTokens, allTokens, hsemantic]
  unfold buildTieredTokenParams
  rw [hreported]
  rfl

theorem input_claude {used : Var → Bool} (hcounts : NonNegative usage) (h1h : used .cc1h = true → used .cc = true) :
    max (mergeClaudeTokens used (claudeTokens usage)).p 0 = usage.promptTokens +
      (if used .cr then 0 else cached usage) +
      (if used .cc then 0 else claudeWrites usage) := by
  have hprompt : (0 : ℚ) ≤ usage.promptTokens := by exact_mod_cast hcounts.prompt
  have hcached : (0 : ℚ) ≤ usage.promptTokensDetails.cachedTokens := by exact_mod_cast hcounts.cached
  have hpositive := claudeWrites_nonneg hcounts
  rw [merge_p _ _ h1h]
  refine max_eq_left ?_
  show (0 : ℚ) ≤ usage.promptTokens + (if used .cr then 0 else cached usage) +
    (if used .cc then 0 else claudeWrites usage)
  split_ifs <;> linarith

section

variable (hconv : Converted e base effective mode audioPrice)
  (haudio : e.uses .ao = true → usage.promptTokensDetails.audioTokens = 0 ∧
    usage.completionTokenDetails.audioTokens = 0)

include hconv haudio

theorem audio_taken :
    (if e.uses .ai then audio usage else 0) =
      if 0 < audioPrice then audio usage else 0 := by
  by_cases hprice : 0 < audioPrice
  · rw [if_pos (hconv.ai.mpr (.inl hprice)), if_pos hprice]
  rw [if_neg hprice]
  split
  · rename_i hai
    rcases hconv.ai.mp hai with hpositive | hao
    · exact absurd hpositive hprice
    · rw [audio, (haudio hao).1, Int.cast_zero]
  · rfl

theorem value_openAI (hcounts : NonNegative usage) (hsemantic : usage.usageSemantic ≠ some .anthropic) :
    e.eval (buildTieredTokenParams usage false fun v => e.uses v).get =
      base * (max (usage.promptTokens - takenOut e usage + unpriced12h e usage) 0 +
          usage.completionTokens * effective.completionRatio +
          (if e.uses .cr then cached usage * effective.cacheRatio else 0) +
          (if e.uses .cc then openAIWrites usage * effective.createCacheRatio else 0) +
          (if e.uses .img then images usage * effective.imageRatio else 0)) +
        (if 0 < audioPrice then audio usage * audioPrice else 0) := by
  have h12h : e.uses .cc12h = true → e.uses .cc = true := writes_need_cc hconv (.inr rfl)
  have hpositive : (0 : ℚ) ≤ usage.completionTokens := by exact_mod_cast hcounts.completion
  have hc : (splitOpenAITokens (fun v => e.uses v) usage.promptTokensDetails.cacheWrite12hTokens
      (openAITokens usage)).c = usage.completionTokens := by
    simp only [splitOpenAITokens, hconv.imgO]
    split
    · rename_i hao
      simp [openAITokens, allTokens, (haudio hao).2]
    · simp [openAITokens, allTokens]
  have hp := split_p (fun v => e.uses v) usage.promptTokensDetails.cacheWrite12hTokens (openAITokens usage) hconv.imgCR
    h12h rfl
  have hwrite := split_writes (fun v => e.uses v) usage.promptTokensDetails.cacheWrite12hTokens (openAITokens usage) h12h
    rfl effective.createCacheRatio claudeCacheCreation1hMultiplier
  obtain ⟨hcr, himg, hai, hao⟩ := split_kept (fun v => e.uses v) usage.promptTokensDetails.cacheWrite12hTokens
    (openAITokens usage)
  rw [build_openAI hconv.imgCR hsemantic, clamp_eq, hconv.value]
  · rw [hc, max_eq_left hpositive, hp, hcr, himg, hai]
    simp only [openAITokens, allTokens, takenOut, unpriced12h, openAIWrites] at hwrite ⊢
    linear_combination base * hwrite
  · intro huses
    rw [hai, hao]
    simp [openAITokens, allTokens, haudio huses]

theorem eval_openAI (hcounts : NonNegative usage) (hsemantic : usage.usageSemantic ≠ some .anthropic) (hwrites : WritesAgree e effective usage writeRatio) :
    e.eval (buildTieredTokenParams usage false fun v => e.uses v).get =
      base * (ratioTokens effective writeRatio usage (if 0 < audioPrice then audio usage else 0) - lostInput e usage) +
        (if 0 < audioPrice then audio usage * audioPrice else 0) := by
  have hall : usage.promptTokens - takenOut e usage - leftIn e usage =
      usage.promptTokens - cached usage - written usage - images usage -
        (if 0 < audioPrice then audio usage else 0) := by
    rw [← audio_taken hconv haudio]
    simp only [takenOut, leftIn]
    split_ifs <;> ring
  have hnone : NoWrites usage → openAIWrites usage = 0 := by
    intro hnone
    obtain ⟨hlow, hhigh⟩ := write12h_bounds usage.promptTokensDetails
    have hlong : usage.promptTokensDetails.cacheWrite12hTokens = 0 := by
      have := hnone.1
      omega
    simp [openAIWrites, hnone.1, hlong]
  have hleft : leftIn e usage + unpriced12h e usage =
      (if e.uses .cr then 0 else cached usage) +
        (if e.uses .cc then 0 else openAIWrites usage) +
        (if e.uses .img then 0 else images usage) := by
    simp only [leftIn, unpriced12h, openAIWrites, openAICacheCreation12hMultiplier]
    split_ifs <;> ring
  have hreads := kept_or_merged (x := cached usage) hconv.cr
  have himages := kept_or_merged (x := images usage) hconv.img
  have hagree := writes_of_agree (openAIWrites usage) hwrites hnone
  rw [value_openAI hconv haudio hcounts hsemantic, ratioTokens, lostInput, hall]
  linear_combination base * (hleft + hreads + himages + hagree)

theorem eval_claude (hcounts : NonNegative usage) (hsemantic : usage.usageSemantic = some .anthropic) (himage : usage.promptTokensDetails.imageTokens = 0)
    (hnoaudio : usage.promptTokensDetails.audioTokens = 0) (hwrites : WritesAgree e effective usage writeRatio) :
    e.eval (buildTieredTokenParams usage true fun v => e.uses v).get =
      base * (usage.promptTokens + cached usage * effective.cacheRatio +
        claudeWrites usage * writeRatio + usage.completionTokens * effective.completionRatio) := by
  have h1h : e.uses .cc1h = true → e.uses .cc = true := writes_need_cc hconv (.inl rfl)
  have hc : max (mergeClaudeTokens (fun v => e.uses v) (claudeTokens usage)).c 0 = usage.completionTokens := by
    refine max_eq_left ?_
    show (0 : ℚ) ≤ usage.completionTokens
    exact_mod_cast hcounts.completion
  have hwrite : _ = if e.uses .cc then claudeWrites usage * effective.createCacheRatio else 0 :=
    merge_writes (fun v => e.uses v) (claudeTokens usage) h1h rfl effective.createCacheRatio
      openAICacheCreation12hMultiplier
  have hnone : NoWrites usage → claudeWrites usage = 0 := by
    rintro ⟨htotal, h5m, h1h⟩
    simp [claudeWrites, normalizeCacheCreationSplit, htotal, h5m, h1h]
  have hreads := kept_or_merged (x := cached usage) hconv.cr
  have hagree := writes_of_agree (claudeWrites usage) hwrites hnone
  have hkept : (mergeClaudeTokens (fun v => e.uses v) (claudeTokens usage)).cr = cached usage ∧
      (mergeClaudeTokens (fun v => e.uses v) (claudeTokens usage)).img = 0 ∧
      (mergeClaudeTokens (fun v => e.uses v) (claudeTokens usage)).ai = 0 ∧
      (mergeClaudeTokens (fun v => e.uses v) (claudeTokens usage)).ao = usage.completionTokenDetails.audioTokens := by
    simp [mergeClaudeTokens, claudeTokens, allTokens, himage, hnoaudio]
  obtain ⟨hcr, himg, hai, hao⟩ := hkept
  rw [build_claude _ hsemantic, clamp_eq, hconv.value]
  · rw [input_claude hcounts h1h, hc, hcr, himg, hai]
    simp only [zero_mul, ite_self]
    linear_combination base * (hwrite + hreads + hagree)
  · intro huses
    rw [hai, hao]
    simp [haudio huses]

end

/-- The prompt has room for what the expression leaves in it, unless input is free. Claude counts no images and no
audio. -/
inductive SameUsage (e : BillingExpr) (ratio : ℚ) (info : RelayInfo) (usage : Usage) : Prop where
  | openAI (hclaude : isClaudeUsageSemantic info usage = false)
      (hderived : isLegacyClaudeDerivedOpenAIUsage info usage = false) (hfits : ratio = 0 ∨ Fits e usage)
  | claude (hsemantic : usage.usageSemantic = some .anthropic) (hrouter : info.openRouter = false)
      (himage : usage.promptTokensDetails.imageTokens = 0) (haudio : usage.promptTokensDetails.audioTokens = 0)

/-- Ordinary audio (`ao`) is settled elsewhere. -/
structure TextUsage (e : BillingExpr) (ratio : ℚ) (info : RelayInfo) (usage : Usage) : Prop where
  counts : NonNegative usage
  audio : e.uses .ao = true → usage.promptTokensDetails.audioTokens = 0 ∧ usage.completionTokenDetails.audioTokens = 0
  same : SameUsage e ratio info usage

theorem base_of_input {ratio : ℚ} (hbase : legacyInputPricePerMillion settings ratio = .ok base) :
    base / 1000000 * settings.quotaPerUnit = ratio := by
  unfold legacyInputPricePerMillion at hbase
  split at hbase
  · cases hbase
  · rename_i hunit
    split at hbase <;> cases hbase
    field_simp [(not_le.mp hunit).ne']

variable {ratio groupRatio surcharge : ℚ}

section OpenAI

variable (hbase : legacyInputPricePerMillion settings ratio = .ok base)
  (hconv : Converted e base effective mode (getGeminiInputAudioPricePerMillionTokens info.billingModelName))
  (hcounts : NonNegative usage)
  (haudio : e.uses .ao = true → usage.promptTokensDetails.audioTokens = 0 ∧
    usage.completionTokenDetails.audioTokens = 0)
  (hclaude : isClaudeUsageSemantic info usage = false) (hderived : isLegacyClaudeDerivedOpenAIUsage info usage = false)
  (hwrites : WritesAgree e effective usage writeRatio)

include hbase hconv hcounts haudio hclaude hderived hwrites

theorem tieredQuota_openAI : tieredQuota settings groupRatio info e usage surcharge =
      calculateTextQuota settings info (ratioPrice effective ratio writeRatio groupRatio) usage surcharge -
        ratio * groupRatio * lostInput e usage := by
  have hsemantic : usage.usageSemantic ≠ some .anthropic := by
    intro hanthropic
    simp [isClaudeUsageSemantic, usageSemanticFromUsage, hanthropic] at hclaude
  unfold tieredQuota
  dsimp only
  rw [hclaude, eval_openAI hconv haudio hcounts hsemantic hwrites, textQuota_openAI hclaude hderived,
    ← base_of_input hbase]
  split_ifs <;> ring

theorem same_price_iff_fits : tieredQuota settings groupRatio info e usage surcharge =
        calculateTextQuota settings info (ratioPrice effective ratio writeRatio groupRatio) usage surcharge ↔
      ratio = 0 ∨ groupRatio = 0 ∨ Fits e usage := by
  rw [tieredQuota_openAI hbase hconv hcounts haudio hclaude hderived hwrites, sub_eq_self, mul_eq_zero, mul_eq_zero,
    lostInput_eq_zero_iff hcounts, or_assoc]

end OpenAI

theorem tiered_eq_ratios (hbase : legacyInputPricePerMillion settings ratio = .ok base)
    (hconv : Converted e base effective mode (getGeminiInputAudioPricePerMillionTokens info.billingModelName))
    (husage : TextUsage e ratio info usage) (hwrites : WritesAgree e effective usage writeRatio) :
    tieredQuota settings groupRatio info e usage surcharge =
      calculateTextQuota settings info (ratioPrice effective ratio writeRatio groupRatio) usage surcharge := by
  obtain ⟨hcounts, haudio, hsame⟩ := husage
  cases hsame with
  | openAI hclaude hderived hfits =>
    exact (same_price_iff_fits hbase hconv hcounts haudio hclaude hderived hwrites).mpr (hfits.imp_right .inr)
  | claude hsemantic hrouter himage hnoaudio =>
    have hclaude : isClaudeUsageSemantic info usage = true := by
      simp [isClaudeUsageSemantic, usageSemanticFromUsage, hsemantic]
    unfold tieredQuota
    dsimp only
    rw [hclaude, eval_claude hconv haudio hcounts hsemantic himage hnoaudio hwrites,
      textQuota_claude hsemantic hrouter hcounts.prompt hcounts.writes5m hcounts.writes1h himage hnoaudio,
      ← base_of_input hbase]
    ring

end Same

/-! ## Conversions -/

section Conversions

variable {settings : PricingSettings} {routing : Routing} {values : PricingMaps} {name : String}
  {draft : PricingValues} {e : BillingExpr}

theorem of_expression (h : previewModelPricingConversion settings routing values name draft = .ok (.expression e)) :
    ∃ ratio base, (effectiveModelPricing settings (replaceModelPricing values name draft) name).modelPrice = none ∧
      (effectiveModelPricing settings (replaceModelPricing values name draft) name).modelRatio = some ratio ∧
      legacyInputPricePerMillion settings ratio = .ok base ∧
      Converted e base (effectiveModelPricing settings (replaceModelPricing values name draft) name)
        (resolveCacheWriteMode name draft) (getGeminiInputAudioPricePerMillionTokens name) := by
  obtain ⟨-, -, h⟩ := ok_of_bind h
  split at h
  · cases h
  obtain ⟨-, -, h⟩ := ok_of_bind h
  dsimp only at h
  split at h
  · cases h
  split at h
  · cases h
  · cases h
  · cases h
  rename_i ratio _ hprice hratio
  obtain ⟨base, hbase, h⟩ := ok_of_bind h
  obtain rfl : convertRatios base _ _ _ = e := by
    simpa [pure, Except.pure] using h
  exact ⟨ratio, base, hprice, hratio, hbase, convertRatios_converted hprice hratio hbase⟩

theorem modelPriceHelper_eq {ratio : ℚ} (groupRatio : ℚ)
    (hprice : (effectiveModelPricing settings values name).modelPrice = none)
    (hratio : (effectiveModelPricing settings values name).modelRatio = some ratio) :
    modelPriceHelper settings values name groupRatio = some (ratioPrice (effectiveModelPricing settings values name)
      ratio (effectiveModelPricing settings values name).createCacheRatio groupRatio) := by
  unfold effectiveModelPricing at hprice hratio
  dsimp only at hprice hratio
  unfold modelPriceHelper
  dsimp only
  rw [hprice]
  split at hratio
  · rename_i hself
    cases hratio
    rw [if_neg (by simp [hself.2]), hself.1]
    rfl
  · rw [if_neg (by simp [hratio]), hratio]
    rfl

def writesAsInput (name : String) (draft : PricingValues) : PricingValues :=
  if resolveCacheWriteMode name draft = .none then { draft with createCacheRatio := some 1 } else draft

theorem effective_writesAsInput (settings : PricingSettings) (values : PricingMaps) (name : String)
    (draft : PricingValues) :
    effectiveModelPricing settings (replaceModelPricing values name (writesAsInput name draft)) name =
      { effectiveModelPricing settings (replaceModelPricing values name draft) name with
        createCacheRatio := if resolveCacheWriteMode name draft = .none then 1 else
          (effectiveModelPricing settings (replaceModelPricing values name draft) name).createCacheRatio } := by
  unfold writesAsInput effectiveModelPricing replaceModelPricing
  generalize formatMatchingModelName name = matching
  by_cases hmode : resolveCacheWriteMode name draft = .none
  · by_cases hname : matching = name
    · simp only [hmode, hname, if_true]
      rfl
    · simp only [hmode, hname, if_true, if_false]
      rfl
  · simp only [hmode, if_false]

end Conversions

def sampleSettings : PricingSettings := ⟨500000, false, fun _ => (1, false), fun _ => none⟩

def noPrices : PricingMaps := fun _ => ⟨none, none, none, none, none, none, none, none, none⟩

def sampleDraft (cacheRatio createCacheRatio : Option ℚ) : PricingValues :=
  ⟨none, some 2, none, cacheRatio, createCacheRatio, none, none, none, none⟩

def sampleUsage (usageSemantic : UsageSemantic) (cachedTokens cacheWriteTokens imageTokens : Int) : Usage :=
  ⟨1000, 100, some usageSemantic, "", ⟨cachedTokens, none, 0, cacheWriteTokens, none, 0, imageTokens⟩, ⟨0, 0⟩, 0, 0, 0⟩

def sampleExpr : BillingExpr := .label "base" ((term .p 4).plus [(.c, 4), (.cr, 2)])

def bothQuotas (name : String) (draft : PricingValues) (openRouter : Bool) (usage : Usage) : Option (ℚ × ℚ) :=
  let info : RelayInfo := ⟨name, false, openRouter⟩
  match previewModelPricingConversion sampleSettings ⟨false, [], []⟩ noPrices name draft,
    modelPriceHelper sampleSettings (replaceModelPricing noPrices name draft) name 1 with
  | .ok (.expression e), some price =>
    some (calculateTextQuota sampleSettings info price usage 0, tieredQuota sampleSettings 1 info e usage 0)
  | _, _ => none

end NewApi.Pricing



