import NewApi.Pricing.SamePrice

/-!
# Every token is billed once

What has a price of its own is taken out of the prompt, and `p` is what is left.
-/

namespace NewApi.Pricing

open Code.Pricing

def inputVars : List Var := [.cr, .cc, .cc1h, .cc12h, .img, .imgCR, .ai]

def outputVars : List Var := [.imgO, .ao]

variable (used : Var → Bool)

def priced (t : TokenParams) (vars : List Var) : ℚ :=
  vars.foldr (fun v sum => (if used v then t.get v else 0) + sum) 0

/-- Only 12h writes without a price of their own have it. -/
def extraWeight (tokens12h : ℚ) : ℚ :=
  if used .cc12h then 0 else tokens12h * (openAICacheCreation12hMultiplier - 1)

structure Counts (usage : Usage) : Prop extends NonNegative usage where
  outputImage : 0 ≤ usage.completionTokenDetails.imageTokens
  outputAudio : 0 ≤ usage.completionTokenDetails.audioTokens

/-- The categories are disjoint parts of the prompt and of the completion. -/
structure Partitioned (usage : Usage) : Prop extends Counts usage where
  input : usage.promptTokensDetails.cachedTokens + usage.promptTokensDetails.cacheCreationTokensTotal +
    usage.promptTokensDetails.imageTokens + usage.promptTokensDetails.audioTokens ≤ usage.promptTokens
  output : usage.completionTokenDetails.imageTokens + usage.completionTokenDetails.audioTokens ≤ usage.completionTokens

theorem ite_bounds (b : Bool) {x : ℚ} (h : 0 ≤ x) : 0 ≤ (if b then x else 0) ∧ (if b then x else 0) ≤ x := by
  cases b <;> simp [h]

section Split

variable (tokens12h : ℚ) (t : TokenParams)

theorem split_input : (splitOpenAITokens used tokens12h t).p +
    priced used (splitOpenAITokens used tokens12h t) inputVars = t.p + extraWeight used tokens12h := by
  simp only [splitOpenAITokens, priced, inputVars, extraWeight, List.foldr, TokenParams.get, ite_sub_eq]
  -- The other categories are taken out as they are; the writes depend on which of them have a price.
  cases used .cc <;> cases used .cc12h <;> simp <;> ring

theorem split_output : (splitOpenAITokens used tokens12h t).c +
    priced used (splitOpenAITokens used tokens12h t) outputVars = t.c := by
  simp only [splitOpenAITokens, priced, outputVars, List.foldr, TokenParams.get, ite_sub_eq]
  ring

variable {tokens12h t}

theorem split_p_nonneg (h12h : 0 ≤ tokens12h) (hcc : tokens12h ≤ t.cc) (hcr : 0 ≤ t.cr) (hcc1h : 0 ≤ t.cc1h)
    (himg : 0 ≤ t.img) (himgCR : 0 ≤ t.imgCR) (hai : 0 ≤ t.ai)
    (hfits : t.cr + t.cc + t.cc1h + t.img + t.imgCR + t.ai ≤ t.p) : 0 ≤ (splitOpenAITokens used tokens12h t).p := by
  have hcr := ite_bounds (used .cr) hcr
  have hcc1h := ite_bounds (used .cc1h) hcc1h
  have himg := ite_bounds (used .img) himg
  have himgCR := ite_bounds (used .imgCR) himgCR
  have hai := ite_bounds (used .ai) hai
  simp only [splitOpenAITokens, openAICacheCreation12hMultiplier, ite_sub_eq]
  cases used .cc <;> cases used .cc12h <;> simp only [Bool.false_eq_true, if_true, if_false] <;> linarith

theorem split_c_nonneg (himgO : 0 ≤ t.imgO) (hao : 0 ≤ t.ao) (hfits : t.imgO + t.ao ≤ t.c) :
    0 ≤ (splitOpenAITokens used tokens12h t).c := by
  have himgO := ite_bounds (used .imgO) himgO
  have hao := ite_bounds (used .ao) hao
  simp only [splitOpenAITokens, ite_sub_eq]
  linarith

end Split

section Reported

variable {usage : Usage}

theorem cachedImage_bounds (hcounts : Counts usage) : 0 ≤ (cachedImageTokens usage).getD 0 ∧
    (cachedImageTokens usage).getD 0 ≤ usage.promptTokensDetails.cachedTokens ∧
    (cachedImageTokens usage).getD 0 ≤ usage.promptTokensDetails.imageTokens := by
  cases h : cachedImageTokens usage with
  | none => exact ⟨le_rfl, hcounts.cached, hcounts.image⟩
  | some =>
    obtain ⟨_, -, h⟩ := Option.bind_eq_some_iff.mp h
    obtain ⟨_, -, h⟩ := Option.bind_eq_some_iff.mp h
    obtain ⟨hvalid, hsome⟩ := Option.ite_none_right_eq_some.mp h
    cases hsome
    exact ⟨hvalid.1, hvalid.2.1, hvalid.2.2.1⟩

theorem reported_nonneg (hcounts : Counts usage) (claude : Bool) (v : Var) :
    0 ≤ (reportedTokens usage claude used).get v := by
  obtain ⟨hlow, hcached, himage⟩ := cachedImage_bounds hcounts
  have hwrites := write12h_bounds usage.promptTokensDetails
  have hprompt : (0 : ℚ) ≤ usage.promptTokens := Int.cast_nonneg hcounts.prompt
  have hcr : 0 ≤ (reportedTokens usage claude used).cr := by
    unfold reportedTokens
    dsimp only
    split
    · exact sub_nonneg.mpr (by exact_mod_cast hcached)
    · exact sub_nonneg.mpr (by exact_mod_cast hcounts.cached)
  have hcc : 0 ≤ (reportedTokens usage claude used).cc := by
    have h5m := hcounts.writes5m
    unfold reportedTokens normalizeCacheCreationSplit
    dsimp only
    split
    · norm_cast
      split <;> omega
    · exact_mod_cast hwrites.1.trans hwrites.2
  have hcc1h : 0 ≤ (reportedTokens usage claude used).cc1h := by
    unfold reportedTokens normalizeCacheCreationSplit
    dsimp only
    split
    · exact_mod_cast hcounts.writes1h
    · exact le_rfl
  cases v with
  | p => exact hprompt
  | c => exact Int.cast_nonneg hcounts.completion
  | len =>
    cases claude with
    | true => exact add_nonneg (add_nonneg (add_nonneg hprompt hcr) hcc) hcc1h
    | false => exact hprompt
  | cr => exact hcr
  | cc => exact hcc
  | cc1h => exact hcc1h
  | cc12h => exact le_rfl
  | img =>
    simp only [TokenParams.get, reportedTokens]
    split
    · exact sub_nonneg.mpr (by exact_mod_cast himage)
    · exact sub_nonneg.mpr (by exact_mod_cast hcounts.image)
  | imgCR =>
    simp only [TokenParams.get, reportedTokens]
    split
    · exact_mod_cast hlow
    · exact le_rfl
  | imgO => exact Int.cast_nonneg hcounts.outputImage
  | ai => exact Int.cast_nonneg hcounts.audio
  | ao => exact Int.cast_nonneg hcounts.outputAudio

section

variable (hsemantic : usage.usageSemantic ≠ some .anthropic)
include hsemantic

theorem reported_openAI : (reportedTokens usage false used).cc = usage.promptTokensDetails.cacheCreationTokensTotal ∧
      (reportedTokens usage false used).cc1h = 0 := by
  simp [reportedTokens, hsemantic]

theorem writes_fit : (0 : ℚ) ≤ usage.promptTokensDetails.cacheWrite12hTokens ∧
      usage.promptTokensDetails.cacheWrite12hTokens ≤ (reportedTokens usage false used).cc := by
  obtain ⟨hlow, hhigh⟩ := write12h_bounds usage.promptTokensDetails
  rw [(reported_openAI used hsemantic).1]
  exact ⟨by exact_mod_cast hlow, by exact_mod_cast hhigh⟩

theorem build_partitioned (h : Partitioned usage) : buildTieredTokenParams usage false used =
      splitOpenAITokens used usage.promptTokensDetails.cacheWrite12hTokens (reportedTokens usage false used) := by
  have hreported := reported_nonneg used h.toCounts false
  obtain ⟨hcc, hcc1h⟩ := reported_openAI used hsemantic
  obtain ⟨hlow, hhigh⟩ := writes_fit used hsemantic
  have hinput : (usage.promptTokensDetails.cachedTokens : ℚ) + usage.promptTokensDetails.cacheCreationTokensTotal +
      usage.promptTokensDetails.imageTokens + usage.promptTokensDetails.audioTokens ≤ usage.promptTokens := by
    exact_mod_cast h.input
  have houtput : (usage.completionTokenDetails.imageTokens : ℚ) + usage.completionTokenDetails.audioTokens ≤
      usage.completionTokens := by exact_mod_cast h.output
  have hp : 0 ≤ (splitOpenAITokens used usage.promptTokensDetails.cacheWrite12hTokens
      (reportedTokens usage false used)).p := by
    refine split_p_nonneg used hlow hhigh (hreported .cr) hcc1h.ge (hreported .img) (hreported .imgCR) (hreported .ai) ?_
    have himgCR := hreported .imgCR
    rw [hcc, hcc1h]
    simp only [TokenParams.get, reportedTokens] at himgCR ⊢
    linarith
  have hc : 0 ≤ (splitOpenAITokens used usage.promptTokensDetails.cacheWrite12hTokens
      (reportedTokens usage false used)).c := 
    split_c_nonneg used (hreported .imgO) (hreported .ao) houtput
  unfold buildTieredTokenParams
  simp only [Bool.false_eq_true, if_false]
  rw [clamp_eq, max_eq_left hp, max_eq_left hc]

end

theorem clamp_nonneg {t : TokenParams} (h : ∀ v, v ≠ .p → v ≠ .c → 0 ≤ t.get v) (v : Var) : 0 ≤ t.clamp.get v := by
  have hv := h v
  rw [clamp_eq]
  cases v with
  | p | c => exact le_max_right _ _
  | len | cr | cc | cc1h | cc12h | img | imgCR | imgO | ai | ao => exact hv (by decide) (by decide)

theorem split_nonneg (hcounts : Counts usage) (hsemantic : usage.usageSemantic ≠ some .anthropic) (v : Var) :
    0 ≤ (buildTieredTokenParams usage false used).get v := by
  have hreported := reported_nonneg used hcounts false
  obtain ⟨hlow, hhigh⟩ := writes_fit used hsemantic
  refine clamp_nonneg (fun v hp hc => ?_) v
  have hv := hreported v
  cases v with
  | p | c => contradiction
  | cc =>
    simp only [TokenParams.get, splitOpenAITokens, openAICacheCreation12hMultiplier]
    cases used .cc <;> cases used .cc12h <;> simp only [Bool.false_eq_true, if_true, if_false, le_refl] <;> linarith
  | cc12h => exact (ite_bounds (used .cc12h) hlow).1
  | len | cr | cc1h | img | imgCR | imgO | ai | ao => exact hv

theorem merge_nonneg (hcounts : Counts usage) (v : Var) : 0 ≤ (buildTieredTokenParams usage true used).get v := by
  have hreported := reported_nonneg used hcounts true
  refine clamp_nonneg (fun v hp hc => ?_) v
  have hv := hreported v
  cases v with
  | p | c => contradiction
  | cc =>
    have hcc : 0 ≤ (reportedTokens usage true used).cc := hreported .cc
    have hcc1h : 0 ≤ (reportedTokens usage true used).cc1h := hreported .cc1h
    simp only [TokenParams.get, mergeClaudeTokens, claudeCacheCreation1hMultiplier]
    cases used .cc <;> cases used .cc1h <;> simp only [Bool.false_eq_true, if_true, if_false, le_refl] <;> linarith
  | cc1h => exact (ite_bounds (used .cc1h) (hreported .cc1h)).1
  | len | cr | cc12h | img | imgCR | imgO | ai | ao => exact hv

end Reported

/-- Of 300 writes 100 are for 12 hours, which have no price. -/
def mixedUsage : Usage :=
  ⟨1000, 50, some .openai, "", ⟨200, none, 0, 300, some 100, 60, 40⟩, ⟨10, 20⟩, 0, 0, 0⟩

end NewApi.Pricing

