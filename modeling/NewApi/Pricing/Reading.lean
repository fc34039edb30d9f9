import NewApi.Code.Conversion

/-!
# Reading a converted expression

Later modules know a converted expression by `Converted` only.
-/

namespace NewApi.Pricing

open Formulas Code.Pricing

/-! ## The lanes -/

section Lanes

variable {base : ℚ} {effective : EffectivePricing} {mode : CacheWriteMode} {details : LegacyBillingDetails}
  {branches : Bool}

/-- Where audio has no branch, no other category could have a price. -/
def Plain (effective : EffectivePricing) (mode : CacheWriteMode) (details : LegacyBillingDetails) (branches : Bool) :
    Prop :=
  details.audioOutputPrice.isSome → branches = false →
    mode = .none ∧ effective.cacheRatio = 1 ∧ effective.imageRatio = 1

theorem sum_tokenLanes (env : Var → ℚ) :
    ((tokenLanes base effective mode details branches).map fun t => env t.1 * t.2).sum =
      base * (env .c * effective.completionRatio +
        (if laneKept base effective mode details branches .cr effective.cacheRatio then
          env .cr * effective.cacheRatio else 0) +
        (if laneKept base effective mode details branches .cc effective.createCacheRatio then
          env .cc * effective.createCacheRatio else 0) +
        (if laneKept base effective mode details branches .cc1h effective.createCacheRatio then
          env .cc1h * (effective.createCacheRatio * claudeCacheCreation1hMultiplier) else 0) +
        (if laneKept base effective mode details branches .cc12h effective.createCacheRatio then
          env .cc12h * (effective.createCacheRatio * openAICacheCreation12hMultiplier) else 0) +
        (if laneKept base effective mode details branches .img effective.imageRatio then
          env .img * effective.imageRatio else 0)) := by
  have hc : laneKept base effective mode details branches .c effective.completionRatio = true := by
    simp [laneKept]
  unfold tokenLanes
  rw [List.map_map, sum_map_filter]
  simp only [List.map_cons, List.map_nil, List.sum_cons, List.sum_nil, Function.comp, hc, if_true]
  simp only [mul_add, mul_ite, mul_zero]
  ring_nf

theorem any_tokenLanes (v : Var) : ((tokenLanes base effective mode details branches).any fun t => t.1 = v) =
      match v with
      | .c => true
      | .cr => laneKept base effective mode details branches .cr effective.cacheRatio
      | .cc => laneKept base effective mode details branches .cc effective.createCacheRatio
      | .cc1h => laneKept base effective mode details branches .cc1h effective.createCacheRatio
      | .cc12h => laneKept base effective mode details branches .cc12h effective.createCacheRatio
      | .img => laneKept base effective mode details branches .img effective.imageRatio
      | _ => false := by
  have hc : laneKept base effective mode details branches .c effective.completionRatio = true := by
    simp [laneKept]
  unfold tokenLanes
  rw [List.any_map, List.any_filter]
  cases v <;> simp [hc]

theorem ratio_of_merged {v : Var} {ratio : ℚ} (hplain : Plain effective mode details branches)
    (hv : v = .cr ∧ ratio = effective.cacheRatio ∨ v = .img ∧ ratio = effective.imageRatio)
    (h : laneKept base effective mode details branches v ratio = false) : ratio = 1 := by
  unfold laneKept at h
  split at h
  · rename_i haudio
    obtain ⟨-, hcache, himage⟩ := hplain haudio.1 haudio.2.1
    rcases hv with ⟨-, hratio⟩ | ⟨-, hratio⟩
    · exact hratio.trans hcache
    · exact hratio.trans himage
  · rw [if_neg (by rcases hv with ⟨rfl, -⟩ | ⟨rfl, -⟩ <;> simp)] at h
    split at h
    · rename_i hmerge
      exact hmerge.2
    · cases h

def writeLane (mode : CacheWriteMode) (v : Var) : Bool :=
  match mode, v with
  | .none, _ => false
  | _, .cc | .claudeTTL, .cc1h | .openAITTL, .cc12h => true
  | _, _ => false

theorem laneKept_write {v : Var} (ratio : ℚ) (hplain : Plain effective mode details branches)
    (hv : v = .cc ∨ v = .cc1h ∨ v = .cc12h) :
    laneKept base effective mode details branches v ratio = writeLane mode v := by
  unfold laneKept
  split
  · rename_i haudio
    rw [(hplain haudio.1 haudio.2.1).1]
    rfl
  · rcases hv with rfl | rfl | rfl <;> cases mode <;> simp [writeLane]

end Lanes

/-! ## The expression -/

section Expression

variable {settings : PricingSettings} {name : String} {base ratio : ℚ} {effective : EffectivePricing}
  {draft : PricingValues} {details : LegacyBillingDetails}

theorem details_cases (hprice : effective.modelPrice = none) (hratio : effective.modelRatio = some ratio)
    (hbase : legacyInputPricePerMillion settings ratio = .ok base)
    (hdetails : resolveLegacyBillingDetails settings name effective draft = details) :
    (0 < getGeminiInputAudioPricePerMillionTokens name ∧
      details.audioInputPrice = some (getGeminiInputAudioPricePerMillionTokens name) ∧
      details.audioOutputPrice = none ∧ details.audioTextBranches = false) ∨
    (¬ 0 < getGeminiInputAudioPricePerMillionTokens name ∧
      (details = .empty ∨
        details.audioInputPrice.isSome ∧ details.audioOutputPrice.isSome ∧
        (details.audioTextBranches = false → resolveCacheWriteMode name draft = .none ∧ effective.cacheRatio = 1 ∧
          effective.imageRatio = 1))) := by
  unfold resolveLegacyBillingDetails at hdetails
  rw [hprice, hratio] at hdetails
  simp only [hbase] at hdetails
  split at hdetails
  · rename_i hgemini
    subst hdetails
    exact .inl ⟨hgemini, rfl, rfl, rfl⟩
  rename_i hgemini
  refine .inr ⟨hgemini, ?_⟩
  split at hdetails
  · exact .inl hdetails.symm
  subst hdetails
  refine .inr ⟨rfl, rfl, ?_⟩
  intro hplain
  simpa [and_comm, and_assoc] using hplain

/-- Ordinary audio (`ao`) has a branch of its own, which is not looked at here. -/
structure Converted (e : BillingExpr) (base : ℚ) (effective : EffectivePricing) (mode : CacheWriteMode)
    (audioPrice : ℚ) : Prop where
  value : ∀ t : TokenParams, (e.uses .ao = true → t.ai = 0 ∧ t.ao = 0) →
    e.eval t.get = base * (t.p + t.c * effective.completionRatio +
      (if e.uses .cr then t.cr * effective.cacheRatio else 0) +
      (if e.uses .cc then t.cc * effective.createCacheRatio else 0) +
      (if e.uses .cc1h then t.cc1h * (effective.createCacheRatio * claudeCacheCreation1hMultiplier) else 0) +
      (if e.uses .cc12h then t.cc12h * (effective.createCacheRatio * openAICacheCreation12hMultiplier) else 0) +
      (if e.uses .img then t.img * effective.imageRatio else 0)) + (if 0 < audioPrice then t.ai * audioPrice else 0)
  cr : e.uses .cr = false → effective.cacheRatio = 1
  img : e.uses .img = false → effective.imageRatio = 1
  write : ∀ v, v = .cc ∨ v = .cc1h ∨ v = .cc12h → e.uses v = writeLane mode v
  imgCR : e.uses .imgCR = false
  imgO : e.uses .imgO = false
  ai : e.uses .ai = true ↔ 0 < audioPrice ∨ e.uses .ao = true
  ao : e.uses .ao = true → ¬ 0 < audioPrice

variable {mode : CacheWriteMode} {branches : Bool}

theorem uses_textBranch (v : Var) : (textBranch base effective mode details branches).uses v =
    (decide (Var.p = v) || ((tokenLanes base effective mode details branches).any fun t => t.1 = v) ||
      (audioLanes details branches).any fun t => t.1 = v) := by
  unfold textBranch
  rw [Formula.uses, uses_plus, List.any_append, term, Formula.uses, Formula.uses, Formula.uses, Bool.or_false,
    Bool.or_assoc]

theorem eval_textBranch (env : Var → ℚ) : (textBranch base effective mode details branches).eval env =
    env .p * base + ((tokenLanes base effective mode details branches).map fun t => env t.1 * t.2).sum +
      ((audioLanes details branches).map fun t => env t.1 * t.2).sum := by
  unfold textBranch
  rw [Formula.eval, eval_plus, List.map_append, List.sum_append, term, Formula.eval, Formula.eval, Formula.eval,
    add_assoc]

theorem any_audioLanes (v : Var) : ((audioLanes details branches).any fun t => t.1 = v) =
    (!branches && (details.audioInputPrice.isSome && decide (Var.ai = v) ||
      details.audioOutputPrice.isSome && decide (Var.ao = v))) := by
  unfold audioLanes
  cases branches <;> cases details.audioInputPrice <;> cases details.audioOutputPrice <;> simp

theorem converted_of_text {e : BillingExpr} {audioPrice : ℚ} (hplain : Plain effective mode details branches)
    (huses : ∀ v, v ≠ .len → v ≠ .ai → v ≠ .ao →
      e.uses v = (textBranch base effective mode details branches).uses v)
    (hvalue : ∀ t : TokenParams, (e.uses .ao = true → t.ai = 0 ∧ t.ao = 0) →
      e.eval t.get = t.p * base + ((tokenLanes base effective mode details branches).map fun l => t.get l.1 * l.2).sum +
        (if 0 < audioPrice then t.ai * audioPrice else 0))
    (hai : e.uses .ai = true ↔ 0 < audioPrice ∨ e.uses .ao = true) (hao : e.uses .ao = true → ¬ 0 < audioPrice) :
    Converted e base effective mode audioPrice := by
  have hlane : ∀ v, v ≠ .p → v ≠ .len → v ≠ .ai → v ≠ .ao →
      e.uses v = (tokenLanes base effective mode details branches).any fun t => t.1 = v := by
    intro v hp hlen hvai hvao
    have haudio : ((audioLanes details branches).any fun t => t.1 = v) = false := by
      rw [any_audioLanes]
      simp [Ne.symm hvai, Ne.symm hvao]
    rw [huses v hlen hvai hvao, uses_textBranch, haudio]
    simp [Ne.symm hp]
  have hcr := (hlane .cr (by decide) (by decide) (by decide) (by decide)).trans (any_tokenLanes .cr)
  have hcc := (hlane .cc (by decide) (by decide) (by decide) (by decide)).trans (any_tokenLanes .cc)
  have hcc1h := (hlane .cc1h (by decide) (by decide) (by decide) (by decide)).trans (any_tokenLanes .cc1h)
  have hcc12h := (hlane .cc12h (by decide) (by decide) (by decide) (by decide)).trans (any_tokenLanes .cc12h)
  have himg := (hlane .img (by decide) (by decide) (by decide) (by decide)).trans (any_tokenLanes .img)
  constructor
  · intro t haudio
    rw [hvalue t haudio, sum_tokenLanes, hcr, hcc, hcc1h, hcc12h, himg]
    simp only [TokenParams.get]
    ring
  · intro hmerged
    exact ratio_of_merged hplain (.inl ⟨rfl, rfl⟩) (hcr.symm.trans hmerged)
  · intro hmerged
    exact ratio_of_merged hplain (.inr ⟨rfl, rfl⟩) (himg.symm.trans hmerged)
  · rintro v (rfl | rfl | rfl)
    · exact hcc.trans (laneKept_write _ hplain (.inl rfl))
    · exact hcc1h.trans (laneKept_write _ hplain (.inr (.inl rfl)))
    · exact hcc12h.trans (laneKept_write _ hplain (.inr (.inr rfl)))
  · exact (hlane .imgCR (by decide) (by decide) (by decide) (by decide)).trans (any_tokenLanes .imgCR)
  · exact (hlane .imgO (by decide) (by decide) (by decide) (by decide)).trans (any_tokenLanes .imgO)
  · exact hai
  · exact hao

section

variable (houtput : details.audioOutputPrice = none) (hbranches : details.audioTextBranches = false)
include houtput hbranches

theorem convertRatios_text :
    convertRatios base effective mode details = textBranch base effective mode details false := by
  unfold convertRatios
  split <;> simp_all

theorem converted_text {audioPrice : ℚ}
    (hinput : details.audioInputPrice = some audioPrice ∧ 0 < audioPrice ∨ details.audioInputPrice = none ∧ ¬ 0 < audioPrice)
    : Converted (convertRatios base effective mode details) base effective mode audioPrice := by
  rw [convertRatios_text houtput hbranches]
  have hplain : Plain effective mode details false := by
    intro hsome
    rw [houtput] at hsome
    cases hsome
  have hao : (textBranch base effective mode details false).uses .ao = false := by
    rw [uses_textBranch, any_tokenLanes, any_audioLanes, houtput]
    simp
  refine converted_of_text hplain (fun _ _ _ _ => rfl) ?_ ?_ ?_
  · intro t _
    rw [eval_textBranch]
    congr 1
    unfold audioLanes
    rcases hinput with ⟨hsome, hpositive⟩ | ⟨hnone, hnot⟩
    · simp [hsome, houtput, hpositive, TokenParams.get]
    · simp [hnone, houtput, hnot]
  · rw [hao, uses_textBranch, any_tokenLanes, any_audioLanes, houtput]
    rcases hinput with ⟨hsome, hpositive⟩ | ⟨hnone, hnot⟩
    · simp [hsome, hpositive]
    · simp [hnone, hnot]
  · intro huses
    rw [hao] at huses
    cases huses

end

theorem uses_audioBranch {completion input output : ℚ} {v : Var} (hc : v ≠ .c) (hlen : v ≠ .len) (hai : v ≠ .ai)
    (hao : v ≠ .ao) : (audioBranch base completion input output).uses v = false := by
  unfold audioBranch
  rw [Formula.uses, uses_plus]
  simp [Formula.uses, Ne.symm hc, Ne.symm hlen, Ne.symm hai, Ne.symm hao]

theorem converted_branches {audioPrice : ℚ} (completion input output : ℚ) (hprice : ¬ 0 < audioPrice) :
    Converted (.cond (.either (.positive .ai) (.positive .ao)) (audioBranch base completion input output)
      (textBranch base effective mode details true)) base effective mode audioPrice := by
  have hplain : Plain effective mode details true := by
    intro _ hfalse
    cases hfalse
  refine converted_of_text hplain ?_ ?_ ?_ (fun _ => hprice)
  · intro v hlen hai hao
    rw [Formula.uses]
    by_cases hc : v = .c
    · subst hc
      rw [uses_textBranch, any_tokenLanes]
      simp
    · rw [uses_audioBranch hc hlen hai hao]
      simp [Test.uses, Ne.symm hai, Ne.symm hao]
  · intro t haudio
    obtain ⟨hai, hao⟩ := haudio (by simp [Formula.uses, Test.uses])
    rw [Formula.eval, if_neg, eval_textBranch]
    · simp [audioLanes, hprice, TokenParams.get]
    · simp [Test.holds, TokenParams.get, hai, hao]
  · simp [Formula.uses, Test.uses]

theorem converted_joined {audioPrice input output : ℚ} (hplain : Plain effective mode details false)
    (hinput : details.audioInputPrice = some input) (houtput : details.audioOutputPrice = some output)
    (hprice : ¬ 0 < audioPrice) :
    Converted (textBranch base effective mode details false) base effective mode audioPrice := by
  have hao : (textBranch base effective mode details false).uses .ao = true := by
    rw [uses_textBranch, any_audioLanes, houtput]
    simp
  refine converted_of_text hplain (fun _ _ _ _ => rfl) ?_ ?_ (fun _ => hprice)
  · intro t haudio
    obtain ⟨hai, hao⟩ := haudio hao
    rw [eval_textBranch]
    simp [audioLanes, hinput, houtput, hprice, hai, hao, TokenParams.get]
  · rw [hao, uses_textBranch, any_audioLanes, hinput]
    simp

theorem converted_audio {audioPrice : ℚ} (hinput : details.audioInputPrice.isSome)
    (houtput : details.audioOutputPrice.isSome) (hprice : ¬ 0 < audioPrice)
    (hbranches : details.audioTextBranches = false →
      mode = .none ∧ effective.cacheRatio = 1 ∧ effective.imageRatio = 1) :
    Converted (convertRatios base effective mode details) base effective mode audioPrice := by
  obtain ⟨input, hinput⟩ := Option.isSome_iff_exists.mp hinput
  obtain ⟨output, houtput⟩ := Option.isSome_iff_exists.mp houtput
  unfold convertRatios
  rw [hinput, houtput]
  cases hkind : details.audioTextBranches || (Option.isSome (some output) && decide (mode ≠ .none)) with
  | true => exact converted_branches _ input output hprice
  | false =>
    have hplain : Plain effective mode details false := fun _ _ => hbranches (Bool.or_eq_false_iff.mp hkind).1
    exact converted_joined hplain hinput houtput hprice

theorem convertRatios_converted (hprice : effective.modelPrice = none) (hratio : effective.modelRatio = some ratio)
    (hbase : legacyInputPricePerMillion settings ratio = .ok base) :
    Converted (convertRatios base effective (resolveCacheWriteMode name draft)
        (resolveLegacyBillingDetails settings name effective draft)) base effective (resolveCacheWriteMode name draft)
      (getGeminiInputAudioPricePerMillionTokens name) := by
  rcases details_cases hprice hratio hbase rfl with ⟨hgemini, hinput, houtput, hbranches⟩ | ⟨hgemini, hempty | haudio⟩
  · exact converted_text houtput hbranches (.inl ⟨hinput, hgemini⟩)
  · rw [hempty]
    exact converted_text rfl rfl (.inr ⟨rfl, hgemini⟩)
  · exact converted_audio haudio.1 haudio.2.1 hgemini haudio.2.2

end Expression

end NewApi.Pricing

