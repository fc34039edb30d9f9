import NewApi.Realtime.Charges

/-!
# What a realtime session costs

A response whose charge fails stays in its sum, and the end of the handler adds it to the total again.
-/

namespace NewApi.Realtime

open Code Run Session

/-! ## Tokens -/

structure Kept (s : State) : Prop where
  serving : s.realtime.handler.stopped = false → s.tokens.refused = none
  usage : s.tokens.refused ≠ some true → s.tokens.usage = []
  reported : s.tokens.refused = some true → ∃ i ∈ s.tokens.usage, i ∈ s.tokens.sum
  counted : s.tokens.refused = some false → ∃ i ∈ s.tokens.localUsage, i ∈ s.tokens.sum

structure Single (k : Tokens) : Prop where
  below : ∀ i, i ∈ k.localUsage ∨ i ∈ k.sum → i < k.next
  sum : k.sum.Nodup
  localUsage : k.localUsage.Nodup
  paid : k.paid = []

/-- What is still to be charged is not in the total, unless it was refused. -/
def Apart (k : Tokens) : Prop := k.refused ≠ some false → k.localUsage.Disjoint k.sum

section Tracking

variable {env : RealtimeInfo} {s t : State} {es : List Event} {e : Event}

theorem Kept.grow (h : Kept s) {r : Code.Realtime} {phase : Phase} {charges : List Charge} {k : Tokens}
    (hstopped : r.handler.stopped = s.realtime.handler.stopped) (hrefused : k.refused = s.tokens.refused)
    (husage : k.usage = s.tokens.usage) (hlocal : ∀ i ∈ s.tokens.localUsage, i ∈ k.localUsage)
    (hsum : ∀ i ∈ s.tokens.sum, i ∈ k.sum) : Kept ⟨r, phase, charges, k⟩ := by
  refine ⟨?_, ?_, ?_, ?_⟩
  · intro hs
    exact hrefused.trans (h.serving (hstopped.symm.trans hs))
  · intro hs
    exact husage.trans (h.usage (hrefused ▸ hs))
  · intro hs
    obtain ⟨i, hi, hmem⟩ := h.reported (hrefused.symm.trans hs)
    exact ⟨i, husage ▸ hi, hsum i hmem⟩
  · intro hs
    obtain ⟨i, hi, hmem⟩ := h.counted (hrefused.symm.trans hs)
    exact ⟨i, hlocal i hi, hsum i hmem⟩

theorem stopped_chargeRest (r : Code.Realtime) (usage : RealtimeUsage) (access : WssAccess) :
    (chargeRest env r usage access).handler.stopped = r.handler.stopped := by
  unfold chargeRest
  split <;> rfl

theorem kept_respond {r : Code.Realtime} {phase : Phase} {charges : List Charge} {k : Tokens} (hnone : k.refused = none)
    (husage : k.usage = []) (reported pays : Bool) :
    Kept ⟨r, phase, charges, k.respond reported pays r.handler.stopped⟩ := by
  cases hstopped : r.handler.stopped <;> cases reported <;>
    constructor <;> simp [Tokens.respond, Tokens.count, Tokens.countLocal, Tokens.offer, Tokens.clear, hnone, husage,
      hstopped]

theorem step_kept (h : Kept s) (hstep : step env s e = some t) : Kept t := by
  cases e with
  | client | target =>
    obtain ⟨-, rfl⟩ := Option.ite_some_none_eq_some.mp hstep
    exact h.grow rfl rfl rfl (fun i hi => List.mem_append_left _ hi) fun i hi => hi
  | responseDone =>
    obtain ⟨hserving, rfl⟩ := Option.ite_some_none_eq_some.mp hstep
    have hnone := h.serving hserving.2
    have husage := h.usage (by simp [hnone])
    exact kept_respond hnone husage _ _
  | chargeUsage | chargeLocal =>
    obtain ⟨-, rfl⟩ := Option.ite_some_none_eq_some.mp hstep
    simp only [track]
    split
    · exact h.grow (stopped_chargeRest _ _ _) rfl rfl (fun i hi => hi) fun i hi => List.mem_append_left _ hi
    · exact h.grow (stopped_chargeRest _ _ _) rfl rfl (fun i hi => hi) fun i hi => hi
  | settle =>
    obtain ⟨-, rfl⟩ := Option.ite_some_none_eq_some.mp hstep
    exact h.grow rfl rfl rfl (fun i hi => hi) fun i hi => hi

theorem sum_step (hstep : step env s e = some t) : s.tokens.sum.Sublist t.tokens.sum := by
  have hrespond : ∀ (k : Tokens) (reported pays stopped : Bool),
      k.sum.Sublist (k.respond reported pays stopped).sum := by
    intro k reported pays stopped
    cases reported <;> cases stopped <;>
      simp [Tokens.respond, Tokens.count, Tokens.countLocal, Tokens.offer, Tokens.clear]
  cases e <;> simp only [step] at hstep <;> split at hstep <;> cases hstep
  case responseDone => exact hrespond _ _ _ _
  case chargeUsage | chargeLocal =>
    simp only [track]
    split
    · exact List.sublist_append_left _ _
    · exact .refl _
  all_goals exact .refl _

theorem sum_run {ok : State → Event → Prop} (hrun : Steps (step env) ok s es t) :
    s.tokens.sum.Sublist t.tokens.sum := by
  induction hrun with
  | done => exact .refl _
  | more _ hstep _ ih => exact (sum_step hstep).trans ih

theorem renewed_of_nodup (h : Kept s) (hstep : step env s e = some t) (hnodup : t.tokens.sum.Nodup) : Renewed s e := by
  cases e with
  | chargeUsage =>
    intro hrefused
    obtain ⟨i, hi, hmem⟩ := h.reported hrefused
    by_contra htokens
    obtain ⟨-, rfl⟩ := Option.ite_some_none_eq_some.mp hstep
    simp only [track, if_pos htokens, Tokens.offer] at hnodup
    exact List.disjoint_of_nodup_append hnodup hmem hi
  | chargeLocal =>
    intro hrefused
    obtain ⟨i, hi, hmem⟩ := h.counted hrefused
    by_contra htokens
    obtain ⟨-, rfl⟩ := Option.ite_some_none_eq_some.mp hstep
    simp only [track, if_pos htokens, Tokens.offer] at hnodup
    exact List.disjoint_of_nodup_append hnodup hmem hi
  | client | target | responseDone | settle => trivial

theorem pays_eq_false (henv : env.usePrice = false) (h : Uncharged env s e) : pays env s e = false := by
  rw [uncharged_iff henv] at h
  simpa [pays] using h

section Single

variable {k : Tokens}

theorem offer_nil (k : Tokens) : k.offer [] false = k := by
  simp [Tokens.offer]

theorem Single.next_not_mem (h : Single k) : k.next ∉ k.localUsage ∧ k.next ∉ k.sum :=
  ⟨fun hi => lt_irrefl _ (h.below _ (.inl hi)), fun hi => lt_irrefl _ (h.below _ (.inr hi))⟩

theorem Single.countLocal (h : Single k) (hapart : Apart k) : Single k.countLocal ∧ Apart k.countLocal := by
  obtain ⟨hlocal, hsum⟩ := h.next_not_mem
  refine ⟨⟨?_, h.sum, ?_, h.paid⟩, ?_⟩
  · intro i hi
    simp only [Tokens.countLocal, List.mem_append, List.mem_singleton] at hi ⊢
    rcases hi with (hi | rfl) | hi
    · exact (h.below i (.inl hi)).trans (Nat.lt_succ_self _)
    · exact Nat.lt_succ_self _
    · exact (h.below i (.inr hi)).trans (Nat.lt_succ_self _)
  · exact h.localUsage.append (List.nodup_singleton _) (by simpa using hlocal)
  · intro hrefused
    simp only [Tokens.countLocal, List.disjoint_append_left]
    exact ⟨hapart hrefused, by simpa using hsum⟩

theorem Single.offerLocal (h : Single k) (hapart : k.localUsage.Disjoint k.sum) :
    Single (k.offer k.localUsage false) := by
  refine ⟨?_, h.sum.append h.localUsage hapart.symm, h.localUsage, ?_⟩
  · intro i hi
    simp only [Tokens.offer, List.mem_append] at hi
    exact h.below i (by tauto)
  · simpa [Tokens.offer] using h.paid

theorem Single.respond (h : Single k) (hapart : Apart k) (hnone : k.refused = none) (husage : k.usage = [])
    (reported stopped : Bool) :
    Single (k.respond reported false stopped) ∧ Apart (k.respond reported false stopped) := by
  obtain ⟨hlocal, hsum⟩ := h.next_not_mem
  have hdisjoint := hapart (by simp [hnone])
  cases reported with
  | false =>
    obtain ⟨hcount, hapart'⟩ := h.countLocal hapart
    obtain ⟨hbelow, hnodup, hlocal', hpaid⟩ := hcount.offerLocal (hapart' (by simp [Tokens.countLocal, hnone]))
    cases stopped with
    | false =>
      exact ⟨⟨fun i hi => hbelow i (.inr (hi.resolve_left List.not_mem_nil)), hnodup, List.nodup_nil, hpaid⟩,
        fun _ => List.disjoint_nil_left _⟩
    | true => exact ⟨⟨hbelow, hnodup, hlocal', hpaid⟩, fun hrefused => absurd rfl hrefused⟩
  | true =>
    have hbelow : ∀ i, i ∈ k.localUsage ∨ i ∈ k.sum ++ [k.next] → i < k.next + 1 := by
      intro i hi
      simp only [List.mem_append, List.mem_singleton] at hi
      rcases hi with hi | hi | rfl
      · exact (h.below i (.inl hi)).trans (Nat.lt_succ_self _)
      · exact (h.below i (.inr hi)).trans (Nat.lt_succ_self _)
      · exact Nat.lt_succ_self _
    have hnodup : (k.sum ++ [k.next]).Nodup := h.sum.append (List.nodup_singleton _) (by simpa using hsum)
    have hpaid : k.paid ++ [] = [] := by rw [h.paid, List.append_nil]
    have hapart' : k.localUsage.Disjoint (k.sum ++ [k.next]) :=
      List.disjoint_append_right.mpr ⟨hdisjoint, by simpa using hlocal⟩
    cases stopped with
    | false =>
      simp only [Tokens.respond, Tokens.count, Tokens.offer, Tokens.clear, husage]
      exact ⟨⟨fun i hi => hbelow i (.inr (hi.resolve_left List.not_mem_nil)), hnodup, List.nodup_nil, hpaid⟩,
        fun _ => List.disjoint_nil_left _⟩
    | true =>
      simp only [Tokens.respond, Tokens.count, Tokens.offer, husage]
      exact ⟨⟨hbelow, hnodup, h.localUsage, hpaid⟩, fun _ => hapart'⟩

end Single

/-- No message is in the total twice, nor is what is still to be charged. -/
def Once (s : State) : Prop :=
  Single s.tokens ∧ (s.phase = .serving ∨ s.phase = .usageCharged → Apart s.tokens)

theorem step_once (henv : env.usePrice = false) (hclean : Clean env s e) (hkept : Kept s) (h : Once s)
    (hstep : step env s e = some t) : Once t := by
  obtain ⟨hsingle, hapart⟩ := h
  have hpays := pays_eq_false henv hclean.1
  cases e with
  | client =>
    obtain ⟨hphase, rfl⟩ := Option.ite_some_none_eq_some.mp hstep
    obtain ⟨h₁, h₂⟩ := hsingle.countLocal (hapart (.inl hphase))
    exact ⟨h₁, fun _ => h₂⟩
  | target =>
    obtain ⟨hphase, rfl⟩ := Option.ite_some_none_eq_some.mp hstep
    obtain ⟨h₁, h₂⟩ := hsingle.countLocal (hapart (.inl hphase.1))
    exact ⟨h₁, fun _ => h₂⟩
  | responseDone reported =>
    obtain ⟨hphase, rfl⟩ := Option.ite_some_none_eq_some.mp hstep
    have hnone := hkept.serving hphase.2
    have husage := hkept.usage (by simp [hnone])
    simp only [Once, track, hpays]
    obtain ⟨h₁, h₂⟩ := hsingle.respond (hapart (.inl hphase.1)) hnone husage reported.isSome _
    exact ⟨h₁, fun _ => h₂⟩
  | chargeUsage =>
    obtain ⟨hphase, rfl⟩ := Option.ite_some_none_eq_some.mp hstep
    simp only [Once, track, hpays]
    split
    · -- Without a refused response the sum of the reported usage is empty.
      rename_i htokens
      have husage := hkept.usage fun hrefused => htokens (hclean.2 hrefused)
      rw [husage, offer_nil]
      exact ⟨hsingle, fun _ => hapart (.inl hphase)⟩
    · exact ⟨hsingle, fun _ => hapart (.inl hphase)⟩
  | chargeLocal =>
    obtain ⟨hphase, rfl⟩ := Option.ite_some_none_eq_some.mp hstep
    simp only [Once, track, hpays]
    split
    · rename_i htokens
      have hdisjoint := hapart (.inr hphase) fun hrefused => htokens (hclean.2 hrefused)
      exact ⟨hsingle.offerLocal hdisjoint, by simp⟩
    · exact ⟨hsingle, by simp⟩
  | settle =>
    obtain ⟨-, rfl⟩ := Option.ite_some_none_eq_some.mp hstep
    exact ⟨hsingle, by simp [settled]⟩

theorem run_clean_iff (henv : env.usePrice = false) {ok : State → Event → Prop} (hrun : Steps (step env) ok s es t)
    (hkept : Kept s) (honce : Once s) (hs : ∀ c ∈ s.charges, c.price = 0) :
    ((∀ c ∈ t.charges, c.price = 0) ∧ (t.tokens.sum ++ t.tokens.paid).Nodup) ↔ Steps (step env) (Clean env) s es t := by
  induction hrun with
  | done s =>
    refine ⟨fun _ => .done s, fun _ => ⟨hs, ?_⟩⟩
    rw [honce.1.paid, List.append_nil]
    exact honce.1.sum
  | @more s t u e es hok hstep rest ih =>
    have hall : (∀ c ∈ t.charges, c.price = 0) ↔ Uncharged env s e := by
      rw [uncharged_iff henv, charges_step hstep]
      constructor
      · intro h c hc
        exact h c (List.mem_append_right _ hc)
      · intro h c hc
        exact (List.mem_append.mp hc).elim (hs c) (h c)
    have hnext := step_kept hkept hstep
    constructor
    · rintro ⟨hprices, hnodup⟩
      have hprices' : ∀ c ∈ t.charges, c.price = 0 := fun c hc => hprices c (mem_charges_run rest hc)
      have hnodup' : t.tokens.sum.Nodup := hnodup.of_append_left.sublist (sum_run rest)
      have hclean : Clean env s e := ⟨hall.mp hprices', renewed_of_nodup hkept hstep hnodup'⟩
      exact .more hclean hstep ((ih hnext (step_once henv hclean hkept honce hstep) hprices').mp ⟨hprices, hnodup⟩)
    · rintro (_ | ⟨hclean, hstep', rest'⟩)
      cases hstep.symm.trans hstep'
      exact (ih hnext (step_once henv hclean hkept honce hstep) (hall.mpr hclean.1)).mpr rest'

end Tracking

/-! ## The price of a session -/

theorem rounding_eq (s : State) : rounding s = total s.charges - (s.charges.map Charge.price).sum := by
  unfold rounding total
  induction s.charges with
  | nil => simp
  | cons c cs ih =>
    simp only [List.map_cons, List.sum_cons, Int.cast_add, ih]
    ring

theorem sum_prices_eq_zero {charges : List Charge} (h : ∀ c ∈ charges, 0 ≤ c.price) :
    (charges.map Charge.price).sum = 0 ↔ ∀ c ∈ charges, c.price = 0 := by
  constructor
  · intro hsum c hc
    refine List.all_zero_of_le_zero_le_of_sum_eq_zero ?_ hsum (List.mem_map_of_mem hc)
    intro x hx
    obtain ⟨d, hd, rfl⟩ := List.mem_map.mp hx
    exact h d hd
  · intro hzero
    refine List.sum_eq_zero fun x hx => ?_
    obtain ⟨d, hd, rfl⟩ := List.mem_map.mp hx
    exact hzero d hd

structure Opened (start : Accounts) (s : State) : Prop where
  phase : s.phase = .serving
  charges : s.charges = []
  tokens : s.tokens = .fresh
  good : Good start s.realtime.billing s.realtime.accounts []

theorem taken_eq {start : Accounts} {s : State} {p : Int} (hp : 0 ≤ p)
    (h : Paid start s.realtime.accounts p (funding s.realtime.billing)) : taken start s = p := by
  unfold taken
  revert h
  cases funding s.realtime.billing with
  | wallet =>
    intro h
    have hwallet : s.realtime.accounts.wallet = start.wallet - p := h
    dsimp only
    omega
  | subscription =>
    rintro ⟨_, _, hbefore, hafter, -, hnonneg, hused, -⟩
    dsimp only
    rw [used_eq hbefore, used_eq hafter]
    omega

section Opening

variable {clock : Clock} {trustQuota : Option ℚ} {info : RelayInfo} {a a' : Accounts} {quota : Int} {s : BillingSession}
  {source : FundingSource} {answers : Answers} {attempt : Attempt}

theorem synced_sync (s : BillingSession) : Synced s.syncRelayInfo.relayInfo s.syncRelayInfo.funding := by
  unfold BillingSession.syncRelayInfo
  cases hf : s.funding with
  | wallet w =>
    show some (FundingSource.wallet w).source ≠ _
    simp [FundingSource.source]
  | subscription => exact ⟨rfl, rfl⟩

theorem preConsume_synced
    (h : opened ((BillingSession.fresh info source).preConsume clock trustQuota a quota answers) = (.ok s, a')) :
    Synced s.relayInfo s.funding := by
  obtain ⟨_, _, _, _, _, _, _, rfl⟩ := preConsume_ok (opened_ok h)
  exact synced_sync _

theorem tryWallet_synced (h : tryWallet clock trustQuota info a quota attempt = (.ok s, a')) :
    Synced s.relayInfo s.funding := by
  unfold tryWallet at h
  split at h
  · cases h
  split at h
  · cases h
  · split at h
    · cases h
    · exact preConsume_synced h

theorem newBillingSession_synced (h : newBillingSession clock trustQuota info a quota attempt = (.ok s, a')) :
    Synced s.relayInfo s.funding := by
  rcases newBillingSession_ok h with h | h
  · exact preConsume_synced h
  · exact tryWallet_synced h

theorem opened_of_newBillingSession (hquota : 0 ≤ quota)
    (h : newBillingSession clock trustQuota info a quota attempt = (.ok s, a'))
    (hready : s.funding.source = .subscription → Ready clock info a quota) :
    Opened a ⟨⟨.fresh, .session s, a'⟩, .serving, [], .fresh⟩ := by
  refine ⟨rfl, rfl, rfl, ?_⟩
  obtain ⟨hflags, -, -, -, hholds⟩ | ⟨-, -, -, hsome, -, -⟩ | ⟨-, -, hcalls, -, -⟩ :=
    newBillingSession_phase hquota h hready
  · refine ⟨hflags, newBillingSession_synced h, hholds.nonneg, fun _ hc => (List.not_mem_nil hc).elim, ?_⟩
    show Paid a a' (s.preConsumedQuota + 0) s.funding
    rw [Int.add_zero]
    exact hholds.paid
  · cases hsome
  · cases hcalls

end Opening

theorem Opened.kept {start : Accounts} {s : State} (h : Opened start s) : Kept s := by
  constructor <;> simp [h.tokens, Tokens.fresh]

theorem Opened.once {start : Accounts} {s : State} (h : Opened start s) : Once s := by
  refine ⟨?_, ?_⟩
  · rw [h.tokens]
    constructor <;> simp [Tokens.fresh]
  · intro _ _
    simp [h.tokens, Tokens.fresh]

/-- Up to rounding, and no message is paid for twice. -/
def PaidOnce (start : Accounts) (logged : Int) (t : State) : Prop :=
  (taken start t : ℚ) - rounding t = logged ∧ (t.tokens.sum ++ t.tokens.paid).Nodup

instance (start : Accounts) (p : Int) (source : FundingSource) : Decidable (Fits start p source) := by
  cases source <;> unfold Fits <;> infer_instance

instance (env : RealtimeInfo) (start : Accounts) (s : State) (e : Event) : Decidable (InRange env start s e) := by
  cases e <;> unfold InRange <;> infer_instance

instance (env : RealtimeInfo) (info : RelayInfo) (a : Accounts) (usage : RealtimeUsage) (access : WssAccess) :
    Decidable (Unpaid env info a usage access) := inferInstanceAs (Decidable (_ ∨ _))

instance (s : State) (e : Event) : Decidable (Renewed s e) := by
  cases e <;> unfold Renewed <;> infer_instance

instance (env : RealtimeInfo) (s : State) (e : Event) : Decidable (Clean env s e) :=
  inferInstanceAs (Decidable ((∀ p ∈ piece s e, Unpaid env _ _ p.1 p.2) ∧ Renewed s e))

instance (start : Accounts) (logged : Int) (t : State) : Decidable (PaidOnce start logged t) :=
  inferInstanceAs (Decidable (_ ∧ _))

def flatRatios (ratio : ℚ) : RatioSettings where
  quotaPerUnit := 500000
  modelRatio _ := ratio
  completionRatio _ := 1
  audioRatio _ := 1
  audioCompletionRatio _ := 1
  groupRatio _ := 1
  groupGroupRatio _ _ := none

def sampleEnv : RealtimeInfo where
  originModelName := "gpt-realtime"
  upstreamModelName := "gpt-realtime"
  usingGroup := "default"
  userGroup := "default"
  autoGroup := none
  usePrice := false
  priceData := ⟨0, 1, 1, false⟩
  tieredQuota := none

def sampleStart : State :=
  match sampleOpening "wallet_only" with
  | (.ok s, a) => ⟨⟨.fresh, .session s, a⟩, .serving, [], .fresh⟩
  | (.error _, a) => ⟨⟨.fresh, .none (sampleInfo "wallet_only"), a⟩, .serving, [], .fresh⟩

theorem sampleStart_opened : Opened sampleAccounts sampleStart := by
  have hnew : newBillingSession sampleClock none (sampleInfo "wallet_only") sampleAccounts 100 sampleAttempt =
      (.ok _, _) := rfl
  exact opened_of_newBillingSession (by decide) hnew fun hsource => by cases hsource

def oneResponse (ratio : ℚ) : List Event :=
  let access : WssAccess := ⟨some 900, some ⟨false, 900⟩, flatRatios ratio, ⟨false, false⟩⟩
  [.responseDone (some ⟨200, 200, 0, 0, 200, 0, 0, 0⟩) 0 0 access, .chargeUsage access, .chargeLocal access,
    .settle (flatRatios ratio) ⟨false, false⟩]

end NewApi.Realtime
