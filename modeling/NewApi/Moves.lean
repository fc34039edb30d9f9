import NewApi.Code.Wallet

/-!
# How a balance moves

What goes to the row or to the queue goes to the cache as well, except for a transfer and a charge whose statement fails.
-/

namespace NewApi.Moves

open GoTime Code.Credit Code.Reserve Code.Wallets

variable (settings : Settings) (w : UserWallet)

def Same (after : UserWallet) : Prop := after.toWallet = w.toWallet ∧ after.affQuota = w.affQuota

def Written (delta : Int) (after : UserWallet) : Prop :=
  after.toWallet = (cacheIncrUserQuota settings { w with db := w.db + delta } delta).toWallet

def Queued (delta : Int) (after : UserWallet) : Prop :=
  after.toWallet = (cacheIncrUserQuota settings (addUserQuotaRecord w delta) delta).toWallet

def ChecksIn (today : String) (fails : CheckinFaults) : Prop :=
  settings.sqlite = false ∧ settings.checkin.enabled = true ∧ today ∉ w.checkins ∧
    fails.read = false ∧ fails.create = false ∧ fails.quota = false ∧ fails.commit = false

def Transfers (quota : Int) (fails : Bool) : Prop :=
  settings.quotaPerUnit ≤ quota ∧ quota ≤ w.affQuota ∧ fails = false

variable {settings : Settings} {w t : UserWallet}

theorem Same.refl : Same w w := ⟨rfl, rfl⟩

theorem Same.db_eq (h : Same w t) : t.db = w.db := by
  rw [h.1]

variable {delta : Int}

theorem Written.db_eq (h : Written settings w delta t) : t.db = w.db + delta := by
  rw [h, db_cacheIncrUserQuota]

theorem Queued.db_eq (h : Queued settings w delta t) : t.db = w.db := by
  rw [h, db_cacheIncrUserQuota]
  rfl

/-! ## Operations -/

section

variable (settings : Settings) (w : UserWallet)

theorem pay_spec (creditedQuota : Int) (fails : Bool) : (∃ e, pay settings w creditedQuota fails = (.error e, w)) ∨
    ∃ after, pay settings w creditedQuota fails = (.ok (), after) ∧ Written settings w creditedQuota after ∧
      after.db ≤ maxWalletQuota := by
  unfold pay
  split
  · exact .inl ⟨_, rfl⟩
  split
  · exact .inl ⟨_, rfl⟩
  rename_i db hcredit
  obtain ⟨hpos, rfl, hle⟩ := creditBalance_ok hcredit
  dsimp only
  rw [if_neg (by omega)]
  refine .inr ⟨_, rfl, rfl, ?_⟩
  rwa [db_cacheIncrUserQuota]

theorem increaseUserQuota_spec (quota : Int) (db fails : Bool) :
    (∃ e, increaseUserQuota settings w quota db fails = (.error e, w)) ∨
    (∃ after, increaseUserQuota settings w quota db fails = (.ok (), after) ∧ Queued settings w quota after ∧
      db = false ∧ settings.batchUpdateEnabled) ∨
    ∃ after, increaseUserQuota settings w quota db fails = (.ok (), after) ∧ Written settings w quota after ∧
      after.db ≤ maxWalletQuota := by
  unfold increaseUserQuota
  split
  · exact .inl ⟨_, rfl⟩
  split
  · exact .inl ⟨_, rfl⟩
  split
  · rename_i hbatch
    exact .inr (.inl ⟨_, rfl, rfl, hbatch⟩)
  split
  · exact .inl ⟨_, rfl⟩
  rename_i balance hbalance
  unfold increaseQuota at hbalance
  split at hbalance
  · cases hbalance
  split at hbalance
  · cases hbalance
    refine .inr (.inr ⟨_, rfl, rfl, ?_⟩)
    rw [db_cacheIncrUserQuota]
    dsimp only
    omega
  · cases hbalance

theorem decreaseUserQuota_spec (quota : Int) (db fails : Bool) :
    (∃ e, decreaseUserQuota settings w quota db fails = (.error e, w)) ∨
    (∃ e, decreaseUserQuota settings w quota db fails = (.error e, cacheIncrUserQuota settings w (-quota)) ∧
      fails = true ∧ ¬ (db = false ∧ settings.batchUpdateEnabled)) ∨
    0 ≤ quota ∧ ∃ after, decreaseUserQuota settings w quota db fails = (.ok (), after) ∧
      (Queued settings w (-quota) after ∧ db = false ∧ settings.batchUpdateEnabled ∨
        Written settings w (-quota) after) := by
  unfold decreaseUserQuota
  split
  · exact .inl ⟨_, rfl⟩
  split
  · rename_i hbatch
    refine .inr (.inr ⟨by omega, _, rfl, .inl ⟨?_, hbatch⟩⟩)
    unfold Queued cacheIncrUserQuota addUserQuotaRecord
    split <;> rfl
  · rename_i hdirect
    split
    · rename_i hfails
      exact .inr (.inl ⟨_, rfl, hfails, hdirect⟩)
    refine .inr (.inr ⟨by omega, _, rfl, .inr ?_⟩)
    unfold Written
    rw [db_cacheIncrUserQuota, Int.sub_eq_add_neg]
    unfold cacheIncrUserQuota
    split <;> rfl

end

theorem written_checkins {days : List String}
    (h : Written settings { w with checkins := days } delta t) : Written settings w delta t := by
  refine Eq.trans h ?_
  unfold cacheIncrUserQuota
  split <;> rfl

section

variable (settings : Settings) (w : UserWallet)

theorem userCheckinWithoutTransaction_spec (today : String) (award : Int) (fails : CheckinFaults) :
    (∃ e after, userCheckinWithoutTransaction settings w today award fails = (.error e, after) ∧ Same w after) ∨
    ∃ after, userCheckinWithoutTransaction settings w today award fails = (.ok (), after) ∧
      Written settings w award after ∧ after.db ≤ maxWalletQuota := by
  unfold userCheckinWithoutTransaction
  split
  · exact .inl ⟨_, w, rfl, .refl⟩
  rcases increaseUserQuota_spec settings { w with checkins := w.checkins ++ [today] } award true fails.quota with
    ⟨e, he⟩ | ⟨_, _, _, hbatch, _⟩ | ⟨after, hafter, hwritten, hle⟩
  · rw [he]
    refine .inl ⟨_, _, rfl, ?_⟩
    split <;> exact ⟨rfl, rfl⟩
  · cases hbatch
  · rw [hafter]
    exact .inr ⟨after, rfl, written_checkins hwritten, hle⟩

theorem userCheckin_spec (today : String) (draw : Nat) (fails : CheckinFaults) :
    (∃ e after, userCheckin settings w today draw fails = (.error e, after) ∧ Same w after ∧
      ¬ ChecksIn settings w today fails) ∨
    ∃ after, userCheckin settings w today draw fails = (.ok (), after) ∧
      Written settings w (quotaAwarded settings.checkin draw) after ∧
      (ChecksIn settings w today fails ∨ after.db ≤ maxWalletQuota ∧ ¬ ChecksIn settings w today fails) := by
  unfold userCheckin ChecksIn
  split
  · rename_i henabled
    exact .inl ⟨_, w, rfl, .refl, by simp [henabled]⟩
  split
  · rename_i hread
    exact .inl ⟨_, w, rfl, .refl, by simp [hread]⟩
  split
  · rename_i htoday
    exact .inl ⟨_, w, rfl, .refl, by simp [htoday]⟩
  split
  · rename_i hsqlite
    rcases userCheckinWithoutTransaction_spec settings w today (quotaAwarded settings.checkin draw) fails with
      ⟨e, after, he, hsame⟩ | ⟨after, hafter, hwritten, hle⟩
    · exact .inl ⟨e, after, he, hsame, by simp [hsqlite]⟩
    · exact .inr ⟨after, hafter, hwritten, .inr ⟨hle, by simp [hsqlite]⟩⟩
  · unfold userCheckinWithTransaction
    split
    · exact .inl ⟨_, w, rfl, .refl, by simp_all⟩
    split
    · rename_i hquota
      exact .inl ⟨_, w, rfl, .refl, by simp [hquota]⟩
    split
    · rename_i hcommit
      exact .inl ⟨_, w, rfl, .refl, by simp [hcommit]⟩
    refine .inr ⟨_, rfl, ?_, .inl (by simp_all)⟩
    unfold Written cacheIncrUserQuota
    split <;> rfl

theorem transferAffQuotaToQuota_spec (quota : Int) (fails : Bool) :
    (∃ e, transferAffQuotaToQuota settings w quota fails = (.error e, w) ∧ ¬ Transfers settings w quota fails) ∨
    transferAffQuotaToQuota settings w quota fails =
      (.ok (), { w with affQuota := wrap64 (w.affQuota - quota), db := wrap64 (w.db + quota) }) ∧
      Transfers settings w quota fails := by
  unfold transferAffQuotaToQuota Transfers
  split
  · rename_i hmin
    exact .inl ⟨_, rfl, fun h => absurd hmin (not_lt.mpr h.1)⟩
  rename_i hmin
  split
  · rename_i hfails
    exact .inl ⟨_, rfl, by simp [hfails]⟩
  rename_i hfails
  split
  · rename_i haff
    exact .inl ⟨_, rfl, fun h => absurd haff (not_lt.mpr h.2.1)⟩
  · rename_i haff
    exact .inr ⟨rfl, not_lt.mp hmin, not_lt.mp haff, Bool.eq_false_iff.mpr hfails⟩

end

theorem cacheIncrUserQuota_zero : cacheIncrUserQuota settings w 0 = w := by
  unfold cacheIncrUserQuota userQuotaDeltaScript
  split
  · rcases w with ⟨⟨db, cache, queue, inFlight⟩, affQuota, role, checkins⟩
    cases cache <;> simp
  · rfl

theorem walletQuotaFromDecimalStrict_le {d : ℚ} {quota : Int} (h : walletQuotaFromDecimalStrict d = some quota) :
    quota ≤ maxWalletQuota := by
  unfold walletQuotaFromDecimalStrict at h
  dsimp only at h
  split at h
  · cases h
  · cases h
    omega

theorem adjustUserQuota_spec (settings : Settings) (w : UserWallet) (operatorRole : Int) (mode : Option AdjustMode)
    (value : Int) (fails : Bool) : (∃ e, adjustUserQuota settings w operatorRole mode value fails = (.error e, w)) ∨
    ∃ delta after, adjustUserQuota settings w operatorRole mode value fails = (.ok (), after) ∧
      Written settings w delta after ∧ after.db ≤ maxWalletQuota := by
  unfold adjustUserQuota
  cases mode with
  | none => exact .inl ⟨_, rfl⟩
  | some =>
    dsimp only
    split
    · exact .inl ⟨_, rfl⟩
    split
    · exact .inl ⟨_, rfl⟩
    split
    · exact .inl ⟨_, rfl⟩
    split
    · exact .inl ⟨_, rfl⟩
    split
    · exact .inl ⟨_, rfl⟩
    split
    · exact .inl ⟨_, rfl⟩
    rename_i after hafter
    have hle := walletQuotaFromDecimalStrict_le hafter
    refine .inr ⟨after - w.db, _, rfl, ?_⟩
    have hsum : w.db + (after - w.db) = after := by omega
    unfold Written
    rw [hsum]
    split
    · exact ⟨rfl, by rwa [db_cacheIncrUserQuota]⟩
    rename_i hzero
    have hdelta : after - w.db = 0 := not_not.mp hzero
    have hdb : after = w.db := by omega
    refine ⟨?_, by omega⟩
    rw [hdelta, hdb, cacheIncrUserQuota_zero]

/-! ## Calls -/

def Filled (w : Wallet) (cache : Option Int) : Prop := cache = w.cache ∨ w.cache = none ∧ cache = some w.db

def Charged (settings : Settings) (quota : Int) (w t : Wallet) : Prop :=
  ∃ taken cache, 0 ≤ taken ∧ Filled w cache ∧ (settings.redisEnabled → t.cache = cache.map (· - taken)) ∧
    (t.db = w.db - taken ∧ t.queue = w.queue ∨
      settings.batchUpdateEnabled ∧ taken = quota ∧ t.db = w.db ∧ t.queue = Code.saturatingAdd w.queue (-quota))

def Stage (settings : Settings) (quota : Int) (w u : Wallet) : Call → Prop
  | .reserve q => settings.redisEnabled ∧ 0 ≤ quota ∧ q = quota ∧ u = w
  | .cacheGetUserBase waiting | .getUserById waiting =>
    u = w ∧ ∀ q ∈ waiting, settings.redisEnabled ∧ 0 ≤ quota ∧ q = quota ∧ w.cache = none
  | .populate snapshot waiting =>
    u = w ∧ snapshot = w.db ∧ ∀ q ∈ waiting, settings.redisEnabled ∧ 0 ≤ quota ∧ q = quota ∧ w.cache = none
  | .retry q => settings.redisEnabled ∧ 0 ≤ quota ∧ q = quota ∧ u.cache.isSome ∧
    ∃ cache, Filled w cache ∧ u = { w with cache }
  | .persist q | .compensate q => settings.redisEnabled ∧ 0 ≤ quota ∧ q = quota ∧
    ∃ cache, Filled w cache ∧ u = { w with cache := cache.map (· - quota) } 
  | .reserveDB q => 0 ≤ quota ∧ q = quota ∧ u = w ∧ (settings.redisEnabled → w.cache = none)
  | .buy _ => u = w
  | .decrCache q => 0 ≤ q ∧ u = { w with db := w.db - q }
  | .reserved _ | .bought _ | .finished => Charged settings quota w u

section Calls

variable {w u : Wallet} {quota : Int} {call : Call} {reply : Reply}

theorem Filled.refl : Filled w w.cache := .inl rfl

variable {cache waiting : Option Int} {q : Int}

theorem Charged.filled (h : Filled w cache) : Charged settings quota w { w with cache } := by
  refine ⟨0, cache, le_rfl, h, ?_, .inl ⟨by simp, rfl⟩⟩
  intro _
  simp

theorem Charged.refl : Charged settings quota w w := .filled .refl

theorem script_stage {miss : Call} (hredis : settings.redisEnabled) (hquota : 0 ≤ quota) (hq : q = quota)
    (hcache : Filled w cache) (hu : u = { w with cache }) (hmiss : cache = none → Stage settings quota w u miss) :
    Stage settings quota w (cacheTryReserveUserQuota u .done q miss).1 (cacheTryReserveUserQuota u .done q miss).2 := by
  subst hq hu
  unfold cacheTryReserveUserQuota userQuotaReserveScript
  rw [if_pos rfl]
  cases cache with
  | none => exact hmiss rfl
  | some balance =>
    dsimp only
    by_cases hlt : balance < q
    · rw [if_pos hlt]
      exact .filled hcache
    · rw [if_neg hlt]
      exact ⟨hredis, hquota, rfl, some balance, hcache, rfl⟩

theorem persist_stage (h : Stage settings quota w u (.persist quota)) :
    Stage settings quota w (persistUserQuotaDelta settings.toReserveSettings u reply quota).1
      (persistUserQuotaDelta settings.toReserveSettings u reply quota).2 := by
  obtain ⟨hredis, hquota, -, cache, hcache, rfl⟩ := h
  unfold persistUserQuotaDelta
  split
  · rename_i hbatch
    exact ⟨quota, cache, hquota, hcache, fun _ => rfl, .inr ⟨hbatch, rfl, rfl, rfl⟩⟩
  · split
    · exact ⟨quota, cache, hquota, hcache, fun _ => rfl, .inl ⟨rfl, rfl⟩⟩
    · exact ⟨hredis, hquota, rfl, cache, hcache, rfl⟩

theorem hydrated_stage (hcache : Filled w cache) (hsome : waiting ≠ none → cache.isSome)
    (hwaiting : ∀ q ∈ waiting, settings.redisEnabled ∧ 0 ≤ quota ∧ q = quota ∧ w.cache = none) :
    Stage settings quota w { w with cache } (hydrated waiting) := by
  cases waiting with
  | none => exact .filled hcache
  | some q =>
    obtain ⟨hredis, hquota, hq, -⟩ := hwaiting q rfl
    exact ⟨hredis, hquota, hq, hsome nofun, cache, hcache, rfl⟩

theorem hydrateFailed_stage (hwaiting : ∀ q ∈ waiting, settings.redisEnabled ∧ 0 ≤ quota ∧ q = quota ∧ w.cache = none) :
    Stage settings quota w w (hydrateFailed waiting) := by
  cases waiting with
  | none => exact .refl
  | some q =>
    obtain ⟨-, hquota, hq, hnone⟩ := hwaiting q rfl
    exact ⟨hquota, hq, rfl, fun _ => hnone⟩

theorem populate_stage {snapshot : Int}
    (h : Stage settings quota w u (.populate snapshot waiting)) (hreply : reply ≠ .failed) :
    Stage settings quota w ((Call.populate snapshot waiting).advance settings.toReserveSettings u reply).1
      ((Call.populate snapshot waiting).advance settings.toReserveSettings u reply).2 := by
  obtain ⟨rfl, rfl, hwaiting⟩ := h
  cases reply with
  | done =>
    apply hydrated_stage _ _ hwaiting
    · unfold populateUserCache
      split
      · cases hcache : u.cache with
        | none => exact .inr ⟨hcache, rfl⟩
        | some => exact .inl hcache.symm
      · exact .refl
    · intro hsome
      obtain ⟨q, rfl⟩ := Option.ne_none_iff_exists'.mp hsome
      rw [populateUserCache, if_pos (hwaiting q rfl).1]
      rfl
  | failed => exact absurd rfl hreply
  | pending => exact hydrateFailed_stage hwaiting

theorem reserveDB_stage (h : Stage settings quota w u (.reserveDB q)) :
    Stage settings quota w ((Call.reserveDB q).advance settings.toReserveSettings u reply).1
      ((Call.reserveDB q).advance settings.toReserveSettings u reply).2 := by
  obtain ⟨hquota, rfl, rfl, hnone⟩ := h
  simp only [Call.advance, reserveUserQuotaDB]
  split
  · split
    · rename_i hdb
      split at hdb
      · cases hdb
        refine ⟨q, u.cache, hquota, .refl, ?_, .inl ⟨rfl, rfl⟩⟩
        intro hredis
        simp [hnone hredis]
      · cases hdb
    · exact .refl
  · exact .refl

theorem buy_stage {requiredQuota : Int} :
    Stage settings quota w ((Call.buy requiredQuota).advance settings.toReserveSettings w reply).1
      ((Call.buy requiredQuota).advance settings.toReserveSettings w reply).2 := by
  simp only [Call.advance, purchase]
  split
  · split
    · exact .refl
    rename_i chargedQuota db hbought
    split at hbought
    · cases hbought
    split at hbought
    · rename_i hpos
      cases hbought
      rw [if_pos hpos]
      exact ⟨hpos.le, rfl⟩
    · cases hbought
      exact .refl
  · exact .refl

theorem decrCache_stage (h : Stage settings quota w u (.decrCache q)) (hreply : reply = .done) :
    Stage settings quota w ((Call.decrCache q).advance settings.toReserveSettings u reply).1
      ((Call.decrCache q).advance settings.toReserveSettings u reply).2 := by
  obtain ⟨hq, rfl⟩ := h
  subst hreply
  simp only [Call.advance, if_pos]
  refine ⟨q, w.cache, hq, .refl, ?_, .inl ⟨rfl, rfl⟩⟩
  intro hredis
  rw [cacheDecrUserQuota, if_pos hredis]
  cases w.cache <;> simp [userQuotaDeltaScript, sub_eq_add_neg]

theorem advance_stage (h : Stage settings quota w u call) (hreply : redisWorks call reply) :
    Stage settings quota w (call.advance settings.toReserveSettings u reply).1
      (call.advance settings.toReserveSettings u reply).2 := by
  cases call with
  | reserve =>
    obtain ⟨hredis, hquota, rfl, rfl⟩ := h
    obtain rfl : reply = .done := by simpa [redisWorks] using hreply
    refine script_stage hredis hquota rfl .refl rfl ?_
    intro hnone
    exact ⟨rfl, by rintro _ ⟨⟩; exact ⟨hredis, hquota, rfl, hnone⟩⟩
  | cacheGetUserBase =>
    obtain ⟨rfl, hwaiting⟩ := h
    simp only [Call.advance]
    split
    · rename_i hhit
      exact hydrated_stage .refl (fun _ => hhit.2.2) hwaiting
    · exact ⟨rfl, hwaiting⟩
  | getUserById =>
    obtain ⟨rfl, hwaiting⟩ := h
    simp only [Call.advance]
    split
    · exact ⟨rfl, rfl, hwaiting⟩
    · exact hydrateFailed_stage hwaiting
  | populate => exact populate_stage h (by simpa [redisWorks] using hreply)
  | retry =>
    obtain ⟨hredis, hquota, rfl, hsome, cache, hcache, rfl⟩ := h
    obtain rfl : reply = .done := by simpa [redisWorks] using hreply
    refine script_stage hredis hquota rfl hcache rfl ?_
    rintro rfl
    cases hsome
  | persist q =>
    obtain rfl : q = quota := h.2.2.1
    exact persist_stage h
  | compensate q =>
    obtain ⟨-, -, rfl, cache, hcache, rfl⟩ := h
    obtain rfl : reply = .done := by simpa [redisWorks] using hreply
    simp only [Call.advance, if_pos]
    have hback : (userQuotaDeltaScript (cache.map (· - q)) q).2 = cache := by
      cases cache <;> simp [userQuotaDeltaScript]
    rw [hback]
    exact .filled hcache
  | reserveDB => exact reserveDB_stage h
  | buy =>
    obtain rfl : u = w := h
    exact buy_stage
  | decrCache => exact decrCache_stage h (by simpa [redisWorks] using hreply)
  | reserved | bought | finished => exact h

theorem stage_start (start : Start) : Stage settings start.quota w w (start.call settings) := by
  cases start with
  | reserve quota =>
    simp only [Start.call, Start.quota, Code.Reserve.tryReserveUserQuota]
    split
    · exact .refl
    split
    · exact .refl
    split
    · rename_i hredis
      exact ⟨hredis, by omega, rfl, rfl⟩
    · rename_i hredis
      exact ⟨by omega, rfl, rfl, fun h => absurd h hredis⟩
  | read => exact ⟨rfl, by rintro _ ⟨⟩⟩
  | purchase => exact rfl

theorem finishCall_charged {replies : List Reply} {t : Wallet} (h : Stage settings quota w u call)
    (hfinish : finishCall settings u call replies = some t) : Charged settings quota w t := by
  induction replies generalizing u call with
  | nil =>
    unfold finishCall at hfinish
    split at hfinish
    · cases hfinish
      cases call <;> first | exact h | contradiction
    · cases hfinish
  | cons reply replies ih =>
    unfold finishCall at hfinish
    split at hfinish
    · rename_i hreply
      exact ih (advance_stage h hreply) hfinish
    · cases hfinish

end Calls

end NewApi.Moves

