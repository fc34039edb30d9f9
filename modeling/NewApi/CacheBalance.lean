import NewApi.Lib.Run
import NewApi.Moves

/-!
# The cached balance

Every operation moves the cache with the row or the queue, except for the cases that `Follows` excludes.
-/

namespace NewApi.CacheBalance

open Code.Reserve Code.Wallets Run Moves

def Synced (w : UserWallet) : Prop := ∀ balance ∈ w.cache, balance = w.db + w.queue

def InRange (sum : Int) : Prop := -2 ^ 63 ≤ sum ∧ sum < 2 ^ 63

/-- No transfer or failing statement while the balance is cached, no fill while a sum waits. -/
def Follows (settings : Settings) (w : UserWallet) : Event → Prop
  | .operation (.increase quota db _) => db = false ∧ settings.batchUpdateEnabled → InRange (w.queue + quota)
  | .operation (.decrease quota db fails) =>
    if db = false ∧ settings.batchUpdateEnabled then InRange (w.queue - quota) else fails = true → w.cache = none
  | .operation (.transfer quota fails) => Transfers settings w quota fails → w.cache = none
  | .call start _ =>
    (w.cache = none → w.queue = 0) ∧ (settings.batchUpdateEnabled → InRange (w.queue - start.quota))
  | .flush fails => fails = true → w.cache = none ∨ w.queue = 0
  | _ => True

variable {settings : Settings} {w t : UserWallet} {delta : Int}

/-! ## Moves -/

theorem cache_cacheIncrUserQuota (hredis : settings.redisEnabled) :
    (cacheIncrUserQuota settings w delta).cache = w.cache.map (· + delta) := by
  unfold cacheIncrUserQuota
  rw [if_pos hredis]
  cases w.cache <;> rfl

theorem synced_of_moved (delta : Int) (hcache : t.cache = w.cache.map (· + delta)) (hsum : t.db + t.queue = w.db + w.queue + delta)
    (h : Synced w) : Synced t := by
  intro balance hbalance
  rw [hcache] at hbalance
  obtain ⟨old, hold, rfl⟩ := Option.map_eq_some_iff.mp hbalance
  have := h old hold
  omega

theorem Same.synced (hsame : Same w t) (h : Synced w) : Synced t := by
  unfold Synced
  rw [hsame.1]
  exact h

theorem Written.synced (hredis : settings.redisEnabled) (hwritten : Written settings w delta t) (h : Synced w) :
    Synced t := by
  refine synced_of_moved delta ?_ ?_ h
  · rw [hwritten]
    exact cache_cacheIncrUserQuota hredis
  · rw [hwritten, db_cacheIncrUserQuota, queue_cacheIncrUserQuota]
    dsimp only
    omega

theorem Queued.synced (hredis : settings.redisEnabled) (hqueued : Queued settings w delta t)
    (hrange : InRange (w.queue + delta)) (h : Synced w) : Synced t := by
  refine synced_of_moved delta ?_ ?_ h
  · rw [hqueued]
    exact cache_cacheIncrUserQuota hredis
  rw [hqueued, db_cacheIncrUserQuota, queue_cacheIncrUserQuota]
  dsimp only [addUserQuotaRecord]
  rw [Code.saturatingAdd_eq hrange.1 hrange.2]
  omega

theorem synced_of_none (h : w.cache = none) : Synced w := by
  intro balance hbalance
  rw [h] at hbalance
  cases hbalance

/-! ## Steps -/

theorem operation_synced {op : Operation} (hredis : settings.redisEnabled) (hok : Follows settings w (.operation op))
    (h : Synced w) : Synced (op.run settings w).2 := by
  cases op with
  | pay creditedQuota fails =>
    simp only [Operation.run]
    rcases pay_spec settings w creditedQuota fails with ⟨e, he⟩ | ⟨after, hafter, hwritten, -⟩
    · rwa [he]
    · rw [hafter]
      exact Written.synced hredis hwritten h
  | increase quota db fails =>
    simp only [Operation.run]
    rcases increaseUserQuota_spec settings w quota db fails with
      ⟨e, he⟩ | ⟨after, hafter, hqueued, hbatch⟩ | ⟨after, hafter, hwritten, -⟩
    · rwa [he]
    · rw [hafter]
      exact Queued.synced hredis hqueued (hok hbatch) h
    · rw [hafter]
      exact Written.synced hredis hwritten h
  | decrease quota db fails =>
    simp only [Operation.run]
    simp only [Follows] at hok
    rcases decreaseUserQuota_spec settings w quota db fails with
      ⟨e, he⟩ | ⟨e, he, hfails, hdirect⟩ | ⟨-, after, hafter, ⟨hqueued, hbatch⟩ | hwritten⟩
    · rwa [he]
    · rw [if_neg hdirect] at hok
      rw [he]
      apply synced_of_none
      rw [cache_cacheIncrUserQuota hredis, hok hfails]
      rfl
    · rw [if_pos hbatch] at hok
      rw [hafter]
      exact Queued.synced hredis hqueued hok h
    · rw [hafter]
      exact Written.synced hredis hwritten h
  | checkin today draw fails =>
    simp only [Operation.run]
    rcases userCheckin_spec settings w today draw fails with
      ⟨e, after, he, hsame, -⟩ | ⟨after, hafter, hwritten, -⟩
    · rw [he]
      exact Same.synced hsame h
    · rw [hafter]
      exact Written.synced hredis hwritten h
  | transfer quota fails =>
    simp only [Operation.run]
    rcases transferAffQuotaToQuota_spec settings w quota fails with ⟨e, he, -⟩ | ⟨hdone, htransfers⟩
    · rwa [he]
    · rw [hdone]
      exact synced_of_none (hok htransfers)
  | adjust operatorRole mode value fails =>
    simp only [Operation.run]
    rcases adjustUserQuota_spec settings w operatorRole mode value fails with
      ⟨e, he⟩ | ⟨_, after, hafter, hwritten, -⟩
    · rwa [he]
    · rw [hafter]
      exact Written.synced hredis hwritten h

theorem call_synced {quota : Int} {after : Wallet} (hredis : settings.redisEnabled)
    (hcharged : Charged settings quota w.toWallet after) (hfill : w.cache = none → w.queue = 0)
    (hrange : settings.batchUpdateEnabled → InRange (w.queue - quota)) (h : Synced w) :
    Synced { w with toWallet := after } := by
  obtain ⟨_, cache, -, hcache, hafter, hrow⟩ := hcharged
  -- What the call has found or put in the cache was right.
  have hfilled : ∀ balance ∈ cache, balance = w.db + w.queue := by
    rcases hcache with rfl | ⟨hnone, rfl⟩
    · exact h
    · rintro balance ⟨⟩
      rw [hfill hnone]
      omega
  intro balance hbalance
  dsimp only at hbalance ⊢
  rw [hafter hredis] at hbalance
  obtain ⟨old, hold, rfl⟩ := Option.map_eq_some_iff.mp hbalance
  have hbefore := hfilled old hold
  rcases hrow with ⟨hdb, hqueue⟩ | ⟨hbatch, rfl, hdb, hqueue⟩
  · omega
  · obtain ⟨hlow, hhigh⟩ := hrange hbatch
    rw [Code.saturatingAdd_eq (by omega) (by omega)] at hqueue
    omega

theorem synced_step {e : Event} (hredis : settings.redisEnabled) (hok : Follows settings w e) (h : Synced w)
    (hstep : step settings w e = some t) : Synced t := by
  cases e with
  | operation =>
    cases hstep
    exact operation_synced hredis hok h
  | call start =>
    obtain ⟨_, hfinish, rfl⟩ := Option.map_eq_some_iff.mp hstep
    exact call_synced hredis (finishCall_charged (stage_start start) hfinish) hok.1 hok.2 h
  | flush fails =>
    cases hstep
    unfold flush
    cases fails with
    | true =>
      rcases hok rfl with hnone | hempty
      · exact synced_of_none hnone
      intro balance hbalance
      have := h balance hbalance
      simp only [if_true]
      omega
    | false =>
      intro balance hbalance
      have := h balance hbalance
      simp only [Bool.false_eq_true, if_false]
      omega
  | expire =>
    cases hstep
    exact synced_of_none rfl

/-! ## Runs -/

theorem cached_balance_follows (settings : Settings) (w t : UserWallet) (es : List Event)
    (hredis : settings.redisEnabled = true) (hsynced : Synced w)
    (hrun : Steps (step settings) (Follows settings) w es t) :
    ∀ balance, t.cache = some balance → balance = t.db + t.queue := by
  have hkeep : ∀ u e v, Follows settings u e → Synced u → step settings u e = some v → Synced v :=
    fun _ _ _ hok hu hstep => synced_step hredis hok hu hstep
  have hend : Synced t := hrun.invariant hkeep hsynced
  exact hend

def sampleSettings : Settings := ⟨⟨true, true⟩, false, 500000, ⟨true, 1000, 1000⟩⟩

def cachedWallet : UserWallet := ⟨⟨0, some 0, 0, []⟩, 500000, 1, []⟩

def paidWallet : UserWallet := { cachedWallet with db := 700, cache := some 700 }

def reservedWallet : UserWallet := { cachedWallet with db := 700, cache := some 400, queue := -300 }

theorem cached_balance_follows_reserve : Steps (step sampleSettings) (Follows sampleSettings) cachedWallet
      [.operation (.pay 700 false), .call (.reserve 300) [.done, .done]] reservedWallet ∧
    (400 : Int) = reservedWallet.db + reservedWallet.queue := by
  have hpaid : step sampleSettings cachedWallet (.operation (.pay 700 false)) = some paidWallet := by decide +kernel
  have hreserved : step sampleSettings paidWallet (.call (.reserve 300) [.done, .done]) = some reservedWallet := by
    decide +kernel
  have hcall : Follows sampleSettings paidWallet (.call (.reserve 300) [.done, .done]) := by
    refine ⟨nofun, fun _ => ?_⟩
    constructor <;> decide
  have hrun : Steps (step sampleSettings) (Follows sampleSettings) cachedWallet
      [.operation (.pay 700 false), .call (.reserve 300) [.done, .done]] reservedWallet :=
    .more trivial hpaid (.more hcall hreserved (.done _))
  have hsynced : Synced cachedWallet := by
    rintro _ ⟨⟩
    rfl
  exact ⟨hrun, cached_balance_follows sampleSettings cachedWallet reservedWallet _ rfl hsynced hrun 400 rfl⟩

/-- A transfer reaches the row only, and the cached balance stays at zero. -/
theorem transfer_leaves_cache : ∃ t, Steps (step sampleSettings) free cachedWallet
      [.operation (.transfer 500000 false)] t ∧
    Synced cachedWallet ∧ t.cache = some 0 ∧ t.db + t.queue = 500000 := by
  have hsums : (run (step sampleSettings) free cachedWallet [.operation (.transfer 500000 false)]).map
      (fun t => (t.cache, t.db + t.queue)) = some (some 0, 500000) := by
    decide +kernel
  obtain ⟨t, ht, hall⟩ := Option.map_eq_some_iff.mp hsums
  rw [Prod.mk.injEq] at hall
  refine ⟨t, steps_of_run ht, ?_, hall⟩
  rintro _ ⟨⟩
  rfl

end NewApi.CacheBalance
