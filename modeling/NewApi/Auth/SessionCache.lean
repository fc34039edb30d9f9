import NewApi.Code.UserSession
import Mathlib.Tactic.Linarith

/-!
# What the cache may hold of a session

A copy expires a lifetime after its row was read, and a deny entry that is written after the revocation lasts until
then.
-/

namespace NewApi.Auth

open Table Code.UserSessions

def lifetime (cfg : Settings) : Int := cfg.userCacheTTLSeconds * 1000

/-- When a copy from before `c` can last be taken for active. -/
def lastStale (cfg : Settings) (c expiresAt : Int) : Int := min (c / millisecond + lifetime cfg) (1000 * expiresAt - 1)

section

variable (cfg : Settings) (sid : String)

def RevokedAt (s : Store) (c : Int) : Prop := (sid, c) ∈ s.revocations

structure Inv (s : Store) : Prop where
  revoked : ∀ c, RevokedAt sid s c → c ≤ s.now ∧ ∃ row, s.sessions.find sid = some row ∧ row.status = .revoked
  once : ∀ c c', RevokedAt sid s c → RevokedAt sid s c' → c = c'
  row : ∀ entry expireAt, s.cache sid = some (entry, expireAt) →
    ∃ row, s.sessions.find sid = some row ∧ entry.version ≤ row.version ∧ entry.expiresAt = row.expiresAt
  version : ∀ entry expireAt, s.cache sid = some (entry, expireAt) → 0 ≤ entry.version
  active : ∀ entry expireAt, s.cache sid = some (entry, expireAt) → entry.status = .active →
    expireAt ≤ 1000 * entry.expiresAt ∧ expireAt ≤ s.milli + lifetime cfg ∧
      ∀ c, RevokedAt sid s c → expireAt ≤ c / millisecond + lifetime cfg

/-- A deny entry stands until no stale copy is left. A row with a negative version is never copied. -/
def Sealed (s : Store) : Prop :=
  ∃ c row, RevokedAt sid s c ∧ s.sessions.find sid = some row ∧
    ((∃ entry expireAt, s.cache sid = some (entry, expireAt) ∧ entry.status ≠ .active ∧
      lastStale cfg c row.expiresAt ≤ expireAt) ∨ lastStale cfg c row.expiresAt < s.milli ∨ row.version < 0)

structure Later (s t : Store) : Prop where
  time : s.now ≤ t.now
  row : ∀ x, s.sessions.find sid = some x → ∃ y, t.sessions.find sid = some y ∧ x.version ≤ y.version ∧
    y.expiresAt = x.expiresAt ∧ (x.status ≠ .active → y.status ≠ .active ∧ y.version = x.version)
  kept : ∀ c, RevokedAt sid s c → RevokedAt sid t c
  fresh : ∀ c, RevokedAt sid t c → RevokedAt sid s c ∨ s.now ≤ c
  sealed : Sealed cfg sid s → Sealed cfg sid t

def Known (version expiresAt : Int) (s : Store) : Prop :=
  ∃ row, s.sessions.find sid = some row ∧ version ≤ row.version ∧ expiresAt = row.expiresAt

def Observed (start : Int) (s : Store) : Prop := start ≤ s.now ∧ ∀ c, RevokedAt sid s c → start ≤ c

structure Writable (entry : UserSessionCacheEntry) (redisExpiration : Int) (s : Store) : Prop where
  known : Known sid entry.version entry.expiresAt s
  active : entry.status = .active → redisExpiration ≤ 1000 * entry.expiresAt ∧
    redisExpiration ≤ s.milli + lifetime cfg ∧ ∀ c, RevokedAt sid s c → redisExpiration ≤ c / millisecond + lifetime cfg
  deny : entry.status ≠ .active →
    lifetime cfg ≤ redisExpiration ∨ 1000 * entry.expiresAt - 1 ≤ s.milli + redisExpiration

end

variable {cfg : Settings} {sid : String} {s t u : Store} {entry : UserSessionCacheEntry}

theorem milli_mono {a b : Int} (h : a ≤ b) : a / millisecond ≤ b / millisecond := Int.ediv_le_ediv (by decide) h

/-! ## What lasts -/

theorem Later.refl (s : Store) : Later cfg sid s s where
  time := le_rfl
  row x hx := ⟨x, hx, le_rfl, rfl, fun h => ⟨h, rfl⟩⟩
  kept _ h := h
  fresh _ h := .inl h
  sealed h := h

theorem Later.trans (hst : Later cfg sid s t) (htu : Later cfg sid t u) : Later cfg sid s u where
  time := hst.time.trans htu.time
  row x hx := by
    obtain ⟨y, hy, hxy, hexp, hstatus⟩ := hst.row x hx
    obtain ⟨z, hz, hyz, hexp', hstatus'⟩ := htu.row y hy
    refine ⟨z, hz, hxy.trans hyz, hexp'.trans hexp, fun h => ?_⟩
    obtain ⟨hy', hver⟩ := hstatus h
    obtain ⟨hz', hver'⟩ := hstatus' hy'
    exact ⟨hz', hver'.trans hver⟩
  kept c h := htu.kept c (hst.kept c h)
  fresh c h := by
    rcases htu.fresh c h with h | h
    · exact hst.fresh c h
    · exact .inr (hst.time.trans h)
  sealed h := htu.sealed (hst.sealed h)

theorem Known.later {version expiresAt : Int} (h : Known sid version expiresAt s) (hst : Later cfg sid s t) :
    Known sid version expiresAt t := by
  obtain ⟨x, hx, hver, hexp⟩ := h
  obtain ⟨y, hy, hxy, hexp', -⟩ := hst.row x hx
  exact ⟨y, hy, hver.trans hxy, hexp.trans hexp'.symm⟩

theorem Observed.later {start : Int} (h : Observed sid start s) (hst : Later cfg sid s t) : Observed sid start t := by
  refine ⟨h.1.trans hst.time, fun c hc => ?_⟩
  rcases hst.fresh c hc with hc | hc
  · exact h.2 c hc
  · exact h.1.trans hc

/-! ## Time -/

theorem inv_tick (h : Inv cfg sid s) (elapsed : Nat) : Inv cfg sid { s with now := s.now + elapsed } where
  revoked c hc := by
    obtain ⟨hle, hrow⟩ := h.revoked c hc
    exact ⟨hle.trans (by simp), hrow⟩
  once := h.once
  row := h.row
  version := h.version
  active entry expireAt hentry hstatus := by
    obtain ⟨hexp, hnow, hrev⟩ := h.active entry expireAt hentry hstatus
    have hmono : s.now / millisecond ≤ (s.now + elapsed) / millisecond := milli_mono (by simp)
    exact ⟨hexp, hnow.trans (by simpa [Store.milli] using hmono), hrev⟩

theorem later_tick (s : Store) (elapsed : Nat) : Later cfg sid s { s with now := s.now + elapsed } where
  time := by simp
  row x hx := ⟨x, hx, le_rfl, rfl, fun h => ⟨h, rfl⟩⟩
  kept _ h := h
  fresh _ h := .inl h
  sealed h := by
    obtain ⟨c, row, hc, hrow, hseal⟩ := h
    have hmono : s.now / millisecond ≤ (s.now + elapsed) / millisecond := milli_mono (by simp)
    exact ⟨c, row, hc, hrow, hseal.imp_right <| Or.imp_left fun hlt => hlt.trans_le (by simpa [Store.milli] using hmono)⟩

/-! ## Scripts -/

def written (s : Store) (entry : UserSessionCacheEntry) (redisExpiration : Int) : Option (UserSessionCacheEntry × Int) :=
  if entry.status = .active then
    if redisExpiration ≤ s.milli then none else some (entry, redisExpiration)
  else some (entry, s.milli + redisExpiration)

def currentVersion (s : Store) (sid : String) : Int :=
  ((s.cached sid).map UserSessionCacheEntry.version).getD 0

def Refused (s : Store) (entry : UserSessionCacheEntry) : Prop :=
  (entry.status = .active ∧ ∃ current, s.cached entry.sid = some current ∧ current.status ≠ .active) ∨
    entry.version < currentVersion s entry.sid

theorem deny_iff (status : SessionStatus) : (status = .revoking ∨ status = .revoked) ↔ status ≠ .active := by
  cases status <;> simp

theorem eval_cases (s : Store) (entry : UserSessionCacheEntry) (redisExpiration : Int) :
    Refused s entry ∧ s.eval entry redisExpiration = (false, s) ∨ ¬ Refused s entry ∧ s.eval entry redisExpiration =
      (true, { s with cache := Function.update s.cache entry.sid (written s entry redisExpiration) }) := by
  have hdeny : (s.cached entry.sid).any (fun c => c.status = .revoking ∨ c.status = .revoked) = true ↔
      ∃ current, s.cached entry.sid = some current ∧ current.status ≠ .active := by
    cases s.cached entry.sid with
    | none => simp
    | some => simp [deny_iff]
  unfold Store.eval Refused
  simp only [hdeny]
  by_cases h₁ : entry.status = .active ∧ ∃ current, s.cached entry.sid = some current ∧ current.status ≠ .active
  · rw [if_pos h₁]
    exact .inl ⟨.inl h₁, rfl⟩
  rw [if_neg h₁]
  by_cases h₂ : ((s.cached entry.sid).map UserSessionCacheEntry.version).getD 0 > entry.version
  · rw [if_pos h₂]
    exact .inl ⟨.inr h₂, rfl⟩
  rw [if_neg h₂]
  refine .inr ⟨fun h => ?_, rfl⟩
  rcases h with h | h
  · exact h₁ h
  · exact h₂ h

theorem cached_eq_some {current : UserSessionCacheEntry} (h : s.cached sid = some current) :
    ∃ expireAt, s.cache sid = some (current, expireAt) ∧ s.milli ≤ expireAt := by
  obtain ⟨⟨_, expireAt⟩, hentry, hlive⟩ := Option.bind_eq_some_iff.mp h
  dsimp only at hlive
  split at hlive
  · cases hlive
    exact ⟨expireAt, hentry, ‹_›⟩
  · cases hlive

theorem cached_of_live {expireAt : Int} (h : s.cache sid = some (entry, expireAt)) (hlive : s.milli ≤ expireAt) :
    s.cached sid = some entry := by
  unfold Store.cached
  rw [h, Option.bind_some]
  exact if_pos hlive

theorem currentVersion_nonneg (h : Inv cfg sid s) : 0 ≤ currentVersion s sid := by
  unfold currentVersion
  cases hc : s.cached sid with
  | none => exact le_rfl
  | some current =>
    obtain ⟨expireAt, hentry, -⟩ := cached_eq_some hc
    exact h.version current expireAt hentry

theorem currentVersion_le (h : Inv cfg sid s) {row : UserSession} (hrow : s.sessions.find sid = some row)
    (hpos : 0 ≤ row.version) : currentVersion s sid ≤ row.version := by
  unfold currentVersion
  cases hc : s.cached sid with
  | none => exact hpos
  | some current =>
    obtain ⟨expireAt, hentry, -⟩ := cached_eq_some hc
    obtain ⟨row', hrow', hver, -⟩ := h.row current expireAt hentry
    obtain rfl : row' = row := Option.some.inj (hrow'.symm.trans hrow)
    exact hver

theorem lastStale_le {c redisExpiration expiresAt : Int} (hc : c ≤ s.now)
    (h : lifetime cfg ≤ redisExpiration ∨ 1000 * expiresAt - 1 ≤ s.milli + redisExpiration) :
    lastStale cfg c expiresAt ≤ s.milli + redisExpiration := by
  have hmono : c / millisecond ≤ s.milli := milli_mono hc
  unfold lastStale
  rcases h with h | h <;> omega

theorem sealed_written {redisExpiration c : Int} {row : UserSession} (h : Inv cfg entry.sid s)
    (hwrite : Writable cfg entry.sid entry redisExpiration s) (hstatus : entry.status ≠ .active)
    (hc : RevokedAt entry.sid s c) (hrow : s.sessions.find entry.sid = some row) :
    Sealed cfg entry.sid { s with cache := Function.update s.cache entry.sid (written s entry redisExpiration) } := by
  obtain ⟨row', hrow', -, hexp⟩ := hwrite.known
  obtain rfl : row' = row := Option.some.inj (hrow'.symm.trans hrow)
  refine ⟨c, row', hc, hrow, .inl ⟨entry, s.milli + redisExpiration, ?_, hstatus, ?_⟩⟩
  · dsimp only
    rw [Function.update_self, written, if_neg hstatus]
  · rw [← hexp]
    exact lastStale_le (h.revoked c hc).1 (hwrite.deny hstatus)

section

variable {redisExpiration : Int} (h : Inv cfg sid s)
  (hwrite : entry.sid = sid → Writable cfg sid entry redisExpiration s)
include h hwrite

theorem eval_inv : Inv cfg sid (s.eval entry redisExpiration).2 := by
  rcases eval_cases s entry redisExpiration with ⟨-, heval⟩ | ⟨haccept, heval⟩
  · rw [heval]
    exact h
  rw [heval]
  by_cases hsid : entry.sid = sid
  · have hw := hwrite hsid
    subst hsid
    have hnew : ∀ e x, Function.update s.cache entry.sid (written s entry redisExpiration) entry.sid = some (e, x) →
        e = entry ∧ (entry.status = .active → x = redisExpiration) := by
      intro e x he
      rw [Function.update_self] at he
      unfold written at he
      split at he
      · split at he
        · cases he
        · cases he
          exact ⟨rfl, fun _ => rfl⟩
      · cases he
        exact ⟨rfl, fun hactive => absurd hactive ‹_›⟩
    refine ⟨h.revoked, h.once, ?_, ?_, ?_⟩
    · intro e x he
      obtain ⟨rfl, -⟩ := hnew e x he
      exact hw.known
    · intro e x he
      obtain ⟨rfl, -⟩ := hnew e x he
      have hver : ¬ e.version < currentVersion s e.sid := fun hlt => haccept (.inr hlt)
      have hcur := currentVersion_nonneg h
      omega
    · intro e x he hactive
      obtain ⟨rfl, hx⟩ := hnew e x he
      obtain rfl := hx hactive
      exact hw.active hactive
  · have hsame : Function.update s.cache entry.sid (written s entry redisExpiration) sid = s.cache sid :=
      Function.update_of_ne (Ne.symm hsid) _ _
    refine ⟨h.revoked, h.once, ?_, ?_, ?_⟩ <;> dsimp only <;> rw [hsame]
    · exact h.row
    · exact h.version
    · exact h.active

theorem eval_sealed (hseal : Sealed cfg sid s) : Sealed cfg sid (s.eval entry redisExpiration).2 := by
  rcases eval_cases s entry redisExpiration with ⟨-, heval⟩ | ⟨haccept, heval⟩
  · rw [heval]
    exact hseal
  rw [heval]
  obtain ⟨c, row, hc, hrow, ⟨e, x, he, hdeny, hlast⟩ | hrest⟩ := hseal
  · by_cases hsid : entry.sid = sid
    · have hw := hwrite hsid
      subst hsid
      by_cases hlive : s.milli ≤ x
      · -- The script has found a deny entry, so what it has written is one too.
        have hstatus : entry.status ≠ .active := fun hactive =>
          haccept (.inl ⟨hactive, e, cached_of_live he hlive, hdeny⟩)
        exact sealed_written h hw hstatus hc hrow
      · exact ⟨c, row, hc, hrow, .inr (.inl (show _ < s.milli by omega))⟩
    · refine ⟨c, row, hc, hrow, .inl ⟨e, x, ?_, hdeny, hlast⟩⟩
      dsimp only
      rw [Function.update_of_ne (Ne.symm hsid), he]
  · exact ⟨c, row, hc, hrow, .inr hrest⟩

end

theorem eval_same (s : Store) (entry : UserSessionCacheEntry) (redisExpiration : Int) :
    (s.eval entry redisExpiration).2.now = s.now ∧ (s.eval entry redisExpiration).2.sessions = s.sessions ∧
      (s.eval entry redisExpiration).2.revocations = s.revocations ∧
      (s.eval entry redisExpiration).2.exchanges = s.exchanges := by
  rcases eval_cases s entry redisExpiration with ⟨-, heval⟩ | ⟨-, heval⟩ <;> rw [heval] <;> exact ⟨rfl, rfl, rfl, rfl⟩

theorem eval_later {redisExpiration : Int} (h : Inv cfg sid s)
    (hwrite : entry.sid = sid → Writable cfg sid entry redisExpiration s) :
    Later cfg sid s (s.eval entry redisExpiration).2 := by
  obtain ⟨hnow, hsessions, hrevocations, -⟩ := eval_same s entry redisExpiration
  refine ⟨hnow.ge, ?_, ?_, ?_, eval_sealed h hwrite⟩
  · intro x hx
    rw [hsessions]
    exact ⟨x, hx, le_rfl, rfl, fun h => ⟨h, rfl⟩⟩
  · intro c hc
    unfold RevokedAt
    rwa [hrevocations]
  intro c hc
  unfold RevokedAt at hc
  rw [hrevocations] at hc
  exact .inl hc

/-- Nothing under the key is newer than what a revocation writes at last. -/
theorem eval_seals {redisExpiration c : Int} {row : UserSession} (h : Inv cfg entry.sid s)
    (hwrite : Writable cfg entry.sid entry redisExpiration s) (hstatus : entry.status ≠ .active)
    (hc : RevokedAt entry.sid s c) (hrow : s.sessions.find entry.sid = some row) (hver : row.version = entry.version) :
    Sealed cfg entry.sid (s.eval entry redisExpiration).2 := by
  rcases lt_or_ge row.version 0 with hneg | hpos
  · obtain ⟨-, hsessions, hrevocations, -⟩ := eval_same s entry redisExpiration
    refine ⟨c, row, ?_, by rw [hsessions]; exact hrow, .inr (.inr hneg)⟩
    unfold RevokedAt
    rwa [hrevocations]
  · have hle := currentVersion_le h hrow hpos
    rcases eval_cases s entry redisExpiration with ⟨hrefused, -⟩ | ⟨-, heval⟩
    · rcases hrefused with ⟨hactive, -⟩ | hlt
      · exact absurd hactive hstatus
      · omega
    rw [heval]
    exact sealed_written h hwrite hstatus hc hrow

/-! ## Updates of rows -/

section Update

variable {p : UserSession → Bool} {f : UserSession → UserSession}

theorem inv_update {hf : ∀ r, (f r).sid = r.sid} {exchanges : List (Nat × String × String)}
    {revocations : List (String × Int)} (h : Inv cfg sid s) (hactive : ∀ r, p r = true → r.status = .active)
    (hkeep : ∀ r, p r = true → r.version ≤ (f r).version ∧ (f r).expiresAt = r.expiresAt)
    (hnew : ∀ c, (sid, c) ∈ revocations → RevokedAt sid s c ∨
      c = s.now ∧ ∃ r, s.sessions.find sid = some r ∧ p r = true ∧ (f r).status = .revoked) :
    Inv cfg sid { s with sessions := s.sessions.update p f hf, exchanges, revocations } := by
  -- A session that has been revoked is not touched again.
  have hfrozen : ∀ c, RevokedAt sid s c → ∀ r, s.sessions.find sid = some r → p r ≠ true := by
    intro c hc r hr hp
    obtain ⟨-, row, hrow, hstatus⟩ := h.revoked c hc
    obtain rfl : row = r := Option.some.inj (hrow.symm.trans hr)
    simp [hactive row hp] at hstatus
  refine ⟨?_, ?_, ?_, h.version, ?_⟩
  · intro c hc
    rcases hnew c hc with hc | ⟨rfl, r, hr, hp, hstatus⟩
    · obtain ⟨hle, row, hrow, hstatus⟩ := h.revoked c hc
      exact ⟨hle, row, Keyed.find_update_neg hf hrow (hfrozen c hc row hrow), hstatus⟩
    · exact ⟨le_rfl, f r, Keyed.find_update_pos hf hr hp, hstatus⟩
  · intro c c' hc hc'
    rcases hnew c hc with hc | ⟨rfl, r, hr, hp, -⟩
    · rcases hnew c' hc' with hc' | ⟨-, r, hr, hp, -⟩
      · exact h.once c c' hc hc'
      · exact absurd hp (hfrozen c hc r hr)
    · rcases hnew c' hc' with hc' | ⟨rfl, -⟩
      · exact absurd hp (hfrozen c' hc' r hr)
      · rfl
  · intro entry expireAt hentry
    obtain ⟨row, hrow, hver, hexp⟩ := h.row entry expireAt hentry
    by_cases hp : p row = true
    · exact ⟨f row, Keyed.find_update_pos hf hrow hp, hver.trans (hkeep row hp).1, hexp.trans (hkeep row hp).2.symm⟩
    · exact ⟨row, Keyed.find_update_neg hf hrow hp, hver, hexp⟩
  · intro entry expireAt hentry hstatus
    obtain ⟨hexp, hnow, hrev⟩ := h.active entry expireAt hentry hstatus
    refine ⟨hexp, hnow, fun c hc => ?_⟩
    rcases hnew c hc with hc | ⟨rfl, -⟩
    · exact hrev c hc
    · exact hnow

theorem later_update {hf : ∀ r, (f r).sid = r.sid} {exchanges : List (Nat × String × String)}
    {revocations : List (String × Int)} (h : Inv cfg sid s) (hactive : ∀ r, p r = true → r.status = .active)
    (hkeep : ∀ r, p r = true → r.version ≤ (f r).version ∧ (f r).expiresAt = r.expiresAt)
    (hold : ∀ c, RevokedAt sid s c → (sid, c) ∈ revocations)
    (hnew : ∀ c, (sid, c) ∈ revocations → RevokedAt sid s c ∨ c = s.now) :
    Later cfg sid s { s with sessions := s.sessions.update p f hf, exchanges, revocations } := by
  refine ⟨le_rfl, ?_, hold, fun c hc => (hnew c hc).imp_right ge_of_eq, ?_⟩
  · intro x hx
    by_cases hp : p x = true
    · exact ⟨f x, Keyed.find_update_pos hf hx hp, (hkeep x hp).1, (hkeep x hp).2,
        fun hstatus => absurd (hactive x hp) hstatus⟩
    · exact ⟨x, Keyed.find_update_neg hf hx hp, le_rfl, rfl, fun hstatus => ⟨hstatus, rfl⟩⟩
  · rintro ⟨c, row, hc, hrow, hseal⟩
    obtain ⟨-, row', hrow', hstatus⟩ := h.revoked c hc
    obtain rfl : row' = row := Option.some.inj (hrow'.symm.trans hrow)
    have hp : ¬ p row' = true := fun hp => by simp [hactive row' hp] at hstatus
    exact ⟨c, row', hold c hc, Keyed.find_update_neg hf hrow hp, hseal⟩

theorem mem_revokeWhere (now : Int) (reason : String) {c : Int} : RevokedAt sid (s.revokeWhere p now reason).2 c ↔
      RevokedAt sid s c ∨ c = s.now ∧ ∃ r, s.sessions.find sid = some r ∧ p r = true := by
  unfold RevokedAt Store.revokeWhere
  rw [List.mem_append, List.mem_map]
  apply or_congr_right
  constructor
  · rintro ⟨r, hr, heq⟩
    rw [Prod.mk.injEq] at heq
    obtain ⟨hfind, hp⟩ := Keyed.mem_matching.mp hr
    rw [heq.1] at hfind
    exact ⟨heq.2.symm, r, hfind, hp⟩
  · rintro ⟨rfl, r, hr, hp⟩
    have hsid : r.sid = sid := Keyed.key_of_find hr
    exact ⟨r, Keyed.mem_matching.mpr ⟨by rw [hsid, hr], hp⟩, by rw [hsid]⟩

section

variable (h : Inv cfg sid s) (hactive : ∀ r, p r = true → r.status = .active) (now : Int) (reason : String)
include h hactive

theorem revokeWhere_inv : Inv cfg sid (s.revokeWhere p now reason).2 := by
  refine inv_update h hactive (fun _ _ => ⟨le_rfl, rfl⟩) fun c hc => ?_
  rcases (mem_revokeWhere now reason).mp hc with hc | ⟨rfl, r, hr, hp⟩
  · exact .inl hc
  · exact .inr ⟨rfl, r, hr, hp, rfl⟩

theorem revokeWhere_later : Later cfg sid s (s.revokeWhere p now reason).2 := by
  refine later_update h hactive (fun _ _ => ⟨le_rfl, rfl⟩) (fun c hc => (mem_revokeWhere now reason).mpr (.inl hc)) fun c hc => ?_
  exact ((mem_revokeWhere now reason).mp hc).imp_right And.left

end

end Update

end NewApi.Auth

