import NewApi.Auth.Revocation

/-!
# A refresh hash is exchanged once

The compare-and-swap of a rotation puts a new hash in place of the presented one, which is never the current one again.
-/

namespace NewApi.Auth

open Calls Run Table Code.UserSessions

variable {cfg : Settings} {sid : String} {s t : Store}

/-! ## The accesses of a call -/

def Plain : Op → Prop
  | .find _ _ | .rotate _ _ _ _ _ _ _ | .advanceTx _ _ _ _ _ _ => False
  | _ => True

def May : Name → Op → Prop
  | .rotateUserSessionRefresh userID sid presentedHash nextHash _ _, .rotate userID' sid' _ presentedHash' nextHash' _ _ =>
    userID' = userID ∧ sid' = sid ∧ presentedHash' = presentedHash ∧ nextHash' = nextHash ∧ presentedHash ≠ nextHash
  | _, .rotate _ _ _ _ _ _ _ => False
  | .advanceUserSessionAuthVersion _ _ _ _ _, .advanceTx _ _ _ _ _ _ => True
  | _, .advanceTx _ _ _ _ _ _ => False
  | _, _ => True

variable {name : Name} {op : Op} {call : Nat} {userID now : Int} {sid' presentedHash nextHash : String}
  {sessions : Sessions}

theorem may_of_plain (h : Plain op) : May name op := by
  cases op <;> first | exact False.elim h | (cases name <;> exact trivial)

section All

variable {P : Op → Prop} (hP : ∀ op, Plain op → P op) (session : UserSession)

include hP

theorem writeUserSessionCache_all (entry : UserSessionCacheEntry) (cacheDeadline : Option Int) :
    (writeUserSessionCache cfg entry cacheDeadline).All P := by
  unfold writeUserSessionCache
  split
  · trivial
  refine .access (hP _ trivial) fun now => ?_
  dsimp only
  split
  · split
    · trivial
    split
    · trivial
    split
    · trivial
    split
    · trivial
    refine .access (hP _ trivial) fun r => ?_
    split
    · trivial
    · trivial
    refine .access (hP _ trivial) fun completedAt => ?_
    split
    · trivial
    · split <;> trivial
  · refine .access (hP _ trivial) fun r => ?_
    split <;> trivial

theorem writeUserSessionDenyFence_all (status : SessionStatus) (now : Int) (reason : String) :
    (writeUserSessionDenyFence cfg session status now reason).All P := by
  unfold writeUserSessionDenyFence
  split
  · trivial
  · exact writeUserSessionCache_all hP _ _

theorem confirm_all : (confirmUserSessionActiveSnapshot session).All P := by
  unfold confirmUserSessionActiveSnapshot
  split
  · trivial
  · refine .access (hP _ trivial) fun now => .access (hP _ trivial) fun r => ?_
    split <;> trivial

theorem publishActive_all (cacheDeadline : Int) : (publishActive cfg session cacheDeadline).All P := by
  refine (writeUserSessionCache_all hP _ _).bind fun r => ?_
  split
  · refine (confirm_all hP session).bind fun r => ?_
    split <;> trivial
  · trivial
  · trivial

theorem revokeReusedSession_all (now : Int) : (revokeReusedSession cfg session now).All P := by
  refine (writeUserSessionDenyFence_all hP _ _ _ _).bind fun r => ?_
  split
  · trivial
  refine .access (hP _ trivial) fun r => ?_
  split
  · trivial
  · trivial
  · exact (writeUserSessionCache_all hP _ _).bind fun _ => trivial

theorem withNow_all {α : Type} {now : Int} {f : Int → Call α} (hf : ∀ now, (f now).All P) : (withNow now f).All P := by
  unfold withNow
  split
  · exact .access (hP _ trivial) fun time => hf _
  · exact hf now

theorem writeFences_all (now : Int) (reason : String) (candidates : List UserSession) :
    (writeFences cfg now reason candidates).All P := by
  induction candidates with
  | nil => trivial
  | cons x rest ih =>
    rw [writeFences]
    refine (writeUserSessionDenyFence_all hP _ _ _ _).bind fun r => ?_
    split
    · trivial
    · exact ih

theorem writeTombstones_all (now : Int) (reason : String) (revoked : List UserSession) :
    (writeTombstones cfg now reason revoked).All P := by
  induction revoked with
  | nil => trivial
  | cons x rest ih => exact (writeUserSessionCache_all hP _ _).bind fun _ => ih

theorem revokeRounds_all (userID : Int) (excludedSID reason : String) (now : Int) (rounds : Nat) (total : List String) :
    (revokeRounds cfg userID excludedSID reason now rounds total).All P := by
  induction rounds generalizing total with
  | zero => exact .access (hP _ trivial) fun r => r.elim
  | succ rounds ih =>
    rw [revokeRounds]
    refine .access (hP _ trivial) fun r => ?_
    split
    · trivial
    · trivial
    refine (writeFences_all hP _ _ _).bind fun r => ?_
    split
    · trivial
    refine .access (hP _ trivial) fun r => ?_
    split
    · trivial
    · exact (writeTombstones_all hP _ _ _).bind fun _ => ih _

theorem revokeUserSessions_all (userID : Int) (excludedSID reason : String) (rounds : Nat) :
    (revokeUserSessions cfg userID excludedSID reason rounds).All P := by
  unfold revokeUserSessions
  split
  · trivial
  · exact .access (hP _ trivial) fun _ => revokeRounds_all hP _ _ _ _ _ _

variable (hfind : ∀ sid userID, P (.find sid userID))

include hfind

theorem getUserSessionFromDatabase_all (sid : String) : (getUserSessionFromDatabase cfg sid).All P := by
  refine .access (hP _ trivial) fun start => .access (hfind _ _) fun r => ?_
  split
  · trivial
  refine .access (hP _ trivial) fun now => ?_
  split
  · split
    · exact (writeUserSessionCache_all hP _ _).bind fun _ => trivial
    · trivial
  · split
    · exact publishActive_all hP _ _
    · trivial

theorem getUserSessionCached_all (sid : String) : (getUserSessionCached cfg sid).All P := by
  have hcache : (getUserSessionCache sid).All P := by
    refine .access (hP _ trivial) fun r => ?_
    split
    · trivial
    · split
      · trivial
      · exact .access (hP _ trivial) fun _ => trivial
  unfold getUserSessionCached
  split
  · trivial
  split
  · refine hcache.bind fun r => ?_
    split
    · trivial
    · trivial
    · exact getUserSessionFromDatabase_all hP hfind sid
  · exact getUserSessionFromDatabase_all hP hfind sid

theorem rotateLoop_all {userID now graceSeconds : Int} {sid presentedHash nextHash : String}
    (hrotate : ∀ session, P (.rotate userID sid session presentedHash nextHash now graceSeconds)) (attempts : Nat) :
    (rotateLoop cfg userID sid presentedHash nextHash now graceSeconds attempts).All P := by
  induction attempts with
  | zero => trivial
  | succ attempts ih =>
    rw [rotateLoop]
    refine .access (hP _ trivial) fun start => .access (hfind _ _) fun r => ?_
    split
    · trivial
    split
    · trivial
    split
    · refine .access (hrotate _) fun r => ?_
      split
      · trivial
      · exact ih
      · exact publishActive_all hP _ _
    · split
      · trivial
      · split
        · trivial
        · exact revokeReusedSession_all hP _ _

theorem revokeUserSession_all (userID : Int) (sid reason : String) : (revokeUserSession cfg userID sid reason).All P := by
  unfold revokeUserSession
  split
  · trivial
  refine .access (hP _ trivial) fun time => .access (hfind _ _) fun r => ?_
  split
  · trivial
  · trivial
  dsimp only
  split
  · trivial
  refine (writeUserSessionDenyFence_all hP _ _ _ _).bind fun r => ?_
  split
  · trivial
  refine .access (hP _ trivial) fun r => ?_
  split
  · trivial
  · trivial
  · exact (writeUserSessionCache_all hP _ _).bind fun _ => trivial

theorem revokeUserSessionByRefreshHash_all (sid presentedHash reason : String) :
    (revokeUserSessionByRefreshHash cfg sid presentedHash reason).All P := by
  unfold revokeUserSessionByRefreshHash
  split
  · trivial
  refine .access (hP _ trivial) fun time => .access (hfind _ _) fun r => ?_
  split
  · trivial
  · trivial
  dsimp only
  split
  · trivial
  split
  · trivial
  refine (writeUserSessionDenyFence_all hP _ _ _ _).bind fun r => ?_
  split
  · trivial
  refine .access (hP _ trivial) fun r => ?_
  split
  · trivial
  · trivial
  · exact (writeUserSessionCache_all hP _ _).bind fun _ => trivial

end All

theorem body_may (name : Name) : (body cfg name).All (May name) := by
  have hP : ∀ op, Plain op → May name op := fun op => may_of_plain
  have hfind : ∀ sid userID, May name (.find sid userID) := fun sid userID => by cases name <;> trivial
  cases name with
  | getUserSessionCached sid => exact (getUserSessionCached_all hP hfind sid).bind fun _ => trivial
  | rotateUserSessionRefresh userID sid presentedHash nextHash now =>
    refine Prog.All.bind ?_ fun _ => trivial
    unfold rotateUserSessionRefresh
    split
    · trivial
    rename_i hvalid
    simp only [not_or] at hvalid
    refine withNow_all hP fun now => ?_
    dsimp only
    split
    · trivial
    · exact rotateLoop_all hP hfind (fun _ => ⟨rfl, rfl, rfl, rfl, hvalid.2.2.2.2⟩) 3
  | revokeUserSession userID sid reason => exact (revokeUserSession_all hP hfind userID sid reason).bind fun _ => trivial
  | revokeUserSessionByRefreshHash sid presentedHash reason =>
    exact (revokeUserSessionByRefreshHash_all hP hfind sid presentedHash reason).bind fun _ => trivial
  | revokeUserSessions userID excludedSID reason rounds =>
    exact (revokeUserSessions_all hP userID excludedSID reason rounds).bind fun _ => trivial
  | advanceUserSessionAuthVersion =>
    refine Prog.All.bind ?_ fun _ => trivial
    unfold advanceUserSessionAuthVersion
    split
    · trivial
    refine .access trivial fun start => .access trivial fun time => .access trivial fun r => ?_
    split
    · trivial
    refine (writeUserSessionCache_all hP _ _).bind fun r => ?_
    split
    · refine (confirm_all hP _).bind fun r => ?_
      split <;> trivial
    · trivial
    · trivial

/-! ## What an access does to the rows -/

def UserSession.rotated (row session : UserSession) (nextHash : String) (now graceSeconds : Int) : UserSession :=
  { row with
    previousRefreshHash := session.refreshHash
    previousValidUntil := now + graceSeconds
    refreshHash := nextHash
    lastActiveAt := now }

theorem rotate_won {graceSeconds : Int}
    {session : UserSession} (h : s.rotate call userID sid' session presentedHash nextHash now graceSeconds = (true, t)) :
    (∃ row, s.sessions.find sid' = some row ∧ row.refreshHash = presentedHash ∧ row.inactiveAt now = false ∧
      t.sessions.find sid' = some (UserSession.rotated row session nextHash now graceSeconds)) ∧
    (∀ sid, sid ≠ sid' → t.sessions.find sid = s.sessions.find sid) ∧
    t.exchanges = s.exchanges ++ [(call, sid', presentedHash)] := by
  unfold Store.rotate at h
  dsimp only at h
  split at h
  · cases h
  rename_i hmatch
  cases h
  obtain ⟨row, hrow⟩ := List.exists_mem_of_ne_nil _ fun hnil => hmatch (List.isEmpty_iff.mpr hnil)
  obtain ⟨hfind, hp⟩ := Keyed.mem_matching.mp hrow
  obtain ⟨hsid, hcond⟩ := of_decide_eq_true hp
  refine ⟨⟨row, by rw [← hsid]; exact hfind, hcond.2.2.2.2, ?_, ?_⟩, ?_, rfl⟩
  · unfold UserSession.inactiveAt
    simp [hcond.2.1, hcond.2.2.1, hcond.2.2.2.1]
  · rw [← hsid]
    exact Keyed.find_update_pos (by intro; rfl) hfind (by simpa [hsid] using hcond)
  intro sid hne
  refine (Keyed.find_update _ _ _ (by intro; rfl) sid).trans ?_
  cases hfind : s.sessions.find sid with
  | none => rfl
  | some row =>
    have hp : ¬ (row.sid = sid' ∧ row.userID = userID ∧ row.status = .active ∧ row.revokedAt = 0 ∧
        row.expiresAt > now ∧ row.refreshHash = presentedHash) :=
      fun hp => hne ((Keyed.key_of_find hfind).symm.trans hp.1)
    rw [Option.map_some, if_neg (by simpa using hp)]

/-! ## The chain of hashes -/

def currentHash (sid : String) (s : Store) : Option String := (s.sessions.find sid).map UserSession.refreshHash

theorem currentHash_update {p : UserSession → Bool} {f : UserSession → UserSession} {t : Store}
    (hf : ∀ r, (f r).sid = r.sid) (ht : t.sessions = s.sessions.update p f hf)
    (hhash : ∀ r, (f r).refreshHash = r.refreshHash) : currentHash sid t = currentHash sid s := by
  unfold currentHash
  rw [ht, Keyed.map_find_update hf hhash]

theorem advanceTx_hash {expectedSessionVersion expectedUserAuthVersion nextUserAuthVersion : Int}
    (ht : t = (s.advanceTx userID sid' expectedSessionVersion expectedUserAuthVersion nextUserAuthVersion now).2) :
    (∀ sid, currentHash sid t = currentHash sid s) ∧ t.exchanges = s.exchanges := by
  subst ht
  unfold Store.advanceTx
  split
  · exact ⟨fun _ => rfl, rfl⟩
  split
  · exact ⟨fun _ => rfl, rfl⟩
  dsimp only
  split
  · exact ⟨fun _ => rfl, rfl⟩
  · exact ⟨fun _ => currentHash_update (by intro; rfl) rfl fun _ => rfl, rfl⟩

theorem effect_hash (h : Effect call op s t) :
    ((∀ sid, currentHash sid t = currentHash sid s) ∧ t.exchanges = s.exchanges) ∨
    ∃ userID sid' session presentedHash nextHash now graceSeconds,
      op = .rotate userID sid' session presentedHash nextHash now graceSeconds ∧
      currentHash sid' s = some presentedHash ∧ currentHash sid' t = some nextHash ∧
      (∀ sid, sid ≠ sid' → currentHash sid t = currentHash sid s) ∧
      t.exchanges = s.exchanges ++ [(call, sid', presentedHash)] := by
  cases h with
  | none hsessions hexchanges _ =>
    refine .inl ⟨fun sid => ?_, hexchanges⟩
    unfold currentHash
    rw [hsessions]
  | revoke p now reason hp ht =>
    subst ht
    exact .inl ⟨fun _ => currentHash_update (by intro; rfl) rfl fun _ => rfl, rfl⟩
  | rotate userID sid' session presentedHash nextHash now graceSeconds hop ht =>
    obtain ⟨⟨_, hrow, hhash, -, hnew⟩, hothers, hexchanges⟩ := rotate_won ht
    refine .inr ⟨userID, sid', session, presentedHash, nextHash, now, graceSeconds, hop, ?_, ?_, ?_, hexchanges⟩
    · rw [currentHash, hrow, Option.map_some, hhash]
    · rw [currentHash, hnew]
      rfl
    · intro sid hne
      rw [currentHash, currentHash, hothers sid hne]
  | advance userID sid' expectedSessionVersion expectedUserAuthVersion nextUserAuthVersion now hop ht =>
    exact .inl (advanceTx_hash ht)

def Rotates (sid presentedHash hash : String) : Name → Prop
  | .rotateUserSessionRefresh _ sid' presentedHash' nextHash _ _ =>
    sid' = sid ∧ presentedHash' = presentedHash ∧ nextHash = hash
  | _ => False

def Brings (sid hash : String) : Name → Prop
  | .rotateUserSessionRefresh _ sid' _ nextHash _ _ => sid' = sid ∧ nextHash = hash
  | _ => False

/-- The hash of a rotation is new to the session. -/
def FreshNext (sessions : Sessions) (s : Sys) : Happening → Prop
  | .begin (.rotateUserSessionRefresh _ sid _ nextHash _ _) =>
    (∀ name ∈ s.names, ¬ Brings sid nextHash name) ∧ ∀ row ∈ sessions.find sid, row.refreshHash ≠ nextHash
  | _ => True

theorem brings_of_rotates {hash : String} (h : Rotates sid presentedHash hash name) : Brings sid hash name := by
  cases name with
  | rotateUserSessionRefresh => exact ⟨h.1, h.2.2⟩
  | _ => exact h

/-- An exchanged hash is not the current one; a used one is the first or comes from a rotation. -/
structure Chain (sessions : Sessions) (s : Sys) : Prop where
  spent : ∀ i sid hash, (i, sid, hash) ∈ s.store.exchanges → currentHash sid s.store ≠ some hash
  once : (s.store.exchanges.map Prod.snd).Nodup
  used : ∀ sid hash, currentHash sid s.store = some hash ∨ (∃ i, (i, sid, hash) ∈ s.store.exchanges) →
    (∃ row ∈ sessions.find sid, row.refreshHash = hash) ∨
    ∃ k name presentedHash, s.names[k]? = some name ∧ Rotates sid presentedHash hash name ∧
      (k, sid, presentedHash) ∈ s.store.exchanges
  apart : ∀ (i j : Nat) name name' sid presentedHash presentedHash' hash, s.names[i]? = some name →
    s.names[j]? = some name' → Rotates sid presentedHash hash name → Rotates sid presentedHash' hash name' → i = j
  new : ∀ name ∈ s.names, ∀ sid presentedHash hash, Rotates sid presentedHash hash name →
    ∀ row ∈ sessions.find sid, row.refreshHash ≠ hash

theorem chain_start (now : Int) (sessions : Sessions) : Chain sessions (.start (.start now sessions)) where
  spent i sid hash h := by cases h
  once := List.nodup_nil
  used sid hash h := by
    rcases h with h | ⟨i, h⟩
    · obtain ⟨row, hrow, hhash⟩ := Option.map_eq_some_iff.mp h
      exact .inl ⟨row, hrow, hhash⟩
    · cases h
  apart i j name name' sid presentedHash presentedHash' hash hi := by simp [System.names, System.start] at hi
  new name h := by cases h

theorem Chain.begin {s : Sys} (h : Chain sessions s) {p : Call Answer} (hfresh : FreshNext sessions s (.begin name)) :
    Chain sessions { s with calls := s.calls ++ [(name, p)] } := by
  have hnames : (System.mk s.store (s.calls ++ [(name, p)]) : Sys).names = s.names ++ [name] := by
    simp [System.names]
  -- What the new call brings is not what another brings.
  have hnew : ∀ sid presentedHash hash, Rotates sid presentedHash hash name →
      (∀ name' ∈ s.names, ¬ Brings sid hash name') ∧ ∀ row ∈ sessions.find sid, row.refreshHash ≠ hash := by
    intro sid presentedHash hash hrotates
    cases name with
    | rotateUserSessionRefresh =>
      obtain ⟨rfl, -, rfl⟩ := hrotates
      exact hfresh
    | _ => exact False.elim hrotates
  refine ⟨h.spent, h.once, ?_, ?_, ?_⟩
  · intro sid hash hused
    refine (h.used sid hash hused).imp_right ?_
    rintro ⟨k, name', presentedHash, hk, hrest⟩
    refine ⟨k, name', presentedHash, ?_, hrest⟩
    rw [hnames, List.getElem?_append_left (List.getElem?_eq_some_iff.mp hk).1, hk]
  · intro i j name₁ name₂ sid presentedHash presentedHash' hash hi hj h₁ h₂
    rw [hnames] at hi hj
    rcases concat_cases hi with hold | ⟨rfl, rfl⟩ <;> rcases concat_cases hj with hold' | ⟨rfl, rfl⟩
    · exact h.apart i j name₁ name₂ sid presentedHash presentedHash' hash hold hold' h₁ h₂
    · exact absurd (brings_of_rotates h₁) ((hnew sid presentedHash' hash h₂).1 name₁ (List.mem_of_getElem? hold))
    · exact absurd (brings_of_rotates h₂) ((hnew sid presentedHash hash h₁).1 name₂ (List.mem_of_getElem? hold'))
    · rfl
  · intro name' hname' sid presentedHash hash hrotates
    rw [hnames] at hname'
    rcases List.mem_append.mp hname' with hname' | hname'
    · exact h.new name' hname' sid presentedHash hash hrotates
    · rw [List.mem_singleton.mp hname'] at hrotates
      exact (hnew sid presentedHash hash hrotates).2

theorem rotates_of_may {graceSeconds : Int} {sid : String}
    {session : UserSession} (h : May name (.rotate userID sid session presentedHash nextHash now graceSeconds)) :
    Rotates sid presentedHash nextHash name ∧ presentedHash ≠ nextHash := by
  cases name with
  | rotateUserSessionRefresh =>
    obtain ⟨-, rfl, rfl, rfl, hne⟩ := h
    exact ⟨⟨rfl, rfl, rfl⟩, hne⟩
  | _ => exact False.elim h

theorem rotates_presented {presentedHash' hash hash' : String}
    (h : Rotates sid presentedHash hash name) (h' : Rotates sid presentedHash' hash' name) :
    presentedHash = presentedHash' := by
  cases name with
  | rotateUserSessionRefresh => exact h.2.1.symm.trans h'.2.1
  | _ => exact False.elim h

theorem Chain.unused {s : Sys} (h : Chain sessions s) {i : Nat} (hi : s.names[i]? = some name)
    (hrotates : Rotates sid presentedHash nextHash name) (hcurrent : currentHash sid s.store = some presentedHash) :
    ∀ j, (j, sid, nextHash) ∉ s.store.exchanges := by
  intro j hj
  rcases h.used sid nextHash (.inr ⟨j, hj⟩) with ⟨row, hrow, hhash⟩ | ⟨k, name', presentedHash', hk, hrotates', hswapped⟩
  · exact h.new name (List.mem_of_getElem? hi) sid presentedHash nextHash hrotates row hrow hhash
  obtain rfl := h.apart k i name' name sid presentedHash' presentedHash nextHash hk hi hrotates' hrotates
  obtain rfl : name' = name := Option.some.inj (hk.symm.trans hi)
  obtain rfl := rotates_presented hrotates' hrotates
  exact h.spent k sid presentedHash' hswapped hcurrent

theorem Chain.swap {s : Sys} (h : Chain sessions s) {i : Nat} {u : Sys}
    (hnames : u.names = s.names) (hi : s.names[i]? = some name) (hrotates : Rotates sid' presentedHash nextHash name)
    (hne : presentedHash ≠ nextHash) (hcurrent : currentHash sid' s.store = some presentedHash)
    (hnext : currentHash sid' u.store = some nextHash)
    (hothers : ∀ sid, sid ≠ sid' → currentHash sid u.store = currentHash sid s.store)
    (hexchanges : u.store.exchanges = s.store.exchanges ++ [(i, sid', presentedHash)]) : Chain sessions u := by
  have hmem : ∀ j sid hash, (j, sid, hash) ∈ u.store.exchanges ↔
      (j, sid, hash) ∈ s.store.exchanges ∨ j = i ∧ sid = sid' ∧ hash = presentedHash := by
    intro j sid hash
    rw [hexchanges, List.mem_append, List.mem_singleton, Prod.mk.injEq, Prod.mk.injEq]
  have hunused := h.unused hi hrotates hcurrent
  refine ⟨?_, ?_, ?_, ?_, ?_⟩
  · intro j sid hash hj
    by_cases hsid : sid = sid'
    · subst hsid
      rw [hnext, ne_eq, Option.some.injEq]
      rintro rfl
      rcases (hmem _ _ _).mp hj with hj | ⟨-, -, rfl⟩
      · exact hunused j hj
      · exact hne rfl
    · rw [hothers sid hsid]
      rcases (hmem _ _ _).mp hj with hj | ⟨-, rfl, -⟩
      · exact h.spent j sid hash hj
      · exact absurd rfl hsid
  · rw [hexchanges, List.map_append]
    refine List.Nodup.append h.once (List.nodup_singleton _) ?_
    intro x hx hx'
    obtain ⟨⟨j, y⟩, hy, rfl⟩ := List.mem_map.mp hx
    rw [List.map_singleton, List.mem_singleton] at hx'
    subst hx'
    exact h.spent j sid' presentedHash hy hcurrent
  · intro sid hash hused
    have hold : currentHash sid s.store = some hash ∨ (∃ j, (j, sid, hash) ∈ s.store.exchanges) ∨
        sid = sid' ∧ hash = nextHash := by
      rcases hused with hused | ⟨j, hj⟩
      · by_cases hsid : sid = sid'
        · subst hsid
          rw [hnext] at hused
          exact .inr (.inr ⟨rfl, (Option.some.inj hused).symm⟩)
        · rw [hothers sid hsid] at hused
          exact .inl hused
      · rcases (hmem _ _ _).mp hj with hj | ⟨-, rfl, rfl⟩
        · exact .inr (.inl ⟨j, hj⟩)
        · exact .inl hcurrent
    have hkeep : ∀ {sid hash}, currentHash sid s.store = some hash ∨ (∃ j, (j, sid, hash) ∈ s.store.exchanges) →
        (∃ row ∈ sessions.find sid, row.refreshHash = hash) ∨
        ∃ k name presentedHash, u.names[k]? = some name ∧ Rotates sid presentedHash hash name ∧
          (k, sid, presentedHash) ∈ u.store.exchanges := by
      intro sid hash hused
      refine (h.used sid hash hused).imp_right ?_
      rintro ⟨k, name', presentedHash', hk, hrotates', hswapped⟩
      exact ⟨k, name', presentedHash', by rw [hnames, hk], hrotates', (hmem _ _ _).mpr (.inl hswapped)⟩
    rcases hold with hold | hold | ⟨rfl, rfl⟩
    · exact hkeep (.inl hold)
    · exact hkeep (.inr hold)
    · exact .inr ⟨i, name, presentedHash, by rw [hnames, hi], hrotates, (hmem _ _ _).mpr (.inr ⟨rfl, rfl, rfl⟩)⟩
  · rw [hnames]
    exact h.apart
  · rw [hnames]
    exact h.new

theorem Chain.same {s u : Sys} (h : Chain sessions s)
    (hnames : u.names = s.names) (hhash : ∀ sid, currentHash sid u.store = currentHash sid s.store)
    (hexchanges : u.store.exchanges = s.store.exchanges) : Chain sessions u := by
  refine ⟨?_, ?_, ?_, ?_, ?_⟩ <;> simp only [hnames, hhash, hexchanges]
  · exact h.spent
  · exact h.once
  · exact h.used
  · exact h.apart
  · exact h.new

theorem Chain.step {s t : Sys} {e : Happening}
    (h : Chain sessions s) (hall : s.All May) (hfresh : FreshNext sessions s e) (hstep : (machine cfg).step s e = some t) :
    Chain sessions t := by
  rcases Machine.step_cases hstep with ⟨name, rfl, rfl⟩ | ⟨i, _, name, _, next, r, store, rfl, hcall, hact, rfl⟩ |
    ⟨elapsed, store, rfl, henv, rfl⟩
  · exact h.begin hfresh
  · have hnames := System.names_set (q := next r) store hcall
    have hi : s.names[i]? = some name := by simp [System.names, hcall]
    rcases effect_hash (act_effect hact).1 with ⟨hhash, hexchanges⟩ |
      ⟨userID, sid, session, presentedHash, nextHash, now, graceSeconds, rfl, hcurrent, hnext, hothers, hexchanges⟩
    · exact h.same hnames hhash hexchanges
    · obtain ⟨hrotates, hne⟩ := rotates_of_may (hall _ (List.mem_of_getElem? hcall)).1
      exact h.swap hnames hi hrotates hne hcurrent hnext hothers hexchanges
  · cases henv
    exact h.same rfl (fun _ => rfl) rfl

theorem chain_of_steps {ok : Sys → Happening → Prop}
    {s : Sys} {es : List (Happening)} (hok : ∀ s e, ok s e → FreshNext sessions s e)
    (hrun : Steps (machine cfg).step ok (.start (.start now sessions)) es s) : Chain sessions s := by
  have hkeep : ∀ s e t, ok s e → Chain sessions s ∧ s.All May → (machine cfg).step s e = some t →
      Chain sessions t ∧ t.All May := by
    rintro s e t hse ⟨hchain, hall⟩ hstep
    have hone : Steps (machine cfg).step free s [e] t := .more trivial hstep (.done t)
    exact ⟨hchain.step hall (hok s e hse) hstep, hall.steps body_may hone⟩
  exact (hrun.invariant hkeep ⟨chain_start now sessions, fun c hc => by cases hc⟩).1

end NewApi.Auth

