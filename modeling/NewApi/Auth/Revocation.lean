import NewApi.Auth.SessionCache

/-!
# A revocation is final

A call that revokes the session leaves it sealed, and once it is sealed no read that begins afterwards finds it
active.
-/

namespace NewApi.Auth

open Calls Run Table Code.UserSessions

abbrev Sys := System Store Name Op Ans Answer

abbrev Happening := Event Name Bool Nat

def Undisturbed (op : Op) (fails : Bool) (s : Store) : Prop :=
  match op with
  | .eval _ _ => fails = false
  | .revokeTx candidate _ _ | .revokeLocked candidate _ _ =>
    ∀ row ∈ s.sessions.find candidate.sid, row.version = candidate.version
  | _ => True

def Good (cfg : Settings) (sid : String) (after : Prop) (s : Store) : Prop := Inv cfg sid s ∧ (after → Sealed cfg sid s)

def Ok (cfg : Settings) (sid : String) (after : Prop) (allow : Op → Bool → Store → Prop) (call : Nat) {α : Type}
    (Q : α → Store → Prop) : Call α → Store → Prop :=
  Sat (act call) allow (Good cfg sid after) (Later cfg sid) (Later cfg sid) Q

def Firm (cfg : Settings) (allow : Op → Bool → Store → Prop) : Prop :=
  cfg.redisEnabled = true ∧ ∀ op fails s, allow op fails s → Undisturbed op fails s

variable {cfg : Settings} {sid : String} {after : Prop} {allow : Op → Bool → Store → Prop} {call : Nat} {α β : Type}
  {Q : α → Store → Prop} {s t : Store}

/-! ## One access -/

variable {userID expectedSessionVersion expectedUserAuthVersion nextUserAuthVersion now start : Int}
  {sid' reason presentedHash excludedSID : String} {op : Op} {x row : UserSession} {entry : UserSessionCacheEntry}
  {n : Nat}

theorem advanceTx_keeps (h : Inv cfg sid s) :
    Inv cfg sid (s.advanceTx userID sid' expectedSessionVersion expectedUserAuthVersion nextUserAuthVersion now).2 ∧
      Later cfg sid s (s.advanceTx userID sid' expectedSessionVersion expectedUserAuthVersion nextUserAuthVersion now).2 := by
  unfold Store.advanceTx
  split
  · exact ⟨h, .refl s⟩
  rename_i session _
  split
  · exact ⟨h, .refl s⟩
  rename_i hexpected
  dsimp only
  split
  · exact ⟨h, .refl s⟩
  have hver : session.version = expectedSessionVersion := by
    by_contra hne
    exact hexpected (.inr (.inr (.inl hne)))
  have hkeep : ∀ r : UserSession, r.version = expectedSessionVersion →
      r.version ≤ (session.advance nextUserAuthVersion now).version := by
    intro r hr
    show r.version ≤ session.version + 1
    omega
  constructor
  · refine inv_update h (by simp +contextual) (fun r hr => ⟨hkeep r ?_, rfl⟩) fun _ => .inl
    exact (of_decide_eq_true hr).2.2.1
  · refine later_update h (by simp +contextual) (fun r hr => ⟨hkeep r ?_, rfl⟩) (fun _ => id) fun _ => .inl
    exact (of_decide_eq_true hr).2.2.1

inductive Effect (call : Nat) (op : Op) (s t : Store) : Prop where
  | none (hsessions : t.sessions = s.sessions) (hexchanges : t.exchanges = s.exchanges)
      (ht : t = s ∨ ∃ entry x, op = .eval entry x ∧ t = (s.eval entry x).2)
  | revoke (p : UserSession → Bool) (now : Int) (reason : String) (hp : ∀ x, p x = true → x.status = .active)
      (ht : t = (s.revokeWhere p now reason).2)
  | rotate (userID : Int) (sid : String) (session : UserSession) (presentedHash nextHash : String)
      (now graceSeconds : Int) (hop : op = .rotate userID sid session presentedHash nextHash now graceSeconds)
      (ht : (s.rotate call userID sid session presentedHash nextHash now graceSeconds) = (true, t))
  | advance (userID : Int) (sid : String)
      (expectedSessionVersion expectedUserAuthVersion nextUserAuthVersion now : Int)
      (hop : op = .advanceTx userID sid expectedSessionVersion expectedUserAuthVersion nextUserAuthVersion now)
      (ht : t = (s.advanceTx userID sid expectedSessionVersion expectedUserAuthVersion nextUserAuthVersion now).2)

theorem rotate_effect {session : UserSession} {nextHash : String} {graceSeconds : Int} :
    Effect call (.rotate userID sid' session presentedHash nextHash now graceSeconds) s
      (s.rotate call userID sid' session presentedHash nextHash now graceSeconds).2 := by
  by_cases hwon : (s.rotate call userID sid' session presentedHash nextHash now graceSeconds).1 = true
  · exact .rotate userID sid' session presentedHash nextHash now graceSeconds rfl (Prod.ext hwon rfl)
  unfold Store.rotate at hwon ⊢
  dsimp only at hwon ⊢
  split
  · exact .none rfl rfl (.inl rfl)
  · rename_i h
    rw [if_neg h] at hwon
    exact absurd rfl hwon

theorem act_effect {fails : Bool} {r : Ans op} (hact : act call op fails s = some (r, t)) :
    Effect call op s t ∧ t.now = s.now := by
  have hsame : Effect call op s s ∧ s.now = s.now := ⟨.none rfl rfl (.inl rfl), rfl⟩
  obtain rfl : (act call op fails s).elim s Prod.snd = t := by rw [hact]; rfl
  cases fails with
  | true => cases op <;> exact hsame
  | false =>
    cases op with
    | now | hGetAll | find | count | candidates | blocked => exact hsame
    | eval entry x =>
      obtain ⟨hnow, hsessions, -, hexchanges⟩ := eval_same s entry x
      exact ⟨.none hsessions hexchanges (.inr ⟨entry, x, rfl, rfl⟩), hnow⟩
    | rotate userID sid session presentedHash nextHash now graceSeconds =>
      refine ⟨rotate_effect, ?_⟩
      show (s.rotate call userID sid session presentedHash nextHash now graceSeconds).2.now = s.now
      unfold Store.rotate
      dsimp only
      split <;> rfl
    | revokeTx candidate now reason =>
      show Effect _ _ s (s.revokeTx candidate now reason).2 ∧ (s.revokeTx candidate now reason).2.now = s.now
      unfold Store.revokeTx
      split
      · exact hsame
      · split
        · exact hsame
        · exact ⟨.revoke _ now _ (by simp +contextual) rfl, rfl⟩
    | advanceTx userID sid expectedSessionVersion expectedUserAuthVersion nextUserAuthVersion now =>
      refine ⟨.advance _ _ _ _ _ _ rfl rfl, ?_⟩
      show (s.advanceTx userID sid expectedSessionVersion expectedUserAuthVersion nextUserAuthVersion now).2.now = s.now
      unfold Store.advanceTx
      split
      · rfl
      split
      · rfl
      · dsimp only
        split <;> rfl
    | revokeReused _ now | revokeLocked _ now | revokeBatch _ now =>
      exact ⟨.revoke _ now _ (by simp +contextual) rfl, rfl⟩

theorem act_keeps {fails : Bool} {r : Ans op} (h : Inv cfg sid s)
    (hwrite : ∀ entry x, op = .eval entry x → entry.sid = sid → Writable cfg sid entry x s)
    (hact : act call op fails s = some (r, t)) : Inv cfg sid t ∧ Later cfg sid s t := by
  cases (act_effect hact).1 with
  | none _ _ ht =>
    rcases ht with rfl | ⟨entry, x, hop, rfl⟩
    · exact ⟨h, .refl t⟩
    · exact ⟨eval_inv h (hwrite entry x hop), eval_later h (hwrite entry x hop)⟩
  | revoke p now reason hp ht =>
    subst ht
    exact ⟨revokeWhere_inv h hp now reason, revokeWhere_later h hp now reason⟩
  | rotate _ _ _ _ _ _ _ _ ht =>
    unfold Store.rotate at ht
    dsimp only at ht
    split at ht
    · cases ht
    obtain rfl := congrArg Prod.snd ht
    constructor
    · exact inv_update h (by simp +contextual) (fun _ _ => ⟨le_rfl, rfl⟩) fun _ => .inl
    · exact later_update h (by simp +contextual) (fun _ _ => ⟨le_rfl, rfl⟩) (fun _ => id) fun _ => .inl
  | advance _ _ _ _ _ _ _ ht =>
    subst ht
    exact advanceTx_keeps h

theorem act_good {fails : Bool} {r : Ans op} (h : Good cfg sid after s)
    (hwrite : ∀ entry x, op = .eval entry x → entry.sid = sid → Writable cfg sid entry x s)
    (hact : act call op fails s = some (r, t)) : Good cfg sid after t ∧ Later cfg sid s t := by
  obtain ⟨hinv, hlater⟩ := act_keeps h.1 hwrite hact
  exact ⟨⟨hinv, fun hafter => hlater.sealed (h.2 hafter)⟩, hlater⟩

theorem Ok.done {a : α} (h : ∀ t, Later cfg sid s t → Good cfg sid after t → Q a t) :
    Ok cfg sid after allow call Q (.done a) s := h

theorem Ok.access {next : Ans op → Call α}
    (hwrite : ∀ t, Later cfg sid s t → ∀ entry x, op = .eval entry x → entry.sid = sid → Writable cfg sid entry x t)
    (hnext : ∀ t fails r u, Later cfg sid s t → Good cfg sid after t → allow op fails t →
      act call op fails t = some (r, u) → Later cfg sid s u → Good cfg sid after u →
      Ok cfg sid after allow call Q (next r) u) :
    Ok cfg sid after allow call Q (.access op next) s := by
  intro t ht hgood fails r u hok hact
  obtain ⟨hgood', hlater⟩ := act_good hgood (hwrite t ht) hact
  exact ⟨hgood', hlater, hnext t fails r u ht hgood hok hact (ht.trans hlater) hgood'⟩

theorem Ok.bind {P : β → Store → Prop} {p : Call β} {f : β → Call α} (h : Ok cfg sid after allow call P p s)
    (hs : Good cfg sid after s) (hf : ∀ b t, Good cfg sid after t → P b t → Ok cfg sid after allow call Q (f b) t) :
    Ok cfg sid after allow call Q (p.bind f) s := Sat.bind Later.refl h hs hf

abbrev Runs (cfg : Settings) (sid : String) (after : Prop) (allow : Op → Bool → Store → Prop) (call : Nat) {α : Type} :
    Call α → Store → Prop := Ok cfg sid after allow call fun _ _ => True

theorem Runs.done {a : α} : Runs cfg sid after allow call (.done a) s := Ok.done fun _ _ _ => trivial

theorem Ok.time {next : Int → Call α}
    (h : ∀ t, Later cfg sid s t → Good cfg sid after t → Ok cfg sid after allow call Q (next t.now) t) :
    Ok cfg sid after allow call Q (.access .now next) s := by
  refine Ok.access (fun _ _ _ _ he => by cases he) fun t fails r u ht hgood _ hact _ _ => ?_
  cases hact
  exact h t ht hgood

def Found (x : UserSession) (s : Store) : Prop :=
  ∃ row, s.sessions.find x.sid = some row ∧ x.version = row.version ∧ x.expiresAt = row.expiresAt ∧
    x.status = row.status ∧ x.userAuthVersion = row.userAuthVersion

theorem find_row {userID : Option Int} (h : s.find sid' userID = .ok x) :
    ∃ row, s.sessions.find sid' = some row ∧ x = row.afterFind := by
  unfold Store.find at h
  split at h
  · cases h
  rename_i row hrow
  split at h
  · exact ⟨row, hrow, (Except.ok.inj h).symm⟩
  · cases h

theorem find_ok {userID : Option Int} (h : s.find sid' userID = .ok x) : x.sid = sid' ∧ Found x s := by
  obtain ⟨row, hrow, rfl⟩ := find_row h
  have hsid : row.sid = sid' := Keyed.key_of_find hrow
  subst hsid
  unfold Found
  simp [hrow]

theorem Ok.find {userID : Option Int} {next : Except SessionError UserSession → Call α}
    (h : ∀ t r, Later cfg sid s t → Good cfg sid after t → (∀ x, r = .ok x → x.sid = sid' ∧ Found x t) →
      Ok cfg sid after allow call Q (next r) t) :
    Ok cfg sid after allow call Q (.access (.find sid' userID) next) s := by
  refine Ok.access (fun _ _ _ _ he => by cases he) fun t fails r u ht hgood _ hact _ _ => ?_
  cases hact
  refine h t _ ht hgood fun x hx => ?_
  cases fails with
  | true => cases hx
  | false => exact find_ok hx

theorem Found.known (h : Found x s) : Known x.sid x.version x.expiresAt s := by
  obtain ⟨row, hrow, hver, hexp, -⟩ := h
  exact ⟨row, hrow, hver.le, hexp⟩

theorem observed_of_active (h : Inv cfg sid s) (hstart : start ≤ s.now)
    (hrow : s.sessions.find sid = some row) (hactive : row.status = .active) : Observed sid start s := by
  refine ⟨hstart, fun c hc => ?_⟩
  obtain ⟨-, row', hrow', hrevoked⟩ := h.revoked c hc
  obtain rfl : row' = row := Option.some.inj (hrow'.symm.trans hrow)
  rw [hactive] at hrevoked
  cases hrevoked

/-! ## The cache -/

theorem userCacheTTLSeconds_pos (cfg : Settings) : 0 < cfg.userCacheTTLSeconds := by
  unfold Settings.userCacheTTLSeconds
  split <;> omega

theorem writable_active {deadline : Int} (hactive : entry.status = .active)
    (hknown : Known sid entry.version entry.expiresAt s) (hdeadline : deadline = start + cfg.userCacheTTLSeconds * second)
    (hobserved : Observed sid start s) :
    Writable cfg sid entry (cacheExpiresAt (entry.expiresAt * second) deadline / millisecond) s := by
  refine ⟨hknown, fun _ => ?_, fun h => absurd hactive h⟩
  -- The expiry goes back to the start of the look at the row.
  have hstart : ∀ c, start ≤ c →
      cacheExpiresAt (entry.expiresAt * second) deadline / millisecond ≤ c / millisecond + lifetime cfg := by
    intro c hc
    unfold cacheExpiresAt lifetime millisecond
    unfold second at *
    split <;> omega
  refine ⟨?_, hstart s.now hobserved.1, fun c hc => hstart c (hobserved.2 c hc)⟩
  unfold cacheExpiresAt second millisecond
  split <;> omega

theorem writable_deny (hdeny : entry.status ≠ .active)
    (hknown : Known sid entry.version entry.expiresAt s) (hnow : now ≤ s.now) :
    Writable cfg sid entry (denyExpiration cfg (entry.expiresAt * second - now)) s := by
  refine ⟨hknown, fun h => absurd h hdeny, fun _ => ?_⟩
  have hmono : now / millisecond ≤ s.milli := milli_mono hnow
  have hpos := userCacheTTLSeconds_pos cfg
  unfold denyExpiration lifetime
  unfold millisecond at *
  unfold second
  dsimp only
  rcases le_total (entry.expiresAt * 1000000000 - now) (cfg.userCacheTTLSeconds * 1000000000) with hle | hle
  · rw [min_eq_left hle]
    right
    split <;> omega
  rw [min_eq_right hle]
  left
  rw [if_neg (by omega)]
  omega

structure Last (cfg : Settings) (sid : String) (allow : Op → Bool → Store → Prop) (entry : UserSessionCacheEntry)
    (s : Store) : Prop where
  firm : Firm cfg allow
  same : entry.sid = sid
  deny : entry.status ≠ .active
  revoked : ∃ c, RevokedAt sid s c
  row : ∃ row, s.sessions.find sid = some row ∧ row.version = entry.version

theorem Last.later (h : Last cfg sid allow entry s) (hs : Inv cfg sid s)
    (hst : Later cfg sid s t) : Last cfg sid allow entry t := by
  obtain ⟨c, hc⟩ := h.revoked
  obtain ⟨row, hrow, hver⟩ := h.row
  obtain ⟨-, row', hrow', hstatus⟩ := hs.revoked c hc
  obtain rfl : row' = row := Option.some.inj (hrow'.symm.trans hrow)
  obtain ⟨y, hy, -, -, hfrozen⟩ := hst.row row' hrow
  exact ⟨h.firm, h.same, h.deny, ⟨c, hst.kept c hc⟩, y, hy, (hfrozen (by simp [hstatus])).2.trans hver⟩

theorem writeUserSessionCache_ok {cacheDeadline : Option Int} (hs : Good cfg sid after s)
    (hknown : entry.sid = sid → Known sid entry.version entry.expiresAt s)
    (hfresh : entry.sid = sid → entry.status = .active → ∀ deadline ∈ cacheDeadline,
      ∃ start, deadline = start + cfg.userCacheTTLSeconds * second ∧ Observed sid start s) :
    Ok cfg sid after allow call (fun _ t => Later cfg sid s t ∧ (Last cfg sid allow entry s → Sealed cfg sid t))
      (writeUserSessionCache cfg entry cacheDeadline) s := by
  unfold writeUserSessionCache
  split
  · rename_i hdisabled
    refine Ok.done fun t ht _ => ⟨ht, fun hlast => absurd hlast.firm.1 hdisabled⟩
  refine Ok.time fun t ht hgood => ?_
  dsimp only
  split
  · rename_i hactive
    have hnotLast : ¬ Last cfg sid allow entry s := fun hlast => hlast.deny hactive
    have hdone : ∀ {u} {r : Except SessionError Unit}, Later cfg sid s u → Ok cfg sid after allow call
        (fun _ t => Later cfg sid s t ∧ (Last cfg sid allow entry s → Sealed cfg sid t)) (.done r) u :=
      fun hu => Ok.done fun v hv _ => ⟨hu.trans hv, fun hlast => absurd hlast hnotLast⟩
    split
    · exact hdone ht
    rename_i deadline
    split
    · exact hdone ht
    split
    · exact hdone ht
    split
    · exact hdone ht
    refine Ok.access ?_ fun u fails r v hu _ _ _ hv _ => ?_
    · rintro u hu e x he hsid
      cases he
      obtain ⟨_, hdeadline, hobserved⟩ := hfresh hsid hactive deadline rfl
      exact writable_active hactive ((hknown hsid).later (ht.trans hu)) hdeadline (hobserved.later (ht.trans hu))
    · split
      · exact hdone (ht.trans hv)
      · exact hdone (ht.trans hv)
      refine Ok.time fun w hw _ => ?_
      have hw' := (ht.trans hv).trans hw
      split
      · exact hdone hw'
      · split
        · exact hdone hw'
        · exact hdone hw'
  · rename_i hdeny
    have hwritable : ∀ u, Later cfg sid t u → entry.sid = sid →
        Writable cfg sid entry (denyExpiration cfg (entry.expiresAt * second - t.now)) u :=
      fun u hu hsid => writable_deny hdeny ((hknown hsid).later (ht.trans hu)) hu.time
    refine Ok.access ?_ fun u fails r v hu hgood' hok hact hv _ => ?_
    · rintro u hu e x he hsid
      cases he
      exact hwritable u hu hsid
    have hsealed : Last cfg sid allow entry s → Sealed cfg sid v := by
      intro hlast
      have hlast' := hlast.later hs.1 (ht.trans hu)
      obtain ⟨c, hc⟩ := hlast'.revoked
      obtain ⟨_, hrow, hver⟩ := hlast'.row
      obtain rfl : fails = false := hlast.firm.2 _ _ _ hok
      obtain rfl : (u.eval entry (denyExpiration cfg (entry.expiresAt * second - t.now))).2 = v :=
        congrArg Prod.snd (Option.some.inj hact)
      obtain rfl := hlast.same
      exact eval_seals hgood'.1 (hwritable u hu rfl) hdeny hc hrow hver
    have hdone : ∀ {r : Except SessionError Unit}, Ok cfg sid after allow call
        (fun _ t => Later cfg sid s t ∧ (Last cfg sid allow entry s → Sealed cfg sid t)) (.done r) v :=
      Ok.done fun w hw _ => ⟨(ht.trans hv).trans hw, fun hlast => hw.sealed (hsealed hlast)⟩
    split <;> exact hdone

theorem Found.knownAs (h : Found x s) (sid : String) : x.sid = sid → Known sid x.version x.expiresAt s := by
  rintro rfl
  exact h.known

theorem confirm_ok : Runs cfg sid after allow call (confirmUserSessionActiveSnapshot x) s := by
  unfold confirmUserSessionActiveSnapshot
  split
  · exact Runs.done
  · refine Ok.time fun t _ _ => Ok.access (fun _ _ _ _ he => by cases he) fun _ _ r _ _ _ _ _ _ _ => ?_
    split <;> exact Runs.done

theorem publishActive_ok (hs : Good cfg sid after s) (hknown : x.sid = sid → Known sid x.version x.expiresAt s)
    (hobserved : x.sid = sid → Observed sid start s) :
    Runs cfg sid after allow call (publishActive cfg x (start + cfg.userCacheTTLSeconds * second)) s := by
  refine Ok.bind (writeUserSessionCache_ok hs hknown ?_) hs fun r t ht _ => ?_
  · rintro hsid - _ hdeadline
    cases hdeadline
    exact ⟨start, rfl, hobserved hsid⟩
  split
  · refine Ok.bind confirm_ok ht fun r u _ _ => ?_
    split <;> exact Runs.done
  · exact Runs.done
  · exact Runs.done

/-! ## Reads -/

theorem inactiveAt_eq_false (h : ¬ x.inactiveAt now = true) :
    x.status = .active ∧ x.revokedAt = 0 ∧ now < x.expiresAt := by
  unfold UserSession.inactiveAt at h
  simp only [decide_eq_true_eq, not_or, not_not, not_le] at h
  exact h

def Unread (sid : String) (after : Prop) (sid' : String) (r : Except SessionError UserSession) : Prop :=
  after → sid' = sid → ∃ e, r = .error e

theorem Sealed.inactive (hs : Inv cfg x.sid s) (h : Sealed cfg x.sid s) (hx : Found x s) : x.status = .revoked := by
  obtain ⟨c, -, hc, -⟩ := h
  obtain ⟨-, row, hrow, hstatus⟩ := hs.revoked c hc
  obtain ⟨row', hrow', -, -, hstatus', -⟩ := hx
  obtain rfl : row = row' := Option.some.inj (hrow.symm.trans hrow')
  exact hstatus'.trans hstatus

theorem getUserSessionFromDatabase_ok :
    Ok cfg sid after allow call (fun r _ => Unread sid after sid' r) (getUserSessionFromDatabase cfg sid') s := by
  have herror : ∀ {u : Store} {e : SessionError}, Ok cfg sid after allow call (fun r _ => Unread sid after sid' r)
      (.done (.error e)) u := Ok.done fun _ _ _ _ _ => ⟨_, rfl⟩
  refine Ok.time fun t ht _ => Ok.find fun u r hu hgood hfound => ?_
  split
  · exact herror
  rename_i x
  obtain ⟨hsid, hx⟩ := hfound x rfl
  refine Ok.time fun v hv hgood' => ?_
  have hknown : x.sid = sid → Known sid x.version x.expiresAt v := fun h => by
    subst h
    exact hx.known.later hv
  split
  · split
    · exact Ok.bind (writeUserSessionCache_ok hgood' hknown fun _ h => by cases h) hgood' fun _ _ _ _ => herror
    · exact herror
  rename_i hactive
  obtain ⟨hstatus, -, -⟩ := inactiveAt_eq_false hactive
  have hunread : ∀ r, Unread sid after sid' r := by
    intro r hafter he
    have hsealed := hgood.2 hafter
    have hinv := hgood.1
    obtain rfl : x.sid = sid := hsid.trans he
    have := hsealed.inactive hinv hx
    rw [hstatus] at this
    cases this
  split
  · refine Sat.weaken (publishActive_ok hgood' hknown fun h => ?_) fun r _ _ _ => hunread r
    subst h
    obtain ⟨_, hrow, -, -, hstatus', -⟩ := hx
    exact (observed_of_active hgood.1 hu.time hrow (hstatus'.symm.trans hstatus)).later hv
  · exact Ok.done fun _ _ _ => hunread _

theorem Sealed.expired (hs : Inv cfg sid s) (h : Sealed cfg sid s)
    (hcached : s.cached sid = some entry) (hactive : entry.status = .active) : entry.expiresAt * second ≤ s.now := by
  obtain ⟨expireAt, hentry, hlive⟩ := cached_eq_some hcached
  obtain ⟨c, row, hc, hrow, hseal⟩ := h
  obtain ⟨row', hrow', hver, hexp⟩ := hs.row entry expireAt hentry
  obtain rfl : row' = row := Option.some.inj (hrow'.symm.trans hrow)
  obtain ⟨hbound, -, hstale⟩ := hs.active entry expireAt hentry hactive
  have hstale := hstale c hc
  rcases hseal with ⟨e, x, he, hdeny, -⟩ | hlast | hneg
  · rw [hentry] at he
    cases he
    exact absurd hactive hdeny
  · unfold lastStale at hlast
    unfold Store.milli millisecond at *
    unfold second
    omega
  · have := hs.version entry expireAt hentry
    omega

theorem getUserSessionCache_ok :
    Ok cfg sid after allow call (fun r _ => after → sid' = sid → ∀ entry, r ≠ some (.ok entry))
      (getUserSessionCache sid') s := by
  refine Ok.access (fun _ _ _ _ he => by cases he) fun t fails r u ht hgood _ hact hu _ => ?_
  obtain rfl : t = u := congrArg Prod.snd (Option.some.inj hact)
  have hr : ∀ entry, r = some entry → t.cached sid' = some entry := by
    intro entry hentry
    have hr : (if fails then none else t.cached sid') = r := congrArg Prod.fst (Option.some.inj hact)
    rw [hentry] at hr
    cases fails with
    | true => cases hr
    | false => exact hr
  split
  · exact Ok.done fun _ _ _ _ _ _ h => by cases h
  rename_i entry
  split
  · exact Ok.done fun _ _ _ _ _ _ h => by cases h
  refine Ok.time fun v hv _ => Ok.done fun w hw _ hafter hsid entry' hentry' => ?_
  subst hsid
  split at hentry'
  · cases hentry'
  rename_i hactive
  simp only [not_or, not_not, not_le] at hactive
  have hexpired := (hgood.2 hafter).expired hgood.1 (hr entry rfl) hactive.1
  have htime := hv.time
  unfold second at *
  omega

theorem getUserSessionCached_ok (hs : Good cfg sid after s) :
    Ok cfg sid after allow call (fun r _ => Unread sid after sid' r) (getUserSessionCached cfg sid') s := by
  unfold getUserSessionCached
  split
  · exact Ok.done fun _ _ _ _ _ => ⟨_, rfl⟩
  split
  · refine Ok.bind getUserSessionCache_ok hs fun r t _ hr => ?_
    split
    · exact Ok.done fun _ _ _ hafter hsid => absurd rfl (hr hafter hsid _)
    · exact Ok.done fun _ _ _ _ _ => ⟨_, rfl⟩
    · exact getUserSessionFromDatabase_ok
  · exact getUserSessionFromDatabase_ok

/-! ## Revocations -/

structure Struck (sid : String) (x : UserSession) (s : Store) : Prop where
  revoked : ∃ c, RevokedAt sid s c
  row : ∃ row, s.sessions.find sid = some row ∧ row.version = x.version ∧ row.expiresAt = x.expiresAt

theorem Struck.later (h : Struck sid x s) (hs : Inv cfg sid s) (hst : Later cfg sid s t) : Struck sid x t := by
  obtain ⟨c, hc⟩ := h.revoked
  obtain ⟨row, hrow, hver, hexp⟩ := h.row
  obtain ⟨-, row', hrow', hstatus⟩ := hs.revoked c hc
  obtain rfl : row' = row := Option.some.inj (hrow'.symm.trans hrow)
  obtain ⟨y, hy, -, hexp', hfrozen⟩ := hst.row row' hrow
  exact ⟨⟨c, hst.kept c hc⟩, y, hy, (hfrozen (by simp [hstatus])).2.trans hver, hexp'.trans hexp⟩

theorem struck_revokeWhere {p : UserSession → Bool} (now : Int) (reason : String)
    (hx : x ∈ s.sessions.matching p) : Struck x.sid x (s.revokeWhere p now reason).2 := by
  obtain ⟨hfind, hp⟩ := Keyed.mem_matching.mp hx
  exact ⟨⟨s.now, (mem_revokeWhere now reason).mpr (.inr ⟨rfl, x, hfind, hp⟩)⟩, x.revoke now reason,
    Keyed.find_update_pos (by intro; rfl) hfind hp, rfl, rfl⟩

theorem Struck.congr {y : UserSession} (h : Struck sid x s) (hver : x.version = y.version)
    (hexp : x.expiresAt = y.expiresAt) : Struck sid y s := by
  obtain ⟨row, hrow, hver', hexp'⟩ := h.row
  exact ⟨h.revoked, row, hrow, hver'.trans hver, hexp'.trans hexp⟩

theorem Struck.known (h : Struck sid x s) : Known sid x.version x.expiresAt s := by
  obtain ⟨row, hrow, hver, hexp⟩ := h.row
  exact ⟨row, hrow, hver.ge, hexp.symm⟩

section

variable (hs : Good cfg sid after s) (hknown : x.sid = sid → Known sid x.version x.expiresAt s)
include hs hknown

theorem tombstone_ok (hstruck : Firm cfg allow → x.sid = sid → Struck sid x s) : Ok cfg sid after allow call
      (fun _ t => Later cfg sid s t ∧ (Firm cfg allow → x.sid = sid → Sealed cfg sid t))
      (writeUserSessionCache cfg (x.revoke now reason).cacheEntry none) s := by
  refine Sat.weaken (writeUserSessionCache_ok hs hknown fun _ h => by cases h) fun _ t _ ht => ?_
  refine ⟨ht.1, fun hfirm hsid => ht.2 ?_⟩
  have hstruck := hstruck hfirm hsid
  obtain ⟨row, hrow, hver, -⟩ := hstruck.row
  exact ⟨hfirm, hsid, by simp [UserSession.revoke, UserSession.cacheEntry], hstruck.revoked, row, hrow, hver⟩

theorem fence_ok : Ok cfg sid after allow call (fun _ t => Later cfg sid s t)
      (writeUserSessionDenyFence cfg x .revoking now reason) s := by
  unfold writeUserSessionDenyFence
  split
  · exact Ok.done fun _ ht _ => ht
  · refine Sat.weaken (writeUserSessionCache_ok hs hknown fun _ h => by cases h) fun _ _ _ ht => ht.1

end

/-! ## Rotations and advances -/

theorem rotateLoop_ok {graceSeconds : Int} {nextHash : String} {attempts : Nat} :
    Runs cfg sid after allow call (rotateLoop cfg userID sid' presentedHash nextHash now graceSeconds attempts) s := by
  induction attempts generalizing s with
  | zero => exact Runs.done
  | succ attempts ih =>
    rw [rotateLoop]
    refine Ok.time fun t ht _ => Ok.find fun u r hu hgood hfound => ?_
    split
    · exact Runs.done
    rename_i x
    obtain ⟨-, hx⟩ := hfound x rfl
    have hknown : ∀ {v}, Later cfg sid u v → x.sid = sid → Known sid x.version x.expiresAt v := by
      rintro v hv rfl
      exact hx.known.later hv
    split
    · exact Runs.done
    rename_i hactive
    obtain ⟨hstatus, -, -⟩ := inactiveAt_eq_false hactive
    split
    · refine Ok.access (fun _ _ _ _ he => by cases he) fun v fails r w hv _ _ _ hw hgood' => ?_
      split
      · exact Runs.done
      · exact ih
      refine publishActive_ok hgood' (hknown hw) ?_
      rintro rfl
      obtain ⟨_, hrow, -, -, hstatus', -⟩ := hx
      exact (observed_of_active hgood.1 hu.time hrow (hstatus'.symm.trans hstatus)).later hw
    · split
      · exact Runs.done
      split
      · exact Runs.done
      refine Ok.bind (fence_ok hgood (hknown (.refl u))) hgood fun r v hgood' hv => ?_
      split
      · exact Runs.done
      refine Ok.access (fun _ _ _ _ he => by cases he) fun w fails r y _ _ _ _ hy hgood'' => ?_
      split
      · exact Runs.done
      · exact Runs.done
      · refine Ok.bind (writeUserSessionCache_ok hgood'' (hknown (hv.trans hy)) fun _ h => by cases h) hgood''
          fun _ _ _ _ => Runs.done

theorem rotateUserSessionRefresh_ok {grace : Int} {nextHash : String} :
    Runs cfg sid after allow call (rotateUserSessionRefresh cfg userID sid' presentedHash nextHash now grace) s := by
  have hloop : ∀ now s, Runs cfg sid after allow call (
      let graceSeconds := grace.tdiv second
      if graceSeconds < 0 then .done (.error .invalid)
      else rotateLoop cfg userID sid' presentedHash nextHash now graceSeconds 3) s := by
    intro now s
    dsimp only
    split
    · exact Runs.done
    · exact rotateLoop_ok
  unfold rotateUserSessionRefresh withNow
  split
  · exact Runs.done
  · split
    · exact Ok.time fun t _ _ => hloop _ t
    · exact hloop _ s

theorem advanceTx_ok
    (h : s.advanceTx userID sid' expectedSessionVersion expectedUserAuthVersion nextUserAuthVersion now = (.ok x, t)) :
    ∃ row, t.sessions.find x.sid = some row ∧ row.status = .active ∧ row.version = x.version ∧
      row.expiresAt = x.expiresAt := by
  unfold Store.advanceTx at h
  split at h
  · cases h
  rename_i session hfind
  obtain ⟨hsid, _, hrow, hver, hexp, hstatus, hauth⟩ := find_ok hfind
  split at h
  · cases h
  rename_i hexpected
  dsimp only at h
  split at h
  · cases h
  cases h
  simp only [not_or, not_not] at hexpected
  obtain ⟨hactive, -, hversion, hauthVersion⟩ := hexpected
  refine ⟨_, Keyed.find_update_pos (by intro; rfl) hrow ?_, hstatus.symm.trans hactive, rfl, hexp.symm⟩
  exact decide_eq_true ⟨(Keyed.key_of_find hrow).trans hsid, hstatus.symm.trans hactive, hver.symm.trans hversion,
    hauth.symm.trans hauthVersion⟩

theorem advanceUserSessionAuthVersion_ok :
    Runs cfg sid after allow call (advanceUserSessionAuthVersion cfg userID sid' expectedSessionVersion expectedUserAuthVersion
      nextUserAuthVersion) s := by
  unfold advanceUserSessionAuthVersion
  split
  · exact Runs.done
  refine Ok.time fun t ht _ => Ok.time fun u hu _ => ?_
  refine Ok.access (fun _ _ _ _ he => by cases he) fun v fails r w hv _ _ hact hw hgood => ?_
  split
  · exact Runs.done
  rename_i x
  have hx : ∃ row, w.sessions.find x.sid = some row ∧ row.status = .active ∧ row.version = x.version ∧
      row.expiresAt = x.expiresAt := by
    cases fails with
    | true => cases hact
    | false => exact advanceTx_ok (Option.some.inj hact)
  obtain ⟨row, hrow, hstatus, hver, hexp⟩ := hx
  refine Ok.bind (writeUserSessionCache_ok hgood ?_ ?_) hgood fun r y hy _ => ?_
  · rintro rfl
    exact ⟨row, hrow, hver.ge, hexp.symm⟩
  · rintro rfl - _ hdeadline
    cases hdeadline
    exact ⟨t.now, rfl, observed_of_active hgood.1 (hu.trans hw).time hrow hstatus⟩
  split
  · refine Ok.bind confirm_ok hy fun r _ _ _ => ?_
    split <;> exact Runs.done
  · exact Runs.done
  · exact Runs.done

/-! ## Revoking calls -/

theorem struck_of_affected {p : UserSession → Bool}
    (hp : ∀ r, p r = true → r.sid = x.sid) (hrow : s.sessions.find x.sid = some row) (hver : row.version = x.version)
    (hexp : row.expiresAt = x.expiresAt) (haffected : (s.sessions.matching p).length = 1) :
    Struck x.sid x (s.revokeWhere p now reason).2 := by
  obtain ⟨r, hr⟩ := List.exists_mem_of_length_pos (Nat.lt_of_lt_of_eq Nat.one_pos haffected.symm)
  obtain ⟨hfind, hpr⟩ := Keyed.mem_matching.mp hr
  have hsid := hp r hpr
  rw [hsid] at hfind
  obtain rfl : row = r := Option.some.inj (hrow.symm.trans hfind)
  have hstruck := struck_revokeWhere now reason hr
  rw [hsid] at hstruck
  exact hstruck.congr hver hexp

def Seals (cfg : Settings) (sid : String) (allow : Op → Bool → Store → Prop) (sid' : String)
    (r : Except SessionError Bool) (t : Store) : Prop :=
  r = .ok true → Firm cfg allow → sid' = sid → Sealed cfg sid t

theorem revokeTx_struck {candidate : UserSession}
    (h : s.revokeTx candidate now reason = (.ok true, t)) (hrow : s.sessions.find candidate.sid = some row)
    (hver : row.version = candidate.version) (hexp : row.expiresAt = candidate.expiresAt) :
    Struck candidate.sid candidate t := by
  unfold Store.revokeTx at h
  split at h
  · cases h
  split at h
  · cases h
  · obtain ⟨hr, rfl⟩ := Prod.mk.injEq .. ▸ h
    refine struck_of_affected (fun r hr => (of_decide_eq_true hr).1) hrow hver hexp ?_
    exact of_decide_eq_true (Except.ok.inj hr)

theorem unsealed {r : Except SessionError Bool} {u : Store} (h : r ≠ .ok true) :
    Ok cfg sid after allow call (Seals cfg sid allow sid') (.done r) u :=
  Ok.done fun _ _ _ hr => absurd hr h

theorem revoke_ok (hs : Good cfg sid after s) (hx : Found x s) {op : Op} (hop : ∀ entry y, op ≠ .eval entry y)
    {tail : Ans op → Call (Except SessionError Bool)}
    (htail : ∀ w fails r y, allow op fails w → act call op fails w = some (r, y) →
      (∃ a, a ≠ .ok true ∧ tail r = .done a) ∨
      tail r = (writeUserSessionCache cfg (x.revoke now reason).cacheEntry none).bind (fun _ => .done (.ok true)) ∧
        (Firm cfg allow → ∀ row, w.sessions.find x.sid = some row → row.expiresAt = x.expiresAt → Struck x.sid x y)) :
    Ok cfg sid after allow call (Seals cfg sid allow x.sid)
      ((writeUserSessionDenyFence cfg x .revoking now reason).bind fun
        | .error e => .done (.error e)
        | .ok () => .access op tail) s := by
  have hknown := hx.knownAs sid
  refine Ok.bind (fence_ok hs hknown) hs fun r v hgood hv => ?_
  split
  · exact unsealed (by simp)
  refine Ok.access (fun _ _ _ _ he => absurd he (hop _ _)) fun w fails r y hw _ hok hact hy hgood' => ?_
  rcases htail w fails r y hok hact with ⟨a, ha, htail⟩ | ⟨htail, hstruck⟩
  · rw [htail]
    exact unsealed ha
  rw [htail]
  have hstruck : Firm cfg allow → x.sid = sid → Struck sid x y := by
    rintro hfirm rfl
    obtain ⟨row, hrow, -, hexp⟩ := (hknown rfl).later (hv.trans hw)
    exact hstruck hfirm row hrow hexp.symm
  refine Ok.bind (tombstone_ok hgood' (fun h => (hknown h).later (hv.trans hy)) hstruck) hgood' fun _ z _ hz => ?_
  exact Ok.done fun z' hz' _ _ hfirm he => hz'.sealed (hz.2 hfirm he)

theorem revokeUserSession_ok :
    Ok cfg sid after allow call (Seals cfg sid allow sid') (revokeUserSession cfg userID sid' reason) s := by
  unfold revokeUserSession
  split
  · exact unsealed (by simp)
  refine Ok.time fun t ht _ => Ok.find fun u r hu hgood hfound => ?_
  split
  · exact unsealed (by simp)
  · exact unsealed (by simp)
  rename_i x
  obtain ⟨rfl, hx⟩ := hfound x rfl
  dsimp only
  split
  · exact unsealed (by simp)
  refine revoke_ok hgood hx (fun _ _ h => by cases h) fun w fails r y hok hact => ?_
  split
  · exact .inl ⟨_, by simp, rfl⟩
  · exact .inl ⟨_, by simp, rfl⟩
  refine .inr ⟨rfl, fun hfirm row hrow hexp => ?_⟩
  cases fails with
  | true => cases hact
  | false => exact revokeTx_struck (Option.some.inj hact) hrow (hfirm.2 _ _ _ hok row hrow) hexp

theorem revokeUserSessionByRefreshHash_ok :
    Ok cfg sid after allow call (Seals cfg sid allow sid') (revokeUserSessionByRefreshHash cfg sid' presentedHash reason) s := by
  unfold revokeUserSessionByRefreshHash
  split
  · exact unsealed (by simp)
  refine Ok.time fun t ht _ => Ok.find fun u r hu hgood hfound => ?_
  split
  · exact unsealed (by simp)
  · exact unsealed (by simp)
  rename_i x
  obtain ⟨rfl, hx⟩ := hfound x rfl
  dsimp only
  split
  · exact unsealed (by simp)
  split
  · exact unsealed (by simp)
  refine revoke_ok hgood hx (fun _ _ h => by cases h) fun w fails r y hok hact => ?_
  split
  · exact .inl ⟨_, by simp, rfl⟩
  · exact .inl ⟨_, by simp, rfl⟩
  refine .inr ⟨rfl, fun hfirm row hrow hexp => ?_⟩
  cases fails with
  | true => cases hact
  | false =>
    obtain ⟨hr, rfl⟩ := Prod.mk.injEq .. ▸ Option.some.inj hact
    refine struck_of_affected (fun r hr => (of_decide_eq_true hr).1) hrow (hfirm.2 _ _ _ hok row hrow) hexp ?_
    exact of_decide_eq_true (Except.ok.inj hr)

/-! ## Bulk revocation -/

theorem writeFences_ok {candidates : List UserSession} (hs : Good cfg sid after s)
    (hknown : ∀ x ∈ candidates, x.sid = sid → Known sid x.version x.expiresAt s) :
    Ok cfg sid after allow call (fun _ t => Later cfg sid s t) (writeFences cfg now reason candidates) s := by
  induction candidates generalizing s with
  | nil => exact Ok.done fun _ ht _ => ht
  | cons x rest ih =>
    rw [writeFences]
    refine Ok.bind (fence_ok hs (hknown x (by simp))) hs fun r t hgood ht => ?_
    split
    · exact Ok.done fun u hu _ => ht.trans hu
    · have hrest := ih hgood fun y hy hsid => (hknown y (by simp [hy]) hsid).later ht
      exact Sat.weaken hrest fun _ u _ hu => ht.trans hu

theorem writeTombstones_ok {revoked : List UserSession} (hs : Good cfg sid after s)
    (hstruck : ∀ x ∈ revoked, x.sid = sid → Struck sid x s) : Ok cfg sid after allow call
      (fun _ t => Later cfg sid s t ∧ (Firm cfg allow → sid ∈ revoked.map UserSession.sid → Sealed cfg sid t))
      (writeTombstones cfg now reason revoked) s := by
  induction revoked generalizing s with
  | nil => exact Ok.done fun _ ht _ => ⟨ht, fun _ h => by cases h⟩
  | cons x rest ih =>
    rw [writeTombstones]
    refine Ok.bind (tombstone_ok hs (fun h => (hstruck x (by simp) h).known) fun _ => hstruck x (by simp)) hs fun _ t hgood ht => ?_
    have hrest := ih hgood fun y hy hsid => (hstruck y (by simp [hy]) hsid).later hs.1 ht.1
    refine Sat.weaken hrest fun _ u _ hu => ⟨ht.1.trans hu.1, fun henabled hmem => ?_⟩
    rcases List.mem_cons.mp hmem with hsid | hmem
    · exact hu.1.sealed (ht.2 henabled hsid.symm)
    · exact hu.2 henabled hmem

theorem candidates_known :
    ∀ x ∈ s.candidates userID excludedSID now, x.sid = sid → Known sid x.version x.expiresAt s := by
  rintro x hx rfl
  obtain ⟨row, hrow, rfl⟩ := List.mem_map.mp hx
  have hmem := (List.mem_insertionSort _).mp (List.mem_of_mem_take hrow)
  exact ⟨row, (Keyed.mem_matching.mp hmem).1, le_rfl, rfl⟩

theorem revokeBatch_struck {sids : List String} {revoked : List UserSession}
    (h : (Except.ok (s.revokeBatch sids now reason).1, (s.revokeBatch sids now reason).2) =
      ((.ok revoked : Except SessionError _), t)) : ∀ x ∈ revoked, x.sid = sid → Struck sid x t := by
  obtain ⟨hrevoked, rfl⟩ := Prod.mk.injEq .. ▸ h
  obtain rfl := Except.ok.inj hrevoked
  rintro x hx rfl
  obtain ⟨row, hrow, rfl⟩ := List.mem_map.mp hx
  rw [UserSession.afterFind_sid]
  exact (struck_revokeWhere now reason hrow).congr row.afterFind_version.symm row.afterFind_expiresAt.symm

theorem revokeRounds_ok {rounds : Nat} {total : List String} (hs : Firm cfg allow → sid ∈ total → Sealed cfg sid s) :
    Ok cfg sid after allow call (fun r t => Firm cfg allow → sid ∈ r.1 → Sealed cfg sid t)
      (revokeRounds cfg userID excludedSID reason now rounds total) s := by
  induction rounds generalizing s total with
  | zero => exact Ok.access (fun _ _ _ _ he => by cases he) fun _ _ _ _ _ _ _ hact _ _ => by cases hact
  | succ rounds ih =>
    have hdone : ∀ {u : Store} {e : Option SessionError}, Later cfg sid s u →
        Ok cfg sid after allow call (fun r t => Firm cfg allow → sid ∈ r.1 → Sealed cfg sid t) (.done (total, e)) u :=
      fun hu => Ok.done fun v hv _ henabled hmem => (hu.trans hv).sealed (hs henabled hmem)
    rw [revokeRounds]
    refine Ok.access (fun _ _ _ _ he => by cases he) fun t fails r u ht _ _ hact hu hgood => ?_
    obtain rfl : t = u := congrArg Prod.snd (Option.some.inj hact)
    split
    · exact hdone ht
    · exact hdone ht
    rename_i first rest
    have hknown : ∀ x ∈ first :: rest, x.sid = sid → Known sid x.version x.expiresAt t := by
      cases fails with
      | true => cases hact
      | false =>
        have hlist : t.candidates userID excludedSID now = first :: rest :=
          Except.ok.inj (congrArg Prod.fst (Option.some.inj hact))
        exact hlist ▸ candidates_known
    refine Ok.bind (writeFences_ok hgood hknown) hgood fun r v hgood' hv => ?_
    split
    · exact hdone (ht.trans hv)
    refine Ok.access (fun _ _ _ _ he => by cases he) fun w fails r y hw hgoodw _ hact hy hgoody => ?_
    split
    · exact hdone ((ht.trans hv).trans hy)
    rename_i revoked
    have hstruck : ∀ x ∈ revoked, x.sid = sid → Struck sid x y := by
      cases fails with
      | true => cases hact
      | false => exact revokeBatch_struck (Option.some.inj hact)
    refine Ok.bind (writeTombstones_ok hgoody hstruck) hgoody fun _ z hz hsealed => ih fun henabled hmem => ?_
    rcases List.mem_append.mp hmem with hmem | hmem
    · exact (((ht.trans hv).trans hy).trans hsealed.1).sealed (hs henabled hmem)
    · exact hsealed.2 henabled hmem

theorem revokeUserSessions_ok {rounds : Nat} :
    Ok cfg sid after allow call (fun r t => Firm cfg allow → sid ∈ r.1 → Sealed cfg sid t)
      (revokeUserSessions cfg userID excludedSID reason rounds) s := by
  unfold revokeUserSessions
  split
  · exact Ok.done fun _ _ _ _ h => by cases h
  · exact Ok.time fun t _ _ => revokeRounds_ok fun _ h => by cases h

/-! ## All calls -/

def Answered (cfg : Settings) (sid : String) (after : Prop) (allow : Op → Bool → Store → Prop) (n i : Nat) : Name → Answer → Store → Prop
  | .getUserSessionCached sid', .session r, _ => n ≤ i → Unread sid after sid' r
  | .revokeUserSession _ sid' _, .revoked r, t => Seals cfg sid allow sid' r t
  | .revokeUserSessionByRefreshHash sid' _ _, .revoked r, t => Seals cfg sid allow sid' r t
  | .revokeUserSessions _ _ _ _, .affected r, t => Firm cfg allow → sid ∈ r.1 → Sealed cfg sid t
  | _, _, _ => True

def contract (cfg : Settings) (sid : String) (after : Prop) (allow : Op → Bool → Store → Prop) (n : Nat) :
    Contract (machine cfg) where
  allowed _ _ := allow
  inv := Good cfg sid after
  rely _ _ := Later cfg sid
  does _ _ := Later cfg sid
  post := Answered cfg sid after allow n
  apart _ _ := True
  trans := Later.trans
  others _ _ _ _ h := h
  env := by
    rintro elapsed s t henv hs
    cases henv
    exact ⟨⟨inv_tick hs.1 elapsed, fun h => (later_tick s elapsed).sealed (hs.2 h)⟩, fun _ _ => later_tick s elapsed⟩

theorem body_ok {i : Nat} (name : Name) (hs : Good cfg sid after s) :
    (contract cfg sid after allow n).Sat i name (body cfg name) s := by
  cases name with
  | getUserSessionCached =>
    exact Ok.bind (getUserSessionCached_ok hs) hs fun r _ _ hr => Ok.done fun _ _ _ _ => hr
  | rotateUserSessionRefresh =>
    exact Ok.bind rotateUserSessionRefresh_ok hs fun r _ _ _ => Ok.done fun _ _ _ => trivial
  | revokeUserSession =>
    refine Ok.bind revokeUserSession_ok hs fun r _ _ hr => Ok.done fun t ht _ htrue henabled hsid => ?_
    exact ht.sealed (hr htrue henabled hsid)
  | revokeUserSessionByRefreshHash =>
    refine Ok.bind revokeUserSessionByRefreshHash_ok hs fun r _ _ hr => Ok.done fun t ht _ htrue henabled hsid => ?_
    exact ht.sealed (hr htrue henabled hsid)
  | revokeUserSessions =>
    refine Ok.bind revokeUserSessions_ok hs fun r _ _ hr => Ok.done fun t ht _ henabled hmem => ?_
    exact ht.sealed (hr henabled hmem)
  | advanceUserSessionAuthVersion =>
    exact Ok.bind advanceUserSessionAuthVersion_ok hs fun r _ _ _ => Ok.done fun _ _ _ => trivial

/-- Redis has no errors, and no version is advanced under a revocation. -/
def Quiet (s : Sys) : Happening → Prop
  | .step i fails => ∀ c ∈ s.pending i, Undisturbed c.2 fails s.store
  | _ => True

theorem keeps_of_quiet (s : Sys) (e : Happening) (h : Quiet s e) :
    (contract cfg sid after Undisturbed n).Keeps s e := by
  cases e with
  | begin => exact fun _ _ => ⟨trivial, trivial⟩
  | step => exact h
  | env => trivial

def Revoked (s : Sys) (i : Nat) (sid : String) : Prop :=
  (∃ userID reason, s.result i = some (.revokeUserSession userID sid reason, .revoked (.ok true))) ∨
  (∃ presentedHash reason,
    s.result i = some (.revokeUserSessionByRefreshHash sid presentedHash reason, .revoked (.ok true))) ∨
  ∃ userID excludedSID reason rounds sids,
    s.result i = some (.revokeUserSessions userID excludedSID reason rounds, .affected (sids, none)) ∧ sid ∈ sids

theorem inv_start (now : Int) (sessions : Sessions) : Inv cfg sid (Store.start now sessions) where
  revoked c hc := by cases hc
  once c c' hc := by cases hc
  row entry expireAt h := by cases h
  version entry expireAt h := by cases h
  active entry expireAt h := by cases h

theorem Revoked.sealed {i : Nat} {s : Sys} (h : Revoked s i sid)
    (hfine : Fine (contract cfg sid after allow n) s) (hfirm : Firm cfg allow) : Sealed cfg sid s.store := by
  rcases h with ⟨_, _, h⟩ | ⟨_, _, h⟩ | ⟨_, _, _, _, _, h, hmem⟩
  · exact hfine.post (fun _ _ => Later.refl) h rfl hfirm rfl
  · exact hfine.post (fun _ _ => Later.refl) h rfl hfirm rfl
  · exact hfine.post (fun _ _ => Later.refl) h hfirm hmem

theorem fine_after {s : Sys} (hfine : Fine (contract cfg sid False Undisturbed 0) s)
    (hsealed : Sealed cfg sid s.store) : Fine (contract cfg sid True Undisturbed s.calls.length) s := by
  refine ⟨⟨hfine.inv.1, fun _ => hsealed⟩, fun i name p hi => ?_, fun _ _ _ _ _ _ _ _ _ => trivial⟩
  refine Sat.restrict (hfine.sat i name p hi) (K := Sealed cfg sid) ?_ (fun _ _ _ => id) ?_ ?_
  · exact fun a => ⟨fun h => ⟨⟨h.1, False.elim⟩, h.2 trivial⟩, fun h => ⟨h.1.1, fun _ => h.2⟩⟩
  · exact fun _ _ _ _ _ ha _ _ hab => hab.sealed ha
  intro a t _ ha
  have hlt := (List.getElem?_eq_some_iff.mp hi).1
  cases name with
  | getUserSessionCached =>
    cases a with
    | session => exact fun hle => absurd hlt (Nat.not_lt.mpr hle)
    | revoked => exact ha
    | affected => exact ha
  | _ => cases a <;> exact ha

theorem revocation_final {cfg : Settings} (henabled : cfg.redisEnabled = true) {now : Int} {sessions : Sessions}
    {sid : String} {s t : System Store Name Op Ans Answer} {es es' : List (Event Name Bool Nat)} {i j : Nat}
    {r : Except SessionError UserSession} (hrun : Steps (machine cfg).step Quiet (.start (.start now sessions)) es s)
    (hrevoked : Revoked s i sid) (hlater : Steps (machine cfg).step Quiet s es' t) (hj : s.calls.length ≤ j)
    (hread : t.result j = some (.getUserSessionCached sid, .session r)) : ∃ e, r = .error e := by
  have hstart : Fine (contract cfg sid False Undisturbed 0) (.start (.start now sessions)) :=
    Fine.start ⟨inv_start now sessions, False.elim⟩
  have hfine := hstart.run (fun _ _ => Later.refl) (fun _ name _ => body_ok name) keeps_of_quiet hrun
  have hafter := (fine_after hfine (hrevoked.sealed hfine ⟨henabled, fun _ _ _ h => h⟩)).run (fun _ _ => Later.refl)
    (fun _ name _ => body_ok name) keeps_of_quiet hlater
  exact hafter.post (fun _ _ => Later.refl) hread hj trivial rfl

instance (op : Op) (fails : Bool) (s : Store) : Decidable (Undisturbed op fails s) := by
  unfold Undisturbed
  split <;> infer_instance

instance (s : Sys) (e : Happening) : Decidable (Quiet s e) := by
  unfold Quiet
  split <;> infer_instance

def laptop : UserSession :=
  ⟨"laptop", 1, 1, 1, .active, "first", "", 0, "password", "", "", 1000, 1000, 4600, 0, ""⟩

def laptopSessions : Sessions := ⟨[laptop], by decide⟩

def minute : Settings := ⟨true, 60⟩

def steps (i k : Nat) : List (Happening) := List.replicate k (.step i false)

theorem revocation_final_laptop : ∃ s t : System Store Name Op Ans Answer, ∃ es es' r,
    Steps (machine minute).step Quiet (.start (.start (1000 * second) laptopSessions)) es s ∧ Revoked s 0 "laptop" ∧
      Steps (machine minute).step Quiet s es' t ∧
        t.result 1 = some (.getUserSessionCached "laptop", .session r) ∧ ∃ e, r = .error e := by
  have hrun : (run (machine minute).step Quiet (.start (.start (1000 * second) laptopSessions))
      (.begin (.revokeUserSession 1 "laptop" "logout") :: steps 0 7)).any (fun s =>
        s.result 0 = some (.revokeUserSession 1 "laptop" "logout", .revoked (.ok true)) ∧
        s.calls.length = 1 ∧
        ((run (machine minute).step Quiet s
          (.begin (.getUserSessionCached "laptop") :: steps 1 2)).any fun t =>
            t.result 1 = some (.getUserSessionCached "laptop", .session (.error .inactive)))) = true := by
    decide +kernel
  obtain ⟨s, hs, h⟩ := exists_of_run hrun
  obtain ⟨hrevoked, hlength, h⟩ := of_decide_eq_true h
  obtain ⟨t, ht, h⟩ := exists_of_run h
  have hr := of_decide_eq_true h
  have hrevoked' : Revoked s 0 "laptop" := .inl ⟨1, "logout", hrevoked⟩
  exact ⟨s, t, _, _, _, hs, hrevoked', ht, hr, revocation_final rfl hs hrevoked' ht (by omega) hr⟩

/-- The session is advanced once the fence has expired, so the last entry is refused. -/
theorem revoked_session_read : ∃ s t : System Store Name Op Ans Answer, ∃ es es' session,
    Steps (machine minute).step free (.start (.start (1000 * second) laptopSessions)) es s ∧ Revoked s 0 "laptop" ∧
      Steps (machine minute).step free s es' t ∧ s.calls.length ≤ 2 ∧
        t.result 2 = some (.getUserSessionCached "laptop", .session (.ok session)) ∧ session.status = .active := by
  have hrun : (run (machine minute).step free (.start (.start (1000 * second) laptopSessions))
      ([.begin (.revokeUserSession 1 "laptop" "logout")] ++ steps 0 4 ++ [.env 61000000000] ++
        [.begin (.advanceUserSessionAuthVersion 1 "laptop" 1 1 2)] ++ steps 1 6 ++ steps 0 3)).any (fun s =>
        s.result 0 = some (.revokeUserSession 1 "laptop" "logout", .revoked (.ok true)) ∧
        s.calls.length ≤ 2 ∧
        ((run (machine minute).step free s
          (.begin (.getUserSessionCached "laptop") :: steps 2 2)).any fun t =>
            t.result 2 = some (.getUserSessionCached "laptop", .session (.ok
              { laptop with version := 2, userAuthVersion := 2, lastActiveAt := 1061, refreshHash := "" })))) = true := by
    decide +kernel
  obtain ⟨s, hs, h⟩ := exists_of_run hrun
  obtain ⟨hrevoked, hlength, h⟩ := of_decide_eq_true h
  obtain ⟨t, ht, h⟩ := exists_of_run h
  exact ⟨s, t, _, _, _, hs, .inl ⟨1, "logout", hrevoked⟩, ht, hlength, of_decide_eq_true h, rfl⟩

end NewApi.Auth

