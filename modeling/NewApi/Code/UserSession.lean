import NewApi.Lib.Calls
import NewApi.Lib.GoText
import NewApi.Lib.Table

/-!
# Login sessions

`model/user_session.go`. A transaction that writes to Redis before its row is two accesses; row locks are left out, since
SQLite has none. Times are nanoseconds, columns Unix seconds, and Redis counts milliseconds.
-/

namespace NewApi.Code.UserSessions

open Calls Table

def second : Int := 1000000000

def millisecond : Int := 1000000

inductive SessionStatus where
  | active | revoking | revoked
deriving DecidableEq

structure UserSession where
  sid : String
  userID : Int
  version : Int
  userAuthVersion : Int
  status : SessionStatus
  refreshHash : String
  previousRefreshHash : String
  previousValidUntil : Int
  loginMethod : String
  ip : String
  userAgent : String
  createdAt : Int
  lastActiveAt : Int
  expiresAt : Int
  revokedAt : Int
  revokedReason : String
deriving DecidableEq

def UserSession.afterFind (session : UserSession) : UserSession :=
  { session with previousRefreshHash := GoText.trimSpace session.previousRefreshHash }

section
variable (session : UserSession)

@[simp] theorem UserSession.afterFind_sid : session.afterFind.sid = session.sid := rfl
@[simp] theorem UserSession.afterFind_version : session.afterFind.version = session.version := rfl
@[simp] theorem UserSession.afterFind_status : session.afterFind.status = session.status := rfl
@[simp] theorem UserSession.afterFind_expiresAt : session.afterFind.expiresAt = session.expiresAt := rfl
@[simp] theorem UserSession.afterFind_userAuthVersion : session.afterFind.userAuthVersion = session.userAuthVersion := rfl
@[simp] theorem UserSession.afterFind_refreshHash : session.afterFind.refreshHash = session.refreshHash := rfl
@[simp] theorem UserSession.afterFind_previousValidUntil : session.afterFind.previousValidUntil = session.previousValidUntil := rfl

end

/-- `session.Status != UserSessionStatusActive || session.RevokedAt != 0 || session.ExpiresAt <= now` -/
def UserSession.inactiveAt (session : UserSession) (now : Int) : Bool :=
  session.status ≠ .active ∨ session.revokedAt ≠ 0 ∨ session.expiresAt ≤ now

@[simp] theorem UserSession.afterFind_inactiveAt (session : UserSession) (now : Int) :
    session.afterFind.inactiveAt now = session.inactiveAt now := rfl

structure UserSessionCacheEntry where
  sid : String
  userID : Int
  version : Int
  userAuthVersion : Int
  status : SessionStatus
  loginMethod : String
  ip : String
  userAgent : String
  createdAt : Int
  lastActiveAt : Int
  expiresAt : Int
  revokedAt : Int
  revokedReason : String
  cacheSchema : Int
deriving DecidableEq

def userSessionCacheSchema : Int := 1

def UserSession.cacheEntry (session : UserSession) : UserSessionCacheEntry where
  sid := session.sid
  userID := session.userID
  version := session.version
  userAuthVersion := session.userAuthVersion
  status := session.status
  loginMethod := session.loginMethod
  ip := session.ip
  userAgent := session.userAgent
  createdAt := session.createdAt
  lastActiveAt := session.lastActiveAt
  expiresAt := session.expiresAt
  revokedAt := session.revokedAt
  revokedReason := session.revokedReason
  cacheSchema := userSessionCacheSchema

def UserSessionCacheEntry.session (entry : UserSessionCacheEntry) : UserSession where
  sid := entry.sid
  userID := entry.userID
  version := entry.version
  userAuthVersion := entry.userAuthVersion
  status := entry.status
  refreshHash := ""
  previousRefreshHash := ""
  previousValidUntil := 0
  loginMethod := entry.loginMethod
  ip := entry.ip
  userAgent := entry.userAgent
  createdAt := entry.createdAt
  lastActiveAt := entry.lastActiveAt
  expiresAt := entry.expiresAt
  revokedAt := entry.revokedAt
  revokedReason := entry.revokedReason

inductive SessionError where
  | invalid
  | inactive
  | refreshInvalid
  | refreshRace (session : UserSession)
  | refreshReuse
  | cacheObservationStale
  | recordNotFound
  | database
  | redis
deriving DecidableEq

structure Settings where
  redisEnabled : Bool
  syncFrequency : Int
deriving DecidableEq

variable (cfg : Settings) (s : Store)

def Settings.userCacheTTLSeconds : Int := if cfg.syncFrequency ≤ 0 then 60 else cfg.syncFrequency

/-! ## The store -/

abbrev Sessions := Keyed UserSession.sid

/-- `exchanges` and `revocations`: which call has exchanged which hash, and when a session was revoked. -/
structure Store where
  now : Int
  sessions : Sessions
  cache : String → Option (UserSessionCacheEntry × Int)
  exchanges : List (Nat × String × String)
  revocations : List (String × Int)

def Store.start (now : Int) (sessions : Sessions) : Store := ⟨now, sessions, fun _ => none, [], []⟩

def Store.milli : Int := s.now / millisecond

def Store.cached (sid : String) : Option UserSessionCacheEntry :=
  (s.cache sid).bind fun (entry, expireAt) => if s.milli ≤ expireAt then some entry else none

/-- The script of `writeUserSessionCache`: whether it has written. A past expiry removes the key. -/
def Store.eval (entry : UserSessionCacheEntry) (redisExpiration : Int) : Bool × Store :=
  let current := s.cached entry.sid
  let currentVersion := (current.map UserSessionCacheEntry.version).getD 0
  if entry.status = .active ∧ current.any fun c => c.status = .revoking ∨ c.status = .revoked then (false, s)
  else if currentVersion > entry.version then (false, s)
  else
    let value :=
      if entry.status = .active then
        if redisExpiration ≤ s.milli then none else some (entry, redisExpiration)
      else some (entry, s.milli + redisExpiration)
    (true, { s with cache := Function.update s.cache entry.sid value })

def UserSession.revoke (session : UserSession) (now : Int) (reason : String) : UserSession :=
  { session with status := .revoked, revokedAt := now, revokedReason := reason }

def Store.revokeWhere (p : UserSession → Bool) (now : Int) (reason : String) : List UserSession × Store :=
  (s.sessions.matching p,
    { s with
      sessions := s.sessions.update p (fun session => session.revoke now reason) fun _ => rfl
      revocations := s.revocations ++ (s.sessions.matching p).map fun session => (session.sid, s.now) })

def userSessionRevokeBatchSize : Nat := 500

/-! ## Accesses -/

inductive Op where
  | now
  | hGetAll (sid : String)
  | eval (entry : UserSessionCacheEntry) (redisExpiration : Int)
  | find (sid : String) (userID : Option Int)
  | count (session : UserSession) (now : Int)
  | rotate (userID : Int) (sid : String) (session : UserSession) (presentedHash nextHash : String) (now graceSeconds : Int)
  | revokeReused (session : UserSession) (now : Int)
  | revokeTx (candidate : UserSession) (now : Int) (reason : String)
  | revokeLocked (session : UserSession) (now : Int) (reason : String)
  | advanceTx (userID : Int) (sid : String) (expectedSessionVersion expectedUserAuthVersion nextUserAuthVersion now : Int)
  | candidates (userID : Int) (excludedSID : String) (now : Int)
  | revokeBatch (sids : List String) (now : Int) (reason : String)
  | blocked
deriving DecidableEq

/-- A script answers with `none` for an error of Redis. -/
def Ans : Op → Type
  | .now => Int
  | .hGetAll _ => Option UserSessionCacheEntry
  | .eval _ _ => Option Bool
  | .find _ _ => Except SessionError UserSession
  | .count _ _ => Except SessionError Nat
  | .rotate _ _ _ _ _ _ _ | .revokeReused _ _ => Except SessionError Bool
  | .revokeTx _ _ _ | .revokeLocked _ _ _ => Except SessionError Bool
  | .advanceTx _ _ _ _ _ _ => Except SessionError UserSession
  | .candidates _ _ _ | .revokeBatch _ _ _ => Except SessionError (List UserSession)
  | .blocked => Empty

def Store.find (sid : String) (userID : Option Int) : Except SessionError UserSession :=
  match s.sessions.find sid with
  | none => .error .recordNotFound
  | some session =>
    if userID.all fun id => session.userID = id then .ok session.afterFind else .error .recordNotFound

def Store.count (session : UserSession) (now : Int) : Nat :=
  (s.sessions.matching fun row =>
    row.sid = session.sid ∧ row.userID = session.userID ∧ row.status = .active ∧ row.revokedAt = 0 ∧ row.expiresAt > now ∧
      row.version = session.version ∧ row.userAuthVersion = session.userAuthVersion).length

/-- `session` is the row as it has been read. -/
def Store.rotate (call : Nat) (userID : Int) (sid : String) (session : UserSession) (presentedHash nextHash : String)
    (now graceSeconds : Int) : Bool × Store :=
  let swapped := fun row : UserSession =>
    row.sid = sid ∧ row.userID = userID ∧ row.status = .active ∧ row.revokedAt = 0 ∧ row.expiresAt > now ∧
      row.refreshHash = presentedHash
  if (s.sessions.matching swapped).isEmpty then (false, s)
  else
    (true,
      { s with
        sessions := s.sessions.update swapped
          (fun row =>
            { row with
              previousRefreshHash := session.refreshHash
              previousValidUntil := now + graceSeconds
              refreshHash := nextHash
              lastActiveAt := now }) fun _ => rfl
        exchanges := s.exchanges ++ [(call, sid, presentedHash)] })

def Store.revokeTx (candidate : UserSession) (now : Int) (reason : String) : Except SessionError Bool × Store :=
  match s.find candidate.sid (some candidate.userID) with
  | .error e => (.error e, s)
  | .ok current =>
    if current.inactiveAt now then (.ok false, s)
    else
      let (affected, t) := s.revokeWhere (fun row => row.sid = candidate.sid ∧ row.status = .active) now reason
      (.ok (affected.length = 1), t)

def UserSession.advance (session : UserSession) (nextUserAuthVersion now : Int) : UserSession :=
  { session with version := session.version + 1, userAuthVersion := nextUserAuthVersion, lastActiveAt := now }

def Store.advanceTx (userID : Int) (sid : String)
    (expectedSessionVersion expectedUserAuthVersion nextUserAuthVersion now : Int) :
    Except SessionError UserSession × Store :=
  match s.find sid (some userID) with
  | .error e => (.error e, s)
  | .ok session =>
    if session.status ≠ .active ∨ session.expiresAt ≤ now ∨ session.version ≠ expectedSessionVersion ∨
        session.userAuthVersion ≠ expectedUserAuthVersion then (.error .inactive, s)
    else
      let advanced := fun row : UserSession =>
        row.sid = sid ∧ row.status = .active ∧ row.version = expectedSessionVersion ∧
          row.userAuthVersion = expectedUserAuthVersion
      if (s.sessions.matching advanced).length ≠ 1 then (.error .inactive, s)
      else
        (.ok (session.advance nextUserAuthVersion now),
          { s with
            sessions := s.sessions.update advanced
              (fun row =>
                { row with
                  version := (session.advance nextUserAuthVersion now).version
                  userAuthVersion := nextUserAuthVersion
                  lastActiveAt := now }) fun _ => rfl })

def Store.candidates (userID : Int) (excludedSID : String) (now : Int) : List UserSession :=
  (((s.sessions.matching fun row =>
    row.userID = userID ∧ row.status = .active ∧ row.expiresAt > now ∧ (excludedSID ≠ "" → row.sid ≠ excludedSID)).insertionSort
      fun a b => a.sid ≤ b.sid).take userSessionRevokeBatchSize).map UserSession.afterFind

/-- The transaction of `revokeUserSessions`: the rows that it has revoked. -/
def Store.revokeBatch (sids : List String) (now : Int) (reason : String) : List UserSession × Store :=
  let (revoked, t) := s.revokeWhere (fun row => row.sid ∈ sids ∧ row.status = .active) now reason
  (revoked.map UserSession.afterFind, t)

/-- One access of this call. -/
def act (call : Nat) (op : Op) (fails : Bool) (s : Store) : Option (Ans op × Store) :=
  match op with
  | .now => some (s.now, s)
  | .hGetAll sid => some (if fails then none else s.cached sid, s)
  | .eval entry redisExpiration =>
    if fails then some (none, s) else some (some (s.eval entry redisExpiration).1, (s.eval entry redisExpiration).2)
  | .find sid userID => some (if fails then .error .database else s.find sid userID, s)
  | .count session now => some (if fails then .error .database else .ok (s.count session now), s)
  | .rotate userID sid session presentedHash nextHash now graceSeconds =>
    if fails then some (.error .database, s)
    else
      some (.ok (s.rotate call userID sid session presentedHash nextHash now graceSeconds).1,
        (s.rotate call userID sid session presentedHash nextHash now graceSeconds).2)
  | .revokeReused session now =>
    if fails then some (.error .database, s)
    else
      let (affected, t) := s.revokeWhere (fun row =>
        row.sid = session.sid ∧ row.userID = session.userID ∧ row.status = .active ∧ row.revokedAt = 0 ∧
          row.expiresAt > now) now "refresh_reuse"
      some (.ok (¬ affected.isEmpty), t)
  | .revokeTx candidate now reason =>
    if fails then some (.error .database, s) else some (s.revokeTx candidate now reason)
  | .revokeLocked session now reason =>
    if fails then some (.error .database, s)
    else
      let (affected, t) := s.revokeWhere (fun row => row.sid = session.sid ∧ row.status = .active) now reason
      some (.ok (affected.length = 1), t)
  | .advanceTx userID sid expectedSessionVersion expectedUserAuthVersion nextUserAuthVersion now =>
    if fails then some (.error .database, s)
    else some (s.advanceTx userID sid expectedSessionVersion expectedUserAuthVersion nextUserAuthVersion now)
  | .candidates userID excludedSID now =>
    some (if fails then .error .database else .ok (s.candidates userID excludedSID now), s)
  | .revokeBatch sids now reason =>
    if fails then some (.error .database, s)
    else some (.ok (s.revokeBatch sids now reason).1, (s.revokeBatch sids now reason).2)
  | .blocked => none

/-! ## The cache -/

abbrev Call := Prog Op Ans

/-- The expiry of a deny entry, in milliseconds from when it is written. -/
def denyExpiration (sessionTTL : Int) : Int :=
  let ttl := min sessionTTL (cfg.userCacheTTLSeconds * second)
  max (if ttl ≤ 0 then second / millisecond else ttl / millisecond) 1

def cacheExpiresAt (sessionExpiresAt cacheDeadline : Int) : Int :=
  if sessionExpiresAt < cacheDeadline then sessionExpiresAt else cacheDeadline

/-- `cacheDeadline` is `none` for the zero time. -/
def writeUserSessionCache (entry : UserSessionCacheEntry) (cacheDeadline : Option Int) :
    Call (Except SessionError Unit) :=
  if ¬ cfg.redisEnabled then .done (.ok ())
  else
    .access .now fun (now : Int) =>
      let sessionExpiresAt := entry.expiresAt * second
      let sessionTTL := sessionExpiresAt - now
      if entry.status = .active then
        match cacheDeadline with
        | none => .done (.error .invalid)
        | some cacheDeadline =>
          if cacheDeadline - now ≤ 0 then .done (.error .cacheObservationStale)
          else if sessionTTL ≤ 0 then .done (.error .inactive)
          else if cacheExpiresAt sessionExpiresAt cacheDeadline - now < millisecond then
            .done (.error .cacheObservationStale)
          else
            .access (.eval entry (cacheExpiresAt sessionExpiresAt cacheDeadline / millisecond)) fun
              | none => .done (.error .redis)
              | some false => .done (.error .inactive)
              | some true => .access .now fun (completedAt : Int) =>
                if ¬ completedAt < cacheDeadline then .done (.error .cacheObservationStale)
                else if ¬ completedAt < sessionExpiresAt then .done (.error .inactive)
                else .done (.ok ())
      else
        .access (.eval entry (denyExpiration cfg sessionTTL)) fun
          | none => .done (.error .redis)
          | some false => .done (.error .inactive)
          | some true => .done (.ok ())

def writeUserSessionDenyFence (session : UserSession) (status : SessionStatus) (now : Int) (reason : String)
    : Call (Except SessionError Unit) :=
  if ¬ cfg.redisEnabled then .done (.ok ())
  else
    writeUserSessionCache cfg
      { session.cacheEntry with status, revokedAt := now, revokedReason := reason } none

def confirmUserSessionActiveSnapshot (session : UserSession) : Call (Except SessionError Unit) :=
  if session.sid = "" ∨ session.userID ≤ 0 ∨ session.version ≤ 0 ∨ session.userAuthVersion ≤ 0 then .done (.error .invalid)
  else
    .access .now fun (now : Int) => .access (.count session (now / second)) fun
      | .error e => .done (.error e)
      | .ok count => .done (if count ≠ 1 then .error .inactive else .ok ())

/-- A late copy is confirmed by the database, and an error of Redis is only logged. -/
def publishActive (session : UserSession) (cacheDeadline : Int) : Call (Except SessionError UserSession) :=
  (writeUserSessionCache cfg session.cacheEntry (some cacheDeadline)).bind fun
    | .error .cacheObservationStale =>
      (confirmUserSessionActiveSnapshot session).bind fun
        | .error e => .done (.error e)
        | .ok () => .done (.ok session)
    | .error .inactive => .done (.error .inactive)
    | _ => .done (.ok session)

/-- `none` is a miss, a failure of Redis or an entry of another schema. -/
def getUserSessionCache (sid : String) : Call (Option (Except SessionError UserSessionCacheEntry)) :=
  .access (.hGetAll sid) fun
    | none => .done none
    | some entry =>
      if entry.cacheSchema ≠ userSessionCacheSchema ∨ entry.sid ≠ sid ∨ entry.userID ≤ 0 ∨ entry.version ≤ 0 ∨
          entry.userAuthVersion ≤ 0 then .done none
      else
        .access .now fun (now : Int) =>
          .done (some (if entry.status ≠ .active ∨ entry.revokedAt ≠ 0 ∨ entry.expiresAt ≤ now / second then .error .inactive
            else .ok entry))

def getUserSessionFromDatabase (sid : String) : Call (Except SessionError UserSession) :=
  .access .now fun (start : Int) => .access (.find sid none) fun
    | .error e => .done (.error e)
    | .ok session => .access .now fun (now : Int) =>
      if session.inactiveAt (now / second) then
        if cfg.redisEnabled then
          (writeUserSessionCache cfg { session.cacheEntry with status := .revoked } none).bind fun _ =>
            .done (.error .inactive)
        else .done (.error .inactive)
      else if cfg.redisEnabled then publishActive cfg session (start + cfg.userCacheTTLSeconds * second)
      else .done (.ok session)

def getUserSessionCached (sid : String) : Call (Except SessionError UserSession) :=
  if sid = "" then .done (.error .invalid)
  else if cfg.redisEnabled then
    (getUserSessionCache sid).bind fun
      | some (.ok entry) => .done (.ok entry.session)
      | some (.error e) => .done (.error e)
      | none => getUserSessionFromDatabase cfg sid
  else getUserSessionFromDatabase cfg sid

/-! ## Rotation -/

/-- A previous hash after its grace: the session is revoked. -/
def revokeReusedSession (session : UserSession) (now : Int) : Call (Except SessionError UserSession) :=
  (writeUserSessionDenyFence cfg session .revoking now "refresh_reuse").bind fun
    | .error e => .done (.error e)
    | .ok () => .access (.revokeReused session now) fun
      | .error e => .done (.error e)
      | .ok false => .done (.error .inactive)
      | .ok true =>
        (writeUserSessionCache cfg (session.revoke now "refresh_reuse").cacheEntry none).bind fun _ =>
          .done (.error .refreshReuse)

def rotateLoop (cfg : Settings) (userID : Int) (sid presentedHash nextHash : String) (now graceSeconds : Int) :
    Nat → Call (Except SessionError UserSession)
  | 0 => .done (.error .refreshInvalid)
  | attempts + 1 =>
    .access .now fun (start : Int) => .access (.find sid (some userID)) fun
      | .error e => .done (.error e)
      | .ok session =>
        if session.inactiveAt now then .done (.error .inactive)
        else if session.refreshHash = presentedHash then
          .access (.rotate userID sid session presentedHash nextHash now graceSeconds) fun
            | .error e => .done (.error e)
            | .ok false => rotateLoop cfg userID sid presentedHash nextHash now graceSeconds attempts
            | .ok true =>
              publishActive cfg
                { session with
                  previousRefreshHash := session.refreshHash
                  previousValidUntil := now + graceSeconds
                  refreshHash := nextHash
                  lastActiveAt := now } (start + cfg.userCacheTTLSeconds * second)
        else if session.previousRefreshHash = "" ∨ session.previousRefreshHash ≠ presentedHash then
          .done (.error .refreshInvalid)
        else if now ≤ session.previousValidUntil then .done (.error (.refreshRace session))
        else revokeReusedSession cfg session now

/-- The first access gives the time, where the caller gives none. -/
def withNow {α : Type} (now : Int) (f : Int → Call α) : Call α :=
  if now ≤ 0 then .access .now fun (time : Int) => f (time / second) else f now

def rotateUserSessionRefresh (userID : Int) (sid presentedHash nextHash : String) (now grace : Int) :
    Call (Except SessionError UserSession) :=
  if userID ≤ 0 ∨ sid = "" ∨ presentedHash = "" ∨ nextHash = "" ∨ presentedHash = nextHash then .done (.error .invalid)
  else
    withNow now fun now =>
      let graceSeconds := grace.tdiv second
      if graceSeconds < 0 then .done (.error .invalid)
      else rotateLoop cfg userID sid presentedHash nextHash now graceSeconds 3

/-! ## Revocation -/

def revokeUserSession (userID : Int) (sid reason : String) : Call (Except SessionError Bool) :=
  if userID ≤ 0 ∨ sid = "" then .done (.error .invalid)
  else
    .access .now fun (time : Int) => .access (.find sid (some userID)) fun
      | .error .recordNotFound => .done (.ok false)
      | .error e => .done (.error e)
      | .ok candidate =>
        let now := time / second
        if candidate.inactiveAt now then .done (.ok false)
        else
          (writeUserSessionDenyFence cfg candidate .revoking now reason).bind fun
            | .error e => .done (.error e)
            | .ok () => .access (.revokeTx candidate now reason) fun
              | .error e => .done (.error e)
              | .ok false => .done (.ok false)
              | .ok true =>
                (writeUserSessionCache cfg (candidate.revoke now reason).cacheEntry none).bind fun _ => .done (.ok true)

def revokeUserSessionByRefreshHash (sid presentedHash reason : String) : Call (Except SessionError Bool) :=
  if sid = "" ∨ presentedHash = "" then .done (.error .invalid)
  else
    .access .now fun (time : Int) => .access (.find sid none) fun
      | .error .recordNotFound => .done (.ok false)
      | .error e => .done (.error e)
      | .ok session =>
        let now := time / second
        let validCurrent := session.refreshHash = presentedHash
        let validPrevious := session.previousRefreshHash ≠ "" ∧ now ≤ session.previousValidUntil ∧
          session.previousRefreshHash = presentedHash
        if session.inactiveAt now then .done (.ok false)
        else if ¬ validCurrent ∧ ¬ validPrevious then .done (.ok false)
        else
          (writeUserSessionDenyFence cfg session .revoking now reason).bind fun
            | .error e => .done (.error e)
            | .ok () => .access (.revokeLocked session now reason) fun
              | .error e => .done (.error e)
              | .ok false => .done (.ok false)
              | .ok true =>
                (writeUserSessionCache cfg (session.revoke now reason).cacheEntry none).bind fun _ => .done (.ok true)

def writeFences (cfg : Settings) (now : Int) (reason : String) : List UserSession → Call (Except SessionError Unit)
  | [] => .done (.ok ())
  | session :: rest =>
    (writeUserSessionDenyFence cfg session .revoking now reason).bind fun
      | .error e => .done (.error e)
      | .ok () => writeFences cfg now reason rest

def writeTombstones (cfg : Settings) (now : Int) (reason : String) : List UserSession → Call Unit
  | [] => .done ()
  | session :: rest =>
    (writeUserSessionCache cfg (session.revoke now reason).cacheEntry none).bind fun _ =>
      writeTombstones cfg now reason rest

/-- The loop of `revokeUserSessions`. A call that takes more than `rounds` does not return. -/
def revokeRounds (cfg : Settings) (userID : Int) (excludedSID reason : String) (now : Int) :
    Nat → List String → Call (List String × Option SessionError)
  | 0, _ => .access .blocked Empty.elim
  | rounds + 1, total =>
    .access (.candidates userID excludedSID now) fun
      | .error e => .done (total, some e)
      | .ok [] => .done (total, none)
      | .ok (first :: rest) =>
        (writeFences cfg now reason (first :: rest)).bind fun
          | .error e => .done (total, some e)
          | .ok () => .access (.revokeBatch ((first :: rest).map UserSession.sid) now reason) fun
            | .error e => .done (total, some e)
            | .ok revoked =>
              (writeTombstones cfg now reason revoked).bind fun _ =>
                revokeRounds cfg userID excludedSID reason now rounds (total ++ revoked.map UserSession.sid)

/-- `RevokeAllUserSessions` and `RevokeOtherUserSessions`. -/
def revokeUserSessions (userID : Int) (excludedSID reason : String) (rounds : Nat) :
    Call (List String × Option SessionError) :=
  if userID ≤ 0 then .done ([], some .invalid)
  else .access .now fun (time : Int) => revokeRounds cfg userID excludedSID reason (time / second) rounds []

/-! ## Advance -/

def advanceUserSessionAuthVersion (userID : Int) (sid : String)
    (expectedSessionVersion expectedUserAuthVersion nextUserAuthVersion : Int)
    : Call (Except SessionError UserSession) :=
  if userID ≤ 0 ∨ sid = "" ∨ expectedSessionVersion ≤ 0 ∨ expectedUserAuthVersion ≤ 0 ∨
      nextUserAuthVersion ≤ expectedUserAuthVersion then .done (.error .invalid)
  else
    .access .now fun (start : Int) => .access .now fun (time : Int) =>
      .access (.advanceTx userID sid expectedSessionVersion expectedUserAuthVersion nextUserAuthVersion (time / second)) fun
        | .error e => .done (.error e)
        | .ok session =>
          (writeUserSessionCache cfg session.cacheEntry (some (start + cfg.userCacheTTLSeconds * second))).bind fun
            | .error .cacheObservationStale =>
              (confirmUserSessionActiveSnapshot session).bind fun
                | .error e => .done (.error e)
                | .ok () => .done (.ok session)
            | .error e => .done (.error e)
            | .ok () => .done (.ok session)

/-! ## The system -/

inductive Name where
  | getUserSessionCached (sid : String)
  | rotateUserSessionRefresh (userID : Int) (sid presentedHash nextHash : String) (now grace : Int)
  | revokeUserSession (userID : Int) (sid reason : String)
  | revokeUserSessionByRefreshHash (sid presentedHash reason : String)
  | revokeUserSessions (userID : Int) (excludedSID reason : String) (rounds : Nat)
  | advanceUserSessionAuthVersion (userID : Int) (sid : String)
      (expectedSessionVersion expectedUserAuthVersion nextUserAuthVersion : Int)
deriving DecidableEq

inductive Answer where
  | session (r : Except SessionError UserSession)
  | revoked (r : Except SessionError Bool)
  | affected (r : List String × Option SessionError)
deriving DecidableEq

def body : Name → Call Answer
  | .getUserSessionCached sid => (getUserSessionCached cfg sid).bind fun r => .done (.session r)
  | .rotateUserSessionRefresh userID sid presentedHash nextHash now grace =>
    (rotateUserSessionRefresh cfg userID sid presentedHash nextHash now grace).bind fun r => .done (.session r)
  | .revokeUserSession userID sid reason => (revokeUserSession cfg userID sid reason).bind fun r => .done (.revoked r)
  | .revokeUserSessionByRefreshHash sid presentedHash reason =>
    (revokeUserSessionByRefreshHash cfg sid presentedHash reason).bind fun r => .done (.revoked r)
  | .revokeUserSessions userID excludedSID reason rounds =>
    (revokeUserSessions cfg userID excludedSID reason rounds).bind fun r => .done (.affected r)
  | .advanceUserSessionAuthVersion userID sid expectedSessionVersion expectedUserAuthVersion nextUserAuthVersion =>
    (advanceUserSessionAuthVersion cfg userID sid expectedSessionVersion expectedUserAuthVersion nextUserAuthVersion).bind
      fun r => .done (.session r)

/-- Time passes by itself, and with it the keys of Redis expire. -/
def machine : Machine Store Name Bool Nat Op Ans Answer where
  act := act
  env := fun elapsed s => some { s with now := s.now + elapsed }
  body := body cfg

end NewApi.Code.UserSessions

