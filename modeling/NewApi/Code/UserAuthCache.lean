import NewApi.Lib.Calls

/-!
# The cached user

`model/user_auth_cache.go` and `model/user_cache.go`, for one user: the hash, the fence of an increment and the floor, a
committed version. Row locks are left out, since SQLite has none. Times are milliseconds.
-/

namespace NewApi.Code.UserAuthCache

open Calls

structure User where
  id : Int
  group : String
  email : String
  quota : Int
  status : Int
  role : Int
  username : String
  setting : String
  authVersion : Int
  deleted : Bool
deriving DecidableEq

structure UserBase where
  id : Int
  group : String
  email : String
  quota : Int
  status : Int
  role : Int
  username : String
  setting : String
  authVersion : Int
  cacheSchema : Int
deriving DecidableEq

def userCacheSchemaVersion : Int := 2

def User.toBaseUser (user : User) : UserBase where
  id := user.id
  group := user.group
  email := user.email
  quota := user.quota
  status := user.status
  role := user.role
  username := user.username
  setting := user.setting
  authVersion := user.authVersion
  cacheSchema := userCacheSchemaVersion

inductive Field where
  | group | email | username | setting
deriving DecidableEq

def UserBase.set (user : UserBase) (field : Field) (value : String) : UserBase :=
  match field with
  | .group => { user with group := value }
  | .email => { user with email := value }
  | .username => { user with username := value }
  | .setting => { user with setting := value }

inductive CacheError where
  | pending
  | stale
  | invalid
  | conflict
  | changedRepeatedly
  | recordNotFound
  | database
  | redis
deriving DecidableEq

structure Settings where
  userId : Int
  redisEnabled : Bool
  syncFrequency : Int
deriving DecidableEq

variable (cfg : Settings) (s : Store)

def Settings.userCacheTTLSeconds : Int := if cfg.syncFrequency ≤ 0 then 60 else cfg.syncFrequency

def Settings.userAuthFenceTTLSeconds : Int := cfg.userCacheTTLSeconds + max cfg.userCacheTTLSeconds 60

/-! ## The store -/

/-- A floor of zero is none. `version` is committed; `snapshots` and `fences` say which call has seen or announced what
when. -/
structure Store where
  now : Int
  row : Option User
  hash : Option (UserBase × Int)
  fence : Option (Int × Int)
  floor : Int
  version : Int
  snapshots : List (Nat × Int × Int)
  fences : List (Nat × Int × Int)

def Store.start (now : Int) (user : User) : Store := ⟨now, some user, none, none, 0, user.authVersion, [], []⟩

def Store.cached : Option UserBase := s.hash.bind fun (user, expireAt) => if s.now ≤ expireAt then some user else none

def Store.pending
    : Int := (s.fence.bind fun (version, expireAt) => if s.now ≤ expireAt then some version else none).getD 0

/-- The script of `publishCommittedUserAuthVersion`. -/
def Store.publish (incoming : Int) : Store :=
  { s with
    floor := if s.floor < incoming then incoming else s.floor
    fence := if s.pending > 0 ∧ s.pending ≤ incoming then none else s.fence }

/-- The first half of the scripts of `writeUserCache` and `updateUserCacheFieldAtVersion`. -/
def Store.admit (incoming : Int) : Option Store :=
  if s.pending > incoming ∨ s.floor > incoming ∨ (s.cached.map UserBase.authVersion).getD 0 > incoming then none
  else some (s.publish incoming)

def Store.writeUserCache (user : UserBase) (includeQuota : Bool) (ttl : Int) : Bool × Store :=
  match s.admit user.authVersion with
  | none => (false, s)
  | some t =>
    if includeQuota = false ∧ s.cached.isNone then (true, t)
    else
      (true, { t with hash := some ({ user with quota := (s.cached.map UserBase.quota).getD user.quota }, s.now + 1000 * ttl) })

def Store.updateField (field : Field) (value : String) (authVersion : Int) : Bool × Store :=
  match s.admit authVersion with
  | none => (false, s)
  | some t =>
    match s.hash, s.cached with
    | some (_, expireAt), some user =>
      if user.authVersion ≠ authVersion then (true, t)
      else (true, { t with hash := some ({ user.set field value with cacheSchema := userCacheSchemaVersion }, expireAt) })
    | _, _ => (true, t)

/-- `SetUserAuthVersionFence`; the key always has a time to live. -/
def Store.setFence (call : Nat) (incoming ttl : Int) : Store :=
  { s with
    fence := if s.pending ≤ incoming then some (incoming, s.now + 1000 * ttl) else s.fence
    fences := s.fences ++ [(call, incoming, s.now)] }

inductive Change where
  | keep
  | edit (values : User)
  | softDelete
  | hardDelete
deriving DecidableEq

def User.edit (row values : User) : User :=
  { values with id := row.id, quota := row.quota, authVersion := row.authVersion, deleted := row.deleted }

def User.apply (row : User) : Change → User
  | .keep => row
  | .edit values => row.edit values
  | .softDelete | .hardDelete => { row with deleted := true }

/-- Where the row still has `current`, with the commit. -/
def Store.commit (call : Nat) (current next : Int) (change : Change) : Option User × Store :=
  match s.row with
  | none => (none, s)
  | some row =>
    if row.authVersion ≠ current then (none, s)
    else
      let written := { row.apply change with authVersion := next }
      (some written,
        { s with
          row := if change = .hardDelete then none else some written
          version := next
          snapshots := s.snapshots ++ [(call, next, s.now)] })

/-! ## Accesses -/

inductive Op where
  | find
  | lock
  | save (values : User)
  | hGetAll
  | mGet
  | writeUserCache (user : UserBase) (includeQuota : Bool)
  | updateField (field : Field) (value : String) (authVersion : Int)
  | setFence (authVersion : Int)
  | publish (authVersion : Int)
  | commit (current next : Int) (change : Change)
  | del
deriving DecidableEq

/-- `none` is an error of Redis, `some false` a refusal to write. -/
def Ans : Op → Type
  | .find | .save _ => Except CacheError User
  | .lock => Except CacheError Int
  | .hGetAll => Option UserBase
  | .mGet => Option Int
  | .writeUserCache _ _ | .updateField _ _ _ => Option Bool
  | .setFence _ | .publish _ | .del => Bool
  | .commit _ _ _ => Except CacheError (Option User)

def Store.find : Except CacheError User :=
  match s.row with
  | none => .error .recordNotFound
  | some row => if row.deleted then .error .recordNotFound else .ok row

def Store.note (call : Nat) (version : Int) : Store :=
  { s with snapshots := s.snapshots ++ [(call, version, s.now)] }

/-- One access of this call. A transaction that fails is rolled back. -/
def act (call : Nat) (op : Op) (fails : Bool) (s : Store) : Option (Ans op × Store) :=
  match op with
  | .find =>
    if fails then some (.error .database, s)
    else
      match s.find with
      | .error e => some (.error e, s)
      | .ok row => some (.ok row, s.note call row.authVersion)
  | .lock =>
    some (if fails then .error .database
      else match s.row with
        | none => .error .recordNotFound
        | some row => .ok row.authVersion, s)
  | .save values =>
    if fails then some (.error .database, s)
    else
      match s.find with
      | .error e => some (.error e, s)
      | .ok row => some (.ok (row.edit values), { s with row := some (row.edit values) }.note call row.authVersion)
  | .hGetAll =>
    if fails then some (none, s)
    else
      match s.cached with
      | none => some (none, s)
      | some user => some (some user, s.note call user.authVersion)
  | .mGet => some (if fails then none else some (max (max s.pending s.floor) 0), s)
  | .writeUserCache user includeQuota =>
    if fails then some (none, s)
    else
      let (r, t) := s.writeUserCache user includeQuota cfg.userCacheTTLSeconds
      some (some r, t)
  | .updateField field value authVersion =>
    if fails then some (none, s)
    else
      let (r, t) := s.updateField field value authVersion
      some (some r, t)
  | .setFence authVersion =>
    if fails then some (false, s) else some (true, s.setFence call authVersion cfg.userAuthFenceTTLSeconds)
  | .publish authVersion => if fails then some (false, s) else some (true, s.publish authVersion)
  | .commit current next change =>
    if fails then some (.error .database, s)
    else
      let (r, t) := s.commit call current next change
      some (.ok r, t)
  | .del => if fails then some (false, s) else some (true, { s with hash := none })

/-! ## The cache -/

abbrev Call := Prog Op Ans

def getUserById : Call (Except CacheError User) :=
  if cfg.userId = 0 then .done (.error .invalid) else .access .find .done

def writeUserCache (user : UserBase) (includeQuota : Bool) : Call (Except CacheError Unit) :=
  if user.id ≤ 0 ∨ ¬ cfg.redisEnabled then .done (.ok ())
  else if user.authVersion ≤ 0 then .done (.error .invalid)
  else
    .access (.writeUserCache { user with cacheSchema := userCacheSchemaVersion } includeQuota) fun
      | none => .done (.error .redis)
      | some false => .done (.error .pending)
      | some true => .done (.ok ())

def populateUserCache (user : User) : Call (Except CacheError Unit) :=
  if ¬ cfg.redisEnabled then .done (.ok ()) else writeUserCache cfg user.toBaseUser true

def updateUserCache (user : User) : Call (Except CacheError Unit) :=
  if ¬ cfg.redisEnabled then .done (.ok ()) else writeUserCache cfg user.toBaseUser false

def getUserAuthVersionFloor : Call (Except CacheError Int) :=
  if ¬ cfg.redisEnabled then .done (.ok 0)
  else
    .access .mGet fun
      | none => .done (.error .redis)
      | some floor => .done (.ok floor)

def cacheGetUserBase : Call (Except CacheError UserBase) :=
  if ¬ cfg.redisEnabled then .done (.error .redis)
  else
    .access .hGetAll fun
      | none => .done (.error .redis)
      | some user =>
        if user.id ≠ cfg.userId ∨ user.cacheSchema ≠ userCacheSchemaVersion ∨ user.authVersion ≤ 0 then .done (.error .stale)
        else
          (getUserAuthVersionFloor cfg).bind fun
            | .error e => .done (.error e)
            | .ok floor => .done (if floor > user.authVersion then .error .pending else .ok user)

def getUserFromDatabase : Call (Except CacheError UserBase) :=
  (getUserById cfg).bind fun
    | .error e => .done (.error e)
    | .ok user =>
      if ¬ cfg.redisEnabled then .done (.ok user.toBaseUser)
      else
        (getUserAuthVersionFloor cfg).bind fun floor =>
          if floor.toOption.any fun floor => floor > user.authVersion then .done (.error .pending)
          else
            (populateUserCache cfg user).bind fun
              | .error .pending => .done (.error .pending)
              | _ => .done (.ok user.toBaseUser)

def getUserCache : Call (Except CacheError UserBase) :=
  (cacheGetUserBase cfg).bind fun
    | .ok user => .done (.ok user)
    | .error _ => getUserFromDatabase cfg

def updateUserCacheFieldAtVersion (field : Field) (value : String) (authVersion : Int) :
    Call (Except CacheError Unit) :=
  if ¬ cfg.redisEnabled then .done (.ok ())
  else if cfg.userId ≤ 0 ∨ authVersion ≤ 0 then .done (.error .invalid)
  else
    .access (.updateField field value authVersion) fun
      | none => .done (.error .redis)
      | some false => .done (.error .pending)
      | some true => .done (.ok ())

def updateUserCacheField (field : Field) (value : String) : Call (Except CacheError Unit) :=
  if ¬ cfg.redisEnabled then .done (.ok ())
  else
    .access .find fun
      | .error e => .done (.error e)
      | .ok user =>
        if user.authVersion ≤ 0 then .done (.error .invalid)
        else updateUserCacheFieldAtVersion cfg field value user.authVersion

def refreshLoop (cfg : Settings) (authoritative : User) : Nat → Call (Except CacheError Unit)
  | 0 =>
    (updateUserCacheFieldAtVersion cfg .group authoritative.group authoritative.authVersion).bind fun
      | .error e => .done (.error e)
      | .ok () => .done (.error .changedRepeatedly)
  | attempts + 1 =>
    (updateUserCacheFieldAtVersion cfg .group authoritative.group authoritative.authVersion).bind fun
      | .error e => .done (.error e)
      | .ok () => .access .find fun
        | .error e => .done (.error e)
        | .ok verified =>
          if verified.authVersion = authoritative.authVersion ∧ verified.group = authoritative.group then .done (.ok ())
          else refreshLoop cfg verified attempts

def refreshUserGroupCache : Call (Except CacheError Unit) :=
  if ¬ cfg.redisEnabled then .done (.ok ())
  else if cfg.userId ≤ 0 then .done (.error .invalid)
  else
    .access .find fun
      | .error e => .done (.error e)
      | .ok authoritative => refreshLoop cfg authoritative 3

/-! ## Increments -/

def setUserAuthVersionFence (authVersion : Int) : Call (Except CacheError Unit) :=
  if ¬ cfg.redisEnabled then .done (.ok ())
  else if cfg.userId ≤ 0 ∨ authVersion ≤ 0 then .done (.error .invalid)
  else .access (.setFence authVersion) fun (ok : Bool) => .done (if ok then .ok () else .error .redis)

def publishCommittedUserAuthVersion (authVersion : Int) : Call (Except CacheError Unit) :=
  if ¬ cfg.redisEnabled then .done (.ok ())
  else if cfg.userId ≤ 0 ∨ authVersion ≤ 0 then .done (.error .invalid)
  else .access (.publish authVersion) fun (ok : Bool) => .done (if ok then .ok () else .error .redis)

/-- The loop of `IncrementUserAuthVersionWithTx`, with the transaction around it. -/
def incrementLoop (cfg : Settings) (change : Change) : Nat → Call (Except CacheError User)
  | 0 => .done (.error .conflict)
  | attempts + 1 =>
    .access .lock fun
      | .error e => .done (.error e)
      | .ok version =>
        (setUserAuthVersionFence cfg (max version 1 + 1)).bind fun
          | .error e => .done (.error e)
          | .ok () => .access (.commit version (max version 1 + 1) change) fun
            | .error e => .done (.error e)
            | .ok none => incrementLoop cfg change attempts
            | .ok (some written) => .done (.ok written)

def incrementUserAuthVersionWithTx (change : Change) : Call (Except CacheError User) :=
  if cfg.userId ≤ 0 then .done (.error .invalid) else incrementLoop cfg change 3

def publishUserAuthCache : Call (Except CacheError Unit) :=
  (getUserById cfg).bind fun
    | .error e => .done (.error e)
    | .ok user => updateUserCache cfg user

def bumpUserAuthVersion : Call (Except CacheError Unit) :=
  (incrementUserAuthVersionWithTx cfg .keep).bind fun
    | .error e => .done (.error e)
    | .ok _ => publishUserAuthCache cfg

/-- `User.Update` and `User.Edit`; only what matters to authentication increments the version. -/
def updateUser (values : User) (authChanged : Bool) : Call (Except CacheError Unit) :=
  if authChanged then
    (incrementUserAuthVersionWithTx cfg (.edit values)).bind fun
      | .error e => .done (.error e)
      | .ok user => updateUserCache cfg user
  else
    .access (.save values) fun
      | .error e => .done (.error e)
      | .ok user => updateUserCache cfg user

def invalidateUserCache : Call (Except CacheError Unit) :=
  if ¬ cfg.redisEnabled then .done (.ok ())
  else .access .del fun (ok : Bool) => .done (if ok then .ok () else .error .redis)

def deleteUser : Call (Except CacheError Unit) :=
  (incrementUserAuthVersionWithTx cfg .softDelete).bind fun
    | .error e => .done (.error e)
    | .ok user =>
      (publishCommittedUserAuthVersion cfg user.authVersion).bind fun
        | .error e => .done (.error e)
        | .ok () => invalidateUserCache cfg

/-- `User.HardDelete`, which only logs an error of Redis. -/
def hardDeleteUser : Call (Except CacheError Unit) :=
  (incrementUserAuthVersionWithTx cfg .hardDelete).bind fun
    | .error e => .done (.error e)
    | .ok user =>
      (publishCommittedUserAuthVersion cfg user.authVersion).bind fun _ =>
        (invalidateUserCache cfg).bind fun _ => .done (.ok ())

/-! ## The system -/

inductive Name where
  | getUserCache
  | updateUserCacheField (field : Field) (value : String)
  | refreshUserGroupCache
  | publishUserAuthCache
  | bumpUserAuthVersion
  | updateUser (values : User) (authChanged : Bool)
  | deleteUser
  | hardDeleteUser
deriving DecidableEq

inductive Answer where
  | user (r : Except CacheError UserBase)
  | unit (r : Except CacheError Unit)
deriving DecidableEq

def body : Name → Call Answer
  | .getUserCache => (getUserCache cfg).bind fun r => .done (.user r)
  | .updateUserCacheField field value => (updateUserCacheField cfg field value).bind fun r => .done (.unit r)
  | .refreshUserGroupCache => (refreshUserGroupCache cfg).bind fun r => .done (.unit r)
  | .publishUserAuthCache => (publishUserAuthCache cfg).bind fun r => .done (.unit r)
  | .bumpUserAuthVersion => (bumpUserAuthVersion cfg).bind fun r => .done (.unit r)
  | .updateUser values authChanged => (updateUser cfg values authChanged).bind fun r => .done (.unit r)
  | .deleteUser => (deleteUser cfg).bind fun r => .done (.unit r)
  | .hardDeleteUser => (hardDeleteUser cfg).bind fun r => .done (.unit r)

/-- Elsewhere the columns of the row are written, and the quota of the hash. -/
inductive Outside where
  | elapse (ms : Nat)
  | write (values : User) (quota : Int)
  | quota (delta : Int)

def Store.env : Outside → Store
  | .elapse ms => { s with now := s.now + ms }
  | .write values quota => { s with row := s.row.map fun row => { row.edit values with quota } }
  | .quota delta => { s with hash := s.hash.map fun (user, expireAt) => ({ user with quota := user.quota + delta }, expireAt) }

def machine : Machine Store Name Bool Outside Op Ans Answer where
  act := act cfg
  env := fun e s => some (s.env e)
  body := body cfg

end NewApi.Code.UserAuthCache

