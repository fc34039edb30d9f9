import Mathlib.Algebra.Ring.Int.Defs
import NewApi.Lib.GoTime

/-!
# Rate limits

The limits of `middleware/model-rate-limit.go`, with the token bucket of `common/limiter/lua/rate_limit.lua` and one key of
the limiter in `common/rate-limit.go`.
-/

namespace NewApi.Code.RateLimit

open GoTime

def maxInt64 : Int := 2 ^ 63 - 1

def rateLimitCapacity (count durationSeconds : Int) : Int :=
  if count ≤ 0 ∨ durationSeconds ≤ 0 then 0
  else if count > maxInt64 / durationSeconds then maxInt64
  else count * durationSeconds

/-! ## The token bucket -/

/-- How Lua has an integer: the nearest double, of two the even one. -/
def toDouble (x : Int) : Int :=
  let unit : Int := 2 ^ (x.natAbs.log2 - 52)
  (if 2 * (x % unit) < unit ∨ (2 * (x % unit) = unit ∧ x / unit % 2 = 0) then x / unit else x / unit + 1) * unit

structure Bucket where
  tokens : Int
  lastTime : Int
deriving DecidableEq

def tokensAt (rate capacity nowInSeconds : Int) : Option Bucket → Int
  | none => toDouble capacity
  | some bucket =>
    let addTokens := toDouble (toDouble (nowInSeconds - bucket.lastTime) * toDouble rate)
    min (toDouble capacity) (toDouble (bucket.tokens + addTokens))

/-- The script. The time of Redis is in microseconds. -/
def tokenBucket (requested rate capacity now : Int) (bucket : Option Bucket) : Bool × Bucket :=
  let nowInSeconds := now / 1000000
  let tokens := tokensAt rate capacity nowInSeconds bucket
  if toDouble requested ≤ tokens then (true, ⟨toDouble (tokens - toDouble requested), nowInSeconds⟩)
  else (false, ⟨tokens, nowInSeconds⟩)

/-- The limiter of all requests in `redisRateLimitHandler`. -/
def allowTotal (totalMaxCount duration now : Int) (bucket : Option Bucket) : Bool × Bucket :=
  tokenBucket duration totalMaxCount (rateLimitCapacity totalMaxCount duration) now bucket

/-- Calls at these times, each with whether it is allowed. -/
def allowAll (totalMaxCount duration : Int) : Option Bucket → List Int → List (Int × Bool)
  | _, [] => []
  | bucket, now :: times =>
    let (allowed, bucket) := allowTotal totalMaxCount duration now bucket
    (now, allowed) :: allowAll totalMaxCount duration (some bucket) times

/-! ## The limiter in memory -/

def unix (now : Int) : Int := now / 1000000000

/-- The queue has seconds, the oldest first. -/
def removeExpired (now duration : Int) (queue : List Int) : List Int :=
  match queue.head?, queue.getLast? with
  | some head, some tail =>
    if now - head < duration then queue
    else if duration ≤ now - tail then []
    else queue.dropWhile fun timestamp => duration ≤ now - timestamp
  | _, _ => queue

/-- One key, in nanoseconds. A key without an entry has no requests. -/
structure InMemoryRateLimiter where
  lastActive : Int
  requests : List Int
  reservations : Nat
  expirationDuration : Int
deriving DecidableEq

/-- Keys used earlier have been idle for longer, so the walk comes to this one. -/
def InMemoryRateLimiter.deleteExpiredEntries (l : InMemoryRateLimiter) (now : Int) : InMemoryRateLimiter :=
  if 0 < l.expirationDuration ∧ l.expirationDuration ≤ now - l.lastActive then { l with requests := [] } else l

def InMemoryRateLimiter.request (l : InMemoryRateLimiter) (maxRequestNum : Nat) (duration now : Int) :
    Bool × InMemoryRateLimiter :=
  let requests := removeExpired (unix now) duration l.requests
  if requests.length < maxRequestNum then (true, { l with lastActive := now, requests := requests ++ [unix now] })
  else (false, { l with lastActive := now, requests })

def InMemoryRateLimiter.reserve (l : InMemoryRateLimiter) (maxRequests : Nat) (duration now : Int) : InMemoryRateLimiter :=
  let requests := removeExpired (unix now) duration l.requests
  let reservations := if maxRequests ≤ requests.length + l.reservations then l.reservations else l.reservations + 1
  { l with lastActive := now, requests, reservations }

/-- For an open reservation; `once` makes later calls do nothing. -/
def InMemoryRateLimiter.complete (l : InMemoryRateLimiter) (success : Bool) (now : Int) : InMemoryRateLimiter :=
  let l := { l with reservations := l.reservations - 1 }
  if success then { l with lastActive := now, requests := l.requests ++ [unix now] } else l

/-! ## Successes in Redis -/

def rateLimitDurationSeconds (durationMinutes : Int) : Int :=
  if durationMinutes ≤ 0 then 0
  else if durationMinutes > maxInt64 / 60 then maxInt64
  else durationMinutes * 60

/-- The list under the success key, the newest first. Times are in milliseconds, as in `modelRateLimitTimeFormat`. -/
structure SuccessList where
  times : List Int
  expiry : Option Int
deriving DecidableEq

def SuccessList.at (key : SuccessList) (now : Int) : SuccessList :=
  if key.expiry.any (· ≤ now) then ⟨[], none⟩ else key

/-- `Expire` is in whole seconds, and does nothing without a key. -/
def SuccessList.expire (key : SuccessList) (durationMinutes now : Int) : SuccessList :=
  let seconds := (wrap64 (durationMinutes * 60000000000)).tdiv 1000000000
  if key.times = [] then key else SuccessList.at ⟨key.times, some (now + seconds * 1000)⟩ now

/-- What a request does next: a command, or its work. -/
inductive Phase where
  | llen
  | lindex
  | refuse
  | next
  | lpush (now : Int)
  | ltrim
  | expire
  | done
deriving DecidableEq

/-- One step of a request. `success` is how its work ends; a request that the token bucket refuses has none. -/
def redisRateLimitHandler (durationMinutes : Int) (successMaxCount : Nat) (now : Int) (success : Bool)
    (key : SuccessList) : Phase → Phase × SuccessList
  | .llen => (if successMaxCount = 0 ∨ key.times.length < successMaxCount then .next else .lindex, key)
  | .lindex =>
    match key.times.getLast? with
    | none => (.done, key)
    | some oldTime =>
      (if (now - oldTime).tdiv 1000 < rateLimitDurationSeconds durationMinutes then .refuse else .next, key)
  | .refuse => (.done, key.expire durationMinutes now)
  | .next => (if success ∧ successMaxCount ≠ 0 then .lpush now else .done, key)
  | .lpush now => (.ltrim, { key with times := now :: key.times })
  | .ltrim => (.expire, { key with times := key.times.take successMaxCount })
  | .expire => (.done, key.expire durationMinutes now)
  | .done => (.done, key)

end NewApi.Code.RateLimit
