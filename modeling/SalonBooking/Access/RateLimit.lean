import SalonBooking.Access.InitData

/-!
# Rate limits in Redis

`security/rate_limit.py`: the two Lua scripts over one sorted set with key expiry, and the limiter that calls them.
A script reads the server clock (`TIME`, in microseconds) once and works with whole milliseconds.
-/

namespace SalonBooking

open Lib

/-- A sorted set, as members with their scores, and the millisecond at which the key expires. A key without members
does not exist. -/
structure SortedSet where
  members : List (String × Int)
  expiresAt : Option Int
deriving DecidableEq

namespace SortedSet

def absent : SortedSet := ⟨[], none⟩

def live (s : SortedSet) (now : Int) : SortedSet := if s.expiresAt.any (· ≤ now) then absent else s

/-- `ZREMRANGEBYSCORE key -inf cutoff`. -/
def zremrangebyscore (s : SortedSet) (cutoff : Int) : SortedSet :=
  let members := s.members.filter (cutoff < ·.2)
  if members = [] then absent else { s with members }

def zscore (s : SortedSet) (member : String) : Option Int := s.members.lookup member

def zcard (s : SortedSet) : Int := s.members.length

/-- The score of `ZRANGE key 0 0 WITHSCORES`. -/
def oldest (s : SortedSet) : Option Int := (s.members.map Prod.snd).min?

/-- `ZADD` of a new member. -/
def zadd (s : SortedSet) (score : Int) (member : String) : SortedSet := { s with members := s.members ++ [(member, score)] }

/-- `PEXPIRE`. -/
def pexpire (s : SortedSet) (now ms : Int) : SortedSet := if s.members = [] then s else { s with expiresAt := some (now + ms) }

end SortedSet

/-- What a script returns: whether the call is allowed, what remains, and the milliseconds to wait. -/
structure ScriptReply where
  allowed : Int
  remaining : Int
  retryMs : Int
deriving DecidableEq

/-- `now_ms` from the seconds and microseconds of `TIME`. -/
def nowMs (time : Int) : Int := time / 1000000 * 1000 + time % 1000000 / 1000

/-- The branch of both scripts for a full window. -/
def refuse (now windowMs : Int) (s : SortedSet) : ScriptReply × SortedSet :=
  let retryMs := match s.oldest with
    | some oldest => max 1 (oldest + windowMs - now)
    | none => windowMs
  (⟨0, 0, retryMs⟩, s.pexpire now windowMs)

/-- `_CONSUME_SCRIPT`. -/
def consumeScript (time windowMs limit : Int) (member : String) (stored : SortedSet) : ScriptReply × SortedSet :=
  let now := nowMs time
  let s := (stored.live now).zremrangebyscore (now - windowMs)
  let count := s.zcard
  if (s.zscore member).isSome then (⟨1, max (limit - count) 0, 0⟩, s.pexpire now windowMs)
  else if limit ≤ count then refuse now windowMs s
  else (⟨1, max (limit - (count + 1)) 0, 0⟩, (s.zadd now member).pexpire now windowMs)

/-- `_INSPECT_SCRIPT`. -/
def inspectScript (time windowMs limit : Int) (stored : SortedSet) : ScriptReply × SortedSet :=
  let now := nowMs time
  let s := (stored.live now).zremrangebyscore (now - windowMs)
  let count := s.zcard
  if limit ≤ count then refuse now windowMs s
  else (⟨1, max (limit - count) 0, 0⟩, if count = 0 then .absent else s.pexpire now windowMs)

/-- `RateLimitDecision`. -/
structure RateLimitDecision where
  allowed : Bool
  remaining : Int
  retryAfterSeconds : Int
deriving DecidableEq

inductive RateLimitError
  | value (message : String)
  | limiter (message : String)
deriving DecidableEq

/-- `_SAFE_REQUEST_ID`. -/
def safeRequestId (s : String) : Bool :=
  match s.toList with
  | c :: rest => c.isAlphanum && 7 ≤ rest.length && rest.length ≤ 127 &&
      rest.all fun c => c.isAlphanum || c == '.' || c == '_' || c == ':' || c == '-'
  | [] => false

/-- The sorted sets of the server under their keys. -/
abbrev RateStore := String → SortedSet

/-- `RedisRateLimiter`; the constructor checks the namespace, with the pattern of the replay store. -/
structure RedisRateLimiter where
  namespace_ : String
  safe : safeNamespace namespace_ = true

namespace RedisRateLimiter

/-- `_validate_window`. -/
def validateWindow (limit windowSeconds : Int) : Except RateLimitError Unit := do
  require (1 ≤ limit ∧ limit ≤ 100000) (.value "limit must be between 1 and 100000")
  require (1 ≤ windowSeconds ∧ windowSeconds ≤ 86400) (.value "window_seconds must be between 1 and 86400")

/-- `_decision`. -/
def decision (raw : ScriptReply) : Except RateLimitError RateLimitDecision := do
  require ((raw.allowed = 0 ∨ raw.allowed = 1) ∧ 0 ≤ raw.remaining ∧ 0 ≤ raw.retryMs)
    (.limiter "invalid rate limiter response")
  return ⟨raw.allowed = 1, raw.remaining, (raw.retryMs + 999) / 1000⟩

variable (l : RedisRateLimiter)

def keyName (scope : String) (businessId subjectId : Int) : String :=
  l.namespace_ ++ ":rate:" ++ toString businessId ++ ":" ++ scope ++ ":" ++ toString subjectId

/-- `_key`. -/
def key (scope : String) (businessId subjectId : Int) : Except RateLimitError String := do
  require (0 < businessId ∧ 0 < subjectId) (.value "business_id and subject_id must be positive")
  require (safeNamespace scope = true) (.value "scope must be a safe lowercase identifier")
  return l.keyName scope businessId subjectId

def eval (script : SortedSet → ScriptReply × SortedSet) (key : String) (db : RateStore) :
    Except RateLimitError RateLimitDecision × RateStore :=
  (decision (script (db key)).1, Function.update db key (script (db key)).2)

def consume (db : RateStore) (time : Int) (scope : String) (businessId subjectId : Int) (requestId : String)
    (limit windowSeconds : Int) : Except RateLimitError RateLimitDecision × RateStore :=
  let checked := do
    let key ← l.key scope businessId subjectId
    validateWindow limit windowSeconds
    require (safeRequestId requestId = true) (.value "request_id must contain 8-128 safe ASCII characters")
    return key
  match checked with
  | .error e => (.error e, db)
  | .ok key => eval (consumeScript time (windowSeconds * 1000) limit requestId) key db

def inspect (db : RateStore) (time : Int) (scope : String) (businessId subjectId : Int) (limit windowSeconds : Int) :
    Except RateLimitError RateLimitDecision × RateStore :=
  let checked := do
    let key ← l.key scope businessId subjectId
    validateWindow limit windowSeconds
    return key
  match checked with
  | .error e => (.error e, db)
  | .ok key => eval (inspectScript time (windowSeconds * 1000) limit) key db

def reset (db : RateStore) (scope : String) (businessId subjectId : Int) : Except RateLimitError Unit × RateStore :=
  match l.key scope businessId subjectId with
  | .error e => (.error e, db)
  | .ok key => (.ok ⟨⟩, Function.update db key .absent)

end RedisRateLimiter

end SalonBooking
