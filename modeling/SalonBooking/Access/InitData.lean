import SalonBooking.Lib.DecimalNumbers
import SalonBooking.Lib.Guarded
import SalonBooking.Lib.Query
import Mathlib

/-!
# One-time exchange of Telegram initData

`api/telegram_auth.py`: the signature over the sorted fields, the age of `auth_date`, the user id, and the
replay key in Redis. HMAC-SHA256 is a function from key and message to 32 bytes, `json.loads` one from text to a
value; both are parameters of everything below. Instants are microseconds since the epoch.
-/

namespace SalonBooking

open Lib

/-- `hmac.digest(key, message, "sha256")`. -/
structure Hmac where
  digest : List UInt8 → List UInt8 → List UInt8
  length_digest : ∀ key message, (digest key message).length = 32

/-- What `json.loads` returns; the keys of an object are different strings. -/
inductive Json
  | null
  | bool (b : Bool)
  | int (n : Int)
  | float (text : String)
  | str (s : String)
  | list (items : List Json)
  | dict (items : List (String × Json))

/-- What `json.loads` raises: an error that the verifier catches, or another one. -/
inductive LoadsError
  | decode
  | other

inductive WebAppError
  /-- `WebAppAuthenticationError`. -/
  | authentication (code : String)
  | replayStore (message : String)
  | loads
deriving DecidableEq, Repr

/-! ### The replay store -/

def oneSecond : Int := 1000000

/-- `int(current.timestamp())`: the quotient by a second is a double. -/
def timestamp (now : Int) : Int :=
  if 0 ≤ now then Decimal.truncQuotient now.toNat 1000000 else -Decimal.truncQuotient (-now).toNat 1000000

/-- The keys that were set, each with the instant at which its time to live has elapsed. -/
structure Redis where
  expiry : String → Option Int

namespace Redis

def empty : Redis := ⟨fun _ => none⟩

def Live (r : Redis) (now : Int) (name : String) : Prop := (r.expiry name).any (now < ·) = true

instance (r : Redis) (now : Int) (name : String) : Decidable (r.Live now name) := inferInstanceAs (Decidable (_ = _))

/-- `SET name value EX ex NX`. -/
def setNx (r : Redis) (now : Int) (name : String) (ex : Int) : Bool × Redis :=
  if r.Live now name then (false, r) else (true, ⟨fun n => if n = name then some (now + ex * oneSecond) else r.expiry n⟩)

end Redis

def hexDigit (n : Nat) : Char := Char.ofNat (if n < 10 then 48 + n else 87 + n)

/-- `bytes.hex()`. -/
def hexdigest (bytes : List UInt8) : String :=
  String.ofList (bytes.flatMap fun b => [hexDigit (b.toNat / 16), hexDigit (b.toNat % 16)])

/-- `_HASH_PATTERN`. -/
def hashPattern (s : String) : Bool := s.toList.length == 64 && s.toList.all fun c => (Query.hexValue c).isSome

/-- `s.lower()` of an ASCII string. -/
def lower (s : String) : String := String.ofList (s.toList.map Char.toLower)

/-- `_SAFE_NAMESPACE`. -/
def safeNamespace (s : String) : Bool :=
  match s.toList with
  | c :: rest => c.isLower && 1 ≤ rest.length && rest.length ≤ 47 &&
      rest.all fun c => c.isLower || c.isDigit || c == '_' || c == '-'
  | [] => false

theorem safeNamespace_telegramCrm : safeNamespace "telegram_crm" = true := by decide +kernel

structure RedisReplayStore where
  namespace_ : String
  safe : safeNamespace namespace_ = true

namespace RedisReplayStore

/-- `claim`, with what it raises as a text. -/
def claim (store : RedisReplayStore) (r : Redis) (now : Int) (fingerprint : String) (ttlSeconds : Int) :
    Except String (Bool × Redis) := do
  require (hashPattern fingerprint = true) "fingerprint must be a SHA-256 hex digest"
  require (1 ≤ ttlSeconds ∧ ttlSeconds ≤ 86400) "replay TTL must be between 1 and 86400 seconds"
  return r.setNx now (store.namespace_ ++ ":webapp_replay:" ++ lower fingerprint) ttlSeconds

end RedisReplayStore

/-! ### The verifier -/

/-- `VerifiedWebAppIdentity`. -/
structure VerifiedWebAppIdentity where
  telegramUserId : Int
  authDate : Int
  sessionFingerprint : String
  startParameter : Option String
deriving DecidableEq, Repr

/-- `TelegramInitDataVerifier`; its constructor checks the ranges. -/
structure TelegramInitDataVerifier where
  token : String
  replayStore : RedisReplayStore
  maxAgeSeconds : Int
  maxFutureSkewSeconds : Int
  maxBytes : Nat
  maxFields : Nat
  token_required : token ≠ ""
  age_range : 30 ≤ maxAgeSeconds ∧ maxAgeSeconds ≤ 3600
  skew_range : 0 ≤ maxFutureSkewSeconds ∧ maxFutureSkewSeconds ≤ 60
  bytes_range : 1024 ≤ maxBytes ∧ maxBytes ≤ 16384
  fields_range : 4 ≤ maxFields ∧ maxFields ≤ 64

abbrev Fields := List (String × String)

def utf8 (s : String) : List UInt8 := s.toUTF8.toList

/-- The pairs as a dict: no empty and no repeated key. -/
def fieldsOf (pairs : List (List Char × List Char)) : Except WebAppError Fields :=
  pairs.foldlM (fun fields pair => do
    let key := String.ofList pair.1
    require (key ≠ "" ∧ key ∉ fields.map Prod.fst) (.authentication "webapp_authentication_failed")
    return fields ++ [(key, String.ofList pair.2)]) []

/-- The text that is signed: one line for each key, in order. -/
def dataCheckString (fields : Fields) : String :=
  "\n".intercalate (((fields.map Prod.fst).insertionSort (· ≤ ·)).map fun key =>
    key ++ "=" ++ ((fields.lookup key).getD ""))

def failed : WebAppError := .authentication "webapp_authentication_failed"

/-- `int(raw)` of ASCII digits. -/
def intOfDigits (digits : List Char) : Int := digits.foldl (fun n c => 10 * n + (c.toNat - 48 : Nat)) 0

/-- `_AUTH_DATE_PATTERN`. -/
def authDatePattern (s : String) : Bool := 1 ≤ s.toList.length && s.toList.length ≤ 12 && s.toList.all Char.isDigit

/-- `_START_PARAMETER_PATTERN`. -/
def startParameterPattern (s : String) : Bool :=
  1 ≤ s.toList.length && s.toList.length ≤ 64 && s.toList.all fun c => c.isAlphanum || c == '_' || c == '-'

/-- `_MAX_TELEGRAM_ID`. -/
def maxTelegramId : Int := 2 ^ 52 - 1

/-- `_auth_timestamp`. -/
def authTimestamp (fields : Fields) : Except WebAppError Int := do
  let raw ← orRaise (fields.lookup "auth_date") failed
  require (authDatePattern raw = true) failed
  let authTimestamp := intOfDigits raw.toList
  require (0 < authTimestamp) failed
  return authTimestamp

/-- `_telegram_user_id`. -/
def telegramUserId (loads : String → Except LoadsError Json) (fields : Fields) : Except WebAppError Int := do
  let raw ← orRaise (fields.lookup "user") failed
  require (raw.utf8ByteSize ≤ 4096) failed
  match loads raw with
  | .error .decode => throw failed
  | .error .other => throw .loads
  | .ok (.dict items) =>
    match items.lookup "id" with
    | some (.int n) => do
      require (1 ≤ n ∧ n ≤ maxTelegramId) failed
      return n
    | _ => throw failed
  | .ok _ => throw failed

/-- What `verify_and_claim` knows before it claims the replay key. -/
structure Checked where
  fields : Fields
  authTimestamp : Int
  userId : Int
  fingerprint : String
  ttlSeconds : Int

namespace TelegramInitDataVerifier

variable (hmac : Hmac) (loads : String → Except LoadsError Json) (v : TelegramInitDataVerifier)

def secretKey : List UInt8 := hmac.digest (utf8 "WebAppData") (utf8 v.token)

def replaySecret : List UInt8 := hmac.digest (v.secretKey hmac) (utf8 "replay-fingerprint")

def expectedHash (fields : Fields) : String :=
  hexdigest (hmac.digest (v.secretKey hmac) (utf8 (dataCheckString fields)))

/-- `_verify_signature`. -/
def verifySignature (rawInitData : String) : Except WebAppError (Fields × String) := do
  require (rawInitData ≠ "" ∧ rawInitData.utf8ByteSize ≤ v.maxBytes) failed
  let pairs ← orRaise (Query.parseQsl v.maxFields rawInitData.toList) failed
  let all ← fieldsOf pairs
  let receivedHash ← orRaise (all.lookup "hash") failed
  let fields := all.filter fun pair => pair.1 ≠ "hash"
  require (hashPattern receivedHash = true) failed
  require (v.expectedHash hmac fields = lower receivedHash) failed
  return (fields, receivedHash)

/-- `verify_and_claim` up to the claim. -/
def check (rawInitData : String) (now : Int) : Except WebAppError Checked := do
  let (fields, receivedHash) ← v.verifySignature hmac rawInitData
  let currentTimestamp := timestamp now
  let authTimestamp ← authTimestamp fields
  let age := currentTimestamp - authTimestamp
  require (age ≤ v.maxAgeSeconds) (.authentication "webapp_init_data_expired")
  require (-v.maxFutureSkewSeconds ≤ age) (.authentication "webapp_auth_date_in_future")
  let userId ← telegramUserId loads fields
  let fingerprint := hexdigest (hmac.digest (v.replaySecret hmac) (utf8 (lower receivedHash)))
  let ttlSeconds := max 1 (min v.maxAgeSeconds (authTimestamp + v.maxAgeSeconds - currentTimestamp))
  return { fields, authTimestamp, userId, fingerprint, ttlSeconds }

/-- `verify_and_claim`. -/
def verifyAndClaim (r : Redis) (rawInitData : String) (now : Int) :
    Except WebAppError VerifiedWebAppIdentity × Redis :=
  match v.check hmac loads rawInitData now with
  | .error e => (.error e, r)
  | .ok x =>
    match v.replayStore.claim r now x.fingerprint x.ttlSeconds with
    | .error _ => (.error (.replayStore "replay store unavailable"), r)
    | .ok (false, r') => (.error (.authentication "webapp_init_data_replayed"), r')
    | .ok (true, r') =>
      (.ok { telegramUserId := x.userId
             authDate := x.authTimestamp * oneSecond
             sessionFingerprint := x.fingerprint
             startParameter := (x.fields.lookup "start_param").filter startParameterPattern }, r')

end TelegramInitDataVerifier

end SalonBooking
