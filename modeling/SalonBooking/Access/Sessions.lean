import SalonBooking.Access.Identity
import SalonBooking.Access.JsonText
import SalonBooking.Domain.Appointments
import SalonBooking.Lib.DecimalNumbers
import SalonBooking.Lib.Expiring

/-!
# Opaque sessions

`api/sessions.py`: a session is stored as a JSON text with whole seconds under the HMAC of its token, in Redis with a
time to live. It is validated with its microseconds before it is written and without them after it is read. Redis has
a clock that does not run ahead of that of the process: a call reads or writes at one instant and looks at the clock
at a later one.
-/

namespace SalonBooking

open Lib

/-- `OpaqueSession`. -/
structure OpaqueSession where
  telegramUserId : Int
  issuedAt : Int
  expiresAt : Int
  authDate : Int
  startParameter : Option String
deriving DecidableEq, Repr

inductive SessionError
  /-- `SessionStoreError`. -/
  | store
  | value (message : String)
  | overflow
  | runtime (message : String)
deriving DecidableEq, Repr

/-- `_OPAQUE_TOKEN`. -/
def opaqueToken (token : String) : Bool :=
  token.toList.length == 43 && token.toList.all fun c => c.isAlphanum || c == '_' || c == '-'

def lastSecond : Int := 253402300799

structure RedisOpaqueSessionStore where
  namespace_ : String
  pepper : String
  safe : safeNamespace namespace_ = true
  long : 32 ≤ (utf8 pepper).length

namespace RedisOpaqueSessionStore

variable (hmac : Hmac) (store : RedisOpaqueSessionStore)

def keySecret : List UInt8 := hmac.digest (utf8 store.pepper) (utf8 "miniapp-session-key-v1")

/-- `_key`. -/
def key (token : String) : String :=
  store.namespace_ ++ ":webapp_session:" ++ hexdigest (hmac.digest (store.keySecret hmac) (utf8 token))

/-- `_validate_token`. -/
def validateToken (token : String) : Except SessionError Unit :=
  require (opaqueToken token = true) (.value "invalid opaque session token")

/-- `_validate_session`. -/
def validateSession (session : OpaqueSession) : Except SessionError Unit := do
  require (1 ≤ session.telegramUserId ∧ session.telegramUserId ≤ maxTelegramId) (.value "invalid Telegram user ID")
  require (¬ (session.expiresAt ≤ session.issuedAt ∨ session.issuedAt + minutes 1 < session.authDate))
    (.value "invalid session timestamps")
  require (session.startParameter.all startParameterPattern = true) (.value "invalid session start parameter")

/-- `_encode`. -/
def encode (session : OpaqueSession) : String :=
  JsonText.dumps
    [("v", .int 1), ("telegram_user_id", .int session.telegramUserId), ("issued_at", .int (timestamp session.issuedAt)),
      ("expires_at", .int (timestamp session.expiresAt)), ("auth_date", .int (timestamp session.authDate)),
      ("start_parameter", session.startParameter.elim .null .str)]

/-- The names that the record of a session has. -/
def fieldNames : List String := ["v", "telegram_user_id", "issued_at", "expires_at", "auth_date", "start_parameter"]

/-- `payload["v"] == 1`: also `true` and the floats that are rounded to one. -/
def isVersion : Option Json → Bool
  | some (.int n) => n = 1
  | some (.bool b) => b
  | some (.float text) =>
    (Decimal.ofText text.toList).any fun d => decide (1 - 1 / 2 ^ 54 ≤ d.value ∧ d.value ≤ 1 + 1 / 2 ^ 53)
  | _ => false

/-- `_integer`. -/
def integer : Option Json → Except SessionError Int
  | some (.int n) => .ok n
  | _ => .error .store

/-- `_timestamp`. -/
def timestampField (value : Option Json) : Except SessionError Int := do
  let seconds ← integer value
  require (1 ≤ seconds ∧ seconds ≤ lastSecond) .store
  return seconds * oneSecond

def startParameterField : Option Json → Except SessionError (Option String)
  | some .null => .ok none
  | some (.str s) => .ok (some s)
  | _ => .error .store

/-- `_decode`. -/
def decode (value : String) : Except SessionError OpaqueSession := do
  match JsonText.loads value with
  | some (.dict payload) =>
    require ((∀ k ∈ payload.map Prod.fst, k ∈ fieldNames) ∧ ∀ k ∈ fieldNames, k ∈ payload.map Prod.fst) .store
    require (isVersion (payload.lookup "v") = true) .store
    let telegramUserId ← integer (payload.lookup "telegram_user_id")
    let issuedAt ← timestampField (payload.lookup "issued_at")
    let expiresAt ← timestampField (payload.lookup "expires_at")
    let authDate ← timestampField (payload.lookup "auth_date")
    let startParameter ← startParameterField (payload.lookup "start_parameter")
    let session : OpaqueSession := { telegramUserId, issuedAt, expiresAt, authDate, startParameter }
    require (validateSession session = .ok ()) .store
    return session
  | _ => throw .store

/-- `create`, with what it stores. -/
def create (r : Expiring String String) (at_ : Int) (token : String) (session : OpaqueSession) (ttlSeconds : Int) :
    Except SessionError (Bool × Expiring String String) := do
  validateToken token
  validateSession session
  require (60 ≤ ttlSeconds ∧ ttlSeconds ≤ 86400) (.value "session TTL must be between 60 and 86400 seconds")
  return r.setNx at_ (store.key hmac token) (encode session) (ttlSeconds * oneSecond)

/-- `resolve`: the record is read at `at_` and compared with the clock at `now`. -/
def resolve (r : Expiring String String) (at_ : Int) (token : String) (now : Int) :
    Except SessionError (Option OpaqueSession × Expiring String String) := do
  validateToken token
  match r.get at_ (store.key hmac token) with
  | none => return (none, r)
  | some raw =>
    require (raw.utf8ByteSize ≤ 4096) .store
    let session ← decode raw
    if session.expiresAt ≤ now then return (none, (r.delete now (store.key hmac token)).2)
    else return (some session, r)

/-- `revoke`. -/
def revoke (r : Expiring String String) (at_ : Int) (token : String) :
    Except SessionError (Bool × Expiring String String) := do
  validateToken token
  return r.delete at_ (store.key hmac token)

end RedisOpaqueSessionStore

/-- The answer of `issue_session`. -/
structure IssuedSession where
  sessionToken : String
  tokenType : String
  expiresIn : Int
deriving DecidableEq, Repr

/-- `OpaqueSessionIssuer`. -/
structure OpaqueSessionIssuer where
  store : RedisOpaqueSessionStore
  ttlSeconds : Int
  ttl_range : 60 ≤ ttlSeconds ∧ ttlSeconds ≤ 86400

namespace OpaqueSessionIssuer

variable (hmac : Hmac) (issuer : OpaqueSessionIssuer)

/-- The loop over the attempts, each with its random token and the instant of its write. -/
def attempt (session : OpaqueSession) (r : Expiring String String) :
    List (String × Int) → Except SessionError (IssuedSession × Expiring String String)
  | [] => .error .store
  | (token, at_) :: rest => do
    require (opaqueToken token = true) (.runtime "secure token generator returned an invalid token")
    let (created, r') ← issuer.store.create hmac r at_ token session issuer.ttlSeconds
    if created then return (⟨token, "Bearer", issuer.ttlSeconds⟩, r') else attempt session r' rest

/-- `issue_session` at the clock `issuedAt`, with the tokens that the three attempts would draw. -/
def issueSession (r : Expiring String String) (identity : VerifiedWebAppIdentity) (issuedAt : Int)
    (first second third : String × Int) : Except SessionError (IssuedSession × Expiring String String) := do
  require (issuedAt + issuer.ttlSeconds * oneSecond < (lastSecond + 1) * oneSecond) .overflow
  attempt hmac issuer
    { telegramUserId := identity.telegramUserId
      issuedAt
      expiresAt := issuedAt + issuer.ttlSeconds * oneSecond
      authDate := identity.authDate
      startParameter := identity.startParameter } r [first, second, third]

end OpaqueSessionIssuer

/-! ### The record -/

namespace RedisOpaqueSessionStore

/-- The instant without its microseconds. -/
def wholeSecond (t : Int) : Int := timestamp t * oneSecond

def truncated (session : OpaqueSession) : OpaqueSession :=
  { session with
    issuedAt := wholeSecond session.issuedAt
    expiresAt := wholeSecond session.expiresAt
    authDate := wholeSecond session.authDate }

/-- The first second, in the year 2514, in which a double does not tell the last microsecond from the next second. -/
def firstCoarseSecond : Int := 2 ^ 34

theorem timestamp_eq {t : Int} (h : 0 ≤ t) (fine : t < firstCoarseSecond * oneSecond) : timestamp t = t / oneSecond := by
  obtain ⟨n, rfl⟩ := Int.eq_ofNat_of_zero_le h
  have small : n / 1000000 < 2 ^ 34 := by
    unfold firstCoarseSecond oneSecond at fine
    omega
  have log : Nat.log2 (n / 1000000) ≤ 33 := by
    by_cases zero : n / 1000000 = 0
    · rw [zero]
      decide
    · exact Nat.lt_succ_iff.mp ((Nat.log2_lt zero).mpr small)
  rw [timestamp, if_pos h, Int.toNat_natCast, Decimal.truncQuotient_eq (by norm_num)]
  · rfl
  · calc 1000000 < 2 ^ 20 := by norm_num
      _ ≤ 2 ^ (53 - Nat.log2 (n / 1000000)) := Nat.pow_le_pow_right (by norm_num) (by omega)

theorem timestamp_nonpos {t : Int} (h : t < 0) : timestamp t ≤ 0 := by
  rw [timestamp, if_neg (not_le.mpr h)]
  omega

theorem plain_of_startParameter {s : String} (h : startParameterPattern s = true) : ∀ c ∈ s.toList, JsonText.Plain c := by
  intro c hc
  simp only [startParameterPattern, Bool.and_eq_true, List.all_eq_true, Bool.or_eq_true, beq_iff_eq] at h
  have table : ∀ d : Char, d.isAlphanum = true → JsonText.Plain d := by
    intro d hd
    have range : (65 ≤ d.toNat ∧ d.toNat ≤ 90 ∨ 97 ≤ d.toNat ∧ d.toNat ≤ 122) ∨ 48 ≤ d.toNat ∧ d.toNat ≤ 57 := by
      simp only [Char.isAlphanum, Char.isAlpha, Char.isUpper, Char.isLower, Char.isDigit, Bool.or_eq_true,
        Bool.and_eq_true, decide_eq_true_eq, UInt32.le_iff_toNat_le, ge_iff_le] at hd
      exact hd
    refine ⟨by omega, by omega, ?_, ?_⟩
    all_goals
      rintro rfl
      exact absurd range (by decide)
  rcases h.2 c hc with (h | rfl) | rfl
  · exact table c h
  · decide
  · decide

theorem loads_encode {session : OpaqueSession} (positive : 0 ≤ session.telegramUserId)
    (issued : 0 ≤ timestamp session.issuedAt) (expires : 0 ≤ timestamp session.expiresAt)
    (auth : 0 ≤ timestamp session.authDate) (parameter : session.startParameter.all startParameterPattern = true) :
    JsonText.loads (encode session) =
      some (.dict [("auth_date", .int (timestamp session.authDate)), ("expires_at", .int (timestamp session.expiresAt)),
        ("issued_at", .int (timestamp session.issuedAt)), ("start_parameter", session.startParameter.elim .null .str),
        ("telegram_user_id", .int session.telegramUserId), ("v", .int 1)]) := by
  unfold encode
  rw [JsonText.loads_dumps]
  · simp [List.insertionSort, List.orderedInsert, JsonText.Scalar.json]
    cases session.startParameter <;> rfl
  · have parameter : (session.startParameter.elim JsonText.Scalar.null .str).Simple := by
      cases shape : session.startParameter with
      | none => trivial
      | some s =>
        rw [shape] at parameter
        exact plain_of_startParameter parameter
    simp only [List.forall_mem_cons, JsonText.SimpleMember, JsonText.Scalar.Simple]
    have names : ∀ name ∈ fieldNames, startParameterPattern name = true := by decide +kernel
    have plain : ∀ name ∈ fieldNames, ∀ c ∈ name.toList, JsonText.Plain c := fun name h =>
      plain_of_startParameter (names name h)
    refine ⟨⟨plain _ ?_, by decide⟩, ⟨plain _ ?_, positive⟩, ⟨plain _ ?_, issued⟩, ⟨plain _ ?_, expires⟩,
      ⟨plain _ ?_, auth⟩, ⟨plain _ ?_, parameter⟩, nofun⟩
    all_goals simp [fieldNames]
  · exact List.cons_ne_nil _ _
  · simp

theorem validateSession_ok {session : OpaqueSession} :
    validateSession session = .ok () ↔ (1 ≤ session.telegramUserId ∧ session.telegramUserId ≤ maxTelegramId) ∧
      (session.issuedAt < session.expiresAt ∧ session.authDate ≤ session.issuedAt + minutes 1) ∧
      session.startParameter.all startParameterPattern = true := by
  simp only [validateSession, Except.bind_ok, Except.require_ok, exists_const, not_or, not_le, not_lt]

/-- **A valid session whose instants are between the first second and the first coarse one is read back without its
microseconds.** -/
theorem decode_encode {session : OpaqueSession} (valid : validateSession session = .ok ())
    (issued : oneSecond ≤ session.issuedAt) (auth : oneSecond ≤ session.authDate)
    (lasts : session.issuedAt + minutes 1 ≤ session.expiresAt)
    (fine : session.expiresAt < firstCoarseSecond * oneSecond) :
    decode (encode session) = .ok (truncated session) := by
  obtain ⟨id, ⟨-, fresh⟩, parameter⟩ := validateSession_ok.mp valid
  have second : ∀ t, oneSecond ≤ t → t < firstCoarseSecond * oneSecond → 1 ≤ timestamp t ∧ timestamp t ≤ lastSecond := by
    intro t low high
    rw [timestamp_eq (by unfold oneSecond at low; omega) high]
    unfold oneSecond firstCoarseSecond lastSecond at *
    omega
  have hi := second session.issuedAt issued (by unfold minutes at *; omega)
  have he := second session.expiresAt (by unfold minutes at *; omega) fine
  have ha := second session.authDate auth (by omega)
  have again : validateSession (truncated session) = .ok () := by
    refine validateSession_ok.mpr ⟨id, ⟨?_, ?_⟩, parameter⟩
    all_goals
      simp only [truncated, wholeSecond]
      rw [timestamp_eq (by unfold oneSecond at *; omega) (by unfold minutes oneSecond at *; omega),
        timestamp_eq (by unfold oneSecond at *; omega) (by unfold minutes oneSecond at *; omega)]
      unfold oneSecond minutes at *
      omega
  have field : ∀ n, 1 ≤ n ∧ n ≤ lastSecond → timestampField (some (.int n)) = .ok (n * oneSecond) := by
    intro n hn
    simp only [timestampField, integer, Except.bind_ok, Except.require_ok, Except.pure_ok, exists_const, Except.ok.injEq,
      exists_eq_left']
    exact ⟨hn, trivial⟩
  have parameterField : startParameterField (some (session.startParameter.elim .null .str)) = .ok session.startParameter := by
    cases session.startParameter <;> rfl
  unfold decode
  rw [loads_encode (by omega) (by omega) (by omega) (by omega) parameter]
  simp only [Except.bind_ok, Except.require_ok, Except.pure_ok, exists_const]
  refine ⟨by simp [fieldNames], by simp [List.lookup, isVersion], session.telegramUserId, by simp [List.lookup, integer],
    wholeSecond session.issuedAt, ?_, wholeSecond session.expiresAt, ?_, wholeSecond session.authDate, ?_,
    session.startParameter, ?_, again, rfl⟩
  · exact field _ hi
  · exact field _ he
  · exact field _ ha
  · exact parameterField

theorem length_dumpString {s : String} (h : ∀ c ∈ s.toList, JsonText.Plain c) :
    (JsonText.dumpString s.toList).length = s.length + 2 := by
  rw [JsonText.dumpString_plain h, ← String.length_toList]
  simp

theorem size_encode {session : OpaqueSession} (valid : validateSession session = .ok ())
    (issued : 0 ≤ timestamp session.issuedAt ∧ timestamp session.issuedAt ≤ lastSecond)
    (expires : 0 ≤ timestamp session.expiresAt ∧ timestamp session.expiresAt ≤ lastSecond)
    (auth : 0 ≤ timestamp session.authDate ∧ timestamp session.authDate ≤ lastSecond) :
    (encode session).utf8ByteSize ≤ 4096 := by
  obtain ⟨id, -, parameter⟩ := validateSession_ok.mp valid
  have int : ∀ n : Int, 0 ≤ n → n < 10 ^ 16 → (JsonText.Scalar.int n).dump.length ≤ 16 := by
    intro n low high
    obtain ⟨n, rfl⟩ := Int.eq_ofNat_of_zero_le low
    rw [JsonText.Scalar.dump, if_neg (by omega), List.nil_append]
    exact (Nat.length_toDigits_le_iff (by norm_num) (by norm_num)).mpr (by simpa using (by exact_mod_cast high))
  have text : (session.startParameter.elim JsonText.Scalar.null .str).dump.length ≤ 66 := by
    cases shape : session.startParameter with
    | none => decide
    | some s =>
      rw [shape] at parameter
      have size := parameter
      simp only [Option.all_some, startParameterPattern, Bool.and_eq_true, decide_eq_true_eq] at size
      have := length_dumpString (plain_of_startParameter parameter)
      rw [← String.length_toList] at this
      simp only [Option.elim_some, JsonText.Scalar.dump]
      omega
  have names : ∀ name ∈ fieldNames, startParameterPattern name = true ∧ name.length ≤ 16 := by decide +kernel
  have key : ∀ name ∈ fieldNames, (JsonText.dumpString name.toList).length ≤ 18 := by
    intro name h
    rw [length_dumpString (plain_of_startParameter (names name h).1)]
    have := (names name h).2
    omega
  have member : ∀ name ∈ fieldNames, ∀ x : JsonText.Scalar, x.dump.length ≤ 66 →
      (JsonText.dumpMember (name, x)).length ≤ 90 := by
    intro name h x hx
    have := key name h
    simp only [JsonText.dumpMember, List.length_append, List.length_cons]
    omega
  have number : ∀ n : Int, 0 ≤ n → n < 10 ^ 16 → (JsonText.Scalar.int n).dump.length ≤ 66 := fun n low high =>
    (int n low high).trans (by norm_num)
  have bounds : maxTelegramId < 10 ^ 16 ∧ lastSecond < 10 ^ 16 := by decide
  have members : ∀ p ∈ [("v", JsonText.Scalar.int 1), ("telegram_user_id", .int session.telegramUserId),
      ("issued_at", .int (timestamp session.issuedAt)), ("expires_at", .int (timestamp session.expiresAt)),
      ("auth_date", .int (timestamp session.authDate)), ("start_parameter", session.startParameter.elim .null .str)],
      (JsonText.dumpMember p).length ≤ 90 := by
    simp only [List.forall_mem_cons]
    refine ⟨member _ ?_ _ (number _ (by norm_num) (by norm_num)), member _ ?_ _ (number _ (by omega) (by omega)),
      member _ ?_ _ (number _ issued.1 (by omega)), member _ ?_ _ (number _ expires.1 (by omega)),
      member _ ?_ _ (number _ auth.1 (by omega)), member _ ?_ _ text, (by simp)⟩
    all_goals simp [fieldNames]
  exact (JsonText.utf8ByteSize_dumps members).trans (by simp)

/-! ### What a key holds -/

variable {hmac : Hmac} {store : RedisOpaqueSessionStore} {r : Expiring String String} {token : String}
variable {session : OpaqueSession} {at_ now e : Int}

/-- The key holds the record of the session until `e`. -/
def Holds (hmac : Hmac) (store : RedisOpaqueSessionStore) (r : Expiring String String) (token : String)
    (session : OpaqueSession) (e : Int) : Prop := r.entry (store.key hmac token) = some (encode session, e)

/-- A session as it is issued: valid, from the first second on, for a minute at least, and before the first coarse one. -/
structure Issued (session : OpaqueSession) : Prop where
  valid : validateSession session = .ok ()
  issued : oneSecond ≤ session.issuedAt
  auth : oneSecond ≤ session.authDate
  lasts : session.issuedAt + minutes 1 ≤ session.expiresAt
  fine : session.expiresAt < firstCoarseSecond * oneSecond

theorem Issued.decode (h : Issued session) : decode (encode session) = .ok (truncated session) :=
  decode_encode h.valid h.issued h.auth h.lasts h.fine

theorem Issued.size (h : Issued session) : (encode session).utf8ByteSize ≤ 4096 := by
  have second : ∀ t, oneSecond ≤ t → t < firstCoarseSecond * oneSecond → 0 ≤ timestamp t ∧ timestamp t ≤ lastSecond := by
    intro t low high
    rw [timestamp_eq (by unfold oneSecond at low; omega) high]
    unfold oneSecond firstCoarseSecond lastSecond at *
    omega
  have fresh := (validateSession_ok.mp h.valid).2.1.2
  have lasts := h.lasts
  have issued := h.issued
  have fine := h.fine
  unfold minutes at *
  exact size_encode h.valid (second _ issued (by omega)) (second _ (by omega) fine) (second _ h.auth (by omega))

/-- What `resolve` does with a record that Redis still has. -/
theorem resolve_of_holds (issued : Issued session) (wellFormed : opaqueToken token = true)
    (holds : Holds hmac store r token session e) (live : at_ < e) :
    store.resolve hmac r at_ token now =
      .ok (if wholeSecond session.expiresAt ≤ now then (none, (r.delete now (store.key hmac token)).2)
        else (some (truncated session), r)) := by
  have read : r.get at_ (store.key hmac token) = some (encode session) := by
    rw [Expiring.get_of_entry holds, if_pos live]
  simp only [resolve, validateToken, Except.require_bind_ok, read]
  refine ⟨wellFormed, issued.size, ?_⟩
  rw [issued.decode, Except.bind_ok]
  refine ⟨truncated session, rfl, ?_⟩
  show (if wholeSecond session.expiresAt ≤ now then _ else _) = _
  split_ifs <;> rfl

theorem resolve_of_absent (wellFormed : opaqueToken token = true) (absent : r.get at_ (store.key hmac token) = none) :
    store.resolve hmac r at_ token now = .ok (none, r) := by
  simp only [resolve, validateToken, Except.require_bind_ok, absent, Except.pure_ok]
  exact ⟨wellFormed, trivial⟩

theorem create_entry {created : Bool} {r' : Expiring String String} {ttlSeconds : Int}
    (h : store.create hmac r at_ token session ttlSeconds = .ok (created, r')) :
    r.setNx at_ (store.key hmac token) (encode session) (ttlSeconds * oneSecond) = (created, r') := by
  simp only [create, Except.bind_ok, Except.require_ok, Except.pure_ok] at h
  obtain ⟨-, -, -, -, -, -, h⟩ := h
  exact h

theorem resolve_state {found : Option OpaqueSession} {r' : Expiring String String}
    (h : store.resolve hmac r at_ token now = .ok (found, r')) :
    r' = r ∨ r' = (r.delete now (store.key hmac token)).2 := by
  simp only [resolve, Except.bind_ok] at h
  obtain ⟨-, -, h⟩ := h
  split at h
  · rw [Except.pure_ok, Prod.mk.injEq] at h
    exact .inl h.2.symm
  · simp only [Except.bind_ok] at h
    obtain ⟨-, -, session, -, h⟩ := h
    split_ifs at h
    · rw [Except.pure_ok, Prod.mk.injEq] at h
      exact .inr h.2.symm
    · rw [Except.pure_ok, Prod.mk.injEq] at h
      exact .inl h.2.symm

theorem revoke_state {deleted : Bool} {r' : Expiring String String}
    (h : store.revoke hmac r at_ token = .ok (deleted, r')) : r' = (r.delete at_ (store.key hmac token)).2 := by
  simp only [revoke, Except.bind_ok, Except.pure_ok] at h
  obtain ⟨-, -, h⟩ := h
  rw [h]

end RedisOpaqueSessionStore

/-! ### Runs -/

inductive SessionOp
  | create (session : OpaqueSession) (ttlSeconds : Int)
  | resolve
  | revoke

/-- A call of the store at the instant of its access, with the clock it reads after that. -/
structure SessionCall where
  op : SessionOp
  token : String
  at_ : Int
  now : Int

namespace RedisOpaqueSessionStore

/-- What a call leaves in Redis; one that raises leaves it alone. -/
def left {α : Type} (r : Expiring String String) (x : Except SessionError (α × Expiring String String)) :
    Expiring String String := Except.orElse (x.map Prod.snd) r

def step (hmac : Hmac) (store : RedisOpaqueSessionStore) (r : Expiring String String) (c : SessionCall) :
    Expiring String String :=
  match c.op with
  | .create session ttlSeconds => left r (store.create hmac r c.at_ c.token session ttlSeconds)
  | .resolve => left r (store.resolve hmac r c.at_ c.token c.now)
  | .revoke => left r (store.revoke hmac r c.at_ c.token)

def run (hmac : Hmac) (store : RedisOpaqueSessionStore) (r : Expiring String String) (calls : List SessionCall) :
    Expiring String String := calls.foldl (step hmac store) r

variable {hmac : Hmac} {store : RedisOpaqueSessionStore} {messages : Set (List UInt8)}
variable {r : Expiring String String} {c : SessionCall} {calls : List SessionCall}
variable {token other : String} {session : OpaqueSession} {at_ now e : Int}

theorem key_injective (injective : Set.InjOn (hmac.digest (store.keySecret hmac)) messages) (mem : utf8 token ∈ messages)
    (mem' : utf8 other ∈ messages) (h : store.key hmac token = store.key hmac other) : token = other := by
  have h := congrArg String.toList h
  simp only [key, String.toList_append, List.append_cancel_left_eq] at h
  exact utf8_injective (injective mem mem' (hexdigest_injective (String.toList_inj.mp h)))

theorem left_cases {α : Type} (x : Except SessionError (α × Expiring String String)) :
    left r x = r ∨ ∃ a, x = .ok (a, left r x) := by
  cases x with
  | error => exact .inl rfl
  | ok p => exact .inr ⟨p.1, rfl⟩

theorem entry_step_ne (h : store.key hmac token ≠ store.key hmac c.token) :
    (step hmac store r c).entry (store.key hmac token) = r.entry (store.key hmac token) := by
  obtain ⟨op, other, at_, now⟩ := c
  cases op with
  | create session ttlSeconds =>
    show (left r (store.create hmac r at_ other session ttlSeconds)).entry _ = _
    rcases left_cases (store.create hmac r at_ other session ttlSeconds) with same | ⟨created, ran⟩
    · rw [same]
    · rw [← show _ = left r _ from congrArg Prod.snd (create_entry ran)]
      exact Expiring.entry_setNx_ne h
  | resolve =>
    show (left r (store.resolve hmac r at_ other now)).entry _ = _
    rcases left_cases (store.resolve hmac r at_ other now) with same | ⟨found, ran⟩
    · rw [same]
    · rcases resolve_state ran with same | deleted
      · rw [same]
      · rw [deleted]
        exact Expiring.entry_delete_ne h
  | revoke =>
    show (left r (store.revoke hmac r at_ other)).entry _ = _
    rcases left_cases (store.revoke hmac r at_ other) with same | ⟨deleted, ran⟩
    · rw [same]
    · rw [revoke_state ran]
      exact Expiring.entry_delete_ne h

/-- The call has a token of the messages, and only looks the given one up. -/
def Bystander (messages : Set (List UInt8)) (token : String) (c : SessionCall) : Prop :=
  utf8 c.token ∈ messages ∧ (c.token = token → c.op = .resolve)

section Bystanders

variable (injective : Set.InjOn (hmac.digest (store.keySecret hmac)) messages) (mem : utf8 token ∈ messages)
variable (wellFormed : opaqueToken token = true) (issued : Issued session)

include injective mem

theorem absent_step (bystander : Bystander messages token c) (absent : r.entry (store.key hmac token) = none) :
    (step hmac store r c).entry (store.key hmac token) = none := by
  by_cases own : c.token = token
  · have shape : step hmac store r c = left r (store.resolve hmac r c.at_ token c.now) := by
      rw [step, bystander.2 own, own]
    rw [shape]
    rcases left_cases (store.resolve hmac r c.at_ token c.now) with same | ⟨found, ran⟩
    · rw [same, absent]
    · rcases resolve_state ran with same | deleted
      · rw [same, absent]
      · rw [deleted, Expiring.entry_delete]
  · rw [entry_step_ne fun h => own (key_injective injective mem bystander.1 h).symm, absent]

theorem absent_run (bystanders : ∀ c ∈ calls, Bystander messages token c)
    (absent : r.entry (store.key hmac token) = none) : (run hmac store r calls).entry (store.key hmac token) = none := by
  induction calls generalizing r with
  | nil => exact absent
  | cons c calls ih =>
    obtain ⟨first, rest⟩ := List.forall_mem_cons.mp bystanders
    exact ih rest (absent_step injective mem first absent)

include wellFormed issued

theorem holds_step (bystander : Bystander messages token c) (holds : Holds hmac store r token session e) :
    (step hmac store r c).entry (store.key hmac token) = none ∧ wholeSecond session.expiresAt ≤ c.now ∨
      Holds hmac store (step hmac store r c) token session e := by
  by_cases own : c.token = token
  · have shape : step hmac store r c = left r (store.resolve hmac r c.at_ token c.now) := by
      rw [step, bystander.2 own, own]
    rw [shape]
    by_cases live : c.at_ < e
    · rw [resolve_of_holds issued wellFormed holds live]
      by_cases late : wholeSecond session.expiresAt ≤ c.now
      · rw [if_pos late]
        exact .inl ⟨Function.update_self _ _ _, late⟩
      · rw [if_neg late]
        exact .inr holds
    · have absent : r.get c.at_ (store.key hmac token) = none := by
        rw [Expiring.get_of_entry holds, if_neg live]
      rw [resolve_of_absent wellFormed absent]
      exact .inr holds
  · right
    unfold Holds
    rw [entry_step_ne fun h => own (key_injective injective mem bystander.1 h).symm]
    exact holds

/-- After any calls of others the record is there, or gone because its time was over at one of them. -/
theorem holds_run (bystanders : ∀ c ∈ calls, Bystander messages token c) (holds : Holds hmac store r token session e) :
    (run hmac store r calls).entry (store.key hmac token) = none ∧ (∃ c ∈ calls, wholeSecond session.expiresAt ≤ c.now) ∨
      Holds hmac store (run hmac store r calls) token session e := by
  induction calls generalizing r with
  | nil => exact .inr holds
  | cons c calls ih =>
    obtain ⟨first, rest⟩ := List.forall_mem_cons.mp bystanders
    rcases holds_step injective mem wellFormed issued first holds with ⟨absent, late⟩ | holds
    · have gone := absent_run injective mem rest absent
      exact .inl ⟨gone, c, List.mem_cons_self, late⟩
    · rcases ih rest holds with ⟨absent, d, hd, late⟩ | holds
      · exact .inl ⟨absent, d, List.mem_cons_of_mem c hd, late⟩
      · exact .inr holds

end Bystanders

end RedisOpaqueSessionStore

/-! ### The life of a session -/

namespace OpaqueSessionIssuer

open RedisOpaqueSessionStore

variable {hmac : Hmac} {loads : String → Except LoadsError Json} {issuer : OpaqueSessionIssuer}
variable {r : Expiring String String} {session : OpaqueSession}

theorem attempt_ok (valid : validateSession session = .ok ()) :
    ∀ attempts : List (String × Int), (∀ p ∈ attempts, opaqueToken p.1 = true) →
      (∃ p ∈ attempts, r.get p.2 (issuer.store.key hmac p.1) = none) →
        ∃ p ∈ attempts, ∃ r', attempt hmac issuer session r attempts = .ok (⟨p.1, "Bearer", issuer.ttlSeconds⟩, r') ∧
          Holds hmac issuer.store r' p.1 session (p.2 + issuer.ttlSeconds * oneSecond) := by
  intro attempts
  induction attempts with
  | nil => rintro - ⟨p, hp, -⟩
           cases hp
  | cons p rest ih =>
    intro wellFormed some_free
    obtain ⟨first, others⟩ := List.forall_mem_cons.mp wellFormed
    have created : issuer.store.create hmac r p.2 p.1 session issuer.ttlSeconds =
        .ok (r.setNx p.2 (issuer.store.key hmac p.1) (encode session) (issuer.ttlSeconds * oneSecond)) := by
      simp only [create, validateToken, Except.bind_ok, Except.require_ok, Except.pure_ok, exists_const]
      exact ⟨first, (), valid, issuer.ttl_range, trivial⟩
    by_cases free : r.get p.2 (issuer.store.key hmac p.1) = none
    · rw [Expiring.setNx_of_free free] at created
      refine ⟨p, List.mem_cons_self, ⟨Function.update r.entry (issuer.store.key hmac p.1)
        (some (encode session, p.2 + issuer.ttlSeconds * oneSecond))⟩, ?_, ?_⟩
      · simp only [attempt, created, Except.bind_ok]
        exact ⟨(), Except.require_ok.mpr first, _, rfl, rfl⟩
      · exact Function.update_self _ _ _
    · have taken : (r.get p.2 (issuer.store.key hmac p.1)).isSome = true := Option.isSome_iff_ne_none.mpr free
      have later : ∃ q ∈ rest, r.get q.2 (issuer.store.key hmac q.1) = none := by
        obtain ⟨q, hq, hfree⟩ := some_free
        rcases List.mem_cons.mp hq with rfl | hq
        · exact absurd hfree free
        · exact ⟨q, hq, hfree⟩
      obtain ⟨q, hq, r', ran, holds⟩ := ih others later
      refine ⟨q, List.mem_cons_of_mem p hq, r', ?_, holds⟩
      rw [Expiring.setNx_of_taken taken] at created
      simp only [attempt, created, Except.bind_ok]
      exact ⟨(), Except.require_ok.mpr first, _, rfl, ran⟩

theorem telegramUserId_range {F : Fields} {n : Int} (h : telegramUserId loads F = .ok n) : 1 ≤ n ∧ n ≤ maxTelegramId := by
  simp only [telegramUserId, Except.bind_ok] at h
  obtain ⟨raw, -, -, -, h⟩ := h
  split at h
  · cases h
  · cases h
  · split at h
    · simp only [Except.require_bind_ok, Except.pure_ok] at h
      obtain ⟨range, rfl⟩ := h
      exact range
    · cases h
  · cases h

theorem identity_ranges {v : TelegramInitDataVerifier} {replays : Redis} {raw : String} {now : Int}
    {identity : VerifiedWebAppIdentity} (h : (v.verifyAndClaim hmac loads replays raw now).1 = .ok identity) :
    (1 ≤ identity.telegramUserId ∧ identity.telegramUserId ≤ maxTelegramId) ∧ oneSecond ≤ identity.authDate ∧
      identity.authDate ≤ (timestamp now + 60) * oneSecond ∧
      identity.startParameter.all startParameterPattern = true := by
  unfold TelegramInitDataVerifier.verifyAndClaim at h
  cases checked : v.check hmac loads raw now with
  | error e =>
    rw [checked] at h
    cases h
  | ok x =>
    simp only [checked] at h
    split at h
    · cases h
    · cases h
    · injection h with h
      subst h
      simp only [TelegramInitDataVerifier.check, Except.bind_ok, Except.require_ok, Except.pure_ok, exists_const] at checked
      obtain ⟨⟨F, hash⟩, -, A, dated, -, recent, u, user, rfl⟩ := checked
      have positive : 0 < A := by
        simp only [authTimestamp, Except.bind_ok, Except.require_ok, Except.pure_ok, exists_const] at dated
        obtain ⟨raw, -, -, positive, rfl⟩ := dated
        exact positive
      have skew := v.skew_range
      refine ⟨telegramUserId_range user, ?_, ?_, ?_⟩
      · show oneSecond ≤ A * oneSecond
        unfold oneSecond
        omega
      · show A * oneSecond ≤ _
        unfold oneSecond
        omega
      · show (Option.filter startParameterPattern _).all startParameterPattern = true
        cases F.lookup "start_param" with
        | none => rfl
        | some s =>
          by_cases safe : startParameterPattern s = true
          · rw [Option.filter_some, if_pos safe]
            exact safe
          · rw [Option.filter_some, if_neg safe]
            rfl

/-- **An issued session is resolved to its user and start parameter, with whole seconds, until its expiry, and to
nothing from then on and after it is revoked, whatever calls for other tokens come in between. It never raises.** -/
theorem session_round_trip (hmac : Hmac) (loads : String → Except LoadsError Json) (issuer : OpaqueSessionIssuer)
    (messages : Set (List UInt8)) (injective : Set.InjOn (hmac.digest (issuer.store.keySecret hmac)) messages)
    (v : TelegramInitDataVerifier) (replays : Redis) (raw : String) (verifiedAt issuedAt : Int)
    (identity : VerifiedWebAppIdentity)
    (verified : (v.verifyAndClaim hmac loads replays raw verifiedAt).1 = .ok identity)
    (later : verifiedAt ≤ issuedAt) (epoch : oneSecond ≤ issuedAt)
    (fine : issuedAt + issuer.ttlSeconds * oneSecond < firstCoarseSecond * oneSecond)
    (r : Expiring String String) (first second third : String × Int)
    (attempts : ∀ p ∈ [first, second, third], opaqueToken p.1 = true ∧ issuedAt ≤ p.2 ∧ utf8 p.1 ∈ messages)
    (some_free : ∃ p ∈ [first, second, third], r.get p.2 (issuer.store.key hmac p.1) = none) :
    ∃ token r', issuer.issueSession hmac r identity issuedAt first second third =
        .ok (⟨token, "Bearer", issuer.ttlSeconds⟩, r') ∧
      ∀ calls, (∀ c ∈ calls, Bystander messages token c) →
        (∀ at_ now, at_ ≤ now → (∀ c ∈ calls, c.now ≤ now) →
          (issuer.store.resolve hmac (run hmac issuer.store r' calls) at_ token now).map Prod.fst =
            .ok (if now < wholeSecond (issuedAt + issuer.ttlSeconds * oneSecond) then
              some { telegramUserId := identity.telegramUserId
                     issuedAt := wholeSecond issuedAt
                     expiresAt := wholeSecond (issuedAt + issuer.ttlSeconds * oneSecond)
                     authDate := wholeSecond identity.authDate
                     startParameter := identity.startParameter }
            else none)) ∧
        ∀ revokedAt, ∃ deleted r'', issuer.store.revoke hmac (run hmac issuer.store r' calls) revokedAt token = .ok (deleted, r'') ∧
          ∀ calls', (∀ c ∈ calls', Bystander messages token c) → ∀ at_ now,
            (issuer.store.resolve hmac (run hmac issuer.store r'' calls') at_ token now).map Prod.fst = .ok none := by
  obtain ⟨id, authLow, authHigh, parameter⟩ := identity_ranges verified
  have ttl := issuer.ttl_range
  let session : OpaqueSession :=
    { telegramUserId := identity.telegramUserId
      issuedAt
      expiresAt := issuedAt + issuer.ttlSeconds * oneSecond
      authDate := identity.authDate
      startParameter := identity.startParameter }
  have fresh : identity.authDate ≤ issuedAt + minutes 1 := by
    by_cases past : 0 ≤ verifiedAt
    · rw [timestamp_eq past (by unfold oneSecond at *; omega)] at authHigh
      unfold oneSecond minutes at *
      omega
    · have := timestamp_nonpos (not_le.mp past)
      unfold oneSecond minutes at *
      omega
  have issued : Issued session := by
    refine ⟨validateSession_ok.mpr ⟨id, ⟨?_, fresh⟩, parameter⟩, epoch, authLow, ?_, fine⟩
    · show issuedAt < issuedAt + issuer.ttlSeconds * oneSecond
      unfold oneSecond
      omega
    · show issuedAt + minutes 1 ≤ issuedAt + issuer.ttlSeconds * oneSecond
      unfold oneSecond minutes
      omega
  obtain ⟨p, hp, r', ran, holds⟩ := attempt_ok issued.valid _ (fun p hp => (attempts p hp).1) some_free
  obtain ⟨wellFormed, set, mem⟩ := attempts p hp
  refine ⟨p.1, r', ?_, fun calls bystanders => ?_⟩
  · simp only [issueSession, Except.require_bind_ok]
    have representable : issuedAt + issuer.ttlSeconds * oneSecond < (lastSecond + 1) * oneSecond :=
      fine.trans (by decide)
    exact ⟨representable, ran⟩
  have kept := holds_run injective mem wellFormed issued bystanders holds
  have ends : wholeSecond session.expiresAt ≤ p.2 + issuer.ttlSeconds * oneSecond := by
    show timestamp (issuedAt + issuer.ttlSeconds * oneSecond) * oneSecond ≤ _
    rw [timestamp_eq (by unfold oneSecond at *; omega) fine]
    unfold oneSecond at *
    omega
  constructor
  · intro at_ now read earlier
    rcases kept with ⟨absent, c, hc, late⟩ | holds
    · have ended : ¬ now < wholeSecond session.expiresAt := not_lt.mpr (late.trans (earlier c hc))
      rw [resolve_of_absent wellFormed (Expiring.get_of_none absent), if_neg ended]
      rfl
    · by_cases ended : now < wholeSecond session.expiresAt
      · rw [resolve_of_holds issued wellFormed holds (by omega), if_neg (not_le.mpr ended), if_pos ended]
        rfl
      · rw [if_neg ended]
        by_cases live : at_ < p.2 + issuer.ttlSeconds * oneSecond
        · rw [resolve_of_holds issued wellFormed holds live, if_pos (not_lt.mp ended)]
          rfl
        · have absent : (run hmac issuer.store r' calls).get at_ (issuer.store.key hmac p.1) = none := by
            rw [Expiring.get_of_entry holds, if_neg live]
          rw [resolve_of_absent wellFormed absent]
          rfl
  · intro revokedAt
    have revoked : issuer.store.revoke hmac (run hmac issuer.store r' calls) revokedAt p.1 =
        .ok ((run hmac issuer.store r' calls).delete revokedAt (issuer.store.key hmac p.1)) := by
      simp only [revoke, validateToken, Except.require_bind_ok, Except.pure_ok]
      exact ⟨wellFormed, trivial⟩
    refine ⟨_, _, revoked, fun calls' bystanders' at_ now => ?_⟩
    have gone : ((run hmac issuer.store r' calls).delete revokedAt (issuer.store.key hmac p.1)).2.entry
        (issuer.store.key hmac p.1) = none := Expiring.entry_delete
    have absent := absent_run injective mem bystanders' gone
    exact congrArg (Except.map Prod.fst) (resolve_of_absent wellFormed (Expiring.get_of_none absent))

end OpaqueSessionIssuer

/-! ### One session -/

namespace OpaqueSessionIssuer

namespace Sample

export TelegramInitDataVerifier.Sample (raw loads verifier hmacOf)

def pepper : String := "0123456789abcdef0123456789abcdef"

def token : String := "AbCdEfGhIjKlMnOpQrStUvWxYz0123456789_-AbCdE"

def other : String := "0123456789abcdefghijklmnopqrstuvwxyzABCDEF-"

def issuer : OpaqueSessionIssuer where
  store := ⟨"telegram_crm", pepper, safeNamespace_telegramCrm, by decide +kernel⟩
  ttlSeconds := 900
  ttl_range := by decide

/-- A string of the first second of 1970. -/
def firstRaw : String :=
  "auth_date=1&user=%7B%22id%22:7%7D&hash=07e929204164da4ce3b206824242db9fac57f08c1701f7a5c3f10759e3e0c313"

/-- A string of the first coarse second. -/
def coarseRaw : String :=
  "auth_date=17179869184&user=%7B%22id%22:7%7D&hash=b0cdd2c56541a74298ecec83f9e325eb653239b8ba3ae37437708fd056274ce4"

/-- HMAC-SHA256 on the messages that are digested here. -/
def digests : List ((List UInt8 × List UInt8) × List UInt8) :=
  let secret := verifier.secretKey TelegramInitDataVerifier.Sample.hmac
  let replay := verifier.replaySecret TelegramInitDataVerifier.Sample.hmac
  let keySecret : List UInt8 :=
    [1, 198, 225, 140, 156, 126, 67, 159, 151, 141, 235, 91, 98, 67, 138, 52, 130, 90, 30, 77, 18, 13, 254, 120, 121,
     141, 158, 243, 45, 177, 8, 2]
  TelegramInitDataVerifier.Sample.digests ++
  [((secret, utf8 "auth_date=1\nuser=\x7b\"id\":7\x7d"),
    [7, 233, 41, 32, 65, 100, 218, 76, 227, 178, 6, 130, 66, 66, 219, 159, 172, 87, 240, 140, 23, 1, 247, 165, 195,
     241, 7, 89, 227, 224, 195, 19]),
   ((replay, utf8 "07e929204164da4ce3b206824242db9fac57f08c1701f7a5c3f10759e3e0c313"),
    [55, 208, 137, 43, 157, 30, 47, 13, 195, 144, 85, 183, 149, 87, 35, 187, 232, 173, 122, 23, 189, 207, 143, 175,
     148, 7, 38, 210, 20, 151, 98, 177]),
   ((secret, utf8 "auth_date=17179869184\nuser=\x7b\"id\":7\x7d"),
    [176, 205, 210, 197, 101, 65, 167, 66, 152, 236, 236, 131, 249, 227, 37, 235, 101, 50, 57, 184, 186, 58, 227, 116,
     55, 112, 143, 208, 86, 39, 76, 228]),
   ((replay, utf8 "b0cdd2c56541a74298ecec83f9e325eb653239b8ba3ae37437708fd056274ce4"),
    [223, 169, 118, 91, 236, 224, 170, 80, 63, 108, 63, 238, 218, 102, 29, 17, 116, 235, 210, 1, 68, 162, 212, 16, 31,
     252, 188, 150, 230, 74, 250, 233]),
   ((utf8 pepper, utf8 "miniapp-session-key-v1"), keySecret),
   ((keySecret, utf8 token),
    [46, 10, 161, 189, 109, 141, 190, 201, 102, 50, 79, 214, 242, 195, 148, 170, 112, 181, 218, 24, 120, 76, 10, 214,
     95, 164, 132, 137, 24, 149, 22, 52]),
   ((keySecret, utf8 other),
    [92, 16, 62, 44, 170, 35, 182, 126, 121, 249, 22, 185, 161, 136, 253, 60, 35, 7, 33, 113, 28, 156, 56, 208, 94,
     9, 195, 169, 73, 146, 108, 134])]

def hmac : Hmac := hmacOf digests

/-- Issuing a session at the instant of the verification. -/
def issue (identity : VerifiedWebAppIdentity) (issuedAt : Int) :
    Except SessionError (IssuedSession × Expiring String String) :=
  issuer.issueSession hmac Expiring.empty identity issuedAt (token, issuedAt) (token, issuedAt) (token, issuedAt)

end Sample

/-- In the first second of 1970 an identity is verified and its session stored, and every lookup of it raises. In the
last microsecond of a coarse second the expiry is stored a second late, and the session outlives it. -/
theorem session_of_first_second :
    ((Sample.verifier.verifyAndClaim Sample.hmac Sample.loads Redis.empty Sample.firstRaw 500000).1.toOption =
        some ⟨7, 1000000, "37d0892b9d1e2f0dc39055b7955723bbe8ad7a17bdcf8faf940726d2149762b1", none⟩ ∧
      (Sample.issue ⟨7, 1000000, "37d0892b9d1e2f0dc39055b7955723bbe8ad7a17bdcf8faf940726d2149762b1", none⟩ 500000).map
          Prod.fst = .ok ⟨Sample.token, "Bearer", 900⟩ ∧
      (Sample.issue ⟨7, 1000000, "37d0892b9d1e2f0dc39055b7955723bbe8ad7a17bdcf8faf940726d2149762b1", none⟩ 500000).bind
          (fun p => (Sample.issuer.store.resolve Sample.hmac p.2 1000000 Sample.token 1000000).map Prod.fst) =
        .error .store) ∧
    (Sample.verifier.verifyAndClaim Sample.hmac Sample.loads Redis.empty Sample.coarseRaw 17179869184999999).1.toOption =
        some ⟨7, 17179869184000000, "dfa9765bece0aa503f6c3feeda661d1174ebd20144a2d4101ffcbc96e64afae9", none⟩ ∧
      (17179869184999999 + 900 * oneSecond) / oneSecond = 17179870084 ∧
      (Sample.issue ⟨7, 17179869184000000, "dfa9765bece0aa503f6c3feeda661d1174ebd20144a2d4101ffcbc96e64afae9", none⟩
          17179869184999999).bind
        (fun p => (Sample.issuer.store.resolve Sample.hmac p.2 17179870084500000 Sample.token 17179870084500000).map
          Prod.fst) = .ok (some ⟨7, 17179869185000000, 17179870085000000, 17179869184000000, none⟩) := by
  refine ⟨⟨?_, ?_, ?_⟩, ?_, ?_, ?_⟩
  all_goals decide +kernel

/-- A session is looked up after somebody else has logged out. -/
theorem session_round_trip_sample :
    ∃ token r', Sample.issue ⟨7, 1000000000, "0356da3f965425f0d56a331ad6913344d392275d8d1cd0a11bf50ad609f0723a", none⟩
        1000500000 = .ok (⟨token, "Bearer", 900⟩, r') ∧
      (Sample.issuer.store.resolve Sample.hmac (RedisOpaqueSessionStore.run Sample.hmac Sample.issuer.store r'
          [⟨.revoke, Sample.other, 1100000000, 1100000000⟩]) 1899000000 token 1899999999).map Prod.fst =
        .ok (some ⟨7, 1000000000, 1900000000, 1000000000, none⟩) := by
  have injective : Set.InjOn (Sample.hmac.digest (Sample.issuer.store.keySecret Sample.hmac))
      {utf8 Sample.token, utf8 Sample.other} := by
    rw [Set.injOn_pair]
    intro h
    exact absurd h (by decide +kernel)
  have verified : (Sample.verifier.verifyAndClaim Sample.hmac Sample.loads Redis.empty Sample.raw 1000500000).1 =
      .ok ⟨7, 1000000000, "0356da3f965425f0d56a331ad6913344d392275d8d1cd0a11bf50ad609f0723a", none⟩ := by
    decide +kernel
  have attempts : ∀ p ∈ [(Sample.token, (1000500000 : Int)), (Sample.token, 1000500000), (Sample.token, 1000500000)],
      opaqueToken p.1 = true ∧ 1000500000 ≤ p.2 ∧ utf8 p.1 ∈ ({utf8 Sample.token, utf8 Sample.other} : Set (List UInt8)) := by
    simp only [List.forall_mem_cons]
    have one : opaqueToken Sample.token = true ∧ (1000500000 : Int) ≤ 1000500000 ∧
        utf8 Sample.token ∈ ({utf8 Sample.token, utf8 Sample.other} : Set (List UInt8)) :=
      ⟨by decide +kernel, le_rfl, .inl rfl⟩
    exact ⟨one, one, one, nofun⟩
  obtain ⟨token, r', issued, life⟩ := session_round_trip Sample.hmac Sample.loads Sample.issuer _ injective Sample.verifier
    Redis.empty Sample.raw 1000500000 1000500000 _ verified le_rfl (by decide) (by decide) Expiring.empty _ _ _ attempts
    ⟨_, List.mem_cons_self, rfl⟩
  have drawn : (Sample.issue ⟨7, 1000000000, "0356da3f965425f0d56a331ad6913344d392275d8d1cd0a11bf50ad609f0723a", none⟩
      1000500000).map (·.1.sessionToken) = .ok Sample.token := by
    decide +kernel
  rw [Sample.issue, issued] at drawn
  have same : token = Sample.token := by
    injection drawn
  subst same
  refine ⟨_, r', issued, ?_⟩
  have bystander : RedisOpaqueSessionStore.Bystander {utf8 Sample.token, utf8 Sample.other} Sample.token
      ⟨.revoke, Sample.other, 1100000000, 1100000000⟩ := ⟨.inr rfl, fun h => absurd h (by decide +kernel)⟩
  exact (life [⟨.revoke, Sample.other, 1100000000, 1100000000⟩] (List.forall_mem_singleton.mpr bystander)).1
    1899000000 1899999999 (by decide) (List.forall_mem_singleton.mpr (by decide))

end OpaqueSessionIssuer

end SalonBooking
