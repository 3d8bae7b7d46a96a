import SalonBooking.Access.InitData

/-!
# How often an initData exchange succeeds

Every encoding of the same fields is signed by the same hash and claims the same key, so that the first call that
passes all checks takes the key and the later ones find it taken until its time to live has elapsed. The key of a
first call at second `c` lives for `min maxAge (authDate + maxAge - c)` seconds from the instant of that call; the
string is accepted to the end of second `authDate + maxAge`.
-/

namespace SalonBooking

open Lib

/-! ### Fields as a dict -/

section Dict

variable {F G : Fields} {k a : String}

theorem lookup_eq_some_iff (nodup : (F.map Prod.fst).Nodup) : F.lookup k = some a ↔ (k, a) ∈ F := by
  induction F with
  | nil => simp
  | cons p F ih =>
    obtain ⟨b, c⟩ := p
    rw [List.map_cons, List.nodup_cons] at nodup
    rw [List.lookup_cons, List.mem_cons, Prod.mk.injEq]
    by_cases h : k = b
    · subst h
      have absent : (k, a) ∉ F := fun mem => nodup.1 (List.mem_map.mpr ⟨_, mem, rfl⟩)
      simp [absent, eq_comm]
    · have differ : (k == b) = false := by simpa using h
      rw [differ]
      simp [h, ih nodup.2]

theorem lookup_perm (nodup : (F.map Prod.fst).Nodup) (h : F.Perm G) : F.lookup k = G.lookup k := by
  have nodup' : (G.map Prod.fst).Nodup := (h.map Prod.fst).nodup_iff.mp nodup
  apply Option.ext
  intro a
  rw [lookup_eq_some_iff nodup, lookup_eq_some_iff nodup', h.mem_iff]

theorem dataCheckString_perm (nodup : (F.map Prod.fst).Nodup) (h : F.Perm G) : dataCheckString F = dataCheckString G := by
  have keys : (F.map Prod.fst).insertionSort (· ≤ ·) = (G.map Prod.fst).insertionSort (· ≤ ·) := by
    refine List.Perm.eq_of_pairwise ?_ (List.pairwise_insertionSort _ _) (List.pairwise_insertionSort _ _) ?_
    · intro x y _ _ hxy hyx
      exact le_antisymm hxy hyx
    · exact (List.perm_insertionSort _ _).trans ((h.map Prod.fst).trans (List.perm_insertionSort _ _).symm)
  unfold dataCheckString
  rw [keys]
  congr 1
  apply List.map_congr_left
  intro key _
  rw [lookup_perm nodup h]

theorem authTimestamp_perm (nodup : (F.map Prod.fst).Nodup) (h : F.Perm G) : authTimestamp F = authTimestamp G := by
  unfold authTimestamp
  rw [lookup_perm nodup h]

theorem fieldsOf_nodup {pairs : List (List Char × List Char)} (h : fieldsOf pairs = .ok F) : (F.map Prod.fst).Nodup := by
  refine Except.foldlM_ok (I := fun _ fields => (fields.map Prod.fst).Nodup) ?_ List.nodup_nil h
  intro pair _ fields fields' nodup step
  simp only [Except.require_bind_ok, Except.pure_ok] at step
  obtain ⟨⟨-, absent⟩, rfl⟩ := step
  rw [List.map_append, List.nodup_append]
  refine ⟨nodup, List.nodup_singleton _, ?_⟩
  rintro key mem _ single rfl
  rw [List.map_singleton, List.mem_singleton] at single
  rw [single] at mem
  exact absent mem

end Dict

/-! ### The replay key -/

theorem hexValue_hexDigit : ∀ n < 16, (Query.hexValue (hexDigit n)).isSome = true := by decide

theorem hashPattern_hexdigest {bytes : List UInt8} (h : bytes.length = 32) : hashPattern (hexdigest bytes) = true := by
  unfold hashPattern hexdigest
  rw [String.toList_ofList, Bool.and_eq_true]
  constructor
  · rw [List.length_flatMap]
    simp [h]
  · rw [List.all_eq_true]
    intro c hc
    obtain ⟨b, -, hc⟩ := List.mem_flatMap.mp hc
    have small : b.toNat < 256 := b.toNat_lt
    rcases List.mem_cons.mp hc with rfl | hc
    · exact hexValue_hexDigit _ (by omega)
    · rw [List.mem_singleton.mp hc]
      exact hexValue_hexDigit _ (by omega)

namespace Redis

variable {r : Redis} {now e : Int} {name : String} {ex : Int}

theorem live_iff (h : r.expiry name = some e) : r.Live now name ↔ now < e := by
  simp [Live, h]

theorem not_live (h : r.expiry name = none) : ¬ r.Live now name := by
  simp [Live, h]

end Redis

namespace TelegramInitDataVerifier

section Calls

variable {hmac : Hmac} {loads : String → Except LoadsError Json} {v : TelegramInitDataVerifier}
variable {F G : Fields} {raw hash : String} {now : Int} {x : Checked} {r : Redis}

/-- The key under which an exchange of these fields is remembered. -/
def replayName (hmac : Hmac) (v : TelegramInitDataVerifier) (F : Fields) : String :=
  v.replayStore.namespace_ ++ ":webapp_replay:" ++
    lower (hexdigest (hmac.digest (v.replaySecret hmac) (utf8 (v.expectedHash hmac F))))

/-- The string carries these fields in any order and encoding and with a hash in any case, or its signature fails. -/
def SameSigned (hmac : Hmac) (v : TelegramInitDataVerifier) (F : Fields) (raw : String) : Prop :=
  ∀ p, (v.verifySignature hmac raw).toOption = some p → p.1.Perm F

structure Call where
  raw : String
  now : Int

/-- The answers of a sequence of calls. -/
def answers (hmac : Hmac) (loads : String → Except LoadsError Json) (v : TelegramInitDataVerifier) (r : Redis) :
    List Call → List (Except WebAppError VerifiedWebAppIdentity)
  | [] => []
  | call :: rest =>
    (v.verifyAndClaim hmac loads r call.raw call.now).1 ::
      answers hmac loads v (v.verifyAndClaim hmac loads r call.raw call.now).2 rest

def successes (hmac : Hmac) (loads : String → Except LoadsError Json) (v : TelegramInitDataVerifier) (r : Redis)
    (calls : List Call) : Nat := (answers hmac loads v r calls).countP Except.toBool

/-- The call passes the signature, the age and the user. -/
def admits (hmac : Hmac) (loads : String → Except LoadsError Json) (v : TelegramInitDataVerifier) (call : Call) : Bool :=
  (v.check hmac loads call.raw call.now).toBool

/-- Less than a second after a first call, or less than the maximum age and less than what is left of it. -/
def Soon (v : TelegramInitDataVerifier) (authDate : Int) (first now : Int) : Prop :=
  now < first + oneSecond ∨
    now < first + v.maxAgeSeconds * oneSecond ∧ now < first + (authDate + v.maxAgeSeconds - timestamp first) * oneSecond

/-- Every call after the first one that passes the checks comes soon, or fails them. -/
def RepeatsSoon (hmac : Hmac) (loads : String → Except LoadsError Json) (v : TelegramInitDataVerifier) (F : Fields)
    (calls : List Call) : Prop :=
  ∀ first ∈ (calls.filter (v.admits hmac loads)).head?, ∀ later ∈ (calls.filter (v.admits hmac loads)).tail,
    ∀ authDate ∈ (authTimestamp F).toOption, v.Soon authDate first.now later.now

theorem verifySignature_ok (h : v.verifySignature hmac raw = .ok (F, hash)) :
    (F.map Prod.fst).Nodup ∧ v.expectedHash hmac F = lower hash := by
  simp only [verifySignature, Except.bind_ok, Except.require_ok, Except.orRaise_ok, Except.pure_ok, exists_const,
    Prod.mk.injEq] at h
  obtain ⟨-, pairs, -, all, hall, _, -, -, signed, rfl, rfl⟩ := h
  refine ⟨?_, signed⟩
  exact (fieldsOf_nodup hall).sublist ((List.filter_sublist).map Prod.fst)

theorem check_ok (h : v.check hmac loads raw now = .ok x) :
    (∃ hash, v.verifySignature hmac raw = .ok (x.fields, hash)) ∧ authTimestamp x.fields = .ok x.authTimestamp ∧
      x.fingerprint = hexdigest (hmac.digest (v.replaySecret hmac) (utf8 (v.expectedHash hmac x.fields))) ∧
      x.ttlSeconds = max 1 (min v.maxAgeSeconds (x.authTimestamp + v.maxAgeSeconds - timestamp now)) := by
  simp only [check, Except.bind_ok, Except.require_ok, Except.pure_ok, exists_const, Prod.exists] at h
  obtain ⟨F, hash, signed, A, dated, -, -, u, -, rfl⟩ := h
  refine ⟨⟨hash, signed⟩, dated, ?_, rfl⟩
  rw [(verifySignature_ok signed).2]

theorem claim_eq (h : v.check hmac loads raw now = .ok x) :
    v.replayStore.claim r now x.fingerprint x.ttlSeconds = .ok (r.setNx now (v.replayName hmac x.fields) x.ttlSeconds) := by
  obtain ⟨-, -, print, ttl⟩ := check_ok h
  have wellFormed : hashPattern x.fingerprint = true := by
    rw [print]
    exact hashPattern_hexdigest (hmac.length_digest _ _)
  have bounded : 1 ≤ x.ttlSeconds ∧ x.ttlSeconds ≤ 86400 := by
    have := v.age_range
    omega
  simp only [RedisReplayStore.claim, Except.require_bind_ok, Except.pure_ok]
  exact ⟨wellFormed, bounded, by rw [print]; rfl⟩

theorem verifyAndClaim_of_error {e : WebAppError} (h : v.check hmac loads raw now = .error e) :
    v.verifyAndClaim hmac loads r raw now = (.error e, r) := by
  simp only [verifyAndClaim, h]

theorem verifyAndClaim_of_live (h : v.check hmac loads raw now = .ok x) (live : r.Live now (v.replayName hmac x.fields)) :
    v.verifyAndClaim hmac loads r raw now = (.error (.authentication "webapp_init_data_replayed"), r) := by
  simp only [verifyAndClaim, h, claim_eq h, Redis.setNx, if_pos live]

theorem verifyAndClaim_of_free (h : v.check hmac loads raw now = .ok x) (free : ¬ r.Live now (v.replayName hmac x.fields)) :
    ((v.verifyAndClaim hmac loads r raw now).1).toBool = true ∧
      (v.verifyAndClaim hmac loads r raw now).2.expiry (v.replayName hmac x.fields) =
        some (now + x.ttlSeconds * oneSecond) := by
  simp only [verifyAndClaim, h, claim_eq h, Redis.setNx, if_neg free]
  exact ⟨rfl, by rw [if_pos trivial]⟩

theorem replayName_of_check (same : v.SameSigned hmac F raw) (h : v.check hmac loads raw now = .ok x) :
    v.replayName hmac x.fields = v.replayName hmac F ∧ authTimestamp F = .ok x.authTimestamp := by
  obtain ⟨⟨hash, signed⟩, dated, -, -⟩ := check_ok h
  have perm : x.fields.Perm F := same (x.fields, hash) (by rw [signed]; rfl)
  have nodup := (verifySignature_ok signed).1
  refine ⟨?_, (authTimestamp_perm nodup perm) ▸ dated⟩
  unfold replayName expectedHash
  rw [dataCheckString_perm nodup perm]

theorem soon_iff (h : v.check hmac loads raw now = .ok x) {later : Int} :
    later < now + x.ttlSeconds * oneSecond ↔ v.Soon x.authTimestamp now later := by
  obtain ⟨-, -, -, ttl⟩ := check_ok h
  unfold Soon oneSecond
  omega

/-! ### Sequences of calls -/

variable {calls : List Call} {call : Call} {e : Int}

theorem admits_iff : v.admits hmac loads call = true ↔ ∃ x, v.check hmac loads call.raw call.now = .ok x := by
  unfold admits
  cases v.check hmac loads call.raw call.now with
  | error => simp [Except.toBool]
  | ok x => simp [Except.toBool]

theorem successes_cons : v.successes hmac loads r (call :: calls) =
    v.successes hmac loads (v.verifyAndClaim hmac loads r call.raw call.now).2 calls +
      if ((v.verifyAndClaim hmac loads r call.raw call.now).1).toBool then 1 else 0 := by
  unfold successes
  rw [answers, List.countP_cons]

theorem successes_cons_of_error {err : WebAppError} (h : v.check hmac loads call.raw call.now = .error err) :
    v.successes hmac loads r (call :: calls) = v.successes hmac loads r calls := by
  rw [successes_cons, verifyAndClaim_of_error h]
  rfl

theorem filter_cons_of_error {err : WebAppError} (h : v.check hmac loads call.raw call.now = .error err) :
    (call :: calls).filter (v.admits hmac loads) = calls.filter (v.admits hmac loads) := by
  rw [List.filter_cons, if_neg]
  rw [admits_iff, h]
  rintro ⟨x, ⟨⟩⟩

theorem filter_cons_of_ok (h : v.check hmac loads call.raw call.now = .ok x) :
    (call :: calls).filter (v.admits hmac loads) = call :: calls.filter (v.admits hmac loads) := by
  rw [List.filter_cons, if_pos (admits_iff.mpr ⟨x, h⟩)]

theorem successes_taken (same : ∀ call ∈ calls, v.SameSigned hmac F call.raw)
    (taken : r.expiry (v.replayName hmac F) = some e) :
    v.successes hmac loads r calls = 0 ↔ ∀ call ∈ calls.filter (v.admits hmac loads), call.now < e := by
  induction calls with
  | nil => simp [successes, answers]
  | cons call calls ih =>
    rw [List.forall_mem_cons] at same
    cases h : v.check hmac loads call.raw call.now with
    | error err => rw [successes_cons_of_error h, filter_cons_of_error h, ih same.2]
    | ok x =>
      obtain ⟨name, -⟩ := replayName_of_check same.1 h
      rw [filter_cons_of_ok h, List.forall_mem_cons, ← ih same.2, successes_cons]
      by_cases live : r.Live call.now (v.replayName hmac x.fields)
      · have early : call.now < e := (Redis.live_iff taken).mp (name ▸ live)
        rw [verifyAndClaim_of_live h live]
        simp [early, Except.toBool]
      · have late : ¬ call.now < e := fun early => live (name ▸ (Redis.live_iff taken).mpr early)
        simp [(verifyAndClaim_of_free h live).1, late]

/-- At most one call on the encodings of the same signed fields succeeds exactly when the repetitions come soon. -/
theorem one_time_exchange (same : ∀ call ∈ calls, v.SameSigned hmac F call.raw) (unused : r.expiry (v.replayName hmac F) = none) :
    v.successes hmac loads r calls ≤ 1 ↔ v.RepeatsSoon hmac loads F calls := by
  induction calls with
  | nil => simp [successes, answers, RepeatsSoon]
  | cons call calls ih =>
    rw [List.forall_mem_cons] at same
    cases h : v.check hmac loads call.raw call.now with
    | error err =>
      rw [successes_cons_of_error h, ih same.2]
      unfold RepeatsSoon
      rw [filter_cons_of_error h]
    | ok x =>
      obtain ⟨name, dated⟩ := replayName_of_check same.1 h
      have free : ¬ r.Live call.now (v.replayName hmac x.fields) := name ▸ Redis.not_live unused
      obtain ⟨won, taken⟩ := verifyAndClaim_of_free h free
      have one : v.successes hmac loads r (call :: calls) ≤ 1 ↔
          v.successes hmac loads (v.verifyAndClaim hmac loads r call.raw call.now).2 calls = 0 := by
        rw [successes_cons, if_pos won]
        omega
      rw [one, successes_taken same.2 (name ▸ taken)]
      unfold RepeatsSoon
      rw [filter_cons_of_ok h, dated]
      simp [soon_iff h, Except.toOption]

/-! ### One signed string -/

instance (v : TelegramInitDataVerifier) (authDate first now : Int) : Decidable (v.Soon authDate first now) :=
  inferInstanceAs (Decidable (_ ∨ _ ∧ _))

instance : Decidable (v.RepeatsSoon hmac loads F calls) :=
  inferInstanceAs (Decidable (∀ first ∈ (calls.filter (v.admits hmac loads)).head?,
    ∀ later ∈ (calls.filter (v.admits hmac loads)).tail, ∀ authDate ∈ (authTimestamp F).toOption,
      v.Soon authDate first.now later.now))

end Calls

namespace Sample

/-- HMAC-SHA256 on the messages that the verifier digests for one signed string. -/
def digests : List ((List UInt8 × List UInt8) × List UInt8) :=
  let secret : List UInt8 :=
    [197, 165, 30, 226, 178, 126, 222, 184, 217, 38, 111, 34, 174, 136, 179, 65, 2, 55, 77, 237, 87, 114, 243,
     151, 1, 115, 30, 236, 7, 98, 241, 111]
  let replay : List UInt8 :=
    [43, 170, 12, 87, 79, 84, 212, 64, 113, 100, 86, 149, 11, 8, 56, 205, 225, 215, 80, 86, 199, 36, 146, 189,
     217, 251, 189, 216, 6, 210, 19, 200]
  [((utf8 "WebAppData", utf8 "123456:salon"), secret),
   ((secret, utf8 "replay-fingerprint"), replay),
   ((secret, utf8 "auth_date=1000\nuser=\x7b\"id\":7\x7d"),
    [143, 27, 207, 117, 87, 125, 205, 245, 19, 36, 41, 176, 4, 207, 79, 122, 206, 239, 106, 53, 215, 137, 112,
     0, 229, 127, 142, 62, 142, 40, 234, 189]),
   ((replay, utf8 "8f1bcf75577dcdf5132429b004cf4f7aceef6a35d7897000e57f8e3e8e28eabd"),
    [3, 86, 218, 63, 150, 84, 37, 240, 213, 106, 51, 26, 214, 145, 51, 68, 211, 146, 39, 93, 141, 28, 208, 161,
     27, 245, 10, 214, 9, 240, 114, 58])]

def hmacOf (digests : List ((List UInt8 × List UInt8) × List UInt8)) : Hmac where
  digest key message := ((digests.lookup (key, message)).filter (·.length = 32)).getD (List.replicate 32 0)
  length_digest key message := by
    cases h : (digests.lookup (key, message)).filter (·.length = 32) with
    | none => rw [Option.getD_none, List.length_replicate]
    | some bytes =>
      rw [Option.filter_eq_some_iff, decide_eq_true_eq] at h
      exact h.2

def hmac : Hmac := hmacOf digests

def loads (text : String) : Except LoadsError Json :=
  if text = "\x7b\"id\":7\x7d" then .ok (.dict [("id", .int 7)]) else .error .decode

def verifier : TelegramInitDataVerifier where
  token := "123456:salon"
  replayStore := ⟨"telegram_crm", safeNamespace_telegramCrm⟩
  maxAgeSeconds := 300
  maxFutureSkewSeconds := 30
  maxBytes := 8192
  maxFields := 32
  token_required := by decide
  age_range := by decide
  skew_range := by decide
  bytes_range := by decide
  fields_range := by decide

def fields : Fields := [("auth_date", "1000"), ("user", "\x7b\"id\":7\x7d")]

def raw : String :=
  "auth_date=1000&user=%7B%22id%22:7%7D&hash=8f1bcf75577dcdf5132429b004cf4f7aceef6a35d7897000e57f8e3e8e28eabd"

/-- The same fields in another order and encoding, and the hash in capitals. -/
def variant : String :=
  "hash=8F1BCF75577DCDF5132429B004CF4F7ACEEF6A35D7897000E57F8E3E8E28EABD&user=%7b%22id%22%3A7%7d&auth_date=1%3000"

theorem verifySignature_of_run {raw : String} {p : Fields × String}
    (run : (verifier.verifySignature hmac raw).toOption = some p) : verifier.verifySignature hmac raw = .ok p := by
  cases h : verifier.verifySignature hmac raw with
  | error e =>
    rw [h] at run
    cases run
  | ok signed =>
    rw [h] at run
    exact congrArg Except.ok (Option.some.inj run)

theorem signed_raw : verifier.verifySignature hmac raw =
    .ok (fields, "8f1bcf75577dcdf5132429b004cf4f7aceef6a35d7897000e57f8e3e8e28eabd") :=
  verifySignature_of_run (by decide +kernel)

theorem signed_variant : verifier.verifySignature hmac variant =
    .ok (fields.reverse, "8F1BCF75577DCDF5132429B004CF4F7ACEEF6A35D7897000E57F8E3E8E28EABD") :=
  verifySignature_of_run (by decide +kernel)

theorem sameSigned {raw : String} {p : Fields × String} (signed : verifier.verifySignature hmac raw = .ok p)
    (perm : p.1.Perm fields) : verifier.SameSigned hmac fields raw := by
  intro q hq
  rw [signed] at hq
  exact Option.some.inj hq ▸ perm

end Sample

/-- A string that is exchanged half a second after its `auth_date` can be exchanged again in its last second. -/
theorem exchanged_twice :
    (Sample.verifier.verifySignature Sample.hmac Sample.raw).toOption.map Prod.fst = some Sample.fields ∧
      Sample.verifier.successes Sample.hmac Sample.loads Redis.empty
        [⟨Sample.raw, 1000500000⟩, ⟨Sample.raw, 1300700000⟩] = 2 := by
  refine ⟨by rw [Sample.signed_raw]; rfl, ?_⟩
  have same : Sample.verifier.SameSigned Sample.hmac Sample.fields Sample.raw := Sample.sameSigned Sample.signed_raw (.refl _)
  have admitted : Sample.verifier.admits Sample.hmac Sample.loads ⟨Sample.raw, 1000500000⟩ = true ∧
      Sample.verifier.admits Sample.hmac Sample.loads ⟨Sample.raw, 1300700000⟩ = true := by
    simp only [admits, check, Sample.signed_raw]
    decide +kernel
  obtain ⟨x, hx⟩ := admits_iff.mp admitted.1
  obtain ⟨y, hy⟩ := admits_iff.mp admitted.2
  obtain ⟨name, dated⟩ := replayName_of_check same hx
  obtain ⟨name', -⟩ := replayName_of_check same hy
  have authDate : x.authTimestamp = 1000 :=
    Except.ok.inj (dated.symm.trans (by decide +kernel : authTimestamp Sample.fields = .ok 1000))
  obtain ⟨won, taken⟩ := verifyAndClaim_of_free hx (Redis.not_live (r := Redis.empty) rfl)
  -- the key of the first exchange has expired
  have free : ¬ (Sample.verifier.verifyAndClaim Sample.hmac Sample.loads Redis.empty Sample.raw 1000500000).2.Live
      1300700000 (Sample.verifier.replayName Sample.hmac y.fields) := by
    rw [name', ← name, Redis.live_iff taken, soon_iff hx, authDate]
    decide +kernel
  rw [successes_cons, successes_cons, if_pos won, if_pos (verifyAndClaim_of_free hy free).1]
  rfl

theorem one_time_exchange_variant :
    Sample.verifier.successes Sample.hmac Sample.loads Redis.empty
      [⟨Sample.raw, 970500000⟩, ⟨Sample.variant, 970500000⟩, ⟨Sample.variant, 1270400000⟩] ≤ 1 := by
  have other : Sample.verifier.SameSigned Sample.hmac Sample.fields Sample.variant :=
    Sample.sameSigned Sample.signed_variant (List.reverse_perm _)
  refine (one_time_exchange (F := Sample.fields) ?_ rfl).mpr ?_
  · rw [List.forall_mem_cons, List.forall_mem_cons, List.forall_mem_singleton]
    exact ⟨Sample.sameSigned Sample.signed_raw (.refl _), other, other⟩
  · simp only [RepeatsSoon, List.filter, admits, check, Sample.signed_raw, Sample.signed_variant]
    decide +kernel

end TelegramInitDataVerifier

end SalonBooking
