import SalonBooking.Access.OneTime

/-!
# What a signature binds

The signature covers the lines `key=value` of the sorted fields, while the identity is read from the fields. Where no
value breaks a line and no key breaks a line or a pair, the lines give back the fields, so that one hash belongs to
one map of fields, whatever the encoding and the order of the query string.
-/

namespace SalonBooking

open Lib

/-! ### Texts and bytes -/

theorem toList_loop (bytes : ByteArray) (i : Nat) (r : List UInt8) :
    ByteArray.toList.loop bytes i r = r.reverse ++ bytes.data.toList.drop i := by
  fun_induction ByteArray.toList.loop bytes i r with
  | case1 i r h ih =>
    have inside : i < bytes.data.toList.length := h
    have head : bytes.get! i = bytes.data.toList[i] := by
      show bytes.data[i]! = _
      rw [getElem!_pos bytes.data i h, Array.getElem_toList]
    rw [ih, List.drop_eq_getElem_cons inside, head, List.reverse_cons, List.append_assoc, List.singleton_append]
  | case2 i r h =>
    have past : bytes.data.toList.length ≤ i := not_lt.mp h
    rw [List.drop_eq_nil_of_le past, List.append_nil]

theorem utf8_injective : Function.Injective utf8 := by
  intro s t h
  have shape : ∀ s : String, utf8 s = s.toByteArray.data.toList := fun s => by
    rw [utf8, ByteArray.toList, toList_loop, List.reverse_nil, List.nil_append, List.drop_zero]
    rfl
  rw [shape, shape] at h
  exact String.toByteArray_inj.mp (ByteArray.ext (Array.toList_inj.mp h))

theorem hexdigest_injective : Function.Injective hexdigest := by
  have digit : ∀ m < 16, ∀ n < 16, hexDigit m = hexDigit n → m = n := by decide
  intro bytes
  unfold hexdigest
  intro other h
  have h := String.ofList_injective h
  induction bytes generalizing other with
  | nil =>
    cases other with
    | nil => rfl
    | cons b rest => cases h
  | cons a bytes ih =>
    cases other with
    | nil => cases h
    | cons b rest =>
      simp only [List.flatMap_cons, List.cons_append, List.nil_append, List.cons.injEq] at h
      obtain ⟨high, low, tail⟩ := h
      have ha := a.toNat_lt
      have hb := b.toNat_lt
      have high := digit _ (by omega) _ (by omega) high
      have low := digit _ (by omega) _ (by omega) low
      have same : a = b := UInt8.toNat_inj.mp (by omega)
      rw [same, ih (congrArg String.ofList tail) tail]

/-! ### The signed text -/

/-- No value has a newline and no key a newline or an equals sign. -/
def Unbroken (F : Fields) : Prop := ∀ p ∈ F, '\n' ∉ p.2.toList ∧ '=' ∉ p.1.toList ∧ '\n' ∉ p.1.toList

instance (F : Fields) : Decidable (Unbroken F) := inferInstanceAs (Decidable (∀ p ∈ F, _ ∧ _ ∧ _))

def signedLine (p : String × String) : String := p.1 ++ "=" ++ p.2

/-- The fields in the order of their keys. -/
def sortedFields (F : Fields) : Fields :=
  ((F.map Prod.fst).insertionSort (· ≤ ·)).map fun key => (key, (F.lookup key).getD "")

theorem dataCheckString_lines (F : Fields) : dataCheckString F = "\n".intercalate ((sortedFields F).map signedLine) := by
  rw [sortedFields, List.map_map]
  rfl

theorem mem_sorted {F : Fields} (nodup : (F.map Prod.fst).Nodup) {p : String × String} : p ∈ sortedFields F ↔ p ∈ F := by
  obtain ⟨key, value⟩ := p
  simp only [sortedFields, List.mem_map, List.mem_insertionSort, Prod.mk.injEq]
  constructor
  · rintro ⟨_, ⟨⟨_, value'⟩, mem, rfl⟩, rfl, rfl⟩
    rw [(lookup_eq_some_iff nodup).mpr mem]
    exact mem
  · intro mem
    refine ⟨key, ⟨_, mem, rfl⟩, rfl, ?_⟩
    rw [(lookup_eq_some_iff nodup).mpr mem, Option.getD_some]

theorem toList_line (p : String × String) : (signedLine p).toList = p.1.toList ++ '=' :: p.2.toList := by
  simp [signedLine]

/-- The field of such a line: its first equals sign ends the key. -/
def ofLine (l : String) : String × String :=
  (.ofList (l.toList.takeWhile (· ≠ '=')), .ofList ((l.toList.dropWhile (· ≠ '=')).drop 1))

theorem ofLine_line {p : String × String} (h : '=' ∉ p.1.toList) : ofLine (signedLine p) = p := by
  have keep : ∀ c ∈ p.1.toList, decide (c ≠ '=') = true := fun c hc =>
    decide_eq_true fun e => h (e ▸ hc)
  unfold ofLine
  rw [toList_line, List.takeWhile_append_of_pos keep, List.dropWhile_append_of_pos keep,
    List.takeWhile_cons_of_neg (by decide), List.dropWhile_cons_of_neg (by decide), List.append_nil, List.drop_one,
    List.tail_cons, String.ofList_toList, String.ofList_toList]

theorem lines_injective {ls ms : List String} (hl : ∀ l ∈ ls, '\n' ∉ l.toList ∧ l ≠ "")
    (hm : ∀ l ∈ ms, '\n' ∉ l.toList ∧ l ≠ "") (h : "\n".intercalate ls = "\n".intercalate ms) : ls = ms := by
  have split : ∀ ls : List String, (∀ l ∈ ls, '\n' ∉ l.toList ∧ l ≠ "") →
      ("\n".intercalate ls).toList.splitOn '\n' = if ls = [] then [[]] else ls.map String.toList := by
    intro ls hl
    split_ifs with none
    · subst none
      rw [String.intercalate_nil]
      rfl
    · rw [String.toList_intercalate]
      refine List.splitOn_intercalate '\n' ?_ (by simpa using none)
      intro l hl'
      obtain ⟨s, hs, rfl⟩ := List.mem_map.mp hl'
      exact (hl s hs).1
  have blank : ∀ ls : List String, (∀ l ∈ ls, '\n' ∉ l.toList ∧ l ≠ "") → ls.map String.toList ≠ [[]] := by
    rintro ls hl h
    obtain ⟨s, rfl, empty⟩ := List.map_eq_singleton_iff.mp h
    exact (hl s (List.mem_singleton_self s)).2 (String.toList_inj.mp empty)
  have same := (split ls hl).symm.trans ((congrArg (·.toList.splitOn '\n') h).trans (split ms hm))
  split_ifs at same with none none' none'
  · rw [none, none']
  · exact absurd same.symm (blank ms hm)
  · exact absurd same (blank ls hl)
  · exact List.map_injective_iff.mpr (fun a b => String.toList_inj.mp) same

theorem dataCheckString_injective {F G : Fields} (nodupF : (F.map Prod.fst).Nodup) (nodupG : (G.map Prod.fst).Nodup)
    (hF : Unbroken F) (hG : Unbroken G) (h : dataCheckString F = dataCheckString G) : sortedFields F = sortedFields G := by
  have lines : ∀ F : Fields, (F.map Prod.fst).Nodup → Unbroken F →
      ∀ l ∈ (sortedFields F).map signedLine, '\n' ∉ l.toList ∧ l ≠ "" := by
    intro F nodup unbroken l hl
    obtain ⟨p, hp, rfl⟩ := List.mem_map.mp hl
    obtain ⟨value, -, key⟩ := unbroken p ((mem_sorted nodup).mp hp)
    have shape := toList_line p
    constructor
    · rw [shape]
      simp [value, key]
    · intro empty
      rw [empty] at shape
      simp at shape
  rw [dataCheckString_lines, dataCheckString_lines] at h
  have same := lines_injective (lines F nodupF hF) (lines G nodupG hG) h
  have back : ∀ F : Fields, (F.map Prod.fst).Nodup → Unbroken F →
      ((sortedFields F).map signedLine).map ofLine = sortedFields F := by
    intro F nodup unbroken
    rw [List.map_map]
    refine (List.map_congr_left fun p hp => ?_).trans (List.map_id _)
    exact ofLine_line (unbroken p ((mem_sorted nodup).mp hp)).2.1
  rw [← back F nodupF hF, same, back G nodupG hG]

theorem lookup_of_sorted {F G : Fields} (nodupF : (F.map Prod.fst).Nodup) (nodupG : (G.map Prod.fst).Nodup)
    (h : sortedFields F = sortedFields G) (key : String) : F.lookup key = G.lookup key := by
  apply Option.ext
  intro value
  rw [lookup_eq_some_iff nodupF, lookup_eq_some_iff nodupG, ← mem_sorted nodupF, h, mem_sorted nodupG]

/-! ### The identity -/

theorem keys_of_fieldsOf {pairs : List (List Char × List Char)} {F : Fields} (h : fieldsOf pairs = .ok F) :
    (pairs.map Prod.fst).Nodup ∧ [] ∉ pairs.map Prod.fst := by
  obtain ⟨read, nonempty⟩ : F.map Prod.fst ++ [] = pairs.map (fun p => String.ofList p.1) ∧ "" ∉ F.map Prod.fst := by
    refine Except.foldlM_ok (I := fun rest fields => fields.map Prod.fst ++ rest.map (fun p => String.ofList p.1) =
      pairs.map (fun p => String.ofList p.1) ∧ "" ∉ fields.map Prod.fst) ?_ ⟨rfl, List.not_mem_nil⟩ h
    rintro pair rest fields fields' ⟨seen, nonempty⟩ step
    simp only [Except.require_bind_ok, Except.pure_ok] at step
    obtain ⟨⟨some, -⟩, rfl⟩ := step
    refine ⟨by simpa using seen, ?_⟩
    simpa [nonempty] using Ne.symm some
  have nodup := fieldsOf_nodup h
  rw [List.append_nil] at read
  rw [read] at nodup nonempty
  constructor
  · rw [show (fun p : List Char × List Char => String.ofList p.1) = String.ofList ∘ Prod.fst from rfl, ← List.map_map] at nodup
    exact List.Nodup.of_map _ nodup
  · intro empty
    obtain ⟨p, hp, e⟩ := List.mem_map.mp empty
    exact nonempty (List.mem_map.mpr ⟨p, hp, by rw [e]⟩)

namespace TelegramInitDataVerifier

variable {hmac : Hmac} {loads : String → Except LoadsError Json} {v : TelegramInitDataVerifier}
variable {F G : Fields} {raw raw' hash hash' : String}

/-- One hash signs one map of fields, on every set of messages on which the digest is injective. -/
theorem sorted_of_hash {messages : Set (List UInt8)} (injective : Set.InjOn (hmac.digest (v.secretKey hmac)) messages)
    (ok : v.verifySignature hmac raw = .ok (F, hash)) (ok' : v.verifySignature hmac raw' = .ok (G, hash'))
    (same : lower hash = lower hash') (hF : Unbroken F) (hG : Unbroken G)
    (mem : utf8 (dataCheckString F) ∈ messages) (mem' : utf8 (dataCheckString G) ∈ messages) :
    sortedFields F = sortedFields G := by
  obtain ⟨nodup, signed⟩ := verifySignature_ok ok
  obtain ⟨nodup', signed'⟩ := verifySignature_ok ok'
  have digests := hexdigest_injective (signed.trans (same.trans signed'.symm))
  exact dataCheckString_injective nodup nodup' hF hG (utf8_injective (injective mem mem' digests))

theorem identity_of_claim {r : Redis} {now : Int} {identity : VerifiedWebAppIdentity}
    (ok : v.verifySignature hmac raw = .ok (F, hash)) (h : (v.verifyAndClaim hmac loads r raw now).1 = .ok identity) :
    telegramUserId loads F = .ok identity.telegramUserId ∧
      (authTimestamp F).map (· * oneSecond) = .ok identity.authDate ∧
      (F.lookup "start_param").filter startParameterPattern = identity.startParameter := by
  unfold verifyAndClaim at h
  cases checked : v.check hmac loads raw now with
  | error e =>
    rw [checked] at h
    cases h
  | ok x =>
    simp only [checked] at h
    split at h
    · cases h
    · cases h
    · injection h with h
      subst h
      simp only [check, ok, Except.bind_ok, Except.require_ok, Except.pure_ok, exists_const, Prod.exists, Except.ok.injEq,
        Prod.mk.injEq] at checked
      obtain ⟨_, _, ⟨rfl, rfl⟩, A, dated, -, -, u, user, rfl⟩ := checked
      exact ⟨user, by rw [dated]; rfl, rfl⟩

/-- **Two accepted strings with one hash carry the same fields and say the same identity, however they are encoded and
ordered, when no field breaks its line and the digest is injective on the messages; and a repeated or an empty key is
never accepted.** -/
theorem signature_binds_identity (hmac : Hmac) (loads : String → Except LoadsError Json) (v : TelegramInitDataVerifier)
    (messages : Set (List UInt8)) (injective : Set.InjOn (hmac.digest (v.secretKey hmac)) messages) :
    (∀ raw raw' F G hash hash', v.verifySignature hmac raw = .ok (F, hash) → v.verifySignature hmac raw' = .ok (G, hash') →
      lower hash = lower hash' → Unbroken F → Unbroken G →
      utf8 (dataCheckString F) ∈ messages → utf8 (dataCheckString G) ∈ messages →
        (∀ key, F.lookup key = G.lookup key) ∧ telegramUserId loads F = telegramUserId loads G ∧
          authTimestamp F = authTimestamp G ∧
          ∀ r now identity r' now' identity', (v.verifyAndClaim hmac loads r raw now).1 = .ok identity →
            (v.verifyAndClaim hmac loads r' raw' now').1 = .ok identity' →
            identity.telegramUserId = identity'.telegramUserId ∧ identity.authDate = identity'.authDate ∧
              identity.startParameter = identity'.startParameter) ∧
      ∀ raw pairs, Query.parseQsl v.maxFields raw.toList = some pairs →
        ¬ (pairs.map Prod.fst).Nodup ∨ [] ∈ pairs.map Prod.fst → ∀ accepted, v.verifySignature hmac raw ≠ .ok accepted := by
  constructor
  · intro raw raw' F G hash hash' ok ok' same hF hG mem mem'
    have lookup := lookup_of_sorted (verifySignature_ok ok).1 (verifySignature_ok ok').1
      (sorted_of_hash injective ok ok' same hF hG mem mem')
    have user : telegramUserId loads F = telegramUserId loads G := by rw [telegramUserId, lookup, telegramUserId]
    have date : authTimestamp F = authTimestamp G := by rw [authTimestamp, lookup, authTimestamp]
    refine ⟨lookup, user, date, fun r now identity r' now' identity' h h' => ?_⟩
    obtain ⟨first, second, third⟩ := identity_of_claim ok h
    obtain ⟨first', second', third'⟩ := identity_of_claim ok' h'
    rw [user, first', Except.ok.injEq] at first
    rw [date, second', Except.ok.injEq] at second
    rw [lookup, third'] at third
    exact ⟨first.symm, second.symm, third.symm⟩
  · rintro raw pairs parsed bad ⟨F, hash⟩ ok
    simp only [verifySignature, Except.bind_ok, Except.orRaise_ok, parsed, Option.some.injEq, exists_eq_left'] at ok
    obtain ⟨-, -, all, read, -⟩ := ok
    obtain ⟨nodup, nonempty⟩ := keys_of_fieldsOf read
    exact bad.elim (fun h => h nodup) nonempty

/-- The sample's string and its variant list the same fields in two orders. -/
theorem signature_binds_identity_variant :
    ∃ F G hash hash', Sample.verifier.verifySignature Sample.hmac Sample.raw = .ok (F, hash) ∧
      Sample.verifier.verifySignature Sample.hmac Sample.variant = .ok (G, hash') ∧ F ≠ G ∧ hash ≠ hash' ∧
      ∀ key, F.lookup key = G.lookup key := by
  let message := utf8 "auth_date=1000\nuser=\x7b\"id\":7\x7d"
  have injective : Set.InjOn (Sample.hmac.digest (Sample.verifier.secretKey Sample.hmac))
      {utf8 "replay-fingerprint", message} := by
    rw [Set.injOn_pair]
    intro h
    exact absurd h (by decide +kernel)
  refine ⟨_, _, _, _, Sample.signed_raw, Sample.signed_variant, by decide, by decide, ?_⟩
  refine ((signature_binds_identity Sample.hmac Sample.loads Sample.verifier _ injective).1 _ _ _ _ _ _ Sample.signed_raw
    Sample.signed_variant (by decide +kernel) (by decide +kernel) (by decide +kernel) ?_ ?_).1
  · exact .inr (by decide +kernel)
  · exact .inr (by decide +kernel)

end TelegramInitDataVerifier

end SalonBooking
