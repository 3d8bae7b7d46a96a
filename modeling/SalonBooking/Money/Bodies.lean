import SalonBooking.Access.InitData
import SalonBooking.Domain.Payments
import SalonBooking.Domain.Phones
import SalonBooking.Lib.DecimalNumbers

/-!
# Money in the bodies of the provider

`validate_money` on decimals of any representation, and `_money_body` and `_parse_money` of
`payments/providers/yookassa.py`. Everywhere else an amount is a whole number of hundredths, which is what
`validate_money` makes of a decimal.
-/

namespace SalonBooking.ProviderMoney

open Lib

inductive MoneyError
  | value (message : String)
  | invalidOperation
deriving DecidableEq, Repr

/-! ### Validation -/

/-- `str.upper` of one character, as far as it gives letters from A to Z. -/
def upperChar (c : Char) : List Char :=
  match c with
  | 'ß' => ['S', 'S']
  | 'ı' => ['I']
  | 'ſ' => ['S']
  | 'ﬀ' => ['F', 'F']
  | 'ﬁ' => ['F', 'I']
  | 'ﬂ' => ['F', 'L']
  | 'ﬃ' => ['F', 'F', 'I']
  | 'ﬄ' => ['F', 'F', 'L']
  | 'ﬅ' => ['S', 'T']
  | 'ﬆ' => ['S', 'T']
  | c => [c.toUpper]

/-- `str.upper`. -/
def upper (s : String) : String := .ofList (s.toList.flatMap upperChar)

/-- `MAX_MONEY`. -/
def maxAmount : Decimal := .finite false 999999999999 (-2)

/-- `amount.as_tuple().exponent`, a letter for the special values. -/
def exponent : Decimal → Option Int
  | .finite _ _ exponent => some exponent
  | _ => none

/-- `validate_money`, in the default context of 28 digits. -/
def validateMoney (amount : Decimal) (currency : String) : Except MoneyError (Decimal × String) := do
  require (amount.isFinite = true ∧ 0 < amount.value ∧ amount.value ≤ maxAmount.value)
    (.value "amount must be positive and fit Numeric(12, 2)")
  require ((exponent amount).any (fun e => -2 ≤ e) = true) (.value "amount must have at most two decimal places")
  let normalizedCurrency := upper (strip currency)
  require (isCurrency normalizedCurrency = true) (.value "currency must be a three-letter ISO-style code")
  let quantized ← orRaise (amount.quantize 28 (-2)) .invalidOperation
  return (quantized, normalizedCurrency)

/-! ### The bodies -/

/-- `f"{amount:.2f}"`. -/
def format2f : Decimal → String
  | .finite negative coefficient exponent => .ofList (Decimal.fixedText negative (Decimal.rescale coefficient exponent (-2)) 2)
  | .infinity negative => (if negative then "-" else "") ++ "Infinity"
  | .nan signaling negative payload =>
    (if negative then "-" else "") ++ (if signaling then "sNaN" else "NaN") ++ if payload = 0 then "" else toString payload

/-- `_money_body`. -/
def moneyBody (amount : Decimal) (currency : String) : Except MoneyError (List (String × Json)) := do
  let (normalizedAmount, normalizedCurrency) ← validateMoney amount currency
  return [("value", .str (format2f normalizedAmount)), ("currency", .str normalizedCurrency)]

/-- The decimal digits of every script as ASCII digits. -/
def asciiDigit (c : Char) : Char :=
  match decimalZeros.find? fun first => first ≤ c.toNat && c.toNat ≤ first + 9 with
  | some first => Char.ofNat (48 + (c.toNat - first))
  | none => c

/-- `Decimal(value)`: surrounding spaces and underscores do not count. -/
def decimalOf (value : String) : Option Decimal :=
  Decimal.ofText (((strip value).toList.filter (· ≠ '_')).map asciiDigit)

/-- `PaymentProviderProtocolError`. -/
structure ProtocolError where
  code : String
deriving DecidableEq, Repr

/-- `_required_string`. -/
def requiredString (payload : List (String × Json)) (key : String) (maxLength : Nat) : Except ProtocolError String :=
  match payload.lookup key with
  | some (.str value) => do
    require (value ≠ "" ∧ value.length ≤ maxLength) ⟨"yookassa_" ++ key ++ "_invalid"⟩
    return value
  | _ => .error ⟨"yookassa_" ++ key ++ "_invalid"⟩

/-- `_parse_money`. -/
def parseMoney (payload : List (String × Json)) : Except ProtocolError (Decimal × String) := do
  let value ← requiredString payload "value" 32
  let currency ← requiredString payload "currency" 3
  let amount ← orRaise (decimalOf value) ⟨"yookassa_amount_invalid"⟩
  match validateMoney amount currency with
  | .ok money => return money
  | .error _ => throw ⟨"yookassa_amount_invalid"⟩

/-! ### What is accepted -/

variable {amount a : Decimal} {currency code : String} {n : Nat}

def hundredths (n : Nat) : Decimal := .finite false n (-2)

theorem value_hundredths : (hundredths n).value = n / 100 := by
  simp only [hundredths, Decimal.value]
  norm_num [div_eq_mul_inv]

theorem le_max_iff : (hundredths n).value ≤ maxAmount.value ↔ n ≤ 999999999999 := by
  have : maxAmount.value = (hundredths 999999999999).value := rfl
  rw [this, value_hundredths, value_hundredths, div_le_div_iff_of_pos_right (by norm_num)]
  exact_mod_cast Iff.rfl

/-- What is accepted comes back as hundredths of the same value, and the currency as a code. -/
theorem validateMoney_ok (h : validateMoney amount currency = .ok (a, code)) :
    ∃ n, a = hundredths n ∧ 0 < n ∧ n ≤ 999999999999 ∧ a.value = amount.value ∧
      code = upper (strip currency) ∧ isCurrency code = true := by
  simp only [validateMoney, Except.bind_ok, Except.require_ok, Except.orRaise_ok, Except.pure_ok, exists_const,
    Prod.mk.injEq] at h
  obtain ⟨⟨finite, positive, bounded⟩, places, letters, q, quantized, rfl, rfl⟩ := h
  cases amount with
  | infinity => cases finite
  | nan => cases finite
  | finite negative coefficient e =>
    obtain ⟨rfl, some_coefficient⟩ := Decimal.value_pos_iff.mp positive
    have places : -2 ≤ e := decide_eq_true_eq.mp places
    simp only [Decimal.quantize] at quantized
    split_ifs at quantized with fits
    cases quantized
    have same : (Decimal.finite false (Decimal.rescale coefficient e (-2)) (-2)).value = _ := Decimal.value_rescale places
    refine ⟨_, rfl, ?_, ?_, same, rfl, letters⟩
    · rw [← same] at positive
      exact (Decimal.value_pos_iff.mp positive).2
    · rw [← same] at bounded
      exact le_max_iff.mp bounded

theorem isCurrency_iff : isCurrency code = true ↔ code.toList.length = 3 ∧ ∀ c ∈ code.toList, c.isUpper = true := by
  unfold isCurrency
  split
  · next first second third shape => simp [shape, and_assoc]
  · next other =>
    simp only [Bool.false_eq_true, false_iff, not_and]
    intro size
    obtain ⟨first, second, third, shape⟩ := List.length_eq_three.mp size
    exact absurd shape (other first second third)

theorem isUpper_cases {c : Char} (h : c.isUpper = true) : 65 ≤ c.toNat ∧ c.toNat ≤ 90 := by
  simp only [Char.isUpper, decide_eq_true_eq, UInt32.le_iff_toNat_le, ge_iff_le] at h
  exact h

theorem upperChar_of_isUpper {c : Char} (h : c.isUpper = true) : upperChar c = [c] := by
  have bounds := isUpper_cases h
  have lower : ¬ (c.val ≥ 'a'.val ∧ c.val ≤ 'z'.val) := by
    rw [ge_iff_le, UInt32.le_iff_toNat_le]
    show ¬ (97 ≤ c.toNat ∧ _)
    omega
  unfold upperChar
  split
  all_goals first
    | exact absurd bounds (by decide)
    | rw [Char.toUpper, dif_neg lower]

theorem upper_strip (letters : isCurrency code = true) : upper (strip code) = code := by
  obtain ⟨-, capitals⟩ := isCurrency_iff.mp letters
  have nospace : ∀ c ∈ code.toList, isSpace c = false := by
    intro c hc
    have := isUpper_cases (capitals c hc)
    simp only [isSpace, List.contains_eq_mem, List.mem_cons, List.not_mem_nil, or_false, Bool.or_eq_false_iff,
      Bool.and_eq_false_iff, decide_eq_false_iff_not]
    omega
  have same : code.toList.flatMap upperChar = code.toList :=
    (List.flatMap_congr fun c hc => upperChar_of_isUpper (capitals c hc)).trans (List.flatMap_singleton' _)
  rw [strip_eq nospace, upper, same, String.ofList_toList]

theorem validateMoney_hundredths (some_money : 0 < n) (bounded : n ≤ 999999999999) (letters : isCurrency code = true) :
    validateMoney (hundredths n) code = .ok (hundredths n, code) := by
  have fits : n < 10 ^ 28 := bounded.trans_lt (by norm_num)
  simp only [validateMoney, Except.bind_ok, Except.require_ok, Except.orRaise_ok, Except.pure_ok, exists_const,
    Prod.mk.injEq]
  refine ⟨⟨rfl, Decimal.value_pos_iff.mpr ⟨rfl, some_money⟩, le_max_iff.mpr bounded⟩, rfl, ?_, hundredths n,
    Decimal.quantize_self fits, rfl, upper_strip letters⟩
  rwa [upper_strip letters]

/-! ### The round trip -/

theorem moneyBody_ok (h : validateMoney amount currency = .ok (a, code)) :
    moneyBody amount currency = .ok [("value", .str (format2f a)), ("currency", .str code)] := by
  rw [moneyBody, h]
  rfl

theorem format2f_hundredths : format2f (hundredths n) = .ofList (Decimal.fixedText false n 2) := by
  rw [hundredths, format2f, Decimal.rescale_self]

theorem fixedText_plain : ∀ c ∈ Decimal.fixedText false n 2, c = '.' ∨ c.isDigit = true := by
  intro c hc
  simp only [Decimal.fixedText, Bool.false_eq_true, ite_false, List.nil_append, List.mem_append, List.mem_cons] at hc
  rcases hc with whole | rfl | fraction
  · exact .inr (Nat.isDigit_of_mem_toDigits (by norm_num) (by norm_num) whole)
  · exact .inl rfl
  · exact .inr (Decimal.isDigit_of_mem_leftpad c fraction)

theorem asciiDigit_of_isDigit {c : Char} (h : c.isDigit = true) : asciiDigit c = c := by
  have bounds := Decimal.isDigit_cases h
  have found : decimalZeros.find? (fun first => first ≤ c.toNat && c.toNat ≤ first + 9) = some 48 :=
    List.find?_cons_of_pos (by simp; omega)
  simp only [asciiDigit, found]
  rw [Nat.add_sub_cancel' bounds.1, Char.ofNat_toNat]

theorem decimalOf_format2f : decimalOf (format2f (hundredths n)) = some (hundredths n) := by
  have plain : ∀ c ∈ Decimal.fixedText false n 2, isSpace c = false ∧ decide (c ≠ '_') = true ∧ asciiDigit c = c := by
    intro c hc
    rcases fixedText_plain c hc with rfl | digit
    · exact ⟨by decide, by decide, by decide⟩
    · have apart := (isDecimal_apart (isDecimal_of_isDigit digit)).1
      simp only [isPhoneSeparator, Bool.or_eq_false_iff] at apart
      refine ⟨apart.1.1.1, decide_eq_true ?_, asciiDigit_of_isDigit digit⟩
      rintro rfl
      cases digit
  have unspaced : ∀ c ∈ (String.ofList (Decimal.fixedText false n 2)).toList, isSpace c = false := by
    rw [String.toList_ofList]
    exact fun c hc => (plain c hc).1
  rw [format2f_hundredths, decimalOf, strip_eq unspaced, String.toList_ofList,
    List.filter_eq_self.mpr fun c hc => (plain c hc).2.1,
    (List.map_congr_left fun c hc => (plain c hc).2.2).trans (List.map_id _), Decimal.ofText_fixedText (by norm_num)]
  rfl

theorem requiredString_ok {payload : List (String × Json)} {key value : String} {maxLength : Nat}
    (found : payload.lookup key = some (.str value)) (some_text : value ≠ "") (short : value.length ≤ maxLength) :
    requiredString payload key maxLength = .ok value := by
  simp only [requiredString, found, Except.bind_ok, Except.require_ok, Except.pure_ok, exists_const]
  exact ⟨⟨some_text, short⟩, trivial⟩

theorem parseMoney_body (some_money : 0 < n) (bounded : n ≤ 999999999999) (letters : isCurrency code = true) :
    parseMoney [("value", .str (format2f (hundredths n))), ("currency", .str code)] = .ok (hundredths n, code) := by
  have short : (format2f (hundredths n)).length ≤ 32 := by
    rw [format2f_hundredths, ← String.length_toList, String.toList_ofList]
    have : (Decimal.fixedText false n 2).length ≤ 10 + 1 + 2 :=
      Decimal.length_fixedText (by norm_num) (by norm_num) (by omega)
    omega
  have some_text : format2f (hundredths n) ≠ "" := by
    rw [format2f_hundredths]
    intro empty
    have := String.ofList_eq_empty_iff.mp empty
    simp [Decimal.fixedText] at this
  have three := (isCurrency_iff.mp letters).1
  have some_code : code ≠ "" := by
    rintro rfl
    cases three
  rw [String.length_toList] at three
  have second : [("value", Json.str (format2f (hundredths n))), ("currency", .str code)].lookup "currency" =
      some (.str code) := by
    rw [List.lookup_cons, show ("currency" == "value") = false from by decide]
    exact List.lookup_cons_self
  have value : requiredString [("value", .str (format2f (hundredths n))), ("currency", .str code)] "value" 32 =
      .ok (format2f (hundredths n)) := requiredString_ok List.lookup_cons_self some_text short
  have currency := requiredString_ok second some_code three.le
  have money := validateMoney_hundredths some_money bounded letters
  unfold parseMoney
  rw [value, Except.bind_ok]
  refine ⟨_, rfl, ?_⟩
  rw [currency, Except.bind_ok]
  refine ⟨_, rfl, ?_⟩
  rw [decimalOf_format2f, Except.bind_ok]
  refine ⟨_, rfl, ?_⟩
  rw [money]
  rfl

/-- **Money that passes the validation survives the provider's format: the validated amount is the accepted one, its
body parses to it, validating it again changes nothing, and bodies are equal exactly when amounts and currencies
are.** -/
theorem money_round_trip (amount : Decimal) (currency : String) (a : Decimal) (code : String)
    (valid : validateMoney amount currency = .ok (a, code)) :
    a.value = amount.value ∧ code = upper (strip currency) ∧
      (∃ body, moneyBody amount currency = .ok body ∧ parseMoney body = .ok (a, code)) ∧
      validateMoney a code = .ok (a, code) ∧
      ∀ amount' currency' a' code', validateMoney amount' currency' = .ok (a', code') →
        (moneyBody amount currency = moneyBody amount' currency' ↔ amount.value = amount'.value ∧ code = code') ∧
          (amount.value = amount'.value ↔ a = a') := by
  obtain ⟨n, rfl, some_money, bounded, same, upper, letters⟩ := validateMoney_ok valid
  refine ⟨same, upper, ⟨_, moneyBody_ok valid, parseMoney_body some_money bounded letters⟩,
    validateMoney_hundredths some_money bounded letters, fun amount' currency' a' code' valid' => ?_⟩
  obtain ⟨n', rfl, some_money', bounded', same', -, letters'⟩ := validateMoney_ok valid'
  have representation : amount.value = amount'.value ↔ hundredths n = hundredths n' := by
    rw [← same, ← same']
    constructor
    · intro h
      rw [Decimal.value_injective.mp h]
    · exact congrArg Decimal.value
  refine ⟨⟨fun bodies => ?_, ?_⟩, representation⟩
  · rw [moneyBody_ok valid, moneyBody_ok valid', Except.ok.injEq] at bodies
    have parsed := parseMoney_body some_money bounded letters
    rw [bodies, parseMoney_body some_money' bounded' letters', Except.ok.injEq, Prod.mk.injEq] at parsed
    exact ⟨representation.mpr parsed.1.symm, parsed.2.symm⟩
  · rintro ⟨amounts, rfl⟩
    rw [moneyBody_ok valid, moneyBody_ok valid', representation.mp amounts]

/-- A thousand with an exponent and a currency in small letters. -/
theorem money_round_trip_thousand :
    ∃ body, moneyBody (.finite false 1 3) " rub " = .ok body ∧ parseMoney body = .ok (.finite false 100000 (-2), "RUB") :=
  (money_round_trip (.finite false 1 3) " rub " (.finite false 100000 (-2)) "RUB" (by decide +kernel)).2.2.1

theorem validateMoney_amount (h : validateMoney amount currency = .ok (a, code)) :
    ∃ n : Money, a = hundredths n.toNat ∧ SalonBooking.validateMoney n code = .ok (n, code) := by
  obtain ⟨n, rfl, some_money, bounded, -, -, letters⟩ := validateMoney_ok h
  refine ⟨n, rfl, ?_⟩
  have range : 0 < (n : Money) ∧ (n : Money) ≤ maxMoney := by
    unfold maxMoney
    exact ⟨by exact_mod_cast some_money, by exact_mod_cast bounded⟩
  simp only [SalonBooking.validateMoney, Except.bind_ok, Except.require_ok, Except.pure_ok, exists_const]
  exact ⟨range, letters, trivial⟩

end SalonBooking.ProviderMoney
