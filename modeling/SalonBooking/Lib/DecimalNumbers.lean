import Mathlib

/-!
# Decimal numbers

The type `Decimal` of the general decimal arithmetic: a sign, a coefficient and an exponent, or a special value. One
number has many representations; quantizing picks the one with a given exponent. The fixed-point text of a
representation and the grammar of numeric strings are inverse on what has the exponent of the text. The quotient of two
integers is a double.
-/

namespace SalonBooking.Lib

inductive Decimal
  | finite (negative : Bool) (coefficient : Nat) (exponent : Int)
  | infinity (negative : Bool)
  | nan (signaling negative : Bool) (payload : Nat)
deriving DecidableEq, Repr

namespace Decimal

def isFinite : Decimal → Bool
  | finite .. => true
  | _ => false

/-- The number a finite decimal stands for. -/
def value : Decimal → ℚ
  | finite negative coefficient exponent => (if negative then -1 else 1) * coefficient * 10 ^ exponent
  | _ => 0

/-! ### Quantizing -/

/-- `n / d` to the nearest integer, halves to even. -/
def roundHalfEven (n d : Nat) : Nat :=
  if 2 * (n % d) < d ∨ 2 * (n % d) = d ∧ n / d % 2 = 0 then n / d else n / d + 1

/-- The coefficient at another exponent. -/
def rescale (coefficient : Nat) (exponent target : Int) : Nat :=
  if target ≤ exponent then coefficient * 10 ^ (exponent - target).toNat
  else roundHalfEven coefficient (10 ^ (target - exponent).toNat)

/-- `Decimal.quantize`, in a context of `precision` digits; `none` is `InvalidOperation`. -/
def quantize (precision : Nat) (d : Decimal) (target : Int) : Option Decimal :=
  match d with
  | finite negative coefficient exponent =>
    if rescale coefficient exponent target < 10 ^ precision then
      some (finite negative (rescale coefficient exponent target) target)
    else none
  | infinity _ => none
  | nan signaling negative payload => if signaling then none else some (nan false negative payload)

theorem value_rescale {negative : Bool} {coefficient : Nat} {exponent target : Int} (h : target ≤ exponent) :
    (finite negative (rescale coefficient exponent target) target).value = (finite negative coefficient exponent).value := by
  have split : (10 : ℚ) ^ exponent = 10 ^ (exponent - target).toNat * 10 ^ target := by
    rw [← zpow_natCast, Int.toNat_of_nonneg (by omega), ← zpow_add₀ (by norm_num), sub_add_cancel]
  rw [value, value, rescale, if_pos h, split]
  push_cast
  ring

theorem rescale_self (coefficient : Nat) (exponent : Int) : rescale coefficient exponent exponent = coefficient := by
  simp [rescale]

theorem quantize_self {precision coefficient : Nat} {negative : Bool} {exponent : Int} (h : coefficient < 10 ^ precision) :
    quantize precision (finite negative coefficient exponent) exponent = some (finite negative coefficient exponent) := by
  simp only [quantize, rescale_self, if_pos h]

theorem value_pos_iff {negative : Bool} {coefficient : Nat} {exponent : Int} :
    0 < (finite negative coefficient exponent).value ↔ negative = false ∧ 0 < coefficient := by
  have power : (0 : ℚ) < 10 ^ exponent := by positivity
  rw [value, mul_pos_iff_of_pos_right power]
  cases negative <;> simp

theorem value_injective {m n : Nat} {exponent : Int} :
    (finite false m exponent).value = (finite false n exponent).value ↔ m = n := by
  have power : (10 : ℚ) ^ exponent ≠ 0 := by positivity
  simp [value, power]

/-! ### Texts -/

/-- `f"{d:.{places}f}"` of a number with that many places. -/
def fixedText (negative : Bool) (coefficient places : Nat) : List Char :=
  (if negative then ['-'] else []) ++ Nat.toDigits 10 (coefficient / 10 ^ places) ++
    '.' :: (Nat.toDigits 10 (coefficient % 10 ^ places)).leftpad places '0'

def signed : List Char → Bool × List Char
  | '+' :: rest => (false, rest)
  | '-' :: rest => (true, rest)
  | s => (false, s)

/-- The exponent part, to the end of the string. -/
def exponentPart : List Char → Option Int
  | [] => some 0
  | c :: rest =>
    let (negative, digits) := signed rest
    if (c = 'e' ∨ c = 'E') ∧ digits ≠ [] ∧ digits.all Char.isDigit = true then
      some ((if negative then -1 else 1) * Nat.ofDigitChars 10 digits 0)
    else none

/-- The digits after a point, and what follows. -/
def fractionPart : List Char → List Char × List Char
  | '.' :: rest => (rest.takeWhile Char.isDigit, rest.dropWhile Char.isDigit)
  | rest => ([], rest)

/-- Digits with an optional point and an optional exponent. -/
def numberPart (negative : Bool) (s : List Char) : Option Decimal :=
  let whole := s.takeWhile Char.isDigit
  let (fraction, rest) := fractionPart (s.dropWhile Char.isDigit)
  if whole ++ fraction = [] then none
  else (exponentPart rest).map fun exponent =>
    finite negative (Nat.ofDigitChars 10 (whole ++ fraction) 0) (exponent - fraction.length)

/-- A numeric string: a number, an infinity or a NaN, in letters of any case. -/
def ofText (text : List Char) : Option Decimal :=
  let (negative, s) := signed text
  let word := s.map Char.toLower
  if word = "inf".toList ∨ word = "infinity".toList then some (infinity negative)
  else if word.take 3 = "nan".toList ∧ (word.drop 3).all Char.isDigit = true then
    some (nan false negative (Nat.ofDigitChars 10 (word.drop 3) 0))
  else if word.take 4 = "snan".toList ∧ (word.drop 4).all Char.isDigit = true then
    some (nan true negative (Nat.ofDigitChars 10 (word.drop 4) 0))
  else numberPart negative s

theorem isDigit_cases {c : Char} (h : c.isDigit = true) : 48 ≤ c.toNat ∧ c.toNat ≤ 57 := by
  simp only [Char.isDigit, Bool.and_eq_true, decide_eq_true_eq, UInt32.le_iff_toNat_le, ge_iff_le] at h
  exact h

theorem ofText_of_isDigit {c : Char} {rest : List Char} (h : c.isDigit = true) :
    ofText (c :: rest) = numberPart false (c :: rest) := by
  have bounds := isDigit_cases h
  have apart : ∀ d : Char, ¬ (48 ≤ d.toNat ∧ d.toNat ≤ 57) → c ≠ d := fun d hd e => hd (e ▸ bounds)
  have unsigned : signed (c :: rest) = (false, c :: rest) := by
    unfold signed
    split
    · next e => exact absurd (List.cons.inj e).1 (apart '+' (by decide))
    · next e => exact absurd (List.cons.inj e).1 (apart '-' (by decide))
    · rfl
  have lower : c.toLower = c := by
    have low : ¬ (c.val ≥ 'A'.val ∧ c.val ≤ 'Z'.val) := by
      rw [ge_iff_le, UInt32.le_iff_toNat_le, UInt32.le_iff_toNat_le]
      show ¬ (65 ≤ c.toNat ∧ c.toNat ≤ 90)
      omega
    unfold Char.toLower
    rw [dif_neg low]
  unfold ofText
  simp only [unsigned, List.map_cons, lower]
  have i : c ≠ 'i' := apart 'i' (by decide)
  have n : c ≠ 'n' := apart 'n' (by decide)
  have s : c ≠ 's' := apart 's' (by decide)
  simp [i, n, s]

theorem isDigit_of_mem_leftpad {n places : Nat} :
    ∀ c ∈ (Nat.toDigits 10 n).leftpad places '0', c.isDigit = true := by
  intro c hc
  rcases List.mem_append.mp hc with hc | hc
  · rw [List.eq_of_mem_replicate hc]
    rfl
  · exact Nat.isDigit_of_mem_toDigits (by norm_num) (by norm_num) hc

/-- **Reading the fixed-point text of a number back gives the same representation.** -/
theorem ofText_fixedText {n places : Nat} (some_place : 0 < places) :
    ofText (fixedText false n places) = some (finite false n (-places)) := by
  have digit : ∀ c ∈ Nat.toDigits 10 (n / 10 ^ places), c.isDigit = true := fun c hc =>
    Nat.isDigit_of_mem_toDigits (by norm_num) (by norm_num) hc
  have padded : ∀ c ∈ (Nat.toDigits 10 (n % 10 ^ places)).leftpad places '0', c.isDigit = true := isDigit_of_mem_leftpad
  have width : ((Nat.toDigits 10 (n % 10 ^ places)).leftpad places '0').length = places := by
    have : (Nat.toDigits 10 (n % 10 ^ places)).length ≤ places :=
      (Nat.length_toDigits_le_iff (by norm_num) some_place).mpr (Nat.mod_lt _ (by positivity))
    rw [List.length_leftpad, max_eq_left this]
  have total : Nat.ofDigitChars 10 (Nat.toDigits 10 (n / 10 ^ places) ++
      (Nat.toDigits 10 (n % 10 ^ places)).leftpad places '0') 0 = n := by
    have pad : Nat.ofDigitChars 10 ((Nat.toDigits 10 (n % 10 ^ places)).leftpad places '0') 0 = n % 10 ^ places := by
      rw [List.leftpad, Nat.ofDigitChars_append, Nat.ofDigitChars_replicate_zero, mul_zero, Nat.ofDigitChars_ten_toDigits]
    rw [Nat.ofDigitChars_append, Nat.ofDigitChars_eq_ofDigitChars_zero, pad, width, Nat.ofDigitChars_ten_toDigits]
    exact Nat.div_add_mod n (10 ^ places)
  obtain ⟨c, rest, head⟩ := List.exists_cons_of_ne_nil (Nat.toDigits_ne_nil (n := n / 10 ^ places) (b := 10))
  have text : fixedText false n places =
      Nat.toDigits 10 (n / 10 ^ places) ++ '.' :: (Nat.toDigits 10 (n % 10 ^ places)).leftpad places '0' := rfl
  have first : ofText (fixedText false n places) = numberPart false (fixedText false n places) := by
    rw [text, head, List.cons_append]
    exact ofText_of_isDigit (digit c (head ▸ List.mem_cons_self))
  have whole : (fixedText false n places).takeWhile Char.isDigit = Nat.toDigits 10 (n / 10 ^ places) := by
    rw [text, List.takeWhile_append_of_pos digit, List.takeWhile_cons_of_neg (by decide), List.append_nil]
  have after : fractionPart ((fixedText false n places).dropWhile Char.isDigit) =
      ((Nat.toDigits 10 (n % 10 ^ places)).leftpad places '0', []) := by
    rw [text, List.dropWhile_append_of_pos digit, List.dropWhile_cons_of_neg (by decide)]
    show (_, _) = _
    rw [List.takeWhile_eq_self_iff.mpr padded, List.dropWhile_eq_nil_iff.mpr padded]
  have nonempty : Nat.toDigits 10 (n / 10 ^ places) ++
      (Nat.toDigits 10 (n % 10 ^ places)).leftpad places '0' ≠ [] := by
    rw [head]
    simp
  rw [first, numberPart, whole, after]
  simp only [if_neg nonempty, exponentPart, Option.map_some, total, width, zero_sub]

theorem length_fixedText {n places bound : Nat} (some_place : 0 < places) (some_digit : 0 < bound)
    (h : n < 10 ^ (bound + places)) : (fixedText false n places).length ≤ bound + 1 + places := by
  have whole : (Nat.toDigits 10 (n / 10 ^ places)).length ≤ bound := by
    refine (Nat.length_toDigits_le_iff (by norm_num) some_digit).mpr ?_
    rw [Nat.div_lt_iff_lt_mul (by positivity), ← Nat.pow_add]
    exact h
  have fraction : (Nat.toDigits 10 (n % 10 ^ places)).length ≤ places :=
    (Nat.length_toDigits_le_iff (by norm_num) some_place).mpr (Nat.mod_lt _ (by positivity))
  simp only [fixedText, Bool.false_eq_true, ite_false, List.nil_append, List.length_append, List.length_cons,
    List.length_leftpad]
  omega

/-! ### Quotients of doubles -/

theorem le_roundHalfEven (n d : Nat) : n / d ≤ roundHalfEven n d := by
  unfold roundHalfEven
  split_ifs <;> omega

theorem roundHalfEven_mul_le {d : Nat} (hd : 0 < d) (n : Nat) : 2 * d * roundHalfEven n d ≤ 2 * n + d := by
  have split := Nat.div_add_mod n d
  unfold roundHalfEven
  split_ifs with near
  · calc 2 * d * (n / d) = 2 * (d * (n / d)) := by ring
      _ ≤ 2 * n + d := by omega
  · calc 2 * d * (n / d + 1) = 2 * (d * (n / d)) + 2 * d := by ring
      _ ≤ 2 * n + d := by omega

/-- `int(n / d)`: the quotient is rounded to 53 binary digits and then cut. For quotients below `2 ^ 53`. -/
def truncQuotient (n d : Nat) : Nat :=
  roundHalfEven (n * 2 ^ (52 - Nat.log2 (n / d))) d / 2 ^ (52 - Nat.log2 (n / d))

/-- Where doubles are denser than the multiples of `1 / d` the quotient loses nothing but its fraction. -/
theorem truncQuotient_eq {n d : Nat} (hd : 0 < d) (dense : d < 2 ^ (53 - Nat.log2 (n / d))) : truncQuotient n d = n / d := by
  obtain ⟨k, hk⟩ : ∃ k, 53 - Nat.log2 (n / d) = k + 1 := by
    refine Nat.exists_eq_succ_of_ne_zero fun zero => ?_
    rw [zero] at dense
    omega
  rw [truncQuotient, show 52 - Nat.log2 (n / d) = k by omega]
  rw [hk, pow_succ] at dense
  apply Nat.div_eq_of_lt_le
  · calc n / d * 2 ^ k = 2 ^ k * (n / d) := mul_comm _ _
      _ ≤ 2 ^ k * n / d := Nat.mul_div_le_mul_div_assoc _ _ _
      _ = n * 2 ^ k / d := by rw [mul_comm]
      _ ≤ roundHalfEven (n * 2 ^ k) d := le_roundHalfEven _ _
  · have below : (n + 1) * 2 ^ k ≤ d * (n / d + 1) * 2 ^ k := Nat.mul_le_mul_right _ (Nat.lt_mul_div_succ n hd)
    refine Nat.lt_of_mul_lt_mul_left (a := 2 * d) ?_
    calc 2 * d * roundHalfEven (n * 2 ^ k) d ≤ 2 * (n * 2 ^ k) + d := roundHalfEven_mul_le hd _
      _ < 2 * ((n + 1) * 2 ^ k) := by
        rw [add_mul, one_mul]
        omega
      _ ≤ 2 * (d * (n / d + 1) * 2 ^ k) := Nat.mul_le_mul_left 2 below
      _ = 2 * d * ((n / d + 1) * 2 ^ k) := by ring

end Decimal

end SalonBooking.Lib
