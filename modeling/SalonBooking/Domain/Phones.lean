import SalonBooking.Domain.Enums

/-!
# Phone numbers

`normalize_phone` of `domain/booking.py`. It accepts an optional plus and ten to fifteen decimal digits between the
separators it ignores. The digits are those of `str.isdecimal`, which takes the digits of every script: the result is
an ASCII number exactly when those of the input are ASCII.
-/

namespace SalonBooking

/-! ### The character classes -/

/-- The zeros of the scripts with decimal digits; the other nine digits follow each. -/
def decimalZeros : List Nat :=
  [48, 1632, 1776, 1984, 2406, 2534, 2662, 2790, 2918, 3046, 3174, 3302, 3430, 3558, 3664, 3792, 3872, 4160, 4240, 6112,
    6160, 6470, 6608, 6784, 6800, 6992, 7088, 7232, 7248, 42528, 43216, 43264, 43472, 43504, 43600, 44016, 65296, 66720,
    68912, 69734, 69872, 69942, 70096, 70384, 70736, 70864, 71248, 71360, 71472, 71904, 72016, 72784, 73040, 73120,
    73552, 92768, 92864, 93008, 120782, 120792, 120802, 120812, 120822, 123200, 123632, 124144, 125264, 130032]

/-- `str.isdecimal` of one character. -/
def isDecimal (c : Char) : Bool := decimalZeros.any fun first => first ≤ c.toNat && c.toNat ≤ first + 9

/-- `str.isdecimal`. -/
def isdecimal (s : List Char) : Bool := !s.isEmpty && s.all isDecimal

/-- A match of `_PHONE_SEPARATORS`. -/
def isPhoneSeparator (c : Char) : Bool := isSpace c || c = '(' || c = ')' || c = '-'

theorem isDecimal_apart {c : Char} (h : isDecimal c = true) : isPhoneSeparator c = false ∧ c ≠ '+' := by
  simp only [isDecimal, List.any_eq_true, Bool.and_eq_true, decide_eq_true_eq] at h
  obtain ⟨first, mem, low, high⟩ := h
  have table : ∀ first ∈ decimalZeros, ∀ digit < 10,
      ((9 ≤ first + digit && first + digit ≤ 13) || (28 ≤ first + digit && first + digit ≤ 32) ||
        (8192 ≤ first + digit && first + digit ≤ 8202) ||
        [133, 160, 5760, 8232, 8233, 8239, 8287, 12288].contains (first + digit)) = false ∧
        [40, 41, 45, 43].contains (first + digit) = false := by
    decide +kernel
  obtain ⟨space, others⟩ := table first mem (c.toNat - first) (by omega)
  rw [Nat.add_sub_cancel' low] at space others
  have ne : ∀ d : Char, d.toNat ∈ [40, 41, 45, 43] → c ≠ d := by
    rintro d hd rfl
    rw [List.contains_iff_mem.mpr hd] at others
    cases others
  refine ⟨?_, ne '+' (by decide)⟩
  rw [isPhoneSeparator, show isSpace c = false from space]
  simp only [Bool.false_or, Bool.or_eq_false_iff, decide_eq_false_iff_not]
  exact ⟨⟨ne '(' (by decide), ne ')' (by decide)⟩, ne '-' (by decide)⟩

theorem isDecimal_of_isDigit {c : Char} (h : c.isDigit = true) : isDecimal c = true := by
  have bounds : 48 ≤ c.toNat ∧ c.toNat ≤ 57 := by
    simp only [Char.isDigit, Bool.and_eq_true, decide_eq_true_eq, UInt32.le_iff_toNat_le, ge_iff_le] at h
    exact h
  refine List.any_eq_true.mpr ⟨48, by decide, ?_⟩
  simp only [Bool.and_eq_true, decide_eq_true_eq]
  omega

/-! ### The function -/

structure ValueError where
  message : String
deriving DecidableEq, Repr

/-- The text without the separators: `_PHONE_SEPARATORS.sub("", value.strip())`. -/
def withoutSeparators (value : String) : List Char := (strip value).toList.filter fun c => !isPhoneSeparator c

/-- The prefix of the country and the plus. -/
def international (normalized : List Char) : List Char :=
  if normalized.head? = some '8' ∧ normalized.length = 11 then '+' :: '7' :: normalized.drop 1
  else if isdecimal normalized ∧ normalized.length = 10 then '+' :: '7' :: normalized
  else if normalized.head? = some '+' then normalized
  else if isdecimal normalized then '+' :: normalized
  else normalized

/-- What follows the plus, if there is one. -/
def digitsOf (normalized : List Char) : List Char := if normalized.head? = some '+' then normalized.drop 1 else []

/-- `normalize_phone`. -/
def normalizePhone (value : String) : Except ValueError String :=
  let normalized := international (withoutSeparators value)
  let digits := digitsOf normalized
  if ¬ isdecimal digits ∨ ¬ (10 ≤ digits.length ∧ digits.length ≤ 15) then
    .error ⟨"Введите корректный номер телефона, например +7 999 123-45-67."⟩
  else .ok (.ofList normalized)

/-! ### What it accepts -/

/-- Without the one plus it may begin with. -/
def unsigned (l : List Char) : List Char := if l.head? = some '+' then l.drop 1 else l

/-- Ten to fifteen decimal digits of any script. -/
def IsNumber (l : List Char) : Prop := (∀ c ∈ l, isDecimal c = true) ∧ 10 ≤ l.length ∧ l.length ≤ 15

instance (l : List Char) : Decidable (IsNumber l) := inferInstanceAs (Decidable (_ ∧ _))

theorem isdecimal_iff {l : List Char} : isdecimal l = true ↔ l ≠ [] ∧ ∀ c ∈ l, isDecimal c = true := by
  cases l <;> simp [isdecimal]

theorem IsNumber.isdecimal {l : List Char} (h : IsNumber l) : isdecimal l = true := by
  refine isdecimal_iff.mpr ⟨?_, h.1⟩
  rintro rfl
  exact absurd h.2.1 (by decide)

theorem international_number {l : List Char} (h : IsNumber (unsigned l)) :
    ∃ digits, international l = '+' :: digits ∧ IsNumber digits ∧
      ((∀ c ∈ digits, c.isDigit = true) ↔ ∀ c ∈ unsigned l, c.isDigit = true) := by
  by_cases plus : l.head? = some '+'
  · obtain ⟨t, rfl⟩ := List.head?_eq_some_iff.mp plus
    have signed : isdecimal ('+' :: t) = false := by
      rw [Bool.eq_false_iff, ne_eq, isdecimal_iff]
      exact fun d => (isDecimal_apart (d.2 '+' List.mem_cons_self)).2 rfl
    exact ⟨t, by simp [international, signed], h, Iff.rfl⟩
  · rw [unsigned, if_neg plus] at h ⊢
    have seven : isDecimal '7' = true ∧ Char.isDigit '7' = true := by decide
    have eight : Char.isDigit '8' = true := by decide
    unfold international
    split_ifs with first second third
    · obtain ⟨t, rfl⟩ := List.head?_eq_some_iff.mp first.1
      refine ⟨'7' :: t, rfl, ⟨List.forall_mem_cons.mpr ⟨seven.1, fun c hc => h.1 c (List.mem_cons_of_mem _ hc)⟩, h.2⟩, ?_⟩
      simp only [List.forall_mem_cons, seven, eight, true_and]
    · refine ⟨'7' :: l, rfl, ⟨List.forall_mem_cons.mpr ⟨seven.1, h.1⟩, ?_⟩, ?_⟩
      · rw [List.length_cons]
        omega
      · simp only [List.forall_mem_cons, seven, true_and]
    · exact ⟨l, rfl, h, Iff.rfl⟩
    · exact absurd h.isdecimal third

theorem number_of_international {l digits : List Char} (h : international l = '+' :: digits) (number : IsNumber digits) :
    IsNumber (unsigned l) := by
  unfold international at h
  unfold unsigned
  split_ifs at h with first second third fourth
  · obtain ⟨t, rfl⟩ := List.head?_eq_some_iff.mp first.1
    injection h with _ h
    subst h
    have eight : isDecimal '8' = true := by decide
    rw [if_neg (by simp)]
    exact ⟨List.forall_mem_cons.mpr ⟨eight, fun c hc => number.1 c (List.mem_cons_of_mem _ hc)⟩, number.2⟩
  · injection h with _ h
    have plain : l.head? ≠ some '+' := fun e => by
      obtain ⟨t, rfl⟩ := List.head?_eq_some_iff.mp e
      exact (isDecimal_apart ((isdecimal_iff.mp second.1).2 '+' List.mem_cons_self)).2 rfl
    rw [if_neg plain]
    exact ⟨(isdecimal_iff.mp second.1).2, by omega, by omega⟩
  · rw [if_pos third, h]
    exact number
  · rw [if_neg third]
    injection h with _ h
    exact h ▸ number
  · exact absurd (by rw [h]; rfl) third

theorem checked_iff {l : List Char} :
    (isdecimal (digitsOf l) = true ∧ 10 ≤ (digitsOf l).length ∧ (digitsOf l).length ≤ 15) ↔
      ∃ digits, l = '+' :: digits ∧ IsNumber digits := by
  constructor
  · rintro ⟨decimal, size⟩
    by_cases plus : l.head? = some '+'
    · obtain ⟨digits, rfl⟩ := List.head?_eq_some_iff.mp plus
      exact ⟨digits, rfl, (isdecimal_iff.mp decimal).2, size⟩
    · rw [digitsOf, if_neg plus] at decimal
      exact absurd decimal (by decide)
  · rintro ⟨digits, rfl, number⟩
    exact ⟨number.isdecimal, number.2⟩

theorem normalizePhone_ok_iff {value r : String} :
    normalizePhone value = .ok r ↔
      IsNumber (unsigned (withoutSeparators value)) ∧ r = .ofList (international (withoutSeparators value)) := by
  have accepts : (∃ digits, international (withoutSeparators value) = '+' :: digits ∧ IsNumber digits) ↔
      IsNumber (unsigned (withoutSeparators value)) := by
    constructor
    · rintro ⟨digits, shape, number⟩
      exact number_of_international shape number
    · intro number
      obtain ⟨digits, shape, valid, -⟩ := international_number number
      exact ⟨digits, shape, valid⟩
  rw [← accepts, ← checked_iff]
  simp only [normalizePhone, ← not_and_or, ite_not]
  split_ifs with checked
  · rw [Except.ok.injEq, and_iff_right checked, eq_comm]
  · simp only [checked, false_and]

/-! ### The result -/

/-- A plus and ten to fifteen ASCII digits. -/
def IsAsciiPhone (r : String) : Prop :=
  ∃ digits, r = .ofList ('+' :: digits) ∧ 10 ≤ digits.length ∧ digits.length ≤ 15 ∧ ∀ c ∈ digits, c.isDigit = true

theorem withoutSeparators_eq (value : String) :
    withoutSeparators value = value.toList.filter fun c => !isPhoneSeparator c := by
  have trimmed : ∀ l : List Char, (l.dropWhile isSpace).filter (fun c => !isPhoneSeparator c) =
      l.filter fun c => !isPhoneSeparator c := by
    intro l
    induction l with
    | nil => rfl
    | cons c rest ih =>
      by_cases space : isSpace c = true
      · rw [List.dropWhile_cons_of_pos space, ih, List.filter_cons_of_neg (by simp [isPhoneSeparator, space])]
      · rw [List.dropWhile_cons_of_neg space]
  rw [withoutSeparators, strip, String.toList_ofList, List.filter_reverse, trimmed, List.filter_reverse,
    List.reverse_reverse, trimmed]

theorem normalizePhone_congr {value other : String} (h : withoutSeparators value = withoutSeparators other) :
    normalizePhone value = normalizePhone other := by
  rw [normalizePhone, normalizePhone, h]

theorem normalizePhone_idem {value r : String} (h : normalizePhone value = .ok r) : normalizePhone r = .ok r := by
  obtain ⟨number, rfl⟩ := normalizePhone_ok_iff.mp h
  obtain ⟨digits, shape, valid, -⟩ := international_number number
  have kept : withoutSeparators (.ofList (international (withoutSeparators value))) = '+' :: digits := by
    have plus : isPhoneSeparator '+' = false := by decide
    rw [withoutSeparators_eq, String.toList_ofList, shape, List.filter_eq_self]
    intro c hc
    rcases List.mem_cons.mp hc with rfl | hc
    · rw [plus, Bool.not_false]
    · rw [(isDecimal_apart (valid.1 c hc)).1, Bool.not_false]
  refine normalizePhone_ok_iff.mpr ⟨?_, ?_⟩
  · rw [kept]
    exact valid
  · obtain ⟨again, same, -⟩ := international_number (l := '+' :: digits) valid
    have signed : isdecimal ('+' :: digits) = false := by
      rw [Bool.eq_false_iff, ne_eq, isdecimal_iff]
      exact fun d => (isDecimal_apart (d.2 '+' List.mem_cons_self)).2 rfl
    rw [kept, shape]
    simp [international, signed]

/-- An accepted text gives an ASCII number that stays as it is, and so does every text that differs from it in
separators only. -/
def Normalizes (value : String) : Prop :=
  (∀ r, normalizePhone value = .ok r → IsAsciiPhone r ∧ normalizePhone r = .ok r) ∧
    ∀ other, withoutSeparators other = withoutSeparators value → normalizePhone other = normalizePhone value

/-- **A text is normalised as it should be exactly when it is no number or the decimal digits in it are ASCII
digits.** -/
theorem normalizes_iff (value : String) :
    Normalizes value ↔
      (IsNumber (unsigned (withoutSeparators value)) → ∀ c ∈ value.toList, isDecimal c = true → c.isDigit = true) := by
  have digits_of : IsNumber (unsigned (withoutSeparators value)) →
      ((∀ c ∈ unsigned (withoutSeparators value), c.isDigit = true) ↔
        ∀ c ∈ value.toList, isDecimal c = true → c.isDigit = true) := by
    intro number
    have mem : ∀ c, c ∈ unsigned (withoutSeparators value) ↔ c ∈ value.toList ∧ isDecimal c = true := by
      intro c
      have kept : isDecimal c = true → (c ∈ withoutSeparators value ↔ c ∈ value.toList) := by
        intro decimal
        rw [withoutSeparators_eq, List.mem_filter, (isDecimal_apart decimal).1, Bool.not_false]
        exact and_iff_left rfl
      have unsign : isDecimal c = true → (c ∈ unsigned (withoutSeparators value) ↔ c ∈ withoutSeparators value) := by
        intro decimal
        unfold unsigned
        split_ifs with plus
        · obtain ⟨t, shape⟩ := List.head?_eq_some_iff.mp plus
          rw [shape, List.drop_one, List.tail_cons, List.mem_cons, or_iff_right (isDecimal_apart decimal).2]
        · rfl
      constructor
      · intro h
        have decimal := number.1 c h
        exact ⟨(kept decimal).mp ((unsign decimal).mp h), decimal⟩
      · rintro ⟨h, decimal⟩
        exact (unsign decimal).mpr ((kept decimal).mpr h)
    simp only [mem, and_imp]
  constructor
  · rintro ⟨result, -⟩ number
    obtain ⟨digits, shape, valid, ascii⟩ := international_number number
    obtain ⟨⟨same, eq, -, -, all⟩, -⟩ := result _ (normalizePhone_ok_iff.mpr ⟨number, rfl⟩)
    have := String.ofList_injective eq
    rw [shape, List.cons_inj_right] at this
    exact (digits_of number).mp (ascii.mp (this ▸ all))
  · intro h
    refine ⟨fun r ok => ⟨?_, normalizePhone_idem ok⟩, fun other same => normalizePhone_congr same⟩
    obtain ⟨number, rfl⟩ := normalizePhone_ok_iff.mp ok
    obtain ⟨digits, shape, valid, ascii⟩ := international_number number
    exact ⟨digits, by rw [shape], valid.2.1, valid.2.2, ascii.mpr ((digits_of number).mpr (h number))⟩

/-- Ten Arabic-Indic digits are accepted and stored as they are, a number of its own beside the same one in ASCII. -/
theorem normalizes_not_arabic :
    normalizePhone "٩٩٩١٢٣٤٥٦٧" = .ok "+7٩٩٩١٢٣٤٥٦٧" ∧ normalizePhone "9991234567" = .ok "+79991234567" ∧
      ¬ Normalizes "٩٩٩١٢٣٤٥٦٧" := by
  refine ⟨by decide +kernel, by decide +kernel, fun h => ?_⟩
  obtain ⟨⟨digits, eq, -, -, all⟩, -⟩ := h.1 "+7٩٩٩١٢٣٤٥٦٧" (by decide +kernel)
  have shape : digits = ['7', '٩', '٩', '٩', '١', '٢', '٣', '٤', '٥', '٦', '٧'] := by
    have same : '+' :: digits = "+7٩٩٩١٢٣٤٥٦٧".toList := by rw [eq, String.toList_ofList]
    exact (List.cons_inj_right '+').mp (same.trans (by decide +kernel))
  subst shape
  exact absurd (all '٩' (by decide)) (by decide)

end SalonBooking
