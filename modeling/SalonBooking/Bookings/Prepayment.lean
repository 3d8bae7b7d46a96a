import SalonBooking.Lib.Decimals
import SalonBooking.Model.System

/-!
# What a booking asks to be paid in advance

The prepayment of a service is a fixed amount or a percentage of the price with the add-ons. The amounts of the model
are hundredths; here they are compared with the decimals of the source. A percentage is at most the price, the price
has two decimals, and rounding to two decimals does not pass such a bound.
-/

namespace SalonBooking.BookingService

open Lib

variable {c : Catalog} {service : Service} {assignment : StaffServiceOverrides} {addons : List ServiceAddon}
  {settings : Option BusinessPaymentSettings} {base terms : EffectiveServiceTerms} {mode : PaymentMode} {amount : Money}

/-- `_prepayment_amount` on decimals. The product of a price and a percentage has at most 18 digits, so the 28 digits
of the decimal context keep it. -/
def decimalPrepayment (terms : EffectiveServiceTerms) : ℚ :=
  match terms.prepaymentAmount, terms.prepaymentPercent with
  | some amount, _ => quantize 100 (amount / 100)
  | none, some percent => quantize 100 ((terms.price / 100 : ℚ) * (percent / 100) / 100)
  | none, none => 0

theorem hasScale_money (amount : Money) : HasScale 100 ((amount : ℚ) / 100) := ⟨amount, by norm_num⟩

/-- What `resolve_service_terms` lets through. -/
structure Resolved (terms : EffectiveServiceTerms) : Prop where
  price : 0 ≤ terms.price
  percent : ∀ p ∈ terms.prepaymentPercent, 0 ≤ p ∧ p ≤ 10000

theorem effectiveTerms_resolved (h : effectiveTerms service assignment = .ok base) : Resolved base := by
  simp only [effectiveTerms, resolveServiceTerms, Except.require_bind_ok, Except.pure_ok] at h
  obtain ⟨bounds, -, percent, -, rfl⟩ := h
  refine ⟨?_, percent⟩
  simp only [not_or, not_lt] at bounds
  exact bounds.1

theorem Resolved.termsWithAddons (h : Resolved base) (prices : ∀ a ∈ addons, 0 ≤ a.price) :
    Resolved (termsWithAddons base addons) := by
  refine ⟨?_, h.percent⟩
  have total : 0 ≤ (addons.map fun a => a.price).sum := List.sum_nonneg fun x hx => by
    obtain ⟨a, ha, rfl⟩ := List.mem_map.mp hx
    exact prices a ha
  exact Int.add_nonneg h.price total

theorem prepaymentAmount_eq (h : Resolved terms) : (prepaymentAmount terms : ℚ) / 100 = decimalPrepayment terms := by
  unfold prepaymentAmount decimalPrepayment
  rcases ha : terms.prepaymentAmount with _ | amount
  · rcases hp : terms.prepaymentPercent with _ | percent
    · simp
    · have range := h.percent percent hp
      have numerator : 0 ≤ terms.price * percent := mul_nonneg h.price range.1
      have same : (terms.price / 100 : ℚ) * (percent / 100) / 100 * (100 : ℕ) =
          ((terms.price * percent : ℤ) : ℚ) / (10000 : ℕ) := by
        push_cast
        ring
      show ((divHalfUp (terms.price * percent) 10000 : ℤ) : ℚ) / 100 = quantize 100 _
      rw [quantize, same, roundHalfUp_div numerator (by norm_num)]
      rfl
  · exact (quantize_of_hasScale (by norm_num) (hasScale_money amount)).symm

theorem decimalPrepayment_le (h : Resolved terms) {percent : Int} (ha : terms.prepaymentAmount = none)
    (hp : terms.prepaymentPercent = some percent) : decimalPrepayment terms ≤ (terms.price : ℚ) / 100 := by
  unfold decimalPrepayment
  rw [ha, hp]
  refine quantize_le (by norm_num) (hasScale_money terms.price) ?_
  have range := h.percent percent hp
  have price : (0 : ℚ) ≤ terms.price := by exact_mod_cast h.price
  have upper : (percent : ℚ) ≤ 10000 := by exact_mod_cast range.2
  nlinarith

theorem paymentPolicy_enabled (h : paymentPolicy c settings terms = .ok (mode, amount)) (enabled : mode ≠ .disabled) :
    amount = prepaymentAmount terms ∧ 0 < amount ∧ amount ≤ terms.price ∧
      (mode = .yookassa → c.paymentReturnUrl ≠ none) := by
  unfold paymentPolicy at h
  cases settings with
  | none =>
    simp only [Except.pure_ok, Prod.mk.injEq] at h
    exact absurd h.1.symm enabled
  | some settings =>
    simp only at h
    split at h
    · simp only [Except.pure_ok, Prod.mk.injEq] at h
      exact absurd h.1.symm enabled
    · rename_i positive
      simp only [Except.bind_ok, Except.require_ok, Except.pure_ok, Prod.mk.injEq, exists_const] at h
      obtain ⟨within, -, -, -, -, -, -, -, configured, rfl, rfl⟩ := h
      rw [not_or] at positive
      exact ⟨rfl, not_le.mp positive.2, not_lt.mp within, fun yookassa unset => configured ⟨yookassa, unset⟩⟩

/-- **What an enabled payment policy asks for is positive, has two decimals and is at most the price with the add-ons;
it is a full payment exactly when it is that price; and no percentage rounds above the price.** -/
theorem prepayment_within_price (resolved : effectiveTerms service assignment = .ok base)
    (prices : ∀ a ∈ addons, 0 ≤ a.price)
    (policy : paymentPolicy c settings (termsWithAddons base addons) = .ok (mode, amount)) :
    (mode ≠ .disabled →
      decimalPrepayment (termsWithAddons base addons) = (amount : ℚ) / 100 ∧
      0 < decimalPrepayment (termsWithAddons base addons) ∧
      HasScale 100 (decimalPrepayment (termsWithAddons base addons)) ∧
      decimalPrepayment (termsWithAddons base addons) ≤ ((termsWithAddons base addons).price : ℚ) / 100 ∧
      ∀ plan values appointmentId reservationId, plan.terms = termsWithAddons base addons → plan.prepayment = amount →
        ((newPaymentValues plan values appointmentId reservationId).paymentType = .fullPayment ↔
          amount = (termsWithAddons base addons).price)) ∧
    ∀ percent, base.prepaymentAmount = none → base.prepaymentPercent = some percent →
      decimalPrepayment (termsWithAddons base addons) ≤ ((termsWithAddons base addons).price : ℚ) / 100 := by
  have terms := (effectiveTerms_resolved resolved).termsWithAddons prices
  refine ⟨fun enabled => ?_, fun percent ha hp => decimalPrepayment_le terms ha hp⟩
  obtain ⟨rfl, positive, within, -⟩ := paymentPolicy_enabled policy enabled
  rw [← prepaymentAmount_eq terms]
  have hpos : (0 : ℚ) < prepaymentAmount (termsWithAddons base addons) := by exact_mod_cast positive
  have hle : (prepaymentAmount (termsWithAddons base addons) : ℚ) ≤ (termsWithAddons base addons).price := by
    exact_mod_cast within
  refine ⟨rfl, by linarith, hasScale_money _, by linarith, ?_⟩
  intro plan values appointmentId reservationId hterms hamount
  simp only [newPaymentValues, hterms, hamount]
  split_ifs with full
  · simp only [true_iff]
    exact le_antisymm within full
  · simp only [false_iff]
    intro eq
    exact full eq.ge

/-- A third of 100.01 as its master asks for it, with an add-on of 0.02. -/
def thirdOfPrice : EffectiveServiceTerms := ⟨10001, 60, 60, none, some 3333, true⟩

theorem prepayment_within_price_third :
    decimalPrepayment (termsWithAddons thirdOfPrice [⟨1, true, 2, 0, 0⟩]) = (3334 : ℤ) / 100 ∧
      decimalPrepayment (termsWithAddons thirdOfPrice [⟨1, true, 2, 0, 0⟩]) ≤
        ((termsWithAddons thirdOfPrice [⟨1, true, 2, 0, 0⟩]).price : ℚ) / 100 := by
  have resolved : effectiveTerms ⟨true, true, none, 10001, 60, 60, some 0⟩ ⟨none, none, none, none, some 3333, true, true⟩ =
      .ok thirdOfPrice := rfl
  have policy : paymentPolicy (salon .manual) (salon .manual).paymentSettings
      (termsWithAddons thirdOfPrice [⟨1, true, 2, 0, 0⟩]) = .ok (.manual, 3334) := by decide +kernel
  obtain ⟨asked, percentage⟩ := prepayment_within_price resolved (by simp) policy
  exact ⟨(asked (by decide)).1, percentage 3333 rfl rfl⟩

end SalonBooking.BookingService
