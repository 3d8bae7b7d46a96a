import SalonBooking.Services.Payments
import SalonBooking.Services.Reservations

/-!
# Booking and checkout

`services/booking_service.py`: the booking transaction, the two transactions around the provider's
creation call and the transaction that consumes a paid hold. The checks of `book` are collected in a
plan; its writes start from the plan. A repeated call finds the reservation of its key first
(`_existing_checkout`, which only reads) and goes on with the checkout of that booking.
-/

namespace SalonBooking

open Lib

/-- `BookingRequest`; reference photos are given by their unique ids. -/
structure BookingRequest where
  serviceId : Nat
  addonIds : List Nat
  windowId : Nat
  staffMemberId : Option Nat
  designReferenceId : Option Nat
  referenceMedia : List String
  checkoutIdempotencyKey : String
  reservationToken : String

/-- `_BookingLimitOverride`. -/
structure BookingLimitOverride where
  actorUserId : Nat
  reason : String

/-- The part of `PaymentView` that the checkout goes on with. -/
structure PaymentView where
  id : Nat
  appointmentId : Nat
  status : PaymentStatus
  deriving DecidableEq

/-- The outcome of the checks of `book`. -/
structure BookingPlan where
  window : Window
  clientId : Nat
  terms : EffectiveServiceTerms
  workstationId : Nat
  mode : PaymentMode
  prepayment : Money

/-- `BookingReceipt` with what `_finalize_checkout` needs. -/
structure CheckoutResult where
  appointmentId : Nat
  paymentId : Option Nat
  paymentValues : Option PaymentCreate

namespace BookingService

/-- `_WINDOW_TAKEN_MESSAGE`. -/
def windowTaken : Err :=
  .bookingConflict "К сожалению, это время только что заняли. Выберите другое свободное окно."

/-- `x or default` for an optional number. -/
def orDefault (x : Option Nat) (default : Nat) : Nat :=
  match x with
  | some (n + 1) => n + 1
  | _ => default

/-- `_consented_client`. -/
def consentedClient (c : Catalog) (telegramId : Int) (allowSelfBookingBlocked : Bool) : Check Nat := do
  let notConsented :=
    Err.privacyConsentRequired "Сначала примите условия обработки данных через команду /start."
  let clientId ← orRaise (c.userByTelegramId telegramId) notConsented
  let user ← orRaise (c.user clientId) notConsented
  require (user.privacyConsentAt.isSome = true) notConsented
  require (¬ (user.isSelfBookingBlocked = true ∧ allowSelfBookingBlocked = false))
    (.bookingUnavailable "Самостоятельная запись временно недоступна. Напишите мастеру.")
  return clientId

/-- `_enforce_future_booking_limit`. -/
def enforceFutureBookingLimit (c : Catalog) (db : Db) (settings : BusinessSettings) (clientId : Nat)
    (now : Int) (override : Option BookingLimitOverride) : Check Unit := do
  let notNeeded := Err.bookingUnavailable "Превышение лимита больше не требуется."
  if settings.futureBookingLimitEnabled.getD true then
    let maximum := orDefault settings.futureBookingLimitMax 4
    require ((c.user clientId).any (fun u => u.hasActiveCard) = true)
      (.bookingUnavailable "Карточка клиента неактивна.")
    let current := db.countForFutureBookingLimit clientId now
      (orDefault settings.futureBookingLimitHorizonDays 30) settings.futureBookingCountClientCancellations
    if current < maximum then require (override.isNone = true) notNeeded
    else
      require (override.isSome = true)
        (.futureBookingLimit "Достигнут лимит будущих записей на ближайшие 30 дней." current maximum)
  else require (override.isNone = true) notNeeded

/-- `_active_service`. -/
def activeService (c : Catalog) (serviceId : Nat) : Check Service := do
  let unavailable := Err.bookingUnavailable "Эта услуга сейчас недоступна для записи."
  let service ← orRaise (c.service serviceId) unavailable
  require (service.isActive = true) unavailable
  return service

/-- `_selected_addons`. -/
def selectedAddons (c : Catalog) (serviceId : Nat) (addonIds : List Nat) : Check (List ServiceAddon) := do
  require (¬ (¬ addonIds.Nodup ∨ addonIds.length > 20))
    (.bookingUnavailable "Выбран некорректный набор дополнительных услуг.")
  addonIds.mapM fun addonId =>
    orRaise ((c.addon addonId).filter fun a => a.serviceId == serviceId && a.isActive) (.bookingUnavailable
      "Одна из дополнительных услуг больше недоступна. Выберите дополнения заново.")

/-- `_effective_terms`. -/
def effectiveTerms (service : Service) (assignment : StaffServiceOverrides) : Check EffectiveServiceTerms :=
  resolveServiceTerms ⟨service.price, service.durationMinMinutes, service.durationMaxMinutes,
    service.prepaymentAmount, service.isActive⟩ assignment

/-- `_terms_with_addons`. -/
def termsWithAddons (terms : EffectiveServiceTerms) (addons : List ServiceAddon) : EffectiveServiceTerms :=
  { terms with
    price := terms.price + (addons.map fun a => a.price).sum
    durationMinMinutes := terms.durationMinMinutes + (addons.map fun a => a.durationMinMinutes).sum
    durationMaxMinutes := terms.durationMaxMinutes + (addons.map fun a => a.durationMaxMinutes).sum }

/-- `_required_payment_service`. -/
def requiredPaymentService (c : Catalog) (mode : PaymentMode) : Check Unit :=
  require (c.paymentService mode = true)
    (.bookingUnavailable "Платёжный режим ещё не настроен владельцем бизнеса.")

/-- `_payment_policy`. -/
def paymentPolicy (c : Catalog) (settings : Option BusinessPaymentSettings) (terms : EffectiveServiceTerms) :
    Check (PaymentMode × Money) := do
  let amount := prepaymentAmount terms
  match settings with
  | none => return (.disabled, 0)
  | some settings =>
    if settings.mode = .disabled ∨ amount ≤ 0 then return (.disabled, 0)
    else
      require (¬ amount > terms.price)
        (.bookingUnavailable "Предоплата не может превышать стоимость услуги.")
      c.requireFeature .prepayment
      c.requireFeature (if settings.mode = .manual then .manualPayments else .yookassaPayments)
      requiredPaymentService c settings.mode
      require (¬ (settings.mode = .manual ∧ strip (settings.manualPaymentInstructions.getD "") = ""))
        (.bookingUnavailable "Инструкции для ручной оплаты ещё не настроены.")
      require (¬ (settings.mode = .yookassa ∧ c.paymentReturnUrl = none))
        (.bookingUnavailable "YooKassa ещё не настроена владельцем бизнеса.")
      return (settings.mode, amount)

/-- `_initial_appointment_status`. -/
def initialAppointmentStatus : PaymentMode → AppointmentStatus
  | .manual | .yookassa => .pendingPayment
  | .disabled => .confirmed

/-- The master and her assignment to the service, as `book` accepts them. -/
def bookableMaster (c : Catalog) (window : Window) (serviceId : Nat) : Check StaffServiceOverrides := do
  let unavailable := Err.bookingUnavailable "Selected master is not available"
  let master ← orRaise (c.staff window.staffMemberId) unavailable
  require (master.isActive = true ∧ master.isBookable = true) unavailable
  let assignment ← orRaise (c.assignment window.staffMemberId serviceId) unavailable
  require (assignment.isActive = true ∧ assignment.onlineBookingEnabled = true) unavailable
  require (∀ t ∈ master.schedulePausedUntil, ¬ window.startAt < t)
    (.bookingUnavailable "Selected master is temporarily unavailable")
  return assignment

/-- The design of a request, when it names one. -/
def checkDesign (c : Catalog) (serviceId : Nat) (designReferenceId : Option Nat) : Check Unit := do
  match designReferenceId with
  | none => return ()
  | some designId =>
    let unavailable :=
      Err.bookingUnavailable "Выбранная работа больше недоступна. Выберите другой дизайн."
    let design ← orRaise (c.portfolio designId) unavailable
    require (design.status = .published) unavailable
    require (∀ linked ∈ design.linkedServiceId, linked = serviceId)
      (.bookingUnavailable "Этот дизайн связан с другой услугой. Начните выбор заново.")

/-- The daily cap and the workstation of a booking. -/
def allocate (c : Catalog) (db : Db) (settings : BusinessSettings) (window : Window) (localDate : Int)
    (serviceId : Nat) : Check Nat := do
  let (dayStart, dayEnd) := settings.timezone.utcDayBounds localDate
  require (¬ db.countCapacityBetween dayStart dayEnd window.staffMemberId none ≥ settings.maxAppointmentsPerDay)
    (.bookingLimit "На эту дату больше нет мест.")
  orRaise (c.allocateAvailable db serviceId window.startAt window.endAt none) (.bookingConflict
    "На это время рабочее место для услуги уже занято. Выберите другое открытое окно.")

/-- Reference photos need their own switch. -/
def requireReferenceFeature (c : Catalog) (referenceMedia : List String) : Check Unit :=
  if referenceMedia = [] then return () else c.requireFeature .referencePhotos

/-- The checks of `book`, in the order of the source. -/
def bookingPlan (c : Catalog) (telegramId : Int) (values : BookingRequest) (now : Int)
    (allowSelfBookingBlocked : Bool) (override : Option BookingLimitOverride) (db : Db) :
    Check BookingPlan := do
  require (c.newBookingsAllowed = true)
    (.subscriptionAccess "New bookings are unavailable for this business")
  c.requireFeature .onlineBooking
  requireReferenceFeature c values.referenceMedia
  let settings ← c.requireSettings
  require (c.businessExists = true) (.runtime "Business row is missing")
  let window ← orRaise (db.windows.row values.windowId) windowTaken
  let localDate := settings.timezone.localDate window.startAt
  require (window.status = .open) windowTaken
  require (∀ s ∈ values.staffMemberId, window.staffMemberId = s) windowTaken
  let clientId ← consentedClient c telegramId allowSelfBookingBlocked
  enforceFutureBookingLimit c db settings clientId now override
  let service ← activeService c values.serviceId
  let assignment ← bookableMaster c window values.serviceId
  let addons ← selectedAddons c values.serviceId values.addonIds
  let baseTerms ← effectiveTerms service assignment
  let terms := termsWithAddons baseTerms addons
  require (terms.onlineBookingEnabled = true) (.bookingUnavailable "Selected service is not available")
  checkDesign c values.serviceId values.designReferenceId
  let validatedLocalDate ← validateBookableDate settings window.startAt now
  validateServiceFitsWindow terms.durationMaxMinutes window.startAt window.endAt
  require (validatedLocalDate = localDate) windowTaken
  let workstationId ← allocate c db settings window localDate values.serviceId
  require (¬ values.referenceMedia.length > settings.bookingReferenceMaxMedia)
    (.bookingUnavailable "Превышено допустимое количество фотографий-референсов.")
  require (values.referenceMedia.Nodup)
    (.bookingUnavailable "Одинаковые фотографии нельзя добавлять повторно.")
  let (mode, prepayment) ← paymentPolicy c c.paymentSettings terms
  return { window, clientId, terms, workstationId, mode, prepayment }

def newAppointment (plan : BookingPlan) (values : BookingRequest) : Appointment where
  staffMemberId := plan.window.staffMemberId
  clientId := plan.clientId
  windowId := values.windowId
  serviceId := values.serviceId
  workstationId := some plan.workstationId
  priceSnapshot := plan.terms.price
  prepaymentSnapshot := plan.prepayment
  paymentModeSnapshot := plan.mode
  durationMinSnapshot := plan.terms.durationMinMinutes
  durationMaxSnapshot := plan.terms.durationMaxMinutes
  scheduledStartAt := plan.window.startAt
  scheduledEndAt := plan.window.endAt
  status := initialAppointmentStatus plan.mode

def newPaymentValues (plan : BookingPlan) (values : BookingRequest) (appointmentId reservationId : Nat) :
    PaymentCreate where
  appointmentId := appointmentId
  provider := plan.mode
  paymentType := if plan.prepayment ≥ plan.terms.price then .fullPayment else .deposit
  amount := plan.prepayment
  currency := "RUB"
  idempotencyKey := "pay:" ++ values.checkoutIdempotencyKey
  safeMetadata := [("reservation_id", toString reservationId)]

/-- The validators of `PaymentCreate` that a derived intent can fail. -/
def validatePaymentCreate (values : PaymentCreate) : Check Unit := do
  let _ ← validateMoney values.amount "RUB"
  require (16 ≤ values.idempotencyKey.length ∧ values.idempotencyKey.length ≤ 128)
    (.value "idempotency key must be 16-128 safe ASCII characters")

/-- `ReservationToken.from_raw`. -/
def tokenDigest (c : Catalog) (raw : String) : Check String := do
  require (¬ raw.length < 32) (.value "reservation token must contain at least 32 characters")
  return c.sha256 raw

/-- The hold and the payment intent of a booking with an enabled payment mode. -/
def openCheckout (c : Catalog) (plan : BookingPlan) (values : BookingRequest) (appointmentId : Nat)
    (now : Int) (db : Db) : Check (CheckoutResult × Db) := do
  let settings ← orRaise c.paymentSettings (.runtime "payment settings are missing for an enabled mode")
  let digest ← tokenDigest c values.reservationToken
  let ((reservationId, _), db) ← ReservationService.create
    { clientId := plan.clientId, staffMemberId := plan.window.staffMemberId, windowId := values.windowId
      serviceId := values.serviceId, appointmentId := some appointmentId
      idempotencyKey := values.checkoutIdempotencyKey, ttlMinutes := settings.reservationTtlMinutes }
    digest now db
  let reservation ← ReservationService.requiredReservation db reservationId
  let paymentValues := newPaymentValues plan values appointmentId reservationId
  validatePaymentCreate paymentValues
  requiredPaymentService c plan.mode
  let payment ← PaymentService.newPayment plan.mode paymentValues (some reservation.expiresAt)
  let payment :=
    if plan.mode = .manual then { payment with manualStatus := some .awaitingPayment } else payment
  return (⟨appointmentId, some db.payments.next, some paymentValues⟩, db.addPayment payment)

/-- `book` after its checks. -/
def placeBooking (c : Catalog) (plan : BookingPlan) (values : BookingRequest) (now : Int) (db : Db) :
    Check (CheckoutResult × Db) := do
  let appointment := newAppointment plan values
  let appointmentId := db.appointments.next
  let db := db.addAppointment appointment
  let (checkout, db) ←
    if plan.mode = .disabled then
      pure (CheckoutResult.mk appointmentId none none,
        db.setWindow values.windowId { plan.window with status := .booked })
    else openCheckout c plan values appointmentId now db
  let db ← (db.addHistory ⟨appointmentId, none, appointment.status, some plan.clientId, none⟩).commit
  return (checkout, db)

/-- How `book` reports an error of its transaction. -/
def translate : Err → Err
  | .integrity => windowTaken
  | .paymentState text | .reservationState text => .bookingUnavailable text
  | e => e

/-- `book`, up to the provider call. -/
def book (c : Catalog) (telegramId : Int) (values : BookingRequest) (now : Int)
    (allowSelfBookingBlocked : Bool) (override : Option BookingLimitOverride) (db : Db) :
    Check (CheckoutResult × Db) :=
  (do
    let plan ← bookingPlan c telegramId values now allowSelfBookingBlocked override db
    placeBooking c plan values now db).mapError translate

/-! ### The provider call of a checkout -/

def paymentView (paymentId : Nat) (payment : Payment) : PaymentView :=
  ⟨paymentId, payment.appointmentId, payment.status⟩

/-- The first transaction of `_submit_payment`: a payment that has left `CREATED` is returned as it is. -/
def readPayment (paymentId : Nat) (db : Db) : Check PaymentView := do
  let payment ← orRaise (db.payments.row paymentId) (.bookingUnavailable "Платёж не найден.")
  return paymentView paymentId payment

/-- The last transaction of `_submit_payment`: the answer is first applied to a detached copy of the
intent; what the copy refuses, and what the provider refused, is a creation failure. The state is
committed also when the call ends with `BookingUnavailableError`, so the result carries the outcome. -/
def submitPayment (paymentId : Nat) (values : PaymentCreate) (answer : Except ProviderError ProviderPayment)
    (now : Int) (db : Db) : Check (Except Err PaymentView × Db) := do
  let detached ← PaymentService.newPayment values.provider values none
  match (PaymentService.createWithProvider values.provider values answer now).exec detached with
  | (.error (.provider code retryable), _) =>
    let unavailable := Err.bookingUnavailable ("Платёжный сервис временно недоступен. Время сохранено " ++
      "в резерве; повторите подтверждение до истечения таймера.")
    match db.payments.row paymentId with
    | none => return (.error unavailable, db)
    | some payment =>
      if payment.status = .created then
        PaymentService.requireSameIntent payment values
        match (PaymentService.applyCreationFailure ⟨code, retryable⟩).exec payment with
        | (.error e, _) => throw e
        | (.ok _, payment) => return (.error unavailable, ← (db.setPayment paymentId payment).commit)
      else return (.error unavailable, db)
  | (.error e, _) => throw e
  | (.ok result, _) =>
    let payment ← orRaise (db.payments.row paymentId) (.bookingUnavailable "Платёж не найден.")
    PaymentService.requireSameIntent payment values
    if payment.status = .created then
      match (PaymentService.applyCreationResult values.provider result now).exec payment with
      | (.error e, _) => throw e
      | (.ok _, payment) =>
        return (.ok (paymentView paymentId payment), ← (db.setPayment paymentId payment).commit)
    else return (.ok (paymentView paymentId payment), db)

/-- `_consume_paid_reservation`: the payment is not read again, the view is trusted. -/
def consumePaidReservation (payment : PaymentView) (now : Int) (db : Db) : Check Db := do
  match db.activeForAppointment payment.appointmentId with
  | none => return db
  | some (reservationId, _) =>
    let db ← ReservationService.consume reservationId payment.appointmentId none now db
    db.commit

/-! ### The check before a booking -/

/-- The intent of a payment row, as a repeated call passes it to the provider. -/
def resumedValues (payment : Payment) : PaymentCreate where
  appointmentId := payment.appointmentId
  provider := payment.provider
  paymentType := payment.paymentType
  amount := payment.amount
  currency := payment.currency
  idempotencyKey := payment.idempotencyKey
  safeMetadata := payment.safeMetadata.filter fun item => item.1 ∉ ["business_id", "appointment_id"]

/-- `_existing_checkout`; `addonSnapshots` are the add-ons stored with an appointment. -/
def existingCheckout (c : Catalog) (telegramId : Int) (values : BookingRequest) (addonSnapshots : Nat → List Nat)
    (db : Db) : Check (Option CheckoutResult) := do
  match db.reservations.find fun r => r.idempotencyKey == values.checkoutIdempotencyKey with
  | none => return none
  | some (_, reservation) =>
    let clientId ← consentedClient c telegramId false
    let digest ← tokenDigest c values.reservationToken
    require (reservation.clientId = clientId ∧ reservation.windowId = values.windowId ∧
      reservation.serviceId = values.serviceId ∧
      reservation.staffMemberId = values.staffMemberId.getD reservation.staffMemberId ∧
      reservation.tokenDigest = digest ∧ reservation.status ≠ .expired ∧ reservation.status ≠ .cancelled) windowTaken
    let appointmentId ← orRaise reservation.appointmentId windowTaken
    let _ ← c.requireSettings
    require (c.businessExists = true) (.runtime "Business row is missing")
    let appointment ← orRaise (db.appointments.row appointmentId) windowTaken
    let _ ← orRaise (db.windows.row reservation.windowId) windowTaken
    let (paymentId, payment) ← orRaise (db.latestPayment appointmentId) windowTaken
    require (appointment.clientId = clientId ∧ appointment.paymentModeSnapshot ≠ .disabled ∧
      payment.provider = appointment.paymentModeSnapshot) windowTaken
    require (values.addonIds.insertionSort (· ≤ ·) = (addonSnapshots appointmentId).insertionSort (· ≤ ·)) windowTaken
    return some ⟨appointmentId, some paymentId, some (resumedValues payment)⟩

end BookingService

end SalonBooking
