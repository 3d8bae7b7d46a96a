import SalonBooking.Domain.Calendar
import SalonBooking.Model.Db

/-!
# What the services read but the booking core does not write

People, staff, services, workstations, switches and settings. Their own services may change them
between any two transactions, so every transaction is given a catalog of its own and no result relates
the catalogs of two transactions unless it says so.
-/

namespace SalonBooking

open Lib

/-- `users`, joined with the client card of the business. -/
structure User where
  telegramId : Int
  /-- The card is active and not anonymised. -/
  hasActiveCard : Bool
  privacyConsentAt : Option Int
  isSelfBookingBlocked : Bool

/-- `staff_members`. -/
structure StaffMember where
  userId : Option Nat
  role : StaffRole
  isActive : Bool
  isBookable : Bool
  isBootstrapOwner : Bool
  archivedAt : Option Int
  schedulePausedUntil : Option Int

structure Service where
  isActive : Bool
  onlineBookingEnabled : Bool
  archivedAt : Option Int
  price : Money
  durationMinMinutes : Nat
  durationMaxMinutes : Nat
  prepaymentAmount : Option Money

structure ServiceAddon where
  serviceId : Nat
  isActive : Bool
  price : Money
  durationMinMinutes : Nat
  durationMaxMinutes : Nat

/-- `portfolio_items`, as far as a booking looks at a design. -/
structure PortfolioItem where
  status : PortfolioStatus
  linkedServiceId : Option Nat

/-- `business_payment_settings`. -/
structure BusinessPaymentSettings where
  mode : PaymentMode
  manualPaymentInstructions : Option String
  reservationTtlMinutes : Nat

inductive FeatureName
  | onlineBooking | waitlist | reviews | referencePhotos | reminders | repeatBooking | prepayment | manualPayments
  | yookassaPayments
  deriving DecidableEq

/-- The permissions the modelled operations ask for. -/
inductive StaffPermission
  | manageOwnAppointments | manageStaff | approvePrepayments | rejectPrepayments | refundPayments
  | overrideBookingLimit
  deriving DecidableEq

/-- `StaffContext`: an authorised member of staff. -/
structure StaffContext where
  telegramId : Int
  staffMemberId : Nat
  userId : Nat
  role : StaffRole
  isBookable : Bool
  isBootstrapOwner : Bool
  permissions : List StaffPermission
  deriving DecidableEq

/-- A window is created by an administrator or by a master for herself. -/
inductive WindowActor
  | admin (telegramId : Int)
  | master (context : StaffContext)

structure Catalog where
  settings : Option BusinessSettings
  businessExists : Bool
  features : Option (FeatureName → Bool)
  newBookingsAllowed : Bool
  /-- `ensure_admin` of `appointment_common`. -/
  isAdmin : Int → Bool
  /-- The user record of an administrator, created on first use. -/
  adminUser : Int → Nat
  /-- `AuthorizationPort.authorize` and `_live_context` with its permission check. -/
  authorize : Int → StaffPermission → Check StaffContext
  user : Nat → Option User
  /-- The user with this Telegram id and an active card. -/
  userByTelegramId : Int → Option Nat
  staff : Nat → Option StaffMember
  service : Nat → Option Service
  /-- `get_assignment`: the unarchived row of a staff member and a service. -/
  assignment : Nat → Nat → Option StaffServiceOverrides
  /-- Services assigned to a staff member, for the listing of a master's own offer. -/
  servicesOf : Nat → List Nat
  addon : Nat → Option ServiceAddon
  /-- `list_active_for_service`: active workstations linked to a service, in allocation order. -/
  workstationsFor : Nat → List Nat
  portfolio : Nat → Option PortfolioItem
  paymentSettings : Option BusinessPaymentSettings
  /-- Configured payment services and refund coordinators. -/
  paymentService : PaymentMode → Bool
  paymentReturnUrl : Option String
  sha256 : String → String

namespace Catalog

variable (c : Catalog)

/-- `_settings`. -/
def requireSettings : Check BusinessSettings :=
  orRaise c.settings (.runtime "Business settings row is missing")

/-- `require_feature`. -/
def requireFeature (feature : FeatureName) : Check Unit := do
  let flags ← orRaise c.features (.entityNotFound "Business feature settings are missing")
  require (flags feature = true) (.featureDisabled "This bot feature is disabled by the business owner")

/-- `ensure_admin`. -/
def ensureAdmin (telegramId : Int) : Check Unit :=
  require (c.isAdmin telegramId = true) (.authorization "Administrative access denied")

/-- `_client` of the appointment and reschedule services. -/
def requireClient (telegramId : Int) : Check Nat :=
  orRaise (c.userByTelegramId telegramId) (.appointmentNotFound "Запись не найдена.")

/-- The client of an appointment when a view of it is built. -/
def requireAppointmentClient (clientId : Nat) : Check User :=
  orRaise (c.user clientId) (.runtime "Appointment client is missing")

/-- `list_bookable_services_for_staff`. -/
def bookableServicesForStaff (staffMemberId : Nat) : List (Nat × Service) :=
  match c.staff staffMemberId with
  | none => []
  | some member =>
    if member.isActive && member.isBookable && member.archivedAt.isNone then
      (c.servicesOf staffMemberId).filterMap fun serviceId =>
        match c.assignment staffMemberId serviceId, c.service serviceId with
        | some assignment, some service =>
          if assignment.isActive && assignment.onlineBookingEnabled && service.isActive &&
              service.onlineBookingEnabled && service.archivedAt.isNone then
            some (serviceId, service)
          else none
        | _, _ => none
    else []

/-- `allocate_available`: the first linked workstation that no occupying appointment keeps busy. -/
def allocateAvailable (db : Db) (serviceId : Nat) (startAt endAt : Int)
    (excludeAppointmentId : Option Nat) : Option Nat :=
  (c.workstationsFor serviceId).find? fun w => ! db.workstationBusy w startAt endAt excludeAppointmentId

end Catalog

end SalonBooking
