import SalonBooking.Bookings.Offers
import SalonBooking.Model.System
import SalonBooking.Services.Booking

/-!
# Listed windows and bookable windows

`list_availability` filters the open windows by one set of conditions, `book` checks the chosen window by another one.
Both are inverted to what they share and what only one of them asks; they agree on a window exactly when the two
remainders agree.
-/

namespace SalonBooking

open Lib

variable {c : Catalog} {db : Db} {settings : BusinessSettings} {now telegramId : Int} {serviceId k : Nat}
  {addonIds : List Nat} {staffMemberId : Option Nat} {key token : String} {w : Window}

/-- The checks of `service_addons` in the schema. -/
def Catalog.AddonChecks (c : Catalog) : Prop := ∀ i addon, c.addon i = some addon →
  0 ≤ addon.price ∧ 0 < addon.durationMinMinutes ∧ addon.durationMinMinutes ≤ addon.durationMaxMinutes

namespace BookingService

/-- A request for a window of the list: without a design and without photos. -/
def windowRequest (serviceId : Nat) (addonIds : List Nat) (staffMemberId : Option Nat) (windowId : Nat)
    (key token : String) : BookingRequest where
  serviceId := serviceId
  addonIds := addonIds
  windowId := windowId
  staffMemberId := staffMemberId
  designReferenceId := none
  referenceMedia := []
  checkoutIdempotencyKey := key
  reservationToken := token

def Listed (c : Catalog) (telegramId : Int) (serviceId : Nat) (addonIds : List Nat) (staffMemberId : Option Nat)
    (k : Nat) (now : Int) (db : Db) : Prop :=
  ∃ views, listAvailability c telegramId serviceId addonIds staffMemberId none now db = .ok views ∧
    ∃ view ∈ views, view.id = k

/-- A call of `book` finds no checkout of its key and books. -/
def Books (c : Catalog) (telegramId : Int) (values : BookingRequest) (addonSnapshots : Nat → List Nat) (now : Int)
    (db : Db) : Prop :=
  existingCheckout c telegramId values addonSnapshots db = .ok none ∧
    ∃ r, book c telegramId values now false none db = .ok r

/-! ### What both ask -/

/-- The rows that the listing and the booking of a window look up. -/
structure Offer where
  settings : BusinessSettings
  service : Service
  addons : List ServiceAddon
  window : Window
  member : StaffMember
  assignment : StaffServiceOverrides
  terms : EffectiveServiceTerms

namespace Offer

variable (o : Offer)

def day : Int := o.settings.timezone.localDate o.window.startAt

structure Shared (c : Catalog) (serviceId : Nat) (addonIds : List Nat) (staffMemberId : Option Nat) (k : Nat)
    (db : Db) : Prop where
  feature : c.requireFeature .onlineBooking = .ok ()
  settings : c.settings = some o.settings
  service : activeService c serviceId = .ok o.service
  addons : selectedAddons c serviceId addonIds = .ok o.addons
  window : db.windows.row k = some o.window
  isOpen : o.window.status = .open
  chosen : ∀ s ∈ staffMemberId, o.window.staffMemberId = s
  member : c.staff o.window.staffMemberId = some o.member
  assignment : bookableMaster c o.window serviceId = .ok o.assignment
  terms : effectiveTerms o.service o.assignment = .ok o.terms
  weekday : o.settings.opensOn o.day = true
  fits : minutes (termsWithAddons o.terms o.addons).durationMaxMinutes ≤ o.window.endAt - o.window.startAt
  room : ∃ workstationId, allocate c db o.settings o.window o.day serviceId = .ok workstationId

/-- What only the listing asks: the switches of the service, nothing archived, a place on the page of the query, and
that no other window of the page has a master whose terms contradict each other. -/
structure Shown (c : Catalog) (serviceId : Nat) (staffMemberId : Option Nat) (k : Nat) (now : Int) (db : Db) :
    Prop where
  online : o.service.onlineBookingEnabled = true
  service : o.service.archivedAt = none
  member : o.member.archivedAt = none
  period : o.settings.inPeriod now o.window = true
  page : o.settings.rank now db k o.window < openWindowLimit
  terms : ∀ r ∈ o.settings.openWindows now db, ∀ assignment,
    c.bookableAssignment serviceId r.2.staffMemberId = some assignment →
      isCandidate c o.settings staffMemberId none r.2 = true → ∃ terms, effectiveTerms o.service assignment = .ok terms

/-- What only the booking asks: a new key, the subscription, a start ahead of now on a day of the booking period, and
a window that no other appointment is in the way of. -/
structure Taken (c : Catalog) (k : Nat) (key : String) (now : Int) (db : Db) : Prop where
  key : ∀ i r, db.reservations.row i = some r → r.idempotencyKey ≠ key
  subscription : c.newBookingsAllowed = true
  business : c.businessExists = true
  ahead : now < o.window.startAt
  period : o.settings.timezone.localDate now ≤ o.day ∧
    o.day ≤ o.settings.timezone.localDate now + o.settings.bookingHorizonDays
  free : db.appointments.All fun _ b => Db.LeavesFree k o.window b

end Offer

/-- The listing and the booking ask the same of a window. -/
def Agree (c : Catalog) (serviceId : Nat) (addonIds : List Nat) (staffMemberId : Option Nat) (k : Nat) (key : String)
    (now : Int) (db : Db) : Prop :=
  ∀ o : Offer, o.Shared c serviceId addonIds staffMemberId k db →
    (o.Shown c serviceId staffMemberId k now db ↔ o.Taken c k key now db)

theorem Offer.unique {o o' : Offer} (h : o.Shared c serviceId addonIds staffMemberId k db)
    (h' : o'.Shared c serviceId addonIds staffMemberId k db) : o = o' := by
  obtain ⟨settings, service, addons, window, member, assignment, terms⟩ := o
  obtain ⟨settings', service', addons', window', member', assignment', terms'⟩ := o'
  obtain rfl : settings = settings' := Option.some.inj (h.settings.symm.trans h'.settings)
  obtain rfl : service = service' := Except.ok.inj (h.service.symm.trans h'.service)
  obtain rfl : addons = addons' := Except.ok.inj (h.addons.symm.trans h'.addons)
  obtain rfl : window = window' := Option.some.inj (h.window.symm.trans h'.window)
  obtain rfl : member = member' := Option.some.inj (h.member.symm.trans h'.member)
  obtain rfl : assignment = assignment' := Except.ok.inj (h.assignment.symm.trans h'.assignment)
  obtain rfl : terms = terms' := Except.ok.inj (h.terms.symm.trans h'.terms)
  rfl

/-! ### The listing -/

section Listing

variable {service : Service} {addons : List ServiceAddon} {localDate : Option Int} {r : Nat × Window}
  {view : BookingWindowView}

theorem activeService_ok {service : Service} :
    activeService c serviceId = .ok service ↔ c.service serviceId = some service ∧ service.isActive = true := by
  simp only [activeService, Except.bind_ok, Except.orRaise_ok, Except.require_ok, Except.pure_ok, exists_const]
  constructor
  · rintro ⟨_, row, active, rfl⟩
    exact ⟨row, active⟩
  · rintro ⟨row, active⟩
    exact ⟨service, row, active, rfl⟩

theorem bookableMaster_ok {assignment : StaffServiceOverrides} : bookableMaster c w serviceId = .ok assignment ↔
    ∃ member, c.staff w.staffMemberId = some member ∧ (member.isActive = true ∧ member.isBookable = true) ∧
      c.assignment w.staffMemberId serviceId = some assignment ∧
      (assignment.isActive = true ∧ assignment.onlineBookingEnabled = true) ∧
      ∀ t ∈ member.schedulePausedUntil, ¬ w.startAt < t := by
  simp only [bookableMaster, Except.bind_ok, Except.orRaise_ok, Except.require_ok, Except.pure_ok, exists_const]
  constructor
  · rintro ⟨member, staff, active, _, row, enabled, open_, rfl⟩
    exact ⟨member, staff, active, row, enabled, open_⟩
  · rintro ⟨member, staff, active, row, enabled, open_⟩
    exact ⟨member, staff, active, assignment, row, enabled, open_, rfl⟩

theorem isCandidate_iff {member : StaffMember} (hmember : c.staff w.staffMemberId = some member) :
    isCandidate c settings staffMemberId none w = true ↔
      (∀ t ∈ member.schedulePausedUntil, ¬ w.startAt < t) ∧ (∀ s ∈ staffMemberId, w.staffMemberId = s) ∧
        settings.opensOn (settings.timezone.localDate w.startAt) = true := by
  rw [isCandidate, hmember, Option.bind_some]
  cases member.schedulePausedUntil <;> cases staffMemberId <;> simp [and_assoc]

/-- An eligible master of the listing is a master that `book` accepts, of a service that is switched on, with nothing
archived. -/
theorem eligible_iff {member : StaffMember} {assignment : StaffServiceOverrides}
    (hservice : activeService c serviceId = .ok service) (hmember : c.staff w.staffMemberId = some member) :
    (c.bookableAssignment serviceId w.staffMemberId = some assignment ∧
        isCandidate c settings staffMemberId none w = true) ↔
      (bookableMaster c w serviceId = .ok assignment ∧ (∀ s ∈ staffMemberId, w.staffMemberId = s) ∧
        settings.opensOn (settings.timezone.localDate w.startAt) = true) ∧
      service.onlineBookingEnabled = true ∧ service.archivedAt = none ∧ member.archivedAt = none := by
  obtain ⟨row, active⟩ := activeService_ok.mp hservice
  rw [bookableMaster_ok, isCandidate_iff hmember, Catalog.bookableAssignment, row, hmember]
  cases c.assignment w.staffMemberId serviceId with
  | none => simp
  | some found =>
    simp only [Option.ite_none_right_eq_some, Option.some.injEq, Bool.and_eq_true, Option.isNone_iff_eq_none, active,
      exists_eq_left', and_true]
    constructor
    · rintro ⟨⟨⟨⟨⟨⟨⟨enabled, online⟩, unarchived⟩, works⟩, bookable⟩, stays⟩, rfl⟩, pause, chosen, weekday⟩
      exact ⟨⟨⟨⟨works, bookable⟩, rfl, enabled, pause⟩, chosen, weekday⟩, online, unarchived, stays⟩
    · rintro ⟨⟨⟨⟨works, bookable⟩, rfl, enabled, pause⟩, chosen, weekday⟩, online, unarchived, stays⟩
      exact ⟨⟨⟨⟨⟨⟨⟨enabled, online⟩, unarchived⟩, works⟩, bookable⟩, stays⟩, rfl⟩, pause, chosen, weekday⟩

theorem availableWindow_ok :
    (∃ view?, availableWindow c settings service serviceId addons staffMemberId localDate db r = .ok view?) ↔
      ∀ assignment, c.bookableAssignment serviceId r.2.staffMemberId = some assignment →
        isCandidate c settings staffMemberId localDate r.2 = true →
          ∃ terms, effectiveTerms service assignment = .ok terms := by
  unfold availableWindow
  cases c.bookableAssignment serviceId r.2.staffMemberId with
  | none => simp
  | some assignment =>
    by_cases candidate : isCandidate c settings staffMemberId localDate r.2 = true
    · simp only [candidate, if_true, Option.some.injEq, forall_eq', forall_const, Except.bind_ok]
      constructor
      · rintro ⟨_, terms, h, -⟩
        exact ⟨terms, h⟩
      · rintro ⟨terms, h⟩
        have total : ∀ (p : Prop) [Decidable p] (x y : Option BookingWindowView),
            ∃ view?, (if p then pure x else pure y : Check (Option BookingWindowView)) = .ok view? := by
          intro p _ x y
          split <;> exact ⟨_, rfl⟩
        exact (total _ _ _).imp fun _ result => ⟨terms, h, result⟩
    · simp [candidate]

theorem availableWindow_some :
    availableWindow c settings service serviceId addons staffMemberId localDate db r = .ok (some view) ↔
      ∃ assignment terms, c.bookableAssignment serviceId r.2.staffMemberId = some assignment ∧
        isCandidate c settings staffMemberId localDate r.2 = true ∧ effectiveTerms service assignment = .ok terms ∧
        minutes (termsWithAddons terms addons).durationMaxMinutes ≤ r.2.endAt - r.2.startAt ∧
        (∃ x, allocate c db settings r.2 (settings.timezone.localDate r.2.startAt) serviceId = .ok x) ∧
        view = ⟨r.1, r.2.startAt, r.2.endAt, r.2.staffMemberId, some (termsWithAddons terms addons)⟩ := by
  have room : (∃ x, allocate c db settings r.2 (settings.timezone.localDate r.2.startAt) serviceId = .ok x) ↔
      c.hasAvailableExcept db serviceId r.2.startAt r.2.endAt none = true ∧
        db.countCapacityBetween (settings.timezone.utcDayBounds (settings.timezone.localDate r.2.startAt)).1
          (settings.timezone.utcDayBounds (settings.timezone.localDate r.2.startAt)).2 r.2.staffMemberId none <
            settings.maxAppointmentsPerDay := by
    simp only [allocate, Except.require_bind_ok, Except.orRaise_ok, exists_and_left, hasAvailableExcept_iff, not_le]
    exact and_comm
  unfold availableWindow
  cases c.bookableAssignment serviceId r.2.staffMemberId with
  | none => simp
  | some assignment =>
    by_cases candidate : isCandidate c settings staffMemberId localDate r.2 = true
    · simp only [candidate, if_true, Except.bind_ok, room, Option.some.injEq, exists_and_left, exists_eq_left',
        true_and]
      refine exists_congr fun terms => and_congr_right fun _ => ?_
      constructor
      · intro h
        split at h
        · next passes =>
          cases h
          exact ⟨passes.1, passes.2, rfl⟩
        · cases h
      · rintro ⟨fits, rest, rfl⟩
        rw [if_pos ⟨fits, rest⟩]
        rfl
    · simp [candidate]

theorem listed_iff (consented : ∃ clientId, consentedClient c telegramId false = .ok clientId) :
    Listed c telegramId serviceId addonIds staffMemberId k now db ↔
      ∃ o : Offer, o.Shared c serviceId addonIds staffMemberId k db ∧ o.Shown c serviceId staffMemberId k now db := by
  obtain ⟨clientId, consented⟩ := consented
  simp only [Listed, listAvailability, Catalog.requireSettings, Except.bind_ok, Except.orRaise_ok, Except.require_ok,
    Except.pure_ok, exists_const]
  constructor
  · rintro ⟨_, ⟨_, feature, _, _, settings, configured, service, hservice, addons, haddons, _, views?, hviews, rfl⟩,
      view, hview, rfl⟩
    obtain ⟨r, hr, round⟩ := Except.mem_mapM hviews (some view) (by simpa using hview)
    obtain ⟨assignment, terms, bookable, candidate, hterms, fits, room, rfl⟩ := availableWindow_some.mp round
    obtain ⟨member, hmember⟩ : ∃ member, c.staff r.2.staffMemberId = some member := by
      rw [Catalog.bookableAssignment] at bookable
      split at bookable
      · exact ⟨_, by assumption⟩
      · cases bookable
    obtain ⟨⟨hmaster, chosen, weekday⟩, online, unarchived, stays⟩ :=
      (eligible_iff hservice hmember).mp ⟨bookable, candidate⟩
    obtain ⟨⟨row, period⟩, page⟩ := mem_openWindows.mp hr
    refine ⟨⟨settings, service, addons, r.2, member, assignment, terms⟩, ⟨feature, configured, hservice, haddons, row,
      ?_, chosen, hmember, hmaster, hterms, weekday, fits, room⟩, online, unarchived, stays, period, page, ?_⟩
    · simp only [BusinessSettings.inPeriod, Bool.and_eq_true, beq_iff_eq] at period
      exact period.1
    · intro r' hr'
      exact availableWindow_ok.mp (Except.mapM_ok_iff.mp ⟨_, hviews⟩ r' hr')
  · rintro ⟨o, shared, shown⟩
    obtain ⟨bookable, candidate⟩ := (eligible_iff shared.service shared.member).mpr
      ⟨⟨shared.assignment, shared.chosen, shared.weekday⟩, shown.online, shown.service, shown.member⟩
    obtain ⟨views?, hviews⟩ := Except.mapM_ok_iff.mpr fun r hr => availableWindow_ok.mpr (shown.terms r hr)
    have hr : (k, o.window) ∈ o.settings.openWindows now db :=
      mem_openWindows.mpr ⟨⟨shared.window, shown.period⟩, shown.page⟩
    have round : availableWindow c o.settings o.service serviceId o.addons staffMemberId none db (k, o.window) =
        .ok (some ⟨k, o.window.startAt, o.window.endAt, o.window.staffMemberId,
          some (termsWithAddons o.terms o.addons)⟩) :=
      availableWindow_some.mpr
        ⟨o.assignment, o.terms, bookable, candidate, shared.terms, shared.fits, shared.room, rfl⟩
    have listed := Except.mem_of_mapM hviews hr round
    refine ⟨_, ⟨(), shared.feature, clientId, consented, o.settings, shared.settings, o.service, shared.service,
      o.addons, shared.addons, ?_, views?, hviews, rfl⟩, _, List.mem_filterMap.mpr ⟨_, listed, rfl⟩, rfl⟩
    intro s hs
    obtain rfl := shared.chosen s hs
    rw [bookable]
    rfl

end Listing

/-! ### The booking -/

section Booking

variable {service : Service} {assignment : StaffServiceOverrides} {terms : EffectiveServiceTerms}
  {addons : List ServiceAddon} {clientId : Nat} {values : BookingRequest} {addonSnapshots : Nat → List Nat}

theorem existingCheckout_none : existingCheckout c telegramId values addonSnapshots db = .ok none ↔
    ∀ i r, db.reservations.row i = some r → r.idempotencyKey ≠ values.checkoutIdempotencyKey := by
  constructor
  · intro h i r row same
    unfold existingCheckout at h
    split at h
    · next unknown =>
      have other := Table.find_eq_none.mp unknown i r row
      simp [same] at other
    · simp only [Except.bind_ok, Except.orRaise_ok, Except.require_ok, Except.pure_ok, exists_const] at h
      obtain ⟨_, _, _, _, _, _, _, _, _, _, _, _, _, _, _, _, _, _, h⟩ := h
      cases h
  · intro h
    rw [existingCheckout, Table.find_eq_none.mpr fun i r row => by simpa using h i r row]
    rfl

theorem paymentPolicy_disabled (disabled : ∀ p ∈ c.paymentSettings, p.mode = .disabled) :
    paymentPolicy c c.paymentSettings terms = .ok (.disabled, 0) := by
  unfold paymentPolicy
  split
  · rfl
  · next p h =>
    rw [if_pos (.inl (disabled p h))]
    rfl

theorem effectiveTerms_ok (h : effectiveTerms service assignment = .ok terms) :
    (0 ≤ terms.price ∧ 0 < terms.durationMinMinutes ∧ terms.durationMinMinutes ≤ terms.durationMaxMinutes) ∧
      terms.onlineBookingEnabled = (service.isActive && assignment.onlineBookingEnabled && assignment.isActive) := by
  simp only [effectiveTerms, resolveServiceTerms, Except.require_bind_ok, Except.pure_ok, not_or, not_not,
    not_lt] at h
  obtain ⟨valid, -, -, -, rfl⟩ := h
  exact ⟨⟨valid.1, valid.2⟩, rfl⟩

theorem addons_sums : ∀ addons : List ServiceAddon,
    (∀ addon ∈ addons, 0 ≤ addon.price ∧ addon.durationMinMinutes ≤ addon.durationMaxMinutes) →
    0 ≤ (addons.map fun a => a.price).sum ∧
      (addons.map fun a => a.durationMinMinutes).sum ≤ (addons.map fun a => a.durationMaxMinutes).sum := by
  intro addons checked
  induction addons with
  | nil => simp
  | cons addon addons ih =>
    obtain ⟨first, rest⟩ := List.forall_mem_cons.mp checked
    obtain ⟨price, duration⟩ := ih rest
    simp only [List.map_cons, List.sum_cons]
    exact ⟨Int.add_nonneg first.1 price, by omega⟩

theorem termsWithAddons_valid (hc : c.AddonChecks) (haddons : selectedAddons c serviceId addonIds = .ok addons)
    (valid : 0 ≤ terms.price ∧ 0 < terms.durationMinMinutes ∧ terms.durationMinMinutes ≤ terms.durationMaxMinutes) :
    0 ≤ (termsWithAddons terms addons).price ∧ 0 < (termsWithAddons terms addons).durationMinMinutes ∧
      (termsWithAddons terms addons).durationMinMinutes ≤ (termsWithAddons terms addons).durationMaxMinutes := by
  have checked : ∀ addon ∈ addons, 0 ≤ addon.price ∧ addon.durationMinMinutes ≤ addon.durationMaxMinutes := by
    intro addon hmem
    simp only [selectedAddons, Except.require_bind_ok] at haddons
    obtain ⟨i, -, hi⟩ := Except.mem_mapM haddons.2 addon hmem
    obtain ⟨row, -⟩ := Option.filter_eq_some_iff.mp (Except.orRaise_ok.mp hi)
    have checks := hc i addon row
    exact ⟨checks.1, checks.2.2⟩
  obtain ⟨price, duration⟩ := addons_sums addons checked
  refine ⟨Int.add_nonneg valid.1 price, ?_, ?_⟩
  · show 0 < terms.durationMinMinutes + _
    omega
  · show terms.durationMinMinutes + _ ≤ terms.durationMaxMinutes + _
    omega

theorem bookingPlan_iff (disabled : ∀ p ∈ c.paymentSettings, p.mode = .disabled)
    (consented : consentedClient c telegramId false = .ok clientId)
    (limit : ∀ s, c.settings = some s → enforceFutureBookingLimit c db s clientId now none = .ok ())
    {plan : BookingPlan} :
    bookingPlan c telegramId (windowRequest serviceId addonIds staffMemberId k key token) now false none db = .ok plan ↔
      ∃ o : Offer, o.Shared c serviceId addonIds staffMemberId k db ∧
        (c.newBookingsAllowed = true ∧ c.businessExists = true ∧ now < o.window.startAt ∧
          o.settings.timezone.localDate now ≤ o.day ∧
          o.day ≤ o.settings.timezone.localDate now + o.settings.bookingHorizonDays) ∧
        ∃ workstationId, allocate c db o.settings o.window o.day serviceId = .ok workstationId ∧
          plan = ⟨o.window, clientId, termsWithAddons o.terms o.addons, workstationId, .disabled, 0⟩ := by
  simp only [bookingPlan, windowRequest, requireReferenceFeature, checkDesign, Catalog.requireSettings,
    validateBookableDate_ok, validateServiceFitsWindow, Except.bind_ok, Except.orRaise_ok, Except.require_ok,
    Except.pure_ok, exists_const, if_true]
  constructor
  · rintro ⟨subscription, _, feature, -, settings, configured, business, w, row, isOpen, _, chosen, client, hclient, _,
      -, service, hservice, assignment, hmaster, addons, haddons, terms, hterms, -, -, day,
      ⟨ahead, period, weekday, -⟩, fits, -, workstationId, room, _, -, _, -, policy, hpolicy, rfl⟩
    obtain ⟨member, hmember, -⟩ := bookableMaster_ok.mp hmaster
    rw [consented] at hclient
    rw [paymentPolicy_disabled disabled] at hpolicy
    cases hclient
    cases hpolicy
    exact ⟨⟨settings, service, addons, w, member, assignment, terms⟩,
      ⟨feature, configured, hservice, haddons, row, isOpen, Except.require_ok.mp chosen, hmember, hmaster, hterms,
        weekday, not_lt.mp fits, workstationId, room⟩, ⟨subscription, business, ahead, period⟩, workstationId, room, rfl⟩
  · rintro ⟨o, shared, ⟨subscription, business, ahead, period⟩, workstationId, room, rfl⟩
    obtain ⟨-, active⟩ := activeService_ok.mp shared.service
    obtain ⟨-, -, -, -, ⟨enabled, online⟩, -⟩ := bookableMaster_ok.mp shared.assignment
    have offered : (termsWithAddons o.terms o.addons).onlineBookingEnabled = true := by
      show o.terms.onlineBookingEnabled = true
      rw [(effectiveTerms_ok shared.terms).2, active, online, enabled]
      rfl
    exact ⟨subscription, (), shared.feature, trivial, o.settings, shared.settings, business, o.window, shared.window,
      shared.isOpen, (), Except.require_ok.mpr shared.chosen, clientId, consented, (), limit _ shared.settings,
      o.service, shared.service, o.assignment, shared.assignment, o.addons, shared.addons, o.terms, shared.terms,
      offered, trivial, o.day, ⟨ahead, period, shared.weekday, rfl⟩, not_lt.mpr shared.fits, rfl, workstationId, room, (),
      Except.require_ok.mpr (by simp), (), Except.require_ok.mpr .nil, _, paymentPolicy_disabled disabled, rfl⟩

/-- The plan of a booking without prepayment commits when no other appointment is in its way. -/
theorem placeBooking_iff (hc : db.Checks) (addonChecks : c.AddonChecks) {o : Offer} {workstationId : Nat}
    (shared : o.Shared c serviceId addonIds staffMemberId k db)
    (room : allocate c db o.settings o.window o.day serviceId = .ok workstationId) (hkey : values.windowId = k) :
    (∃ r, placeBooking c ⟨o.window, clientId, termsWithAddons o.terms o.addons, workstationId, .disabled, 0⟩ values now
        db = .ok r) ↔ db.appointments.All fun _ b => Db.LeavesFree k o.window b := by
  let plan : BookingPlan :=
    ⟨o.window, clientId, termsWithAddons o.terms o.addons, workstationId, .disabled, 0⟩
  have valid : Db.validAppointment (newAppointment plan values) := by
    obtain ⟨price, least, most⟩ :=
      termsWithAddons_valid addonChecks shared.addons (effectiveTerms_ok shared.terms).1
    exact ⟨price, le_rfl, least, most, (hc.windows k o.window shared.window).1⟩
  have compatible : ∀ i b, db.appointments.row i = some b →
      (Db.CompatibleAppointments (newAppointment plan values) b ↔ Db.LeavesFree k o.window b) := by
    intro i b row
    rw [Db.compatible_iff (w := o.window) (k := k) rfl ⟨rfl, hkey, rfl, rfl⟩ fun occupies same => ?_]
    · exact and_iff_left (by rintro ⟨⟩)
    · simp only [allocate, Except.require_bind_ok, Except.orRaise_ok] at room
      exact allocateAvailable_free room.2 row (by simp) occupies same.symm
  have windows := Db.windowChecks_put (s := .booked) hc.windows shared.window fun _ => by rw [shared.isOpen]; rfl
  have checks : ∀ history, (Db.Checks { db with
      windows := db.windows.put k { o.window with status := .booked }
      appointments := db.appointments.insert (newAppointment plan values)
      history }) ↔ db.appointments.All fun _ b => Db.LeavesFree k o.window b := by
    intro history
    constructor
    · intro h i b row
      exact (compatible i b row).mp ((Db.appointmentChecks_insert.mp h.appointments).2.2 i b row)
    · intro free
      have appointments := Db.appointmentChecks_insert.mpr
        ⟨hc.appointments, valid, fun i b row => (compatible i b row).mpr (free i b row)⟩
      exact ⟨windows, appointments, hc.reservations, hc.payments, hc.refunds, hc.events⟩
  simp only [placeBooking, if_true, Except.bind_ok, Except.pure_ok, Db.commit_ok, hkey]
  constructor
  · rintro ⟨_, _, rfl, _, ⟨h, rfl⟩, -⟩
    exact (checks _).mp h
  · exact fun free => ⟨_, _, rfl, _, ⟨(checks _).mpr free, rfl⟩, rfl⟩

theorem windowRequest_windowId : (windowRequest serviceId addonIds staffMemberId k key token).windowId = k := rfl

theorem booked_iff (hc : db.Checks) (addonChecks : c.AddonChecks)
    (disabled : ∀ p ∈ c.paymentSettings, p.mode = .disabled)
    (consented : consentedClient c telegramId false = .ok clientId)
    (limit : ∀ s, c.settings = some s → enforceFutureBookingLimit c db s clientId now none = .ok ()) :
    Books c telegramId (windowRequest serviceId addonIds staffMemberId k key token) addonSnapshots now db ↔
      ∃ o : Offer, o.Shared c serviceId addonIds staffMemberId k db ∧ o.Taken c k key now db := by
  rw [Books, existingCheckout_none]
  simp only [book, Except.mapError_ok, Except.bind_ok, bookingPlan_iff disabled consented limit]
  constructor
  · rintro ⟨new, r, _, ⟨o, shared, ⟨subscription, business, ahead, period⟩, workstationId, room, rfl⟩, placed⟩
    have free := (placeBooking_iff hc addonChecks shared room windowRequest_windowId).mp ⟨r, placed⟩
    exact ⟨o, shared, new, subscription, business, ahead, period, free⟩
  · rintro ⟨o, shared, taken⟩
    obtain ⟨workstationId, room⟩ := shared.room
    obtain ⟨r, placed⟩ := (placeBooking_iff hc addonChecks shared room windowRequest_windowId).mpr taken.free
    exact ⟨taken.key, r, _, ⟨o, shared, ⟨taken.subscription, taken.business, taken.ahead, taken.period⟩, workstationId,
      room, rfl⟩, placed⟩

end Booking

/-- For a consented client under her limits and without prepayments, a window is in the list exactly when booking it
would succeed, for every window on which the two sets of conditions agree and no other. -/
theorem listed_iff_booked (serviceId : Nat) (addonIds : List Nat) (staffMemberId : Option Nat) (k : Nat)
    (key token : String) (addonSnapshots : Nat → List Nat) (hc : db.Checks) (addonChecks : c.AddonChecks)
    (disabled : ∀ p ∈ c.paymentSettings, p.mode = .disabled) {clientId : Nat}
    (consented : consentedClient c telegramId false = .ok clientId)
    (limit : ∀ s, c.settings = some s → enforceFutureBookingLimit c db s clientId now none = .ok ()) :
    (Listed c telegramId serviceId addonIds staffMemberId k now db ↔
      Books c telegramId (windowRequest serviceId addonIds staffMemberId k key token) addonSnapshots now db) ↔
    Agree c serviceId addonIds staffMemberId k key now db := by
  rw [listed_iff ⟨clientId, consented⟩, booked_iff hc addonChecks disabled consented limit]
  exact exists_iff_exists fun _ _ => Offer.unique

/-! ### The salon -/

instance : Decidable (Listed c telegramId serviceId addonIds staffMemberId k now db) :=
  inferInstanceAs (Decidable (∃ _, _ ∧ _))

instance {values : BookingRequest} {addonSnapshots : Nat → List Nat} :
    Decidable (Books c telegramId values addonSnapshots now db) :=
  have : Decidable (existingCheckout c telegramId values addonSnapshots db = .ok none) :=
    decidable_of_iff (db.reservations.All fun _ r => r.idempotencyKey ≠ values.checkoutIdempotencyKey)
      existingCheckout_none.symm
  inferInstanceAs (Decidable (_ ∧ ∃ _, _))

/-- A master's window on the second day. -/
def oneWindow : Db := (Sys.empty.step ⟨salon .disabled, 0, Salon.openWindow 8⟩).db

/-- The same salon takes no online bookings for its service. -/
def offlineService : Catalog :=
  { salon .disabled with
    service := fun i => ((salon .disabled).service i).map fun s => { s with onlineBookingEnabled := false } }

/-- The request of the second client for the window. -/
def firstRequest : BookingRequest := windowRequest 1 [] none 1 "checkout-00000002" "reservation-token-00000000000002"

theorem listed_iff_booked_oneWindow :
    Listed (salon .disabled) 2 1 [] none 1 0 oneWindow ∧
      Agree (salon .disabled) 1 [] none 1 "checkout-00000002" 0 oneWindow := by
  have listed : Listed (salon .disabled) 2 1 [] none 1 0 oneWindow := by decide +kernel
  have booked : Books (salon .disabled) 2 firstRequest (fun _ => []) 0 oneWindow := by decide +kernel
  have disabled : ∀ p ∈ (salon .disabled).paymentSettings, p.mode = .disabled := by
    rintro p hp
    cases Option.mem_some_iff.mp hp
    rfl
  have limit : ∀ s, (salon .disabled).settings = some s →
      enforceFutureBookingLimit (salon .disabled) oneWindow s 2 0 none = .ok () := by
    intro s hs
    cases Option.some.inj hs
    decide +kernel
  have addons : (salon .disabled).AddonChecks := fun _ _ (row : none = some _) => by cases row
  have agreed := listed_iff_booked 1 [] none 1 "checkout-00000002" "reservation-token-00000000000002" (fun _ => [])
    (by decide +kernel : oneWindow.Checks) addons disabled
    (by decide +kernel : consentedClient (salon .disabled) 2 false = .ok 2) limit
  exact ⟨listed, agreed.mp ⟨fun _ => booked, fun _ => listed⟩⟩

/-- A window that starts now is listed and refused; a service that is not offered online is booked without being
listed. -/
theorem listed_not_booked :
    (Listed (salon .disabled) 2 1 [] none 1 (days 1 + hours 8) oneWindow ∧
      ¬ Books (salon .disabled) 2 firstRequest (fun _ => []) (days 1 + hours 8) oneWindow) ∧
    (¬ Listed offlineService 2 1 [] none 1 0 oneWindow ∧
      Books offlineService 2 firstRequest (fun _ => []) 0 oneWindow) := by
  decide +kernel

end BookingService

end SalonBooking
