import SalonBooking.Moves.Links
import SalonBooking.Slots.Book

/-!
# The tables refine the book

Each move of the system is a step of the book (`Agrees.step`). The lemmas before it treat one kind of
write each: they rewrite the looked-up rows with `row_put_of_some` and leave the eight fields of
`Agrees` to case splits on "is it the row just written?".
-/

namespace SalonBooking

open Lib Function
open AppointmentStatus (not_occupies_iff not_active_of_pending not_pending_of_active)

/-- A refund may start whose appointment is still an active one. -/
def RequestsActive (may : Db → Effect → Prop) (db : Db) : Prop :=
  ∃ pid p a, may db (.request pid) ∧ db.payments.row pid = some p ∧ db.appointments.row p.appointmentId = some a ∧
    a.status.isActive = true

namespace Agrees

variable {db : Db} {σ : Nat → Slot} {k k' i j staff : Nat} {w w' : Window} {a a' : Appointment}
  {r r' : Reservation} {s : WindowStatus}

/-! ### Windows alone -/

theorem setWindow (h : Agrees db σ) (row : db.windows.row k = some w) (before : w.status.isHeld = false)
    (after : s.isHeld = false) (events history) :
    Agrees { db with windows := db.windows.put k { w with status := s }, events, history } σ := by
  have hfree := h.free_of_not_held row before
  have hs := WindowStatus.not_isHeld_iff.mp after
  obtain ⟨h₁, h₂, h₃, h₄, h₅, h₆, h₇, h₈⟩ := h
  constructor <;> simp only [Table.row_put_of_some row] <;> grind

theorem createWindow (h : Agrees db σ) (status : w.status.isHeld = false) (events history) :
    Agrees { db with windows := db.windows.insert w, events, history } σ := by
  have hfree := h.absent _ (db.windows.bounded _ le_rfl)
  have hs := WindowStatus.not_isHeld_iff.mp status
  obtain ⟨h₁, h₂, h₃, h₄, h₅, h₆, h₇, h₈⟩ := h
  constructor <;> simp only [Table.row_insert] <;> grind

theorem deleteWindow (h : Agrees db σ) (row : db.windows.row k = some w) (status : w.status.isHeld = false)
    (events history) : Agrees { db with windows := db.windows.erase k, events, history } σ := by
  have hfree := h.free_of_not_held row status
  obtain ⟨h₁, h₂, h₃, h₄, h₅, h₆, h₇, h₈⟩ := h
  constructor <;> simp only [Table.row_erase] <;> grind

/-! ### Taking and holding a free slot -/

theorem place (h : Agrees db σ) (row : db.windows.row k = some w) (free : w.status = .open)
    (window : a.windowId = k) (status : a.status = .confirmed) (events history) :
    Agrees { db with
      windows := db.windows.put k { w with status := .booked }
      appointments := db.appointments.insert a, events, history }
      (update σ k (.taken db.appointments.next)) := by
  have hfree := h.free_of_open row free
  have hnew := db.appointments.bounded _ le_rfl
  have hp : a.status.isPending = false := by rw [status]; rfl
  have ha : a.status.isActive = true := by rw [status]; rfl
  obtain ⟨h₁, h₂, h₃, h₄, h₅, h₆, h₇, h₈⟩ := h
  constructor <;> simp only [Table.row_put_of_some row, Table.row_insert, update_apply] <;> grind

theorem hold (h : Agrees db σ) (row : db.windows.row k = some w) (free : w.status = .open)
    (window : a.windowId = k) (status : a.status = .pendingPayment) (live : r.status = .active)
    (appointmentId : r.appointmentId = some db.appointments.next) (agrees : ReservationService.Matches r a)
    (payments events history) :
    Agrees { db with
      windows := db.windows.put k { w with status := .reserved }
      appointments := db.appointments.insert a
      reservations := db.reservations.insert r
      payments, events, history } (update σ k (.held db.appointments.next db.reservations.next)) := by
  have hfree := h.free_of_open row free
  have hnew := db.appointments.bounded _ le_rfl
  have hnew' := db.reservations.bounded _ le_rfl
  have hp : a.status.isPending = true := by rw [status]; rfl
  have ha : a.status.isActive = false := by rw [status]; rfl
  have hl : r.status.isLive = true := by rw [live]; rfl
  have hrk : r.windowId = k := agrees.2.2.1.trans window
  obtain ⟨h₁, h₂, h₃, h₄, h₅, h₆, h₇, h₈⟩ := h
  constructor <;> simp only [Table.row_put_of_some row, Table.row_insert, update_apply]
  case pending =>
    intro i₀ a₀ ha₀ hp₀
    split at ha₀
    · next hi => cases ha₀; exact ⟨db.reservations.next, by rw [if_pos window, hi]⟩
    · -- an older pending appointment holds another slot
      obtain ⟨j₀, hj₀⟩ := h₄ i₀ a₀ ha₀ hp₀
      exact ⟨j₀, by rw [if_neg (by rintro rfl; rw [hfree] at hj₀; cases hj₀), hj₀]⟩
  case live =>
    intro j₀ r₀ hr₀ hl₀
    split at hr₀
    · next hj => cases hr₀; exact ⟨db.appointments.next, by rw [if_pos hrk, hj]⟩
    · obtain ⟨i₀, hi₀⟩ := h₆ j₀ r₀ hr₀ hl₀
      exact ⟨i₀, by rw [if_neg (by rintro rfl; rw [hfree] at hi₀; cases hi₀), hi₀]⟩
  all_goals grind [ReservationService.Matches]

/-! ### A held slot -/

theorem confirm (h : Agrees db σ) (held : σ k = .held i j) (window : db.windows.row k = some w)
    (appointment : db.appointments.row i = some a) (reservation : db.reservations.row j = some r)
    (at_window : a'.windowId = k) (active : a'.status.isActive = true) (gone : r'.status.isLive = false)
    (events history) :
    Agrees { db with
      windows := db.windows.put k { w with status := .booked }
      appointments := db.appointments.put i a'
      reservations := db.reservations.put j r', events, history } (update σ k (.taken i)) := by
  have hnp := not_pending_of_active active
  obtain ⟨h₁, h₂, h₃, h₄, h₅, h₆, h₇, h₈⟩ := h
  constructor <;> simp only [Table.row_put_of_some window, Table.row_put_of_some appointment,
    Table.row_put_of_some reservation, update_apply] <;> grind

theorem release (h : Agrees db σ) (held : σ k = .held i j) (window : db.windows.row k = some w)
    (appointment : db.appointments.row i = some a) (reservation : db.reservations.row j = some r)
    (gone : a'.status.occupies = false) (gone' : r'.status.isLive = false) (payments events history) :
    Agrees { db with
      windows := db.windows.put k { w with status := .open }
      appointments := db.appointments.put i a'
      reservations := db.reservations.put j r', payments, events, history } (update σ k .free) := by
  have hp := not_occupies_iff.mp gone
  obtain ⟨h₁, h₂, h₃, h₄, h₅, h₆, h₇, h₈⟩ := h
  constructor <;> simp only [Table.row_put_of_some window, Table.row_put_of_some appointment,
    Table.row_put_of_some reservation, update_apply] <;> grind

theorem keepHeld (h : Agrees db σ) (held : σ k = .held i j) (appointment : db.appointments.row i = some a)
    (reservation : db.reservations.row j = some r) (window : a'.windowId = a.windowId)
    (pending : a'.status.isPending = true) (live : r'.status.isLive = true) (window' : r'.windowId = r.windowId)
    (belongs : r'.appointmentId = r.appointmentId) (agrees : ReservationService.Matches r' a')
    (payments events history) :
    Agrees { db with
      appointments := db.appointments.put i a'
      reservations := db.reservations.put j r', payments, events, history } σ := by
  have hnp := not_active_of_pending pending
  obtain ⟨h₁, h₂, h₃, h₄, h₅, h₆, h₇, h₈⟩ := h
  constructor <;> simp only [Table.row_put_of_some appointment, Table.row_put_of_some reservation] <;> grind

/-! ### A taken slot -/

theorem keepTaken (h : Agrees db σ) (row : db.appointments.row i = some a) (active : a.status.isActive = true)
    (window : a'.windowId = a.windowId) (active' : a'.status.isActive = true) (events history) :
    Agrees { db with appointments := db.appointments.put i a', events, history } σ := by
  have htaken := h.active i a row active
  have hnp := not_pending_of_active active'
  obtain ⟨h₁, h₂, h₃, h₄, h₅, h₆, h₇, h₈⟩ := h
  constructor <;> simp only [Table.row_put_of_some row] <;> grind

theorem vacate (h : Agrees db σ) (row : db.appointments.row i = some a) (active : a.status.isActive = true)
    (window : db.windows.row a.windowId = some w) (free : s.isHeld = false) (gone : a'.status.occupies = false)
    (events history) :
    Agrees { db with
      windows := db.windows.put a.windowId { w with status := s }
      appointments := db.appointments.put i a', events, history } (update σ a.windowId .free) := by
  have htaken := h.active i a row active
  have hs := WindowStatus.not_isHeld_iff.mp free
  have hp := not_occupies_iff.mp gone
  obtain ⟨h₁, h₂, h₃, h₄, h₅, h₆, h₇, h₈⟩ := h
  constructor <;> simp only [Table.row_put_of_some window, Table.row_put_of_some row, update_apply] <;> grind

/-- A refund takes the appointment out of its slot and leaves the window as it is. -/
theorem abandon (h : Agrees db σ) (row : db.appointments.row i = some a) (active : a.status.isActive = true)
    (gone : a'.status.occupies = false) (payments refunds events history) :
    Agrees { db with appointments := db.appointments.put i a', payments, refunds, events, history }
      (update σ a.windowId .abandoned) := by
  have htaken := h.active i a row active
  have hp := not_occupies_iff.mp gone
  obtain ⟨h₁, h₂, h₃, h₄, h₅, h₆, h₇, h₈⟩ := h
  constructor <;> simp only [Table.row_put_of_some row, update_apply] <;> grind

theorem offBook (h : Agrees db σ) (row : db.appointments.row i = some a) (off : a.status.occupies = false)
    (off' : a'.status.occupies = false) (payments refunds events history) :
    Agrees { db with appointments := db.appointments.put i a', payments, refunds, events, history } σ := by
  have hp := not_occupies_iff.mp off
  have hp' := not_occupies_iff.mp off'
  obtain ⟨h₁, h₂, h₃, h₄, h₅, h₆, h₇, h₈⟩ := h
  constructor <;> simp only [Table.row_put_of_some row] <;> grind

/-! ### Moving to another window -/

theorem moveHeld (h : Agrees db σ) (row : db.appointments.row i = some a) (held : σ a.windowId = .held i j)
    (reservation : db.reservations.row j = some r) (pending : a.status.isPending = true)
    (window : db.windows.row a.windowId = some w) (target : db.windows.row k' = some w')
    (other : a.windowId ≠ k') (free : w'.status = .open) (events history) :
    Agrees { db with
      windows := (db.windows.put a.windowId { w with status := .open }).put k' { w' with status := .reserved }
      appointments := db.appointments.put i { a with staffMemberId := staff, windowId := k' }
      reservations := db.reservations.put j { r with staffMemberId := staff, windowId := k' }
      events, history } (update (update σ a.windowId .free) k' (σ a.windowId)) := by
  have hfree := h.free_of_open target free
  have htarget : (db.windows.put a.windowId { w with status := .open }).row k' = some w' := by
    rw [Table.row_put_of_some window, if_neg (Ne.symm other), target]
  have hnp := not_active_of_pending pending
  obtain ⟨h₁, h₂, h₃, h₄, h₅, h₆, h₇, h₈⟩ := h
  obtain ⟨a₀, r₀, ha₀, hr₀, hm⟩ := h₇ _ i j held
  rw [row] at ha₀; cases ha₀
  rw [reservation] at hr₀; cases hr₀
  simp only [ReservationService.Matches] at *
  constructor <;> simp only [Table.row_put_of_some htarget, Table.row_put_of_some window,
    Table.row_put_of_some row, Table.row_put_of_some reservation, update_apply]
  case held =>
    intro k₁ i₁ j₁ hk
    split at hk
    · -- the slot the pair has moved to
      next hk₁ =>
      rw [held] at hk; cases hk
      exact ⟨_, _, if_pos rfl, if_pos rfl, hk₁.symm, pending, hm.2.2.1, hm.2.2.2.1, hm.2.2.2.2.1, rfl, rfl,
        hm.2.2.2.2.2.2.2⟩
    · split at hk
      · cases hk
      · next hk₂ =>
        obtain ⟨a₁, r₁, ha₁, hr₁, hm₁⟩ := h₇ k₁ i₁ j₁ hk
        refine ⟨a₁, r₁, ?_, ?_, hm₁⟩ <;> grind
  all_goals grind

theorem moveTaken (h : Agrees db σ) (row : db.appointments.row i = some a) (active : a.status.isActive = true)
    (window : db.windows.row a.windowId = some w) (target : db.windows.row k' = some w')
    (other : a.windowId ≠ k') (free : w'.status = .open) (reservations)
    (live : ∀ j r, r.status.isLive = true → (reservations.row j = some r ↔ db.reservations.row j = some r))
    (events history) :
    Agrees { db with
      windows := (db.windows.put a.windowId { w with status := .open }).put k' { w' with status := .booked }
      appointments := db.appointments.put i { a with staffMemberId := staff, windowId := k' }
      reservations, events, history } (update (update σ a.windowId .free) k' (σ a.windowId)) := by
  have hfree := h.free_of_open target free
  have htaken := h.active i a row active
  have htarget : (db.windows.put a.windowId { w with status := .open }).row k' = some w' := by
    rw [Table.row_put_of_some window, if_neg (Ne.symm other), target]
  have hnp := not_pending_of_active active
  obtain ⟨h₁, h₂, h₃, h₄, h₅, h₆, h₇, h₈⟩ := h
  constructor <;> simp only [Table.row_put_of_some htarget, Table.row_put_of_some window,
    Table.row_put_of_some row, update_apply] <;> grind

theorem succeed {b : Appointment} (h : Agrees db σ) (row : db.appointments.row i = some a)
    (active : a.status.isActive = true) (window : db.windows.row a.windowId = some w)
    (target : db.windows.row k' = some w') (other : a.windowId ≠ k') (free : w'.status = .open)
    (left : s.isHeld = false) (at_target : b.windowId = k') (status : b.status = .confirmed)
    (gone : a'.status.occupies = false) (events history) :
    Agrees { db with
      windows := (db.windows.put a.windowId { w with status := s }).put k' { w' with status := .booked }
      appointments := (db.appointments.put i a').insert b, events, history }
      (update (update σ a.windowId .free) k' (.taken db.appointments.next)) := by
  have hv := h.vacate row active window left gone db.events db.history
  have htarget : (db.windows.put a.windowId { w with status := s }).row k' = some w' := by
    rw [Table.row_put_of_some window, if_neg (Ne.symm other), target]
  exact hv.place htarget free at_target status events history

/-! ### Every move is a step of the book -/

theorem slot_of_live (h : Agrees db σ) (row : db.reservations.row j = some r) (live : r.status.isLive = true)
    (belongs : r.appointmentId = some i) : σ r.windowId = .held i j := by
  obtain ⟨i', hi⟩ := h.live j r row live
  obtain ⟨a', r', -, hr', -, -, -, hi', -⟩ := h.held _ _ _ hi
  rw [row] at hr'; cases hr'
  rw [belongs] at hi'; cases hi'
  exact hi

theorem reservation_of_pending (h : Agrees db σ) (row : db.appointments.row i = some a)
    (pending : a.status.isPending = true) : ∃ j r, σ a.windowId = .held i j ∧
      db.reservations.row j = some r ∧ r.status.isLive = true ∧ r.appointmentId = some i ∧
      ReservationService.Matches r a := by
  obtain ⟨j, hj⟩ := h.pending i a row pending
  obtain ⟨a', r, ha', hr, -, -, hlive, hi, hm⟩ := h.held _ _ _ hj
  rw [row] at ha'; cases ha'
  exact ⟨j, r, hj, hr, hlive, hi, hm⟩

/-- The reservations that live are left alone when those of an active appointment move. -/
theorem follows_active (h : Agrees db σ) (row : db.appointments.row i = some a)
    (active : a.status.isActive = true) {reservations : Table Reservation}
    (follows : Follows db.reservations i staff k' reservations) (j : Nat) (r : Reservation)
    (live : r.status.isLive = true) : reservations.row j = some r ↔ db.reservations.row j = some r := by
  cases follows with
  | none => rfl
  | some j₀ r₀ row₀ belongs =>
    have hdead : r₀.status.isLive = false := by
      by_contra hlive
      obtain ⟨a', -, ha', -, -, hp, -⟩ :=
        h.held _ _ _ (h.slot_of_live row₀ (by simpa using hlive) belongs)
      rw [row] at ha'; cases ha'
      rw [not_active_of_pending hp] at active; cases active
    rw [Table.row_put_of_some row₀]
    by_cases hj : j = j₀
    · subst hj
      rw [if_pos rfl, row₀]
      constructor
      · intro he; cases he
        rw [hdead] at live; cases live
      · intro he; cases he
        rw [hdead] at live; cases live
    · rw [if_neg hj]

theorem sync (h : Agrees db σ) {t? : Option AppointmentStatus} (target : ∀ t ∈ t?, t.isRefund = true)
    {appointments : Table Appointment} (hsync : RefundSync db.appointments i t? appointments)
    (payments refunds events history) :
    ∃ σ', BookStep (t? = some .refundPending ∧ ∃ a, db.appointments.row i = some a ∧ a.status.isActive = true) σ σ' ∧
      Agrees { db with appointments, payments, refunds, events, history } σ' := by
  cases hsync with
  | none => exact ⟨σ, .stay, h.of_tables rfl rfl rfl⟩
  | already => exact ⟨σ, .stay, h.of_tables rfl rfl rfl⟩
  | edge a t row edge =>
    have ht := target t rfl
    have off : t.occupies = false := by cases t <;> first | rfl | cases ht
    by_cases active : a.status.isActive = true
    · have request : t = .refundPending := by
        cases hs : a.status <;> rw [hs] at active edge <;> cases active <;>
          cases t <;> simp [AppointmentStatus.allowed, AppointmentStatus.isRefund] at edge ht ⊢
      have allowed : some t = some .refundPending ∧ ∃ a, db.appointments.row i = some a ∧ a.status.isActive = true :=
        ⟨by rw [request], a, row, active⟩
      exact ⟨_, .abandon _ i (h.active i a row active) allowed, h.abandon row active off _ _ _ _⟩
    · have hoff : a.status.occupies = false := by
        cases hs : a.status <;> rw [hs] at active edge <;> first | rfl | exact absurd rfl active |
          (cases t <;> simp [AppointmentStatus.allowed, AppointmentStatus.isRefund] at edge ht)
      exact ⟨σ, .stay, h.offBook row hoff off _ _ _ _⟩

theorem step {may : Db → Effect → Prop} {db' : Db} (h : Agrees db σ) (hl : Links db) (hm : Move may db db') :
    ∃ σ', BookStep (RequestsActive may db) σ σ' ∧ Agrees db' σ' := by
  cases hm with
  | idle => exact ⟨σ, .stay, h.of_tables rfl rfl rfl⟩
  | createWindow w status => exact ⟨σ, .stay, h.createWindow status _ _⟩
  | setWindow k w s row before after => exact ⟨σ, .stay, h.setWindow row before after _ _⟩
  | deleteWindow k w row status => exact ⟨σ, .stay, h.deleteWindow row status _ _⟩
  | place k w a row free window status =>
    exact ⟨_, .take k _ (h.free_of_open row free), h.place row free window status _ _⟩
  | hold k w a r p row free window status mode origin live appointmentId agrees =>
    exact ⟨_, .hold k _ _ (h.free_of_open row free), h.hold row free window status live appointmentId agrees _ _ _⟩
  | confirmHold k w i a j r t window appointment reservation at_window pending live belongs agrees =>
    have held : σ k = .held i j := at_window ▸ h.slot_of_live reservation live belongs
    refine ⟨_, .confirm k i j held, h.confirm held window appointment reservation ?_ ?_ ?_ _ _⟩
    · exact agrees.2.2.1.symm.trans at_window
    · rfl
    · rfl
  | releaseHold k w i a j r t a' r' payments window appointment reservation at_window pending live belongs
      agrees same status ended gone =>
    have held : σ k = .held i j := at_window ▸ h.slot_of_live reservation live belongs
    have off : a'.status.occupies = false := by rcases ended with rfl | rfl <;> rw [status] <;> rfl
    have dead : r'.status.isLive = false := by rcases gone with hs | hs <;> rw [hs] <;> rfl
    exact ⟨_, .release k i j held, h.release held window appointment reservation off dead _ _ _⟩
  | report i a j r pid p q t appointment reservation pending active belongs =>
    obtain ⟨j', r', held, row', -, belongs', agrees⟩ := h.reservation_of_pending appointment pending
    obtain rfl := hl.reservation_once j j' r r' i reservation row' belongs belongs'
    rw [reservation] at row'; cases row'
    refine ⟨σ, .stay, h.keepHeld held appointment reservation ?_ ?_ ?_ ?_ ?_ ?_ _ _ _⟩
    case refine_6 => exact agrees
    all_goals rfl
  | confirmVisit i a t row status =>
    have active : a.status.isActive = true := by rw [status]; rfl
    refine ⟨σ, .stay, h.keepTaken row active ?_ ?_ _ _⟩ <;> rfl
  | endVisit w i a a' s row active window same ended free =>
    have off : a'.status.occupies = false := by
      cases hs : a'.status <;> rw [hs] at ended <;> first | rfl | cases ended
    have left : s.isHeld = false := by rcases free with rfl | rfl <;> rfl
    exact ⟨_, .vacate _ i (h.active i a row active), h.vacate row active window left off _ _⟩
  | reschedule i a w k' w' b s row active window target other free left at_target status =>
    have hs : s.isHeld = false := by rcases left with rfl | rfl <;> rfl
    refine ⟨_, .succeed _ k' i _ (h.active i a row active) (h.free_of_open target free),
      h.succeed row active window target other free hs at_target status ?_ _ _⟩
    rfl
  | reassign i a w k' w' staff reservations row occupies window target other free follows =>
    have hfree := h.free_of_open target free
    rcases (AppointmentStatus.occupies_iff a.status).mp occupies with pending | active
    · obtain ⟨j, r, held, hr, live, belongs, agrees⟩ := h.reservation_of_pending row pending
      refine ⟨_, .move a.windowId k' _ rfl (by rw [held]; nofun) hfree, ?_⟩
      rw [if_pos pending]
      cases follows with
      | none absent => exact absurd belongs (absent j r hr)
      | some j' r' row' belongs' =>
        obtain rfl := hl.reservation_once j j' r r' i hr row' belongs belongs'
        exact h.moveHeld row held row' pending window target other free _ _
    · refine ⟨_, .move a.windowId k' _ rfl (by rw [h.active i a row active]; nofun) hfree, ?_⟩
      rw [if_neg (by rw [not_pending_of_active active]; decide)]
      exact h.moveTaken row active window target other free _ (h.follows_active row active follows) _ _
  | payment => exact ⟨σ, .stay, h.of_tables rfl rfl rfl⟩
  | request pid p r appointments row allowed status of pending positive room hsync =>
    obtain ⟨σ', hstep, hagrees⟩ := h.sync (by rintro t ⟨⟩; rfl) hsync _ _ _ _
    exact ⟨σ', hstep.mono fun ⟨_, a, ha, active⟩ => ⟨pid, p, a, allowed, row, ha, active⟩, hagrees⟩
  | result pid p q x c c' r s appointments t? payment refund allowed of same step applied target hsync =>
    have htarget : ∀ t ∈ t?, t.isRefund = true ∧ t ≠ .refundPending := by
      rcases target with rfl | ⟨rfl, -⟩
      · intro t ht
        cases hs : q.status <;> rw [hs] at ht <;> cases ht <;> exact ⟨rfl, nofun⟩
      · nofun
    obtain ⟨σ', hstep, hagrees⟩ := h.sync (fun t ht => (htarget t ht).1) hsync _ _ _ _
    exact ⟨σ', hstep.mono fun ht => absurd rfl (htarget _ ht.1).2, hagrees⟩

end Agrees

end SalonBooking
