import SalonBooking.Domain.Zones
import SalonBooking.Lib.Counts
import SalonBooking.Slots.Windows

/-!
# The spacing of a master's windows

Only creating and reopening a window compare it with the others of its day. That this is enough rests on two
facts. Every other move that leaves a window active finds it active: what a visit, a hold or a reassignment
gives back was booked or reserved, by the book of slots. And a window that goes on offer is compared with the
active windows between the UTC bounds of its day. Where these bounds lose an instant of the day, as after a
midnight that the clock skips, it may be put beside a window that nobody has looked at.
-/

namespace SalonBooking

open Lib

/-! ### Separated windows -/

/-- Two windows with a gap between them. -/
def Window.Apart (gap : Int) (v w : Window) : Prop := v.endAt + gap ≤ w.startAt ∨ w.endAt + gap ≤ v.startAt

instance (gap : Int) (v w : Window) : Decidable (v.Apart gap w) := inferInstanceAs (Decidable (_ ∨ _))

theorem Window.Apart.symm {gap : Int} {v w : Window} (h : v.Apart gap w) : w.Apart gap v := Or.symm h

/-- The window counts as active for this master on this day. -/
def Window.activeOn (w : Window) (z : Zone) (staffMemberId : Nat) (day : Int) : Bool :=
  w.status.isActive && w.staffMemberId == staffMemberId && z.localDate w.startAt == day

theorem Window.activeOn_iff {w : Window} {z : Zone} {staffMemberId : Nat} {day : Int} :
    w.activeOn z staffMemberId day = true ↔
      w.status.isActive = true ∧ w.staffMemberId = staffMemberId ∧ z.localDate w.startAt = day := by
  simp only [activeOn, Bool.and_eq_true, beq_iff_eq, and_assoc]

/-- The window starts on this day, and the UTC bounds of the day hold the other active windows that its master has
there. -/
structure Window.InSight (settings : BusinessSettings) (db : Db) (w : Window) (day : Int) : Prop where
  starts : settings.timezone.localDate w.startAt = day
  others : db.windows.All fun _ u => u.activeOn settings.timezone w.staffMemberId day = true →
    (settings.timezone.utcDayBounds day).1 ≤ u.startAt ∧ u.startAt < (settings.timezone.utcDayBounds day).2

/-- The active windows of a master on a day do not meet, keep their distance and are not too many. -/
structure Separated (settings : BusinessSettings) (db : Db) : Prop where
  apart : ∀ staff day i j v w, db.windows.row i = some v → db.windows.row j = some w → i ≠ j →
    v.activeOn settings.timezone staff day = true → w.activeOn settings.timezone staff day = true →
    v.Apart (minutes settings.minimumGapMinutes) w
  cap : ∀ staff day, db.windows.count (fun _ w => w.activeOn settings.timezone staff day) ≤
    settings.maxAppointmentsPerDay

/-- Two versions of one window: whose it is and when. -/
structure SameInterval (v w : Window) : Prop where
  staffMemberId : w.staffMemberId = v.staffMemberId
  startAt : w.startAt = v.startAt
  endAt : w.endAt = v.endAt

theorem SameInterval.activeOn {v w : Window} (h : SameInterval v w) {z : Zone} {staff : Nat} {day : Int}
    (active : v.status.isActive = true) (hw : w.activeOn z staff day = true) : v.activeOn z staff day = true := by
  obtain ⟨-, hstaff, hday⟩ := Window.activeOn_iff.mp hw
  exact Window.activeOn_iff.mpr ⟨active, by rw [← h.staffMemberId, hstaff], by rw [← h.startAt, hday]⟩

/-- No window becomes active: what is active was active before, for the same master at the same time. -/
def Db.WindowsSubside (db db' : Db) : Prop :=
  ∀ k w', db'.windows.row k = some w' → w'.status.isActive = true →
    ∃ w, db.windows.row k = some w ∧ w.status.isActive = true ∧ SameInterval w w'

/-- One window goes on offer, after it has been compared with the others. -/
structure WindowOffered (may : Db → Effect → Prop) (db db' : Db) (k : Nat) (w : Window) : Prop where
  allowed : ∃ v excludeId, may db (.offer v excludeId) ∧ SameInterval v w ∧
    ∀ j u, db.windows.row j = some u → (some j ≠ excludeId ↔ j ≠ k)
  row : db'.windows.row k = some w
  others : ∀ j, j ≠ k → db'.windows.row j = db.windows.row j

namespace Db.WindowsSubside

variable {db db' db'' : Db} {k : Nat} {w : Window}

theorem refl (h : db'.windows = db.windows) : db.WindowsSubside db' :=
  fun k w row active => ⟨w, by rw [← h]; exact row, active, rfl, rfl, rfl⟩

theorem put {s : WindowStatus} (row : db.windows.row k = some w) (active : w.status.isActive = true)
    (h : db'.windows = db.windows.put k { w with status := s }) : db.WindowsSubside db' := by
  intro j v hv hactive
  rw [h] at hv
  rcases (Table.row_put_eq_some row).mp hv with ⟨rfl, rfl⟩ | ⟨-, hv⟩
  · exact ⟨w, row, active, rfl, rfl, rfl⟩
  · exact ⟨v, hv, hactive, rfl, rfl, rfl⟩

theorem trans (h : db.WindowsSubside db') (h' : db'.WindowsSubside db'') : db.WindowsSubside db'' := by
  intro k w'' row'' active''
  obtain ⟨w', row', active', same'⟩ := h' k w'' row'' active''
  obtain ⟨w, row, active, same⟩ := h k w' row' active'
  exact ⟨w, row, active, same'.staffMemberId.trans same.staffMemberId, same'.startAt.trans same.startAt,
    same'.endAt.trans same.endAt⟩

end Db.WindowsSubside

namespace Agrees

variable {db : Db} {σ : Nat → Slot} {i k : Nat} {w : Window} {a : Appointment}

theorem active_window (h : Agrees db σ) (row : db.appointments.row i = some a) (occupies : a.status.occupies = true)
    (window : db.windows.row a.windowId = some w) : w.status.isActive = true := by
  rcases (AppointmentStatus.occupies_iff a.status).mp occupies with pending | active
  · obtain ⟨j, held⟩ := h.pending i a row pending
    rw [(h.reserved _ w window).mpr (by rw [held]; rfl)]
    rfl
  · rw [(h.booked _ w window).mpr (by rw [h.active i a row active]; rfl)]
    rfl

end Agrees

theorem Move.windows {may : Db → Effect → Prop} {db db' : Db} (hb : Booked db) (hm : Move may db db') :
    db.WindowsSubside db' ∨ ∃ k w, WindowOffered may db db' k w := by
  obtain ⟨σ, hA⟩ := hb.book
  cases hm with
  | createWindow w status events history log offered =>
    by_cases hopen : w.status = .open
    · refine .inr ⟨db.windows.next, w, ⟨w, none, offered hopen, ⟨rfl, rfl, rfl⟩, fun j u row => ?_⟩,
        Table.row_insert_self, fun j hj => by rw [Table.row_insert, if_neg hj]⟩
      exact iff_of_true nofun (Table.lt_next row).ne
    · left
      intro j v row active
      rcases Table.row_insert_eq_some.mp row with ⟨-, rfl⟩ | row
      · cases hs : v.status <;> simp_all [WindowStatus.isActive, WindowStatus.isHeld]
      · exact ⟨v, row, active, rfl, rfl, rfl⟩
  | setWindow k w s row before after events history log offered =>
    by_cases hopen : s = .open
    · refine .inr ⟨k, { w with status := s }, ⟨w, some k, offered hopen, ⟨rfl, rfl, rfl⟩, fun j u _ => ?_⟩,
        Table.row_put_self row, fun j hj => Table.row_put_ne hj⟩
      rw [ne_eq, Option.some.injEq]
    · left
      intro j v hv active
      rcases (Table.row_put_eq_some row).mp hv with ⟨rfl, rfl⟩ | ⟨-, hv⟩
      · cases s <;> simp_all [WindowStatus.isActive, WindowStatus.isHeld]
      · exact ⟨v, hv, active, rfl, rfl, rfl⟩
  | deleteWindow k =>
    refine .inl fun j v row active => ?_
    rw [Table.row_erase] at row
    by_cases hj : j = k
    · rw [if_pos hj] at row; cases row
    · exact ⟨v, by rwa [if_neg hj] at row, active, rfl, rfl, rfl⟩
  | place k w a row free => exact .inl (.put row (by rw [free]; rfl) rfl)
  | hold k w a r p row free => exact .inl (.put row (by rw [free]; rfl) rfl)
  | confirmHold k w i a j r t window appointment reservation at_window pending live belongs agrees =>
    have occupies : a.status.occupies = true := (AppointmentStatus.occupies_iff _).mpr (.inl pending)
    have hk : a.windowId = k := agrees.2.2.1.symm.trans at_window
    exact .inl (.put window (hA.active_window appointment occupies (by rw [hk]; exact window)) rfl)
  | releaseHold k w i a j r t a' r' payments window appointment reservation at_window pending live belongs agrees =>
    have occupies : a.status.occupies = true := (AppointmentStatus.occupies_iff _).mpr (.inl pending)
    have hk : a.windowId = k := agrees.2.2.1.symm.trans at_window
    exact .inl (.put window (hA.active_window appointment occupies (by rw [hk]; exact window)) rfl)
  | endVisit w i a a' s row active window =>
    have occupies : a.status.occupies = true := (AppointmentStatus.occupies_iff _).mpr (.inr active)
    exact .inl (.put window (hA.active_window row occupies window) rfl)
  | reschedule i a w k' w' b s row active window target other free =>
    have occupies : a.status.occupies = true := (AppointmentStatus.occupies_iff _).mpr (.inr active)
    have left : db.WindowsSubside { db with windows := db.windows.put a.windowId { w with status := s } } :=
      .put window (hA.active_window row occupies window) rfl
    have target' : (db.windows.put a.windowId { w with status := s }).row k' = some w' := by
      rw [Table.row_put_ne (Ne.symm other), target]
    exact .inl (left.trans (.put target' (by rw [free]; rfl) rfl))
  | reassign i a w k' w' staff reservations row occupies window target other free =>
    have left : db.WindowsSubside { db with windows := db.windows.put a.windowId { w with status := .open } } :=
      .put window (hA.active_window row occupies window) rfl
    have target' : (db.windows.put a.windowId { w with status := .open }).row k' = some w' := by
      rw [Table.row_put_ne (Ne.symm other), target]
    exact .inl (left.trans (.put target' (by rw [free]; rfl) rfl))
  | _ => exact .inl (.refl rfl)

/-! ### The comparison -/

theorem spacingAgainst_ok {startAt endAt : Int} {gap : Nat} {iv : Int × Int} :
    spacingAgainst startAt endAt gap iv = .ok () → iv.2 + minutes gap ≤ startAt ∨ endAt + minutes gap ≤ iv.1 := by
  intro h
  simp only [spacingAgainst, Except.require_bind_ok, Except.require_ok] at h
  obtain ⟨disjoint, before, after⟩ := h
  omega

theorem validateCapacityAndSpacing_ok {startAt endAt : Int} {existing : List (Int × Int)} {cap gap : Nat}
    (h : validateCapacityAndSpacing startAt endAt existing cap gap = .ok ()) :
    existing.length < cap ∧ ∀ iv ∈ existing, iv.2 + minutes gap ≤ startAt ∨ endAt + minutes gap ≤ iv.1 := by
  simp only [validateCapacityAndSpacing, Except.require_bind_ok, not_le] at h
  exact ⟨h.1, fun iv hiv => spacingAgainst_ok (Except.forM_ok.mp h.2 iv hiv)⟩

theorem Db.length_activeWindowsBetween {db : Db} {startAt endAt : Int} {staff : Nat} {excludeId : Option Nat} :
    (db.activeWindowsBetween startAt endAt staff excludeId).length = db.windows.count fun j w =>
      w.status.isActive && w.staffMemberId == staff && decide (some j ≠ excludeId) &&
        decide (startAt ≤ w.startAt) && decide (w.startAt < endAt) :=
  List.length_map _

namespace Separated

variable {settings : BusinessSettings} {db db' : Db}

theorem empty : Separated settings .empty := by
  constructor
  · intro staff day i j v w row
    cases row
  · intro staff day
    exact Nat.zero_le _

theorem of_subside (h : Separated settings db) (subside : db.WindowsSubside db') : Separated settings db' := by
  constructor
  · intro staff day i j v' w' rowv roww hij hv hw
    obtain ⟨v, rowv₀, activev, samev⟩ := subside i v' rowv (Window.activeOn_iff.mp hv).1
    obtain ⟨w, roww₀, activew, samew⟩ := subside j w' roww (Window.activeOn_iff.mp hw).1
    have apart := h.apart staff day i j v w rowv₀ roww₀ hij (samev.activeOn activev hv) (samew.activeOn activew hw)
    unfold Window.Apart at apart ⊢
    rw [samev.endAt, samew.startAt, samew.endAt, samev.startAt]
    exact apart
  · intro staff day
    refine le_trans (Table.count_le fun k w' row hw => ?_) (h.cap staff day)
    obtain ⟨w, row₀, active, same⟩ := subside k w' row (Window.activeOn_iff.mp hw).1
    exact ⟨w, row₀, same.activeOn active hw⟩

theorem of_offered (h : Separated settings db) {k : Nat} {w : Window}
    (offered : WindowOffered (fun db e => ∀ v excludeId, e = .offer v excludeId →
      ∃ day, Offerable settings db v excludeId day ∧ v.InSight settings db day) db db' k w) : Separated settings db' := by
  obtain ⟨⟨v, excludeId, allowed, same, excludes⟩, row, others⟩ := offered
  obtain ⟨day, ⟨positive, ends, spaced⟩, starts, inSight⟩ := allowed v excludeId rfl
  have hday : settings.timezone.localDate w.startAt = day := by
    rw [same.startAt]
    exact starts
  obtain ⟨room, apart⟩ := validateCapacityAndSpacing_ok spaced
  have bounded : ∀ j u, db.windows.row j = some u → u.activeOn settings.timezone w.staffMemberId day = true →
      (settings.timezone.utcDayBounds day).1 ≤ u.startAt ∧ u.startAt < (settings.timezone.utcDayBounds day).2 :=
    fun j u hu active => inSight j u hu (by rwa [same.staffMemberId] at active)
  -- the windows it was compared with are the other active ones of its master on its day
  have compared : ∀ j u, db.windows.row j = some u → j ≠ k →
      u.activeOn settings.timezone w.staffMemberId day = true → u.Apart (minutes settings.minimumGapMinutes) w := by
    intro j u hu hj active
    obtain ⟨hactive, hstaff, -⟩ := Window.activeOn_iff.mp active
    have bounds := bounded j u hu active
    have member : (u.startAt, u.endAt) ∈ db.activeWindowsBetween (settings.timezone.utcDayBounds day).1
        (settings.timezone.utcDayBounds day).2 v.staffMemberId excludeId := by
      refine List.mem_map.mpr ⟨(j, u), List.mem_filter.mpr ⟨Table.mem_toList.mpr hu, ?_⟩, rfl⟩
      simp only [Bool.and_eq_true, beq_iff_eq, decide_eq_true_eq]
      exact ⟨⟨⟨⟨hactive, hstaff.trans same.staffMemberId⟩, (excludes j u hu).mpr hj⟩, bounds.1⟩, bounds.2⟩
    unfold Window.Apart
    rw [same.startAt, same.endAt]
    exact apart _ member
  have before : ∀ j u, j ≠ k → db'.windows.row j = some u → db.windows.row j = some u :=
    fun j u hj hu => by rw [← others j hj]; exact hu
  constructor
  · intro staff day' i j u u' hu hu' hij active active'
    by_cases hi : i = k
    · subst hi
      rw [row] at hu; cases hu
      obtain ⟨-, rfl, hday'⟩ := Window.activeOn_iff.mp active
      rw [hday] at hday'; subst hday'
      exact (compared j u' (before j u' hij.symm hu') hij.symm active').symm
    · by_cases hj : j = k
      · subst hj
        rw [row] at hu'; cases hu'
        obtain ⟨-, rfl, hday'⟩ := Window.activeOn_iff.mp active'
        rw [hday] at hday'; subst hday'
        exact compared i u (before i u hi hu) hi active
      · exact h.apart staff day' i j u u' (before i u hi hu) (before j u' hj hu') hij active active'
  · intro staff day'
    by_cases here : w.staffMemberId = staff ∧ day = day'
    · obtain ⟨rfl, rfl⟩ := here
      rw [Db.length_activeWindowsBetween] at room
      refine le_trans (Table.count_le_succ (k := k) fun j u hj hu active => ?_) room
      obtain ⟨hactive, hstaff, -⟩ := Window.activeOn_iff.mp active
      have bounds := bounded j u (before j u hj hu) active
      refine ⟨u, before j u hj hu, ?_⟩
      simp only [Bool.and_eq_true, beq_iff_eq, decide_eq_true_eq]
      exact ⟨⟨⟨⟨hactive, hstaff.trans same.staffMemberId⟩, (excludes j u (before j u hj hu)).mpr hj⟩, bounds.1⟩,
        bounds.2⟩
    · refine le_trans (Table.count_le fun j u hu active => ?_) (h.cap staff day')
      by_cases hj : j = k
      · subst hj
        rw [row] at hu; cases hu
        obtain ⟨-, hstaff, hdate⟩ := Window.activeOn_iff.mp active
        exact absurd ⟨hstaff, hday.symm.trans hdate⟩ here
      · exact ⟨u, before j u hj hu, active⟩

end Separated

/-! ### Runs -/

/-- A salon in Toronto in the spring of 1919, with two windows a day at most and half an hour between them. -/
def torontoSalon : Catalog :=
  { salon .disabled with
    settings := (salon .disabled).settings.map fun s =>
      { s with timezone := Zone.toronto.zone, maxAppointmentsPerDay := 2, minimumGapMinutes := 30 } }

theorem torontoSalon_fixed {l : List Label} (h : ∀ x ∈ l, x.catalog = torontoSalon) :
    ∀ x ∈ l, ∀ s ∈ x.catalog.settings, s = torontoSalon.settings.get rfl := by
  intro x hx s hs
  rw [h x hx] at hs
  cases hs
  rfl

namespace Salon

theorem within_day (hour : Fin 24) (minute : Fin 60) :
    0 ≤ hours (hour.val : Int) + minutes (minute.val : Int) ∧ hours (hour.val : Int) + minutes (minute.val : Int) < days 1 := by
  have := hour.isLt
  have := minute.isLt
  unfold hours minutes days
  omega

theorem open_or_closed : WindowStatus.open = .open ∨ WindowStatus.open = .closed := .inl rfl

/-- The owner opens a window on a day. -/
def openWindowOn (day : Int) (hour : Fin 24) (minute : Fin 60) : Cmd :=
  .createWindow (.admin 1)
    ⟨day, hours (hour.val : Int) + minutes (minute.val : Int), none, none, .open, open_or_closed, within_day hour minute⟩

end Salon

namespace Sys

/-- What the step puts on offer, it puts within sight of the windows it may meet. -/
def OffersInSight (settings : BusinessSettings) (s : Sys) (x : Label) : Prop :=
  s.commitsAt x → match x.cmd with
  | .createWindow _ values => values.status = .open →
    (AvailabilityService.newWindow settings values).InSight settings s.db values.localDate
  | .reopenWindow _ windowId =>
    ∀ w ∈ s.db.windows.row windowId, w.InSight settings s.db (settings.timezone.localDate w.startAt)
  | _ => True

/-- Only the window service offers windows, and only those its checks have passed. -/
theorem OffersInSight.offers {settings : BusinessSettings} {s : Sys} {x : Label} {w : Window} {excludeId : Option Nat}
    (inSight : OffersInSight settings s x) (fixed : ∀ t ∈ x.catalog.settings, t = settings)
    (h : s.Occurs x (.offer w excludeId)) :
    ∃ day, Offerable settings s.db w excludeId day ∧ w.InSight settings s.db day := by
  obtain ⟨c, now, cmd⟩ := x
  obtain ⟨committed, h⟩ := h
  have inSight := inSight committed
  cases cmd with
  | createWindow =>
    obtain ⟨configured, hconfigured, opens, offerable, he⟩ := h
    obtain rfl := fixed configured hconfigured
    cases he
    exact ⟨_, offerable, inSight opens⟩
  | reopenWindow =>
    obtain ⟨configured, v, hconfigured, row, offerable, he⟩ := h
    obtain rfl := fixed configured hconfigured
    cases he
    exact ⟨_, offerable, inSight w row⟩
  | refundFailure => obtain ⟨r, -, ⟨t, he⟩ | he⟩ := submits_of_refundFailure h <;> cases he
  | refundResult => obtain ⟨r, -, ⟨t, he⟩ | he⟩ := submits_of_refundResult h <;> cases he
  | _ => simp [Causes] at h

/-- In every run under fixed settings whose windows go on offer within sight of each other, the active windows of a
master on a local date do not overlap, keep the minimum gap and are at most as many as the settings allow. -/
theorem active_windows_separated (settings : BusinessSettings) (l : List Label)
    (fixed : ∀ x ∈ l, ∀ s ∈ x.catalog.settings, s = settings) (h : Guarded step (OffersInSight settings) empty l) :
    (∀ i j v w, (after l).db.windows.row i = some v → (after l).db.windows.row j = some w → i ≠ j →
      v.status.isActive = true → w.status.isActive = true → v.staffMemberId = w.staffMemberId →
      settings.timezone.localDate v.startAt = settings.timezone.localDate w.startAt →
      ¬ Db.overlap v.startAt v.endAt w.startAt w.endAt ∧ v.Apart (minutes settings.minimumGapMinutes) w) ∧
    ∀ staff day, (after l).db.windows.count (fun _ w => w.activeOn settings.timezone staff day) ≤
      settings.maxAppointmentsPerDay := by
  have guarded := (@guarded_of_forall _ _ step _ empty _ fixed).and h
  have separated : Separated settings (after l).db := by
    let may : Db → Effect → Prop := fun db e =>
      ∀ v excludeId, e = .offer v excludeId → ∃ day, Offerable settings db v excludeId day ∧ v.InSight settings db day
    refine @guarded_after_booked _ may _ ?_ ?_ .empty l guarded
    · rintro s x ⟨fixed, inSight⟩ e he v excludeId rfl
      exact inSight.offers fixed he
    · intro db db' h hb hm
      rcases hm.windows hb with subside | ⟨k, w, offered⟩
      · exact h.of_subside subside
      · exact h.of_offered offered
  refine ⟨fun i j v w hv hw hij activev activew staff date => ?_, separated.cap⟩
  have apart := separated.apart v.staffMemberId (settings.timezone.localDate v.startAt) i j v w hv hw hij
    (Window.activeOn_iff.mpr ⟨activev, rfl, rfl⟩) (Window.activeOn_iff.mpr ⟨activew, staff.symm, date.symm⟩)
  refine ⟨fun overlap => ?_, apart⟩
  have gap : 0 ≤ minutes settings.minimumGapMinutes := by unfold minutes; omega
  obtain ⟨before, after⟩ := overlap
  rcases apart with hvw | hwv <;> omega

/-! ### Zones whose midnights are kept -/

/-- A step is within sight when the zone keeps its dates in order and the clock skips no midnight within the booking
horizon. -/
theorem offersInSight_of_kept {settings : BusinessSettings} {z : TzInfo} (zone : settings.timezone = z.zone)
    (forward : z.Forward) {s : Sys} {x : Label} (fixed : ∀ t ∈ x.catalog.settings, t = settings)
    (kept : ∀ day, z.zone.localDate x.now ≤ day → day ≤ z.zone.localDate x.now + settings.bookingHorizonDays →
      ¬ z.MidnightSkipped day) : OffersInSight settings s x := by
  obtain ⟨c, now, cmd⟩ := x
  rintro ⟨s', committed⟩
  cases cmd with
  | createWindow actor values =>
    intro _
    simp only [transact, commits, Except.bind_ok, Except.pure_ok] at committed
    obtain ⟨db', created, rfl⟩ := committed
    obtain ⟨configured, hconfigured, rules⟩ := AvailabilityService.createWindow_rules created
    obtain rfl := fixed configured hconfigured
    obtain ⟨positive, ends, low, high⟩ := AvailabilityService.validateCalendarRules_ok rules
    rw [zone] at ends low high
    have starts : z.zone.localDate (AvailabilityService.newWindow configured values).startAt = values.localDate := by
      have start : (AvailabilityService.newWindow configured values).startAt =
          z.resolve false (days values.localDate + values.localStartTime) := by
        rw [AvailabilityService.newWindow, zone]
        rfl
      refine le_antisymm (ends ▸ forward positive.le) ?_
      rw [start]
      exact Zone.le_localDate_resolve forward values.time_of_day.1
    refine ⟨by rw [zone, starts], fun j u row active => ?_⟩
    rw [zone] at active ⊢
    exact Zone.mem_bounds forward (kept _ low high) (Window.activeOn_iff.mp active).2.2
  | reopenWindow actor windowId =>
    intro w row
    simp only [transact, commits, Except.bind_ok, Except.pure_ok] at committed
    obtain ⟨db', reopened, rfl⟩ := committed
    obtain ⟨configured, v, hconfigured, row', rules⟩ := AvailabilityService.reopenWindow_rules reopened
    obtain rfl := fixed configured hconfigured
    obtain rfl := Option.some.inj (row.symm.trans row')
    obtain ⟨-, -, low, high⟩ := AvailabilityService.validateCalendarRules_ok rules
    rw [zone] at low high
    refine ⟨rfl, fun j u hu active => ?_⟩
    rw [zone] at active ⊢
    exact Zone.mem_bounds forward (kept _ low high) (Window.activeOn_iff.mp active).2.2
  | _ => trivial

open Salon in
/-- Two windows of April, the first one booked and the second one closed and opened again. -/
def aprilWindows : List Label := [
  ⟨torontoSalon, days (-18530), openWindowOn (-18528) 0 30⟩, ⟨torontoSalon, days (-18530), openWindowOn (-18528) 2 0⟩,
  ⟨torontoSalon, days (-18529), bookWindow 2 1⟩, ⟨torontoSalon, days (-18529), .closeWindow 1 2⟩,
  ⟨torontoSalon, days (-18529), .reopenWindow 1 2⟩]

theorem active_windows_separated_april :
    (after aprilWindows).db.windows.count (fun _ w => w.activeOn Zone.toronto.zone 1 (-18528)) = 2 ∧
    (after aprilWindows).db.windows.count (fun _ w => w.activeOn Zone.toronto.zone 1 (-18528)) ≤ 2 := by
  have fixed := torontoSalon_fixed (l := aprilWindows) (by simp [aprilWindows])
  have later : ∀ x ∈ aprilWindows, x.catalog = torontoSalon ∧ -18539 < Zone.toronto.zone.localDate x.now := by
    simp only [aprilWindows, List.forall_mem_cons]
    refine ⟨?_, ?_, ?_, ?_, ?_, fun _ h => absurd h List.not_mem_nil⟩
    all_goals exact ⟨trivial, by decide +kernel⟩
  have inSight : Guarded step (OffersInSight (torontoSalon.settings.get rfl)) empty aprilWindows := by
    refine (guarded_of_forall later).mono fun s x hx => ?_
    obtain ⟨here, later⟩ := hx
    refine offersInSight_of_kept rfl Zone.toronto_forward (by rw [here]; rintro t ⟨⟩; rfl) fun day low _ skipped => ?_
    rw [Zone.toronto_skips.mp skipped] at low
    omega
  exact ⟨by decide +kernel,
    (active_windows_separated (torontoSalon.settings.get rfl) aprilWindows fixed inSight).2 1 (-18528)⟩

open Salon in
/-- Three windows on the day whose midnight is missing. -/
def marchWindows : List Label := [
  ⟨torontoSalon, days (-18541), openWindowOn (-18539) 0 30⟩, ⟨torontoSalon, days (-18541), openWindowOn (-18539) 1 30⟩,
  ⟨torontoSalon, days (-18541), openWindowOn (-18539) 3 0⟩]

/-- The first two windows have no gap, and the day has one more than it may have. -/
theorem windows_too_close :
    (∀ x ∈ marchWindows, ∀ s ∈ x.catalog.settings, s = torontoSalon.settings.get rfl) ∧
    ((after marchWindows).db.windows.row 1).any (fun v => ((after marchWindows).db.windows.row 2).any fun w =>
      v.status.isActive && w.status.isActive && v.staffMemberId == w.staffMemberId &&
        Zone.toronto.zone.localDate v.startAt == Zone.toronto.zone.localDate w.startAt &&
        !decide (v.Apart (minutes 30) w)) = true ∧
    ¬ (after marchWindows).db.windows.count (fun _ w => w.activeOn Zone.toronto.zone 1 (-18539)) ≤ 2 :=
  ⟨torontoSalon_fixed (by simp [marchWindows]), by decide +kernel, by decide +kernel⟩

end Sys

end SalonBooking
