import SalonBooking.Model.System

/-!
# Publishing reviews

`services/review_service.py` with the statements of `anonymize_client_data` on reviews. A client submits one review
for a completed visit, administrators edit, moderate, delete and restore it, and the anonymisation of the client
empties it. Each operation is one transaction that locks the rows it writes.
-/

namespace SalonBooking

open Lib

inductive ReviewModerationStatus
  | pending | approved | rejected | hidden
  deriving DecidableEq, Repr

/-- `reviews`. -/
structure Review where
  appointmentId : Nat
  clientId : Nat
  rating : Nat
  text : Option String
  publicationConsent : Bool
  moderationStatus : ReviewModerationStatus
  publishedAt : Option Int := none
  editedAt : Option Int := none
  editedByAdminId : Option Nat := none
  isAdminEdited : Bool := false
  deletedAt : Option Int := none
  deletedByUserId : Option Nat := none
  deletionReason : Option String := none
  deriving DecidableEq

/-- `review_revisions`. -/
structure ReviewRevision where
  reviewId : Nat
  rating : Nat
  text : Option String
  moderationStatus : ReviewModerationStatus
  publishedAt : Option Int
  changedByAdminId : Nat
  deriving DecidableEq

structure ReviewDb where
  reviews : Table Review
  revisions : List ReviewRevision

def ReviewDb.empty : ReviewDb := ⟨.empty, []⟩

/-- What the validators of the review schemas leave of a text. -/
def ReviewText (text : Option String) : Prop := ∀ t ∈ text, strip t = t ∧ t ≠ "" ∧ t.length ≤ 2000

/-- `ReviewCreate`. -/
structure ReviewCreate where
  rating : Nat
  text : Option String
  publicationConsent : Bool
  rating_valid : 1 ≤ rating ∧ rating ≤ 5
  text_valid : ReviewText text

/-- `ReviewAdminUpdate`: a field that is not supplied is none, an explicit `None` is `some none`. -/
structure ReviewAdminUpdate where
  rating : Option (Option Nat) := none
  text : Option (Option String) := none
  moderationStatus : Option (Option ReviewModerationStatus) := none
  supplied : rating ≠ none ∨ text ≠ none ∨ moderationStatus ≠ none
  rating_valid : ∀ n ∈ rating.join, 1 ≤ n ∧ n ≤ 5
  text_valid : ReviewText text.join

inductive ReviewError
  | privacyConsentRequired (text : String)
  | entityNotFound (text : String)
  | authorization (text : String)
  | reviewState (text : String)
  | runtime (text : String)
  | integrity
  deriving DecidableEq

abbrev ReviewCheck (α : Type) : Type := Except ReviewError α

/-- What a review transaction reads from other tables. -/
structure ReviewContext where
  catalog : Catalog
  bookings : Db
  /-- `reviews_enabled` of the settings row. -/
  reviewsEnabled : Option Bool
  /-- An owner, as `ensure_owner_admin` looks at the role. -/
  isOwner : Int → Bool

namespace ReviewService

variable (x : ReviewContext)

def notFound : ReviewError := .entityNotFound "Отзыв не найден."

/-- `_ensure_enabled`. -/
def ensureEnabled : ReviewCheck Unit := do
  let enabled ← orRaise x.reviewsEnabled (.runtime "Business settings row is missing")
  require (enabled = true) (.reviewState "Отзывы временно отключены.")

/-- `_ensure_admin`. -/
def ensureAdmin (actor : Int) : ReviewCheck Unit :=
  require (x.catalog.isAdmin actor = true) (.authorization "Administrative access denied")

/-- `submit`. -/
def submit (telegramId : Int) (appointmentId : Nat) (values : ReviewCreate) (db : ReviewDb) : ReviewCheck ReviewDb := do
  ensureEnabled x
  let notConsented := ReviewError.privacyConsentRequired "Сначала примите условия обработки данных через /start."
  let clientId ← orRaise (x.catalog.userByTelegramId telegramId) notConsented
  let client ← orRaise (x.catalog.user clientId) notConsented
  require (client.privacyConsentAt.isSome = true) notConsented
  let appointment ← orRaise (x.bookings.appointments.row appointmentId) (.entityNotFound "Запись не найдена.")
  require (appointment.clientId = clientId) (.authorization "Нельзя оставить отзыв за другого клиента.")
  require (appointment.status = .completed) (.reviewState "Отзыв можно оставить только после завершённого визита.")
  require (db.reviews.find (fun r => r.appointmentId == appointmentId) = none)
    (.reviewState "Отзыв по этой записи уже оставлен.")
  return { db with reviews := db.reviews.insert {
    appointmentId, clientId, rating := values.rating, text := values.text
    publicationConsent := values.publicationConsent, moderationStatus := .pending } }

/-- The revision that an edit leaves behind. -/
def revisionOf (reviewId : Nat) (review : Review) (adminId : Nat) : ReviewRevision :=
  ⟨reviewId, review.rating, review.text, review.moderationStatus, review.publishedAt, adminId⟩

/-- `edit_admin`; the columns `rating` and `moderation_status` refuse an explicit `None`. -/
def editAdmin (actor : Int) (reviewId : Nat) (values : ReviewAdminUpdate) (now : Int) (db : ReviewDb) :
    ReviewCheck ReviewDb := do
  ensureAdmin x actor
  let adminId := x.catalog.adminUser actor
  let review ← orRaise (db.reviews.row reviewId) notFound
  require (review.deletedAt = none) (.reviewState "Удалённый отзыв сначала нужно восстановить.")
  let newStatus := values.moderationStatus.getD (some review.moderationStatus)
  require (¬ (newStatus = some .approved ∧ review.publicationConsent = false))
    (.reviewState "Клиент не разрешила публикацию этого отзыва.")
  let rating ← orRaise (values.rating.getD (some review.rating)) .integrity
  let moderationStatus ← orRaise newStatus .integrity
  let edited : Review := {
    review with
    rating, moderationStatus, text := values.text.getD review.text
    publishedAt := if moderationStatus = .approved then some now else none
    editedAt := some now, editedByAdminId := some adminId, isAdminEdited := true }
  return ⟨db.reviews.put reviewId edited, db.revisions ++ [revisionOf reviewId review adminId]⟩

/-- The update of `moderate`. -/
def moderation (status : ReviewModerationStatus) : ReviewAdminUpdate where
  moderationStatus := some (some status)
  supplied := .inr (.inr (by simp))
  rating_valid := by simp
  text_valid := by simp [ReviewText]

/-- `moderate`. -/
def moderate (actor : Int) (reviewId : Nat) (status : ReviewModerationStatus) (now : Int) (db : ReviewDb) :
    ReviewCheck ReviewDb := do
  require (status ≠ .pending) (.reviewState "Нельзя вернуть отзыв в статус ожидания.")
  editAdmin x actor reviewId (moderation status) now db

/-- `soft_delete`. -/
def softDelete (actor : Int) (reviewId : Nat) (reason : String) (now : Int) (db : ReviewDb) : ReviewCheck ReviewDb := do
  ensureAdmin x actor
  let reason := strip reason
  require (1 ≤ reason.length ∧ reason.length ≤ 500)
    (.reviewState "Укажите причину удаления длиной до 500 символов.")
  let review ← orRaise (db.reviews.row reviewId) notFound
  require (review.deletedAt = none) (.reviewState "Отзыв уже удалён.")
  return { db with reviews := db.reviews.put reviewId {
    review with
    deletedAt := some now, deletedByUserId := some (x.catalog.adminUser actor), deletionReason := some reason
    publishedAt := none } }

/-- `restore`. -/
def restore (actor : Int) (reviewId : Nat) (db : ReviewDb) : ReviewCheck ReviewDb := do
  ensureAdmin x actor
  let review ← orRaise (db.reviews.row reviewId) notFound
  require (review.deletedAt ≠ none) (.reviewState "Отзыв не удалён.")
  return { db with reviews := db.reviews.put reviewId {
    review with
    deletedAt := none, deletedByUserId := none, deletionReason := none
    moderationStatus := .pending, publishedAt := none } }

/-- `hard_delete`. -/
def hardDelete (actor : Int) (reviewId : Nat) (db : ReviewDb) : ReviewCheck ReviewDb := do
  ensureAdmin x actor
  require (x.isOwner actor = true) (.authorization "Принудительное удаление доступно только владельцу бизнеса.")
  let review ← orRaise (db.reviews.row reviewId) notFound
  require (review.deletedAt ≠ none) (.reviewState "Сначала выполните обычное удаление отзыва.")
  return ⟨db.reviews.erase reviewId, db.revisions.filter fun r => r.reviewId != reviewId⟩

/-- `list_published`, without its pages. -/
def listPublished (db : ReviewDb) : List (Nat × Review) :=
  db.reviews.select fun r =>
    r.moderationStatus == .approved && r.publicationConsent && r.publishedAt.isSome && r.deletedAt.isNone

end ReviewService

namespace PrivacyRepository

/-- What `anonymize_client_data` writes to a review of the client. -/
def anonymizedReview (userId : Nat) (changedAt : Int) (r : Review) : Review :=
  if r.clientId = userId then
    { r with
      text := none, publicationConsent := false, publishedAt := none, deletedAt := some changedAt, deletionReason := none }
  else r

/-- What it writes to a revision, given whether the review is the client's. -/
def anonymizedRevision (own : Nat → Bool) (r : ReviewRevision) : ReviewRevision :=
  if own r.reviewId then { r with text := none } else r

/-- The statements of `anonymize_client_data` on reviews and revisions. -/
def anonymizeReviews (userId : Nat) (changedAt : Int) (db : ReviewDb) : ReviewDb where
  reviews := db.reviews.mapRows fun _ => anonymizedReview userId changedAt
  revisions := db.revisions.map (anonymizedRevision fun i => (db.reviews.row i).any fun r => r.clientId == userId)

end PrivacyRepository

/-! ### Operations -/

inductive ReviewOp
  | submit (telegramId : Int) (appointmentId : Nat) (values : ReviewCreate)
  | editAdmin (actor : Int) (reviewId : Nat) (values : ReviewAdminUpdate)
  | moderate (actor : Int) (reviewId : Nat) (status : ReviewModerationStatus)
  | softDelete (actor : Int) (reviewId : Nat) (reason : String)
  | restore (actor : Int) (reviewId : Nat)
  | hardDelete (actor : Int) (reviewId : Nat)
  | anonymize (userId : Nat)

/-- An operation with what it reads and its clock. -/
structure ReviewLabel where
  context : ReviewContext
  now : Int
  op : ReviewOp

namespace ReviewDb

open ReviewService

def exec (db : ReviewDb) (l : ReviewLabel) : ReviewCheck ReviewDb :=
  match l.op with
  | .submit telegramId appointmentId values => submit l.context telegramId appointmentId values db
  | .editAdmin actor reviewId values => editAdmin l.context actor reviewId values l.now db
  | .moderate actor reviewId status => moderate l.context actor reviewId status l.now db
  | .softDelete actor reviewId reason => softDelete l.context actor reviewId reason l.now db
  | .restore actor reviewId => restore l.context actor reviewId db
  | .hardDelete actor reviewId => hardDelete l.context actor reviewId db
  | .anonymize userId => .ok (PrivacyRepository.anonymizeReviews userId l.now db)

/-- One step: a refused operation changes nothing. -/
def step (db : ReviewDb) (l : ReviewLabel) : ReviewDb := Except.orElse (db.exec l) db

/-- The state after a run from empty tables. -/
def after (l : List ReviewLabel) : ReviewDb := run step empty l

end ReviewDb

/-! ### What one operation does to a review -/

/-- A review that is published may be: it is approved, its client consents, and it is not deleted. -/
structure Review.Proper (r : Review) : Prop where
  approved : r.publishedAt.isSome = true → r.moderationStatus = .approved
  consented : r.publishedAt.isSome = true → r.publicationConsent = true
  kept : r.publishedAt.isSome = true → r.deletedAt = none

theorem Review.Proper.of_unpublished {r : Review} (h : r.publishedAt = none) : r.Proper := by
  constructor <;> simp [h]

/-- The review `b` goes on from `a`: the client cannot change, and consent is not added. -/
structure Review.Follows (b a : Review) : Prop where
  clientId : b.clientId = a.clientId
  consent : b.publicationConsent = true → a.publicationConsent = true

theorem Review.Follows.refl (a : Review) : a.Follows a := ⟨rfl, id⟩

theorem Review.Follows.trans {a b c : Review} (h : c.Follows b) (h' : b.Follows a) : c.Follows a :=
  ⟨h.clientId.trans h'.clientId, fun consent => h'.consent (h.consent consent)⟩

/-- The client submits this review in a step that gives it the key `i`. -/
def ReviewDb.Submits (db : ReviewDb) (l : ReviewLabel) (i : Nat) (r : Review) : Prop :=
  i = db.reviews.next ∧ ∃ telegramId appointmentId values, l.op = .submit telegramId appointmentId values ∧
    l.context.catalog.userByTelegramId telegramId = some r.clientId ∧ r.publicationConsent = values.publicationConsent

/-- Every review of `db'` is proper, and it goes on from one of `db` or is submitted. -/
def ReviewDb.Moderated (db : ReviewDb) (l : ReviewLabel) (db' : ReviewDb) : Prop :=
  ∀ i b, db'.reviews.row i = some b →
    b.Proper ∧ ((∃ a, db.reviews.row i = some a ∧ b.Follows a) ∨ db.Submits l i b)

namespace ReviewDb

variable {db db' : ReviewDb} {l : ReviewLabel} {i : Nat} {a b : Review}

theorem Moderated.put (proper : db.reviews.All fun _ r => r.Proper) (row : db.reviews.row i = some a)
    (h : db'.reviews = db.reviews.put i b) (hb : b.Proper) (follows : b.Follows a) : db.Moderated l db' := by
  intro j c hc
  rw [h] at hc
  rcases (Table.row_put_eq_some row).mp hc with ⟨rfl, rfl⟩ | ⟨-, hc⟩
  · exact ⟨hb, .inl ⟨a, row, follows⟩⟩
  · exact ⟨proper j c hc, .inl ⟨c, hc, .refl c⟩⟩

end ReviewDb

namespace ReviewService

open ReviewDb

variable {x : ReviewContext} {now : Int} {op : ReviewOp} {actor : Int} {reviewId : Nat} {db db' : ReviewDb}

theorem editAdmin_ok {values : ReviewAdminUpdate} (proper : db.reviews.All fun _ r => r.Proper)
    (h : editAdmin x actor reviewId values now db = .ok db') : db.Moderated ⟨x, now, op⟩ db' := by
  simp only [editAdmin, ensureAdmin, Except.bind_ok, Except.require_ok, Except.orRaise_ok, Except.pure_ok,
    exists_const] at h
  obtain ⟨-, a, row, kept, allowed, rating, -, status, target, rfl⟩ := h
  refine .put proper row rfl ⟨?_, ?_, fun _ => kept⟩ ⟨rfl, id⟩
  · intro published
    by_contra other
    rw [if_neg other] at published
    cases published
  · intro published
    by_contra refused
    have approved : status = .approved := by
      by_contra other
      rw [if_neg other] at published
      cases published
    exact allowed ⟨by rw [target, approved], by simpa using refused⟩

theorem softDelete_ok {reason : String} (proper : db.reviews.All fun _ r => r.Proper)
    (h : softDelete x actor reviewId reason now db = .ok db') : db.Moderated ⟨x, now, op⟩ db' := by
  simp only [softDelete, ensureAdmin, Except.bind_ok, Except.require_ok, Except.orRaise_ok, Except.pure_ok,
    exists_const] at h
  obtain ⟨-, -, a, row, -, rfl⟩ := h
  exact .put proper row rfl (.of_unpublished rfl) ⟨rfl, id⟩

theorem restore_ok (proper : db.reviews.All fun _ r => r.Proper) (h : restore x actor reviewId db = .ok db') :
    db.Moderated ⟨x, now, op⟩ db' := by
  simp only [restore, ensureAdmin, Except.bind_ok, Except.require_ok, Except.orRaise_ok, Except.pure_ok,
    exists_const] at h
  obtain ⟨-, a, row, -, rfl⟩ := h
  exact .put proper row rfl (.of_unpublished rfl) ⟨rfl, id⟩

end ReviewService

namespace ReviewDb

open ReviewService

variable {db db' : ReviewDb} {l : ReviewLabel}

theorem exec_moderated (proper : db.reviews.All fun _ r => r.Proper) (h : db.exec l = .ok db') : db.Moderated l db' := by
  obtain ⟨x, now, op⟩ := l
  cases op with
  | submit telegramId appointmentId values =>
    simp only [exec, submit, ensureEnabled, Except.bind_ok, Except.require_ok, Except.orRaise_ok, Except.pure_ok,
      exists_const] at h
    obtain ⟨-, clientId, client, -, -, -, appointment, -, -, -, -, rfl⟩ := h
    intro i b row
    rcases Table.row_insert_eq_some.mp row with ⟨rfl, rfl⟩ | row
    · exact ⟨.of_unpublished rfl, .inr ⟨rfl, telegramId, appointmentId, values, rfl, client, rfl⟩⟩
    · exact ⟨proper i b row, .inl ⟨b, row, .refl b⟩⟩
  | editAdmin actor reviewId values => exact editAdmin_ok proper h
  | moderate actor reviewId status =>
    simp only [exec, moderate, Except.bind_ok, Except.require_ok, exists_const] at h
    exact editAdmin_ok proper h.2
  | softDelete actor reviewId reason => exact softDelete_ok proper h
  | restore actor reviewId => exact restore_ok proper h
  | hardDelete actor reviewId =>
    simp only [exec, hardDelete, ensureAdmin, Except.bind_ok, Except.require_ok, Except.orRaise_ok, Except.pure_ok,
      exists_const] at h
    obtain ⟨-, -, a, -, -, rfl⟩ := h
    intro i b row
    have before : db.reviews.row i = some b := by
      simp only [Table.row_erase] at row
      split at row
      · cases row
      · exact row
    exact ⟨proper i b before, .inl ⟨b, before, .refl b⟩⟩
  | anonymize userId =>
    cases h
    intro i b row
    simp only [PrivacyRepository.anonymizeReviews, Table.row_mapRows, Option.map_eq_some_iff] at row
    obtain ⟨a, row, rfl⟩ := row
    unfold PrivacyRepository.anonymizedReview
    split
    · exact ⟨.of_unpublished rfl, .inl ⟨a, row, rfl, (by simp)⟩⟩
    · exact ⟨proper i a row, .inl ⟨a, row, .refl a⟩⟩

theorem step_moderated (proper : db.reviews.All fun _ r => r.Proper) : db.Moderated l (db.step l) := by
  unfold step
  cases h : db.exec l with
  | error e => exact fun i b row => ⟨proper i b row, .inl ⟨b, row, .refl b⟩⟩
  | ok db' => exact exec_moderated proper h

/-! ### Runs -/

/-- The client of the review consented to its publication when she submitted it. -/
def ConsentedIn (l : List ReviewLabel) (i : Nat) (r : Review) : Prop :=
  ∃ pre x post telegramId appointmentId values, l = pre ++ x :: post ∧
    x.op = .submit telegramId appointmentId values ∧ i = (after pre).reviews.next ∧
    x.context.catalog.userByTelegramId telegramId = some r.clientId ∧ values.publicationConsent = true

theorem ConsentedIn.append {l m : List ReviewLabel} {i : Nat} {a b : Review} (h : ConsentedIn l i a)
    (client : b.clientId = a.clientId) : ConsentedIn (l ++ m) i b := by
  obtain ⟨pre, x, post, t, k, values, rfl, op, key, who, consent⟩ := h
  exact ⟨pre, x, post ++ m, t, k, values, by simp, op, key, by rw [client]; exact who, consent⟩

theorem after_proper (l : List ReviewLabel) {i : Nat} {r : Review} (row : (after l).reviews.row i = some r) :
    r.Proper ∧ (r.publicationConsent = true → ConsentedIn l i r) := by
  induction l using List.reverseRecOn generalizing i r with
  | nil => cases row
  | append_singleton l x ih =>
    have last : after (l ++ [x]) = (after l).step x := by
      unfold after
      rw [run_append]
      rfl
    rw [last] at row
    obtain ⟨proper, ⟨a, before, follows⟩ | ⟨key, t, k, values, op, client, consent⟩⟩ :=
      step_moderated (fun j a before => (ih before).1) i r row
    · exact ⟨proper, fun consent => ((ih before).2 (follows.consent consent)).append follows.clientId⟩
    · exact ⟨proper, fun given => ⟨l, x, [], t, k, values, rfl, op, key, client, consent ▸ given⟩⟩

/-- The public list shows every review with `published_at`. -/
theorem mem_listPublished (l : List ReviewLabel) {i : Nat} {r : Review} :
    (i, r) ∈ listPublished (after l) ↔ (after l).reviews.row i = some r ∧ r.publishedAt.isSome = true := by
  unfold listPublished
  rw [Table.mem_select]
  refine and_congr_right fun row => ?_
  simp only [Bool.and_eq_true, beq_iff_eq, Option.isNone_iff_eq_none]
  refine ⟨fun shown => shown.1.2, fun published => ?_⟩
  obtain ⟨proper, -⟩ := after_proper l row
  exact ⟨⟨⟨proper.approved published, proper.consented published⟩, published⟩, proper.kept published⟩

/-- In every state that a run reaches, a review with `published_at` is approved and not deleted, and it has the consent
that its client gave when she submitted it. -/
theorem published_reviews (l : List ReviewLabel) (i : Nat) (r : Review) (row : (after l).reviews.row i = some r)
    (published : r.publishedAt.isSome = true) :
    r.moderationStatus = .approved ∧ r.publicationConsent = true ∧ r.deletedAt = none ∧ ConsentedIn l i r := by
  obtain ⟨proper, consented⟩ := after_proper l row
  have consent := proper.consented published
  exact ⟨proper.approved published, consent, proper.kept published, consented consent⟩

/-- The visit 1 of client 2 is completed. -/
def completedVisit : ReviewContext where
  catalog := salon .disabled
  bookings := { Db.empty with
    appointments := Table.empty.insert {
      staffMemberId := 1, clientId := 2, windowId := 1, serviceId := 1, workstationId := none, priceSnapshot := 10000
      prepaymentSnapshot := 0, paymentModeSnapshot := .disabled, durationMinSnapshot := 60, durationMaxSnapshot := 60
      scheduledStartAt := 0, scheduledEndAt := 60, status := .completed } }
  reviewsEnabled := some true
  isOwner t := t == 1

/-- A review with consent is approved. -/
def approvedReview : List ReviewLabel := [
  ⟨completedVisit, 10, .submit 2 1 ⟨5, none, true, by decide, by simp [ReviewText]⟩⟩,
  ⟨completedVisit, 20, .moderate 1 1 .approved⟩]

theorem published_reviews_approvedReview : ∃ r, (after approvedReview).reviews.row 1 = some r ∧
    r.publishedAt = some 20 ∧ r.publicationConsent = true := by
  have shown : ((after approvedReview).reviews.row 1).any (fun r => r.publishedAt == some 20) = true := by decide +kernel
  obtain ⟨r, row, published⟩ := (Option.any_eq_true _ _).mp shown
  have at_ : r.publishedAt = some 20 := beq_iff_eq.mp published
  exact ⟨r, row, at_, (published_reviews approvedReview 1 r row (by rw [at_]; rfl)).2.1⟩

end ReviewDb

end SalonBooking
