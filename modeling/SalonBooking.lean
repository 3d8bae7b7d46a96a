import SalonBooking.Lib.Table
import SalonBooking.Lib.Guarded
import SalonBooking.Lib.Run
import SalonBooking.Domain.Enums
import SalonBooking.Domain.Appointments
import SalonBooking.Domain.Payments
import SalonBooking.Domain.Calendar
import SalonBooking.Model.Rows
import SalonBooking.Model.Db
import SalonBooking.Model.Catalog
import SalonBooking.Services.Windows
import SalonBooking.Services.Reservations
import SalonBooking.Services.Payments
import SalonBooking.Services.Booking
import SalonBooking.Services.Appointments
import SalonBooking.Services.Reschedule
import SalonBooking.Services.ManualPrepayment
import SalonBooking.Services.Webhooks
import SalonBooking.Services.Refunds
import SalonBooking.Slots.Book
import SalonBooking.Model.System
import SalonBooking.Moves.History
import SalonBooking.Moves.Move
import SalonBooking.Slots.Refine
import SalonBooking.Moves.Kept
import SalonBooking.Moves.Links
import SalonBooking.Moves.Visits
import SalonBooking.Moves.Money
import SalonBooking.Moves.Holds
import SalonBooking.Moves.Reassign
import SalonBooking.Moves.Refunds
import SalonBooking.Moves.Steps
import SalonBooking.Slots.Windows
import SalonBooking.Money.Paid
import SalonBooking.Money.Pairs
import SalonBooking.Money.Backed
import SalonBooking.Lib.Totals
import SalonBooking.Money.Ledger
import SalonBooking.Money.Recorded
import SalonBooking.Money.Standing
import SalonBooking.Money.Consistent
import SalonBooking.Money.Restored
import SalonBooking.Money.Results
import SalonBooking.Lib.Transactions
import SalonBooking.Lib.Isolation
import SalonBooking.Lib.Marks
import SalonBooking.Lib.Statements
import SalonBooking.Domain.Notifications
import SalonBooking.Delivery.Rows
import SalonBooking.Delivery.Notifications
import SalonBooking.Delivery.Leases
import SalonBooking.Delivery.Waitlist
import SalonBooking.Delivery.Delivered
import SalonBooking.Delivery.Stays
import SalonBooking.Bookings.Checkouts
import SalonBooking.Bookings.Spacing
import SalonBooking.Bookings.DailyCap
import SalonBooking.Lib.Counts
import SalonBooking.Lib.Steering
import SalonBooking.Lib.Query
import SalonBooking.Access.InitData
import SalonBooking.Access.OneTime
import SalonBooking.Lib.SlidingWindow
import SalonBooking.Access.RateLimit
import SalonBooking.Access.Bursts
import SalonBooking.Access.Limits
import SalonBooking.Staff.Members
import SalonBooking.Staff.Hierarchy
import SalonBooking.Staff.BusinessType
import SalonBooking.Privacy.Requests
import SalonBooking.Privacy.Consents
import SalonBooking.Privacy.Deletion
import SalonBooking.Privacy.Workflow
import SalonBooking.Privacy.Agreement
import SalonBooking.Privacy.Blockers
import SalonBooking.Lib.Views
import SalonBooking.Waitlist.Matching
import SalonBooking.Waitlist.Closed
import SalonBooking.Waitlist.Freed
import SalonBooking.Bookings.Placed
import SalonBooking.Bookings.FutureLimit
import SalonBooking.Bookings.Pauses
import SalonBooking.Reviews.Publication
import SalonBooking.Money.Retries
import SalonBooking.Money.Failures
import SalonBooking.Bookings.Replay
import SalonBooking.Lib.Pages
import SalonBooking.Services.Listings
import SalonBooking.Bookings.Offers
import SalonBooking.Bookings.Availability
import SalonBooking.Bookings.Options
import SalonBooking.Privacy.Gate
import SalonBooking.Lib.Alone
import SalonBooking.Delivery.Rebuild
import SalonBooking.Lib.Zones
import SalonBooking.Domain.Zones
import SalonBooking.Lib.Decimals
import SalonBooking.Bookings.Prepayment
import SalonBooking.Bookings.Intent
import SalonBooking.Waitlist.Offers
import SalonBooking.Services.HardDelete
import SalonBooking.Moves.HardDelete
import SalonBooking.Lib.Held
import SalonBooking.Staff.Invitations
import SalonBooking.Staff.SingleUse
import SalonBooking.Staff.Alone
import SalonBooking.Lib.Attempts
import SalonBooking.Delivery.Attempts
import SalonBooking.Broadcasts.Rows
import SalonBooking.Broadcasts.Delivery
import SalonBooking.Broadcasts.Attempts
import SalonBooking.Lib.Serial
import SalonBooking.Broadcasts.Sending
import SalonBooking.Lib.Spans
import SalonBooking.Schedule.Ranges
import SalonBooking.Domain.Phones
import SalonBooking.Access.Identity
import SalonBooking.Lib.DecimalNumbers
import SalonBooking.Money.Bodies
import SalonBooking.Access.JsonText
import SalonBooking.Lib.Expiring
import SalonBooking.Access.Sessions
import SalonBooking.Lib.Nesting
import SalonBooking.Lib.Html
import SalonBooking.Domain.TelegramText
import SalonBooking.Lib.Urls
import SalonBooking.Domain.Welcome
import SalonBooking.Broadcasts.Plan
import SalonBooking.Broadcasts.Phases
import SalonBooking.Lib.Readings
import SalonBooking.Schedule.Definitions
import SalonBooking.Schedule.Projection
import SalonBooking.Schedule.Offered
import SalonBooking.Schedule.DatePicker
import SalonBooking.Lib.Owned
import SalonBooking.Acquisition.Touches
import SalonBooking.Acquisition.Ledger
import SalonBooking.Lib.Latest
import SalonBooking.Access.Confirmations
import SalonBooking.Runtime.Heartbeats
import SalonBooking.Access.BookingAbuse
import SalonBooking.Runtime.Scrubbing
