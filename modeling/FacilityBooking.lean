import FacilityBooking.Lib.HalfOpen
import FacilityBooking.Lib.ReplyCache
import FacilityBooking.Theorems.RoundTrip
import FacilityBooking.Theorems.Survival
import FacilityBooking.Theorems.Unchanged
import FacilityBooking.Theorems.Update
import FacilityBooking.Theorems.Agreement
import FacilityBooking.Theorems.AtMostOnce
import FacilityBooking.Theorems.EndToEnd
import FacilityBooking.Theorems.NoDoubleBooking
import FacilityBooking.Theorems.OpeningHours
import FacilityBooking.Theorems.Complement
import FacilityBooking.Theorems.Replies
import FacilityBooking.Theorems.Delete
import FacilityBooking.Theorems.Notify
import FacilityBooking.Theorems.Sendable
import FacilityBooking.Theorems.Decoders
import FacilityBooking.Theorems.ReadYourWrites
import FacilityBooking.Theorems.AsAsked
import FacilityBooking.Theorems.Shift
import FacilityBooking.Theorems.Sessions
import FacilityBooking.Theorems.Acceptance
import FacilityBooking.Theorems.Commute
import FacilityBooking.Theorems.Retransmission
import FacilityBooking.Theorems.Corruption
import FacilityBooking.Theorems.Lifetime
import FacilityBooking.Theorems.Updates
import FacilityBooking.Theorems.Shards
import FacilityBooking.Theorems.Stale
import FacilityBooking.Theorems.Echo
import FacilityBooking.Theorems.Graphs
import FacilityBooking.Theorems.Primitives
import FacilityBooking.Theorems.Shown
import FacilityBooking.Theorems.Monitoring
import FacilityBooking.Theorems.Copies
import FacilityBooking.Theorems.Lossy
import FacilityBooking.Theorems.Dropping
import FacilityBooking.Theorems.Uptime
import FacilityBooking.Theorems.Moves
import FacilityBooking.Theorems.Menu
