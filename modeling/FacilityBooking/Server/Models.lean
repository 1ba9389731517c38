import FacilityBooking.Java.Runtime
import Mathlib.Data.List.Sort

/-!
# The models of the server: time slots, bookings, availabilities, ratings, facilities

The classes of `Server/models`. An array with one entry for each day of the week is a function of the day (`getValue() - 1` is
the index the source computes); an object that the source changes in place is a value here, and a method that changes it
returns the changed one. A Java `int` that is only compared and printed is an `Int`.
-/

namespace FacilityBooking

/-- `TimeSlot`. -/
structure TimeSlot where
  startHour : Int
  startMinute : Int
  endHour : Int
  endMinute : Int
  day : DayOfWeek
  deriving DecidableEq, Repr

namespace TimeSlot

/-- `slot.conflictsWith(other)`. -/
def conflictsWith (slot other : TimeSlot) : Bool :=
  if slot.endHour < other.startHour || (slot.endHour == other.startHour && slot.endMinute ≤ other.startMinute) then
    false
  else if slot.startHour > other.endHour || (slot.startHour == other.endHour && slot.startMinute ≥ other.endMinute) then
    false
  else
    true

/-- `slot.toString()`. -/
def toText (slot : TimeSlot) : Text :=
  format02d slot.startHour ++ format02d slot.startMinute ++ " - ".toList ++ format02d slot.endHour ++
    format02d slot.endMinute

def getStartTime (slot : TimeSlot) : Text := format02d slot.startHour ++ format02d slot.startMinute

def getEndTime (slot : TimeSlot) : Text := format02d slot.endHour ++ format02d slot.endMinute

end TimeSlot

/-- `Booking`. The facility's name is the one of its `Availability`, which nothing sets. -/
structure Booking where
  confirmationID : Text
  userInfo : Text
  facilityName : Option Text
  timeSlot : TimeSlot
  deriving DecidableEq, Repr

namespace Booking

def getDay (b : Booking) : DayOfWeek := b.timeSlot.day

def conflictsWith (b : Booking) (slot : TimeSlot) : Bool := b.timeSlot.conflictsWith slot

/-- The order by which `getAvailableTimeSlots` sorts: the comparator does not order the second before the first. -/
def startsNoLater (a b : Booking) : Prop :=
  if a.timeSlot.startHour ≠ b.timeSlot.startHour then a.timeSlot.startHour ≤ b.timeSlot.startHour
  else a.timeSlot.startMinute ≤ b.timeSlot.startMinute

instance : DecidableRel startsNoLater := fun a b => by unfold startsNoLater; infer_instance

/-- `slot.confirmationID.equals(prev_bookingId) && slot.userInfo.equals(userInfo)`. -/
def isOf (prevBookingId : Option Text) (userInfo : Text) (slot : Booking) : Bool :=
  decide (some slot.confirmationID = prevBookingId) && decide (slot.userInfo = userInfo)

end Booking

/-- `Availability`: for each day, whether it is open, its opening and closing time, and the bookings of the day in the order in
which they were made. -/
structure Availability where
  days : DayOfWeek → Bool
  startHour : DayOfWeek → Int
  startMinute : DayOfWeek → Int
  endHour : DayOfWeek → Int
  endMinute : DayOfWeek → Int
  bookedSlots : DayOfWeek → List Booking
  facilityName : Option Text

namespace Availability

/-- `new Availability()`. -/
def new : Availability where
  days := fun _ => false
  startHour := fun _ => 0
  startMinute := fun _ => 0
  endHour := fun _ => 0
  endMinute := fun _ => 0
  bookedSlots := fun _ => []
  facilityName := none

def setAvaOfDay (a : Availability) (day : DayOfWeek) (isOpen : Bool) (startHour startMinute endHour endMinute : Int) :
    Availability :=
  { a with
    days := Function.update a.days day isOpen
    startHour := Function.update a.startHour day startHour
    startMinute := Function.update a.startMinute day startMinute
    endHour := Function.update a.endHour day endHour
    endMinute := Function.update a.endMinute day endMinute }

def isAvailable (a : Availability) (slot : TimeSlot) : Bool :=
  a.days slot.day && (a.bookedSlots slot.day).all (fun b => !b.conflictsWith slot)

/-- The bookings of one day, replaced. -/
def setBooked (a : Availability) (day : DayOfWeek) (bookings : List Booking) : Availability :=
  { a with bookedSlots := Function.update a.bookedSlots day bookings }

/-- `bookTimeSlot`, given the text of the `UUID.randomUUID()` it draws and returns. -/
def bookTimeSlot (a : Availability) (confirmationID userInfo : Text) (slot : TimeSlot) : Availability :=
  a.setBooked slot.day (a.bookedSlots slot.day ++ [⟨confirmationID, userInfo, a.facilityName, slot⟩])

/-- The loop of `removeTimeSlot` over the days that are left: the ID of the booking removed, the first that matches. -/
def removeFromDays (a : Availability) (prevBookingId : Option Text) (userInfo : Text) :
    List DayOfWeek → Availability × Option Text
  | [] => (a, none)
  | day :: rest =>
    match (a.bookedSlots day).find? (Booking.isOf prevBookingId userInfo) with
    | some slot => (a.setBooked day ((a.bookedSlots day).eraseP (Booking.isOf prevBookingId userInfo)),
        some slot.confirmationID)
    | none => a.removeFromDays prevBookingId userInfo rest

/-- `removeTimeSlot`: what is left, and the ID of the booking removed or null. -/
def removeTimeSlot (a : Availability) (prevBookingId : Option Text) (userInfo : Text) : Availability × Option Text :=
  a.removeFromDays prevBookingId userInfo DayOfWeek.values

/-- `getBookingInfo`: the first booking with that ID, over the days in order. -/
def getBookingInfo (a : Availability) (confirmationID : Text) : Option Booking :=
  DayOfWeek.values.findSome? (fun day => (a.bookedSlots day).find? (fun b => decide (b.confirmationID = confirmationID)))

/-- The loop of `getAvailableTimeSlots` over the sorted bookings, from the cursor (hour, minute), and the slot after it. -/
def sweep (a : Availability) (day : DayOfWeek) : Int → Int → List Booking → List TimeSlot
  | currentStartHour, currentStartMinute, [] =>
    if currentStartHour < a.endHour day || (currentStartHour == a.endHour day && currentStartMinute < a.endMinute day) then
      [⟨currentStartHour, currentStartMinute, a.endHour day, a.endMinute day, day⟩]
    else []
  | currentStartHour, currentStartMinute, b :: rest =>
    (if currentStartHour < b.timeSlot.startHour ||
        (currentStartHour == b.timeSlot.startHour && currentStartMinute < b.timeSlot.startMinute) then
      [⟨currentStartHour, currentStartMinute, b.timeSlot.startHour, b.timeSlot.startMinute, day⟩]
    else []) ++ a.sweep day b.timeSlot.endHour b.timeSlot.endMinute rest

/-- `getAvailableTimeSlots`: `List.sort` is stable, and so is an insertion sort. -/
def getAvailableTimeSlots (a : Availability) (day : DayOfWeek) : List TimeSlot :=
  if a.days day then
    a.sweep day (a.startHour day) (a.startMinute day) ((a.bookedSlots day).insertionSort Booking.startsNoLater)
  else []

end Availability

/-- `Rating`. -/
structure Rating where
  totalRatingSum : Double
  numberOfRatings : BitVec 32
  averageRating : Double
  deriving DecidableEq

namespace Rating

/-- `new Rating()`: the bits of `0.0` are zero. -/
def new : Rating := ⟨0, 0, 0⟩

def addRating (Γ : Jvm) (r : Rating) (rating : Double) : Rating :=
  let totalRatingSum := Γ.addDouble r.totalRatingSum rating
  let numberOfRatings := r.numberOfRatings + 1
  if numberOfRatings = 0 then ⟨totalRatingSum, numberOfRatings, 0⟩
  else ⟨totalRatingSum, numberOfRatings, Γ.divDouble totalRatingSum (Γ.toDouble numberOfRatings.toInt)⟩

end Rating

/-- `Facility`. Its availability is never null: the constructor makes one and `init` replaces it by another. -/
structure Facility where
  name : Text
  availability : Availability
  rating : Rating

namespace Facility

/-- `new Facility(name)`. -/
def new (name : Text) : Facility := ⟨name, Availability.new, Rating.new⟩

def setAvailability (f : Facility) (availability : Availability) : Facility := { f with availability := availability }

def addRating (Γ : Jvm) (f : Facility) (rating : Double) : Facility := { f with rating := f.rating.addRating Γ rating }

end Facility

/-! ## The fields an operation leaves alone -/

namespace Availability

@[simp] theorem setBooked_days (a : Availability) (day : DayOfWeek) (l : List Booking) : (a.setBooked day l).days = a.days :=
  rfl

@[simp] theorem setBooked_self (a : Availability) (day : DayOfWeek) (l : List Booking) :
    (a.setBooked day l).bookedSlots day = l :=
  Function.update_self _ _ _

theorem setBooked_of_ne (a : Availability) {day day' : DayOfWeek} (l : List Booking) (h : day' ≠ day) :
    (a.setBooked day l).bookedSlots day' = a.bookedSlots day' :=
  Function.update_of_ne h _ _

end Availability

end FacilityBooking
