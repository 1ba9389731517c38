import FacilityBooking.Server.Services

/-!
# The parser of request data

`BookingDetails` and the class `Parser`. The arguments of a constructor call are evaluated from the left, and the first that
throws decides.
-/

namespace FacilityBooking

/-- `BookingDetails`: the previous booking is null in the details of a new booking. -/
structure BookingDetails where
  prevBookingId : Option Text
  facilityName : Text
  day : DayOfWeek
  startHour : Int
  startMinute : Int
  endHour : Int
  endMinute : Int
  deriving DecidableEq, Repr

/-- `new TimeSlot(startHour, startMinute, endHour, endMinute, day)` of the details. -/
def BookingDetails.timeSlot (b : BookingDetails) : TimeSlot := ⟨b.startHour, b.startMinute, b.endHour, b.endMinute, b.day⟩

/-- `data.split(",")`, where the data may be null. -/
def splitData : Option Text → Java (List Text)
  | some s => .ok (split s)
  | none => .error .nullPointer

/-- The facility, the day and the four numbers that start at the index, the day read by `readDay`. -/
def readDetails (Γ : Jvm) (readDay : Text → Java DayOfWeek) (prevBookingId : Option Text) (a : List Text) (i : Nat) :
    Java BookingDetails := do
  let facilityName ← getIndex a i
  let day ← readDay (← getIndex a (i + 1))
  let startHour ← parseInt Γ (← getIndex a (i + 2))
  let startMinute ← parseInt Γ (← getIndex a (i + 3))
  let endHour ← parseInt Γ (← getIndex a (i + 4))
  let endMinute ← parseInt Γ (← getIndex a (i + 5))
  return ⟨prevBookingId, facilityName, day, startHour, startMinute, endHour, endMinute⟩

/-- `Parser.parseBookingDetails`. -/
def parseBookingDetails (Γ : Jvm) (bookingDetails : Option Text) : Java BookingDetails := do
  let details ← splitData bookingDetails
  readDetails Γ DayOfWeek.valueOf none details 0

/-- `Parser.parseUpdateType`. -/
def parseUpdateType (updateType : Option Text) : Java Text := do
  let parts ← splitData updateType
  getIndex parts 0

/-- What the handler in `parseUpdateBookingDetails` turns an exception into. -/
def errorParsing (Γ : Jvm) (e : JavaException) : JavaException :=
  .illegalArgument ("Error parsing booking details: ".toList ++ orNull (e.getMessage Γ))

/-- `Parser.parseUpdateBookingDetails`. -/
def parseUpdateBookingDetails (Γ : Jvm) (bookingDetailsStr : Option Text) : Java BookingDetails :=
  match bookingDetailsStr with
  | none => .error (.illegalArgument "Booking details string cannot be null or empty".toList)
  | some s =>
    if trim s = [] then .error (.illegalArgument "Booking details string cannot be null or empty".toList)
    else
      let parts := split s
      if parts.length ≠ 8 then
        .error (.illegalArgument ("Invalid booking details format. Expected 12 comma-separated values, found: ".toList ++
          decimal parts.length))
      else
        match readDetails Γ (fun day => DayOfWeek.valueOf (Γ.toUpperCase day)) parts[1]? parts 2 with
        | .ok booking => .ok booking
        | .error e => .error (errorParsing Γ e)

end FacilityBooking
