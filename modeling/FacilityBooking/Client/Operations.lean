import FacilityBooking.Client.Client

/-!
# What the client asks for

The texts that the operations of the class `Client` give to `sendWithRetry`, with the operations of `std::string` they use, and the
check of `UserInterface::promptTime`. A text is missing when a function of the standard library throws, or an `int` overflows, on the
way to it; the text that `std::to_string` makes of a `float` comes from outside.
-/

namespace FacilityBooking.Cpp

namespace Constants

/-- The days in the order of the menu that they are chosen from. -/
def DAYS_OF_WEEK : List Bytes := ["MONDAY", "TUESDAY", "WEDNESDAY", "THURSDAY", "FRIDAY", "SATURDAY", "SUNDAY"].map literal

end Constants

/-! ## Strings -/

/-- `s.substr(pos, n)`, none for a position beyond the end. -/
def substr (s : Bytes) (pos n : Nat) : Option Bytes := if pos ≤ s.length then some ((s.drop pos).take n) else none

/-- `s.find(part, pos)`, none for `npos`. -/
def find (s part : Bytes) (pos : Nat) : Option Nat :=
  (List.range' pos (s.length + 1 - pos)).find? (fun i => part.isPrefixOf (s.drop i))

/-- `::isspace`, in the locale of C. -/
def isSpace (b : UInt8) : Bool := decide (b = 32) || decide (9 ≤ b) && decide (b ≤ 13)

/-- `::isdigit`. -/
def isDigit (b : UInt8) : Bool := decide (48 ≤ b) && decide (b ≤ 57)

/-- A number that an `int` holds. -/
def toInt (n : Int) : Option Int := if -2 ^ 31 ≤ n ∧ n < 2 ^ 31 then some n else none

/-- The number that digits stand for. -/
def digitsValue (digits : Bytes) : Nat := digits.foldl (fun n b => n * 10 + (b.toNat - 48)) 0

/-- `std::stoi(s)`: an optional sign and digits after any white space, whatever follows; none when there is no digit, or the number
is too large. -/
def stoi (s : Bytes) : Option Int :=
  let s := s.dropWhile isSpace
  let digits := (if s.head? = some 45 ∨ s.head? = some 43 then s.tail else s).takeWhile isDigit
  if digits = [] then none else toInt (if s.head? = some 45 then -digitsValue digits else digitsValue digits)

/-- `std::to_string(n)`. -/
def to_string (n : Int) : Bytes := getBytes (decimal n)

/-! ## What is entered -/

/-- `timeRegex` of `promptTime`. -/
def timeRegex (timeStr : Bytes) : Bool :=
  match timeStr with
  | [h₁, h₂, m₁, m₂] =>
    ((decide (h₁ = 48) || decide (h₁ = 49)) && isDigit h₂ || decide (h₁ = 50) && (decide (48 ≤ h₂) && decide (h₂ ≤ 51))) &&
      ((decide (48 ≤ m₁) && decide (m₁ ≤ 53)) && isDigit m₂)
  | _ => false

/-! ## What is sent -/

namespace RequestMessage

/-- The numbers of the operations, as the server has them in its `Operation`. -/
def READ : BitVec 32 := 0

def WRITE : BitVec 32 := 1

def UPDATE : BitVec 32 := 2

def DELETE_REQUEST : BitVec 32 := 3

def MONITOR : BitVec 32 := 4

end RequestMessage

namespace Client

/-- The request of `queryFacilityNames`: the name `ALL` stands for the list of all. -/
def queryFacilityNames : Bytes := literal "facility,ALL"

/-- The request of `queryAvailability`, where the days are joined already. -/
def queryAvailability (facilityName daysOfWeek : Bytes) : Bytes := literal "facility," ++ facilityName ++ literal "," ++ daysOfWeek

/-- The request of `bookFacility`: a time of four characters is sent as an hour and a minute of two. -/
def bookFacility (facilityName dayOfWeek startTime endTime : Bytes) : Option Bytes := do
  let startTimeHour ← substr startTime 0 2
  let startTimeMinute ← substr startTime 2 2
  let endTimeHour ← substr endTime 0 2
  let endTimeMinute ← substr endTime 2 2
  return facilityName ++ literal "," ++ dayOfWeek ++ literal "," ++ startTimeHour ++ literal "," ++ startTimeMinute ++ literal "," ++
    endTimeHour ++ literal "," ++ endTimeMinute

/-- The request of `queryBooking`. -/
def queryBooking (bookingID : Bytes) : Bytes := literal "booking," ++ bookingID

/-- What follows a label up to the end of the line; nothing when the label is not there. -/
def extract (label : String) (bookingDetails : Bytes) : Bytes :=
  match find bookingDetails (literal label) 0 with
  | some pos =>
    let start := pos + (literal label).length
    match find bookingDetails (literal "\n") start with
    | some stop => (bookingDetails.drop start).take (stop - start)
    | none => bookingDetails.drop start
  | none => []

/-- `extractFacilityName`, and like it the other three, each with its label. -/
def extractFacilityName (bookingDetails : Bytes) : Bytes := extract "facility:" bookingDetails

def extractDayOfWeek (bookingDetails : Bytes) : Bytes := extract "day:" bookingDetails

def extractStartTime (bookingDetails : Bytes) : Bytes := extract "startTime:" bookingDetails

def extractEndTime (bookingDetails : Bytes) : Bytes := extract "endTime:" bookingDetails

/-- The minutes that `updateBooking` takes a time for, an offset added. -/
def totalMinutes (time : Bytes) (offsetMinutes : Int) : Option Int := do
  let hour ← stoi (← substr time 0 2)
  let minute ← stoi (← substr time 2 2)
  toInt (hour * 60 + minute + offsetMinutes)

/-- The request of `updateBooking`: the slot that the response to a query reports, each time with the offset added and split by a
division that truncates. -/
def updateBooking (oldBookingID : Bytes) (offsetMinutes : Int) (oldBookingDetails : Bytes) : Option Bytes := do
  let facilityName := extractFacilityName oldBookingDetails
  let oldDayOfWeek := extractDayOfWeek oldBookingDetails
  let totalStartMinutes ← totalMinutes (extractStartTime oldBookingDetails) offsetMinutes
  let totalEndMinutes ← totalMinutes (extractEndTime oldBookingDetails) offsetMinutes
  return literal "booking," ++ oldBookingID ++ literal "," ++ facilityName ++ literal "," ++ oldDayOfWeek ++ literal "," ++
    to_string (totalStartMinutes.tdiv 60) ++ literal "," ++ to_string (totalStartMinutes.tmod 60) ++ literal "," ++
    to_string (totalEndMinutes.tdiv 60) ++ literal "," ++ to_string (totalEndMinutes.tmod 60)

/-- The request of `deleteBooking`, for the facility that the response to a query reports. -/
def deleteBooking (bookingID bookingDetails : Bytes) : Bytes := bookingID ++ literal "," ++ extractFacilityName bookingDetails

/-- The request of `monitorAvailability`. -/
def monitorAvailability (facilityName : Bytes) (durationSeconds : Int) : Bytes :=
  literal "register," ++ facilityName ++ literal "," ++ to_string durationSeconds

/-- `rateFacility`, given the text of the rating. -/
def rateFacility (facilityName rating : Bytes) : Bytes := literal "rating," ++ facilityName ++ literal "," ++ rating

/-- The request of `queryRating`. -/
def queryRating (facilityName : Bytes) : Bytes := literal "rating," ++ facilityName

end Client

end FacilityBooking.Cpp
