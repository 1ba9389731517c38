import FacilityBooking.Client.ResponseParser

/-!
# What the user is shown

An operation of the class `Client` is a value, with the request it makes and the parser that its response is given to. What the parser
returns is shown in a box.
-/

namespace FacilityBooking.Cpp

/-- An operation of the class `Client`, with its arguments. -/
inductive Call where
  | queryFacilityNames
  | queryAvailability (facilityName daysOfWeek : Bytes)
  | bookFacility (facilityName dayOfWeek startTime endTime : Bytes)
  | queryBooking (bookingID : Bytes)
  | updateBooking (oldBookingID : Bytes) (offsetMinutes : Int) (oldBookingDetails : Bytes)
  | deleteBooking (bookingID bookingDetails : Bytes)
  | monitorAvailability (facilityName : Bytes) (durationSeconds : Int)
  | rateFacility (facilityName rating : Bytes)
  | queryRating (facilityName : Bytes)
  | echoMessage (messageData : Bytes)

namespace Call

/-- The type and the data of the request that it makes. -/
def request : Call → Option (BitVec 32 × Bytes)
  | queryFacilityNames => some (RequestMessage.READ, Client.queryFacilityNames)
  | queryAvailability facilityName daysOfWeek => some (RequestMessage.READ, Client.queryAvailability facilityName daysOfWeek)
  | bookFacility facilityName dayOfWeek startTime endTime =>
    (Client.bookFacility facilityName dayOfWeek startTime endTime).map (fun messageData => (RequestMessage.WRITE, messageData))
  | queryBooking bookingID => some (RequestMessage.READ, Client.queryBooking bookingID)
  | updateBooking oldBookingID offsetMinutes oldBookingDetails =>
    (Client.updateBooking oldBookingID offsetMinutes oldBookingDetails).map (fun messageData => (RequestMessage.UPDATE, messageData))
  | deleteBooking bookingID bookingDetails => some (RequestMessage.DELETE_REQUEST, Client.deleteBooking bookingID bookingDetails)
  | monitorAvailability facilityName durationSeconds =>
    some (RequestMessage.MONITOR, Client.monitorAvailability facilityName durationSeconds)
  | rateFacility facilityName rating => some (RequestMessage.UPDATE, Client.rateFacility facilityName rating)
  | queryRating facilityName => some (RequestMessage.READ, Client.queryRating facilityName)
  | echoMessage messageData => some (RequestMessage.ECHO, messageData)

open ResponseParser

/-- What its dialog makes of the response. -/
def parse : Call → Bytes → List Bytes
  | queryFacilityNames => parseQueryFacilityNamesResponse
  | queryAvailability _ daysOfWeek => fun response => parseQueryAvailabilityResponse response daysOfWeek
  | bookFacility _ _ _ _ => parseBookFacilityResponse
  | queryBooking _ => parseQueryBookingResponse
  | updateBooking _ _ _ => parseUpdateBookingResponse
  | deleteBooking _ _ => parseDeleteBookingResponse
  | monitorAvailability _ _ => parseMonitorAvailabilityResponse
  | rateFacility _ _ => parseRateFacilityResponse
  | queryRating _ => parseQueryRatingResponse
  | echoMessage _ => parseEchoMessageResponse

end Call

namespace UserInterface

/-- `isErrorResponse`. -/
def isErrorResponse (parsedResponse : List Bytes) : Bool := decide (parsedResponse.head? = some (literal "Error"))

/-! ## Boxes -/

/-- The length of the longest line. -/
def maxLength (content : List Bytes) : Nat := content.foldl (fun maxLength line => max maxLength line.length) 0

def border (maxLength : Nat) : Bytes := literal "+-" ++ List.replicate maxLength 45 ++ literal "-+"

/-- The first line, centred. -/
def headerLine (maxLength : Nat) (header : Bytes) : Bytes :=
  let leftPadding := (maxLength - header.length) / 2
  let rightPadding := maxLength - header.length - leftPadding
  literal "| " ++ List.replicate leftPadding 32 ++ header ++ List.replicate rightPadding 32 ++ literal " |"

/-- Another line, filled up with spaces. -/
def contentLine (maxLength : Nat) (line : Bytes) : Bytes :=
  literal "| " ++ line ++ List.replicate (maxLength - line.length) 32 ++ literal " |"

/-- The lines of a box. -/
def boxLines : List Bytes → List Bytes
  | [] => []
  | header :: rest =>
    let maxLength := maxLength (header :: rest)
    border maxLength :: headerLine maxLength header :: border maxLength :: rest.map (contentLine maxLength) ++ [border maxLength]

def generateBox (content : List Bytes) : Bytes := (boxLines content).flatMap (fun line => line ++ literal "\n")

end UserInterface

end FacilityBooking.Cpp
