import FacilityBooking.Client.Operations
import FacilityBooking.Lib.Delimited
import FacilityBooking.Lib.Fields

/-!
# What the client shows of a response

The class `ResponseParser`; `parseQueryAvailabilityResponse` takes both the response to a query and a notification. A string stream is
the bytes that are left to read; an `std::unordered_map` from strings, which is only asked for its entries by key, is a function, and so
are the strings that a loop over the lines sets.
-/

namespace FacilityBooking.Cpp

/-- `std::getline(stream, piece, delim)`: the piece and what is left, none when the stream has nothing left. -/
def getline (stream : Bytes) (delim : UInt8) : Option (Bytes × Bytes) := Delimited.next delim stream

/-- The pieces that a loop `while (std::getline(stream, piece, delim))` goes through. -/
def getlines (stream : Bytes) (delim : UInt8) : List Bytes := Delimited.pieces delim stream

namespace ResponseParser

/-- `isErrorResponse`, and what it leaves of the stream, of which it has read a line. -/
def isErrorResponse (responseStream : Bytes) : Bool × Bytes :=
  match getline responseStream 10 with
  | some (line, rest) => (decide (find line Constants.STATUS_ERROR 0 = some 0), rest)
  | none => (false, [])

/-- The message of an error response, when its line is there. -/
def errorMessage (responseStream : Bytes) : Bytes :=
  match getline responseStream 10 with
  | some (line, _) => if find line (literal "message:") 0 = some 0 then line.drop 8 else []
  | none => []

/-- A piece of a day's line as it is shown, the first dash replaced. -/
def formatTimeslot (timeslot : Bytes) : Bytes :=
  match find timeslot (literal "-") 0 with
  | some dashPos => timeslot.take dashPos ++ literal "to" ++ timeslot.drop (dashPos + 1)
  | none => timeslot

/-- The day of a line, and the line as it is shown: the pieces that are not empty, the last comma and space removed. -/
def formatTimeslots (line : Bytes) : Option (Bytes × Bytes) :=
  match getline line 58 with
  | some (day, lineStream) =>
    let formattedTimeslots := (getlines lineStream 44).foldl
      (fun formatted timeslot => if timeslot = [] then formatted else formatted ++ (formatTimeslot timeslot ++ literal ", "))
      (day ++ literal ": ")
    some (day, if 2 < formattedTimeslots.length then formattedTimeslots.take (formattedTimeslots.length - 2) else formattedTimeslots)
  | none => none

/-- What the loop over the lines has made: the response as far as it goes, and the lines shown by their days. -/
structure Parsed where
  parsedResponse : List Bytes
  availabilityMap : Bytes → Option Bytes

/-- The body of the loop over the lines. -/
def parseLine (parsed : Parsed) (line : Bytes) : Parsed :=
  if find line (literal "facility:") 0 = some 0 then
    { parsed with parsedResponse := parsed.parsedResponse ++ [literal "Facility: " ++ line.drop 9] }
  else if find line (literal "availableTimeslots:") 0 = some 0 then
    parsed
  else
    match formatTimeslots line with
    | some (day, formattedTimeslots) =>
      { parsed with availabilityMap := Function.update parsed.availabilityMap day (some formattedTimeslots) }
    | none => parsed

/-- The line shown for a day, if any: of the days requested, one that is not in the map is closed; without a filter such a day is left
out. -/
def dayLine (filterDays : Bool) (requestedDaysSet : List Bytes) (availabilityMap : Bytes → Option Bytes) (day : Bytes) : Option Bytes :=
  if filterDays then
    if day ∈ requestedDaysSet then some ((availabilityMap day).getD (day ++ literal ": Closed")) else none
  else
    availabilityMap day

def parseQueryAvailabilityResponse (response daysRequested : Bytes) : List Bytes :=
  let filterDays := decide (daysRequested ≠ [])
  let requestedDaysSet := if filterDays then getlines daysRequested 44 else []
  let (isError, responseStream) := isErrorResponse response
  if isError then
    [literal "Error", errorMessage responseStream]
  else
    let parsed := (getlines responseStream 10).foldl parseLine ⟨[literal "Facility Availability"], fun _ => none⟩
    parsed.parsedResponse ++ Constants.DAYS_OF_WEEK.filterMap (dayLine filterDays requestedDaysSet parsed.availabilityMap)

/-! ## The other responses -/

/-- The names that a line of `parseQueryFacilityNamesResponse` adds. -/
def facilityNames (line : Bytes) : List Bytes :=
  if find line (literal "facilityNames:") 0 = some 0 then
    (getlines (line.drop 14) 44).filter (fun facilityName => decide (facilityName ≠ []))
  else []

def parseQueryFacilityNamesResponse (response : Bytes) : List Bytes :=
  let (isError, responseStream) := isErrorResponse response
  if isError then
    [literal "Error", errorMessage responseStream]
  else
    literal "Facility Names" :: (getlines responseStream 10).flatMap facilityNames

/-- The first of the labels that a line starts with, and the line without so many bytes as `substr` removes for it. -/
def readLabel (labels : List (String × Nat)) (line : Bytes) : Option (String × Bytes) :=
  (labels.find? (fun label => decide (find line (literal label.1) 0 = some 0))).map (fun label => (label.1, line.drop label.2))

/-- What the parsers of labelled lines do: the strings that the lines set, empty at first, are shown. -/
def parseLabelled (labels : List (String × Nat)) (parsedResponse : (String → Bytes) → List Bytes) (response : Bytes) : List Bytes :=
  let (isError, responseStream) := isErrorResponse response
  if isError then
    [literal "Error", errorMessage responseStream]
  else
    parsedResponse (Fields.fill (readLabel labels) (fun _ => []) (getlines responseStream 10))

def bookingLabels : List (String × Nat) :=
  [("bookingID:", 10), ("user:", 5), ("facility:", 9), ("day:", 4), ("startTime:", 10), ("endTime:", 8)]

def parseQueryBookingResponse : Bytes → List Bytes :=
  parseLabelled bookingLabels fun field =>
    [literal "Booking Details", literal "Booking ID: " ++ field "bookingID:", literal "User: " ++ field "user:",
      literal "Facility: " ++ field "facility:", literal "Day: " ++ field "day:", literal "Start Time: " ++ field "startTime:",
      literal "End Time: " ++ field "endTime:"]

def parseBookFacilityResponse (response : Bytes) : List Bytes := parseQueryBookingResponse response

def updateLabels : List (String × Nat) :=
  [("oldBookingID:", 13), ("newBookingID:", 13), ("user:", 5), ("facility:", 9), ("day:", 4), ("startTime:", 10), ("endTime:", 8)]

def parseUpdateBookingResponse : Bytes → List Bytes :=
  parseLabelled updateLabels fun field =>
    [literal "New Booking Details", literal "New Booking ID: " ++ field "newBookingID:", literal "User: " ++ field "user:",
      literal "Facility: " ++ field "facility:", literal "New Day: " ++ field "day:",
      literal "New Start Time: " ++ field "startTime:", literal "New End Time: " ++ field "endTime:"]

def parseDeleteBookingResponse : Bytes → List Bytes :=
  parseLabelled [("bookingID:", 10), ("user:", 5)] fun field =>
    [literal "Booking Deleted", literal "Old Booking ID: " ++ field "bookingID:", literal "User: " ++ field "user:"]

def parseMonitorAvailabilityResponse : Bytes → List Bytes :=
  parseLabelled [("facility:", 9), ("interval:", 9)] fun field =>
    [literal "Monitoring Registration", literal "Facility: " ++ field "facility:",
      literal "Duration: " ++ field "interval:" ++ literal "s"]

def parseRateFacilityResponse : Bytes → List Bytes :=
  parseLabelled [("user:", 5), ("facility:", 9), ("rating:", 7)] fun field =>
    [literal "Rating Added", literal "User: " ++ field "user:", literal "Facility: " ++ field "facility:",
      literal "Rating: " ++ field "rating:"]

def parseQueryRatingResponse : Bytes → List Bytes :=
  parseLabelled [("facility:", 9), ("rating:", 7)] fun field =>
    [literal "Facility Rating", literal "Facility: " ++ field "facility:", literal "Rating: " ++ field "rating:"]

def parseEchoMessageResponse (response : Bytes) : List Bytes :=
  [literal "Response from Server", literal "Message: " ++ response]

end ResponseParser

end FacilityBooking.Cpp
