import FacilityBooking.Server.Parser
import FacilityBooking.Server.Serializer

/-!
# The server

The class `Server`: its static variables as a record, the handlers of the operations, `handleRequest`, and the receive loop of
`main`. A handler returns the state it leaves and its response or the exception it throws. The socket is what is sent; what is
printed, and the delay before a request is handled, are left out. The loop is here without the switch that makes it drop every other
datagram; `Server/Main` has the loop with it.
-/

namespace FacilityBooking

/-- The static variables of `Server`. -/
structure ServerState where
  checkHistory : Bool
  facilities : List Facility
  monitors : List Monitor
  requestHistory : List RequestInfo
  lastUpdatedFacility : Option Text

namespace ServerState

/-- The availability of the first facility that `init` makes. -/
def weekday1 : Availability :=
  ((Availability.new.setAvaOfDay .MONDAY true 8 0 17 0).setAvaOfDay .TUESDAY true 8 0 17 0).setAvaOfDay .WEDNESDAY true 8 0 17 0

/-- The availability of the second. -/
def weekday2 : Availability :=
  ((Availability.new.setAvaOfDay .WEDNESDAY true 8 30 23 30).setAvaOfDay .THURSDAY true 8 30 23 30).setAvaOfDay
    .FRIDAY true 8 30 23 30

/-- The availability of the third. -/
def weekends : Availability :=
  (Availability.new.setAvaOfDay .SATURDAY true 9 0 18 0).setAvaOfDay .SUNDAY true 9 0 18 0

/-- `init()`. -/
def init (checkHistory : Bool) : ServerState where
  checkHistory := checkHistory
  facilities :=
    [(Facility.new "Weekday1".toList).setAvailability weekday1, (Facility.new "Weekday2".toList).setAvailability weekday2,
      (Facility.new "Weekends".toList).setAvailability weekends]
  monitors := []
  requestHistory := []
  lastUpdatedFacility := none

end ServerState

/-- The state with no facility last updated, in which `handleRequest` starts. -/
def ServerState.reset (s : ServerState) : ServerState := { s with lastUpdatedFacility := none }

/-- The data of a response of success. -/
def success (text : Text) : Option Text := some ("status:SUCCESS\n".toList ++ text)

/-- The data of an error response. -/
def error (message : Text) : Option Text := some ("status:ERROR\nmessage:".toList ++ message)

/-- A line of a response, `name:value`, without its end. -/
def line (name : String) (value : Text) : Text := name.toList ++ ':' :: value

/-- Lines one below the other, without an end after the last. -/
def lines (ls : List Text) : Text := ['\n'].intercalate ls

/-- What a handler leaves: the state, and the response or an exception. -/
abbrev Handled := ServerState × Java RequestMessage

/-! ## Reading -/

/-- The line of one day in `formatFacilityAvailability`: nothing when no slot is free, or when days are named and this is not
one of them. -/
def formatDay (availability : Availability) (days : List DayOfWeek) (day : DayOfWeek) : Text :=
  if days ≠ [] ∧ day ∉ days then []
  else
    match availability.getAvailableTimeSlots day with
    | [] => []
    | timeslots => day.name ++ ':' :: timeslots.flatMap (fun slot => slot.toText ++ [',']) ++ ['\n']

/-- `formatFacilityAvailability`, where no days are the null map or the empty one. -/
def formatFacilityAvailability (facilities : List Facility) (facilityName : Text) (days : List DayOfWeek) : Option Text :=
  match getFacility facilities facilityName with
  | some requestedFacility =>
    success (line "facility" facilityName ++ "\navailableTimeslots:\n".toList ++
      DayOfWeek.values.flatMap (formatDay requestedFacility.availability days))
  | none => error "Facility not found".toList

/-- `getRating`. -/
def getRating (Γ : Jvm) (facility : Facility) : Option Text :=
  success (lines [line "facility" facility.name, line "rating" (Γ.format1f facility.rating.averageRating)])

/-- The booking of that ID that a `READ` reports, with its facility: the first facility that has one. -/
def findBooking (facilities : List Facility) (bookingID : Text) : Option (Facility × Booking) :=
  facilities.findSome? (fun facility => (facility.availability.getBookingInfo bookingID).map (fun b => (facility, b)))

/-- The text of a booking that is found. -/
def bookingText (facility : Facility) (bookingInfo : Booking) : Text :=
  lines [line "bookingID" bookingInfo.confirmationID, line "user" bookingInfo.userInfo, line "facility" facility.name,
    line "day" bookingInfo.getDay.name, line "startTime" bookingInfo.timeSlot.getStartTime,
    line "endTime" bookingInfo.timeSlot.getEndTime] ++ ['\n']

/-- The case `READ` of `handleRequest`: the data of the response. -/
def readData (Γ : Jvm) (facilities : List Facility) (data : Option Text) : Java (Option Text) := do
  let requestString ← splitData data
  if requestString.length = 1 then
    return error "Invalid request format".toList
  else
    let kind ← getIndex requestString 0
    if kind = "facility".toList then
      let name ← getIndex requestString 1
      if name = "ALL".toList then
        return success (line "facilityNames" (facilities.flatMap (fun facility => facility.name ++ [','])))
      else
        let days ← (requestString.drop 2).mapM DayOfWeek.valueOf
        return formatFacilityAvailability facilities name days
    else if kind = "booking".toList then
      match findBooking facilities (← getIndex requestString 1) with
      | some (facility, bookingInfo) => return success (bookingText facility bookingInfo)
      | none => return error "Booking not found".toList
    else if kind = "rating".toList then
      match getFacility facilities (← getIndex requestString 1) with
      | some facility => return getRating Γ facility
      | none => return error "Facility not found".toList
    else
      return error "Invalid request format".toList

/-! ## The handlers -/

/-- The text of a slot that is booked. -/
def bookedText (confirmationID userInfo : Text) (booking : BookingDetails) : Text :=
  lines [line "bookingID" confirmationID, line "user" userInfo, line "facility" booking.facilityName,
    line "day" booking.timeSlot.day.name, line "startTime" booking.timeSlot.getStartTime,
    line "endTime" booking.timeSlot.getEndTime]

/-- `bookFacility`. -/
def bookFacility (Γ : Jvm) (s : ServerState) (request : RequestMessage) (e : Event) : Handled :=
  match parseBookingDetails Γ request.data with
  | .error x => (s, .error x)
  | .ok booking =>
    match getFacility s.facilities booking.facilityName with
    | none => (s, .ok ⟨Operation.WRITE.getOpCode, request.requestID, error "Facility not found".toList⟩)
    | some facility =>
      let s := { s with lastUpdatedFacility := some booking.facilityName }
      let slot := booking.timeSlot
      if facility.availability.isAvailable slot then
        ({ s with facilities := modifyFacility s.facilities booking.facilityName (fun facility =>
            facility.setAvailability (facility.availability.bookTimeSlot e.uuid.toText e.userInfo slot)) },
          .ok ⟨Operation.WRITE.getOpCode, request.requestID, success (bookedText e.uuid.toText e.userInfo booking)⟩)
      else
        (s, .ok ⟨Operation.WRITE.getOpCode, request.requestID, error "Facility not available at the requested time".toList⟩)

/-- The text of a booking that is updated. -/
def updatedText (deleteConfirmationID : Option Text) (bookingConfirmationID userInfo : Text) (booking : BookingDetails) : Text :=
  lines [line "oldBookingID" (orNull deleteConfirmationID), line "newBookingID" bookingConfirmationID, line "user" userInfo,
    line "facility" booking.facilityName, line "day" booking.day.name, line "startTime" booking.timeSlot.getStartTime,
    line "endTime" booking.timeSlot.getEndTime] ++ ['\n']

/-- `updateBooking`. Nothing in the block that its handler guards throws, so the handler's response is never given. -/
def updateBooking (Γ : Jvm) (s : ServerState) (requestMessage : RequestMessage) (e : Event) : Handled :=
  match parseUpdateBookingDetails Γ requestMessage.data with
  | .error x => (s, .error x)
  | .ok booking =>
    match getFacility s.facilities booking.facilityName with
    | none => (s, .ok ⟨Operation.UPDATE.getOpCode, requestMessage.requestID, error "Facility not found".toList⟩)
    | some facility =>
      let s := { s with lastUpdatedFacility := some booking.facilityName }
      let newTimeSlot := booking.timeSlot
      if facility.availability.isAvailable newTimeSlot then
        let deleteConfirmationID := (facility.availability.removeTimeSlot booking.prevBookingId e.userInfo).2
        ({ s with facilities := modifyFacility s.facilities booking.facilityName (fun facility =>
            facility.setAvailability ((facility.availability.removeTimeSlot booking.prevBookingId e.userInfo).1.bookTimeSlot
              e.uuid.toText e.userInfo newTimeSlot)) },
          .ok ⟨Operation.UPDATE.getOpCode, requestMessage.requestID,
            success (updatedText deleteConfirmationID e.uuid.toText e.userInfo booking)⟩)
      else
        -- the operation of this response is WRITE, as in `bookFacility`
        (s, .ok ⟨Operation.WRITE.getOpCode, requestMessage.requestID,
          error "Facility not available at the requested time".toList⟩)

/-- What `deleteBooking` takes out of the data: the booking's ID and the facility's name. -/
def parseDelete (data : Option Text) : Java (Text × Text) := do
  let parts ← splitData data
  let bookingId ← getIndex parts 0
  let facilityName ← getIndex parts 1
  return (bookingId, facilityName)

/-- `deleteBooking`. `removeTimeSlot` does not throw, so the response that the booking is not found is never given. -/
def deleteBooking (s : ServerState) (requestMessage : RequestMessage) (e : Event) : Handled :=
  match parseDelete requestMessage.data with
  | .error x => (s, .error x)
  | .ok (bookingId, facilityName) =>
    match getFacility s.facilities facilityName with
    | none => (s, .ok ⟨Operation.DELETE.getOpCode, requestMessage.requestID, error "Facility not found".toList⟩)
    | some facility =>
      let confirmationID := (facility.availability.removeTimeSlot (some bookingId) e.userInfo).2
      ({ s with
          lastUpdatedFacility := some facilityName
          facilities := modifyFacility s.facilities facilityName (fun facility =>
            facility.setAvailability (facility.availability.removeTimeSlot (some bookingId) e.userInfo).1) },
        .ok ⟨Operation.DELETE.getOpCode, requestMessage.requestID,
          success (lines [line "bookingID" (orNull confirmationID), line "user" e.userInfo])⟩)

/-- What `addRating` takes out of the data: the facility's name and the rating. -/
def parseRating (Γ : Jvm) (data : Option Text) : Java (Text × Double) := do
  let requestString ← splitData data
  let facilityName ← getIndex requestString 1
  let text ← getIndex requestString 2
  match Γ.parseDouble text with
  | some rating => return (facilityName, rating)
  | none => throw (noDouble text)

/-- `addRating`. -/
def addRating (Γ : Jvm) (s : ServerState) (requestMessage : RequestMessage) (e : Event) : Handled :=
  match parseRating Γ requestMessage.data with
  | .error x => (s, .error x)
  | .ok (facilityName, rating) =>
    match getFacility s.facilities facilityName with
    | none => (s, .error .nullPointer)
    | some _ =>
      ({ s with facilities := modifyFacility s.facilities facilityName (fun facility => facility.addRating Γ rating) },
        .ok ⟨Operation.UPDATE.getOpCode, requestMessage.requestID,
          success (lines [line "user" e.userInfo, line "facility" facilityName, line "rating" (Γ.format1f rating)])⟩)

/-- The block of the case `UPDATE`. -/
def update (Γ : Jvm) (s : ServerState) (requestMessage : RequestMessage) (e : Event) : Handled :=
  match parseUpdateType requestMessage.data with
  | .error x => (s, .error x)
  | .ok updateType =>
    if updateType = "booking".toList then updateBooking Γ s requestMessage e
    else if updateType = "rating".toList then addRating Γ s requestMessage e
    else (s, .ok ⟨Operation.UPDATE.getOpCode, requestMessage.requestID, error "Invalid update type".toList⟩)

/-- What the case `MONITOR` takes out of the pieces of the data: the facility's name and the interval. -/
def parseRegistration (Γ : Jvm) (monitorRequestString : List Text) : Java (Text × Int) := do
  let facilityName ← getIndex monitorRequestString 1
  let monitorInterval ← parseInt Γ (← getIndex monitorRequestString 2)
  return (facilityName, monitorInterval)

/-- The block of the case `MONITOR`. -/
def monitor (Γ : Jvm) (s : ServerState) (requestMessage : RequestMessage) (e : Event) : Handled :=
  match splitData requestMessage.data with
  | .error x => (s, .error x)
  | .ok monitorRequestString =>
    if monitorRequestString.length = 1 then
      -- here and for an unknown facility the operation of the response is READ
      (s, .ok ⟨Operation.READ.getOpCode, requestMessage.requestID, error "Invalid request format".toList⟩)
    else
      match getIndex monitorRequestString 0 with
      | .error x => (s, .error x)
      | .ok kind =>
        if kind = "register".toList then
          match parseRegistration Γ monitorRequestString with
          | .error x => (s, .error x)
          | .ok (facilityName, monitorInterval) =>
            match getFacility s.facilities facilityName with
            | none =>
              (s, .ok ⟨Operation.READ.getOpCode, requestMessage.requestID, error "Invalid facilityName provided".toList⟩)
            | some _ =>
              ({ s with monitors := s.monitors ++ [⟨facilityName, requestMessage.requestID, e.address, e.port, e.now,
                  BitVec.ofInt 32 monitorInterval⟩] },
                .ok ⟨Operation.MONITOR.getOpCode, requestMessage.requestID,
                  success (lines [line "facility" facilityName, line "interval" (decimal monitorInterval)])⟩)
        else
          (s, .ok ⟨Operation.MONITOR.getOpCode, requestMessage.requestID, error "Invalid request format".toList⟩)

/-- A block and its handler: an exception becomes a response of that operation with the exception's message. -/
def tryCatch (Γ : Jvm) (operation : Operation) (requestMessage : RequestMessage) (handled : Handled) : Handled :=
  match handled with
  | (s, .ok response) => (s, .ok response)
  | (s, .error x) => (s, .ok ⟨operation.getOpCode, requestMessage.requestID, error (orNull (x.getMessage Γ))⟩)

/-- The `switch` of `handleRequest`. Only the case `READ` has no handler. -/
def dispatch (Γ : Jvm) (s : ServerState) (requestMessage : RequestMessage) (e : Event) : Handled :=
  match requestMessage.getOperation with
  | .READ =>
    (s, (readData Γ s.facilities requestMessage.data).map (fun data =>
      ⟨Operation.READ.getOpCode, requestMessage.requestID, data⟩))
  | .WRITE => tryCatch Γ .WRITE requestMessage (bookFacility Γ s requestMessage e)
  | .UPDATE => tryCatch Γ .UPDATE requestMessage (update Γ s requestMessage e)
  | .DELETE => tryCatch Γ .DELETE requestMessage (deleteBooking s requestMessage e)
  | .MONITOR => tryCatch Γ .MONITOR requestMessage (monitor Γ s requestMessage e)
  | _ => (s, .ok ⟨Operation.NONE.getOpCode, requestMessage.requestID, error "Unknown operation".toList⟩)

/-! ## Requests -/

/-- What `handleRequest` leaves: the state, the response or the exception thrown, and the notifications sent. -/
structure Outcome where
  state : ServerState
  result : Java RequestMessage
  sent : List Datagram

/-- The last block of `handleRequest`: expired monitors go, and the others of the facility last updated are notified. -/
def notifyMonitors (s : ServerState) (requestMessage : RequestMessage) (now : BitVec 64) : ServerState × List Datagram :=
  match s.lastUpdatedFacility with
  | none => (s, [])
  | some facilityName =>
    if requestMessage.getOperation = .WRITE ∨ requestMessage.getOperation = .UPDATE ∨
        requestMessage.getOperation = .DELETE then
      let s := { s with monitors := removeExpiredMonitors s.monitors now }
      match formatFacilityAvailability s.facilities facilityName [] with
      | some notification =>
        if notification = [] ∨ contains notification "status:ERROR".toList = true then (s, [])
        else (s, notifyAll s.monitors facilityName notification)
      | none => (s, [])
    else (s, [])

/-- `handleRequest` once the request is decoded, is no echo and is not answered from the history. -/
def execute (Γ : Jvm) (s : ServerState) (requestMessage : RequestMessage) (e : Event) : Outcome :=
  match dispatch Γ s requestMessage e with
  | (s, .error x) => ⟨s, .error x, []⟩
  | (s, .ok responseMessage) =>
    let s := { s with requestHistory := s.requestHistory ++ [⟨requestMessage, e.address, e.port, responseMessage⟩] }
    let (s, sent) := notifyMonitors s requestMessage e.now
    ⟨s, .ok responseMessage, sent⟩

/-- The request in the history that the request repeats, when the history is checked. -/
def replayOf (s : ServerState) (requestMessage : RequestMessage) (e : Event) : Option RequestInfo :=
  if s.checkHistory then containsRequest s.requestHistory requestMessage.requestID e.address e.port else none

/-- The response to a datagram that cannot be decoded. -/
def badRequest : RequestMessage := ⟨Operation.READ.getOpCode, 0, error "Bad request".toList⟩

/-- `handleRequest`. -/
def handleRequest (Γ : Jvm) (s : ServerState) (e : Event) : Outcome :=
  let s := { s with lastUpdatedFacility := none }
  match deserializeMessage Γ e.bytes with
  | .error _ => ⟨s, .ok badRequest, []⟩
  | .ok requestMessage =>
    if requestMessage.getOperation = .ECHO then ⟨s, .ok requestMessage, []⟩
    else
      match replayOf s requestMessage e with
      | some prevRequest => ⟨s, .ok prevRequest.responseMessage, []⟩
      | none => execute Γ s requestMessage e

/-! ## The receive loop -/

/-- The length of the buffer that `main` receives into. -/
def bufferLength : Nat := 1000

/-- What the loop of `main` sends in return for a response: nothing when the serializer throws. -/
def reply (Γ : Jvm) (e : Event) (responseMessage : RequestMessage) : List Datagram :=
  match serializeMessage Γ responseMessage with
  | .ok replybuff => [⟨e.address, e.port, replybuff⟩]
  | .error _ => []

/-- What the loop of `main` leaves: the state, the responses given, and whether it still runs. -/
structure Serving where
  state : ServerState
  responses : List RequestMessage
  alive : Bool

/-- The loop of `main` over the datagrams that arrive: an exception that `handleRequest` lets through ends it. -/
def serve (Γ : Jvm) : ServerState → List Event → Serving
  | s, [] => ⟨s, [], true⟩
  | s, e :: es =>
    match handleRequest Γ s e with
    | ⟨s, .error _, _⟩ => ⟨s, [], false⟩
    | ⟨s, .ok responseMessage, _⟩ =>
      let rest := serve Γ s es
      ⟨rest.state, responseMessage :: rest.responses, rest.alive⟩

end FacilityBooking
