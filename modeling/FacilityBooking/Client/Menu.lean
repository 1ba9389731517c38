import FacilityBooking.Client.Prompts

/-!
# The menu

The dialogs of the class `UserInterface`, of which each asks some operations of the client, and `displayMenu`, which goes from one to the
next. Given is what is typed; the client comes from outside, as what it answers. What a dialog shows is the contents of its boxes; the
fixed texts it prints besides are left out.
-/

namespace FacilityBooking.Cpp

namespace UserInterface

/-- What is typed in a round of the menu, at each prompt once for every time that it asks. The name of a facility is any line of text; of
the rating the text is given that `std::to_string` makes of it. -/
structure Typed where
  choice : List (Option Int)
  facilityName : Text
  daysOfWeek : List Bytes
  dayOfWeek : List (Option Int)
  startTime : List Bytes
  endTime : List Bytes
  bookingID : List Bytes
  confirmation : List Bytes
  offsetMinutes : List (Option Int)
  durationSeconds : List Bytes
  rating : Bytes
  messageData : Bytes

/-- What a dialog comes to: the contents of the boxes that it shows, and the client, if it returns to the menu. It does not when a prompt
does not return, or the user has left. -/
abbrev Displayed (σ : Type) := List (List Bytes) × Option σ

section

variable {σ : Type}

/-- A dialog ends. -/
def done (client : σ) : Displayed σ := ([], some client)

/-- A dialog goes on with what a prompt returns. -/
def enter {α β : Type} (round : α → Prompted β) (typed : List α) (goOn : β → σ → Displayed σ) (client : σ) : Displayed σ :=
  match prompt round typed with
  | some (.returns value) => goOn value client
  | _ => ([], none)

variable (ask : Call → σ → Bytes × σ)

/-- The part that the dialogs are made of: an operation is asked and its response shown, and unless that is an error the dialog goes on
with the response. -/
def askAndShow (call : Call) (goOn : Bytes → σ → Displayed σ) (client : σ) : Displayed σ :=
  let (response, client) := ask call client
  let parsedResponse := call.parse response
  if isErrorResponse parsedResponse then
    ([parsedResponse], some client)
  else
    let rest := goOn response client
    (parsedResponse :: rest.1, rest.2)

/-- The last operation of a dialog. -/
def askLast (call : Call) : σ → Displayed σ := askAndShow ask call fun _ => done

def handleQueryFacilityNames : σ → Displayed σ := askLast ask .queryFacilityNames

/-- The dialogs about a facility show the names to choose from first. -/
def handleFacility (goOn : σ → Displayed σ) : σ → Displayed σ := askAndShow ask .queryFacilityNames fun _ => goOn

def handleQueryAvailability (typed : Typed) : σ → Displayed σ :=
  handleFacility ask (enter promptDaysOfWeek typed.daysOfWeek fun daysOfWeek =>
    askLast ask (.queryAvailability (getBytes typed.facilityName) daysOfWeek))

def handleBookFacility (typed : Typed) : σ → Displayed σ :=
  handleFacility ask (enter promptDayOfWeek typed.dayOfWeek fun dayOfWeek => enter promptTime typed.startTime fun startTime =>
    enter promptTime typed.endTime fun endTime =>
      askLast ask (.bookFacility (getBytes typed.facilityName) dayOfWeek startTime endTime))

def handleRateFacility (typed : Typed) : σ → Displayed σ :=
  handleFacility ask (askLast ask (.rateFacility (getBytes typed.facilityName) typed.rating))

def handleQueryRating (typed : Typed) : σ → Displayed σ :=
  handleFacility ask (askLast ask (.queryRating (getBytes typed.facilityName)))

def handleQueryBooking (typed : Typed) : σ → Displayed σ :=
  enter promptBookingID typed.bookingID fun bookingID => askLast ask (.queryBooking bookingID)

/-- The dialogs that change a booking show it first, and go on with it once that is confirmed. -/
def handleBooking (typed : Typed) (goOn : Bytes → Bytes → σ → Displayed σ) : σ → Displayed σ :=
  enter promptBookingID typed.bookingID fun bookingID => askAndShow ask (.queryBooking bookingID) fun oldBookingDetails =>
    enter promptConfirmation typed.confirmation fun confirmation =>
      if confirmation then goOn bookingID oldBookingDetails else done

def handleUpdateBooking (typed : Typed) : σ → Displayed σ :=
  handleBooking ask typed fun bookingID oldBookingDetails => enter promptOffset typed.offsetMinutes fun offsetMinutes =>
    askLast ask (.updateBooking bookingID offsetMinutes oldBookingDetails)

def handleDeleteBooking (typed : Typed) : σ → Displayed σ :=
  handleBooking ask typed fun bookingID oldBookingDetails => askLast ask (.deleteBooking bookingID oldBookingDetails)

def handleEchoMessage (typed : Typed) : σ → Displayed σ :=
  enter promptConfirmation typed.confirmation fun confirmation =>
    if confirmation then askLast ask (.echoMessage typed.messageData) else done

/-- The last box of `handleMonitorAvailability`. -/
def endOfMonitoring : List Bytes :=
  [literal "End of Monitoring", literal "Monitoring period has ended. No further updates will be received."]

/-- `monitorAvailability` of the client, with the callback that shows what it is given: the response, be it an error, and what is listened
to after a success. -/
def monitorAvailability (listen : Int → σ → List Bytes × σ) (facilityName : Bytes) (durationSeconds : Int) (client : σ) :
    List (List Bytes) × σ :=
  let (registrationResponse, client) := ask (.monitorAvailability facilityName durationSeconds) client
  let parsedResponse := ResponseParser.parseMonitorAvailabilityResponse registrationResponse
  if find registrationResponse Constants.STATUS_SUCCESS 0 = some 0 then
    let (updates, client) := listen durationSeconds client
    (parsedResponse :: updates.map (fun update => ResponseParser.parseQueryAvailabilityResponse update []), client)
  else ([parsedResponse], client)

/-- `handleMonitorAvailability`, where what the client listens to comes from outside too. -/
def handleMonitorAvailability (listen : Int → σ → List Bytes × σ) (typed : Typed) : σ → Displayed σ :=
  handleFacility ask (enter promptDuration typed.durationSeconds fun durationSeconds client =>
    let (screens, client) := monitorAvailability ask listen (getBytes typed.facilityName) durationSeconds client
    (screens ++ [endOfMonitoring], some client))

/-- `handleExit`: the user who confirms does not come back. -/
def handleExit (typed : Typed) : σ → Displayed σ :=
  enter promptConfirmation typed.confirmation fun confirmation client => ([], if confirmation then none else some client)

def handleUserChoice (listen : Int → σ → List Bytes × σ) (typed : Typed) (choice : Int) : σ → Displayed σ :=
  match choice with
  | 1 => handleQueryFacilityNames ask
  | 2 => handleQueryAvailability ask typed
  | 3 => handleBookFacility ask typed
  | 4 => handleQueryBooking ask typed
  | 5 => handleUpdateBooking ask typed
  | 6 => handleDeleteBooking ask typed
  | 7 => handleMonitorAvailability ask listen typed
  | 8 => handleRateFacility ask typed
  | 9 => handleQueryRating ask typed
  | 10 => handleEchoMessage ask typed
  | 11 => handleExit typed
  | _ => done

/-- The loop of `displayMenu`, over what is typed in its rounds. The box of the menu itself, the same in every round, is left out. -/
def displayMenu (listen : Int → σ → List Bytes × σ) : List Typed → σ → Displayed σ
  | [], client => done client
  | typed :: rounds, client =>
    match enter promptChoice typed.choice (handleUserChoice ask listen typed) client with
    | (screens, none) => (screens, none)
    | (screens, some client) =>
      let rest := displayMenu listen rounds client
      (screens ++ rest.1, rest.2)

end

end UserInterface

end FacilityBooking.Cpp
