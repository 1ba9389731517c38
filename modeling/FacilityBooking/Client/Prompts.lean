import FacilityBooking.Client.UserInterface

/-!
# What the user enters

The prompts of the class `UserInterface`, of which each is a loop that asks until what is typed is valid. Given is what a round reads: a
word or a line of bytes, or the number that `std::cin >> number` reads, if it reads one. The prompt for a rating, a `float`, is left out,
and so are those for the server's address.
-/

namespace FacilityBooking.Cpp

/-- What a round of a prompt comes to: a value is returned, or it is asked again, or the prompt ends otherwise, by an exception or
undefined. -/
inductive Prompted (α : Type) where
  | returns (value : α)
  | again
  | ends
  deriving DecidableEq

/-- The loop of a prompt over what is typed: what the first round comes to that does not ask again. -/
def prompt {α β : Type} (round : α → Prompted β) : List α → Option (Prompted β)
  | [] => none
  | input :: typed =>
    match round input with
    | .returns value => some (.returns value)
    | .again => prompt round typed
    | .ends => some .ends

namespace UserInterface

/-! ## Numbers -/

/-- Whether `std::stoi(s)` throws `std::invalid_argument`; when it throws otherwise, that is `std::out_of_range`. -/
def isInvalidArgument (s : Bytes) : Bool :=
  let s := s.dropWhile isSpace
  decide ((if s.head? = some 45 ∨ s.head? = some 43 then s.tail else s).takeWhile isDigit = [])

/-- `promptChoice`. -/
def promptChoice : Option Int → Prompted Int
  | none => .again
  | some choice => if choice < 1 ∨ 11 < choice then .again else .returns choice

/-- `promptDayOfWeek`. -/
def promptDayOfWeek : Option Int → Prompted Bytes
  | none => .again
  | some choice => if choice < 1 ∨ 7 < choice then .again else .returns (Constants.DAYS_OF_WEEK.getD (choice - 1).toNat [])

/-- `promptOffset`. -/
def promptOffset : Option Int → Prompted Int
  | none => .again
  | some offset => if offset = 0 then .again else .returns offset

/-- `promptDuration`, given a line: digits, of which `std::stoi` may still throw `std::out_of_range`, which is caught. -/
def promptDuration (input : Bytes) : Prompted Int :=
  if input ≠ [] ∧ input.all isDigit then
    match stoi input with
    | some duration => if 0 < duration then .returns duration else .again
    | none => .again
  else .again

/-- The loop of `promptDaysOfWeek` over the tokens. -/
def selectDays (selectedDays : List Bytes) : List Bytes → Prompted (List Bytes)
  | [] => .returns selectedDays
  | choiceStr :: tokens =>
    match stoi choiceStr with
    | some choice =>
      if choice < 1 ∨ 7 < choice then .again
      else selectDays (selectedDays ++ [Constants.DAYS_OF_WEEK.getD (choice - 1).toNat []]) tokens
    -- only `std::invalid_argument` is caught
    | none => if isInvalidArgument choiceStr then .again else .ends

/-- `promptDaysOfWeek`: the days selected, joined by `std::accumulate`; without a token there is no first day to start from. -/
def promptDaysOfWeek (input : Bytes) : Prompted Bytes :=
  match selectDays [] (getlines input 44) with
  | .returns [] => .ends
  | .returns (day :: selectedDays) => .returns (selectedDays.foldl (fun a b => a ++ literal "," ++ b) day)
  | .again => .again
  | .ends => .ends

/-! ## Words -/

/-- Whether a string has as many characters as there are classes, each of its class. -/
def isOfClasses (classes : List (UInt8 → Bool)) (s : Bytes) : Bool :=
  decide (s.length = classes.length) && (List.zipWith (fun isOfClass b => isOfClass b) classes s).all id

/-- `[0-9a-f]`, whatever the case. -/
def isHexDigit (b : UInt8) : Bool := isDigit b || decide (97 ≤ b) && decide (b ≤ 102) || decide (65 ≤ b) && decide (b ≤ 70)

/-- `[89ab]`, whatever the case. -/
def isVariantDigit (b : UInt8) : Bool := decide (b ∈ [56, 57, 97, 98, 65, 66])

def isChar (c b : UInt8) : Bool := decide (b = c)

/-- `bookingIDRegex` of `promptBookingID`: groups of 8, 4, 4, 4 and 12 digits with dashes between, the third of version 4. -/
def bookingIDRegex (bookingID : Bytes) : Bool :=
  isOfClasses (List.replicate 8 isHexDigit ++ isChar 45 :: List.replicate 4 isHexDigit ++
    isChar 45 :: isChar 52 :: List.replicate 3 isHexDigit ++ isChar 45 :: isVariantDigit :: List.replicate 3 isHexDigit ++
    isChar 45 :: List.replicate 12 isHexDigit) bookingID

def promptBookingID (bookingID : Bytes) : Prompted Bytes := if bookingIDRegex bookingID then .returns bookingID else .again

def promptTime (timeStr : Bytes) : Prompted Bytes := if timeRegex timeStr then .returns timeStr else .again

def toLower (b : UInt8) : UInt8 := if 65 ≤ b ∧ b ≤ 90 then b + 32 else b

/-- `yesNoRegex` of `promptConfirmation`. -/
def yesNoRegex (response : Bytes) : Bool :=
  ["yes", "y", "no", "n"].any (fun answer => decide (((response.dropWhile isSpace).rdropWhile isSpace).map toLower = literal answer))

def promptConfirmation (response : Bytes) : Prompted Bool :=
  if yesNoRegex response then .returns (decide (response.head? = some 121 ∨ response.head? = some 89)) else .again

end UserInterface

/-! ## What the dialogs ask -/

namespace Call

open UserInterface

/-- The operations that the dialogs ask of a client, each with what its prompts return. A facility's name is any line of text, and what
a query has shown is passed on as it is. -/
inductive Entered : Call → Prop
  | queryFacilityNames : Entered .queryFacilityNames
  | queryAvailability (facilityName : Text) (typed : List Bytes) (daysOfWeek : Bytes)
    (hdays : prompt promptDaysOfWeek typed = some (.returns daysOfWeek)) :
    Entered (.queryAvailability (getBytes facilityName) daysOfWeek)
  | bookFacility (facilityName : Text) (typedDay : List (Option Int)) (typedStart typedEnd : List Bytes)
    (dayOfWeek startTime endTime : Bytes) (hday : prompt promptDayOfWeek typedDay = some (.returns dayOfWeek))
    (hstart : prompt promptTime typedStart = some (.returns startTime)) (hend : prompt promptTime typedEnd = some (.returns endTime)) :
    Entered (.bookFacility (getBytes facilityName) dayOfWeek startTime endTime)
  | queryBooking (typed : List Bytes) (bookingID : Bytes) (hid : prompt promptBookingID typed = some (.returns bookingID)) :
    Entered (.queryBooking bookingID)
  | updateBooking (typed : List Bytes) (typedOffset : List (Option Int)) (bookingID : Bytes) (offsetMinutes : Int)
    (oldBookingDetails : Bytes) (hid : prompt promptBookingID typed = some (.returns bookingID))
    (hoffset : prompt promptOffset typedOffset = some (.returns offsetMinutes)) :
    Entered (.updateBooking bookingID offsetMinutes oldBookingDetails)
  | deleteBooking (typed : List Bytes) (bookingID oldBookingDetails : Bytes)
    (hid : prompt promptBookingID typed = some (.returns bookingID)) : Entered (.deleteBooking bookingID oldBookingDetails)
  | monitorAvailability (facilityName : Text) (typed : List Bytes) (durationSeconds : Int)
    (hduration : prompt promptDuration typed = some (.returns durationSeconds)) :
    Entered (.monitorAvailability (getBytes facilityName) durationSeconds)
  | rateFacility (facilityName : Text) (rating : Bytes) : Entered (.rateFacility (getBytes facilityName) rating)
  | queryRating (facilityName : Text) : Entered (.queryRating (getBytes facilityName))
  | echoMessage (messageData : Bytes) : Entered (.echoMessage messageData)

end Call

end FacilityBooking.Cpp
