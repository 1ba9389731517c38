import FacilityBooking.Lemmas.Size
import FacilityBooking.Lemmas.Split
import FacilityBooking.Runs

/-!
# Whether a response can be sent

The buffer that a response is serialized into never grows, and some texts of responses have no bound: the error texts that quote a
piece of the request, the availability of a facility with many gaps between its bookings, and an echo. Such a response is lost,
while the request has been executed.
-/

namespace FacilityBooking

/-- The response given, if there is one, can be serialized. -/
def Sendable (Γ : Jvm) (s : ServerState) (e : Event) : Prop :=
  ∀ r, (handleRequest Γ s e).result = .ok r → ∃ bytes, serializeMessage Γ r = .ok bytes

/-! ## The requests whose response is too long -/

/-- The bytes of the text of an exception. -/
def messageSize (Γ : Jvm) : JavaException → Nat
  | .numberFormat message => size message
  | .illegalArgument message => size message
  | .checked message => size message
  | .classNotFound name => size name
  | x => size (orNull (Γ.message x))

/-- The bytes of the line of one day in the text of an availability. -/
def daySize (a : Availability) (days : List DayOfWeek) (day : DayOfWeek) : Nat :=
  if (days ≠ [] ∧ day ∉ days) ∨ a.getAvailableTimeSlots day = [] then 0
  else size day.name + 2 + ((a.getAvailableTimeSlots day).map (fun slot => size slot.toText + 1)).sum

/-- The pieces of a `READ` of a facility that has too many free slots, of a booking whose fields are too long, or of such a
rating. -/
def PiecesOutgrow (Γ : Jvm) (facilities : List Facility) (kind name : Text) (rest : List Text) : Prop :=
  (kind = "facility".toList ∧ name ≠ "ALL".toList ∧ ∃ days f, rest.mapM DayOfWeek.valueOf = .ok days ∧
      getFacility facilities name = some f ∧
      dataRoom < 45 + size name + (DayOfWeek.values.map (daySize f.availability days)).sum) ∨
    (kind = "booking".toList ∧ ∃ f b, findBooking facilities name = some (f, b) ∧
      dataRoom < 67 + size b.confirmationID + size b.userInfo + size f.name + size b.getDay.name +
        size b.timeSlot.getStartTime + size b.timeSlot.getEndTime) ∨
    (kind = "rating".toList ∧ ∃ f, getFacility facilities name = some f ∧
      dataRoom < 32 + size f.name + size (Γ.format1f f.rating.averageRating))

/-- A `READ` of such pieces. -/
def ReadOutgrows (Γ : Jvm) (facilities : List Facility) (data : Option Text) : Prop :=
  ∃ text kind name rest, data = some text ∧ split text = kind :: name :: rest ∧ PiecesOutgrow Γ facilities kind name rest

/-- The bytes that the details of a booking take, with its user. -/
def detailsSize (e : Event) (booking : BookingDetails) : Nat :=
  size e.uuid.toText + size e.userInfo + size booking.facilityName + size booking.day.name +
    size booking.timeSlot.getStartTime + size booking.timeSlot.getEndTime

/-- A `WRITE` with a piece that cannot be read and is too long to quote, or one that is granted to a user of too long a name. -/
def WriteOutgrows (Γ : Jvm) (s : ServerState) (m : RequestMessage) (e : Event) : Prop :=
  match parseBookingDetails Γ m.data with
  | .error x => dataRoom < 21 + messageSize Γ x
  | .ok booking => grants s.facilities booking = true ∧ dataRoom < 66 + detailsSize e booking

/-- The same of an update of a booking. -/
def UpdateBookingOutgrows (Γ : Jvm) (s : ServerState) (m : RequestMessage) (e : Event) : Prop :=
  match parseUpdateBookingDetails Γ m.data with
  | .error x => dataRoom < 21 + messageSize Γ x
  | .ok booking => ∃ f, getFacility s.facilities booking.facilityName = some f ∧
      f.availability.isAvailable booking.timeSlot = true ∧
      dataRoom < 84 + size (orNull (f.availability.removeTimeSlot booking.prevBookingId e.userInfo).2) + detailsSize e booking

/-- The same of a rating. -/
def RatingOutgrows (Γ : Jvm) (s : ServerState) (m : RequestMessage) (e : Event) : Prop :=
  match parseRating Γ m.data with
  | .error x => dataRoom < 21 + messageSize Γ x
  | .ok (facilityName, rating) =>
    (getFacility s.facilities facilityName = none ∧ dataRoom < 21 + messageSize Γ .nullPointer) ∨
      ((getFacility s.facilities facilityName).isSome = true ∧
        dataRoom < 38 + size e.userInfo + size facilityName + size (Γ.format1f rating))

/-- The same of an `UPDATE`. -/
def UpdateOutgrows (Γ : Jvm) (s : ServerState) (m : RequestMessage) (e : Event) : Prop :=
  match parseUpdateType m.data with
  | .error x => dataRoom < 21 + messageSize Γ x
  | .ok updateType => (updateType = "booking".toList ∧ UpdateBookingOutgrows Γ s m e) ∨
      (updateType = "rating".toList ∧ RatingOutgrows Γ s m e)

/-- The same of a `DELETE`. -/
def DeleteOutgrows (Γ : Jvm) (s : ServerState) (m : RequestMessage) (e : Event) : Prop :=
  match parseDelete m.data with
  | .error x => dataRoom < 21 + messageSize Γ x
  | .ok (bookingId, facilityName) => ∃ f, getFacility s.facilities facilityName = some f ∧
      dataRoom < 31 + size (orNull (f.availability.removeTimeSlot (some bookingId) e.userInfo).2) + size e.userInfo

/-- The same of a `MONITOR`. -/
def MonitorOutgrows (Γ : Jvm) (s : ServerState) (m : RequestMessage) : Prop :=
  match splitData m.data with
  | .error x => dataRoom < 21 + messageSize Γ x
  | .ok parts => parts.length ≠ 1 ∧
      match getIndex parts 0 with
      | .error x => dataRoom < 21 + messageSize Γ x
      | .ok kind => kind = "register".toList ∧
          match parseRegistration Γ parts with
          | .error x => dataRoom < 21 + messageSize Γ x
          | .ok (facilityName, monitorInterval) => (getFacility s.facilities facilityName).isSome = true ∧
              dataRoom < 34 + size facilityName + size (decimal monitorInterval)

/-- A request whose execution gives too long a response. -/
def ExecutionOutgrows (Γ : Jvm) (s : ServerState) (m : RequestMessage) (e : Event) : Prop :=
  match m.getOperation with
  | .READ => ReadOutgrows Γ s.facilities m.data
  | .WRITE => WriteOutgrows Γ s m e
  | .UPDATE => UpdateOutgrows Γ s m e
  | .DELETE => DeleteOutgrows Γ s m e
  | .MONITOR => MonitorOutgrows Γ s m
  | _ => False

/-- The datagrams that bring about too long a response: an echo of too long a text, and such a request where it repeats none. -/
def Outgrows (Γ : Jvm) (s : ServerState) (e : Event) : Prop :=
  ∃ m, deserializeMessage Γ e.bytes = .ok m ∧
    ((m.getOperation = .ECHO ∧ ∃ t, m.data = some t ∧ dataRoom < size t) ∨
      (m.getOperation ≠ .ECHO ∧ replayOf s m e = none ∧ ExecutionOutgrows Γ s m e))

/-! ## What the handlers answer -/

theorem size_getMessage (Γ : Jvm) (x : JavaException) : size (orNull (x.getMessage Γ)) = messageSize Γ x := by
  cases x <;> rfl

/-- What a handler answers is too long. -/
def Overfull (handled : Handled) : Prop := ∃ r, handled.2 = .ok r ∧ dataRoom < size (orNull r.data)

theorem overfull_ok_iff {s : ServerState} {r : RequestMessage} : Overfull (s, .ok r) ↔ dataRoom < size (orNull r.data) := by
  simp only [Overfull, Except.ok.injEq, exists_eq_left']

theorem not_overfull_error {s : ServerState} {op id : BitVec 32} {message : Text} (h : size message ≤ 888) :
    ¬Overfull (s, .ok ⟨op, id, error message⟩) := by
  rw [overfull_ok_iff, size_error, dataRoom]
  omega

theorem overfull_caught_iff {Γ : Jvm} {op : Operation} {m : RequestMessage} {s : ServerState} {x : JavaException} :
    Overfull (tryCatch Γ op m (s, .error x)) ↔ dataRoom < 21 + messageSize Γ x := by
  rw [tryCatch, overfull_ok_iff, size_error, size_getMessage]

theorem tryCatch_ok (Γ : Jvm) (op : Operation) (m : RequestMessage) (s : ServerState) (r : RequestMessage) :
    tryCatch Γ op m (s, .ok r) = (s, .ok r) := rfl

/-- The names in the lines of responses. -/
theorem size_names : size "bookingID".toList = 9 ∧ size "oldBookingID".toList = 12 ∧ size "newBookingID".toList = 12 ∧
    size "user".toList = 4 ∧ size "facility".toList = 8 ∧ size "day".toList = 3 ∧ size "startTime".toList = 9 ∧
    size "endTime".toList = 7 ∧ size "rating".toList = 6 ∧ size "interval".toList = 8 := by decide

theorem size_bookedText (e : Event) (booking : BookingDetails) :
    size (bookedText e.uuid.toText e.userInfo booking) = 51 + detailsSize e booking := by
  obtain ⟨hid, _, _, huser, hfacility, hday, hstart, hend, _⟩ := size_names
  simp only [bookedText, size_lines_cons, size_lines_singleton, size_line, detailsSize, BookingDetails.timeSlot]
  omega

theorem size_updatedText (old : Option Text) (e : Event) (booking : BookingDetails) :
    size (updatedText old e.uuid.toText e.userInfo booking) = 69 + size (orNull old) + detailsSize e booking := by
  obtain ⟨_, hold, hnew, huser, hfacility, hday, hstart, hend, _⟩ := size_names
  have hnewline := size_newline
  simp only [updatedText, size_append, size_lines_cons, size_lines_singleton, size_line, detailsSize, BookingDetails.timeSlot]
  omega

theorem size_bookingText (f : Facility) (b : Booking) :
    size (bookingText f b) = 52 + size b.confirmationID + size b.userInfo + size f.name + size b.getDay.name +
      size b.timeSlot.getStartTime + size b.timeSlot.getEndTime := by
  obtain ⟨hid, _, _, huser, hfacility, hday, hstart, hend, _⟩ := size_names
  have hnewline := size_newline
  simp only [bookingText, size_append, size_lines_cons, size_lines_singleton, size_line]
  omega

/-- The line of a day. -/
theorem size_formatDay (a : Availability) (days : List DayOfWeek) (day : DayOfWeek) :
    size (formatDay a days day) = daySize a days day := by
  unfold formatDay daySize
  by_cases hhidden : days ≠ [] ∧ day ∉ days
  · rw [if_pos hhidden, if_pos (Or.inl hhidden)]
    rfl
  · rw [if_neg hhidden]
    cases hslots : a.getAvailableTimeSlots day with
    | nil =>
      rw [if_pos (Or.inr rfl)]
      rfl
    | cons slot slots =>
      rw [if_neg (by simp [hhidden]), size_append, size_append, size_cons, size_flatMap, size_colon, size_newline]
      simp only [size_append, size_comma]
      omega

theorem size_availability (a : Availability) (name : Text) (days : List DayOfWeek) :
    size (line "facility" name ++ "\navailableTimeslots:\n".toList ++ DayOfWeek.values.flatMap (formatDay a days)) =
      30 + size name + (DayOfWeek.values.map (daySize a days)).sum := by
  obtain ⟨_, _, _, _, hfacility, _⟩ := size_names
  have htitle : size "\navailableTimeslots:\n".toList = 21 := rfl
  have hdays : (fun day => size (formatDay a days day)) = daySize a days := funext (size_formatDay a days)
  rw [size_append, size_append, size_line, size_flatMap, hdays]
  omega

section

variable (Γ : Jvm) (s : ServerState) (m : RequestMessage) (e : Event)

theorem bookFacility_overfull_iff : Overfull (tryCatch Γ .WRITE m (bookFacility Γ s m e)) ↔ WriteOutgrows Γ s m e := by
  unfold bookFacility WriteOutgrows
  cases parseBookingDetails Γ m.data with
  | error x => exact overfull_caught_iff
  | ok booking =>
    cases hf : getFacility s.facilities booking.facilityName with
    | none =>
      simp only [hf, grants, Bool.false_eq_true, false_and, iff_false]
      exact not_overfull_error (by decide)
    | some f =>
      cases ha : f.availability.isAvailable booking.timeSlot with
      | false =>
        simp only [hf, grants, ha, Bool.false_eq_true, if_false, false_and, iff_false]
        exact not_overfull_error (by decide)
      | true =>
        simp only [hf, grants, ha, if_true, true_and, tryCatch_ok, overfull_ok_iff, size_success, size_bookedText]
        rw [← Nat.add_assoc]

theorem updateBooking_overfull_iff :
    Overfull (tryCatch Γ .UPDATE m (updateBooking Γ s m e)) ↔ UpdateBookingOutgrows Γ s m e := by
  unfold updateBooking UpdateBookingOutgrows
  cases parseUpdateBookingDetails Γ m.data with
  | error x => exact overfull_caught_iff
  | ok booking =>
    cases hf : getFacility s.facilities booking.facilityName with
    | none =>
      simp only [hf, reduceCtorEq, false_and, exists_false, iff_false]
      exact not_overfull_error (by decide)
    | some f =>
      cases ha : f.availability.isAvailable booking.timeSlot with
      | false =>
        simp only [hf, ha, Option.some.injEq, exists_eq_left', Bool.false_eq_true, if_false, false_and, iff_false]
        exact not_overfull_error (by decide)
      | true =>
        simp only [hf, ha, Option.some.injEq, exists_eq_left', if_true, true_and, tryCatch_ok, overfull_ok_iff, size_success,
          size_updatedText]
        rw [← Nat.add_assoc, ← Nat.add_assoc]

theorem addRating_overfull_iff : Overfull (tryCatch Γ .UPDATE m (addRating Γ s m e)) ↔ RatingOutgrows Γ s m e := by
  obtain ⟨_, _, _, huser, hfacility, _, _, _, hrating, _⟩ := size_names
  unfold addRating RatingOutgrows
  cases parseRating Γ m.data with
  | error x => exact overfull_caught_iff
  | ok p =>
    cases hf : getFacility s.facilities p.1 with
    | none =>
      simp only [hf, true_and, Option.isSome_none, Bool.false_eq_true, false_and, or_false]
      exact overfull_caught_iff
    | some f =>
      simp only [hf, reduceCtorEq, false_and, Option.isSome_some, true_and, false_or, tryCatch_ok, overfull_ok_iff, size_success,
        size_lines_cons, size_lines_singleton, size_line]
      omega

theorem update_overfull_iff : Overfull (tryCatch Γ .UPDATE m (update Γ s m e)) ↔ UpdateOutgrows Γ s m e := by
  unfold update UpdateOutgrows
  cases parseUpdateType m.data with
  | error x => exact overfull_caught_iff
  | ok updateType =>
    by_cases hb : updateType = "booking".toList
    · have hne : "booking".toList ≠ "rating".toList := by decide
      simp only [hb, if_true, true_and, hne, false_and, or_false]
      exact updateBooking_overfull_iff Γ s m e
    · by_cases hr : updateType = "rating".toList
      · have hne : "rating".toList ≠ "booking".toList := by decide
        simp only [hr, hne, if_false, if_true, false_and, true_and, false_or]
        exact addRating_overfull_iff Γ s m e
      · simp only [hb, hr, if_false, false_and, or_false, iff_false]
        exact not_overfull_error (by decide)

theorem deleteBooking_overfull_iff : Overfull (tryCatch Γ .DELETE m (deleteBooking s m e)) ↔ DeleteOutgrows Γ s m e := by
  obtain ⟨hid, _, _, huser, _⟩ := size_names
  unfold deleteBooking DeleteOutgrows
  cases parseDelete m.data with
  | error x => exact overfull_caught_iff
  | ok p =>
    cases hf : getFacility s.facilities p.2 with
    | none =>
      simp only [hf, reduceCtorEq, false_and, exists_false, iff_false]
      exact not_overfull_error (by decide)
    | some f =>
      simp only [hf, Option.some.injEq, exists_eq_left', tryCatch_ok, overfull_ok_iff, size_success, size_lines_cons,
        size_lines_singleton, size_line]
      omega

theorem monitor_overfull_iff : Overfull (tryCatch Γ .MONITOR m (monitor Γ s m e)) ↔ MonitorOutgrows Γ s m := by
  obtain ⟨_, _, _, _, hfacility, _, _, _, _, hinterval⟩ := size_names
  unfold monitor MonitorOutgrows
  cases splitData m.data with
  | error x => exact overfull_caught_iff
  | ok parts =>
    by_cases hl : parts.length = 1
    · simp only [hl, if_true, ne_eq, not_true_eq_false, false_and, iff_false]
      exact not_overfull_error (by decide)
    · simp only [hl, if_false, ne_eq, not_false_eq_true, true_and]
      cases getIndex parts 0 with
      | error x => exact overfull_caught_iff
      | ok kind =>
        by_cases hk : kind = "register".toList
        · simp only [hk, if_true, true_and]
          cases parseRegistration Γ parts with
          | error x => exact overfull_caught_iff
          | ok p =>
            cases hf : getFacility s.facilities p.1 with
            | none =>
              simp only [hf, Option.isSome_none, Bool.false_eq_true, false_and, iff_false]
              exact not_overfull_error (by decide)
            | some f =>
              simp only [hf, Option.isSome_some, true_and, tryCatch_ok, overfull_ok_iff, size_success, size_lines_cons,
                size_lines_singleton, size_line]
              omega
        · simp only [hk, if_false, false_and, iff_false]
          exact not_overfull_error (by decide)

end

/-- The names of all facilities fit. -/
theorem reachable_size_names {Γ : Jvm} {checkHistory : Bool} {s : ServerState} (h : Reachable Γ checkHistory s) :
    size (s.facilities.flatMap (fun facility => facility.name ++ [','])) = 27 := by
  have hmap : s.facilities.flatMap (fun facility => facility.name ++ [',']) =
      (s.facilities.map Facility.name).flatMap (fun name => name ++ [',']) := by rw [List.flatMap_map]
  rw [hmap, reachable_names h]
  rfl

theorem not_lt_size_error {message : Text} (h : size message ≤ 888) : ¬dataRoom < size (orNull (error message)) := by
  rw [size_error, dataRoom]
  omega

/-- What a `READ` of two pieces or more answers is too long for one of these reasons. -/
theorem readPieces_overfull_iff {Γ : Jvm} {facilities : List Facility}
    (hnames : size (facilities.flatMap (fun facility => facility.name ++ [','])) = 27) {text kind name : Text} {rest : List Text}
    (hs : split text = kind :: name :: rest) :
    (∃ d, readData Γ facilities (some text) = .ok d ∧ dataRoom < size (orNull d)) ↔
      PiecesOutgrow Γ facilities kind name rest := by
  rw [readData_of_split hs]
  unfold PiecesOutgrow
  have hfb : "facility".toList ≠ "booking".toList := by decide
  have hfr : "facility".toList ≠ "rating".toList := by decide
  have hbr : "booking".toList ≠ "rating".toList := by decide
  by_cases hfacility : kind = "facility".toList
  · subst hfacility
    simp only [if_true, true_and, hfb, hfr, false_and, or_false]
    by_cases hall : name = "ALL".toList
    · simp only [hall, if_true, Except.ok.injEq, exists_eq_left', ne_eq, not_true_eq_false, false_and, iff_false, size_success,
        size_line, hnames]
      decide
    · simp only [hall, if_false, ne_eq, not_false_eq_true, true_and]
      cases rest.mapM DayOfWeek.valueOf with
      | error x => exact iff_of_false (by rintro ⟨_, h, _⟩; cases h) (by rintro ⟨_, _, h, _⟩; cases h)
      | ok days =>
        simp only [Except.map, Except.ok.injEq, exists_and_left, exists_eq_left', formatFacilityAvailability]
        cases getFacility facilities name with
        | none =>
          refine iff_of_false (not_lt_size_error (by decide)) ?_
          rintro ⟨_, h, _⟩
          cases h
        | some f =>
          simp only [Option.some.injEq, exists_eq_left', size_success, size_availability]
          omega
  · by_cases hbooking : kind = "booking".toList
    · subst hbooking
      simp only [hfb.symm, if_false, if_true, false_and, false_or, true_and, hbr, or_false, Except.ok.injEq, exists_eq_left']
      cases findBooking facilities name with
      | none =>
        refine iff_of_false (not_lt_size_error (by decide)) ?_
        rintro ⟨_, _, h, _⟩
        cases h
      | some p =>
        obtain ⟨f, b⟩ := p
        simp only [Option.some.injEq, Prod.mk.injEq, size_success, size_bookingText]
        constructor
        · intro h
          exact ⟨f, b, ⟨rfl, rfl⟩, by omega⟩
        · rintro ⟨_, _, ⟨rfl, rfl⟩, h⟩
          omega
    · by_cases hrating : kind = "rating".toList
      · subst hrating
        simp only [hfr.symm, hbr.symm, if_false, if_true, false_and, false_or, true_and, Except.ok.injEq, exists_eq_left']
        cases getFacility facilities name with
        | none =>
          refine iff_of_false (not_lt_size_error (by decide)) ?_
          rintro ⟨_, h, _⟩
          cases h
        | some f =>
          obtain ⟨_, _, _, _, hfacility, _, _, _, hrating, _⟩ := size_names
          simp only [Option.some.injEq, exists_eq_left', getRating, size_success, size_lines_cons, size_lines_singleton, size_line]
          omega
      · simp only [hfacility, hbooking, hrating, if_false, false_and, or_false, Except.ok.injEq, exists_eq_left', iff_false]
        exact not_lt_size_error (by decide)

/-- What a `READ` answers is too long for one of these reasons. -/
theorem readData_overfull_iff {Γ : Jvm} {facilities : List Facility}
    (hnames : size (facilities.flatMap (fun facility => facility.name ++ [','])) = 27) (data : Option Text) :
    (∃ d, readData Γ facilities data = .ok d ∧ dataRoom < size (orNull d)) ↔ ReadOutgrows Γ facilities data := by
  cases data with
  | none => exact iff_of_false (by rintro ⟨_, h, _⟩; cases h) (by rintro ⟨_, _, _, _, h, _⟩; cases h)
  | some text =>
    have hpieces : ReadOutgrows Γ facilities (some text) ↔
        ∃ kind name rest, split text = kind :: name :: rest ∧ PiecesOutgrow Γ facilities kind name rest := by
      simp only [ReadOutgrows, Option.some.injEq, exists_and_left, exists_eq_left']
    rw [hpieces]
    cases hs : split text with
    | nil =>
      rw [readData_of_empty hs]
      exact iff_of_false (by rintro ⟨_, h, _⟩; cases h) (by rintro ⟨_, _, _, h, _⟩; cases h)
    | cons kind parts =>
      cases parts with
      | nil =>
        rw [readData_of_single hs]
        refine iff_of_false ?_ (by rintro ⟨_, _, _, h, _⟩; cases h)
        rintro ⟨_, h, hsize⟩
        cases h
        exact not_lt_size_error (by decide) hsize
      | cons name rest =>
        rw [readPieces_overfull_iff hnames hs]
        constructor
        · intro h
          exact ⟨kind, name, rest, rfl, h⟩
        · rintro ⟨_, _, _, h, hgrow⟩
          cases h
          exact hgrow

/-! ## Runs -/

/-- The response of a request that is executed is too long for one of these reasons. -/
theorem dispatch_overfull_iff {Γ : Jvm} {s : ServerState}
    (hnames : size (s.facilities.flatMap (fun facility => facility.name ++ [','])) = 27) (m : RequestMessage) (e : Event) :
    Overfull (dispatch Γ s m e) ↔ ExecutionOutgrows Γ s m e := by
  have hunknown : ¬Overfull (s, .ok ⟨Operation.NONE.getOpCode, m.requestID, error "Unknown operation".toList⟩) :=
    not_overfull_error (by decide)
  unfold dispatch ExecutionOutgrows
  cases m.getOperation with
  | READ =>
    rw [← readData_overfull_iff hnames, Overfull]
    cases readData Γ s.facilities m.data with
    | error x => exact iff_of_false (by rintro ⟨_, h, _⟩; cases h) (by rintro ⟨_, h, _⟩; cases h)
    | ok d => simp only [Except.map, Except.ok.injEq, exists_eq_left']
  | WRITE => exact bookFacility_overfull_iff Γ s m e
  | UPDATE => exact update_overfull_iff Γ s m e
  | DELETE => exact deleteBooking_overfull_iff Γ s m e
  | MONITOR => exact monitor_overfull_iff Γ s m e
  | NONE => exact iff_of_false hunknown id
  | ECHO => exact iff_of_false hunknown id
  | RATING => exact iff_of_false hunknown id

/-- A response is serialized exactly when its text is not too long; no text at all never is. -/
theorem serializeMessage_ok_iff_orNull {Γ : Jvm} {r : RequestMessage} :
    (∃ bytes, serializeMessage Γ r = .ok bytes) ↔ ¬dataRoom < size (orNull r.data) := by
  rw [serializeMessage_ok_iff, Nat.not_lt]
  cases r.data with
  | none => exact iff_of_true (by simp) (by decide)
  | some t => simp only [Option.some.injEq, forall_eq', orNull, Option.getD_some]

/-- A state whose history has no response that is too long. -/
structure Recorded (Γ : Jvm) (checkHistory : Bool) (s : ServerState) : Prop where
  reachable : Reachable Γ checkHistory s
  history : ∀ r ∈ s.requestHistory, ∃ bytes, serializeMessage Γ r.responseMessage = .ok bytes

/-- From such a state, the response can be sent exactly when the datagram is none of these. -/
theorem Recorded.sendable_iff {Γ : Jvm} {checkHistory : Bool} {s : ServerState} (h : Recorded Γ checkHistory s) (e : Event) :
    Sendable Γ s e ↔ ¬Outgrows Γ s e := by
  unfold Sendable Outgrows
  cases hm : deserializeMessage Γ e.bytes with
  | error x =>
    have hrun : handleRequest Γ s e = ⟨s.reset, .ok badRequest, []⟩ := by
      rw [handleRequest, hm]
      rfl
    refine iff_of_true ?_ (by rintro ⟨_, h, _⟩; cases h)
    intro r hr
    rw [hrun] at hr
    cases hr
    exact serializeMessage_ok_iff_orNull.2 (not_lt_size_error (by decide))
  | ok m =>
    simp only [Except.ok.injEq, exists_eq_left']
    by_cases ho : m.getOperation = .ECHO
    · simp only [handleRequest_of_echo hm ho, Except.ok.injEq, forall_eq', ho, true_and, ne_eq, not_true_eq_false, false_and,
        or_false, serializeMessage_ok_iff, not_exists, not_and, Nat.not_lt]
    · simp only [ho, false_and, false_or, ne_eq, not_false_eq_true, true_and]
      cases hreplay : replayOf s m e with
      | some prevRequest =>
        rw [handleRequest_of_replay hm ho hreplay]
        refine iff_of_true ?_ (by rintro ⟨h, _⟩; cases h)
        intro r hr
        cases hr
        exact h.history prevRequest (mem_of_replayOf hreplay)
      | none =>
        have hnames := reachable_size_names h.reachable
        have hexecution : ExecutionOutgrows Γ s m e ↔ Overfull (dispatch Γ s.reset m e) :=
          (@dispatch_overfull_iff Γ s.reset hnames m e).symm
        rw [handleRequest_of_new hm ho hreplay, execute_result, hexecution, Overfull]
        simp only [true_and, not_exists, not_and, serializeMessage_ok_iff_orNull]

/-- A response that can be sent is recorded as one that can be sent again. -/
theorem Recorded.step {Γ : Jvm} {checkHistory : Bool} {s : ServerState} (h : Recorded Γ checkHistory s) {e : Event}
    (hsendable : Sendable Γ s e) : Recorded Γ checkHistory (serverStep Γ s e) := by
  refine ⟨.step h.reachable e, ?_⟩
  have hhandling := handleRequest_handling Γ s e
  unfold Sendable at hsendable
  rw [serverStep]
  generalize handleRequest Γ s e = outcome at hhandling hsendable ⊢
  cases hhandling with
  | undecodable => exact h.history
  | echo => exact h.history
  | replay => exact h.history
  | thrown => exact h.history
  | executed m r last monitors sent =>
    intro x hx
    rcases List.mem_append.1 hx with hx | hx
    · exact h.history x hx
    · rw [List.mem_singleton] at hx
      subst hx
      exact hsendable r rfl

/-- In a run of the server every response can be sent exactly when no datagram of the run is an echo of too long a text or a
request whose execution gives too long a response. -/
theorem replies_sendable_iff (Γ : Jvm) (checkHistory : Bool) (es : List Event) :
    Machine.Along (serverStep Γ) (Sendable Γ) (.init checkHistory) es ↔
      Machine.Along (serverStep Γ) (fun s e => ¬Outgrows Γ s e) (.init checkHistory) es := by
  refine Machine.along_iff_along (P := Recorded Γ checkHistory) (fun s e h => h.sendable_iff e)
    (fun s e h hsendable => h.step hsendable) es _ ⟨.start, fun _ hr => absurd hr List.not_mem_nil⟩

/-- The name of a day that is none is quoted in the error that the parser throws. -/
theorem parseBookingDetails_of_unknownDay {Γ : Jvm} {name day : Text} (hname : ',' ∉ name) (hcomma : ',' ∉ day) (hne : day ≠ [])
    (hday : ∀ d ∈ DayOfWeek.values, d.name ≠ day) :
    parseBookingDetails Γ (some (name ++ ',' :: day)) =
      .error (.illegalArgument ("No enum constant java.time.DayOfWeek.".toList ++ day)) := by
  have hnone : DayOfWeek.values.find? (fun d => decide (d.name = day)) = none := by
    simpa only [List.find?_eq_none, decide_eq_true_eq] using hday
  have hvalue : DayOfWeek.valueOf day = .error (.illegalArgument ("No enum constant java.time.DayOfWeek.".toList ++ day)) := by
    rw [DayOfWeek.valueOf, hnone]
  have hfirst : getIndex [name, day] 0 = .ok name := rfl
  have hsecond : getIndex [name, day] (0 + 1) = .ok day := rfl
  simp only [parseBookingDetails, splitData, split_pair hname hcomma hne, readDetails, hfirst, hsecond, hvalue, bind, Except.bind]

/-- A long name that is no day's, and a request for a booking on that day. -/
@[irreducible] def longDay : Text := List.replicate 860 'X'
def bookLongDay : RequestMessage := ⟨1, 0, some ("Weekday1".toList ++ ',' :: longDay)⟩

theorem size_longDay : size longDay = 860 := by
  unfold longDay
  exact size_replicate 860 'X'

theorem length_bookLongDay : bookLongDay.frame.length = 984 := by
  have hdata : size ("Weekday1".toList ++ ',' :: longDay) = 869 := by
    rw [size_append, size_cons, size_longDay]
    rfl
  rw [RequestMessage.length_frame]
  exact congrArg (115 + ·) hdata

theorem bookLongDay_decodes : deserializeMessage openJdk (Event.sent 5000 bookLongDay ⟨0, 0⟩).bytes = .ok bookLongDay := by
  refine deserializeMessage_frame openJdk bookLongDay fun t ht => ?_
  have hsize : size t < 2 ^ 31 := by
    have hlength := bookLongDay.length_frame
    rw [length_bookLongDay, ht] at hlength
    dsimp only at hlength
    omega
  exact hsize

theorem parse_bookLongDay : parseBookingDetails openJdk bookLongDay.data =
    .error (.illegalArgument ("No enum constant java.time.DayOfWeek.".toList ++ longDay)) := by
  refine parseBookingDetails_of_unknownDay (by decide) ?_ ?_ ?_
  · unfold longDay
    exact fun h => absurd (List.eq_of_mem_replicate h) (by decide)
  · unfold longDay
    exact List.cons_ne_nil _ _
  · intro d _
    unfold longDay
    cases d <;> exact fun h => absurd (List.cons.inj h).1 (by decide)

/-- It is answered by a text that quotes the name, which does not fit. -/
theorem not_sendable :
    ¬∀ checkHistory s, Reachable openJdk checkHistory s → ∀ e : Event, e.bytes.length ≤ bufferLength → Sendable openJdk s e := by
  intro h
  have hrecorded : Recorded openJdk true (.init true) := ⟨.start, fun _ hr => absurd hr List.not_mem_nil⟩
  have hlength : bookLongDay.frame.length ≤ bufferLength := by
    rw [length_bookLongDay]
    decide
  refine (hrecorded.sendable_iff (.sent 5000 bookLongDay ⟨0, 0⟩)).1 (h true _ .start _ hlength) ?_
  have hgrow : WriteOutgrows openJdk (.init true) bookLongDay (.sent 5000 bookLongDay ⟨0, 0⟩) := by
    have hconstant : size "No enum constant java.time.DayOfWeek.".toList = 37 := rfl
    rw [WriteOutgrows, parse_bookLongDay]
    simp only [messageSize, size_append, size_longDay, hconstant]
    decide
  exact ⟨bookLongDay, bookLongDay_decodes, Or.inr ⟨by decide, rfl, hgrow⟩⟩

end FacilityBooking
