import FacilityBooking.Client.UserInterface
import FacilityBooking.Lemmas.Screens
import FacilityBooking.Theorems.Delete
import FacilityBooking.Theorems.Ledger

/-!
# What the screens say

The server answers with labelled lines, and the client shows the values under the labels it knows. So what is shown of the response to an
executed request is what its execution did: the booking made, moved or removed, the rating given, the registration, and of a query what
the server has.
-/

namespace FacilityBooking

/-! ## Screens -/

/-- What is shown of a booking. -/
def Report.shown (p : Report) : List Text :=
  ["Booking Details".toList, "Booking ID: ".toList ++ p.bookingID, "User: ".toList ++ p.user, "Facility: ".toList ++ p.facility,
    "Day: ".toList ++ p.day, "Start Time: ".toList ++ p.startTime, "End Time: ".toList ++ p.endTime]

/-- What is shown of a booking that another was updated to. -/
def Report.shownNew (p : Report) : List Text :=
  ["New Booking Details".toList, "New Booking ID: ".toList ++ p.bookingID, "User: ".toList ++ p.user,
    "Facility: ".toList ++ p.facility, "New Day: ".toList ++ p.day, "New Start Time: ".toList ++ p.startTime,
    "New End Time: ".toList ++ p.endTime]

/-- What is shown of a rating that is read. -/
def shownRating (Γ : Jvm) (f : Facility) : List Text :=
  ["Facility Rating".toList, "Facility: ".toList ++ f.name, "Rating: ".toList ++ Γ.format1f f.rating.averageRating]

/-- The user has a booking of that ID stored for the facility. -/
def HasBooking (facilities : List Facility) (facilityName bookingId user : Text) : Prop :=
  ∃ x ∈ stored facilities, x.1 = facilityName ∧ x.2.confirmationID = bookingId ∧ x.2.userInfo = user

instance (facilities : List Facility) (facilityName bookingId user : Text) :
    Decidable (HasBooking facilities facilityName bookingId user) := inferInstanceAs (Decidable (∃ x ∈ stored facilities, _))

/-- What is shown of what a request did. -/
def Effect.shown (Γ : Jvm) (e : Event) (facilities : List Facility) : Effect → List Text
  | .nothing => []
  | .book booking => (e.report booking).shown
  | .move booking => (e.report booking).shownNew
  | .remove facilityName bookingId =>
    ["Booking Deleted".toList,
      "Old Booking ID: ".toList ++ (if HasBooking facilities facilityName bookingId e.userInfo then bookingId else "null".toList),
      "User: ".toList ++ e.userInfo]
  | .rate facilityName rating =>
    ["Rating Added".toList, "User: ".toList ++ e.userInfo, "Facility: ".toList ++ facilityName,
      "Rating: ".toList ++ Γ.format1f rating]
  | .register facilityName monitorInterval =>
    ["Monitoring Registration".toList, "Facility: ".toList ++ facilityName, "Duration: ".toList ++ decimal monitorInterval ++ ['s']]

/-- What is shown of an error. -/
def shownError (message : Text) : List Text := ["Error".toList, Cpp.ResponseParser.firstLine message]

/-- A call of one of the operations that may change the server's state. -/
def Cpp.Call.Changes : Cpp.Call → Prop
  | .bookFacility _ _ _ _ => True
  | .updateBooking _ _ _ => True
  | .deleteBooking _ _ => True
  | .monitorAvailability _ _ => True
  | .rateFacility _ _ => True
  | _ => False

/-- What the screen of a call may say when the server executes its request in a state. Of an availability whose slots have numbers of more
than two digits nothing is said. -/
inductive Shows (Γ : Jvm) (s : ServerState) (e : Event) : Cpp.Call → List Bytes → Prop
  | names : Shows Γ s e .queryFacilityNames (("Facility Names".toList :: s.facilities.map Facility.name).map getBytes)
  | availability (name : Text) (days : List DayOfWeek) (f : Facility) (hf : getFacility s.facilities name = some f)
    (screen : List Bytes) (hscreen : (∀ day, ∀ slot ∈ f.availability.getAvailableTimeSlots day, slot.IsTwoDigit) →
      screen = (shown name f.availability.getAvailableTimeSlots days).map getBytes) :
    Shows Γ s e (.queryAvailability (getBytes name) (requested days)) screen
  | booking (bookingID : Text) (f : Facility) (b : Booking) (hb : findBooking s.facilities bookingID = some (f, b)) :
    Shows Γ s e (.queryBooking (getBytes bookingID)) ((reportOf (f.name, b)).shown.map getBytes)
  | rating (name : Text) (f : Facility) (hf : getFacility s.facilities name = some f) :
    Shows Γ s e (.queryRating (getBytes name)) ((shownRating Γ f).map getBytes)
  | noFacility (call : Cpp.Call) (name : Text) (hf : getFacility s.facilities name = none)
    (hcall : call = .queryRating (getBytes name) ∨ ∃ days, call = .queryAvailability (getBytes name) (requested days)) :
    Shows Γ s e call ((shownError "Facility not found".toList).map getBytes)
  | noBooking (bookingID : Text) (hb : findBooking s.facilities bookingID = none) :
    Shows Γ s e (.queryBooking (getBytes bookingID)) ((shownError "Booking not found".toList).map getBytes)
  | done (call : Cpp.Call) (hcall : call.Changes) (heffect : effect Γ s e ≠ .nothing) :
    Shows Γ s e call (((effect Γ s e).shown Γ e s.facilities).map getBytes)
  | refused (call : Cpp.Call) (hcall : call.Changes) (heffect : effect Γ s e = .nothing) (message : Text) :
    Shows Γ s e call ((shownError message).map getBytes)

/-! ## What the server writes -/

/-- The labelled lines of a booking. -/
def Report.labelled (p : Report) : List (String × Text) :=
  [("user", p.user), ("facility", p.facility), ("day", p.day), ("startTime", p.startTime), ("endTime", p.endTime)]

/-- The ID that the response names as removed. -/
def Effect.removed (facilities : List Facility) (user : Text) : Effect → Text
  | .move booking => orNull ((getFacility facilities booking.facilityName).bind
      (fun f => (f.availability.removeTimeSlot booking.prevBookingId user).2))
  | .remove facilityName bookingId => orNull ((getFacility facilities facilityName).bind
      (fun f => (f.availability.removeTimeSlot (some bookingId) user).2))
  | _ => []

/-- The labelled lines of the response to a request that had the effect. -/
def Effect.labelled (Γ : Jvm) (e : Event) (removed : Text) : Effect → List (String × Text)
  | .nothing => []
  | .book booking => ("bookingID", e.uuid.toText) :: (e.report booking).labelled
  | .move booking => ("oldBookingID", removed) :: ("newBookingID", e.uuid.toText) :: (e.report booking).labelled
  | .remove _ _ => [("bookingID", removed), ("user", e.userInfo)]
  | .rate facilityName rating => [("user", e.userInfo), ("facility", facilityName), ("rating", Γ.format1f rating)]
  | .register facilityName monitorInterval => [("facility", facilityName), ("interval", decimal monitorInterval)]

open Cpp Cpp.ResponseParser

theorem isWritten_ended {ps : List (String × Text)} (h : ps ≠ []) :
    IsWritten (lines (ps.map (fun p => line p.1 p.2)) ++ ['\n']) ps := by
  have hne : ps.map (fun p => line p.1 p.2) ≠ [] := fun hnil => h (List.map_eq_nil_iff.1 hnil)
  exact Or.inr (Delimited.flatMap_append_separator ['\n'] hne).symm

section

variable {Γ : Jvm} {s : ServerState} {m : RequestMessage} {e : Event}

/-- A handler that has an effect answers with its lines. -/
def Tells (Γ : Jvm) (s : ServerState) (e : Event) (effect : Effect) (handled : Handled) : Prop :=
  effect ≠ .nothing → ∃ op requestID text, handled.2 = .ok ⟨op, requestID, success text⟩ ∧
    IsWritten text (effect.labelled Γ e (effect.removed s.facilities e.userInfo))

theorem tells_nothing (handled : Handled) : Tells Γ s e .nothing handled := fun h => absurd rfl h

theorem tells_caught {effect : Effect} {handled : Handled} (op : Operation) (h : Tells Γ s e effect handled) :
    Tells Γ s e effect (tryCatch Γ op m handled) := by
  intro hne
  obtain ⟨op', requestID, text, hresult, hwritten⟩ := h hne
  obtain ⟨s', result⟩ := handled
  cases hresult
  exact ⟨op', requestID, text, rfl, hwritten⟩

variable (Γ s m e)

theorem bookFacility_tells : Tells Γ s e (Effect.ifGranted s.facilities (match parseBookingDetails Γ m.data with
    | .ok booking => .book booking
    | .error _ => .nothing)) (bookFacility Γ s m e) := by
  unfold bookFacility
  cases parseBookingDetails Γ m.data with
  | error x => exact tells_nothing _
  | ok booking =>
    cases hf : getFacility s.facilities booking.facilityName with
    | none =>
      simp only [Effect.ifGranted, Effect.granted, grants, hf, Bool.false_eq_true, if_false]
      exact tells_nothing _
    | some facility =>
      cases ha : facility.availability.isAvailable booking.timeSlot with
      | true =>
        simp only [Effect.ifGranted, Effect.granted, grants, hf, ha, if_true]
        exact fun _ => ⟨_, _, _, rfl, Or.inl rfl⟩
      | false =>
        simp only [Effect.ifGranted, Effect.granted, grants, hf, ha, Bool.false_eq_true, if_false]
        exact tells_nothing _

theorem updateBooking_tells : Tells Γ s e (Effect.ifGranted s.facilities (match parseUpdateBookingDetails Γ m.data with
    | .ok booking => .move booking
    | .error _ => .nothing)) (updateBooking Γ s m e) := by
  unfold updateBooking
  cases parseUpdateBookingDetails Γ m.data with
  | error x => exact tells_nothing _
  | ok booking =>
    cases hf : getFacility s.facilities booking.facilityName with
    | none =>
      simp only [Effect.ifGranted, Effect.granted, grants, hf, Bool.false_eq_true, if_false]
      exact tells_nothing _
    | some facility =>
      cases ha : facility.availability.isAvailable booking.timeSlot with
      | true =>
        simp only [Effect.ifGranted, Effect.granted, grants, hf, ha, if_true]
        refine fun _ => ⟨_, _, _, rfl, ?_⟩
        simp only [Effect.removed, hf]
        exact @isWritten_ended (Effect.labelled Γ e _ (.move booking)) (List.cons_ne_nil _ _)
      | false =>
        simp only [Effect.ifGranted, Effect.granted, grants, hf, ha, Bool.false_eq_true, if_false]
        exact tells_nothing _

theorem addRating_tells : Tells Γ s e (Effect.ifGranted s.facilities (match parseRating Γ m.data with
    | .ok (facilityName, rating) => .rate facilityName rating
    | .error _ => .nothing)) (addRating Γ s m e) := by
  unfold addRating
  cases parseRating Γ m.data with
  | error x => exact tells_nothing _
  | ok p =>
    cases hf : getFacility s.facilities p.1 with
    | none =>
      simp only [Effect.ifGranted, Effect.granted, hf, Option.isSome_none, Bool.false_eq_true, if_false]
      exact tells_nothing _
    | some facility =>
      simp only [Effect.ifGranted, Effect.granted, hf, Option.isSome_some, if_true]
      exact fun _ => ⟨_, _, _, rfl, Or.inl rfl⟩

theorem update_tells : Tells Γ s e ((askedUpdate Γ m.data).ifGranted s.facilities) (update Γ s m e) := by
  unfold askedUpdate update
  cases parseUpdateType m.data with
  | error x => exact tells_nothing _
  | ok updateType =>
    by_cases hb : updateType = "booking".toList
    · simp only [hb, if_true]
      exact updateBooking_tells Γ s m e
    · by_cases hr : updateType = "rating".toList
      · simp only [hr, if_true]
        exact addRating_tells Γ s m e
      · simp only [hb, hr, if_false]
        exact tells_nothing _

theorem deleteBooking_tells : Tells Γ s e (Effect.ifGranted s.facilities (match parseDelete m.data with
    | .ok (bookingId, facilityName) => .remove facilityName bookingId
    | .error _ => .nothing)) (deleteBooking s m e) := by
  unfold deleteBooking
  cases parseDelete m.data with
  | error x => exact tells_nothing _
  | ok p =>
    cases hf : getFacility s.facilities p.2 with
    | none =>
      simp only [Effect.ifGranted, Effect.granted, hf, Option.isSome_none, Bool.false_eq_true, if_false]
      exact tells_nothing _
    | some facility =>
      simp only [Effect.ifGranted, Effect.granted, hf, Option.isSome_some, if_true]
      refine fun _ => ⟨_, _, _, rfl, ?_⟩
      simp only [Effect.removed, hf]
      exact Or.inl rfl

theorem monitor_tells : Tells Γ s e ((askedMonitor Γ m.data).ifGranted s.facilities) (monitor Γ s m e) := by
  unfold askedMonitor monitor
  cases splitData m.data with
  | error x => exact tells_nothing _
  | ok parts =>
    by_cases hregisters : parts.length ≠ 1 ∧ parts[0]? = some "register".toList
    · simp only [hregisters.1, hregisters.2, if_false, getIndex, ne_eq, not_false_eq_true, and_self, if_true]
      cases parseRegistration Γ parts with
      | error x => exact tells_nothing _
      | ok p =>
        cases hf : getFacility s.facilities p.1 with
        | none =>
          simp only [Effect.ifGranted, Effect.granted, hf, Option.isSome_none, Bool.false_eq_true, if_false]
          exact tells_nothing _
        | some facility =>
          simp only [Effect.ifGranted, Effect.granted, hf, Option.isSome_some, if_true]
          exact fun _ => ⟨_, _, _, rfl, Or.inl rfl⟩
    · dsimp only
      rw [if_neg hregisters]
      exact tells_nothing _

/-- What is answered to a request that has an effect. -/
theorem dispatch_tells : Tells Γ s e (effectOf Γ s.facilities m) (dispatch Γ s m e) := by
  unfold effectOf asked dispatch
  cases m.getOperation with
  | WRITE => exact tells_caught _ (bookFacility_tells Γ s m e)
  | UPDATE => exact tells_caught _ (update_tells Γ s m e)
  | DELETE => exact tells_caught _ (deleteBooking_tells Γ s m e)
  | MONITOR => exact tells_caught _ (monitor_tells Γ s m e)
  | READ => exact tells_nothing _
  | NONE => exact tells_nothing _
  | ECHO => exact tells_nothing _
  | RATING => exact tells_nothing _

end

/-! ## What the client reads -/

/-- No value ends a line. -/
def OneLine (ps : List (String × Text)) : Prop := ∀ p ∈ ps, '\n' ∉ p.2

section

variable {ps : List (String × Text)} {text : Text}

/-- Where the lines of a booking are among lines of different names, its fields are read. -/
theorem Report.fieldOf_labelled {p : Report} (hnodup : (ps.map Prod.fst).Nodup) (h : p.labelled ⊆ ps) :
    fieldOf ps "user:" = getBytes p.user ∧ fieldOf ps "facility:" = getBytes p.facility ∧ fieldOf ps "day:" = getBytes p.day ∧
      fieldOf ps "startTime:" = getBytes p.startTime ∧ fieldOf ps "endTime:" = getBytes p.endTime := by
  simp only [Report.labelled, List.cons_subset] at h
  exact ⟨fieldOf_eq hnodup rfl h.1, fieldOf_eq hnodup rfl h.2.1, fieldOf_eq hnodup rfl h.2.2.1, fieldOf_eq hnodup rfl h.2.2.2.1,
    fieldOf_eq hnodup rfl h.2.2.2.2.1⟩

/-- A booking is shown as it is written. -/
theorem Report.parse {p : Report} (hline : OneLine (("bookingID", p.bookingID) :: p.labelled))
    (htext : IsWritten text (("bookingID", p.bookingID) :: p.labelled)) :
    parseQueryBookingResponse (getBytes ("status:SUCCESS\n".toList ++ text)) = p.shown.map getBytes := by
  have hareLabels : AreLabels bookingLabels := by decide +kernel
  have hlabels : ∀ q ∈ ("bookingID", p.bookingID) :: p.labelled, q.1 ++ ":" ∈ bookingLabels.map Prod.fst := by
    simp [Report.labelled, bookingLabels]
  have hnodup : ((("bookingID", p.bookingID) :: p.labelled).map Prod.fst).Nodup := by
    simp [Report.labelled]
  obtain ⟨huser, hfacility, hday, hstart, hend⟩ := Report.fieldOf_labelled hnodup (List.subset_cons_self _ _)
  have hid := fieldOf_eq hnodup (rfl : "bookingID:" = "bookingID" ++ ":") List.mem_cons_self
  rw [parseQueryBookingResponse, parseLabelled_success hareLabels _ hlabels hline htext, hid, huser, hfacility, hday, hstart, hend]
  simp only [Report.shown, List.map_cons, List.map_nil, getBytes_append]
  rfl

/-- So is the one that another was updated to. -/
theorem Report.parse_new {p : Report} {removed : Text}
    (hline : OneLine (("oldBookingID", removed) :: ("newBookingID", p.bookingID) :: p.labelled))
    (htext : IsWritten text (("oldBookingID", removed) :: ("newBookingID", p.bookingID) :: p.labelled)) :
    parseUpdateBookingResponse (getBytes ("status:SUCCESS\n".toList ++ text)) = p.shownNew.map getBytes := by
  have hareLabels : AreLabels updateLabels := by decide +kernel
  have hlabels : ∀ q ∈ ("oldBookingID", removed) :: ("newBookingID", p.bookingID) :: p.labelled,
      q.1 ++ ":" ∈ updateLabels.map Prod.fst := by
    simp [Report.labelled, updateLabels]
  have hnodup : ((("oldBookingID", removed) :: ("newBookingID", p.bookingID) :: p.labelled).map Prod.fst).Nodup := by
    simp [Report.labelled]
  obtain ⟨huser, hfacility, hday, hstart, hend⟩ := Report.fieldOf_labelled hnodup
    (List.Subset.trans (List.subset_cons_self _ _) (List.subset_cons_self _ _))
  have hid := fieldOf_eq hnodup (rfl : "newBookingID:" = "newBookingID" ++ ":") (List.mem_cons_of_mem _ List.mem_cons_self)
  rw [parseUpdateBookingResponse, parseLabelled_success hareLabels _ hlabels hline htext, hid, huser, hfacility, hday, hstart, hend]
  simp only [Report.shownNew, List.map_cons, List.map_nil, getBytes_append]
  rfl

theorem parse_removed {removed user : Text} (hline : OneLine [("bookingID", removed), ("user", user)])
    (htext : IsWritten text [("bookingID", removed), ("user", user)]) :
    parseDeleteBookingResponse (getBytes ("status:SUCCESS\n".toList ++ text)) =
      ["Booking Deleted".toList, "Old Booking ID: ".toList ++ removed, "User: ".toList ++ user].map getBytes := by
  have hareLabels : AreLabels [("bookingID:", 10), ("user:", 5)] := by decide +kernel
  have hnodup : ([("bookingID", removed), ("user", user)].map Prod.fst).Nodup := by simp
  rw [parseDeleteBookingResponse, parseLabelled_success hareLabels _ (by simp) hline htext,
    fieldOf_eq hnodup (rfl : "bookingID:" = "bookingID" ++ ":") List.mem_cons_self,
    fieldOf_eq hnodup (rfl : "user:" = "user" ++ ":") (List.mem_cons_of_mem _ List.mem_cons_self)]
  simp only [List.map_cons, List.map_nil, getBytes_append]
  rfl

theorem parse_registered {facility interval : Text} (hline : OneLine [("facility", facility), ("interval", interval)])
    (htext : IsWritten text [("facility", facility), ("interval", interval)]) :
    parseMonitorAvailabilityResponse (getBytes ("status:SUCCESS\n".toList ++ text)) =
      ["Monitoring Registration".toList, "Facility: ".toList ++ facility, "Duration: ".toList ++ interval ++ ['s']].map getBytes := by
  have hareLabels : AreLabels [("facility:", 9), ("interval:", 9)] := by decide +kernel
  have hnodup : ([("facility", facility), ("interval", interval)].map Prod.fst).Nodup := by simp
  rw [parseMonitorAvailabilityResponse, parseLabelled_success hareLabels _ (by simp) hline htext,
    fieldOf_eq hnodup (rfl : "facility:" = "facility" ++ ":") List.mem_cons_self,
    fieldOf_eq hnodup (rfl : "interval:" = "interval" ++ ":") (List.mem_cons_of_mem _ List.mem_cons_self)]
  simp only [List.map_cons, List.map_nil, getBytes_append]
  rfl

theorem parse_rated {user facility rating : Text} (hline : OneLine [("user", user), ("facility", facility), ("rating", rating)])
    (htext : IsWritten text [("user", user), ("facility", facility), ("rating", rating)]) :
    parseRateFacilityResponse (getBytes ("status:SUCCESS\n".toList ++ text)) =
      ["Rating Added".toList, "User: ".toList ++ user, "Facility: ".toList ++ facility, "Rating: ".toList ++ rating].map getBytes := by
  have hareLabels : AreLabels [("user:", 5), ("facility:", 9), ("rating:", 7)] := by decide +kernel
  have hnodup : ([("user", user), ("facility", facility), ("rating", rating)].map Prod.fst).Nodup := by simp
  rw [parseRateFacilityResponse, parseLabelled_success hareLabels _ (by simp) hline htext,
    fieldOf_eq hnodup (rfl : "user:" = "user" ++ ":") List.mem_cons_self,
    fieldOf_eq hnodup (rfl : "facility:" = "facility" ++ ":") (List.mem_cons_of_mem _ List.mem_cons_self),
    fieldOf_eq hnodup (rfl : "rating:" = "rating" ++ ":") (List.mem_cons_of_mem _ (List.mem_cons_of_mem _ List.mem_cons_self))]
  simp only [List.map_cons, List.map_nil, getBytes_append]
  rfl

theorem parse_rating {facility rating : Text} (hline : OneLine [("facility", facility), ("rating", rating)])
    (htext : IsWritten text [("facility", facility), ("rating", rating)]) :
    parseQueryRatingResponse (getBytes ("status:SUCCESS\n".toList ++ text)) =
      ["Facility Rating".toList, "Facility: ".toList ++ facility, "Rating: ".toList ++ rating].map getBytes := by
  have hareLabels : AreLabels [("facility:", 9), ("rating:", 7)] := by decide +kernel
  have hnodup : ([("facility", facility), ("rating", rating)].map Prod.fst).Nodup := by simp
  rw [parseQueryRatingResponse, parseLabelled_success hareLabels _ (by simp) hline htext,
    fieldOf_eq hnodup (rfl : "facility:" = "facility" ++ ":") List.mem_cons_self,
    fieldOf_eq hnodup (rfl : "rating:" = "rating" ++ ":") (List.mem_cons_of_mem _ List.mem_cons_self)]
  simp only [List.map_cons, List.map_nil, getBytes_append]
  rfl

/-- The names of facilities are shown as they are. -/
theorem parse_names {names : List Text} (h : ∀ name ∈ names, '\n' ∉ name ∧ ',' ∉ name ∧ name ≠ []) :
    parseQueryFacilityNamesResponse
        (getBytes ("status:SUCCESS\n".toList ++ line "facilityNames" (names.flatMap (fun name => name ++ [','])))) =
      ("Facility Names".toList :: names).map getBytes := by
  have hone : ∀ l ∈ [line "facilityNames" (names.flatMap (fun name => name ++ [',']))], '\n' ∉ l ∧ l ≠ [] := by
    rw [List.forall_mem_singleton]
    refine ⟨?_, List.append_ne_nil_of_right_ne_nil _ (List.cons_ne_nil _ _)⟩
    rw [line, List.mem_append, List.mem_cons, List.mem_flatMap, not_or, not_or]
    refine ⟨by decide, by decide, ?_⟩
    rintro ⟨name, hname, hmem⟩
    rcases List.mem_append.1 hmem with hmem | hmem
    · exact (h name hname).1 hmem
    · revert hmem
      decide
  have hprefix : find (literal "facilityNames:" ++ getBytes (Delimited.terminated ',' names)) (literal "facilityNames:") 0 = some 0 :=
    find_eq_zero_iff.2 (List.prefix_append _ _)
  have hdrop : (literal "facilityNames:" ++ getBytes (Delimited.terminated ',' names)).drop 14 =
      Delimited.terminated 44 (names.map getBytes) := by
    rw [List.drop_left' (by decide), Delimited.terminated, getBytes_flatMap, Delimited.terminated, List.flatMap_map]
    exact List.flatMap_congr fun name _ => getBytes_append name [',']
  have hpieces : ∀ p ∈ names.map getBytes, (44 : UInt8) ∉ p := by
    rw [List.forall_mem_map]
    exact fun name hname => notMem_getBytes (by decide) (rfl : _ = ','.toNat) (h name hname).2.1
  have hfull : ∀ p ∈ names.map getBytes, decide (p ≠ []) = true := by
    rw [List.forall_mem_map]
    exact fun name hname => decide_eq_true (getBytes_ne_nil (h name hname).2.2)
  have hnames : facilityNames (getBytes (line "facilityNames" (Delimited.terminated ',' names))) = names.map getBytes := by
    have hline : getBytes (line "facilityNames" (Delimited.terminated ',' names)) =
        literal "facilityNames:" ++ getBytes (Delimited.terminated ',' names) := getBytes_line _ _
    rw [hline, facilityNames, if_pos hprefix, hdrop, getlines, Delimited.pieces_terminated hpieces, List.filter_eq_self.2 hfull]
  rw [parseQueryFacilityNamesResponse, isErrorResponse_success]
  dsimp only
  rw [if_neg Bool.false_ne_true, getlines_lines hone (Or.inl List.intercalate_singleton.symm), List.map_singleton,
    List.flatMap_singleton, List.map_cons]
  exact congrArg (List.cons _) hnames

end

end FacilityBooking
