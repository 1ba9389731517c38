import FacilityBooking.Lemmas.Requests
import FacilityBooking.Runs

/-!
# Updating a booking

An update removes the user's booking of an ID and books the new slot. `removeTimeSlot` reports a booking that it does not find by
a null, which `updateBooking` takes for an ID, so that the new slot is booked all the same; and it looks on every day, so that a
booking of another day is given up for the new one. The update is a move exactly when neither happens.
-/

namespace FacilityBooking

/-- The number of bookings of all facilities. -/
def countBookings (facilities : List Facility) : Nat :=
  (facilities.map (fun f => (DayOfWeek.values.map (fun day => (f.availability.bookedSlots day).length)).sum)).sum

/-- From one facility to the other, exactly one booking of that ID and that user on the day of the slot is gone, exactly one new
booking of the user with that slot has come, and nothing else has changed. -/
structure Moves (prevBookingId : Option Text) (user : Text) (slot : TimeSlot) (newId : Text) (f f' : Facility) : Prop where
  moved : ∃ l₁ old l₂ new, f.availability.bookedSlots slot.day = l₁ ++ old :: l₂ ∧
    f'.availability.bookedSlots slot.day = l₁ ++ l₂ ++ [new] ∧ some old.confirmationID = prevBookingId ∧
    old.userInfo = user ∧ new.confirmationID = newId ∧ new.userInfo = user ∧ new.timeSlot = slot
  otherDays : ∀ day, day ≠ slot.day → f'.availability.bookedSlots day = f.availability.bookedSlots day

/-- What an update that says it succeeded has to have done: a move in the facility named, nothing in the others, under an ID that
no booking had and that the response reports. -/
def MovedAsReported (facilities facilities' : List Facility) (user : Text) (booking : BookingDetails) (r : RequestMessage) :
    Prop :=
  ∃ f f' newId, getFacility facilities booking.facilityName = some f ∧
    facilities' = modifyFacility facilities booking.facilityName (fun _ => f') ∧
    Moves booking.prevBookingId user booking.timeSlot newId f f' ∧
    (∀ g ∈ facilities, ∀ day, ∀ b ∈ g.availability.bookedSlots day, b.confirmationID ≠ newId) ∧
    contains (orNull r.data) (line "newBookingID" newId) = true ∧
    countBookings facilities' = countBookings facilities

/-- The facility named has no booking of that ID made by that user. -/
def HoldsNone (facilities : List Facility) (user : Text) (booking : BookingDetails) : Prop :=
  ∀ f, getFacility facilities booking.facilityName = some f → ∀ day, ∀ b ∈ f.availability.bookedSlots day,
    ¬(some b.confirmationID = booking.prevBookingId ∧ b.userInfo = user)

/-- The outcome of an update is that of an atomic move: a success is a move, and with nothing to move the outcome is an error that
leaves every booking as it was. -/
def IsAtomicMove (s : ServerState) (e : Event) (booking : BookingDetails) (outcome : Outcome) : Prop :=
  ∃ r, outcome.result = .ok r ∧
    (r.Says "status:SUCCESS" → MovedAsReported s.facilities outcome.state.facilities e.userInfo booking r) ∧
    (HoldsNone s.facilities e.userInfo booking → r.Says "status:ERROR" ∧
      outcome.state.facilities.map (fun f => f.availability.bookedSlots) =
        s.facilities.map (fun f => f.availability.bookedSlots))

/-- When the update is a move: an update that repeats another has an error to repeat, and of one that is executed, if the slot is
free, the first booking of that ID that is the user's is on the day of the slot. -/
def OwnsOnDay (s : ServerState) (m : RequestMessage) (e : Event) (booking : BookingDetails) : Prop :=
  match replayOf s m e with
  | some prevRequest => prevRequest.responseMessage.Says "status:ERROR"
  | none => ∀ f, getFacility s.facilities booking.facilityName = some f → f.availability.isAvailable booking.timeSlot = true →
    f.availability.ownedDay booking.prevBookingId e.userInfo = some booking.day

/-! ## What the store does -/

theorem holdsNone_iff {facilities : List Facility} {user : Text} {booking : BookingDetails} {f : Facility}
    (hf : getFacility facilities booking.facilityName = some f) :
    HoldsNone facilities user booking ↔ f.availability.ownedDay booking.prevBookingId user = none := by
  rw [Availability.ownedDay_eq_none_iff]
  simp only [HoldsNone, hf, Option.some.injEq, forall_eq', Booking.isOf, ← Bool.decide_and, decide_eq_false_iff_not]

/-- What the update makes of the facility. -/
def updated (e : Event) (booking : BookingDetails) (f : Facility) : Facility :=
  f.setAvailability ((f.availability.removeTimeSlot booking.prevBookingId e.userInfo).1.bookTimeSlot e.uuid.toText e.userInfo
    booking.timeSlot)

/-- A booking on the day of the slot is moved. -/
theorem moves_updated {e : Event} {booking : BookingDetails} {f : Facility}
    (h : f.availability.ownedDay booking.prevBookingId e.userInfo = some booking.day) :
    Moves booking.prevBookingId e.userInfo booking.timeSlot e.uuid.toText f (updated e booking f) := by
  obtain ⟨l₁, old, l₂, hsplit, hid, huser, herase⟩ := Availability.owned_split h
  have hday : booking.timeSlot.day = booking.day := rfl
  refine ⟨⟨l₁, old, l₂, ⟨e.uuid.toText, e.userInfo, f.availability.facilityName, booking.timeSlot⟩, hsplit, ?_, hid, huser, rfl,
    rfl, rfl⟩, ?_⟩
  · simp only [updated, Facility.setAvailability, Availability.removeTimeSlot_of_some h, Availability.bookTimeSlot, hday,
      Availability.setBooked_self, herase]
    rfl
  · intro day hne
    rw [hday] at hne
    simp only [updated, Facility.setAvailability, Availability.removeTimeSlot_of_some h, Availability.bookTimeSlot, hday,
      Availability.setBooked_of_ne _ _ hne]

/-- Without a booking on the day of the slot, the day gains one. -/
theorem length_updated {e : Event} {booking : BookingDetails} {f : Facility}
    (h : f.availability.ownedDay booking.prevBookingId e.userInfo ≠ some booking.day) :
    ((updated e booking f).availability.bookedSlots booking.day).length =
      (f.availability.bookedSlots booking.day).length + 1 := by
  have hday : booking.timeSlot.day = booking.day := rfl
  cases ho : f.availability.ownedDay booking.prevBookingId e.userInfo with
  | none =>
    simp only [updated, Facility.setAvailability, Availability.removeTimeSlot_of_none ho, Availability.bookTimeSlot, hday,
      Availability.setBooked_self, List.length_append, List.length_singleton]
  | some day =>
    have hne : booking.day ≠ day := fun hd => h (hd ▸ ho)
    simp only [updated, Facility.setAvailability, Availability.removeTimeSlot_of_some ho, Availability.bookTimeSlot, hday,
      Availability.setBooked_self, Availability.setBooked_of_ne _ _ hne, List.length_append, List.length_singleton]

/-- A move leaves as many bookings on every day. -/
theorem Moves.length_eq {prevBookingId : Option Text} {user newId : Text} {slot : TimeSlot} {f f' : Facility}
    (h : Moves prevBookingId user slot newId f f') (day : DayOfWeek) :
    (f'.availability.bookedSlots day).length = (f.availability.bookedSlots day).length := by
  rcases eq_or_ne day slot.day with rfl | hne
  · obtain ⟨l₁, old, l₂, new, hf, hf', _⟩ := h.moved
    rw [hf, hf']
    simp only [List.length_append, List.length_cons, List.length_nil]
    omega
  · rw [h.otherDays day hne]

/-- A facility replaced by one with as many bookings on every day leaves as many bookings. -/
theorem countBookings_modifyFacility {facilities : List Facility} {name : Text} {f f' : Facility}
    (hf : getFacility facilities name = some f)
    (h : ∀ day, (f'.availability.bookedSlots day).length = (f.availability.bookedSlots day).length) :
    countBookings (modifyFacility facilities name (fun _ => f')) = countBookings facilities := by
  unfold countBookings
  rw [map_modifyFacility fun g hg => ?_]
  cases hf.symm.trans hg
  simp only [h]

/-- The facility that replaces another can be told from the list. -/
theorem modifyFacility_injective {facilities : List Facility} {name : Text} {f : Facility}
    (hf : getFacility facilities name = some f) {change change' : Facility → Facility}
    (h : modifyFacility facilities name change = modifyFacility facilities name change') : change f = change' f := by
  obtain ⟨pre, post, _, _, hchange⟩ := getFacility_split hf
  rw [hchange, hchange] at h
  exact (List.cons.inj (List.append_cancel_left h)).1

/-! ## What the request does -/

section

variable {Γ : Jvm} {s : ServerState} {m : RequestMessage} {e : Event} {booking : BookingDetails}

/-- An update that is executed moves where it is granted, and does nothing where it is not. -/
theorem effectOf_update (ho : m.getOperation = .UPDATE) (htype : parseUpdateType m.data = .ok "booking".toList)
    (hbooking : parseUpdateBookingDetails Γ m.data = .ok booking) (facilities : List Facility) :
    effectOf Γ facilities m = if grants facilities booking then .move booking else .nothing := by
  have hasked : asked Γ m = .move booking := by simp only [asked, ho, askedUpdate, htype, if_true, hbooking]
  rw [effectOf, hasked]
  rfl

variable (Γ) in
/-- The response to an update that books. -/
theorem dispatch_update (ho : m.getOperation = .UPDATE) (htype : parseUpdateType m.data = .ok "booking".toList)
    (hbooking : parseUpdateBookingDetails Γ m.data = .ok booking) {f : Facility}
    (hf : getFacility s.facilities booking.facilityName = some f) (ha : f.availability.isAvailable booking.timeSlot = true) :
    ∃ old, (dispatch Γ s m e).2 = .ok ⟨Operation.UPDATE.getOpCode, m.requestID,
      success (updatedText old e.uuid.toText e.userInfo booking)⟩ := by
  have hupdate : update Γ s m e = updateBooking Γ s m e := by
    unfold update
    rw [htype]
    exact if_pos rfl
  have hrun : (dispatch Γ s m e).2 = (tryCatch Γ .UPDATE m (updateBooking Γ s m e)).2 := by
    rw [dispatch, ho, ← hupdate]
  rw [hrun]
  unfold updateBooking
  simp only [hbooking, hf, ha, if_true]
  exact ⟨_, rfl⟩

/-- A line is part of the lines. -/
theorem infix_lines {l : Text} {ls : List Text} (h : l ∈ ls) : l <:+: lines ls := by
  induction ls with
  | nil => exact absurd h List.not_mem_nil
  | cons l' ls ih =>
    cases ls with
    | nil =>
      rw [List.mem_singleton] at h
      subst h
      simp [lines]
    | cons l'' ls =>
      have hlines : lines (l' :: l'' :: ls) = l' ++ (['\n'] ++ lines (l'' :: ls)) := by
        simp [lines, List.intercalate]
      rw [hlines]
      rcases List.mem_cons.1 h with rfl | h
      · exact (List.prefix_append _ _).isInfix
      · exact (ih h).trans ((List.suffix_append _ _).trans (List.suffix_append _ _)).isInfix

/-- The text of an update reports the new ID. -/
theorem updatedText_reports (old : Option Text) (newId user : Text) (booking : BookingDetails) :
    contains (orNull (success (updatedText old newId user booking))) (line "newBookingID" newId) = true := by
  have htext : orNull (success (updatedText old newId user booking)) =
      "status:SUCCESS\n".toList ++ updatedText old newId user booking := rfl
  have hline : line "newBookingID" newId <:+: updatedText old newId user booking :=
    (infix_lines (List.mem_cons_of_mem _ List.mem_cons_self)).trans (List.prefix_append _ _).isInfix
  rw [contains_iff, htext]
  exact hline.trans (List.suffix_append _ _).isInfix

end

/-! ## When an update is a move -/

section

variable {Γ : Jvm} {s : ServerState} {m : RequestMessage} {e : Event} {booking : BookingDetails}

/-- An error that leaves the facilities as they were is the outcome of a move that is refused. -/
theorem isAtomicMove_of_error {outcome : Outcome} {r : RequestMessage} {message : Text} (hresult : outcome.result = .ok r)
    (hdata : r.data = error message) (hfacilities : outcome.state.facilities = s.facilities) :
    IsAtomicMove s e booking outcome := by
  refine ⟨r, hresult, fun hsuccess => absurd hsuccess (not_says_success hdata), fun _ => ⟨says_error hdata, ?_⟩⟩
  rw [hfacilities]

/-- Nothing has been moved where nothing has changed: the booking that came would not be new. -/
theorem not_movedAsReported_self {facilities : List Facility} {user : Text} {r : RequestMessage} :
    ¬MovedAsReported facilities facilities user booking r := by
  rintro ⟨f, f', newId, hf, hsame, hmoves, hnew, _⟩
  obtain ⟨pre, post, hsplit, _, hchange⟩ := getFacility_split hf
  rw [hchange, hsplit] at hsame
  obtain rfl : f = f' := (List.cons.inj (List.append_cancel_left hsame)).1
  obtain ⟨_, _, _, new, _, hnewSlots, _, _, hid, _⟩ := hmoves.moved
  refine hnew f (getFacility_mem hf) booking.timeSlot.day new ?_ hid
  rw [hnewSlots]
  exact List.mem_append_right _ List.mem_cons_self

/-- A repetition is a move exactly when it repeats an error. -/
theorem isAtomicMove_replay_iff {prevRequest : RequestInfo}
    (hdata : (∃ text, prevRequest.responseMessage.data = success text) ∨
      ∃ message, prevRequest.responseMessage.data = error message) :
    IsAtomicMove s e booking ⟨s.reset, .ok prevRequest.responseMessage, []⟩ ↔
      prevRequest.responseMessage.Says "status:ERROR" := by
  rcases hdata with ⟨text, htext⟩ | ⟨message, hmessage⟩
  · refine iff_of_false ?_ (not_says_error htext)
    rintro ⟨r, hr, hmoved, _⟩
    cases hr
    exact not_movedAsReported_self (hmoved (says_success htext))
  · exact iff_of_true (isAtomicMove_of_error rfl hmessage rfl) (says_error hmessage)

/-- An update that books is a move exactly when the booking removed is on the day of the slot. -/
theorem isAtomicMove_booked_iff {outcome : Outcome} {r : RequestMessage} {old : Option Text} {f : Facility}
    (hf : getFacility s.facilities booking.facilityName = some f) (hresult : outcome.result = .ok r)
    (hdata : r.data = success (updatedText old e.uuid.toText e.userInfo booking))
    (hfacilities : outcome.state.facilities = modifyFacility s.facilities booking.facilityName (updated e booking))
    (hfresh : ∀ g ∈ s.facilities, ∀ day, ∀ b ∈ g.availability.bookedSlots day, b.confirmationID ≠ e.uuid.toText) :
    IsAtomicMove s e booking outcome ↔
      f.availability.ownedDay booking.prevBookingId e.userInfo = some booking.day := by
  have hfacilities' : outcome.state.facilities =
      modifyFacility s.facilities booking.facilityName (fun _ => updated e booking f) := by
    obtain ⟨_, _, _, _, hchange⟩ := getFacility_split hf
    rw [hfacilities, hchange, hchange]
  constructor
  · rintro ⟨r', hr', hmoved, _⟩
    cases hresult.symm.trans hr'
    obtain ⟨g, g', newId, hg, hchange, hmoves, _⟩ := hmoved (says_success hdata)
    cases hf.symm.trans hg
    have hg' : g' = updated e booking f := modifyFacility_injective hf (hchange.symm.trans hfacilities')
    by_contra hday
    have hlength := hmoves.length_eq booking.day
    rw [hg', length_updated hday] at hlength
    omega
  · intro hday
    have hmoves := moves_updated hday
    refine ⟨r, hresult, fun _ => ⟨f, _, e.uuid.toText, hf, hfacilities', hmoves, hfresh, ?_, ?_⟩, ?_⟩
    · rw [hdata]
      exact updatedText_reports _ _ _ _
    · rw [hfacilities']
      exact countBookings_modifyFacility hf hmoves.length_eq
    · intro hnone
      rw [(holdsNone_iff hf).1 hnone] at hday
      cases hday

end

/-- An update is an atomic move exactly when its user has a booking of that ID on the day of the slot, or there is nothing to do
because the facility is not there or the slot is not free. An ID that is drawn is one that no booking has. -/
theorem update_isAtomicMove_iff {Γ : Jvm} {checkHistory : Bool} {s : ServerState} (h : Reachable Γ checkHistory s) (e : Event)
    (m : RequestMessage) (booking : BookingDetails) (hm : deserializeMessage Γ e.bytes = .ok m)
    (ho : m.getOperation = .UPDATE) (htype : parseUpdateType m.data = .ok "booking".toList)
    (hbooking : parseUpdateBookingDetails Γ m.data = .ok booking)
    (hfresh : ∀ f ∈ s.facilities, ∀ day, ∀ b ∈ f.availability.bookedSlots day, b.confirmationID ≠ e.uuid.toText) :
    IsAtomicMove s e booking (handleRequest Γ s e) ↔ OwnsOnDay s m e booking := by
  have hhandling := handleRequest_handling Γ s e
  generalize handleRequest Γ s e = outcome at hhandling ⊢
  cases hhandling with
  | undecodable x hm' => cases hm.symm.trans hm'
  | echo m' hm' ho' =>
    cases hm.symm.trans hm'
    cases ho.symm.trans ho'
  | replay m' prevRequest hm' _ hp =>
    cases hm.symm.trans hm'
    rw [OwnsOnDay, hp]
    exact isAtomicMove_replay_iff (reachable_history h prevRequest (mem_of_replayOf hp))
  | thrown m' x hm' ho' =>
    cases hm.symm.trans hm'
    cases ho.symm.trans ho'
  | executed m' r last monitors sent hm' _ hp hd hr =>
    cases hm.symm.trans hm'
    rw [OwnsOnDay, hp]
    have heffect := effectOf_update ho htype hbooking s.facilities
    by_cases hgrants : grants s.facilities booking = true
    · obtain ⟨f, hf, ha⟩ := grants_iff.1 hgrants
      rw [if_pos hgrants] at heffect
      obtain ⟨old, hresponse⟩ := dispatch_update Γ (s := s.reset) (e := e) ho htype hbooking hf ha
      cases hd.symm.trans hresponse
      refine (isAtomicMove_booked_iff hf rfl rfl ?_ hfresh).trans ?_
      · rw [heffect]
        rfl
      · constructor
        · intro hday g hg _
          cases hf.symm.trans hg
          exact hday
        · intro hall
          exact hall f hf ha
    · rw [if_neg hgrants] at heffect
      obtain ⟨message, hdata⟩ : ∃ message, r.data = error message := by
        rcases hr.data with ⟨_, hne | hread⟩ | ⟨hdata, _⟩
        · exact absurd heffect hne
        · cases ho.symm.trans hread
        · exact hdata
      refine iff_of_true (isAtomicMove_of_error rfl hdata (by rw [heffect]; rfl)) ?_
      intro f hf ha
      exact absurd (grants_iff.2 ⟨f, hf, ha⟩) hgrants

/-- A booking from nine to ten, and its owner's request to have it from ten to eleven. -/
def bookAtNine : Event := .sent 5000 ⟨1, 0, some "Weekday1,MONDAY,9,0,10,0".toList⟩ ⟨0, 0⟩
def moveToTen : Event :=
  .sent 5000 ⟨2, 1, some "booking,00000000-0000-0000-0000-000000000000,Weekday1,MONDAY,10,0,11,0".toList⟩ ⟨0, 1⟩

/-- The details of the request. -/
def moveDetails : BookingDetails :=
  ⟨some "00000000-0000-0000-0000-000000000000".toList, "Weekday1".toList, .MONDAY, 10, 0, 11, 0⟩

/-- The facilities with the booking from nine to ten. -/
def bookedAtNine : List Facility :=
  (Effect.book ⟨none, "Weekday1".toList, .MONDAY, 9, 0, 10, 0⟩).onFacilities openJdk bookAtNine (ServerState.init false).facilities

theorem parse_moveToTen :
    parseUpdateType (some "booking,00000000-0000-0000-0000-000000000000,Weekday1,MONDAY,10,0,11,0".toList) = .ok "booking".toList ∧
      parseUpdateBookingDetails openJdk
        (some "booking,00000000-0000-0000-0000-000000000000,Weekday1,MONDAY,10,0,11,0".toList) = .ok moveDetails := by
  have htext : "booking,00000000-0000-0000-0000-000000000000,Weekday1,MONDAY,10,0,11,0".toList =
      updateText "00000000-0000-0000-0000-000000000000".toList "Weekday1".toList .MONDAY 10 0 11 0 := by decide +kernel
  rw [htext]
  exact parse_updateText openJdk (by decide) (by decide) .MONDAY (by decide)

theorem update_isAtomicMove_iff_moveToTen :
    IsAtomicMove (serverStep openJdk (.init false) bookAtNine) moveToTen moveDetails
      (handleRequest openJdk (serverStep openJdk (.init false) bookAtNine) moveToTen) := by
  have hreachable : Reachable openJdk false (serverStep openJdk (.init false) bookAtNine) := .step .start bookAtNine
  have hfacilities : (serverStep openJdk (.init false) bookAtNine).facilities = bookedAtNine :=
    serverStep_frame (m := ⟨1, 0, some "Weekday1,MONDAY,9,0,10,0".toList⟩) rfl (fun t ht => by cases ht; decide) rfl
  refine (update_isAtomicMove_iff hreachable moveToTen
    ⟨2, 1, some "booking,00000000-0000-0000-0000-000000000000,Weekday1,MONDAY,10,0,11,0".toList⟩ moveDetails
    (deserializeMessage_frame _ _ fun t ht => by cases ht; decide) rfl parse_moveToTen.1 parse_moveToTen.2 ?_).2 ?_
  · have hfresh : ∀ f ∈ bookedAtNine, ∀ day ∈ DayOfWeek.values, ∀ b ∈ f.availability.bookedSlots day,
        b.confirmationID ≠ moveToTen.uuid.toText := by decide +kernel
    rw [hfacilities]
    exact fun f hf day => hfresh f hf day (DayOfWeek.mem_values day)
  · rw [OwnsOnDay, replayOf_atLeastOnce (reachable_checkHistory hreachable), hfacilities]
    intro f hf _
    obtain rfl : f = bookedAtNine.head (by decide +kernel) := (Option.some.inj hf).symm
    rfl

/-- A request to have a booking that is nobody's on that day. -/
def moveNothing : Event :=
  .sent 5000 ⟨2, 0, some "booking,00000000-0000-0000-0000-000000000000,Weekday1,MONDAY,10,0,11,0".toList⟩ ⟨0, 1⟩

/-- It is answered by a success. -/
theorem update_not_isAtomicMove :
    ¬∀ checkHistory s, Reachable openJdk checkHistory s → ∀ (e : Event) (m : RequestMessage) (booking : BookingDetails),
      deserializeMessage openJdk e.bytes = .ok m → m.getOperation = .UPDATE → parseUpdateType m.data = .ok "booking".toList →
      parseUpdateBookingDetails openJdk m.data = .ok booking →
      (∀ f ∈ s.facilities, ∀ day, ∀ b ∈ f.availability.bookedSlots day, b.confirmationID ≠ e.uuid.toText) →
      IsAtomicMove s e booking (handleRequest openJdk s e) := by
  intro h
  have hm : deserializeMessage openJdk moveNothing.bytes =
      .ok ⟨2, 0, some "booking,00000000-0000-0000-0000-000000000000,Weekday1,MONDAY,10,0,11,0".toList⟩ :=
    deserializeMessage_frame _ _ fun t ht => by cases ht; decide
  have hfresh : ∀ f ∈ (ServerState.init true).facilities, ∀ day ∈ DayOfWeek.values, ∀ b ∈ f.availability.bookedSlots day,
      b.confirmationID ≠ moveNothing.uuid.toText := by decide +kernel
  obtain ⟨r, hr, _, herror⟩ := h true _ .start moveNothing _ moveDetails hm rfl parse_moveToTen.1 parse_moveToTen.2
    (fun f hf day => hfresh f hf day (DayOfWeek.mem_values day))
  have hnone : HoldsNone (ServerState.init true).facilities moveNothing.userInfo moveDetails := by
    rw [holdsNone_iff rfl]
    rfl
  obtain ⟨hstatus, _⟩ := herror hnone
  obtain ⟨old, hresult⟩ := dispatch_update openJdk (s := (ServerState.init true).reset) (e := moveNothing)
    (m := ⟨2, 0, some "booking,00000000-0000-0000-0000-000000000000,Weekday1,MONDAY,10,0,11,0".toList⟩) rfl parse_moveToTen.1 parse_moveToTen.2
    rfl rfl
  rw [handleRequest_of_new hm (by decide) rfl, execute_result, hresult] at hr
  obtain rfl := Except.ok.inj hr
  exact not_says_error rfl hstatus

end FacilityBooking
