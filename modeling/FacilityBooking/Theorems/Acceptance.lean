import FacilityBooking.Theorems.Update

/-!
# Moving a booking where nobody else is

`updateBooking` asks whether the new slot is free before it removes the old booking, so that the booking is in its own way: where
nobody else is, an update is accepted exactly when the new slot does not overlap the slot that is given up.
-/

namespace FacilityBooking

/-- A user asks to move the booking `b` of the facility `f`, which is the user's, to a slot that ends after it starts, on an open
day on which it overlaps no other booking. -/
structure NobodyElse (facilities : List Facility) (user : Text) (booking : BookingDetails) (f : Facility) (b : Booking) : Prop where
  facility : getFacility facilities booking.facilityName = some f
  stored : ∃ day, b ∈ f.availability.bookedSlots day
  owned : some b.confirmationID = booking.prevBookingId ∧ b.userInfo = user
  isOpen : f.availability.days booking.day = true
  proper : booking.timeSlot.span.Proper
  others : ∀ x ∈ f.availability.bookedSlots booking.day, x ≠ b → ¬HalfOpen.Overlaps x.span booking.timeSlot.span

/-- The slot asked for overlaps the slot of the booking that is to be moved. -/
def OverlapsItself (booking : BookingDetails) (b : Booking) : Prop :=
  b.timeSlot.day = booking.day ∧ HalfOpen.Overlaps b.span booking.timeSlot.span

/-- The outcome is a response of success. -/
def Accepted (outcome : Outcome) : Prop := ∃ r, outcome.result = .ok r ∧ r.Says "status:SUCCESS"

/-- When such an update is accepted: one that repeats another has a success to repeat, and one that is executed does not overlap the
slot that it gives up. -/
def MayMove (s : ServerState) (m : RequestMessage) (e : Event) (booking : BookingDetails) (b : Booking) : Prop :=
  match replayOf s m e with
  | some prevRequest => prevRequest.responseMessage.Says "status:SUCCESS"
  | none => ¬OverlapsItself booking b

/-- In every reachable state a booking is filed under its day. -/
theorem reachable_filed {Γ : Jvm} {checkHistory : Bool} {s : ServerState} (h : Reachable Γ checkHistory s) {f : Facility}
    (hf : f ∈ s.facilities) {day : DayOfWeek} {b : Booking} (hb : b ∈ f.availability.bookedSlots day) : b.timeSlot.day = day := by
  obtain ⟨C, hC⟩ := reachable_shows h f hf
  rw [hC day] at hb
  exact C.filed day b hb

/-- Where nobody else is, the slot is granted exactly when the booking is not in its own way. -/
theorem NobodyElse.grants_iff {Γ : Jvm} {checkHistory : Bool} {s : ServerState} (h : Reachable Γ checkHistory s) {user : Text}
    {booking : BookingDetails} {f : Facility} {b : Booking} (hmove : NobodyElse s.facilities user booking f b) :
    grants s.facilities booking = true ↔ ¬OverlapsItself booking b := by
  have hmem := getFacility_mem hmove.facility
  have hday : booking.timeSlot.day = booking.day := rfl
  rw [FacilityBooking.grants_iff]
  simp only [hmove.facility, Option.some.injEq, exists_eq_left', Availability.isAvailable_iff, hday, hmove.isOpen, true_and]
  constructor
  · rintro hfree ⟨hsame, hover⟩
    obtain ⟨day, hb⟩ := hmove.stored
    have hfiled := reachable_filed h hmem hb
    rw [← hfiled, hsame] at hb
    exact hfree b hb hover
  · intro hself x hx
    by_cases hxb : x = b
    · subst hxb
      exact fun hover => hself ⟨reachable_filed h hmem hx, hover⟩
    · exact hmove.others x hx hxb

/-- A request that is executed, and is no `READ`, succeeds exactly when it has an effect. -/
theorem accepted_iff_effectOf {Γ : Jvm} {s : ServerState} {e : Event} {m : RequestMessage} (hm : deserializeMessage Γ e.bytes = .ok m)
    (ho : m.getOperation ∉ [Operation.READ, .ECHO]) (hnew : replayOf s m e = none) :
    Accepted (handleRequest Γ s e) ↔ effectOf Γ s.facilities m ≠ .nothing := by
  have hecho : m.getOperation ≠ .ECHO := fun h => ho (by rw [h]; decide)
  have hread : m.getOperation ≠ .READ := fun h => ho (by rw [h]; decide)
  rw [Accepted, handleRequest_of_new hm hecho hnew, execute_result]
  rcases dispatch_cases Γ s.reset m e with ⟨x, hop, _⟩ | ⟨last, r, hanswers, hrun⟩
  · exact absurd hop hread
  · rw [hrun]
    rcases hanswers.data with ⟨⟨text, hdata⟩, hne | hop⟩ | ⟨⟨message, hdata⟩, hnothing⟩
    · exact iff_of_true ⟨r, rfl, says_success hdata⟩ hne
    · exact absurd hop hread
    · refine iff_of_false ?_ (not_not_intro hnothing)
      rintro ⟨r', hr', hsuccess⟩
      cases hr'
      exact not_says_success hdata hsuccess

/-- An update of a booking to a slot where nobody else is succeeds exactly when the slot does not overlap the one given up. -/
theorem update_accepted_iff {Γ : Jvm} {checkHistory : Bool} {s : ServerState} (h : Reachable Γ checkHistory s) (e : Event)
    (m : RequestMessage) (booking : BookingDetails) (f : Facility) (b : Booking) (hm : deserializeMessage Γ e.bytes = .ok m)
    (ho : m.getOperation = .UPDATE) (htype : parseUpdateType m.data = .ok "booking".toList)
    (hbooking : parseUpdateBookingDetails Γ m.data = .ok booking) (hmove : NobodyElse s.facilities e.userInfo booking f b) :
    Accepted (handleRequest Γ s e) ↔ MayMove s m e booking b := by
  have hecho : m.getOperation ≠ .ECHO := by rw [ho]; decide
  unfold MayMove
  cases hnew : replayOf s m e with
  | some prevRequest =>
    rw [handleRequest_of_replay hm hecho hnew]
    constructor
    · rintro ⟨r, hr, hsuccess⟩
      cases hr
      exact hsuccess
    · intro hsuccess
      exact ⟨_, rfl, hsuccess⟩
  | none =>
    rw [accepted_iff_effectOf hm (by rw [ho]; decide) hnew, effectOf_update ho htype hbooking, ← hmove.grants_iff h]
    cases grants s.facilities booking <;> simp

/-! ## Shifts -/

/-- The slot is the booking's, moved by some minutes on its day. -/
structure ShiftedBy (minutes : Int) (slot moved : TimeSlot) : Prop where
  day : moved.day = slot.day
  start : 60 * moved.startHour + moved.startMinute = 60 * slot.startHour + slot.startMinute + minutes
  stop : 60 * moved.endHour + moved.endMinute = 60 * slot.endHour + slot.endMinute + minutes

/-- The minutes of a slot are minutes of an hour. -/
def TimeSlot.OnTheClock (slot : TimeSlot) : Prop :=
  (0 ≤ slot.startMinute ∧ slot.startMinute < 60) ∧ 0 ≤ slot.endMinute ∧ slot.endMinute < 60

/-- A shift by less than the duration of a slot overlaps the slot. -/
theorem ShiftedBy.overlaps {minutes : Int} {slot moved : TimeSlot} (h : ShiftedBy minutes slot moved) (hslot : slot.OnTheClock)
    (hmoved : moved.OnTheClock)
    (hshort : |minutes| < 60 * slot.endHour + slot.endMinute - (60 * slot.startHour + slot.startMinute)) :
    HalfOpen.Overlaps slot.span moved.span := by
  obtain ⟨hstart, hstop⟩ := hslot
  obtain ⟨hstart', hstop'⟩ := hmoved
  have hfirst := h.start
  have hlast := h.stop
  rw [abs_lt] at hshort
  constructor
  · rw [TimeSlot.span, TimeSlot.span, Instant.mk_lt_mk]
    omega
  · rw [TimeSlot.span, TimeSlot.span, Instant.mk_lt_mk]
    omega

/-- So no update shifts a booking by less than its duration. -/
theorem not_accepted_of_shift {Γ : Jvm} {checkHistory : Bool} {s : ServerState} (h : Reachable Γ checkHistory s) {e : Event}
    {m : RequestMessage} {booking : BookingDetails} {f : Facility} {b : Booking} (hm : deserializeMessage Γ e.bytes = .ok m)
    (ho : m.getOperation = .UPDATE) (htype : parseUpdateType m.data = .ok "booking".toList)
    (hbooking : parseUpdateBookingDetails Γ m.data = .ok booking) (hmove : NobodyElse s.facilities e.userInfo booking f b)
    (hnew : replayOf s m e = none) {minutes : Int} (hshift : ShiftedBy minutes b.timeSlot booking.timeSlot)
    (hb : b.timeSlot.OnTheClock) (hslot : booking.timeSlot.OnTheClock)
    (hshort : |minutes| < 60 * b.timeSlot.endHour + b.timeSlot.endMinute - (60 * b.timeSlot.startHour + b.timeSlot.startMinute)) :
    ¬Accepted (handleRequest Γ s e) := by
  have hecho : m.getOperation ∉ [Operation.READ, .ECHO] := by rw [ho]; decide
  rw [accepted_iff_effectOf hm hecho hnew, effectOf_update ho htype hbooking, not_not]
  rw [if_neg fun hgrants => (hmove.grants_iff h).1 hgrants ⟨hshift.day.symm, hshift.overlaps hb hslot hshort⟩]

/-! ## A booking from nine to ten -/

/-- The facility with the booking. -/
def bookedFacility : Facility :=
  (Facility.new "Weekday1".toList).setAvailability
    (ServerState.weekday1.bookTimeSlot bookAtNine.uuid.toText bookAtNine.userInfo ⟨9, 0, 10, 0, .MONDAY⟩)

/-- The booking. -/
def nineToTen : Booking := ⟨bookAtNine.uuid.toText, bookAtNine.userInfo, none, ⟨9, 0, 10, 0, .MONDAY⟩⟩

/-- The state with the booking. -/
def stateAtNine : ServerState := serverStep openJdk (.init false) bookAtNine

theorem stateAtNine_reachable : Reachable openJdk false stateAtNine := .step .start bookAtNine

theorem stateAtNine_facilities : stateAtNine.facilities = bookedAtNine :=
  serverStep_frame (m := ⟨1, 0, some "Weekday1,MONDAY,9,0,10,0".toList⟩) rfl (fun t ht => by cases ht; decide) rfl

theorem stateAtNine_bookings : bookedFacility.availability.bookedSlots .MONDAY = [nineToTen] := rfl

/-- Nobody else is there on that Monday. -/
theorem nobodyElse_nineToTen {m : RequestMessage} {uuid : UUID} {booking : BookingDetails} (hname : booking.facilityName = "Weekday1".toList)
    (hday : booking.day = .MONDAY) (hid : booking.prevBookingId = some bookAtNine.uuid.toText)
    (hproper : booking.timeSlot.span.Proper) :
    NobodyElse stateAtNine.facilities (Event.sent 5000 m uuid).userInfo booking bookedFacility nineToTen where
  facility := by
    rw [stateAtNine_facilities, hname]
    rfl
  stored := ⟨.MONDAY, by rw [stateAtNine_bookings]; exact List.mem_singleton_self _⟩
  owned := ⟨hid.symm, userInfo_sent 5000 _ m _ uuid⟩
  isOpen := by
    rw [hday]
    rfl
  proper := hproper
  others := by
    intro x hx hne
    rw [hday, stateAtNine_bookings, List.mem_singleton] at hx
    exact absurd hx hne

theorem update_accepted_iff_moveToTen : Accepted (handleRequest openJdk stateAtNine moveToTen) := by
  refine (update_accepted_iff stateAtNine_reachable moveToTen
    ⟨2, 1, some "booking,00000000-0000-0000-0000-000000000000,Weekday1,MONDAY,10,0,11,0".toList⟩ moveDetails bookedFacility
    nineToTen (deserializeMessage_frame _ _ fun t ht => by cases ht; decide) rfl parse_moveToTen.1 parse_moveToTen.2
    (nobodyElse_nineToTen rfl rfl (by decide +kernel) (by decide))).2 ?_
  rw [MayMove, replayOf_atLeastOnce (reachable_checkHistory stateAtNine_reachable)]
  rintro ⟨_, hover⟩
  revert hover
  decide

/-- The owner's request to have it half an hour later. -/
def moveHalfAnHour : Event :=
  .sent 5000 ⟨2, 1, some "booking,00000000-0000-0000-0000-000000000000,Weekday1,MONDAY,9,30,10,30".toList⟩ ⟨0, 1⟩

def halfAnHourLater : BookingDetails :=
  ⟨some "00000000-0000-0000-0000-000000000000".toList, "Weekday1".toList, .MONDAY, 9, 30, 10, 30⟩

theorem parse_halfAnHour :
    parseUpdateType (some "booking,00000000-0000-0000-0000-000000000000,Weekday1,MONDAY,9,30,10,30".toList) = .ok "booking".toList ∧
      parseUpdateBookingDetails openJdk
        (some "booking,00000000-0000-0000-0000-000000000000,Weekday1,MONDAY,9,30,10,30".toList) = .ok halfAnHourLater := by
  have htext : "booking,00000000-0000-0000-0000-000000000000,Weekday1,MONDAY,9,30,10,30".toList =
      updateText "00000000-0000-0000-0000-000000000000".toList "Weekday1".toList .MONDAY 9 30 10 30 := by decide +kernel
  rw [htext]
  exact parse_updateText openJdk (by decide) (by decide) .MONDAY (by decide)

/-- It is refused. -/
theorem not_update_accepted :
    ¬∀ checkHistory s, Reachable openJdk checkHistory s → ∀ (e : Event) (m : RequestMessage) (booking : BookingDetails)
      (f : Facility) (b : Booking), deserializeMessage openJdk e.bytes = .ok m → m.getOperation = .UPDATE →
      parseUpdateType m.data = .ok "booking".toList → parseUpdateBookingDetails openJdk m.data = .ok booking →
      NobodyElse s.facilities e.userInfo booking f b → replayOf s m e = none → Accepted (handleRequest openJdk s e) := by
  intro h
  have hm : deserializeMessage openJdk moveHalfAnHour.bytes =
      .ok ⟨2, 1, some "booking,00000000-0000-0000-0000-000000000000,Weekday1,MONDAY,9,30,10,30".toList⟩ :=
    deserializeMessage_frame _ _ fun t ht => by cases ht; decide
  have hnew : replayOf stateAtNine
      ⟨2, 1, some "booking,00000000-0000-0000-0000-000000000000,Weekday1,MONDAY,9,30,10,30".toList⟩ moveHalfAnHour = none :=
    replayOf_atLeastOnce (reachable_checkHistory stateAtNine_reachable) _ _
  have hmove : NobodyElse stateAtNine.facilities moveHalfAnHour.userInfo halfAnHourLater bookedFacility nineToTen :=
    nobodyElse_nineToTen rfl rfl (by decide +kernel) (by decide)
  have hshift : ShiftedBy 30 nineToTen.timeSlot halfAnHourLater.timeSlot := ⟨rfl, rfl, rfl⟩
  obtain ⟨htype, hparse⟩ := parse_halfAnHour
  refine not_accepted_of_shift stateAtNine_reachable hm rfl htype hparse hmove hnew hshift ?_ ?_ ?_
    (h false _ stateAtNine_reachable _ _ _ _ _ hm rfl htype hparse hmove hnew)
  · exact ⟨⟨by decide, by decide⟩, by decide, by decide⟩
  · exact ⟨⟨by decide, by decide⟩, by decide, by decide⟩
  · decide

end FacilityBooking
