import FacilityBooking.Runs

/-!
# No double booking

In every state the server reaches, the bookings of a day share no instant, and each is filed under its own day.
-/

namespace FacilityBooking

/-- No instant lies in two bookings of one day of one facility, and every booking is filed under its own day. -/
theorem no_double_booking (Γ : Jvm) (checkHistory : Bool) (s : ServerState) (h : Reachable Γ checkHistory s) (f : Facility)
    (hf : f ∈ s.facilities) (day : DayOfWeek) :
    (∀ (i j : Nat) (b b' : Booking), i ≠ j → (f.availability.bookedSlots day)[i]? = some b →
      (f.availability.bookedSlots day)[j]? = some b' →
      ∀ t : Instant, ¬(t ∈ b.span ∧ t ∈ b'.span)) ∧
    ∀ b ∈ f.availability.bookedSlots day, b.timeSlot.day = day := by
  obtain ⟨C, hC⟩ := reachable_shows h f hf
  rw [hC day]
  refine ⟨fun i j b b' hij hi hj t ht => hij ?_, C.filed day⟩
  exact (C.timetable day).instant_unique hi hj ht.1 ht.2

/-- Two bookings on a Monday that touch. -/
def bookNine : Event := .sent 5000 ⟨1, 0, some "Weekday1,MONDAY,9,0,10,0".toList⟩ ⟨0, 1⟩
def bookTen : Event := .sent 5001 ⟨1, 0, some "Weekday1,MONDAY,10,0,11,0".toList⟩ ⟨0, 2⟩

/-- The facility once both are accepted. -/
def morning : Facility :=
  (Facility.new "Weekday1".toList).setAvailability
    ((ServerState.weekday1.bookTimeSlot bookNine.uuid.toText bookNine.userInfo ⟨9, 0, 10, 0, .MONDAY⟩).bookTimeSlot
      bookTen.uuid.toText bookTen.userInfo ⟨10, 0, 11, 0, .MONDAY⟩)

theorem no_double_booking_morning :
    (∀ (i j : Nat) (b b' : Booking), i ≠ j → (morning.availability.bookedSlots .MONDAY)[i]? = some b →
      (morning.availability.bookedSlots .MONDAY)[j]? = some b' → ∀ t : Instant, ¬(t ∈ b.span ∧ t ∈ b'.span)) ∧
    ∀ b ∈ morning.availability.bookedSlots .MONDAY, b.timeSlot.day = .MONDAY := by
  have hnine : Reachable openJdk false (serverStep openJdk (.init false) bookNine) := .step .start bookNine
  refine no_double_booking openJdk false _ (.step hnine bookTen) morning ?_ .MONDAY
  rw [serverStep_frame (m := ⟨1, 0, some "Weekday1,MONDAY,10,0,11,0".toList⟩) rfl (fun t ht => by cases ht; decide)
      (replayOf_atLeastOnce (reachable_checkHistory hnine) _ _),
    serverStep_frame (m := ⟨1, 0, some "Weekday1,MONDAY,9,0,10,0".toList⟩) rfl (fun t ht => by cases ht; decide) rfl]
  exact List.mem_cons_self

end FacilityBooking
