import FacilityBooking.Runs

/-!
# Opening hours

Whether the bookings of a day are slots of the day and lie within its opening hours. `isAvailable` compares a slot with the other
bookings only, so this depends on what is asked for: it holds throughout a run exactly when every booking accepted along the run
asks for such a slot.
-/

namespace FacilityBooking

/-- A slot of the day: hours and minutes of a clock, and a start before the end. -/
structure TimeSlot.Genuine (slot : TimeSlot) : Prop where
  startHour : 0 ≤ slot.startHour ∧ slot.startHour ≤ 23
  startMinute : 0 ≤ slot.startMinute ∧ slot.startMinute ≤ 59
  endHour : 0 ≤ slot.endHour ∧ slot.endHour ≤ 23
  endMinute : 0 ≤ slot.endMinute ∧ slot.endMinute ≤ 59
  proper : slot.span.Proper

namespace Availability

/-- The day is open, and the slot is a slot of the day within its opening hours. -/
def Admits (a : Availability) (day : DayOfWeek) (slot : TimeSlot) : Prop :=
  a.days day = true ∧ slot.Genuine ∧ (a.opening day).Contains slot.span

/-- Every stored booking is admitted on its day. -/
def Genuine (a : Availability) : Prop := ∀ day, ∀ b ∈ a.bookedSlots day, a.Admits day b.timeSlot

/-- Removing a booking changes nothing but the lists of bookings. -/
theorem removeTimeSlot_eq (a : Availability) (prevBookingId : Option Text) (userInfo : Text) :
    ∃ bookedSlots, (a.removeTimeSlot prevBookingId userInfo).1 = { a with bookedSlots := bookedSlots } := by
  cases h : a.ownedDay prevBookingId userInfo with
  | none => exact ⟨a.bookedSlots, by rw [removeTimeSlot_of_none h]⟩
  | some day => exact ⟨_, by rw [removeTimeSlot_of_some h]; rfl⟩

theorem removeTimeSlot_admits (a : Availability) (prevBookingId : Option Text) (userInfo : Text) (day : DayOfWeek)
    (slot : TimeSlot) : (a.removeTimeSlot prevBookingId userInfo).1.Admits day slot ↔ a.Admits day slot := by
  obtain ⟨bookedSlots, h⟩ := a.removeTimeSlot_eq prevBookingId userInfo
  rw [h]
  exact Iff.rfl

theorem removeTimeSlot_genuine {a : Availability} (h : a.Genuine) (prevBookingId : Option Text) (userInfo : Text) :
    (a.removeTimeSlot prevBookingId userInfo).1.Genuine := by
  intro day b hb
  rw [removeTimeSlot_admits]
  exact h day b ((a.removeTimeSlot_bookedSlots prevBookingId userInfo day).1.subset hb)

/-- Booking an admitted slot. -/
theorem bookTimeSlot_genuine {a : Availability} (h : a.Genuine) {slot : TimeSlot} (hslot : a.Admits slot.day slot)
    (confirmationID userInfo : Text) : (a.bookTimeSlot confirmationID userInfo slot).Genuine := by
  intro day b hb
  show a.Admits day b.timeSlot
  rcases mem_bookTimeSlot.1 hb with hb | ⟨rfl, rfl⟩
  · exact h day b hb
  · exact hslot

/-- A slot that is booked is among the bookings, so it has to be admitted. -/
theorem admits_of_bookTimeSlot_genuine {a : Availability} {slot : TimeSlot} {confirmationID userInfo : Text}
    (h : (a.bookTimeSlot confirmationID userInfo slot).Genuine) : a.Admits slot.day slot :=
  h slot.day ⟨confirmationID, userInfo, a.facilityName, slot⟩ (mem_bookTimeSlot.2 (Or.inr ⟨rfl, rfl⟩))

end Availability

/-- Every stored booking of every facility is a slot of its day within the opening hours. -/
def GenuineBookings (s : ServerState) : Prop := ∀ f ∈ s.facilities, f.availability.Genuine

/-- The booking that the server accepts from a datagram, if it accepts one, is for a slot that its facility admits. -/
def AsksGenuinely (Γ : Jvm) (s : ServerState) (e : Event) : Prop :=
  ∀ booking f, (effect Γ s e).booking? = some booking → getFacility s.facilities booking.facilityName = some f →
    f.availability.Admits booking.day booking.timeSlot

/-- One datagram: the bookings stay genuine exactly when the one that is accepted asks genuinely. -/
theorem serverStep_genuine_iff {Γ : Jvm} {s : ServerState} {e : Event} (h : GenuineBookings s) :
    GenuineBookings (serverStep Γ s e) ↔ AsksGenuinely Γ s e := by
  unfold GenuineBookings AsksGenuinely
  rw [serverStep, handleRequest_facilities]
  constructor
  · intro h' booking f hbooking hf
    obtain ⟨pre, post, _, _, hchange⟩ := getFacility_split hf
    cases heffect : effect Γ s e with
    | book b =>
      rw [heffect] at h' hbooking
      cases hbooking
      simp only [Effect.onFacilities, hchange, List.forall_mem_append, List.forall_mem_cons] at h'
      exact Availability.admits_of_bookTimeSlot_genuine h'.2.1
    | move b =>
      rw [heffect] at h' hbooking
      cases hbooking
      simp only [Effect.onFacilities, hchange, List.forall_mem_append, List.forall_mem_cons] at h'
      exact (Availability.removeTimeSlot_admits _ _ _ _ _).1 (Availability.admits_of_bookTimeSlot_genuine h'.2.1)
    | nothing => rw [heffect] at hbooking; cases hbooking
    | remove => rw [heffect] at hbooking; cases hbooking
    | rate => rw [heffect] at hbooking; cases hbooking
    | register => rw [heffect] at hbooking; cases hbooking
  · intro hasks
    exact forall_onFacilities (fun a slot => a.Admits slot.day slot)
      (fun a slot confirmationID userInfo ha hslot => Availability.bookTimeSlot_genuine ha hslot confirmationID userInfo)
      (fun a prevBookingId userInfo ha => Availability.removeTimeSlot_genuine ha prevBookingId userInfo)
      (fun a slot prevBookingId userInfo hslot => (a.removeTimeSlot_admits prevBookingId userInfo slot.day slot).2 hslot)
      h hasks

/-- Along a run from `init()`, every stored booking is a slot of its day within the opening hours in every state reached exactly
when every booking accepted along the run asks for such a slot. -/
theorem genuine_throughout_iff (Γ : Jvm) (checkHistory : Bool) (es : List Event) :
    Machine.Throughout (serverStep Γ) GenuineBookings (.init checkHistory) es ↔
      Machine.Along (serverStep Γ) (AsksGenuinely Γ) (.init checkHistory) es := by
  refine Machine.throughout_iff_along (fun s e h => serverStep_genuine_iff h) es (.init checkHistory) ?_
  simp only [GenuineBookings, ServerState.init, List.forall_mem_cons]
  exact ⟨fun _ _ hb => absurd hb List.not_mem_nil, fun _ _ hb => absurd hb List.not_mem_nil,
    fun _ _ hb => absurd hb List.not_mem_nil, fun _ hf => absurd hf List.not_mem_nil⟩

/-- A booking from three to four in the morning, of a facility that opens at eight. -/
def bookBeforeOpening : Event := .sent 5000 ⟨1, 0, some "Weekday1,MONDAY,3,0,4,0".toList⟩ ⟨0, 0⟩

/-- It is accepted, and the bookings are no longer genuine. -/
theorem not_reachable_genuine : ¬∀ s, Reachable openJdk true s → GenuineBookings s := by
  intro h
  have hgenuine := h _ (.step .start bookBeforeOpening)
  have heffect : effectOf openJdk (ServerState.init true).facilities ⟨1, 0, some "Weekday1,MONDAY,3,0,4,0".toList⟩ =
      .book ⟨none, "Weekday1".toList, .MONDAY, 3, 0, 4, 0⟩ := rfl
  unfold GenuineBookings at hgenuine
  rw [serverStep_frame (m := ⟨1, 0, some "Weekday1,MONDAY,3,0,4,0".toList⟩) rfl (fun t ht => by cases ht; decide) rfl,
    heffect] at hgenuine
  have hbooked : (ServerState.weekday1.bookTimeSlot bookBeforeOpening.uuid.toText bookBeforeOpening.userInfo
      ⟨3, 0, 4, 0, .MONDAY⟩).Genuine := hgenuine _ List.mem_cons_self
  have hstart : Instant.mk 8 0 ≤ Instant.mk 3 0 := (Availability.admits_of_bookTimeSlot_genuine hbooked).2.2.1
  rw [Instant.mk_le_mk] at hstart
  omega

end FacilityBooking
