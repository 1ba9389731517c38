import FacilityBooking.Lemmas.Sweep
import FacilityBooking.Runs

/-!
# What is reported free and what is accepted

`getAvailableTimeSlots` sweeps over the bookings of a day and `isAvailable` compares a slot with each of them. The two agree as
long as every booking ends after it starts. A booking that does not may throw the cursor of the sweep back over another booking.
-/

namespace FacilityBooking

namespace Availability

/-- Over bookings that end after they start and do not overlap, a slot within the opening hours of an open day is available
exactly when it lies within a slot that is reported free. -/
theorem isAvailable_iff_reported {a : Availability} {C : Calendar} (ha : a.Shows C) {slot : TimeSlot}
    (hopen : a.days slot.day = true) (hproper : slot.span.Proper) (hwithin : (a.opening slot.day).Contains slot.span)
    (hbookings : ∀ b ∈ a.bookedSlots slot.day, b.span.Proper) :
    a.isAvailable slot = true ↔ ∃ free ∈ a.getAvailableTimeSlots slot.day, free.span.Contains slot.span := by
  have hdisjoint : (a.bookedSlots slot.day).Pairwise (fun b b' => ¬HalfOpen.Overlaps b.span b'.span) := by
    rw [ha slot.day]
    exact (C.timetable slot.day).disjoint
  have hgap := HalfOpen.free_iff_in_gap hproper hwithin.2 hwithin.1 (forall_mem_spans.2 hbookings)
    (a.spans_pairwise_start slot.day) (spans_pairwise_disjoint hdisjoint)
  rw [forall_mem_spans, ← getAvailableTimeSlots_spans hopen] at hgap
  rw [isAvailable_iff, and_iff_right hopen, hgap]
  simp only [List.mem_map, exists_exists_and_eq_and]

/-- A calendar whose bookings end after they start. -/
def Proper (a : Availability) : Prop := (∃ C : Calendar, a.Shows C) ∧ ∀ day, ∀ b ∈ a.bookedSlots day, b.span.Proper

theorem removeTimeSlot_proper {a : Availability} (h : a.Proper) (prevBookingId : Option Text) (userInfo : Text) :
    (a.removeTimeSlot prevBookingId userInfo).1.Proper := by
  obtain ⟨⟨C, hC⟩, hproper⟩ := h
  refine ⟨removeTimeSlot_shows hC prevBookingId userInfo, fun day b hb => hproper day b ?_⟩
  exact (a.removeTimeSlot_bookedSlots prevBookingId userInfo day).1.subset hb

theorem bookTimeSlot_proper {a : Availability} (h : a.Proper) {slot : TimeSlot} (hfree : a.isAvailable slot = true)
    (hslot : slot.span.Proper) (confirmationID userInfo : Text) : (a.bookTimeSlot confirmationID userInfo slot).Proper := by
  obtain ⟨⟨C, hC⟩, hproper⟩ := h
  refine ⟨bookTimeSlot_shows hC hfree confirmationID userInfo, ?_⟩
  intro day b hb
  rcases mem_bookTimeSlot.1 hb with hb | ⟨rfl, rfl⟩
  · exact hproper day b hb
  · exact hslot

end Availability

/-- On every open day of every facility, every slot within the opening hours that ends after it starts is available exactly when
it lies within a slot that is reported free. -/
def Agrees (s : ServerState) : Prop :=
  ∀ f ∈ s.facilities, ∀ slot : TimeSlot, f.availability.days slot.day = true → slot.span.Proper →
    (0 ≤ slot.startMinute ∧ slot.startMinute ≤ 59) → (0 ≤ slot.endMinute ∧ slot.endMinute ≤ 59) →
    (f.availability.opening slot.day).Contains slot.span →
    (f.availability.isAvailable slot = true ↔
      ∃ free ∈ f.availability.getAvailableTimeSlots slot.day, free.span.Contains slot.span)

/-- The booking that the server accepts from a datagram, if it accepts one, ends after it starts. -/
def AsksProperly (Γ : Jvm) (s : ServerState) (e : Event) : Prop :=
  ∀ booking, (effect Γ s e).booking? = some booking → booking.timeSlot.span.Proper

theorem agrees_of_proper {s : ServerState} (h : ∀ f ∈ s.facilities, f.availability.Proper) : Agrees s := by
  intro f hf slot hopen hproper _ _ hwithin
  obtain ⟨⟨C, hC⟩, hbookings⟩ := h f hf
  exact Availability.isAvailable_iff_reported hC hopen hproper hwithin (hbookings slot.day)

/-- Along a run from `init()` in which every booking that is accepted ends after it starts, what is reported free and what is
accepted agree in every state reached. -/
theorem agrees_throughout (Γ : Jvm) (checkHistory : Bool) (es : List Event)
    (h : Machine.Along (serverStep Γ) (AsksProperly Γ) (.init checkHistory) es) :
    Machine.Throughout (serverStep Γ) Agrees (.init checkHistory) es := by
  refine (Machine.throughout_of_along (P := fun s => ∀ f ∈ s.facilities, f.availability.Proper) ?_ es _ ?_ h).mono
    fun s hs => agrees_of_proper hs
  · intro s e hs hasks
    rw [serverStep, handleRequest_facilities]
    refine forall_onFacilities (fun a slot => a.isAvailable slot = true ∧ slot.span.Proper)
      (fun a slot confirmationID userInfo ha hslot =>
        Availability.bookTimeSlot_proper ha hslot.1 hslot.2 confirmationID userInfo)
      (fun a prevBookingId userInfo ha => Availability.removeTimeSlot_proper ha prevBookingId userInfo)
      (fun a slot prevBookingId userInfo hslot =>
        ⟨Availability.removeTimeSlot_isAvailable hslot.1 prevBookingId userInfo, hslot.2⟩) hs ?_
    exact fun booking f hbooking hf => ⟨isAvailable_of_effect hbooking hf, hasks booking hbooking⟩
  · simp only [ServerState.init, List.forall_mem_cons]
    exact ⟨⟨⟨.empty, fun _ => rfl⟩, fun _ _ hb => absurd hb List.not_mem_nil⟩,
      ⟨⟨.empty, fun _ => rfl⟩, fun _ _ hb => absurd hb List.not_mem_nil⟩,
      ⟨⟨.empty, fun _ => rfl⟩, fun _ _ hb => absurd hb List.not_mem_nil⟩, fun _ hf => absurd hf List.not_mem_nil⟩

/-- A booking from nine to ten. -/
def bookMorning : Event := .sent 5000 ⟨1, 0, some "Weekday1,MONDAY,9,0,10,0".toList⟩ ⟨0, 0⟩

theorem agrees_throughout_bookMorning :
    Machine.Throughout (serverStep openJdk) Agrees (.init true) [bookMorning] := by
  refine agrees_throughout openJdk true [bookMorning] ⟨?_, trivial⟩
  intro booking hbooking
  rw [effect_frame (m := ⟨1, 0, some "Weekday1,MONDAY,9,0,10,0".toList⟩) rfl (fun t ht => by cases ht; decide)] at hbooking
  cases hbooking
  decide

/-- A booking from twelve back to ten, and then one from ten to eleven. -/
def bookBackwards : Event := .sent 5000 ⟨1, 0, some "Weekday1,MONDAY,12,0,10,0".toList⟩ ⟨0, 1⟩
def bookForwards : Event := .sent 5001 ⟨1, 0, some "Weekday1,MONDAY,10,0,11,0".toList⟩ ⟨0, 2⟩

/-- The availability once both are accepted. -/
def thrownBack : Availability :=
  (ServerState.weekday1.bookTimeSlot bookBackwards.uuid.toText bookBackwards.userInfo ⟨12, 0, 10, 0, .MONDAY⟩).bookTimeSlot
    bookForwards.uuid.toText bookForwards.userInfo ⟨10, 0, 11, 0, .MONDAY⟩

/-- The hour from ten to eleven is taken, and it is reported free. -/
theorem not_reachable_agrees : ¬∀ checkHistory s, Reachable openJdk checkHistory s → Agrees s := by
  intro h
  have hback : Reachable openJdk false (serverStep openJdk (.init false) bookBackwards) := .step .start bookBackwards
  have hagrees := h false _ (.step hback bookForwards)
  unfold Agrees at hagrees
  rw [serverStep_frame (m := ⟨1, 0, some "Weekday1,MONDAY,10,0,11,0".toList⟩) rfl (fun t ht => by cases ht; decide)
      (replayOf_atLeastOnce (reachable_checkHistory hback) _ _),
    serverStep_frame (m := ⟨1, 0, some "Weekday1,MONDAY,12,0,10,0".toList⟩) rfl (fun t ht => by cases ht; decide) rfl]
    at hagrees
  have hslot := (hagrees ((Facility.new "Weekday1".toList).setAvailability thrownBack) List.mem_cons_self
    ⟨10, 0, 11, 0, .MONDAY⟩ rfl (by decide) (by decide) (by decide) (by decide)).2
    ⟨⟨10, 0, 17, 0, .MONDAY⟩, by decide, by decide⟩
  revert hslot
  decide

end FacilityBooking
