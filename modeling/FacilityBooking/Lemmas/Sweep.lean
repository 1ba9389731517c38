import FacilityBooking.Lemmas.Store

/-!
# The sweep over the bookings of a day

`getAvailableTimeSlots` sorts the bookings of a day by their starts and sweeps over them: as intervals, what it returns are the
gaps between the bookings.
-/

namespace FacilityBooking

namespace Booking

theorem startsNoLater_iff (a b : Booking) : startsNoLater a b ↔ a.span.start ≤ b.span.start := by
  simp only [startsNoLater, span, TimeSlot.span, Instant.mk_le_mk]
  split
  · omega
  · omega

instance : Std.Total startsNoLater := ⟨fun a b => by simp only [startsNoLater_iff]; exact le_total _ _⟩

instance : IsTrans Booking startsNoLater := ⟨fun a b c => by simp only [startsNoLater_iff]; exact le_trans⟩

end Booking

namespace Availability

/-- The bookings of a day as `getAvailableTimeSlots` sorts them. -/
def sortedBookings (a : Availability) (day : DayOfWeek) : List Booking :=
  (a.bookedSlots day).insertionSort Booking.startsNoLater

theorem sortedBookings_perm (a : Availability) (day : DayOfWeek) : (a.sortedBookings day).Perm (a.bookedSlots day) :=
  List.perm_insertionSort Booking.startsNoLater (a.bookedSlots day)

theorem sortedBookings_pairwise (a : Availability) (day : DayOfWeek) :
    (a.sortedBookings day).Pairwise Booking.startsNoLater := List.pairwise_insertionSort Booking.startsNoLater _

/-- Their intervals are in the order of their starts. -/
theorem spans_pairwise_start (a : Availability) (day : DayOfWeek) :
    ((a.sortedBookings day).map Booking.span).Pairwise (fun x y => x.start ≤ y.start) := by
  rw [List.pairwise_map]
  exact (a.sortedBookings_pairwise day).imp fun h => (Booking.startsNoLater_iff _ _).1 h

/-- Where no two bookings overlap, no two of the sorted ones do. -/
theorem spans_pairwise_disjoint {a : Availability} {day : DayOfWeek}
    (h : (a.bookedSlots day).Pairwise (fun b b' => ¬HalfOpen.Overlaps b.span b'.span)) :
    ((a.sortedBookings day).map Booking.span).Pairwise (fun x y => ¬HalfOpen.Overlaps x y) := by
  rw [List.pairwise_map, (a.sortedBookings_perm day).pairwise_iff (fun h h' => h h'.symm)]
  exact h

/-- What holds of the interval of every booking holds of the sorted ones. -/
theorem forall_mem_spans {a : Availability} {day : DayOfWeek} {P : HalfOpen Instant → Prop} :
    (∀ x ∈ (a.sortedBookings day).map Booking.span, P x) ↔ ∀ b ∈ a.bookedSlots day, P b.span := by
  rw [List.forall_mem_map]
  simp only [(a.sortedBookings_perm day).mem_iff]

/-- The sweep of the code lists the gaps between the bookings. -/
theorem sweep_spans (a : Availability) (day : DayOfWeek) (bookings : List Booking) (hour minute : Int) :
    (a.sweep day hour minute bookings).map TimeSlot.span =
      HalfOpen.gaps (a.opening day).stop (Instant.mk hour minute) (bookings.map Booking.span) := by
  induction bookings generalizing hour minute with
  | nil =>
    simp only [sweep, HalfOpen.gaps, List.map_nil, opening, Instant.mk_lt_mk, Bool.or_eq_true, Bool.and_eq_true,
      decide_eq_true_eq, beq_iff_eq]
    split <;> rfl
  | cons b bookings ih =>
    simp only [sweep, HalfOpen.gaps, List.map_append, List.map_cons, ih, Booking.span, TimeSlot.span, Instant.mk_lt_mk,
      Bool.or_eq_true, Bool.and_eq_true, decide_eq_true_eq, beq_iff_eq]
    congr 1
    split <;> rfl

/-- On an open day, the gaps from the opening to the closing time. -/
theorem getAvailableTimeSlots_spans {a : Availability} {day : DayOfWeek} (hopen : a.days day = true) :
    (a.getAvailableTimeSlots day).map TimeSlot.span =
      HalfOpen.gaps (a.opening day).stop (a.opening day).start ((a.sortedBookings day).map Booking.span) := by
  rw [getAvailableTimeSlots, if_pos hopen]
  exact a.sweep_spans day (a.sortedBookings day) (a.startHour day) (a.startMinute day)

/-- A sweep looks at the closing time and at nothing else of the availability. -/
theorem sweep_congr {a a' : Availability} {day : DayOfWeek} (hhour : a.endHour day = a'.endHour day)
    (hminute : a.endMinute day = a'.endMinute day) (bookings : List Booking) (hour minute : Int) :
    a.sweep day hour minute bookings = a'.sweep day hour minute bookings := by
  induction bookings generalizing hour minute with
  | nil => rw [sweep, sweep, hhour, hminute]
  | cons b bookings ih => rw [sweep, sweep, ih]

/-- Every slot of a sweep is of the day. -/
theorem day_of_mem_sweep {a : Availability} {day : DayOfWeek} {bookings : List Booking} {hour minute : Int} {slot : TimeSlot}
    (h : slot ∈ a.sweep day hour minute bookings) : slot.day = day := by
  induction bookings generalizing hour minute with
  | nil =>
    rw [sweep, List.mem_ite_nil_right, List.mem_singleton] at h
    rw [h.2]
  | cons b bookings ih =>
    rw [sweep, List.mem_append, List.mem_ite_nil_right, List.mem_singleton] at h
    rcases h with ⟨_, rfl⟩ | h
    · rfl
    · exact ih h

theorem day_of_mem_getAvailableTimeSlots {a : Availability} {day : DayOfWeek} {slot : TimeSlot}
    (h : slot ∈ a.getAvailableTimeSlots day) : slot.day = day := by
  rw [getAvailableTimeSlots, List.mem_ite_nil_right] at h
  exact day_of_mem_sweep h.2

end Availability

end FacilityBooking
