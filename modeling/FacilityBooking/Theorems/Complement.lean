import FacilityBooking.Lemmas.Sweep
import FacilityBooking.Server.Server

/-!
# What is reported free is the complement of what is booked

Over the bookings of an open day that end after they start, share no instant and lie within the opening hours, in whatever order
they were made, `getAvailableTimeSlots` returns the opening hours without the bookings.
-/

namespace FacilityBooking

namespace Availability

/-- Of bookings that end after they start and share no instant, no two overlap. -/
theorem not_overlaps_of_disjoint {a b : HalfOpen Instant} (ha : a.Proper) (hb : b.Proper) (h : ∀ t, ¬(t ∈ a ∧ t ∈ b)) :
    ¬HalfOpen.Overlaps a b := by
  rintro ⟨hab, hba⟩
  rcases le_total a.start b.start with hle | hle
  · exact h b.start ⟨⟨hle, hba⟩, ⟨le_refl _, hb⟩⟩
  · exact h a.start ⟨⟨le_refl _, ha⟩, ⟨hle, hab⟩⟩

/-- The order in which such bookings were made does not show once they are sorted. -/
theorem sortedBookings_of_perm {a : Availability} {day : DayOfWeek} {l : List Booking}
    (hproper : ∀ b ∈ a.bookedSlots day, b.span.Proper)
    (hdisjoint : (a.bookedSlots day).Pairwise (fun b b' => ¬HalfOpen.Overlaps b.span b'.span))
    (hl : l.Perm (a.bookedSlots day)) : (a.setBooked day l).sortedBookings day = a.sortedBookings day := by
  have hperm : ((a.setBooked day l).sortedBookings day).Perm (a.sortedBookings day) := by
    refine ((a.setBooked day l).sortedBookings_perm day).trans ?_
    rw [setBooked_self]
    exact hl.trans (a.sortedBookings_perm day).symm
  refine List.Perm.eq_of_pairwise ?_ (sortedBookings_pairwise _ _) (sortedBookings_pairwise _ _) hperm
  -- two bookings that start together overlap, so they are one
  intro b b' hb hb' hle hle'
  have hmem := (a.sortedBookings_perm day).mem_iff.1 (hperm.mem_iff.1 hb)
  have hmem' := (a.sortedBookings_perm day).mem_iff.1 hb'
  by_contra hne
  have hsymm : Std.Symm (fun b b' : Booking => ¬HalfOpen.Overlaps b.span b'.span) := ⟨fun _ _ h h' => h h'.symm⟩
  have hover := hdisjoint.forall hmem hmem' hne
  have hstart : b.span.start = b'.span.start :=
    le_antisymm ((Booking.startsNoLater_iff _ _).1 hle) ((Booking.startsNoLater_iff _ _).1 hle')
  exact hover ⟨hstart ▸ hproper b' hmem', hstart ▸ hproper b hmem⟩

/-- The order in which such bookings were made does not show in the free slots. -/
theorem getAvailableTimeSlots_of_perm {a : Availability} {day : DayOfWeek} {slots : DayOfWeek → List Booking}
    (hproper : ∀ b ∈ a.bookedSlots day, b.span.Proper)
    (hdisjoint : (a.bookedSlots day).Pairwise (fun b b' => ¬HalfOpen.Overlaps b.span b'.span))
    (hslots : (slots day).Perm (a.bookedSlots day)) :
    ({ a with bookedSlots := slots } : Availability).getAvailableTimeSlots day = a.getAvailableTimeSlots day := by
  have hsorted := sortedBookings_of_perm hproper hdisjoint hslots
  rw [sortedBookings, setBooked_self, sortedBookings] at hsorted
  unfold getAvailableTimeSlots
  rw [hsorted]
  split
  · refine sweep_congr ?_ ?_ _ _ _
    · rfl
    · rfl
  · rfl

end Availability

/-- On an open day whose bookings end after they start, share no instant and lie within the opening hours: each slot returned
stops before the next one starts, so they are in order and no two of them overlap or touch; each is of the day and ends after it
starts; an instant of the opening hours lies in a slot returned exactly when it lies in no booking; and the order in which the
bookings were made does not matter. -/
theorem getAvailableTimeSlots_complement (a : Availability) (day : DayOfWeek) (hopen : a.days day = true)
    (hproper : ∀ b ∈ a.bookedSlots day, b.span.Proper)
    (hdisjoint : (a.bookedSlots day).Pairwise (fun b b' => ∀ t, ¬(t ∈ b.span ∧ t ∈ b'.span)))
    (hwithin : ∀ b ∈ a.bookedSlots day, (a.opening day).Contains b.span) :
    (a.getAvailableTimeSlots day).Pairwise (fun x y => x.span.stop < y.span.start) ∧
    (∀ slot ∈ a.getAvailableTimeSlots day, slot.span.Proper ∧ slot.day = day) ∧
    (∀ t ∈ a.opening day, (∃ slot ∈ a.getAvailableTimeSlots day, t ∈ slot.span) ↔ ∀ b ∈ a.bookedSlots day, t ∉ b.span) ∧
    ∀ l : List Booking, l.Perm (a.bookedSlots day) →
      (a.setBooked day l).getAvailableTimeSlots day = a.getAvailableTimeSlots day := by
  have hover : (a.bookedSlots day).Pairwise (fun b b' => ¬HalfOpen.Overlaps b.span b'.span) := by
    refine List.Pairwise.imp_of_mem ?_ hdisjoint
    intro b b' hb hb' h
    exact Availability.not_overlaps_of_disjoint (hproper b hb) (hproper b' hb') h
  have hrow : HalfOpen.InRow (a.opening day).stop (a.opening day).start ((a.sortedBookings day).map Booking.span) :=
    HalfOpen.inRow_of_pairwise (Availability.forall_mem_spans.2 hwithin) (Availability.forall_mem_spans.2 hproper)
      (a.spans_pairwise_start day) (Availability.spans_pairwise_disjoint hover)
  have hspans := Availability.getAvailableTimeSlots_spans hopen
  refine ⟨?_, ?_, ?_, ?_⟩
  · have hgaps := hrow.pairwise_gaps
    rwa [← hspans, List.pairwise_map] at hgaps
  · intro slot hslot
    have hgap := List.mem_map_of_mem (f := TimeSlot.span) hslot
    rw [hspans] at hgap
    exact ⟨HalfOpen.proper_of_mem_gaps _ hgap, Availability.day_of_mem_getAvailableTimeSlots hslot⟩
  · intro t ht
    have hgap := hrow.mem_gap_iff ht.1 ht.2
    rw [← hspans, Availability.forall_mem_spans] at hgap
    simpa only [List.mem_map, exists_exists_and_eq_and] using hgap
  · intro l hl
    refine Availability.getAvailableTimeSlots_of_perm hproper hover ?_
    rwa [Function.update_self]

/-- Two bookings of a Monday, the later one made first. -/
def twoBooked : Availability :=
  (ServerState.weekday1.bookTimeSlot [] [] ⟨10, 0, 12, 0, .MONDAY⟩).bookTimeSlot [] [] ⟨8, 0, 9, 30, .MONDAY⟩

theorem getAvailableTimeSlots_complement_twoBooked :
    (twoBooked.getAvailableTimeSlots .MONDAY).Pairwise (fun x y => x.span.stop < y.span.start) ∧
    (∀ slot ∈ twoBooked.getAvailableTimeSlots .MONDAY, slot.span.Proper ∧ slot.day = .MONDAY) ∧
    (∀ t ∈ twoBooked.opening .MONDAY,
      (∃ slot ∈ twoBooked.getAvailableTimeSlots .MONDAY, t ∈ slot.span) ↔
        ∀ b ∈ twoBooked.bookedSlots .MONDAY, t ∉ b.span) ∧
    ∀ l : List Booking, l.Perm (twoBooked.bookedSlots .MONDAY) →
      (twoBooked.setBooked .MONDAY l).getAvailableTimeSlots .MONDAY = twoBooked.getAvailableTimeSlots .MONDAY := by
  have hlate : Instant.mk 9 30 < Instant.mk 10 0 := by decide
  refine getAvailableTimeSlots_complement twoBooked .MONDAY rfl (by decide) ?_ (by decide)
  refine List.pairwise_pair.2 ?_
  rintro t ⟨ht, ht'⟩
  exact absurd (hlate.trans_le ht.1) (not_lt.2 ht'.2.le)

end FacilityBooking
