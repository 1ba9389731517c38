import FacilityBooking.Runs

/-!
# What a request leaves alone

Nobody's bookings change but the sender's, and after an error response nothing has changed.
-/

namespace FacilityBooking

/-- The bookings of a facility that are not the user's, day by day. -/
def Facility.bookingsOfOthers (user : Text) (f : Facility) (day : DayOfWeek) : List Booking :=
  (f.availability.bookedSlots day).filter (fun b => decide (b.userInfo ≠ user))

/-- Booking a slot adds no booking of another user. -/
theorem bookTimeSlot_others (a : Availability) (confirmationID user : Text) (slot : TimeSlot) (day : DayOfWeek) :
    ((a.bookTimeSlot confirmationID user slot).bookedSlots day).filter (fun b => decide (b.userInfo ≠ user)) =
      (a.bookedSlots day).filter (fun b => decide (b.userInfo ≠ user)) := by
  rw [Availability.bookTimeSlot]
  rcases eq_or_ne day slot.day with rfl | hday
  · rw [Availability.setBooked_self, List.filter_append]
    simp
  · rw [Availability.setBooked_of_ne a _ hday]

/-- An effect leaves the bookings of the others alone. -/
theorem onFacilities_others (Γ : Jvm) (e : Event) (effect : Effect) (facilities : List Facility) :
    (effect.onFacilities Γ e facilities).map (Facility.bookingsOfOthers e.userInfo) =
      facilities.map (Facility.bookingsOfOthers e.userInfo) := by
  cases effect with
  | nothing => rfl
  | book booking => exact map_modifyFacility fun f _ => funext fun day => bookTimeSlot_others _ _ _ _ day
  | move booking =>
    refine map_modifyFacility fun f _ => funext fun day => (bookTimeSlot_others _ _ _ _ day).trans ?_
    exact (f.availability.removeTimeSlot_bookedSlots booking.prevBookingId e.userInfo day).2
  | remove facilityName bookingId =>
    exact map_modifyFacility fun f _ => funext fun day =>
      (f.availability.removeTimeSlot_bookedSlots (some bookingId) e.userInfo day).2
  | rate facilityName rating => exact map_modifyFacility fun f _ => rfl
  | register facilityName monitorInterval => rfl

/-- Bookings are only ever removed, or added, by their owner: in every state, whatever a user sends, the bookings of the others
are the same before and after, in every facility and on every day, in the same order. -/
theorem only_owner_changes_bookings (Γ : Jvm) (s : ServerState) (e : Event) :
    (handleRequest Γ s e).state.facilities.map (Facility.bookingsOfOthers e.userInfo) =
      s.facilities.map (Facility.bookingsOfOthers e.userInfo) := by
  rw [handleRequest_facilities]
  exact onFacilities_others Γ e (effect Γ s e) s.facilities

/-- The datagram is answered from the history. -/
def Replayed (Γ : Jvm) (s : ServerState) (e : Event) : Prop :=
  ∃ m prevRequest, deserializeMessage Γ e.bytes = .ok m ∧ m.getOperation ≠ .ECHO ∧ replayOf s m e = some prevRequest

/-- An error response that is not a replay means that nothing happened: the facilities are the same before and after, with their
bookings, ratings and opening hours, and so are the monitors, but for expired ones that may be gone. -/
theorem error_changes_nothing (Γ : Jvm) (s : ServerState) (e : Event) (r : RequestMessage)
    (hresult : (handleRequest Γ s e).result = .ok r) (herror : r.Says "status:ERROR") (hreplay : ¬Replayed Γ s e) :
    (handleRequest Γ s e).state.facilities = s.facilities ∧
    ((handleRequest Γ s e).state.monitors = s.monitors ∨
      (handleRequest Γ s e).state.monitors = removeExpiredMonitors s.monitors e.now) := by
  have h := handleRequest_handling Γ s e
  generalize handleRequest Γ s e = outcome at h hresult ⊢
  cases h with
  | undecodable x hm => exact ⟨rfl, Or.inl rfl⟩
  | echo m hm ho => exact ⟨rfl, Or.inl rfl⟩
  | replay m prevRequest hm ho hp => exact absurd ⟨m, prevRequest, hm, ho, hp⟩ hreplay
  | thrown m x hm ho hp hx => exact ⟨rfl, Or.inl rfl⟩
  | executed m r' last monitors sent hm ho hp hd hr hmon hsent =>
    cases hresult
    rcases hr.data with ⟨⟨text, hdata⟩, _⟩ | ⟨_, hnothing⟩
    · exact absurd herror (not_says_error hdata)
    · rw [hnothing] at hmon ⊢
      exact ⟨rfl, hmon⟩

/-- A booking of a facility that is not there, by a new client. -/
def bookNowhere : Event := .sent 5000 ⟨1, 0, some "Nowhere,MONDAY,9,0,10,0".toList⟩ ⟨0, 0⟩

theorem error_changes_nothing_bookNowhere :
    (handleRequest openJdk (.init true) bookNowhere).state.facilities = (ServerState.init true).facilities ∧
    ((handleRequest openJdk (.init true) bookNowhere).state.monitors = [] ∨
      (handleRequest openJdk (.init true) bookNowhere).state.monitors = removeExpiredMonitors [] bookNowhere.now) := by
  have hm : deserializeMessage openJdk bookNowhere.bytes = .ok ⟨1, 0, some "Nowhere,MONDAY,9,0,10,0".toList⟩ :=
    deserializeMessage_frame _ _ fun t ht => by cases ht; decide
  refine error_changes_nothing openJdk (.init true) bookNowhere ⟨1, 0, error "Facility not found".toList⟩ ?_ (by decide) ?_
  · rw [handleRequest_of_new hm (by decide) rfl]
    rfl
  · rintro ⟨m, prevRequest, _, _, hp⟩
    cases hp

end FacilityBooking
