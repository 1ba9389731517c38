import FacilityBooking.Runs
import FacilityBooking.Theorems.Complement

/-!
# Independent bookings commute

Two requests for bookings that are not in each other's way: what each is answered does not depend on the other, and in whatever
order they are handled the same bookings are left, on each day up to the order in which they were made.
-/

namespace FacilityBooking

/-- The datagram holds a request to book a slot that ends after it starts. -/
structure AsksToBook (Γ : Jvm) (e : Event) (m : RequestMessage) (booking : BookingDetails) : Prop where
  message : deserializeMessage Γ e.bytes = .ok m
  operation : m.getOperation = .WRITE
  details : parseBookingDetails Γ m.data = .ok booking
  proper : booking.timeSlot.span.Proper

/-- The bookings asked for are for different facilities, or for different days, or do not overlap. -/
def Independent (booking booking' : BookingDetails) : Prop :=
  booking.facilityName ≠ booking'.facilityName ∨ booking.day ≠ booking'.day ∨
    ¬HalfOpen.Overlaps booking.timeSlot.span booking'.timeSlot.span

theorem Independent.symm {booking booking' : BookingDetails} (h : Independent booking booking') :
    Independent booking' booking := by
  rcases h with h | h | h
  · exact Or.inl h.symm
  · exact Or.inr (Or.inl h.symm)
  · exact Or.inr (Or.inr fun hover => h hover.symm)

/-- The same facility with the same bookings on every day. -/
def SameEachDay (f f' : Facility) : Prop :=
  f.name = f'.name ∧ ∀ day, (f.availability.bookedSlots day).Perm (f'.availability.bookedSlots day)

/-- The same facility with the same free slots on every day. -/
def SameFree (f f' : Facility) : Prop :=
  f.name = f'.name ∧ ∀ day, f.availability.getAvailableTimeSlots day = f'.availability.getAvailableTimeSlots day

/-- The same facility but for the order in which the bookings of a day were made. -/
def SameButOrder (f f' : Facility) : Prop :=
  ∃ slots, f' = f.setAvailability { f.availability with bookedSlots := slots } ∧
    ∀ day, (f.availability.bookedSlots day).Perm (slots day)

theorem SameButOrder.refl (f : Facility) : SameButOrder f f := ⟨f.availability.bookedSlots, rfl, fun _ => List.Perm.refl _⟩

theorem SameButOrder.sameEachDay {f f' : Facility} (h : SameButOrder f f') : SameEachDay f f' := by
  obtain ⟨slots, rfl, hperm⟩ := h
  exact ⟨rfl, hperm⟩

/-- The order does not show in the free slots, where bookings end after they start and do not overlap. -/
theorem SameButOrder.sameFree {f f' : Facility} (h : SameButOrder f f')
    (hproper : ∀ day, ∀ b ∈ f.availability.bookedSlots day, b.span.Proper)
    (hdisjoint : ∀ day, (f.availability.bookedSlots day).Pairwise (fun b b' => ¬HalfOpen.Overlaps b.span b'.span)) :
    SameFree f f' := by
  obtain ⟨slots, rfl, hperm⟩ := h
  refine ⟨rfl, fun day => ?_⟩
  exact (Availability.getAvailableTimeSlots_of_perm (hproper day) (hdisjoint day) (hperm day).symm).symm

/-! ## The store -/

theorem Availability.bookTimeSlot_bookedSlots (a : Availability) (confirmationID userInfo : Text) (slot : TimeSlot)
    (day : DayOfWeek) : (a.bookTimeSlot confirmationID userInfo slot).bookedSlots day =
      a.bookedSlots day ++ if day = slot.day then [⟨confirmationID, userInfo, a.facilityName, slot⟩] else [] := by
  rw [bookTimeSlot]
  by_cases hday : day = slot.day
  · rw [if_pos hday, hday, setBooked_self]
  · rw [if_neg hday, setBooked_of_ne a _ hday, List.append_nil]

/-- Two slots booked in either order. -/
theorem sameButOrder_book (f : Facility) (confirmationID userInfo confirmationID' userInfo' : Text) (slot slot' : TimeSlot) :
    SameButOrder
      (f.setAvailability ((f.availability.bookTimeSlot confirmationID userInfo slot).bookTimeSlot confirmationID' userInfo' slot'))
      (f.setAvailability ((f.availability.bookTimeSlot confirmationID' userInfo' slot').bookTimeSlot confirmationID userInfo slot)) := by
  refine ⟨((f.availability.bookTimeSlot confirmationID' userInfo' slot').bookTimeSlot confirmationID userInfo slot).bookedSlots,
    rfl, fun day => ?_⟩
  simp only [Facility.setAvailability, Availability.bookTimeSlot_bookedSlots, List.append_assoc]
  exact List.perm_append_comm.append_left _

/-- A slot that is booked is not in the way of another that does not overlap it, or is for another day. -/
theorem Availability.isAvailable_bookTimeSlot {a : Availability} {slot slot' : TimeSlot}
    (h : slot.day ≠ slot'.day ∨ ¬HalfOpen.Overlaps slot.span slot'.span) (confirmationID userInfo : Text) :
    (a.bookTimeSlot confirmationID userInfo slot').isAvailable slot = a.isAvailable slot := by
  rw [Bool.eq_iff_iff, isAvailable_iff, isAvailable_iff]
  refine and_congr_right fun _ => ?_
  simp only [mem_bookTimeSlot]
  constructor
  · intro hfree b hb
    exact hfree b (Or.inl hb)
  · rintro hfree b (hb | ⟨hday, rfl⟩)
    · exact hfree b hb
    · rcases h with h | h
      · exact absurd hday h
      · exact fun hover => h hover.symm

/-- Two changes that rename no facility, made in either order, are related where their facilities are. -/
theorem forall₂_modifyFacility_comm {R : Facility → Facility → Prop} (hrefl : ∀ f, R f f) {name name' : Text}
    {change change' : Facility → Facility} (hname : ∀ f, (change f).name = f.name) (hname' : ∀ f, (change' f).name = f.name)
    (h : ∀ f, R (change' (change f)) (change (change' f))) (facilities : List Facility) :
    List.Forall₂ R (modifyFacility (modifyFacility facilities name change) name' change')
      (modifyFacility (modifyFacility facilities name' change') name change) := by
  have hsame : ∀ fs : List Facility, List.Forall₂ R fs fs := fun fs => List.forall₂_same.2 fun f _ => hrefl f
  induction facilities with
  | nil => exact List.Forall₂.nil
  | cons g facilities ih =>
    by_cases hg : g.name = name
    · by_cases hg' : g.name = name'
      · simp only [modifyFacility, hname, hname', if_pos hg, if_pos hg']
        exact List.Forall₂.cons (h g) (hsame _)
      · simp only [modifyFacility, hg', hname, if_pos hg, if_false]
        exact hsame _
    · by_cases hg' : g.name = name'
      · simp only [modifyFacility, hg, hname', if_pos hg', if_false]
        exact hsame _
      · simp only [modifyFacility, hg, hg', if_false]
        exact List.Forall₂.cons (hrefl g) ih

/-! ## The requests -/

/-- What is answered under another key is no request to repeat. -/
theorem replayOf_serverStep {Γ : Jvm} {s : ServerState} {e e' : Event} {m m' : RequestMessage}
    (hm' : deserializeMessage Γ e'.bytes = .ok m') (hkeys : e.key m ≠ e'.key m') :
    replayOf (serverStep Γ s e') m e = replayOf s m e := by
  have hhandling := handleRequest_handling Γ s e'
  rw [serverStep]
  generalize handleRequest Γ s e' = outcome at hhandling ⊢
  cases hhandling with
  | undecodable => rfl
  | echo => rfl
  | replay => rfl
  | thrown => rfl
  | executed m'' r last monitors sent hm =>
    cases hm'.symm.trans hm
    unfold replayOf containsRequest
    dsimp only
    split
    · rw [List.find?_append]
      have hother : List.find? (fun r => decide (r.requestMessage.requestID = m.requestID) &&
          (decide (r.clientAddress.address = e.address.address) && decide (r.clientPort = e.port)))
          [(⟨m', e'.address, e'.port, r⟩ : RequestInfo)] = none := by
        rw [List.find?_singleton, if_neg]
        simp only [Bool.and_eq_true, decide_eq_true_eq]
        rintro ⟨hid, haddress, hport⟩
        refine hkeys ?_
        rw [Event.key, Event.key, hid, haddress, hport]
      rw [hother, Option.or_none]
    · rfl

section

variable {Γ : Jvm} {s : ServerState} {e e' : Event} {m m' : RequestMessage} {booking booking' : BookingDetails}

theorem AsksToBook.not_echo (h : AsksToBook Γ e m booking) : m.getOperation ≠ .ECHO := by
  rw [h.operation]
  decide

/-- Its effect is to book, unless it is a repetition or is refused. -/
theorem AsksToBook.effect_eq (h : AsksToBook Γ e m booking) :
    effect Γ s e = if (replayOf s m e).isSome = false ∧ grants s.facilities booking = true then .book booking else .nothing := by
  have hasked : asked Γ m = .book booking := by simp only [asked, h.operation, h.details]
  have hgranted : (Effect.book booking).granted s.facilities = grants s.facilities booking := rfl
  simp only [effect, h.message, effectOf, hasked, Effect.ifGranted, hgranted]
  cases (replayOf s m e).isSome <;> cases grants s.facilities booking <;> rfl

/-- What it is answered when it is executed depends on the facility being there and on the slot being free. -/
theorem AsksToBook.dispatch_eq (h : AsksToBook Γ e m booking) {s' : ServerState}
    (hfound : (getFacility s'.facilities booking.facilityName).isSome = (getFacility s.facilities booking.facilityName).isSome)
    (hgrants : grants s'.facilities booking = grants s.facilities booking) :
    (dispatch Γ s' m e).2 = (dispatch Γ s m e).2 := by
  unfold grants at hgrants
  simp only [dispatch, h.operation, bookFacility, h.details]
  cases hf : getFacility s.facilities booking.facilityName with
  | none =>
    cases hf' : getFacility s'.facilities booking.facilityName with
    | none => rfl
    | some f' =>
      rw [hf, hf'] at hfound
      cases hfound
  | some f =>
    cases hf' : getFacility s'.facilities booking.facilityName with
    | none =>
      rw [hf, hf'] at hfound
      cases hfound
    | some f' =>
      simp only [hf, hf'] at hgrants
      simp only [hgrants]
      cases f.availability.isAvailable booking.timeSlot <;> rfl

/-- What a booking changes is its facility. -/
theorem getFacility_book (facilities : List Facility) (name : Text) :
    getFacility ((Effect.book booking).onFacilities Γ e facilities) name =
      if name = booking.facilityName then (getFacility facilities booking.facilityName).map (fun facility =>
        facility.setAvailability (facility.availability.bookTimeSlot e.uuid.toText e.userInfo booking.timeSlot))
      else getFacility facilities name := by
  refine getFacility_modifyFacility ?_ facilities booking.facilityName name
  exact fun _ => rfl

/-- The facility is there, and the slot is free, whether or not an independent booking is made. -/
theorem AsksToBook.grants_step (h' : AsksToBook Γ e' m' booking') (hind : Independent booking booking') :
    (getFacility (serverStep Γ s e').facilities booking.facilityName).isSome =
        (getFacility s.facilities booking.facilityName).isSome ∧
      grants (serverStep Γ s e').facilities booking = grants s.facilities booking := by
  rw [serverStep, handleRequest_facilities, h'.effect_eq]
  split
  · rw [grants, grants, getFacility_book]
    by_cases hname : booking.facilityName = booking'.facilityName
    · rw [if_pos hname, hname]
      cases getFacility s.facilities booking'.facilityName with
      | none => exact ⟨rfl, rfl⟩
      | some f =>
        refine ⟨rfl, Availability.isAvailable_bookTimeSlot ?_ _ _⟩
        exact hind.resolve_left (not_not_intro hname)
    · rw [if_neg hname]
      exact ⟨rfl, rfl⟩
  · exact ⟨rfl, rfl⟩

/-- What it is answered does not depend on an independent request of another key. -/
theorem AsksToBook.result_step (h : AsksToBook Γ e m booking) (h' : AsksToBook Γ e' m' booking') (hkeys : e.key m ≠ e'.key m')
    (hind : Independent booking booking') : (handleRequest Γ (serverStep Γ s e') e).result = (handleRequest Γ s e).result := by
  have hreplay := replayOf_serverStep (s := s) h'.message hkeys
  cases hnew : replayOf s m e with
  | some prevRequest =>
    rw [handleRequest_of_replay h.message h.not_echo hnew, handleRequest_of_replay h.message h.not_echo (hreplay.trans hnew)]
  | none =>
    rw [handleRequest_of_new h.message h.not_echo hnew, handleRequest_of_new h.message h.not_echo (hreplay.trans hnew),
      execute_result, execute_result]
    obtain ⟨hfound, hgrants⟩ := h'.grants_step (s := s) hind
    exact h.dispatch_eq hfound hgrants

/-- Its effect does not depend on one either. -/
theorem AsksToBook.effect_step (h : AsksToBook Γ e m booking) (h' : AsksToBook Γ e' m' booking') (hkeys : e.key m ≠ e'.key m')
    (hind : Independent booking booking') : effect Γ (serverStep Γ s e') e = effect Γ s e := by
  rw [h.effect_eq, h.effect_eq, replayOf_serverStep h'.message hkeys, (h'.grants_step hind).2]

/-- The facilities after both, in either order. -/
theorem AsksToBook.facilities_comm (h : AsksToBook Γ e m booking) (h' : AsksToBook Γ e' m' booking') (hkeys : e.key m ≠ e'.key m')
    (hind : Independent booking booking') :
    List.Forall₂ SameButOrder (serverStep Γ (serverStep Γ s e) e').facilities (serverStep Γ (serverStep Γ s e') e).facilities := by
  have hsame : ∀ fs : List Facility, List.Forall₂ SameButOrder fs fs := fun fs => List.forall₂_same.2 fun f _ => .refl f
  have heffect := h.effect_step (s := s) h' hkeys hind
  have heffect' := h'.effect_step (s := s) h hkeys.symm hind.symm
  have hafter : ∀ d d', (serverStep Γ (serverStep Γ s d) d').facilities =
      (effect Γ (serverStep Γ s d) d').onFacilities Γ d' ((effect Γ s d).onFacilities Γ d s.facilities) := by
    intro d d'
    rw [serverStep, handleRequest_facilities, serverStep, handleRequest_facilities]
  rw [hafter, hafter, heffect, heffect', h.effect_eq, h'.effect_eq]
  split
  · split
    · refine forall₂_modifyFacility_comm SameButOrder.refl ?_ ?_ ?_ s.facilities
      · exact fun _ => rfl
      · exact fun _ => rfl
      · exact fun f => sameButOrder_book f _ _ _ _ _ _
    · exact hsame _
  · split
    · exact hsame _
    · exact hsame _

/-- A request for a proper slot keeps the bookings proper. -/
theorem AsksToBook.proper_step (h : AsksToBook Γ e m booking)
    (hs : ∀ f ∈ s.facilities, ∀ day, ∀ b ∈ f.availability.bookedSlots day, b.span.Proper) :
    ∀ f ∈ (serverStep Γ s e).facilities, ∀ day, ∀ b ∈ f.availability.bookedSlots day, b.span.Proper := by
  rw [serverStep, handleRequest_facilities]
  refine forall_onFacilities (P := fun a => ∀ day, ∀ b ∈ a.bookedSlots day, b.span.Proper) (fun _ slot => slot.span.Proper)
    ?_ ?_ (fun _ _ _ _ hC => hC) hs ?_
  · intro a slot confirmationID userInfo ha hslot day b hb
    rcases Availability.mem_bookTimeSlot.1 hb with hb | ⟨_, rfl⟩
    · exact ha day b hb
    · exact hslot
  · intro a prevBookingId userInfo ha day b hb
    exact ha day b ((a.removeTimeSlot_bookedSlots prevBookingId userInfo day).1.subset hb)
  · intro details f hdetails _
    rw [h.effect_eq] at hdetails
    split at hdetails
    · cases hdetails
      exact h.proper
    · cases hdetails

end

/-- Two requests to book, of different keys, for different facilities, for different days or for slots that do not overlap: each is
answered the same whether it is the first to be handled or the second, and in either order every facility has the same bookings
on every day and, if all bookings end after they start, the same free slots. -/
theorem bookings_commute {Γ : Jvm} {checkHistory : Bool} {s : ServerState} (hs : Reachable Γ checkHistory s) (e e' : Event)
    (m m' : RequestMessage) (booking booking' : BookingDetails) (h : AsksToBook Γ e m booking) (h' : AsksToBook Γ e' m' booking')
    (hkeys : e.key m ≠ e'.key m') (hind : Independent booking booking') :
    (handleRequest Γ (serverStep Γ s e') e).result = (handleRequest Γ s e).result ∧
    (handleRequest Γ (serverStep Γ s e) e').result = (handleRequest Γ s e').result ∧
    List.Forall₂ SameEachDay (serverStep Γ (serverStep Γ s e) e').facilities (serverStep Γ (serverStep Γ s e') e).facilities ∧
    ((∀ f ∈ s.facilities, ∀ day, ∀ b ∈ f.availability.bookedSlots day, b.span.Proper) →
      List.Forall₂ SameFree (serverStep Γ (serverStep Γ s e) e').facilities (serverStep Γ (serverStep Γ s e') e).facilities) := by
  have hcomm := h.facilities_comm (s := s) h' hkeys hind
  refine ⟨h.result_step h' hkeys hind, h'.result_step h hkeys.symm hind.symm, hcomm.imp fun _ _ => SameButOrder.sameEachDay, ?_⟩
  intro hproper
  have hproper' := h'.proper_step (h.proper_step hproper)
  have hreachable : Reachable Γ checkHistory (serverStep Γ (serverStep Γ s e) e') := (hs.step e).step e'
  have hboth := (List.forall₂_and_left _ _).2 ⟨hproper', (List.forall₂_and_left _ _).2 ⟨reachable_shows hreachable, hcomm⟩⟩
  refine hboth.imp ?_
  rintro f f' ⟨hf, ⟨C, hC⟩, hsame⟩
  refine hsame.sameFree hf fun day => ?_
  rw [hC day]
  exact (C.timetable day).disjoint

/-- Two users' requests, for nine to ten and for ten to eleven. -/
def askFirstHour : Event := .sent 5000 ⟨1, 0, some "Weekday1,MONDAY,9,0,10,0".toList⟩ ⟨0, 0⟩
def askSecondHour : Event := .sent 5001 ⟨1, 0, some "Weekday1,MONDAY,10,0,11,0".toList⟩ ⟨0, 1⟩

theorem bookings_commute_hours :
    (handleRequest openJdk (serverStep openJdk (.init true) askSecondHour) askFirstHour).result =
        (handleRequest openJdk (.init true) askFirstHour).result ∧
    (handleRequest openJdk (serverStep openJdk (.init true) askFirstHour) askSecondHour).result =
        (handleRequest openJdk (.init true) askSecondHour).result ∧
    List.Forall₂ SameEachDay (serverStep openJdk (serverStep openJdk (.init true) askFirstHour) askSecondHour).facilities
        (serverStep openJdk (serverStep openJdk (.init true) askSecondHour) askFirstHour).facilities ∧
    ((∀ f ∈ (ServerState.init true).facilities, ∀ day, ∀ b ∈ f.availability.bookedSlots day, b.span.Proper) →
      List.Forall₂ SameFree (serverStep openJdk (serverStep openJdk (.init true) askFirstHour) askSecondHour).facilities
        (serverStep openJdk (serverStep openJdk (.init true) askSecondHour) askFirstHour).facilities) := by
  refine bookings_commute .start askFirstHour askSecondHour ⟨1, 0, some "Weekday1,MONDAY,9,0,10,0".toList⟩
    ⟨1, 0, some "Weekday1,MONDAY,10,0,11,0".toList⟩ ⟨none, "Weekday1".toList, .MONDAY, 9, 0, 10, 0⟩
    ⟨none, "Weekday1".toList, .MONDAY, 10, 0, 11, 0⟩ ⟨?_, rfl, rfl, by decide⟩ ⟨?_, rfl, rfl, by decide⟩ (by decide) ?_
  · exact deserializeMessage_frame _ _ fun t ht => by cases ht; decide
  · exact deserializeMessage_frame _ _ fun t ht => by cases ht; decide
  · exact Or.inr (Or.inr (by decide))

end FacilityBooking
