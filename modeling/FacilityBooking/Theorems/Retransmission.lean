import FacilityBooking.Theorems.ReadYourWrites

/-!
# Handling a datagram again

A server that does not check its history executes a request as often as it arrives. What the first execution leaves settles the
request: a booking that was made is in the way of its repetition, and a booking that was removed is not found again.
-/

namespace FacilityBooking

/-- The bookings of every facility. -/
def bookingsOf (facilities : List Facility) : List (DayOfWeek → List Booking) :=
  facilities.map (fun f => f.availability.bookedSlots)

/-- What a user asks for changes no booking: the slot is taken, or there is nothing to remove. -/
def Effect.Settled (user : Text) (facilities : List Facility) : Effect → Prop
  | .book booking => grants facilities booking = false
  | .move booking => grants facilities booking = false
  | .remove facilityName bookingId => ∀ f, getFacility facilities facilityName = some f →
    f.availability.ownedDay (some bookingId) user = none
  | _ => True

/-- A proper slot that is booked is taken. -/
theorem isAvailable_bookTimeSlot_self (a : Availability) (confirmationID userInfo : Text) {slot : TimeSlot}
    (hproper : slot.span.Proper) : (a.bookTimeSlot confirmationID userInfo slot).isAvailable slot = false := by
  rw [← Bool.not_eq_true, Availability.isAvailable_iff]
  rintro ⟨_, hfree⟩
  have hmem : ⟨confirmationID, userInfo, a.facilityName, slot⟩ ∈
      (a.bookTimeSlot confirmationID userInfo slot).bookedSlots slot.day :=
    Availability.mem_bookTimeSlot.2 (Or.inr ⟨rfl, rfl⟩)
  exact hfree _ hmem ⟨hproper, hproper⟩

/-- A facility whose availability has the slot booked does not grant it. -/
theorem grants_modifyFacility_eq_false {facilities : List Facility} {booking : BookingDetails} {change : Facility → Facility}
    (hname : ∀ f, (change f).name = f.name) (htaken : ∀ f, (change f).availability.isAvailable booking.timeSlot = false) :
    grants (modifyFacility facilities booking.facilityName change) booking = false := by
  rw [grants, getFacility_modifyFacility hname, if_pos rfl]
  cases getFacility facilities booking.facilityName with
  | none => rfl
  | some f => exact htaken f

/-- A change that changes nothing of the facility named. -/
theorem modifyFacility_of_eq {facilities : List Facility} {name : Text} {change : Facility → Facility}
    (h : ∀ f, getFacility facilities name = some f → change f = f) : modifyFacility facilities name change = facilities := by
  cases hf : getFacility facilities name with
  | none => exact modifyFacility_of_none hf change
  | some f =>
    obtain ⟨pre, post, hsplit, _, hchange⟩ := getFacility_split hf
    rw [hchange, h f hf, ← hsplit]

section

variable {Γ : Jvm} {e : Event} {facilities : List Facility} {effect : Effect}

/-- What is settled changes no booking and stays settled. -/
theorem Effect.Settled.keeps (h : effect.Settled e.userInfo facilities) :
    bookingsOf ((effect.ifGranted facilities).onFacilities Γ e facilities) = bookingsOf facilities ∧
      effect.Settled e.userInfo ((effect.ifGranted facilities).onFacilities Γ e facilities) := by
  cases effect with
  | nothing => exact ⟨rfl, trivial⟩
  | book booking =>
    have hnothing : (Effect.book booking).ifGranted facilities = .nothing := if_neg (Bool.eq_false_iff.1 h)
    rw [hnothing]
    exact ⟨rfl, h⟩
  | move booking =>
    have hnothing : (Effect.move booking).ifGranted facilities = .nothing := if_neg (Bool.eq_false_iff.1 h)
    rw [hnothing]
    exact ⟨rfl, h⟩
  | remove facilityName bookingId =>
    have hsame : ((Effect.remove facilityName bookingId).ifGranted facilities).onFacilities Γ e facilities = facilities := by
      unfold Effect.ifGranted
      split
      · refine modifyFacility_of_eq fun f hf => ?_
        rw [Availability.removeTimeSlot_of_none (h f hf)]
        rfl
      · rfl
    rw [hsame]
    exact ⟨rfl, h⟩
  | rate facilityName rating =>
    refine ⟨?_, trivial⟩
    unfold Effect.ifGranted
    split
    · exact map_modifyFacility fun _ _ => rfl
    · rfl
  | register facilityName monitorInterval =>
    refine ⟨?_, trivial⟩
    unfold Effect.ifGranted
    split <;> rfl

/-- Making a booking settles it. -/
theorem Effect.settled_of_booking (hproper : ∀ booking, effect.booking? = some booking → booking.timeSlot.span.Proper)
    (hbooking : effect.booking?.isSome = true) :
    effect.Settled e.userInfo ((effect.ifGranted facilities).onFacilities Γ e facilities) := by
  cases effect with
  | book booking =>
    cases hgrants : grants facilities booking with
    | false =>
      have hnothing : (Effect.book booking).ifGranted facilities = .nothing := if_neg (Bool.eq_false_iff.1 hgrants)
      rw [hnothing]
      exact hgrants
    | true =>
      have hgranted : (Effect.book booking).ifGranted facilities = .book booking := if_pos hgrants
      rw [hgranted]
      exact grants_modifyFacility_eq_false (fun _ => rfl)
        fun f => isAvailable_bookTimeSlot_self f.availability _ _ (hproper booking rfl)
  | move booking =>
    cases hgrants : grants facilities booking with
    | false =>
      have hnothing : (Effect.move booking).ifGranted facilities = .nothing := if_neg (Bool.eq_false_iff.1 hgrants)
      rw [hnothing]
      exact hgrants
    | true =>
      have hgranted : (Effect.move booking).ifGranted facilities = .move booking := if_pos hgrants
      rw [hgranted]
      exact grants_modifyFacility_eq_false (fun _ => rfl) fun f => isAvailable_bookTimeSlot_self _ _ _ (hproper booking rfl)
  | nothing => cases hbooking
  | remove facilityName bookingId => cases hbooking
  | rate facilityName rating => cases hbooking
  | register facilityName monitorInterval => cases hbooking

end

/-- A server that does not check its history does what is asked for as often as it is asked. -/
theorem effect_atLeastOnce {Γ : Jvm} {s : ServerState} {e : Event} {m : RequestMessage} (hmode : s.checkHistory = false)
    (hm : deserializeMessage Γ e.bytes = .ok m) : effect Γ s e = (asked Γ m).ifGranted s.facilities := by
  simp only [effect, hm, replayOf_atLeastOnce hmode, Option.isSome_none, Bool.false_eq_true, if_false]
  rfl

/-- Removing a booking settles it, where no two bookings have an ID in common. -/
theorem settled_of_remove {Γ : Jvm} {used : List UUID} {s : ServerState} (hids : Distinct used s) {e : Event}
    {facilityName bookingId : Text}
    (heffect : effect Γ s e = (Effect.remove facilityName bookingId).ifGranted s.facilities) :
    (Effect.remove facilityName bookingId).Settled e.userInfo (serverStep Γ s e).facilities := by
  intro f hf
  have hgranted : effect Γ s e = .remove facilityName bookingId := by
    rw [heffect]
    refine if_pos ?_
    have hnames : (serverStep Γ s e).facilities.map Facility.name = s.facilities.map Facility.name := by
      rw [serverStep, handleRequest_facilities, onFacilities_names]
    have hname : facilityName ∈ s.facilities.map Facility.name := by
      rw [← hnames, ← getFacility_name hf]
      exact List.mem_map_of_mem (getFacility_mem hf)
    obtain ⟨g, hg, hgname⟩ := List.mem_map.1 hname
    rw [Effect.granted, getFacility, List.find?_isSome]
    exact ⟨g, hg, decide_eq_true hgname⟩
  rw [Availability.ownedDay_eq_none_iff]
  intro day b hb
  by_contra howned
  rw [Bool.not_eq_false, Booking.isOf, Bool.and_eq_true, decide_eq_true_eq, decide_eq_true_eq] at howned
  have hdrawn : ∀ u ∈ drawn Γ s e, u ∉ used := by
    rw [drawn, hgranted]
    exact fun u hu => absurd hu List.not_mem_nil
  have hstored : (f.name, b) ∈ stored (serverStep Γ s e).facilities :=
    mem_stored.2 ⟨f, getFacility_mem hf, rfl, Availability.mem_week.2 ⟨day, hb⟩⟩
  rcases (hids.mem_step_iff hdrawn).1 hstored with hgained | ⟨_, hkept⟩
  · rw [hgranted] at hgained
    exact absurd hgained List.not_mem_nil
  · rw [hgranted] at hkept
    exact hkept ⟨(getFacility_name hf).symm, Option.some.inj howned.1, howned.2⟩

/-- Where a request is settled, its datagram leaves the bookings as they are, however often it arrives. -/
theorem bookingsOf_run {Γ : Jvm} {e : Event} {m : RequestMessage} (hm : deserializeMessage Γ e.bytes = .ok m) (again : List Event)
    (hagain : ∀ d ∈ again, d.toDatagram = e.toDatagram) {s : ServerState} (hmode : s.checkHistory = false)
    (hsettled : (asked Γ m).Settled e.userInfo s.facilities) :
    bookingsOf (serverRun Γ s again).facilities = bookingsOf s.facilities := by
  induction again generalizing s with
  | nil => rfl
  | cons d again ih =>
    rw [List.forall_mem_cons] at hagain
    have hbytes : d.bytes = e.bytes := congrArg Datagram.bytes hagain.1
    have huser : d.userInfo = e.userInfo := congrArg Datagram.userInfo hagain.1
    have heffect := effect_atLeastOnce (e := d) hmode (hbytes ▸ hm)
    rw [← huser] at hsettled
    obtain ⟨hsame, hkept⟩ := hsettled.keeps (Γ := Γ)
    rw [← heffect, ← handleRequest_facilities, ← serverStep] at hsame hkept
    rw [huser] at hkept
    have hmode' : (serverStep Γ s d).checkHistory = false := (handleRequest_checkHistory Γ s d).trans hmode
    exact (ih hagain.2 hmode' hkept).trans hsame

/-- The first execution settles the request. -/
theorem settled_serverStep {Γ : Jvm} {used : List UUID} {s : ServerState} {e : Event} {m : RequestMessage}
    (hmode : s.checkHistory = false) (hm : deserializeMessage Γ e.bytes = .ok m)
    (hproper : ∀ booking, (asked Γ m).booking? = some booking → booking.timeSlot.span.Proper)
    (hids : m.getOperation = .DELETE → Distinct used s) :
    (asked Γ m).Settled e.userInfo (serverStep Γ s e).facilities := by
  have heffect := effect_atLeastOnce hmode hm
  have hasking := asking Γ m
  have hfacilities : (serverStep Γ s e).facilities =
      ((asked Γ m).ifGranted s.facilities).onFacilities Γ e s.facilities := by
    rw [serverStep, handleRequest_facilities, heffect]
  generalize asked Γ m = effect at *
  cases hasking with
  | nothing => trivial
  | book booking ho hparse =>
    rw [hfacilities]
    exact Effect.settled_of_booking hproper rfl
  | move booking ho htype hparse =>
    rw [hfacilities]
    exact Effect.settled_of_booking hproper rfl
  | remove facilityName bookingId ho hparse => exact settled_of_remove (hids ho) heffect
  | rate facilityName rating ho htype => trivial
  | register facilityName monitorInterval ho => trivial

/-- After any run of a server that does not check its history, a request whose slot, if it asks for one, ends after it starts: handled
again and again, at whatever times and with whatever UUIDs, it leaves the bookings of every facility as handling it once does. For a
`DELETE`, the UUIDs drawn before are different. -/
theorem retransmission_idempotent {Γ : Jvm} (run : List Event) (e : Event) (m : RequestMessage)
    (hm : deserializeMessage Γ e.bytes = .ok m)
    (hproper : ∀ booking, (asked Γ m).booking? = some booking → booking.timeSlot.span.Proper)
    (hdrawn : m.getOperation = .DELETE → (drawnAlong Γ (.init false) run).Nodup) (again : List Event)
    (hagain : ∀ d ∈ again, d.toDatagram = e.toDatagram) :
    bookingsOf (serverRun Γ (.init false) (run ++ e :: again)).facilities =
      bookingsOf (serverRun Γ (.init false) (run ++ [e])).facilities := by
  have hreachable : Reachable Γ false (serverRun Γ (.init false) run) := Machine.Reachable.start.run run
  have hmode := reachable_checkHistory hreachable
  have hsettled := settled_serverStep hmode hm hproper fun ho => (distinct_init false).run (hdrawn ho)
  have hmode' : (serverStep Γ (serverRun Γ (.init false) run) e).checkHistory = false :=
    (handleRequest_checkHistory Γ _ e).trans hmode
  rw [serverRun, Machine.run_append, serverRun, Machine.run_append]
  exact bookingsOf_run hm again hagain hmode' hsettled

/-- The owner's request to delete the booking from nine to ten. -/
def deleteNine : Event := .sent 5000 ⟨3, 1, some "00000000-0000-0000-0000-000000000000,Weekday1".toList⟩ ⟨0, 1⟩

theorem retransmission_idempotent_deleteNine :
    bookingsOf (serverRun openJdk (.init false) ([bookAtNine] ++ deleteNine :: [deleteNine])).facilities =
      bookingsOf (serverRun openJdk (.init false) ([bookAtNine] ++ [deleteNine])).facilities := by
  refine retransmission_idempotent [bookAtNine] deleteNine
    ⟨3, 1, some "00000000-0000-0000-0000-000000000000,Weekday1".toList⟩
    (deserializeMessage_frame _ _ fun t ht => by cases ht; decide) ?_ ?_ [deleteNine] ?_
  · intro booking hbooking
    cases hbooking
  · intro _
    rw [drawnAlong, drawnAlong, List.append_nil, drawn]
    split
    · exact List.nodup_singleton _
    · exact List.nodup_nil
  · intro d hd
    rw [List.mem_singleton] at hd
    rw [hd]

end FacilityBooking
