import FacilityBooking.Theorems.Dialogs
import FacilityBooking.Theorems.Ledger

/-!
# Moving what is shown

The dialog for updating a booking asks for the slot that it has shown, with the offset added. By the time the server reads that, the slot
may be taken, and then nothing is changed; or the booking may be gone, and then a new one is made all the same.
-/

namespace FacilityBooking

open Cpp Cpp.UserInterface

/-- What the dialog asks for: the booking that was shown, with the offset added to its times. -/
def movedBooking (u : UUID) (f : Facility) (b : Booking) (offset : Int) : BookingDetails :=
  ⟨some u.toText, f.name, b.getDay, (b.timeSlot.shifted offset).startHour, (b.timeSlot.shifted offset).startMinute,
    (b.timeSlot.shifted offset).endHour, (b.timeSlot.shifted offset).endMinute⟩

/-- A datagram that asks to move a booking, and is no replay. -/
structure AsksToMove (Γ : Jvm) (s : ServerState) (e : Event) (m : RequestMessage) (booking : BookingDetails) : Prop where
  message : deserializeMessage Γ e.bytes = .ok m
  operation : m.getOperation = .UPDATE
  new : replayOf s m e = none
  type : parseUpdateType m.data = .ok "booking".toList
  details : parseUpdateBookingDetails Γ m.data = .ok booking

section

variable {Γ : Jvm} {s : ServerState} {e : Event} {m : RequestMessage} {booking : BookingDetails}

theorem AsksToMove.not_echo (h : AsksToMove Γ s e m booking) : m.getOperation ≠ .ECHO := by
  rw [h.operation]
  exact Operation.noConfusion

theorem AsksToMove.effect_eq (h : AsksToMove Γ s e m booking) :
    effect Γ s e = if grants s.facilities booking then .move booking else .nothing := by
  have hasked : asked Γ m = .move booking := by
    simp only [asked, h.operation, askedUpdate, h.type, if_true, h.details]
  simp only [effect, h.message, h.new, Option.isSome_none, Bool.false_eq_true, if_false, effectOf, hasked, Effect.ifGranted,
    Effect.granted]

/-- A slot that is not free is refused. -/
theorem AsksToMove.result_of_taken (h : AsksToMove Γ s e m booking) (hthere : (getFacility s.facilities booking.facilityName).isSome)
    (htaken : grants s.facilities booking = false) : (handleRequest Γ s e).result =
      .ok ⟨Operation.WRITE.getOpCode, m.requestID, error "Facility not available at the requested time".toList⟩ := by
  obtain ⟨f, hf⟩ := Option.isSome_iff_exists.1 hthere
  have hbusy : f.availability.isAvailable booking.timeSlot = false := by
    rw [grants, hf] at htaken
    exact htaken
  have hreset : getFacility s.reset.facilities booking.facilityName = some f := hf
  have hupdate : update Γ s.reset m e = updateBooking Γ s.reset m e := by
    rw [update, h.type]
    exact if_pos rfl
  have hrefused : (updateBooking Γ s.reset m e).2 =
      .ok ⟨Operation.WRITE.getOpCode, m.requestID, error "Facility not available at the requested time".toList⟩ := by
    rw [updateBooking, h.details]
    dsimp only
    rw [hreset]
    dsimp only
    rw [if_neg (Bool.eq_false_iff.1 hbusy)]
  rw [handleRequest_of_new h.message h.not_echo h.new, execute_result, dispatch, h.operation]
  dsimp only
  rw [hupdate]
  generalize updateBooking Γ s.reset m e = handled at hrefused ⊢
  obtain ⟨s', result⟩ := handled
  cases hrefused
  rfl

end

section

variable {Γ : Jvm} {s s₀ : ServerState} {e : Event} {checkHistory : Bool} {u : UUID} {f : Facility} {b : Booking} {offset : Int}
  {bookingDetails : Bytes} {r : RequestMessage}

/-- What a request to update a booking that was shown asks for. -/
theorem Answered.update (h : Answered Γ s e (.updateBooking (getBytes u.toText) offset bookingDetails) r)
    (hs : Reachable Γ checkHistory s₀) (hb : findBooking s₀.facilities u.toText = some (f, b)) (hwritten : b.timeSlot.IsWrittenWithTwo)
    (hdetails : bookingDetails = getBytes ((reportOf (f.name, b)).readData.getD [])) (hreadable : (reportOf (f.name, b)).Readable) :
    ∃ m, AsksToMove Γ s e m (movedBooking u f b offset) := by
  obtain ⟨requestType, requestID, text, hrequest, hm, hnew⟩ := h.request
  have hop := getOperation_of_request hrequest requestID (some text)
  obtain ⟨messageData, hdata, heq⟩ := Option.map_eq_some_iff.1 hrequest
  obtain ⟨_, rfl⟩ := Prod.mk.inj heq
  rw [hdetails] at hdata
  obtain ⟨hstart, hstop, hpieces⟩ := updateBooking_of_readable hreadable hwritten rfl rfl hdata
  have hname : ',' ∉ f.name := name_of_found hs hb ',' (by decide)
  obtain ⟨htype, hparse⟩ := @parse_update Γ u.toText (reportOf (f.name, b)) _ _ b.getDay (comma_notMem_uuid u) hname rfl hstart hstop
  rw [← getBytes_injective hpieces] at htype hparse
  exact ⟨_, hm, hop, hnew, htype, hparse⟩

/-- The booking that is shown is moved as it is shown. -/
theorem Answered.update_of_found {read : Event} {r' : RequestMessage} (hread : Answered Γ s₀ read (.queryBooking (getBytes u.toText)) r)
    (hs : Reachable Γ checkHistory s₀) (husers : Users (fun user => '\n' ∉ user ∧ Plain user) s₀)
    (hb : findBooking s₀.facilities u.toText = some (f, b)) (hwritten : b.timeSlot.IsWrittenWithTwo)
    (hupdate : Answered Γ s e (.updateBooking (getBytes u.toText) offset r.bytes) r') :
    ∃ m, AsksToMove Γ s e m (movedBooking u f b offset) := by
  obtain ⟨_, hbytes, hreadable⟩ := hread.found hs husers hb
  exact hupdate.update hs hb hwritten hbytes hreadable

end

section

variable {σ : Type} {ask : Cpp.Call → σ → Bytes × σ} {Γ : Jvm} {checkHistory : Bool} {s s' : ServerState} {read update : Event} {u : UUID}
  {f : Facility} {b : Booking} {booking : BookingDetails} {offset : Int} {r r' : RequestMessage} {c c' c'' : σ} {typed : Typed}

/-- The dialog, when a booking is found and its change confirmed: that is shown, and then what the client makes of the second response. -/
theorem updateDialog_found (hid : prompt promptBookingID typed.bookingID = some (.returns (getBytes u.toText)))
    (hconfirmed : prompt promptConfirmation typed.confirmation = some (.returns true))
    (hoffset : prompt promptOffset typed.offsetMinutes = some (.returns offset))
    (hread : Answered Γ s read (.queryBooking (getBytes u.toText)) r) (hs : Reachable Γ checkHistory s)
    (husers : Users (fun user => '\n' ∉ user ∧ Plain user) s) (hb : findBooking s.facilities u.toText = some (f, b))
    (hshown : ask (.queryBooking (getBytes u.toText)) c = (r.bytes, c'))
    (hshown' : ask (.updateBooking (getBytes u.toText) offset r.bytes) c' = (r'.bytes, c'')) :
    handleUpdateBooking ask typed c = ([(reportOf (f.name, b)).shown.map getBytes,
      (Cpp.Call.updateBooking (getBytes u.toText) offset r.bytes).parse r'.bytes], some c'') := by
  obtain ⟨hparse, _⟩ := hread.found hs husers hb
  rw [handleUpdateBooking, handleBooking_confirmed hid hshown (hread.found_shown hs husers hb) hconfirmed, enter_of_returns hoffset,
    askLast_shows hshown', hparse]

/-- A move that is granted is shown as the booking it makes. -/
theorem AsksToMove.parse_of_granted {m : RequestMessage} {call : Cpp.Call} (h : AsksToMove Γ s update m booking)
    (hupdate : Answered Γ s update call r') (hcall : call.Changes) (hs : Reachable Γ checkHistory s) (hline : update.HostOnLine)
    (hformat : ∀ d, '\n' ∉ Γ.format1f d) (hgrants : grants s.facilities booking = true) :
    call.parse r'.bytes = (update.report booking).shownNew.map getBytes := by
  have heffect := h.effect_eq
  rw [if_pos hgrants] at heffect
  have hmoved := hupdate.parse_of_effect hs hline hformat hcall (heffect ▸ Effect.noConfusion)
  rw [hmoved, heffect]
  rfl

/-- One that is not granted is shown as an error, and changes nothing. -/
theorem AsksToMove.refused {m : RequestMessage} {call : Cpp.Call} (h : AsksToMove Γ s update m booking)
    (hupdate : Answered Γ s update call r') (hecho : ∀ messageData, call ≠ .echoMessage messageData)
    (hthere : (getFacility s.facilities booking.facilityName).isSome) (hgrants : grants s.facilities booking = false) :
    call.parse r'.bytes = (shownError "Facility not available at the requested time".toList).map getBytes ∧
      (handleRequest Γ s update).state.facilities = s.facilities := by
  have heffect := h.effect_eq
  rw [if_neg (Bool.eq_false_iff.1 hgrants)] at heffect
  have hresult := h.result_of_taken hthere hgrants
  rw [hupdate.result] at hresult
  obtain rfl := Except.ok.inj hresult
  refine ⟨?_, ?_⟩
  · rw [← parse_error hecho]
    rfl
  · rw [handleRequest_facilities, heffect]
    rfl

/-- A request to move the booking that had an ID at some time, if it is granted, makes the booking that it asks for and leaves all
others but that one, where no UUID is drawn twice. -/
theorem mem_after_move {es later : List Event} {m : RequestMessage}
    (hdrawn : (drawnAlong Γ (.init checkHistory) ((es ++ later) ++ [update])).Nodup)
    (hb : findBooking (serverRun Γ (.init checkHistory) es).facilities u.toText = some (f, b))
    (hasks : AsksToMove Γ (serverRun Γ (.init checkHistory) (es ++ later)) update m (movedBooking u f b offset))
    (hgrants : grants (serverRun Γ (.init checkHistory) (es ++ later)).facilities (movedBooking u f b offset) = true)
    (x : Text × Booking) :
    x ∈ stored (serverStep Γ (serverRun Γ (.init checkHistory) (es ++ later)) update).facilities ↔
      x = update.booked (movedBooking u f b offset) ∨ x ∈ stored (serverRun Γ (.init checkHistory) (es ++ later)).facilities ∧
        ¬(x.2.confirmationID = u.toText ∧ x.2.userInfo = update.userInfo) := by
  obtain ⟨hstored, hid⟩ := stored_of_findBooking hb
  have hs : Reachable Γ checkHistory (serverRun Γ (.init checkHistory) (es ++ later)) := Machine.Reachable.start.run _
  rw [drawnAlong_append] at hdrawn
  have hdistinct := @Distinct.run Γ [] _ (distinct_init checkHistory) (es ++ later) hdrawn.of_append_left
  have honly := eq_of_id_run hdrawn.of_append_left hstored hid
  have heffect := hasks.effect_eq
  rw [if_pos hgrants] at heffect
  have hfresh : ∀ v ∈ drawn Γ (serverRun Γ (.init checkHistory) (es ++ later)) update,
      v ∉ drawnAlong Γ (.init checkHistory) (es ++ later) := by
    rw [drawnAlong, drawnAlong, List.append_nil] at hdrawn
    exact fun v hv hused => (List.nodup_append.1 hdrawn).2.2 v hused v hv rfl
  generalize serverRun Γ (.init checkHistory) (es ++ later) = s at *
  have hstep := hdistinct.mem_step_iff hfresh (x := x)
  rw [mem_gained_iff hs, heffect] at hstep
  rw [hstep]
  constructor
  · rintro (⟨booking, hmade, rfl⟩ | ⟨hx, hkept⟩)
    · exact Or.inl (Option.some.inj hmade ▸ rfl)
    · refine Or.inr ⟨hx, ?_⟩
      rintro ⟨hxid, huser⟩
      obtain rfl := honly x hx hxid
      exact hkept ⟨rfl, congrArg some hxid, huser⟩
  · rintro (rfl | ⟨hx, hnot⟩)
    · exact Or.inl ⟨_, rfl, rfl⟩
    · exact Or.inr ⟨hx, fun htaken => hnot ⟨Option.some.inj htaken.2.1, htaken.2.2⟩⟩

end

/-- The dialog for updating a booking, whatever the server receives between its two requests, as long as it runs. When a booking is
found, it is shown, and once the user confirms and enters an offset, the dialog asks for its slot with the offset added. If the facility
is free then, the user has a booking of that slot under a new ID, and all other bookings stay but the one that was shown, if it is the
user's and still there. If it is not, the dialog says so and nothing is changed. When no booking is found, the dialog says that and asks
nothing else. -/
theorem updateDialog_moves_shown {σ : Type} (ask : Cpp.Call → σ → Bytes × σ) (Γ : Jvm) (hformat : ∀ d, '\n' ∉ Γ.format1f d)
    (checkHistory : Bool) (before between : List Event) (read update : Event) (u : UUID) (offset : Int) (r : RequestMessage)
    (typed : Typed) (c c' : σ) (halive : (serve Γ (.init checkHistory) (before ++ read :: between)).alive = true)
    (hdrawn : (drawnAlong Γ (.init checkHistory) (before ++ read :: (between ++ [update]))).Nodup)
    (hsenders : ∀ e ∈ before ++ read :: (between ++ [update]), e.HostOnLine ∧ Plain e.userInfo)
    (hid : prompt promptBookingID typed.bookingID = some (.returns (getBytes u.toText)))
    (hread : Answered Γ (serve Γ (.init checkHistory) before).state read (.queryBooking (getBytes u.toText)) r)
    (hshown : ask (.queryBooking (getBytes u.toText)) c = (r.bytes, c')) :
    (∀ f b, findBooking (serve Γ (.init checkHistory) before).state.facilities u.toText = some (f, b) →
      (prompt promptConfirmation typed.confirmation = some (.returns false) →
        handleUpdateBooking ask typed c = ([(reportOf (f.name, b)).shown.map getBytes], some c')) ∧
      (prompt promptConfirmation typed.confirmation = some (.returns true) →
        prompt promptOffset typed.offsetMinutes = some (.returns offset) → b.timeSlot.IsWrittenWithTwo →
        ∀ s, s = (serve Γ (.init checkHistory) (before ++ read :: between)).state → ∀ booking, booking = movedBooking u f b offset →
        ∀ r' c'', Answered Γ s update (.updateBooking (getBytes u.toText) offset r.bytes) r' →
          ask (.updateBooking (getBytes u.toText) offset r.bytes) c' = (r'.bytes, c'') →
          (grants s.facilities booking = true →
            handleUpdateBooking ask typed c =
              ([(reportOf (f.name, b)).shown.map getBytes, (update.report booking).shownNew.map getBytes], some c'') ∧
            ∀ x, x ∈ stored (handleRequest Γ s update).state.facilities ↔ x = update.booked booking ∨
              x ∈ stored s.facilities ∧ ¬(x.2.confirmationID = u.toText ∧ x.2.userInfo = update.userInfo)) ∧
          (grants s.facilities booking = false →
            handleUpdateBooking ask typed c =
              ([(reportOf (f.name, b)).shown.map getBytes,
                (shownError "Facility not available at the requested time".toList).map getBytes], some c'') ∧
            (handleRequest Γ s update).state.facilities = s.facilities))) ∧
    (findBooking (serve Γ (.init checkHistory) before).state.facilities u.toText = none →
      handleUpdateBooking ask typed c = ([(shownError "Booking not found".toList).map getBytes], some c')) := by
  rw [serve_state (alive_of_append halive)] at hread ⊢
  rw [serve_state halive]
  have hs : Reachable Γ checkHistory (serverRun Γ (.init checkHistory) before) := Machine.Reachable.start.run before
  have husers : Users (fun user => '\n' ∉ user ∧ Plain user) (serverRun Γ (.init checkHistory) before) := by
    refine users_run Γ checkHistory fun e he => ?_
    have hsender := hsenders e (List.mem_append_left _ he)
    exact ⟨hsender.1.userInfo, hsender.2⟩
  refine ⟨fun f b hb => ⟨fun hdeclined => ?_, ?_⟩, fun hb => handleBooking_missing hid hread hb hshown⟩
  · rw [handleUpdateBooking, handleBooking_declined hid hshown (hread.found_shown hs husers hb) hdeclined, (hread.found hs husers hb).1]
  · rintro hconfirmed hoffset hwritten s rfl booking rfl r' c'' hupdate hshown'
    have hs' : Reachable Γ checkHistory (serverRun Γ (.init checkHistory) (before ++ read :: between)) := Machine.Reachable.start.run _
    have hdialog := updateDialog_found hid hconfirmed hoffset hread hs husers hb hshown hshown'
    obtain ⟨m, hasks⟩ := hread.update_of_found hs husers hb hwritten hupdate
    rw [hdialog]
    constructor
    · intro hgrants
      rw [hasks.parse_of_granted hupdate trivial hs' (hsenders update (by simp)).1 hformat hgrants]
      have hsplit : before ++ read :: (between ++ [update]) = (before ++ read :: between) ++ [update] := by simp
      rw [hsplit] at hdrawn
      exact ⟨rfl, mem_after_move hdrawn hb hasks hgrants⟩
    · intro hgrants
      obtain ⟨hparse, hkept⟩ := hasks.refused hupdate (fun _ => Cpp.Call.noConfusion) (facility_of_found hs hs' hb).1 hgrants
      exact ⟨by rw [hparse], hkept⟩

/-- The booking at four is shown and moved an hour earlier. -/
def moveAtFour : Event := .sent 5000 ⟨2, 2, some "booking,00000000-0000-4000-8000-000000000000,Weekday1,MONDAY,15,0,16,0".toList⟩ ⟨0, 3⟩

theorem updateDialog_moves_shown_four : ∃ (ask : Cpp.Call → Unit → Bytes × Unit) (s : ServerState) (booking : BookingDetails),
    s = (serve openJdk (.init false) [bookAtFour, readAtFour, bookAtEleven]).state ∧
    handleUpdateBooking ask typesAtFour () =
      ([reportAtFour.shown.map getBytes, (moveAtFour.report booking).shownNew.map getBytes], some ()) ∧
    ∀ x, x ∈ stored (handleRequest openJdk s moveAtFour).state.facilities ↔
      x = moveAtFour.booked booking ∨ x = bookAtEleven.booked atEleven := by
  obtain ⟨f, b, r, hb, hslot, hreport, hbytes, hread⟩ := answered_readAtFour
  have hname : f.name = "Weekday1".toList := congrArg Report.facility hreport
  have hstate := serve_state shownAtFour_alive
  have hmode : (serverRun openJdk (.init false) [bookAtFour, readAtFour, bookAtEleven]).checkHistory = false :=
    reachable_checkHistory (Machine.Reachable.start.run _)
  have hdata : (Cpp.Call.updateBooking (getBytes bookAtFour.uuid.toText) (-60) r.bytes).request =
      some (2, getBytes "booking,00000000-0000-4000-8000-000000000000,Weekday1,MONDAY,15,0,16,0".toList) := by
    rw [hbytes]
    decide +kernel
  obtain ⟨r', hupdate⟩ := @exists_answered_sent openJdk _ _ _ 2 _ ⟨0, 3⟩ hmode hdata (by decide) Operation.noConfusion
  have hdrawn : (drawnAlong openJdk (.init false) [bookAtFour, readAtFour, bookAtEleven, moveAtFour]).Nodup := by
    refine List.Nodup.sublist (drawnAlong_sublist openJdk (.init false) _) ?_
    decide
  have hsenders := @shownAtFour_senders moveAtFour (sender_sent _ _)
  have hwritten : b.timeSlot.IsWrittenWithTwo := by
    rw [hslot]
    exact List.forall_iff_forall_mem.1 (by decide)
  have hmoved : movedBooking bookAtFour.uuid f b (-60) = ⟨some bookAtFour.uuid.toText, "Weekday1".toList, .MONDAY, 15, 0, 16, 0⟩ := by
    rw [movedBooking, Booking.getDay, hslot, hname]
    rfl
  have hgrants : grants (serverRun openJdk (.init false) [bookAtFour, readAtFour, bookAtEleven]).facilities
      (movedBooking bookAtFour.uuid f b (-60)) = true := by
    rw [shownAtFour_facilities, hmoved]
    decide +kernel
  generalize hask : (fun (call : Cpp.Call) (_ : Unit) => match call with
    | .queryBooking _ => (r.bytes, ())
    | _ => (r'.bytes, ())) = ask
  rw [← serve_state (@alive_of_append openJdk _ [bookAtFour] _ shownAtFour_alive)] at hb hread
  rw [← hstate] at hupdate hgrants
  have hoffset : prompt promptOffset typesAtFour.offsetMinutes = some (.returns (-60)) := rfl
  have hmoves := ((updateDialog_moves_shown ask openJdk (fun _ => List.not_mem_nil) false [bookAtFour] [bookAtEleven]
    readAtFour moveAtFour bookAtFour.uuid (-60) r typesAtFour () () shownAtFour_alive hdrawn hsenders typesAtFour_id hread
    (hask ▸ rfl)).1 f b hb).2 typesAtFour_confirms hoffset hwritten _ rfl _ rfl r' () hupdate (hask ▸ rfl) |>.1
  rw [List.singleton_append] at hmoves
  obtain ⟨hscreens, hafter⟩ := hmoves hgrants
  rw [hreport] at hscreens
  refine ⟨ask, _, _, rfl, hscreens, fun x => ?_⟩
  rw [hafter, hstate, shownAtFour_stored, List.mem_cons, List.mem_singleton]
  have hfour : (bookAtFour.booked atFour).2.confirmationID = bookAtFour.uuid.toText ∧
      (bookAtFour.booked atFour).2.userInfo = moveAtFour.userInfo := ⟨rfl, userInfo_sent 5000 _ _ _ _⟩
  have hids : bookAtEleven.uuid ≠ bookAtFour.uuid := by decide
  refine or_congr_right ⟨?_, ?_⟩
  · rintro ⟨rfl | rfl, hnot⟩
    · exact absurd hfour hnot
    · rfl
  · rintro rfl
    exact ⟨Or.inr rfl, fun h => hids (UUID.toText_injective h.1)⟩

end FacilityBooking
