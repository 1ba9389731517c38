import FacilityBooking.Client.Menu
import FacilityBooking.Theorems.Answers
import FacilityBooking.Theorems.Copies
import FacilityBooking.Theorems.Delete
import FacilityBooking.Theorems.Ledger
import FacilityBooking.Theorems.Survival

/-!
# Deleting what is shown

Between the query that shows a booking and the request that deletes it, the server serves others. The dialog deletes the booking that it
has shown or, when that is gone or another's by then, nothing, and says which.
-/

namespace FacilityBooking

open Cpp Cpp.UserInterface

/-- The request of an operation is executed in a state, and answered. -/
structure Answered (Γ : Jvm) (s : ServerState) (e : Event) (call : Cpp.Call) (r : RequestMessage) : Prop where
  request : ∃ requestType requestID text, call.request = some (requestType, getBytes text) ∧
    deserializeMessage Γ e.bytes = .ok ⟨requestType, requestID, some text⟩ ∧ replayOf s ⟨requestType, requestID, some text⟩ e = none
  result : (handleRequest Γ s e).result = .ok r

section

variable {σ : Type} {ask : Cpp.Call → σ → Bytes × σ} {call : Cpp.Call} {goOn : Bytes → σ → Displayed σ} {response bookingID : Bytes} {c c' : σ}
  {typed : Typed} {change : Bytes → Bytes → σ → Displayed σ}

theorem isErrorResponse_shownError (message : Text) : isErrorResponse ((shownError message).map getBytes) = true := decide_eq_true rfl

theorem isErrorResponse_title {title : String} (h : title ≠ "Error") (rest : List Bytes) :
    isErrorResponse (literal title :: rest) = false :=
  decide_eq_false fun herror => h (literal_injective (Option.some.inj herror))

/-- A dialog goes on with what is entered. -/
theorem enter_of_returns {α β : Type} {round : α → Prompted β} {inputs : List α} {value : β}
    (h : prompt round inputs = some (.returns value)) (goOn : β → σ → Displayed σ) (c : σ) : enter round inputs goOn c = goOn value c := by
  rw [enter, h]

/-- An error ends a dialog. -/
theorem askAndShow_error (h : ask call c = (response, c')) (herror : isErrorResponse (call.parse response) = true) :
    askAndShow ask call goOn c = ([call.parse response], some c') := by
  rw [askAndShow, h]
  dsimp only
  rw [if_pos herror]

/-- After any other response the dialog goes on. -/
theorem askAndShow_shown (h : ask call c = (response, c')) (hshown : isErrorResponse (call.parse response) = false) :
    askAndShow ask call goOn c = (call.parse response :: (goOn response c').1, (goOn response c').2) := by
  rw [askAndShow, h]
  dsimp only
  rw [hshown]
  rfl

/-- The last response is shown in any case. -/
theorem askLast_shows (h : ask call c = (response, c')) : askLast ask call c = ([call.parse response], some c') := by
  cases hshown : isErrorResponse (call.parse response) with
  | true => exact askAndShow_error h hshown
  | false => exact askAndShow_shown h hshown

/-- A booking that is shown, and that the user confirms to change. -/
theorem handleBooking_confirmed (hid : prompt promptBookingID typed.bookingID = some (.returns bookingID))
    (h : ask (.queryBooking bookingID) c = (response, c'))
    (hshown : isErrorResponse ((Cpp.Call.queryBooking bookingID).parse response) = false)
    (hconfirmed : prompt promptConfirmation typed.confirmation = some (.returns true)) :
    handleBooking ask typed change c =
      ((Cpp.Call.queryBooking bookingID).parse response :: (change bookingID response c').1, (change bookingID response c').2) := by
  rw [handleBooking, enter_of_returns hid, askAndShow_shown h hshown, enter_of_returns hconfirmed]
  rfl

/-- One that the user does not. -/
theorem handleBooking_declined (hid : prompt promptBookingID typed.bookingID = some (.returns bookingID))
    (h : ask (.queryBooking bookingID) c = (response, c'))
    (hshown : isErrorResponse ((Cpp.Call.queryBooking bookingID).parse response) = false)
    (hdeclined : prompt promptConfirmation typed.confirmation = some (.returns false)) :
    handleBooking ask typed change c = ([(Cpp.Call.queryBooking bookingID).parse response], some c') := by
  rw [handleBooking, enter_of_returns hid, askAndShow_shown h hshown, enter_of_returns hdeclined]
  rfl

/-- One that is not shown. -/
theorem handleBooking_error (hid : prompt promptBookingID typed.bookingID = some (.returns bookingID))
    (h : ask (.queryBooking bookingID) c = (response, c'))
    (herror : isErrorResponse ((Cpp.Call.queryBooking bookingID).parse response) = true) :
    handleBooking ask typed change c = ([(Cpp.Call.queryBooking bookingID).parse response], some c') := by
  rw [handleBooking, enter_of_returns hid, askAndShow_error h herror]

end

section

variable {Γ : Jvm} {checkHistory : Bool} {s : ServerState} {e : Event} {u : UUID} {r : RequestMessage}

/-- A query of a booking is answered by the booking that is found. -/
theorem Answered.query (h : Answered Γ s e (.queryBooking (getBytes u.toText)) r) :
    (∀ f b, findBooking s.facilities u.toText = some (f, b) → r.data = success (bookingText f b)) ∧
      (findBooking s.facilities u.toText = none → r.data = error "Booking not found".toList) := by
  obtain ⟨requestType, requestID, text, hrequest, hm, hnew⟩ := h.request
  have hop := getOperation_of_request hrequest requestID (some text)
  obtain ⟨_, hdata⟩ := Prod.mk.inj (Option.some.inj hrequest)
  have htext : text = "booking".toList ++ ',' :: u.toText := by
    refine getBytes_injective ?_
    rw [← hdata, getBytes_append, getBytes_cons]
    rfl
  have hread := readsAs_findBooking u e _ hm hop (congrArg some htext) hnew
  rw [h.result] at hread
  obtain rfl := Except.ok.inj hread
  constructor
  · intro f b hb
    simp only [hb]
  · intro hb
    simp only [hb]

/-- A query of a booking that is found is shown as it, and what the client takes out of the response is what is shown. -/
theorem Answered.found (h : Answered Γ s e (.queryBooking (getBytes u.toText)) r) (hs : Reachable Γ checkHistory s)
    (husers : Users (fun user => '\n' ∉ user ∧ Plain user) s) {f : Facility} {b : Booking}
    (hb : findBooking s.facilities u.toText = some (f, b)) :
    (Cpp.Call.queryBooking (getBytes u.toText)).parse r.bytes = (reportOf (f.name, b)).shown.map getBytes ∧
      r.bytes = getBytes ((reportOf (f.name, b)).readData.getD []) ∧ (reportOf (f.name, b)).Readable := by
  have hstored := (stored_of_findBooking hb).1
  have hbytes : r.bytes = getBytes ("status:SUCCESS\n".toList ++ bookingText f b) := by
    rw [RequestMessage.bytes, h.query.1 f b hb]
    rfl
  refine ⟨?_, hbytes, readable_of_found hs hb (husers _ hstored).2⟩
  rw [hbytes]
  exact parse_found hs (fun x hx => (husers x hx).1) hb

/-- A query of a booking that is not found is shown as an error. -/
theorem Answered.missing (h : Answered Γ s e (.queryBooking (getBytes u.toText)) r) (hb : findBooking s.facilities u.toText = none) :
    (Cpp.Call.queryBooking (getBytes u.toText)).parse r.bytes = (shownError "Booking not found".toList).map getBytes := by
  have hbytes : r.bytes = getBytes ("status:ERROR\nmessage:".toList ++ "Booking not found".toList) := by
    rw [RequestMessage.bytes, h.query.2 hb]
    rfl
  rw [hbytes, parse_error (fun _ => Cpp.Call.noConfusion)]

/-- What a request to delete a booking asks for. -/
theorem Answered.delete {facilityName : Text} (hname : ',' ∉ facilityName ∧ facilityName ≠ []) {bookingDetails : Bytes}
    (hextract : Client.extractFacilityName bookingDetails = getBytes facilityName)
    (h : Answered Γ s e (.deleteBooking (getBytes u.toText) bookingDetails) r) :
    effect Γ s e = if (getFacility s.facilities facilityName).isSome then .remove facilityName u.toText else .nothing := by
  obtain ⟨requestType, requestID, text, hrequest, hm, hnew⟩ := h.request
  have hop := getOperation_of_request hrequest requestID (some text)
  obtain ⟨_, hdata⟩ := Prod.mk.inj (Option.some.inj hrequest)
  have htext : text = u.toText ++ ',' :: facilityName := by
    refine getBytes_injective ?_
    rw [← hdata, Client.deleteBooking, hextract, getBytes_append, getBytes_cons, List.append_assoc]
    rfl
  have hparse : parseDelete (some text) = .ok (u.toText, facilityName) := by
    rw [htext]
    rcases parseDelete_pair (comma_notMem_uuid u) hname.1 with ⟨_, hok⟩ | ⟨hempty, _⟩
    · exact hok
    · exact absurd hempty hname.2
  simp only [effect, hm, hnew, Option.isSome_none, Bool.false_eq_true, if_false]
  exact effectOf_delete hop hparse s.facilities

end

section

variable {Γ : Jvm} {checkHistory : Bool} {s : ServerState} {e : Event} {call : Cpp.Call} {r : RequestMessage}

/-- The response to a change is shown as what it did. -/
theorem Answered.shows (h : Answered Γ s e call r) (hs : Reachable Γ checkHistory s) (he : e.HostOnLine)
    (hformat : ∀ d, '\n' ∉ Γ.format1f d) (hcall : call.Changes) : Shows Γ s e call (call.parse r.bytes) := by
  obtain ⟨requestType, requestID, text, hrequest, hm, hnew⟩ := h.request
  exact shows_of_change hs he hformat hcall hrequest hm hnew h.result

/-- A request that had an effect is shown as that. -/
theorem Answered.parse_of_effect (h : Answered Γ s e call r) (hs : Reachable Γ checkHistory s) (he : e.HostOnLine)
    (hformat : ∀ d, '\n' ∉ Γ.format1f d) (hcall : call.Changes) (heffect : effect Γ s e ≠ .nothing) :
    call.parse r.bytes = ((effect Γ s e).shown Γ e s.facilities).map getBytes := by
  have hshows := h.shows hs he hformat hcall
  generalize call.parse r.bytes = screen at hshows ⊢
  cases hshows with
  | done => rfl
  | refused _ _ hnothing => exact absurd hnothing heffect
  | names => exact hcall.elim
  | availability => exact hcall.elim
  | booking => exact hcall.elim
  | rating => exact hcall.elim
  | noBooking => exact hcall.elim
  | noFacility _ name _ hquery =>
    rcases hquery with rfl | ⟨days, rfl⟩
    · exact hcall.elim
    · exact hcall.elim

/-- The facility of a booking stays there, and its name can be sent. -/
theorem facility_of_found (hs : Reachable Γ checkHistory s) {s' : ServerState} (hs' : Reachable Γ checkHistory s') {id : Text}
    {f : Facility} {b : Booking} (hb : findBooking s.facilities id = some (f, b)) :
    (getFacility s'.facilities f.name).isSome ∧ ',' ∉ f.name ∧ f.name ≠ [] := by
  obtain ⟨g, hg, hgname, _⟩ := mem_stored.1 (stored_of_findBooking hb).1
  have hname : f.name ∈ s.facilities.map Facility.name := List.mem_map.2 ⟨g, hg, hgname⟩
  have hmem := hname
  rw [reachable_names hs, ← reachable_names hs'] at hmem
  obtain ⟨g', hg', hgname'⟩ := List.mem_map.1 hmem
  refine ⟨List.find?_isSome.2 ⟨g', hg', decide_eq_true hgname'⟩, ?_⟩
  rw [reachable_names hs] at hname
  simp only [List.mem_cons, List.not_mem_nil, or_false] at hname
  rcases hname with hname | hname | hname <;> rw [hname] <;> decide

/-- Where no UUID is drawn twice, an ID that a booking has stays that booking's. -/
theorem eq_of_id_run {es later : List Event} (hdrawn : (drawnAlong Γ (.init checkHistory) (es ++ later)).Nodup) {u : UUID}
    {x : Text × Booking} (hx : x ∈ stored (serverRun Γ (.init checkHistory) es).facilities) (hid : x.2.confirmationID = u.toText) :
    ∀ y ∈ stored (serverRun Γ (.init checkHistory) (es ++ later)).facilities, y.2.confirmationID = u.toText → y = x := by
  rw [drawnAlong_append] at hdrawn
  have hdistinct := @Distinct.run Γ [] _ (distinct_init checkHistory) es (List.Nodup.of_append_left hdrawn)
  rw [List.nil_append] at hdistinct
  obtain ⟨u', hu', hid'⟩ := hdistinct.drawn x.2.confirmationID (List.mem_map.2 ⟨x, hx, rfl⟩)
  obtain rfl := UUID.toText_injective (hid.symm.trans hid')
  have honly : ∀ y ∈ stored (serverRun Γ (.init checkHistory) es).facilities, y.2.confirmationID = u.toText → y = x := by
    intro y hy hyid
    exact List.inj_on_of_nodup_map hdistinct.nodup hy hx (hyid.trans hid.symm)
  have hrun : serverRun Γ (.init checkHistory) (es ++ later) = serverRun Γ (serverRun Γ (.init checkHistory) es) later :=
    Machine.run_append _ _ _
  rw [hrun]
  exact only_run hdistinct hu' honly hdrawn

end

section

variable {σ : Type} {ask : Cpp.Call → σ → Bytes × σ} {Γ : Jvm} {checkHistory : Bool} {s s' : ServerState} {read delete : Event} {u : UUID}
  {f : Facility} {b : Booking} {r r' : RequestMessage} {c c' c'' : σ} {typed : Typed} {change : Bytes → Bytes → σ → Displayed σ}

/-- The booking that is shown is deleted as one of the facility that is shown. -/
theorem Answered.delete_of_found (hread : Answered Γ s read (.queryBooking (getBytes u.toText)) r) (hs : Reachable Γ checkHistory s)
    (husers : Users (fun user => '\n' ∉ user ∧ Plain user) s) (hb : findBooking s.facilities u.toText = some (f, b))
    (hs' : Reachable Γ checkHistory s') (hdelete : Answered Γ s' delete (.deleteBooking (getBytes u.toText) r.bytes) r') :
    effect Γ s' delete = .remove f.name u.toText := by
  obtain ⟨_, hbytes, hreadable⟩ := hread.found hs husers hb
  have hextract : Client.extractFacilityName r.bytes = getBytes f.name := by
    rw [hbytes, getBytes_readData]
    exact hreadable.extract.1
  obtain ⟨hthere, hname⟩ := facility_of_found hs hs' hb
  rw [hdelete.delete hname hextract, if_pos hthere]

/-- A booking that is found is no error. -/
theorem Answered.found_shown (hread : Answered Γ s read (.queryBooking (getBytes u.toText)) r) (hs : Reachable Γ checkHistory s)
    (husers : Users (fun user => '\n' ∉ user ∧ Plain user) s) (hb : findBooking s.facilities u.toText = some (f, b)) :
    isErrorResponse ((Cpp.Call.queryBooking (getBytes u.toText)).parse r.bytes) = false := by
  obtain ⟨hparse, _⟩ := hread.found hs husers hb
  rw [hparse]
  exact isErrorResponse_title (by decide) _

/-- A dialog for changing a booking, when none is found: it says so, and asks nothing else. -/
theorem handleBooking_missing (hid : prompt promptBookingID typed.bookingID = some (.returns (getBytes u.toText)))
    (hread : Answered Γ s read (.queryBooking (getBytes u.toText)) r) (hb : findBooking s.facilities u.toText = none)
    (hshown : ask (.queryBooking (getBytes u.toText)) c = (r.bytes, c')) :
    handleBooking ask typed change c = ([(shownError "Booking not found".toList).map getBytes], some c') := by
  have hparse := hread.missing hb
  rw [handleBooking_error hid hshown, hparse]
  rw [hparse]
  exact isErrorResponse_shownError _

/-- The dialog for deleting one, when it is found and that confirmed: it is shown, and then what the second request has removed. -/
theorem deleteDialog_found (hid : prompt promptBookingID typed.bookingID = some (.returns (getBytes u.toText)))
    (hconfirmed : prompt promptConfirmation typed.confirmation = some (.returns true))
    (hread : Answered Γ s read (.queryBooking (getBytes u.toText)) r) (hs : Reachable Γ checkHistory s)
    (husers : Users (fun user => '\n' ∉ user ∧ Plain user) s) (hb : findBooking s.facilities u.toText = some (f, b))
    (hshown : ask (.queryBooking (getBytes u.toText)) c = (r.bytes, c')) (hs' : Reachable Γ checkHistory s') (hline : delete.HostOnLine)
    (hformat : ∀ d, '\n' ∉ Γ.format1f d) (hdelete : Answered Γ s' delete (.deleteBooking (getBytes u.toText) r.bytes) r')
    (hshown' : ask (.deleteBooking (getBytes u.toText) r.bytes) c' = (r'.bytes, c'')) :
    handleDeleteBooking ask typed c =
      ([(reportOf (f.name, b)).shown.map getBytes,
        ((Effect.remove f.name u.toText).shown Γ delete s'.facilities).map getBytes], some c'') := by
  obtain ⟨hparse, _⟩ := hread.found hs husers hb
  have heffect := hread.delete_of_found hs husers hb hs' hdelete
  have hdeleted := hdelete.parse_of_effect hs' hline hformat trivial (heffect ▸ Effect.noConfusion)
  rw [heffect] at hdeleted
  rw [handleDeleteBooking, handleBooking_confirmed hid hshown (hread.found_shown hs husers hb) hconfirmed, askLast_shows hshown', hparse,
    hdeleted]

/-- A request to delete the booking that had an ID at some time leaves all others, where no UUID is drawn twice. -/
theorem mem_after_delete {es later : List Event} (hdrawn : (drawnAlong Γ (.init checkHistory) (es ++ later)).Nodup)
    (hb : findBooking (serverRun Γ (.init checkHistory) es).facilities u.toText = some (f, b))
    (heffect : effect Γ (serverRun Γ (.init checkHistory) (es ++ later)) delete = .remove f.name u.toText) (x : Text × Booking) :
    x ∈ stored (serverStep Γ (serverRun Γ (.init checkHistory) (es ++ later)) delete).facilities ↔
      x ∈ stored (serverRun Γ (.init checkHistory) (es ++ later)).facilities ∧
        ¬(x.2.confirmationID = u.toText ∧ x.2.userInfo = delete.userInfo) := by
  obtain ⟨hstored, hid⟩ := stored_of_findBooking hb
  have hdistinct := @Distinct.run Γ [] _ (distinct_init checkHistory) (es ++ later) hdrawn
  have honly := eq_of_id_run hdrawn hstored hid
  generalize serverRun Γ (.init checkHistory) (es ++ later) = s at *
  have hnone : drawn Γ s delete = [] := by
    rw [drawn, heffect]
    rfl
  have hstep := hdistinct.mem_step_iff (Γ := Γ) (e := delete) (by rw [hnone]; exact List.forall_mem_nil _) (x := x)
  rw [heffect] at hstep
  rw [hstep]
  constructor
  · rintro (hgained | ⟨hx, hkept⟩)
    · cases hgained
    · refine ⟨hx, ?_⟩
      rintro ⟨hxid, huser⟩
      obtain rfl := honly x hx hxid
      exact hkept ⟨rfl, hxid, huser⟩
  · rintro ⟨hx, hnot⟩
    exact Or.inr ⟨hx, fun htaken => hnot htaken.2⟩

end

/-- The dialog for deleting a booking, whatever the server receives between its two requests, as long as it runs. When a booking is
found, it is shown; and once the user confirms, the request that follows leaves all bookings but that one, if it is the user's and still
there, and the dialog names what it has removed. When none is found, the dialog says so and asks nothing else. -/
theorem deleteDialog_deletes_shown {σ : Type} (ask : Cpp.Call → σ → Bytes × σ) (Γ : Jvm) (hformat : ∀ d, '\n' ∉ Γ.format1f d)
    (checkHistory : Bool) (before between : List Event) (read delete : Event) (u : UUID) (r : RequestMessage) (typed : Typed) (c c' : σ)
    (halive : (serve Γ (.init checkHistory) (before ++ read :: between)).alive = true)
    (hdrawn : (drawnAlong Γ (.init checkHistory) (before ++ read :: between)).Nodup)
    (hsenders : ∀ e ∈ before ++ read :: (between ++ [delete]), e.HostOnLine ∧ Plain e.userInfo)
    (hid : prompt promptBookingID typed.bookingID = some (.returns (getBytes u.toText)))
    (hread : Answered Γ (serve Γ (.init checkHistory) before).state read (.queryBooking (getBytes u.toText)) r)
    (hshown : ask (.queryBooking (getBytes u.toText)) c = (r.bytes, c')) :
    (∀ f b, findBooking (serve Γ (.init checkHistory) before).state.facilities u.toText = some (f, b) →
      (prompt promptConfirmation typed.confirmation = some (.returns false) →
        handleDeleteBooking ask typed c = ([(reportOf (f.name, b)).shown.map getBytes], some c')) ∧
      (prompt promptConfirmation typed.confirmation = some (.returns true) →
        ∀ s, s = (serve Γ (.init checkHistory) (before ++ read :: between)).state →
        ∀ r' c'', Answered Γ s delete (.deleteBooking (getBytes u.toText) r.bytes) r' →
          ask (.deleteBooking (getBytes u.toText) r.bytes) c' = (r'.bytes, c'') →
          handleDeleteBooking ask typed c =
            ([(reportOf (f.name, b)).shown.map getBytes,
              ((Effect.remove f.name u.toText).shown Γ delete s.facilities).map getBytes], some c'') ∧
          ∀ x, x ∈ stored (handleRequest Γ s delete).state.facilities ↔
            x ∈ stored s.facilities ∧ ¬(x.2.confirmationID = u.toText ∧ x.2.userInfo = delete.userInfo))) ∧
    (findBooking (serve Γ (.init checkHistory) before).state.facilities u.toText = none →
      handleDeleteBooking ask typed c = ([(shownError "Booking not found".toList).map getBytes], some c')) := by
  rw [serve_state (alive_of_append halive)] at hread ⊢
  rw [serve_state halive]
  have hs : Reachable Γ checkHistory (serverRun Γ (.init checkHistory) before) := Machine.Reachable.start.run before
  have husers : Users (fun user => '\n' ∉ user ∧ Plain user) (serverRun Γ (.init checkHistory) before) := by
    refine users_run Γ checkHistory fun e he => ?_
    have hsender := hsenders e (List.mem_append_left _ he)
    exact ⟨hsender.1.userInfo, hsender.2⟩
  refine ⟨fun f b hb => ⟨fun hdeclined => ?_, ?_⟩, fun hb => handleBooking_missing hid hread hb hshown⟩
  · rw [handleDeleteBooking, handleBooking_declined hid hshown (hread.found_shown hs husers hb) hdeclined, (hread.found hs husers hb).1]
  · rintro hconfirmed s rfl r' c'' hdelete hshown'
    have hs' : Reachable Γ checkHistory (serverRun Γ (.init checkHistory) (before ++ read :: between)) := Machine.Reachable.start.run _
    have hline := (hsenders delete (by simp)).1
    exact ⟨deleteDialog_found hid hconfirmed hread hs husers hb hshown hs' hline hformat hdelete hshown',
      mem_after_delete hdrawn hb (hread.delete_of_found hs husers hb hs' hdelete)⟩

/-- A message sent is an operation's request. -/
theorem answered_sent {Γ : Jvm} {s : ServerState} {call : Cpp.Call} {r : RequestMessage} {requestType requestID : BitVec 32} {text : Text}
    {uuid : UUID} (hmode : s.checkHistory = false) (hrequest : call.request = some (requestType, getBytes text))
    (hlength : (getBytes text).length < 2 ^ 31)
    (hresult : (handleRequest Γ s (.sent 5000 ⟨requestType, requestID, some text⟩ uuid)).result = .ok r) :
    Answered Γ s (.sent 5000 ⟨requestType, requestID, some text⟩ uuid) call r := by
  refine ⟨⟨requestType, requestID, text, hrequest, ?_, replayOf_atLeastOnce hmode _ _⟩, hresult⟩
  exact deserializeMessage_frame _ _ fun t ht => by cases ht; exact hlength

/-- One that is no query is answered. -/
theorem exists_answered_sent {Γ : Jvm} {s : ServerState} {call : Cpp.Call} {requestType requestID : BitVec 32} {text : Text} {uuid : UUID}
    (hmode : s.checkHistory = false) (hrequest : call.request = some (requestType, getBytes text))
    (hlength : (getBytes text).length < 2 ^ 31) (hread : call.operation ≠ .READ) :
    ∃ r, Answered Γ s (.sent 5000 ⟨requestType, requestID, some text⟩ uuid) call r := by
  have hm : deserializeMessage Γ (Event.sent 5000 ⟨requestType, requestID, some text⟩ uuid).bytes =
      .ok ⟨requestType, requestID, some text⟩ := deserializeMessage_frame _ _ fun t ht => by cases ht; exact hlength
  obtain ⟨r, hresult⟩ := (handleRequest_returns_iff Γ s (.sent 5000 ⟨requestType, requestID, some text⟩ uuid)).2 (by
    rintro ⟨m, hm', ho, _⟩
    rw [hm] at hm'
    rw [← Except.ok.inj hm'] at ho
    exact hread ((getOperation_of_request hrequest requestID (some text)).symm.trans ho))
  exact ⟨r, answered_sent hmode hrequest hlength hresult⟩

theorem sender_sent (m : RequestMessage) (uuid : UUID) : (Event.sent 5000 m uuid).HostOnLine ∧ Plain (Event.sent 5000 m uuid).userInfo := by
  refine ⟨?_, plain_sent m uuid⟩
  change '\n' ∉ "127.0.0.1".toList
  decide

theorem serverRun_bookAtFour : (serverRun openJdk (.init false) [bookAtFour]).facilities = bookedAtFour := by
  have hrun : serverRun openJdk (.init false) [bookAtFour] = serverStep openJdk (.init false) bookAtFour := rfl
  rw [hrun]
  exact serverStep_frame (m := ⟨1, 0, some "Weekday1,MONDAY,16,0,17,0".toList⟩) rfl (fun t ht => by cases ht; decide) rfl

/-- The booking at four is read. -/
theorem answered_readAtFour : ∃ f b r,
    findBooking (serverRun openJdk (.init false) [bookAtFour]).facilities bookAtFour.uuid.toText = some (f, b) ∧
    b.timeSlot = ⟨16, 0, 17, 0, .MONDAY⟩ ∧ reportOf (f.name, b) = reportAtFour ∧ r.bytes = Cpp.unlines reportAtFour.lines ∧
    Answered openJdk (serverRun openJdk (.init false) [bookAtFour]) readAtFour (.queryBooking (getBytes bookAtFour.uuid.toText)) r := by
  have hmode : (serverRun openJdk (.init false) [bookAtFour]).checkHistory = false :=
    reachable_checkHistory (Machine.Reachable.start.run [bookAtFour])
  obtain ⟨f, b, hb, hslot, _, hreport⟩ := found_atFour
  rw [← serverRun_bookAtFour] at hb
  have hquery : (Cpp.Call.queryBooking (getBytes bookAtFour.uuid.toText)).request =
      some (0, getBytes "booking,00000000-0000-4000-8000-000000000000".toList) := rfl
  have hm : deserializeMessage openJdk readAtFour.bytes = .ok ⟨0, 1, some "booking,00000000-0000-4000-8000-000000000000".toList⟩ :=
    deserializeMessage_frame _ _ fun t ht => by cases ht; decide
  have hresult := readsAs_findBooking bookAtFour.uuid readAtFour _ hm rfl rfl (replayOf_atLeastOnce hmode _ _)
  rw [hb] at hresult
  refine ⟨f, b, ⟨0, 1, success (bookingText f b)⟩, hb, hslot, hreport, ?_, answered_sent hmode hquery (by decide) hresult⟩
  rw [← hreport, ← getBytes_readData]
  rfl

/-- The booking at four is made and shown, and before anything is asked of it another client books at eleven. -/
def shownAtFour : List Sending :=
  [⟨5000, ⟨1, 0, some "Weekday1,MONDAY,16,0,17,0".toList⟩, ⟨0x4000, 0x8000000000000000⟩⟩,
    ⟨5000, ⟨0, 1, some "booking,00000000-0000-4000-8000-000000000000".toList⟩, ⟨0, 1⟩⟩,
    ⟨5001, ⟨1, 0, some "Weekday1,MONDAY,11,0,12,0".toList⟩, ⟨0, 4⟩⟩]

def atFour : BookingDetails := ⟨none, "Weekday1".toList, .MONDAY, 16, 0, 17, 0⟩

theorem shownAtFour_fits : ∀ x ∈ shownAtFour, x.Fits := by decide +kernel

theorem shownAtFour_alive : (serve openJdk (.init false) [bookAtFour, readAtFour, bookAtEleven]).alive = true := by
  refine alive_of_sendings shownAtFour_fits ?_ _
  have hasked : ¬ReadThrows (some "booking,00000000-0000-4000-8000-000000000000".toList) := by
    have hsplit : split "booking,00000000-0000-4000-8000-000000000000".toList =
        ["booking".toList, "00000000-0000-4000-8000-000000000000".toList] := by decide
    rw [readThrows_of_split hsplit]
    exact fun h => absurd h.1 (by decide)
  simp only [shownAtFour, List.forall_mem_cons]
  exact ⟨fun h => Operation.noConfusion h, fun _ => hasked, fun h => Operation.noConfusion h, List.forall_mem_nil _⟩

theorem shownAtFour_facilities : (serverRun openJdk (.init false) [bookAtFour, readAtFour, bookAtEleven]).facilities =
    Sending.facilities openJdk (ServerState.init false).facilities shownAtFour := serverRun_sendings shownAtFour_fits rfl

theorem shownAtFour_stored : stored (serverRun openJdk (.init false) [bookAtFour, readAtFour, bookAtEleven]).facilities =
    [bookAtFour.booked atFour, bookAtEleven.booked atEleven] := by
  rw [shownAtFour_facilities]
  decide +kernel

theorem shownAtFour_senders {e : Event} (he : e.HostOnLine ∧ Plain e.userInfo) :
    ∀ d ∈ [bookAtFour, readAtFour, bookAtEleven, e], d.HostOnLine ∧ Plain d.userInfo := by
  have hother : bookAtEleven.HostOnLine ∧ Plain bookAtEleven.userInfo := by
    refine ⟨(sender_sent ⟨1, 0, none⟩ ⟨0, 0⟩).1, ?_⟩
    have htext : bookAtEleven.userInfo = "/127.0.0.1:5001".toList := by decide +kernel
    rw [htext]
    exact plain_userAt5001
  simp only [List.forall_mem_cons]
  exact ⟨sender_sent _ _, sender_sent _ _, hother, he, List.forall_mem_nil _⟩

/-- The booking at four is shown and deleted. -/
def deleteAtFour : Event := .sent 5000 ⟨3, 3, some "00000000-0000-4000-8000-000000000000,Weekday1".toList⟩ ⟨0, 3⟩

/-- A user who types the ID of the booking, confirms the second time that she is asked, and shifts it by an hour. -/
def typesAtFour : Typed where
  choice := []
  facilityName := []
  daysOfWeek := []
  dayOfWeek := []
  startTime := []
  endTime := []
  bookingID := [literal "Weekday1", literal "00000000-0000-4000-8000-000000000000"]
  confirmation := [literal "ok", literal "Yes"]
  offsetMinutes := [none, some 0, some (-60)]
  durationSeconds := []
  rating := []
  messageData := []

theorem typesAtFour_id : prompt promptBookingID typesAtFour.bookingID = some (.returns (getBytes bookAtFour.uuid.toText)) := by
  decide +kernel

theorem typesAtFour_confirms : prompt promptConfirmation typesAtFour.confirmation = some (.returns true) := by decide +kernel

theorem deleteDialog_deletes_shown_four : ∃ (ask : Cpp.Call → Unit → Bytes × Unit) (s : ServerState),
    s = (serve openJdk (.init false) [bookAtFour, readAtFour, bookAtEleven]).state ∧
    handleDeleteBooking ask typesAtFour () =
      ([reportAtFour.shown.map getBytes,
        ((Effect.remove "Weekday1".toList bookAtFour.uuid.toText).shown openJdk deleteAtFour s.facilities).map getBytes], some ()) ∧
    ∀ x, x ∈ stored (handleRequest openJdk s deleteAtFour).state.facilities ↔ x = bookAtEleven.booked atEleven := by
  obtain ⟨f, b, r, hb, _, hreport, hbytes, hread⟩ := answered_readAtFour
  have hname : f.name = "Weekday1".toList := congrArg Report.facility hreport
  have hstate := serve_state shownAtFour_alive
  have hmode : (serverRun openJdk (.init false) [bookAtFour, readAtFour, bookAtEleven]).checkHistory = false :=
    reachable_checkHistory (Machine.Reachable.start.run _)
  have hdata : (Cpp.Call.deleteBooking (getBytes bookAtFour.uuid.toText) r.bytes).request =
      some (3, getBytes "00000000-0000-4000-8000-000000000000,Weekday1".toList) := by
    rw [hbytes]
    decide +kernel
  obtain ⟨r', hdelete⟩ := @exists_answered_sent openJdk _ _ _ 3 _ ⟨0, 3⟩ hmode hdata (by decide) Operation.noConfusion
  have hdrawn : (drawnAlong openJdk (.init false) [bookAtFour, readAtFour, bookAtEleven]).Nodup := by
    refine List.Nodup.sublist (drawnAlong_sublist openJdk (.init false) _) ?_
    decide
  generalize hask : (fun (call : Cpp.Call) (_ : Unit) => match call with
    | .queryBooking _ => (r.bytes, ())
    | _ => (r'.bytes, ())) = ask
  rw [← serve_state (@alive_of_append openJdk _ [bookAtFour] _ shownAtFour_alive)] at hb hread
  rw [← hstate] at hdelete
  obtain ⟨hscreens, hafter⟩ := (deleteDialog_deletes_shown ask openJdk (fun _ => List.not_mem_nil) false [bookAtFour] [bookAtEleven]
    readAtFour deleteAtFour bookAtFour.uuid r typesAtFour () () shownAtFour_alive hdrawn (shownAtFour_senders (sender_sent _ _))
    typesAtFour_id hread (hask ▸ rfl)).1 f b hb |>.2 typesAtFour_confirms _ rfl r' () hdelete (hask ▸ rfl)
  rw [List.singleton_append] at hscreens hafter
  rw [hreport, hname] at hscreens
  refine ⟨ask, _, rfl, hscreens, fun x => ?_⟩
  rw [hafter, hstate, shownAtFour_stored, List.mem_cons, List.mem_singleton]
  have hfour : (bookAtFour.booked atFour).2.confirmationID = bookAtFour.uuid.toText ∧
      (bookAtFour.booked atFour).2.userInfo = deleteAtFour.userInfo := ⟨rfl, userInfo_sent 5000 _ _ _ _⟩
  have hids : bookAtEleven.uuid ≠ bookAtFour.uuid := by decide
  constructor
  · rintro ⟨rfl | rfl, hnot⟩
    · exact absurd hfour hnot
    · rfl
  · rintro rfl
    exact ⟨Or.inr rfl, fun h => hids (UUID.toText_injective h.1)⟩

end FacilityBooking
