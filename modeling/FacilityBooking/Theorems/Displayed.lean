import FacilityBooking.Theorems.EndToEnd
import FacilityBooking.Theorems.Screens
import FacilityBooking.Theorems.Shift

/-!
# What is shown is what was done

When the server executes the request of a client's operation, the client's screen shows what that did to the state it was executed in, or
what it read there.
-/

namespace FacilityBooking

open Cpp Cpp.ResponseParser

/-! ## Values on one line -/

/-- The text of the sender's host is one line. -/
def Event.HostOnLine (e : Event) : Prop := '\n' ∉ e.address.hostAddress

/-- A text of numbers is one line. -/
theorem newline_notMem_numeric {t : Text} (h : ∀ c ∈ t, IsNumeric c) : '\n' ∉ t := by
  intro hmem
  have hnumeric := h '\n' hmem
  revert hnumeric
  decide

theorem newline_notMem_decimal (n : Int) : '\n' ∉ decimal n := newline_notMem_numeric fun _ => isNumeric_of_mem_decimal

theorem newline_notMem_uuid (u : UUID) : '\n' ∉ u.toText := by
  intro h
  have hchar := mem_uuid_toText h
  revert hchar
  decide

theorem newline_notMem_time (hour minute : Int) : '\n' ∉ format02d hour ++ format02d minute := by
  refine newline_notMem_numeric fun c hc => ?_
  rcases List.mem_append.1 hc with hc | hc
  · exact isNumeric_of_mem_format02d hc
  · exact isNumeric_of_mem_format02d hc

theorem Event.HostOnLine.userInfo {e : Event} (h : e.HostOnLine) : '\n' ∉ e.userInfo := by
  have hslash : '\n' ≠ '/' := by decide
  have hcolon : '\n' ≠ ':' := by decide
  rw [Datagram.userInfo, InetAddress.toText, List.mem_append, List.mem_cons, List.mem_cons, not_or, not_or, not_or]
  exact ⟨⟨hslash, h⟩, hcolon, newline_notMem_decimal _⟩

section

variable {Γ : Jvm} {checkHistory : Bool} {s : ServerState}

/-- The names of the facilities are those of `init`. -/
theorem newline_notMem_name (hs : Reachable Γ checkHistory s) {f : Facility} (hf : f ∈ s.facilities) : '\n' ∉ f.name := by
  intro hmem
  exact (reachable_name_chars hs hf '\n' hmem).2 (by decide)

/-- The IDs that are stored are texts of UUIDs. -/
theorem newline_notMem_id (hs : Reachable Γ checkHistory s) {id : Text} (hid : id ∈ ids s.facilities) : '\n' ∉ id := by
  obtain ⟨u, rfl⟩ := reachable_ids hs id hid
  exact newline_notMem_uuid u

/-- What the users of all bookings have, as their hosts have it. -/
def Users (P : Text → Prop) (s : ServerState) : Prop := ∀ x ∈ stored s.facilities, P x.2.userInfo

/-- A booking that is made is its sender's, and no other one gets a new owner. -/
theorem Users.step {P : Text → Prop} (hs : Reachable Γ checkHistory s) (h : Users P s) {e : Event} (he : P e.userInfo) :
    Users P (serverStep Γ s e) := by
  intro x hx
  rw [serverStep, handleRequest_facilities] at hx
  obtain ⟨lost, hperm, _⟩ := stored_onFacilities Γ e (effect Γ s e) (reachable_names_nodup hs)
  rcases List.mem_append.1 (hperm.subset (List.mem_append_right lost hx)) with hgained | hstored
  · obtain ⟨booking, _, rfl⟩ := (mem_gained_iff hs).1 hgained
    exact he
  · exact h x hstored

theorem users_run {P : Text → Prop} (Γ : Jvm) (checkHistory : Bool) {es : List Event} (h : ∀ e ∈ es, P e.userInfo) :
    Users P (serverRun Γ (.init checkHistory) es) := by
  induction es using List.reverseRecOn with
  | nil => exact List.forall_mem_nil _
  | append_singleton es e ih =>
    rw [List.forall_mem_append, List.forall_mem_singleton] at h
    have hrun : serverRun Γ (.init checkHistory) (es ++ [e]) = serverStep Γ (serverRun Γ (.init checkHistory) es) e :=
      Machine.run_append _ _ _
    rw [hrun]
    exact (ih h.1).step (Machine.Reachable.start.run es) h.2

/-- The users of all bookings are written in one line. -/
abbrev UsersOnLine (s : ServerState) : Prop := Users (fun user => '\n' ∉ user) s

theorem usersOnLine_run (Γ : Jvm) (checkHistory : Bool) {es : List Event} (h : ∀ e ∈ es, e.HostOnLine) :
    UsersOnLine (serverRun Γ (.init checkHistory) es) := users_run Γ checkHistory fun e he => (h e he).userInfo

/-! ## What is removed -/

/-- A booking that a removal finds is one of the user's, of that ID. -/
theorem removed_cases (hs : Reachable Γ checkHistory s) {facilityName user : Text} {prevBookingId : Option Text} {f : Facility}
    (hf : getFacility s.facilities facilityName = some f) :
    (f.availability.removeTimeSlot prevBookingId user).2 = none ∧
        (∀ bookingId, prevBookingId = some bookingId → ¬HasBooking s.facilities facilityName bookingId user) ∨
      ∃ bookingId, prevBookingId = some bookingId ∧ (f.availability.removeTimeSlot prevBookingId user).2 = some bookingId ∧
        HasBooking s.facilities facilityName bookingId user := by
  have hnames := reachable_names_nodup hs
  cases hday : f.availability.ownedDay prevBookingId user with
  | none =>
    refine Or.inl ⟨by rw [Availability.removeTimeSlot_of_none hday], ?_⟩
    rintro bookingId rfl ⟨x, hx, hname, hid, huser⟩
    obtain ⟨g, hg, hweek⟩ := getFacility_of_stored hnames hx
    rw [hname, hf] at hg
    cases hg
    obtain ⟨day, hmem⟩ := Availability.mem_week.1 hweek
    have hnot := Availability.ownedDay_eq_none_iff.1 hday day x.2 hmem
    simp [Booking.isOf, hid, huser] at hnot
  | some day =>
    obtain ⟨l₁, b, l₂, hsplit, hid, huser, _⟩ := Availability.owned_split hday
    refine Or.inr ⟨b.confirmationID, hid.symm, by rw [Availability.removeTimeSlot_of_some hday, ← hid], ?_⟩
    refine ⟨(facilityName, b), mem_stored.2 ⟨f, getFacility_mem hf, getFacility_name hf, Availability.mem_week.2 ⟨day, ?_⟩⟩, rfl, rfl, huser⟩
    rw [hsplit]
    exact List.mem_append_right _ List.mem_cons_self

/-- What is named as removed is written in one line. -/
theorem newline_notMem_removed (hs : Reachable Γ checkHistory s) (facilityName user : Text) (prevBookingId : Option Text) :
    '\n' ∉ orNull ((getFacility s.facilities facilityName).bind (fun f => (f.availability.removeTimeSlot prevBookingId user).2)) := by
  cases hf : getFacility s.facilities facilityName with
  | none =>
    rw [Option.bind_none]
    decide
  | some f =>
    rw [Option.bind_some]
    rcases @removed_cases Γ checkHistory s hs facilityName user prevBookingId f hf with ⟨hnone, _⟩ | ⟨bookingId, _, hsome, x, hx, _, hid, _⟩
    · rw [hnone]
      decide
    · rw [hsome, ← hid]
      exact newline_notMem_id hs (List.mem_map_of_mem hx)

/-- A deletion names the booking if the user has it. -/
theorem removed_of_remove (hs : Reachable Γ checkHistory s) (facilityName bookingId user : Text) :
    (Effect.remove facilityName bookingId).removed s.facilities user =
      if HasBooking s.facilities facilityName bookingId user then bookingId else "null".toList := by
  rw [Effect.removed]
  cases hf : getFacility s.facilities facilityName with
  | none =>
    rw [if_neg]
    · rfl
    · rintro ⟨x, hx, hname, _⟩
      obtain ⟨g, hg, _⟩ := getFacility_of_stored (reachable_names_nodup hs) hx
      rw [hname, hf] at hg
      cases hg
  | some f =>
    rw [Option.bind_some]
    rcases @removed_cases Γ checkHistory s hs facilityName user (some bookingId) f hf with ⟨hnone, hnot⟩ | ⟨id, hid, hsome, hhas⟩
    · rw [hnone, if_neg (hnot bookingId rfl)]
      rfl
    · cases hid
      rw [hsome, if_pos hhas]
      rfl

/-! ## Changes -/

theorem name_of_day (day : DayOfWeek) : '\n' ∉ day.name := by cases day <;> decide

/-- The lines of a booking are lines. -/
theorem Report.oneLine {p : Report} (huser : '\n' ∉ p.user) (hfacility : '\n' ∉ p.facility) {day : DayOfWeek} (hday : p.day = day.name)
    {slot : TimeSlot} (hstart : p.startTime = slot.getStartTime) (hend : p.endTime = slot.getEndTime) : OneLine p.labelled := by
  simp only [OneLine, Report.labelled, List.forall_mem_cons, hday, hstart, hend]
  exact ⟨huser, hfacility, name_of_day day, newline_notMem_time _ _, newline_notMem_time _ _, List.forall_mem_nil _⟩

/-- What is done is granted. -/
theorem granted_of_effect {e : Event} (h : effect Γ s e ≠ .nothing) : (effect Γ s e).granted s.facilities = true := by
  obtain ⟨m, r, hm, hp, _⟩ := request_of_effect h
  have heffect : effect Γ s e = (asked Γ m).ifGranted s.facilities := by
    simp only [effect, hm, hp, Option.isSome_none, Bool.false_eq_true, if_false, effectOf]
  rw [heffect] at h ⊢
  unfold Effect.ifGranted at h ⊢
  split
  · assumption
  · rename_i hnot
    exact absurd (if_neg hnot) h

/-- The lines of a response to a request that had an effect are lines. -/
theorem oneLine_labelled (hs : Reachable Γ checkHistory s) {e : Event} (he : e.HostOnLine) (hformat : ∀ d, '\n' ∉ Γ.format1f d) :
    OneLine ((effect Γ s e).labelled Γ e ((effect Γ s e).removed s.facilities e.userInfo)) := by
  have huser := he.userInfo
  have hname : ∀ {name : Text}, (getFacility s.facilities name).isSome = true → '\n' ∉ name := by
    intro name hsome
    obtain ⟨f, hf⟩ := Option.isSome_iff_exists.1 hsome
    rw [← getFacility_name hf]
    exact newline_notMem_name hs (getFacility_mem hf)
  have hbooked : ∀ booking : BookingDetails, grants s.facilities booking = true → OneLine (e.report booking).labelled := by
    intro booking hgrants
    obtain ⟨f, hf, _⟩ := grants_iff.1 hgrants
    exact @Report.oneLine (e.report booking) huser (hname (Option.isSome_of_eq_some hf)) booking.day rfl booking.timeSlot rfl rfl
  have hgranted : effect Γ s e ≠ .nothing → (effect Γ s e).granted s.facilities = true := granted_of_effect
  generalize effect Γ s e = effect at hgranted ⊢
  cases effect with
  | nothing => exact List.forall_mem_nil _
  | book booking => exact List.forall_mem_cons.2 ⟨newline_notMem_uuid e.uuid, hbooked booking (hgranted (by simp))⟩
  | move booking =>
    have hline := hbooked booking (hgranted (by simp))
    simp only [OneLine, Effect.labelled, List.forall_mem_cons] at hline ⊢
    exact ⟨newline_notMem_removed hs _ _ _, newline_notMem_uuid e.uuid, hline⟩
  | remove facilityName bookingId =>
    simp only [OneLine, Effect.labelled, List.forall_mem_cons]
    exact ⟨newline_notMem_removed hs _ _ _, huser, List.forall_mem_nil _⟩
  | rate facilityName rating =>
    simp only [OneLine, Effect.labelled, List.forall_mem_cons]
    exact ⟨huser, hname (hgranted (by simp)), hformat rating, List.forall_mem_nil _⟩
  | register facilityName monitorInterval =>
    simp only [OneLine, Effect.labelled, List.forall_mem_cons]
    exact ⟨hname (hgranted (by simp)), newline_notMem_decimal _, List.forall_mem_nil _⟩

end

/-! ## Calls -/

theorem parseUpdateType_of_kind {kind : Text} (hkind : ',' ∉ kind) (hne : kind ≠ []) (rest : Text) :
    parseUpdateType (some (kind ++ ',' :: rest)) = .ok kind := by
  obtain ⟨pieces, hsplit⟩ := split_append_comma hkind hne rest
  simp only [parseUpdateType, splitData, hsplit]
  rfl

/-- The effect is of the kind that the call asks for. -/
inductive Cpp.Call.Asks : Cpp.Call → Effect → Prop
  | nothing (call : Cpp.Call) : Asks call .nothing
  | book (facilityName dayOfWeek startTime endTime : Bytes) (booking : BookingDetails) :
    Asks (.bookFacility facilityName dayOfWeek startTime endTime) (.book booking)
  | move (oldBookingID : Bytes) (offsetMinutes : Int) (oldBookingDetails : Bytes) (booking : BookingDetails) :
    Asks (.updateBooking oldBookingID offsetMinutes oldBookingDetails) (.move booking)
  | remove (bookingID bookingDetails : Bytes) (facilityName bookingId : Text) :
    Asks (.deleteBooking bookingID bookingDetails) (.remove facilityName bookingId)
  | register (facilityName : Bytes) (durationSeconds : Int) (name : Text) (monitorInterval : Int) :
    Asks (.monitorAvailability facilityName durationSeconds) (.register name monitorInterval)
  | rate (facilityName rating : Bytes) (name : Text) (given : Double) : Asks (.rateFacility facilityName rating) (.rate name given)

section

variable {Γ : Jvm} {call : Cpp.Call} {requestType : BitVec 32} {text : Text}

/-- The kind of an update is read from the start of its bytes. -/
theorem parseUpdateType_of_bytes {start : Text} (hstart : ∀ c ∈ start ++ [','], c.toNat < 128) (hcomma : ',' ∉ start)
    (hne : start ≠ []) {tail : Bytes} (h : getBytes text = getBytes (start ++ [',']) ++ tail) :
    parseUpdateType (some text) = .ok start := by
  obtain ⟨tail', rfl⟩ := exists_of_getBytes_append hstart h
  rw [List.append_assoc]
  exact parseUpdateType_of_kind hcomma hne tail'

theorem updateBooking_prefix {oldBookingID oldBookingDetails messageData : Bytes} {offsetMinutes : Int}
    (h : Client.updateBooking oldBookingID offsetMinutes oldBookingDetails = some messageData) :
    ∃ tail, messageData = getBytes ("booking".toList ++ [',']) ++ tail := by
  simp only [Client.updateBooking, Option.bind_eq_bind, Option.bind_eq_some_iff] at h
  obtain ⟨_, _, _, _, hdata⟩ := h
  simp only [List.append_assoc] at hdata
  exact ⟨_, (Option.some.inj hdata).symm⟩

/-- The operation of an operation's request. -/
def Cpp.Call.operation : Cpp.Call → Operation
  | .queryFacilityNames => .READ
  | .queryAvailability _ _ => .READ
  | .bookFacility _ _ _ _ => .WRITE
  | .queryBooking _ => .READ
  | .updateBooking _ _ _ => .UPDATE
  | .deleteBooking _ _ => .DELETE
  | .monitorAvailability _ _ => .MONITOR
  | .rateFacility _ _ => .UPDATE
  | .queryRating _ => .READ
  | .echoMessage _ => .ECHO

theorem getOperation_of_request {data : Bytes} (hrequest : call.request = some (requestType, data)) (requestID : BitVec 32)
    (text : Option Text) : (RequestMessage.mk requestType requestID text).getOperation = call.operation := by
  cases call with
  | bookFacility =>
    obtain ⟨_, _, heq⟩ := Option.map_eq_some_iff.1 hrequest
    obtain ⟨rfl, _⟩ := Prod.mk.inj heq
    rfl
  | updateBooking =>
    obtain ⟨_, _, heq⟩ := Option.map_eq_some_iff.1 hrequest
    obtain ⟨rfl, _⟩ := Prod.mk.inj heq
    rfl
  | _ =>
    obtain ⟨rfl, _⟩ := Prod.mk.inj (Option.some.inj hrequest)
    rfl

theorem Cpp.Call.Changes.operation (hcall : call.Changes) : call.operation ∉ [Operation.READ, .ECHO] := by
  cases call with
  | queryFacilityNames => exact hcall.elim
  | queryAvailability => exact hcall.elim
  | queryBooking => exact hcall.elim
  | queryRating => exact hcall.elim
  | echoMessage => exact hcall.elim
  | _ => simp [Cpp.Call.operation]

/-- What a call's request asks for. -/
theorem asks_of_request (hcall : call.Changes) (hrequest : call.request = some (requestType, getBytes text)) (requestID : BitVec 32) :
    call.Asks (asked Γ ⟨requestType, requestID, some text⟩) := by
  have hasking := asking Γ ⟨requestType, requestID, some text⟩
  have hop := getOperation_of_request hrequest requestID (some text)
  generalize asked Γ ⟨requestType, requestID, some text⟩ = effect at hasking ⊢
  cases call with
  | queryFacilityNames => exact hcall.elim
  | queryAvailability => exact hcall.elim
  | queryBooking => exact hcall.elim
  | queryRating => exact hcall.elim
  | echoMessage => exact hcall.elim
  | bookFacility =>
    cases hasking with
    | nothing => exact .nothing _
    | book => exact .book _ _ _ _ _
    | move _ ho => cases hop.symm.trans ho
    | remove _ _ ho => cases hop.symm.trans ho
    | rate _ _ ho => cases hop.symm.trans ho
    | register _ _ ho => cases hop.symm.trans ho
  | updateBooking =>
    obtain ⟨data, hdata, heq⟩ := Option.map_eq_some_iff.1 hrequest
    obtain ⟨_, rfl⟩ := Prod.mk.inj heq
    obtain ⟨tail, htail⟩ := updateBooking_prefix hdata
    have hkind := parseUpdateType_of_bytes (List.all_iff_forall_prop.1 (by decide)) (by decide) (by decide) htail
    cases hasking with
    | nothing => exact .nothing _
    | move => exact .move _ _ _ _
    | rate _ _ _ htype => exact absurd (Except.ok.inj (hkind.symm.trans htype)) (by decide)
    | book _ ho => cases hop.symm.trans ho
    | remove _ _ ho => cases hop.symm.trans ho
    | register _ _ ho => cases hop.symm.trans ho
  | deleteBooking =>
    cases hasking with
    | nothing => exact .nothing _
    | remove => exact .remove _ _ _ _
    | book _ ho => cases hop.symm.trans ho
    | move _ ho => cases hop.symm.trans ho
    | rate _ _ ho => cases hop.symm.trans ho
    | register _ _ ho => cases hop.symm.trans ho
  | monitorAvailability =>
    cases hasking with
    | nothing => exact .nothing _
    | register => exact .register _ _ _ _
    | book _ ho => cases hop.symm.trans ho
    | move _ ho => cases hop.symm.trans ho
    | remove _ _ ho => cases hop.symm.trans ho
    | rate _ _ ho => cases hop.symm.trans ho
  | rateFacility facilityName rating =>
    obtain ⟨_, hdata⟩ := Prod.mk.inj (Option.some.inj hrequest)
    have htail : getBytes text = getBytes ("rating".toList ++ [',']) ++ (facilityName ++ (literal "," ++ rating)) := by
      rw [← hdata, Client.rateFacility, List.append_assoc, List.append_assoc]
      rfl
    have hkind := parseUpdateType_of_bytes (List.all_iff_forall_prop.1 (by decide)) (by decide) (by decide) htail
    cases hasking with
    | nothing => exact .nothing _
    | rate => exact .rate _ _ _ _
    | move _ _ htype => exact absurd (Except.ok.inj (hkind.symm.trans htype)) (by decide)
    | book _ ho => cases hop.symm.trans ho
    | remove _ _ ho => cases hop.symm.trans ho
    | register _ _ ho => cases hop.symm.trans ho

/-- What was done is shown. -/
theorem parse_done {s : ServerState} {e : Event} {effect : Effect} (hasks : call.Asks effect) (hne : effect ≠ .nothing)
    (hremoved : ∀ facilityName bookingId, effect = .remove facilityName bookingId →
      effect.removed s.facilities e.userInfo =
        if HasBooking s.facilities facilityName bookingId e.userInfo then bookingId else "null".toList)
    (hline : OneLine (effect.labelled Γ e (effect.removed s.facilities e.userInfo))) {written : Text}
    (hwritten : IsWritten written (effect.labelled Γ e (effect.removed s.facilities e.userInfo))) :
    call.parse (getBytes ("status:SUCCESS\n".toList ++ written)) = (effect.shown Γ e s.facilities).map getBytes := by
  cases hasks with
  | nothing => exact absurd rfl hne
  | book _ _ _ _ booking => exact @Report.parse written (e.report booking) hline hwritten
  | move _ _ _ booking => exact @Report.parse_new written (e.report booking) _ hline hwritten
  | remove _ _ facilityName bookingId =>
    have hshown := parse_removed hline hwritten
    rw [hremoved facilityName bookingId rfl] at hshown
    exact hshown
  | register => exact parse_registered hline hwritten
  | rate => exact parse_rated hline hwritten

/-- The message of an error is shown, but for an echo, whose dialog shows the whole response. -/
theorem parse_error (hcall : ∀ messageData, call ≠ .echoMessage messageData) (message : Text) :
    call.parse (getBytes ("status:ERROR\nmessage:".toList ++ message)) = (shownError message).map getBytes := by
  have hshown : [literal "Error", errorMessage (getBytes ("message:".toList ++ message))] = (shownError message).map getBytes :=
    congrArg (fun bytes => [literal "Error", bytes]) (errorMessage_eq message)
  cases call with
  | queryFacilityNames =>
    rw [Cpp.Call.parse, parseQueryFacilityNamesResponse, isErrorResponse_error]
    exact hshown
  | queryAvailability =>
    dsimp only [Cpp.Call.parse]
    rw [parseQueryAvailabilityResponse, isErrorResponse_error]
    exact hshown
  | echoMessage messageData => exact absurd rfl (hcall messageData)
  | bookFacility =>
    rw [Cpp.Call.parse, parseBookFacilityResponse, parseQueryBookingResponse, parseLabelled_error]
    rfl
  | queryBooking =>
    rw [Cpp.Call.parse, parseQueryBookingResponse, parseLabelled_error]
    rfl
  | updateBooking =>
    rw [Cpp.Call.parse, parseUpdateBookingResponse, parseLabelled_error]
    rfl
  | deleteBooking =>
    rw [Cpp.Call.parse, parseDeleteBookingResponse, parseLabelled_error]
    rfl
  | monitorAvailability =>
    rw [Cpp.Call.parse, parseMonitorAvailabilityResponse, parseLabelled_error]
    rfl
  | rateFacility =>
    rw [Cpp.Call.parse, parseRateFacilityResponse, parseLabelled_error]
    rfl
  | queryRating =>
    rw [Cpp.Call.parse, parseQueryRatingResponse, parseLabelled_error]
    rfl

theorem Cpp.Call.Changes.ne_echoMessage (hcall : call.Changes) (messageData : Bytes) : call ≠ .echoMessage messageData := by
  rintro rfl
  exact hcall

end

/-! ## Executions -/

section

variable {Γ : Jvm} {checkHistory : Bool} {s : ServerState} {e : Event} {m r : RequestMessage}

/-- The response to a change that is executed is shown as what it did. -/
theorem shows_of_change (hs : Reachable Γ checkHistory s) (he : e.HostOnLine) (hformat : ∀ d, '\n' ∉ Γ.format1f d) {call : Cpp.Call}
    (hcall : call.Changes) {requestType requestID : BitVec 32} {text : Text} (hrequest : call.request = some (requestType, getBytes text))
    (hm : deserializeMessage Γ e.bytes = .ok ⟨requestType, requestID, some text⟩)
    (hnew : replayOf s ⟨requestType, requestID, some text⟩ e = none) (hresult : (handleRequest Γ s e).result = .ok r) :
    Shows Γ s e call (call.parse r.bytes) := by
  have ho : (RequestMessage.mk requestType requestID (some text)).getOperation ∉ [Operation.READ, .ECHO] := by
    rw [getOperation_of_request hrequest]
    exact hcall.operation
  have hecho : (RequestMessage.mk requestType requestID (some text)).getOperation ≠ .ECHO := fun h => ho (by rw [h]; decide)
  have hread : (RequestMessage.mk requestType requestID (some text)).getOperation ≠ .READ := fun h => ho (by rw [h]; decide)
  have heffect : effect Γ s e = effectOf Γ s.facilities ⟨requestType, requestID, some text⟩ := by
    simp only [effect, hm, hnew, Option.isSome_none, Bool.false_eq_true, if_false]
  have hline := oneLine_labelled hs he hformat
  rw [handleRequest_of_new hm hecho hnew, execute_result] at hresult
  by_cases hnothing : effect Γ s e = .nothing
  · rcases dispatch_cases Γ s.reset ⟨requestType, requestID, some text⟩ e with ⟨x, hop, _⟩ | ⟨last, r', hanswers, hrun⟩
    · exact absurd hop hread
    · rw [hrun] at hresult
      cases hresult
      have hnone : effectOf Γ s.reset.facilities ⟨requestType, requestID, some text⟩ = .nothing := heffect.symm.trans hnothing
      rcases hanswers.data with ⟨_, hne | hop⟩ | ⟨⟨message, hmessage⟩, _⟩
      · exact absurd hnone hne
      · exact absurd hop hread
      · have hbytes : r.bytes = getBytes ("status:ERROR\nmessage:".toList ++ message) := by
          rw [RequestMessage.bytes, hmessage]
          rfl
        rw [hbytes, parse_error hcall.ne_echoMessage]
        exact .refused call hcall hnothing message
  · have htells := dispatch_tells Γ s.reset ⟨requestType, requestID, some text⟩ e
    have hsame : effectOf Γ s.reset.facilities ⟨requestType, requestID, some text⟩ = effect Γ s e := heffect.symm
    rw [hsame] at htells
    obtain ⟨op, id, written, hdispatch, hwritten⟩ := htells hnothing
    rw [hdispatch] at hresult
    cases hresult
    have hasks : call.Asks (effect Γ s e) := by
      have hasks := @asks_of_request Γ call requestType text hcall hrequest requestID
      rw [heffect, effectOf] at hnothing ⊢
      rwa [Effect.ifGranted_of_ne hnothing]
    have hremoved : ∀ facilityName bookingId, effect Γ s e = .remove facilityName bookingId →
        (effect Γ s e).removed s.facilities e.userInfo =
          if HasBooking s.facilities facilityName bookingId e.userInfo then bookingId else "null".toList := by
      intro facilityName bookingId hremove
      rw [hremove]
      exact removed_of_remove hs facilityName bookingId e.userInfo
    have hshown := parse_done hasks hnothing hremoved hline hwritten
    have hdone := Shows.done call hcall hnothing
    rw [← hshown] at hdone
    exact hdone

/-- A call whose arguments are those that the prompts let through: what is asked about is a text without a comma, a booking or a facility
that is not all of them, and days are asked for by name. -/
inductive Cpp.Call.Queries : Cpp.Call → Text → Prop
  | names : Queries .queryFacilityNames "facility,ALL".toList
  | availability (name : Text) (hname : ',' ∉ name ∧ name ≠ "ALL".toList) (days : List DayOfWeek) (hdays : days ≠ []) :
    Queries (.queryAvailability (getBytes name) (requested days))
      (joined ("facility".toList :: name :: days.map DayOfWeek.name))
  | booking (bookingID : Text) (hid : ',' ∉ bookingID ∧ bookingID ≠ []) :
    Queries (.queryBooking (getBytes bookingID)) ("booking".toList ++ ',' :: bookingID)
  | rating (name : Text) (hname : ',' ∉ name ∧ name ≠ []) : Queries (.queryRating (getBytes name)) ("rating".toList ++ ',' :: name)

theorem Cpp.Call.Queries.request {call : Cpp.Call} {text : Text} (h : call.Queries text) :
    call.request = some (RequestMessage.READ, getBytes text) := by
  cases h with
  | names => rfl
  | availability name hname days hdays =>
    obtain ⟨day, rest, rfl⟩ := List.exists_cons_of_ne_nil hdays
    rw [List.map_cons, joined_cons_cons, joined_cons_cons]
    simp only [Cpp.Call.request, Client.queryAvailability, requested, getBytes_append, getBytes_cons, List.append_assoc]
    rfl
  | booking bookingID hid => simp only [Cpp.Call.request, Client.queryBooking, getBytes_append, getBytes_cons]; rfl
  | rating name hname => simp only [Cpp.Call.request, Client.queryRating, getBytes_append, getBytes_cons]; rfl

/-- The names of days are read as the days. -/
theorem mapM_valueOf_names (days : List DayOfWeek) : (days.map DayOfWeek.name).mapM DayOfWeek.valueOf = .ok days := by
  induction days with
  | nil => rfl
  | cons day days ih =>
    rw [List.map_cons, List.mapM_cons, DayOfWeek.valueOf_name, ih]
    rfl

/-- The server takes a query of an availability apart into what it was put together of. -/
theorem split_availability {name : Text} (hname : ',' ∉ name) {days : List DayOfWeek} (hdays : days ≠ []) :
    split (joined ("facility".toList :: name :: days.map DayOfWeek.name)) = "facility".toList :: name :: days.map DayOfWeek.name := by
  have hday : ∀ day : DayOfWeek, ',' ∉ day.name ∧ day.name ≠ [] := fun day => by cases day <;> decide
  rcases List.eq_nil_or_concat days with hnil | ⟨before, last, rfl⟩
  · exact absurd hnil hdays
  · have hpieces : ∀ p ∈ name :: before.map DayOfWeek.name, ',' ∉ p := by
      rw [List.forall_mem_cons, List.forall_mem_map]
      exact ⟨hname, fun day _ => (hday day).1⟩
    have hsplit := split_joined (show ',' ∉ "facility".toList by decide) hpieces (hday last).1 (hday last).2
    rw [List.concat_eq_append, List.map_append, List.map_singleton, ← List.cons_append]
    exact hsplit

theorem Cpp.Call.Queries.ne_echoMessage {call : Cpp.Call} {text : Text} (h : call.Queries text) (messageData : Bytes) :
    call ≠ .echoMessage messageData := by
  rintro rfl
  cases h

theorem Shows.of_eq {call : Cpp.Call} {screen screen' : List Bytes} (h : Shows Γ s e call screen) (heq : screen' = screen) :
    Shows Γ s e call screen' := heq ▸ h

/-- A booking that is found is shown. -/
theorem parse_found (hs : Reachable Γ checkHistory s) (husers : UsersOnLine s) {bookingID : Text} {f : Facility} {b : Booking}
    (hb : findBooking s.facilities bookingID = some (f, b)) :
    parseQueryBookingResponse (getBytes ("status:SUCCESS\n".toList ++ bookingText f b)) = (reportOf (f.name, b)).shown.map getBytes := by
  obtain ⟨hstored, _⟩ := stored_of_findBooking hb
  have hmem : b.confirmationID ∈ ids s.facilities := List.mem_map.2 ⟨(f.name, b), hstored, rfl⟩
  have hname : '\n' ∉ f.name := name_of_found hs hb '\n' (by decide)
  have hreport := @Report.oneLine (reportOf (f.name, b)) (husers _ hstored) hname b.getDay rfl b.timeSlot rfl rfl
  have hfields : OneLine (("bookingID", b.confirmationID) :: (reportOf (f.name, b)).labelled) :=
    List.forall_mem_cons.2 ⟨newline_notMem_id hs hmem, hreport⟩
  have hwritten : IsWritten (bookingText f b) (("bookingID", b.confirmationID) :: (reportOf (f.name, b)).labelled) :=
    @isWritten_ended (("bookingID", b.confirmationID) :: (reportOf (f.name, b)).labelled) (List.cons_ne_nil _ _)
  exact @Report.parse _ (reportOf (f.name, b)) hfields hwritten

/-- What a query reads is shown. -/
theorem shows_of_readData (hs : Reachable Γ checkHistory s) (husers : UsersOnLine s) (hformat : ∀ d, '\n' ∉ Γ.format1f d) {call : Cpp.Call}
    {text : Text} (hquery : call.Queries text) {data : Option Text} (hdata : readData Γ s.facilities (some text) = .ok data) :
    Shows Γ s e call (call.parse (getBytes (data.getD []))) := by
  have hline : ∀ {name : Text} {f : Facility}, getFacility s.facilities name = some f → '\n' ∉ name := by
    intro name f hf
    rw [← getFacility_name hf]
    exact newline_notMem_name hs (getFacility_mem hf)
  have hrating : "rating".toList ≠ "facility".toList ∧ "rating".toList ≠ "booking".toList := by decide
  have hbooking : "booking".toList ≠ "facility".toList := by decide
  cases hquery with
  | names =>
    have hsplit : split "facility,ALL".toList = ["facility".toList, "ALL".toList] := by decide
    have hnames : ∀ name ∈ s.facilities.map Facility.name, '\n' ∉ name ∧ ',' ∉ name ∧ name ≠ [] := by
      rw [reachable_names hs]
      simp
    have hshown := parse_names hnames
    rw [List.flatMap_map] at hshown
    rw [readData_of_split hsplit, if_pos rfl, if_pos rfl] at hdata
    cases hdata
    exact Shows.of_eq .names hshown
  | availability name hname days hdays =>
    rw [readData_of_split (split_availability hname.1 hdays), if_pos rfl, if_neg hname.2, mapM_valueOf_names] at hdata
    cases hf : getFacility s.facilities name with
    | none =>
      have hnone : formatFacilityAvailability s.facilities name days = error "Facility not found".toList := by
        rw [formatFacilityAvailability, hf]
      cases hdata
      rw [hnone]
      exact Shows.of_eq (.noFacility _ name hf (Or.inr ⟨days, rfl⟩)) (parse_error (fun _ => Cpp.Call.noConfusion) _)
    | some f =>
      have hbytes : getBytes (slotsMessage name f.availability.getAvailableTimeSlots days) =
          literal "status:SUCCESS" ++ 10 :: getBytes (slotsText name f.availability.getAvailableTimeSlots days) :=
        getBytes_append "status:SUCCESS\n".toList _
      have hshown := @parse_slotsText name f.availability.getAvailableTimeSlots days (literal "status:SUCCESS") (by decide) (by decide)
        (hline hf)
      rw [← hbytes] at hshown
      have hdone : Shows Γ s e (.queryAvailability (getBytes name) (requested days)) _ := .availability name days f hf _ hshown
      have hsome : formatFacilityAvailability s.facilities name days = data := Except.ok.inj hdata
      rw [formatFacilityAvailability_eq hf] at hsome
      rw [← hsome]
      exact hdone
  | booking bookingID hid =>
    rw [readData_of_split (split_pair (by decide) hid.1 hid.2), if_neg hbooking, if_pos rfl] at hdata
    cases hb : findBooking s.facilities bookingID with
    | none =>
      rw [hb] at hdata
      cases hdata
      exact Shows.of_eq (.noBooking bookingID hb) (parse_error (fun _ => Cpp.Call.noConfusion) _)
    | some found =>
      obtain ⟨f, b⟩ := found
      rw [hb] at hdata
      cases hdata
      exact Shows.of_eq (.booking bookingID f b hb) (parse_found hs husers hb)
  | rating name hname =>
    rw [readData_of_split (split_pair (by decide) hname.1 hname.2), if_neg hrating.1, if_neg hrating.2, if_pos rfl] at hdata
    cases hf : getFacility s.facilities name with
    | none =>
      rw [hf] at hdata
      cases hdata
      exact Shows.of_eq (.noFacility _ name hf (Or.inl rfl)) (parse_error (fun _ => Cpp.Call.noConfusion) _)
    | some f =>
      rw [hf] at hdata
      obtain rfl := Except.ok.inj hdata
      have hfields : OneLine [("facility", f.name), ("rating", Γ.format1f f.rating.averageRating)] := by
        simp only [OneLine, List.forall_mem_cons]
        exact ⟨newline_notMem_name hs (getFacility_mem hf), hformat _, List.forall_mem_nil _⟩
      have hwritten : IsWritten (lines [line "facility" f.name, line "rating" (Γ.format1f f.rating.averageRating)])
          [("facility", f.name), ("rating", Γ.format1f f.rating.averageRating)] := Or.inl rfl
      exact Shows.of_eq (.rating name f hf) (parse_rating hfields hwritten)

end

end FacilityBooking
