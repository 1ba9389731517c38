import FacilityBooking.Lemmas.Split
import FacilityBooking.Runs

/-!
# Deleting a booking

`removeTimeSlot` reports a booking that it does not find by a null, and `deleteBooking` takes the null for an ID: the response is a
success whether or not there was anything to delete, as long as the facility is there.
-/

namespace FacilityBooking

/-- The facility of that name has a booking of that ID made by that user. -/
def Holds (facilities : List Facility) (facilityName bookingId user : Text) : Prop :=
  ∃ f, getFacility facilities facilityName = some f ∧ ∃ day, ∃ b ∈ f.availability.bookedSlots day,
    b.confirmationID = bookingId ∧ b.userInfo = user

/-- From one facility to the other, exactly one booking of that ID and that user is gone, and the others are there in order. -/
def Loses (bookingId user : Text) (f f' : Facility) : Prop :=
  ∃ day l₁ b l₂, f.availability.bookedSlots day = l₁ ++ b :: l₂ ∧ f'.availability.bookedSlots day = l₁ ++ l₂ ∧
    b.confirmationID = bookingId ∧ b.userInfo = user ∧
    ∀ day', day' ≠ day → f'.availability.bookedSlots day' = f.availability.bookedSlots day'

/-- The outcome of a deletion is true: it is a success exactly when the facility has such a booking; then one is gone, no other
facility has changed, and the response has its ID; otherwise it is an error that leaves every booking as it was. -/
def TellsTruth (s : ServerState) (e : Event) (bookingId facilityName : Text) (outcome : Outcome) : Prop :=
  ∃ r, outcome.result = .ok r ∧
    (r.Says "status:SUCCESS" ↔ Holds s.facilities facilityName bookingId e.userInfo) ∧
    (Holds s.facilities facilityName bookingId e.userInfo →
      (∃ f f', getFacility s.facilities facilityName = some f ∧ Loses bookingId e.userInfo f f' ∧
        outcome.state.facilities = modifyFacility s.facilities facilityName (fun _ => f')) ∧
      r.data = success (lines [line "bookingID" bookingId, line "user" e.userInfo])) ∧
    (¬Holds s.facilities facilityName bookingId e.userInfo → r.Says "status:ERROR" ∧
      outcome.state.facilities.map (fun f => f.availability.bookedSlots) =
        s.facilities.map (fun f => f.availability.bookedSlots))

/-- The facility has such a booking when `removeTimeSlot` finds one. -/
theorem holds_iff {facilities : List Facility} {facilityName bookingId user : Text} {f : Facility}
    (hf : getFacility facilities facilityName = some f) :
    Holds facilities facilityName bookingId user ↔ ∃ day, f.availability.ownedDay (some bookingId) user = some day := by
  rw [← Option.ne_none_iff_exists', ne_eq, Availability.ownedDay_eq_none_iff]
  simp only [Holds, hf, Option.some.injEq, exists_eq_left', Booking.isOf, ← Bool.decide_and, decide_eq_false_iff_not, not_forall,
    not_not, exists_prop]

theorem not_holds_of_none {facilities : List Facility} {facilityName bookingId user : Text}
    (hf : getFacility facilities facilityName = none) : ¬Holds facilities facilityName bookingId user := by
  rintro ⟨f, hf', _⟩
  rw [hf] at hf'
  cases hf'

/-- The facility loses the booking that is found. -/
theorem loses_removed {bookingId user : Text} {f : Facility} {day : DayOfWeek}
    (h : f.availability.ownedDay (some bookingId) user = some day) :
    Loses bookingId user f (f.setAvailability (f.availability.removeTimeSlot (some bookingId) user).1) := by
  obtain ⟨l₁, b, l₂, hsplit, hid, huser, herase⟩ := Availability.owned_split h
  refine ⟨day, l₁, b, l₂, hsplit, ?_, Option.some.inj hid, huser, ?_⟩
  · simp only [Facility.setAvailability, Availability.removeTimeSlot_of_some h, Availability.setBooked_self, herase]
  · intro day' hne
    simp only [Facility.setAvailability, Availability.removeTimeSlot_of_some h, Availability.setBooked_of_ne _ _ hne]

/-- An error that leaves the facilities as they were is true of a booking that is not there. -/
theorem tellsTruth_of_error {s : ServerState} {e : Event} {bookingId facilityName : Text} {outcome : Outcome}
    {r : RequestMessage} {message : Text} (hresult : outcome.result = .ok r) (hdata : r.data = error message)
    (hfacilities : outcome.state.facilities = s.facilities)
    (hnone : ¬Holds s.facilities facilityName bookingId e.userInfo) : TellsTruth s e bookingId facilityName outcome := by
  refine ⟨r, hresult, iff_of_false (not_says_success hdata) hnone, fun h => absurd h hnone, fun _ => ⟨says_error hdata, ?_⟩⟩
  rw [hfacilities]

/-- What the data of a deletion is read as: an empty name of a facility is not there at all. -/
theorem parseDelete_pair {bookingId facilityName : Text} (hid : ',' ∉ bookingId) (hname : ',' ∉ facilityName) :
    (facilityName ≠ [] ∧ parseDelete (some (bookingId ++ ',' :: facilityName)) = .ok (bookingId, facilityName)) ∨
    (facilityName = [] ∧ ∃ x, parseDelete (some (bookingId ++ ',' :: facilityName)) = .error x) := by
  by_cases hne : facilityName = []
  · subst hne
    refine Or.inr ⟨rfl, ?_⟩
    simp only [parseDelete, splitData, split_comma hid]
    split
    · exact ⟨_, rfl⟩
    · exact ⟨_, rfl⟩
  · refine Or.inl ⟨hne, ?_⟩
    simp only [parseDelete, splitData, split_pair hid hname hne]
    rfl

section

variable {Γ : Jvm} {s : ServerState} {m : RequestMessage} {e : Event} {bookingId facilityName : Text}

/-- The effect of a deletion that is read. -/
theorem effectOf_delete (ho : m.getOperation = .DELETE) (hparse : parseDelete m.data = .ok (bookingId, facilityName))
    (facilities : List Facility) :
    effectOf Γ facilities m = if (getFacility facilities facilityName).isSome then .remove facilityName bookingId
      else .nothing := by
  simp only [effectOf, asked, ho, hparse]
  rfl

/-- The outcome when the facility is not there, or nothing is read. -/
theorem tellsTruth_of_refused (hm : deserializeMessage Γ e.bytes = .ok m) (ho : m.getOperation = .DELETE)
    (hnew : replayOf s m e = none) (heffect : effectOf Γ s.facilities m = .nothing)
    (hnone : ¬Holds s.facilities facilityName bookingId e.userInfo) :
    TellsTruth s e bookingId facilityName (handleRequest Γ s e) := by
  have heffect' : effectOf Γ s.reset.facilities m = .nothing := heffect
  rw [handleRequest_of_new hm (by rw [ho]; decide) hnew]
  rcases execute_cases Γ s.reset m e with ⟨x, hread, _⟩ | ⟨r, last, monitors, sent, _, hanswers, _, _, hrun⟩
  · rw [ho] at hread
    cases hread
  · rw [hrun, heffect']
    rcases hanswers.data with ⟨_, hne⟩ | ⟨⟨message, hdata⟩, _⟩
    · rw [heffect', ho] at hne
      rcases hne with hne | hne
      · exact absurd rfl hne
      · cases hne
    · exact tellsTruth_of_error rfl hdata rfl hnone

/-- The response to a deletion from a facility that is there. -/
theorem dispatch_delete (Γ : Jvm) (ho : m.getOperation = .DELETE) (hparse : parseDelete m.data = .ok (bookingId, facilityName))
    {f : Facility} (hf : getFacility s.facilities facilityName = some f) :
    (dispatch Γ s m e).2 = .ok ⟨Operation.DELETE.getOpCode, m.requestID,
      success (lines [line "bookingID" (orNull (f.availability.removeTimeSlot (some bookingId) e.userInfo).2),
        line "user" e.userInfo])⟩ := by
  simp only [dispatch, ho, deleteBooking, hparse, hf, tryCatch]

/-- The outcome when the facility is there. -/
theorem tellsTruth_of_some (hm : deserializeMessage Γ e.bytes = .ok m) (ho : m.getOperation = .DELETE)
    (hnew : replayOf s m e = none) (hparse : parseDelete m.data = .ok (bookingId, facilityName)) {f : Facility}
    (hf : getFacility s.facilities facilityName = some f) :
    TellsTruth s e bookingId facilityName (handleRequest Γ s e) ↔ Holds s.facilities facilityName bookingId e.userInfo := by
  have hfacilities : (handleRequest Γ s e).state.facilities = modifyFacility s.facilities facilityName (fun f =>
      f.setAvailability (f.availability.removeTimeSlot (some bookingId) e.userInfo).1) := by
    rw [handleRequest_facilities, effect, hm]
    simp only [hnew, Option.isSome_none, Bool.false_eq_true, if_false, effectOf_delete ho hparse, hf, Option.isSome_some, if_true]
    rfl
  have hresult : (handleRequest Γ s e).result = .ok ⟨Operation.DELETE.getOpCode, m.requestID,
      success (lines [line "bookingID" (orNull (f.availability.removeTimeSlot (some bookingId) e.userInfo).2),
        line "user" e.userInfo])⟩ := by
    rw [handleRequest_of_new hm (by rw [ho]; decide) hnew, execute_result]
    exact dispatch_delete Γ ho hparse hf
  constructor
  · rintro ⟨r, hr, hresponse, _⟩
    cases hresult.symm.trans hr
    exact hresponse.1 (says_success rfl)
  · intro hholds
    obtain ⟨day, hday⟩ := (holds_iff hf).1 hholds
    refine ⟨_, hresult, iff_of_true (says_success rfl) hholds, fun _ => ⟨⟨f, _, hf, loses_removed hday, ?_⟩, ?_⟩,
      fun h => absurd hholds h⟩
    · obtain ⟨_, _, _, _, hchange⟩ := getFacility_split hf
      rw [hfacilities, hchange, hchange]
    · rw [Availability.removeTimeSlot_of_some hday]
      rfl

end

/-- A deletion that repeats none tells the truth exactly when the facility is not there or has the booking: of a facility that is
there it says that it deleted a booking whether or not it did. -/
theorem delete_tellsTruth_iff {Γ : Jvm} {checkHistory : Bool} {s : ServerState} (h : Reachable Γ checkHistory s) (e : Event)
    (m : RequestMessage) (bookingId facilityName : Text) (hm : deserializeMessage Γ e.bytes = .ok m)
    (ho : m.getOperation = .DELETE) (hdata : m.data = some (bookingId ++ ',' :: facilityName)) (hid : ',' ∉ bookingId)
    (hname : ',' ∉ facilityName) (hnew : replayOf s m e = none) :
    TellsTruth s e bookingId facilityName (handleRequest Γ s e) ↔
      getFacility s.facilities facilityName = none ∨ Holds s.facilities facilityName bookingId e.userInfo := by
  have hparse := parseDelete_pair hid hname
  rw [← hdata] at hparse
  cases hf : getFacility s.facilities facilityName with
  | none =>
    refine iff_of_true (tellsTruth_of_refused hm ho hnew ?_ (not_holds_of_none hf)) (Or.inl rfl)
    rcases hparse with ⟨_, hparse⟩ | ⟨_, x, hparse⟩
    · rw [effectOf_delete ho hparse, hf]
      rfl
    · simp only [effectOf, asked, ho, hparse]
      rfl
  | some f =>
    rcases hparse with ⟨_, hparse⟩ | ⟨rfl, _⟩
    · rw [tellsTruth_of_some hm ho hnew hparse hf]
      simp only [reduceCtorEq, false_or]
    · exact absurd (name_mem_of_getFacility h hf) (by decide)

/-- Two bookings of one client, and one of another. -/
def threeBookings : List Sending :=
  [⟨5000, ⟨1, 0, some "Weekday1,MONDAY,9,0,10,0".toList⟩, ⟨0, 0⟩⟩,
    ⟨5001, ⟨1, 0, some "Weekday1,MONDAY,11,0,12,0".toList⟩, ⟨0, 1⟩⟩,
    ⟨5000, ⟨1, 1, some "Weekday1,MONDAY,13,0,14,0".toList⟩, ⟨0, 2⟩⟩]

/-- The deletion of the first. -/
def deleteFirst : Sending := ⟨5000, ⟨3, 2, some "00000000-0000-0000-0000-000000000000,Weekday1".toList⟩, ⟨0, 3⟩⟩

/-- The IDs on a day of a facility. -/
def idsOn (facilities : List Facility) (facilityName : Text) (day : DayOfWeek) : Option (List Text) :=
  (getFacility facilities facilityName).map (fun f => (f.availability.bookedSlots day).map Booking.confirmationID)

theorem delete_tellsTruth_iff_first : ∃ s, Reachable openJdk false s ∧
    TellsTruth s deleteFirst.event "00000000-0000-0000-0000-000000000000".toList "Weekday1".toList
      (handleRequest openJdk s deleteFirst.event) ∧
    idsOn s.facilities "Weekday1".toList .MONDAY = some ([⟨0, 0⟩, ⟨0, 1⟩, ⟨0, 2⟩].map UUID.toText) ∧
    idsOn (handleRequest openJdk s deleteFirst.event).state.facilities "Weekday1".toList .MONDAY =
      some ([⟨0, 1⟩, ⟨0, 2⟩].map UUID.toText) := by
  have hs : Reachable openJdk false (serverRun openJdk (.init false) (threeBookings.map Sending.event)) := Machine.Reachable.start.run _
  have hnew := replayOf_atLeastOnce (reachable_checkHistory hs) deleteFirst.message deleteFirst.event
  have hfacilities := @serverRun_sendings openJdk threeBookings (by decide +kernel) (.init false) rfl
  have hm : deserializeMessage openJdk deleteFirst.event.bytes = .ok deleteFirst.message :=
    deserializeMessage_frame openJdk _ (by decide +kernel)
  have hafter := @serverStep_frame openJdk _ deleteFirst.event deleteFirst.message rfl (by decide +kernel) hnew
  have hholds : Holds (Sending.facilities openJdk (ServerState.init false).facilities threeBookings) "Weekday1".toList
      "00000000-0000-0000-0000-000000000000".toList deleteFirst.event.userInfo := by
    have hfirst : ((getFacility (Sending.facilities openJdk (ServerState.init false).facilities threeBookings) "Weekday1".toList).bind
        (fun f => f.availability.ownedDay (some "00000000-0000-0000-0000-000000000000".toList) deleteFirst.event.userInfo)) =
          some .MONDAY := by decide +kernel
    obtain ⟨f, hf, hday⟩ := Option.bind_eq_some_iff.1 hfirst
    exact (holds_iff hf).2 ⟨_, hday⟩
  rw [← hfacilities] at hholds
  refine ⟨_, hs, ?_, ?_, ?_⟩
  · exact (delete_tellsTruth_iff hs _ _ _ _ hm rfl rfl (by decide) (by decide) hnew).2 (Or.inr hholds)
  · rw [hfacilities]
    decide +kernel
  · rw [← serverStep, hafter, hfacilities]
    decide +kernel

/-- A deletion of a booking that was never made. -/
def deleteNothing : RequestMessage := ⟨3, 0, some "00000000-0000-0000-0000-000000000000,Weekday1".toList⟩

theorem deleteNothing_decodes : deserializeMessage openJdk (Event.sent 5000 deleteNothing ⟨0, 1⟩).bytes = .ok deleteNothing :=
  deserializeMessage_frame openJdk deleteNothing fun t ht => by cases ht; decide

/-- Nobody has made a booking at the start. -/
theorem not_holds_init (facilityName bookingId user : Text) : ¬Holds (ServerState.init true).facilities facilityName bookingId user := by
  rintro ⟨f, hf, day, b, hb, _⟩
  have hmem := getFacility_mem hf
  simp only [ServerState.init, List.mem_cons, List.not_mem_nil, or_false] at hmem
  rcases hmem with rfl | rfl | rfl
  · exact absurd hb List.not_mem_nil
  · exact absurd hb List.not_mem_nil
  · exact absurd hb List.not_mem_nil

/-- It is answered as a success. -/
theorem delete_not_tellsTruth :
    ¬∀ checkHistory s, Reachable openJdk checkHistory s → ∀ (e : Event) (m : RequestMessage) (bookingId facilityName : Text),
      deserializeMessage openJdk e.bytes = .ok m → m.getOperation = .DELETE →
      m.data = some (bookingId ++ ',' :: facilityName) → ',' ∉ bookingId → ',' ∉ facilityName → replayOf s m e = none →
      TellsTruth s e bookingId facilityName (handleRequest openJdk s e) := by
  intro h
  obtain ⟨r, hr, hresponse, _⟩ := h true (.init true) .start (.sent 5000 deleteNothing ⟨0, 1⟩) deleteNothing
    "00000000-0000-0000-0000-000000000000".toList "Weekday1".toList deleteNothing_decodes rfl rfl (by decide) (by decide) rfl
  refine not_holds_init _ _ _ (hresponse.1 ?_)
  rw [handleRequest_of_new deleteNothing_decodes (by decide) rfl, execute_result,
    dispatch_delete openJdk rfl (show parseDelete _ = .ok _ from rfl) rfl] at hr
  cases hr
  exact says_success rfl

end FacilityBooking
