import FacilityBooking.Lib.Machine
import FacilityBooking.Server.Server
import FacilityBooking.Lemmas.Store

/-!
# What a request does

The abstract server: a request either does nothing or has one effect, on the facilities or on the monitors. `dispatch_handles`
and `handleRequest_handling` are the refinement: what each branch of the code leaves is its effect, and its response is a success
exactly when it has one, reading apart.
-/

namespace FacilityBooking

/-- What a request does to the facilities and the monitors. -/
inductive Effect where
  | nothing
  | book (booking : BookingDetails)
  | move (booking : BookingDetails)
  | remove (facilityName bookingId : Text)
  | rate (facilityName : Text) (rating : Double)
  | register (facilityName : Text) (monitorInterval : Int)

namespace Effect

/-- The effect on the facilities. -/
def onFacilities (Γ : Jvm) (e : Event) : Effect → List Facility → List Facility
  | .book booking, facilities =>
    modifyFacility facilities booking.facilityName (fun facility =>
      facility.setAvailability (facility.availability.bookTimeSlot e.uuid.toText e.userInfo booking.timeSlot))
  | .move booking, facilities =>
    modifyFacility facilities booking.facilityName (fun facility =>
      facility.setAvailability ((facility.availability.removeTimeSlot booking.prevBookingId e.userInfo).1.bookTimeSlot
        e.uuid.toText e.userInfo booking.timeSlot))
  | .remove facilityName bookingId, facilities =>
    modifyFacility facilities facilityName (fun facility =>
      facility.setAvailability (facility.availability.removeTimeSlot (some bookingId) e.userInfo).1)
  | .rate facilityName rating, facilities =>
    modifyFacility facilities facilityName (fun facility => facility.addRating Γ rating)
  | _, facilities => facilities

/-- The effect on the monitors. -/
def onMonitors (m : RequestMessage) (e : Event) : Effect → List Monitor → List Monitor
  | .register facilityName monitorInterval, monitors =>
    monitors ++ [⟨facilityName, m.requestID, e.address, e.port, e.now, BitVec.ofInt 32 monitorInterval⟩]
  | _, monitors => monitors

/-- The booking an effect makes. -/
def booking? : Effect → Option BookingDetails
  | .book booking => some booking
  | .move booking => some booking
  | _ => none

end Effect

/-- The facility asked for is there and the slot asked for is free. -/
def grants (facilities : List Facility) (booking : BookingDetails) : Bool :=
  match getFacility facilities booking.facilityName with
  | some facility => facility.availability.isAvailable booking.timeSlot
  | none => false

theorem grants_iff {facilities : List Facility} {booking : BookingDetails} :
    grants facilities booking = true ↔
      ∃ f, getFacility facilities booking.facilityName = some f ∧ f.availability.isAvailable booking.timeSlot = true := by
  unfold grants
  cases getFacility facilities booking.facilityName with
  | none => simp
  | some f => simp

/-- An effect is granted when its facility is there and the slot it books is free. -/
def Effect.granted (facilities : List Facility) : Effect → Bool
  | .nothing => true
  | .book booking => grants facilities booking
  | .move booking => grants facilities booking
  | .remove facilityName _ => (getFacility facilities facilityName).isSome
  | .rate facilityName _ => (getFacility facilities facilityName).isSome
  | .register facilityName _ => (getFacility facilities facilityName).isSome

/-- The effect, if it is granted. -/
def Effect.ifGranted (facilities : List Facility) (effect : Effect) : Effect :=
  if effect.granted facilities then effect else .nothing

/-- The effect an UPDATE asks for. -/
def askedUpdate (Γ : Jvm) (data : Option Text) : Effect :=
  match parseUpdateType data with
  | .error _ => .nothing
  | .ok updateType =>
    if updateType = "booking".toList then
      match parseUpdateBookingDetails Γ data with
      | .ok booking => .move booking
      | .error _ => .nothing
    else if updateType = "rating".toList then
      match parseRating Γ data with
      | .ok (facilityName, rating) => .rate facilityName rating
      | .error _ => .nothing
    else .nothing

/-- The effect a MONITOR asks for. -/
def askedMonitor (Γ : Jvm) (data : Option Text) : Effect :=
  match splitData data with
  | .error _ => .nothing
  | .ok parts =>
    if parts.length ≠ 1 ∧ parts[0]? = some "register".toList then
      match parseRegistration Γ parts with
      | .ok (facilityName, monitorInterval) => .register facilityName monitorInterval
      | .error _ => .nothing
    else .nothing

/-- The effect a request asks for: what its data says, whatever the state. -/
def asked (Γ : Jvm) (m : RequestMessage) : Effect :=
  match m.getOperation with
  | .WRITE =>
    match parseBookingDetails Γ m.data with
    | .ok booking => .book booking
    | .error _ => .nothing
  | .UPDATE => askedUpdate Γ m.data
  | .DELETE =>
    match parseDelete m.data with
    | .ok (bookingId, facilityName) => .remove facilityName bookingId
    | .error _ => .nothing
  | .MONITOR => askedMonitor Γ m.data
  | _ => .nothing

/-- The effect of a request that is executed. -/
def effectOf (Γ : Jvm) (facilities : List Facility) (m : RequestMessage) : Effect := (asked Γ m).ifGranted facilities

/-- What a request asks for: nothing, or what its operation and its data are read as. -/
inductive Asking (Γ : Jvm) (m : RequestMessage) : Effect → Prop
  | nothing : Asking Γ m .nothing
  | book (booking : BookingDetails) (ho : m.getOperation = .WRITE) (hparse : parseBookingDetails Γ m.data = .ok booking) :
    Asking Γ m (.book booking)
  | move (booking : BookingDetails) (ho : m.getOperation = .UPDATE) (htype : parseUpdateType m.data = .ok "booking".toList)
    (hparse : parseUpdateBookingDetails Γ m.data = .ok booking) : Asking Γ m (.move booking)
  | remove (facilityName bookingId : Text) (ho : m.getOperation = .DELETE)
    (hparse : parseDelete m.data = .ok (bookingId, facilityName)) : Asking Γ m (.remove facilityName bookingId)
  | rate (facilityName : Text) (rating : Double) (ho : m.getOperation = .UPDATE)
    (htype : parseUpdateType m.data = .ok "rating".toList) : Asking Γ m (.rate facilityName rating)
  | register (facilityName : Text) (monitorInterval : Int) (ho : m.getOperation = .MONITOR) :
    Asking Γ m (.register facilityName monitorInterval)

theorem asking (Γ : Jvm) (m : RequestMessage) : Asking Γ m (asked Γ m) := by
  unfold asked
  cases ho : m.getOperation with
  | WRITE =>
    dsimp only
    cases hparse : parseBookingDetails Γ m.data with
    | error x => exact .nothing
    | ok booking => exact .book booking ho hparse
  | UPDATE =>
    dsimp only
    unfold askedUpdate
    cases htype : parseUpdateType m.data with
    | error x => exact .nothing
    | ok updateType =>
      dsimp only
      split_ifs with hbooking hrating
      · cases hparse : parseUpdateBookingDetails Γ m.data with
        | error x => exact .nothing
        | ok booking => exact .move booking ho (hbooking ▸ htype) hparse
      · cases parseRating Γ m.data with
        | error x => exact .nothing
        | ok p => exact .rate p.1 p.2 ho (hrating ▸ htype)
      · exact .nothing
  | DELETE =>
    dsimp only
    cases hparse : parseDelete m.data with
    | error x => exact .nothing
    | ok p => exact .remove p.2 p.1 ho hparse
  | MONITOR =>
    dsimp only
    unfold askedMonitor
    cases splitData m.data with
    | error x => exact .nothing
    | ok parts =>
      dsimp only
      split_ifs
      · cases parseRegistration Γ parts with
        | error x => exact .nothing
        | ok p => exact .register p.1 p.2 ho
      · exact .nothing
  | NONE => exact .nothing
  | READ => exact .nothing
  | ECHO => exact .nothing
  | RATING => exact .nothing

/-- A booking is made only where it is granted. -/
theorem Effect.grants_of_ifGranted {facilities : List Facility} {effect : Effect} {booking : BookingDetails}
    (h : (effect.ifGranted facilities).booking? = some booking) : grants facilities booking = true := by
  unfold ifGranted at h
  split at h
  · rename_i hg
    cases effect <;> cases h <;> exact hg
  · cases h

/-! ## The handlers -/

/-- A handler that has an effect leaves it and answers a success; one that has none changes nothing and answers an error or
throws. The facility last updated is left open. -/
structure Handles (Γ : Jvm) (s : ServerState) (m : RequestMessage) (e : Event) (effect : Effect) (handled : Handled) :
    Prop where
  state : ∃ last, handled.1 = { s with
    facilities := effect.onFacilities Γ e s.facilities
    monitors := effect.onMonitors m e s.monitors
    lastUpdatedFacility := last }
  response : ∀ r, handled.2 = .ok r → r.requestID = m.requestID ∧
    ((effect ≠ .nothing ∧ ∃ text, r.data = success text) ∨ (effect = .nothing ∧ ∃ message, r.data = error message))
  thrown : ∀ x, handled.2 = .error x → effect = .nothing

namespace Handles

variable {Γ : Jvm} {s : ServerState} {m : RequestMessage} {e : Event}

/-- A handler that throws before it changes anything. -/
theorem throws (x : JavaException) : Handles Γ s m e .nothing (s, .error x) := by
  refine ⟨⟨s.lastUpdatedFacility, rfl⟩, ?_, fun _ _ => rfl⟩
  intro r h
  cases h

/-- A handler that refuses. -/
theorem refuses (last : Option Text) (op : BitVec 32) (message : Text) :
    Handles Γ s m e .nothing ({ s with lastUpdatedFacility := last }, .ok ⟨op, m.requestID, error message⟩) := by
  refine ⟨⟨last, rfl⟩, ?_, ?_⟩
  · intro r h
    cases h
    exact ⟨rfl, Or.inr ⟨rfl, message, rfl⟩⟩
  · intro x h
    cases h

/-- A handler that does what it is asked. -/
theorem does (effect : Effect) (hne : effect ≠ .nothing) (last : Option Text) (op : BitVec 32) (text : Text) :
    Handles Γ s m e effect ({ s with
      facilities := effect.onFacilities Γ e s.facilities
      monitors := effect.onMonitors m e s.monitors
      lastUpdatedFacility := last }, .ok ⟨op, m.requestID, success text⟩) := by
  refine ⟨⟨last, rfl⟩, ?_, ?_⟩
  · intro r h
    cases h
    exact ⟨rfl, Or.inl ⟨hne, text, rfl⟩⟩
  · intro x h
    cases h

/-- A caught exception is an error response. -/
theorem caught {effect : Effect} {handled : Handled} (op : Operation) (h : Handles Γ s m e effect handled) :
    Handles Γ s m e effect (tryCatch Γ op m handled) := by
  obtain ⟨s', result⟩ := handled
  cases result with
  | ok r => exact h
  | error x =>
    refine ⟨h.state, ?_, ?_⟩
    · intro r hr
      cases hr
      exact ⟨rfl, Or.inr ⟨h.thrown x rfl, _, rfl⟩⟩
    · intro x' hx'
      cases hx'

end Handles

open Handles

section Handlers

variable (Γ : Jvm) (s : ServerState) (m : RequestMessage) (e : Event)

/-- `bookFacility` books what is granted. -/
theorem bookFacility_handles :
    Handles Γ s m e (Effect.ifGranted s.facilities (match parseBookingDetails Γ m.data with
      | .ok booking => .book booking
      | .error _ => .nothing)) (bookFacility Γ s m e) := by
  unfold bookFacility
  cases parseBookingDetails Γ m.data with
  | error x => exact throws x
  | ok booking =>
    cases hf : getFacility s.facilities booking.facilityName with
    | none =>
      simp only [Effect.ifGranted, Effect.granted, grants, hf, Bool.false_eq_true, if_false]
      exact refuses s.lastUpdatedFacility _ _
    | some facility =>
      cases ha : facility.availability.isAvailable booking.timeSlot with
      | true =>
        simp only [Effect.ifGranted, Effect.granted, grants, hf, ha, if_true]
        exact does (.book booking) (fun h => by cases h) _ _ _
      | false =>
        simp only [Effect.ifGranted, Effect.granted, grants, hf, ha, Bool.false_eq_true, if_false]
        exact refuses _ _ _

/-- `updateBooking` moves what is granted. -/
theorem updateBooking_handles :
    Handles Γ s m e (Effect.ifGranted s.facilities (match parseUpdateBookingDetails Γ m.data with
      | .ok booking => .move booking
      | .error _ => .nothing)) (updateBooking Γ s m e) := by
  unfold updateBooking
  cases parseUpdateBookingDetails Γ m.data with
  | error x => exact throws x
  | ok booking =>
    cases hf : getFacility s.facilities booking.facilityName with
    | none =>
      simp only [Effect.ifGranted, Effect.granted, grants, hf, Bool.false_eq_true, if_false]
      exact refuses s.lastUpdatedFacility _ _
    | some facility =>
      cases ha : facility.availability.isAvailable booking.timeSlot with
      | true =>
        simp only [Effect.ifGranted, Effect.granted, grants, hf, ha, if_true]
        exact does (.move booking) (fun h => by cases h) _ _ _
      | false =>
        simp only [Effect.ifGranted, Effect.granted, grants, hf, ha, Bool.false_eq_true, if_false]
        exact refuses _ _ _

/-- `addRating` rates a facility that is there. -/
theorem addRating_handles :
    Handles Γ s m e (Effect.ifGranted s.facilities (match parseRating Γ m.data with
      | .ok (facilityName, rating) => .rate facilityName rating
      | .error _ => .nothing)) (addRating Γ s m e) := by
  unfold addRating
  cases parseRating Γ m.data with
  | error x => exact throws x
  | ok p =>
    cases hf : getFacility s.facilities p.1 with
    | none =>
      simp only [Effect.ifGranted, Effect.granted, hf, Option.isSome_none, Bool.false_eq_true, if_false]
      exact throws _
    | some facility =>
      simp only [Effect.ifGranted, Effect.granted, hf, Option.isSome_some, if_true]
      exact does (.rate p.1 p.2) (fun h => by cases h) s.lastUpdatedFacility _ _

/-- The block of `UPDATE` has the effect of its kind. -/
theorem update_handles : Handles Γ s m e ((askedUpdate Γ m.data).ifGranted s.facilities) (update Γ s m e) := by
  unfold askedUpdate update
  cases parseUpdateType m.data with
  | error x => exact throws x
  | ok updateType =>
    by_cases hb : updateType = "booking".toList
    · simp only [hb, if_true]
      exact updateBooking_handles Γ s m e
    · by_cases hr : updateType = "rating".toList
      · simp only [hr, if_true]
        exact addRating_handles Γ s m e
      · simp only [hb, hr, if_false]
        exact refuses s.lastUpdatedFacility _ _

/-- `deleteBooking` removes from a facility that is there. -/
theorem deleteBooking_handles :
    Handles Γ s m e (Effect.ifGranted s.facilities (match parseDelete m.data with
      | .ok (bookingId, facilityName) => .remove facilityName bookingId
      | .error _ => .nothing)) (deleteBooking s m e) := by
  unfold deleteBooking
  cases parseDelete m.data with
  | error x => exact throws x
  | ok p =>
    cases hf : getFacility s.facilities p.2 with
    | none =>
      simp only [Effect.ifGranted, Effect.granted, hf, Option.isSome_none, Bool.false_eq_true, if_false]
      exact refuses s.lastUpdatedFacility _ _
    | some facility =>
      simp only [Effect.ifGranted, Effect.granted, hf, Option.isSome_some, if_true]
      exact does (.remove p.2 p.1) (fun h => by cases h) _ _ _

/-- The block of `MONITOR` registers for a facility that is there. -/
theorem monitor_handles : Handles Γ s m e ((askedMonitor Γ m.data).ifGranted s.facilities) (monitor Γ s m e) := by
  unfold askedMonitor monitor
  cases splitData m.data with
  | error x => exact throws x
  | ok parts =>
    by_cases hl : parts.length = 1
    · simp only [hl, if_true, ne_eq, not_true_eq_false, false_and, if_false]
      exact refuses s.lastUpdatedFacility _ _
    · cases h0 : parts[0]? with
      | none =>
        simp only [hl, if_false, getIndex, h0, reduceCtorEq, and_false]
        exact throws _
      | some kind =>
        by_cases hk : kind = "register".toList
        · simp only [hl, if_false, getIndex, h0, hk, if_true, ne_eq, not_false_eq_true, and_self]
          cases parseRegistration Γ parts with
          | error x => exact throws x
          | ok p =>
            cases hf : getFacility s.facilities p.1 with
            | none =>
              simp only [Effect.ifGranted, Effect.granted, hf, Option.isSome_none, Bool.false_eq_true, if_false]
              exact refuses s.lastUpdatedFacility _ _
            | some facility =>
              simp only [Effect.ifGranted, Effect.granted, hf, Option.isSome_some, if_true]
              exact does (.register p.1 p.2) (fun h => by cases h) s.lastUpdatedFacility _ _
        · simp only [hl, if_false, getIndex, h0, hk, Option.some.injEq, and_false]
          exact refuses s.lastUpdatedFacility _ _

/-- Every case of the `switch` but `READ` has the effect of the request. -/
theorem dispatch_handles (h : m.getOperation ≠ .READ) : Handles Γ s m e (effectOf Γ s.facilities m) (dispatch Γ s m e) := by
  unfold effectOf asked dispatch
  cases ho : m.getOperation with
  | READ => exact absurd ho h
  | WRITE => exact (bookFacility_handles Γ s m e).caught _
  | UPDATE => exact (update_handles Γ s m e).caught _
  | DELETE => exact (deleteBooking_handles Γ s m e).caught _
  | MONITOR => exact (monitor_handles Γ s m e).caught _
  | NONE => exact refuses s.lastUpdatedFacility _ _
  | ECHO => exact refuses s.lastUpdatedFacility _ _
  | RATING => exact refuses s.lastUpdatedFacility _ _

/-- A caught block answers. -/
theorem tryCatch_answers (op : Operation) (handled : Handled) : ∃ r, (tryCatch Γ op m handled).2 = .ok r := by
  obtain ⟨s', result⟩ := handled
  cases result with
  | ok r => exact ⟨r, rfl⟩
  | error x => exact ⟨_, rfl⟩

/-- Every case of the `switch` but `READ` answers. -/
theorem dispatch_answers (h : m.getOperation ≠ .READ) : ∃ r, (dispatch Γ s m e).2 = .ok r := by
  unfold dispatch
  split
  · rename_i ho
    exact absurd ho h
  · exact tryCatch_answers Γ m _ _
  · exact tryCatch_answers Γ m _ _
  · exact tryCatch_answers Γ m _ _
  · exact tryCatch_answers Γ m _ _
  · exact ⟨_, rfl⟩

end Handlers

/-! ## Reading -/

/-- A `READ` whose data has at least two pieces. -/
theorem readData_of_split {Γ : Jvm} {facilities : List Facility} {text kind name : Text} {rest : List Text}
    (h : split text = kind :: name :: rest) : readData Γ facilities (some text) =
      if kind = "facility".toList then
        if name = "ALL".toList then
          .ok (success (line "facilityNames" (facilities.flatMap (fun facility => facility.name ++ [',']))))
        else (rest.mapM DayOfWeek.valueOf).map (formatFacilityAvailability facilities name)
      else if kind = "booking".toList then
        .ok (match findBooking facilities name with
          | some (facility, bookingInfo) => success (bookingText facility bookingInfo)
          | none => error "Booking not found".toList)
      else if kind = "rating".toList then
        .ok (match getFacility facilities name with
          | some facility => getRating Γ facility
          | none => error "Facility not found".toList)
      else .ok (error "Invalid request format".toList) := by
  have hlength : (kind :: name :: rest).length ≠ 1 := by simp
  have bind_ok : ∀ {α β : Type} (a : α) (f : α → Java β), (Except.ok a >>= f) = f a := fun _ _ => rfl
  simp only [readData, splitData, h, hlength, bind_ok, if_false, getIndex, List.getElem?_cons_zero, List.getElem?_cons_succ,
    List.drop_succ_cons, List.drop_zero]
  split_ifs
  · rfl
  · cases rest.mapM DayOfWeek.valueOf <;> rfl
  · cases findBooking facilities name <;> rfl
  · cases getFacility facilities name <;> rfl
  · rfl

/-- A `READ` of one piece is answered, and one of no piece throws. -/
theorem readData_of_single {Γ : Jvm} {facilities : List Facility} {text piece : Text} (h : split text = [piece]) :
    readData Γ facilities (some text) = .ok (error "Invalid request format".toList) := by
  simp only [readData, splitData, h]
  rfl

theorem readData_of_empty {Γ : Jvm} {facilities : List Facility} {text : Text} (h : split text = []) :
    readData Γ facilities (some text) = .error (.arrayIndexOutOfBounds 0 0) := by
  simp only [readData, splitData, h]
  rfl

/-- What a `READ` that does not throw answers is a success or an error. -/
theorem readData_answers {Γ : Jvm} {facilities : List Facility} {data d : Option Text}
    (h : readData Γ facilities data = .ok d) : (∃ text, d = success text) ∨ ∃ message, d = error message := by
  cases data with
  | none => cases h
  | some text =>
    cases hs : split text with
    | nil =>
      rw [readData_of_empty hs] at h
      cases h
    | cons kind parts =>
      cases parts with
      | nil =>
        rw [readData_of_single hs] at h
        cases h
        exact Or.inr ⟨_, rfl⟩
      | cons name rest =>
        rw [readData_of_split hs] at h
        split_ifs at h
        · cases h
          exact Or.inl ⟨_, rfl⟩
        · cases hd : rest.mapM DayOfWeek.valueOf with
          | error x =>
            rw [hd] at h
            cases h
          | ok days =>
            rw [hd] at h
            cases h
            unfold formatFacilityAvailability
            split
            · exact Or.inl ⟨_, rfl⟩
            · exact Or.inr ⟨_, rfl⟩
        · cases h
          split
          · exact Or.inl ⟨_, rfl⟩
          · exact Or.inr ⟨_, rfl⟩
        · cases h
          split
          · exact Or.inl ⟨_, rfl⟩
          · exact Or.inr ⟨_, rfl⟩
        · cases h
          exact Or.inr ⟨_, rfl⟩

/-! ## Responses -/

/-- A response says so when its data starts with it. -/
def RequestMessage.Says (r : RequestMessage) (status : String) : Prop := startsWith (orNull r.data) status.toList = true

instance (r : RequestMessage) (status : String) : Decidable (r.Says status) := inferInstanceAs (Decidable (_ = true))

theorem says_success {r : RequestMessage} {text : Text} (h : r.data = success text) : r.Says "status:SUCCESS" := by
  simp [RequestMessage.Says, startsWith, h, success, orNull]

theorem says_error {r : RequestMessage} {message : Text} (h : r.data = error message) : r.Says "status:ERROR" := by
  simp [RequestMessage.Says, startsWith, h, error, orNull]

theorem not_says_error {r : RequestMessage} {text : Text} (h : r.data = success text) : ¬r.Says "status:ERROR" := by
  simp [RequestMessage.Says, startsWith, h, success, orNull]

theorem not_says_success {r : RequestMessage} {message : Text} (h : r.data = error message) : ¬r.Says "status:SUCCESS" := by
  simp [RequestMessage.Says, startsWith, h, error, orNull]

/-! ## Requests -/

/-- The response to a request that is executed: a success when it has an effect or reads, an error when it has none. -/
structure Answers (m : RequestMessage) (effect : Effect) (r : RequestMessage) : Prop where
  requestID : r.requestID = m.requestID
  data : (∃ text, r.data = success text) ∧ (effect ≠ .nothing ∨ m.getOperation = .READ) ∨
    (∃ message, r.data = error message) ∧ effect = .nothing

/-- A notification, as `notifyAll` sends it. -/
def IsNotification (d : Datagram) : Prop :=
  ∃ message, d.bytes = getBytes (RequestMessage.toText ⟨Operation.READ.getOpCode, 0, some message⟩)

/-- What `handleRequest` does with a datagram. -/
inductive Handling (Γ : Jvm) (s : ServerState) (e : Event) : Outcome → Prop
  | undecodable (x : JavaException) (hm : deserializeMessage Γ e.bytes = .error x) :
    Handling Γ s e ⟨s.reset, .ok badRequest, []⟩
  | echo (m : RequestMessage) (hm : deserializeMessage Γ e.bytes = .ok m) (ho : m.getOperation = .ECHO) :
    Handling Γ s e ⟨s.reset, .ok m, []⟩
  | replay (m : RequestMessage) (prevRequest : RequestInfo) (hm : deserializeMessage Γ e.bytes = .ok m)
    (ho : m.getOperation ≠ .ECHO) (hp : replayOf s m e = some prevRequest) :
    Handling Γ s e ⟨s.reset, .ok prevRequest.responseMessage, []⟩
  | thrown (m : RequestMessage) (x : JavaException) (hm : deserializeMessage Γ e.bytes = .ok m)
    (ho : m.getOperation = .READ) (hp : replayOf s m e = none) (hx : readData Γ s.facilities m.data = .error x) :
    Handling Γ s e ⟨s.reset, .error x, []⟩
  | executed (m r : RequestMessage) (last : Option Text) (monitors : List Monitor) (sent : List Datagram)
    (hm : deserializeMessage Γ e.bytes = .ok m) (ho : m.getOperation ≠ .ECHO) (hp : replayOf s m e = none)
    (hd : (dispatch Γ s.reset m e).2 = .ok r) (hr : Answers m (effectOf Γ s.facilities m) r)
    (hmon : monitors = (effectOf Γ s.facilities m).onMonitors m e s.monitors ∨
      monitors = removeExpiredMonitors ((effectOf Γ s.facilities m).onMonitors m e s.monitors) e.now)
    (hsent : ∀ d ∈ sent, IsNotification d) :
    Handling Γ s e ⟨{ s with
      facilities := (effectOf Γ s.facilities m).onFacilities Γ e s.facilities
      monitors := monitors
      requestHistory := s.requestHistory ++ [⟨m, e.address, e.port, r⟩]
      lastUpdatedFacility := last }, .ok r, sent⟩

/-- What is sent to monitors are notifications. -/
theorem isNotification_of_mem_notifyAll {monitors : List Monitor} {facilityName message : Text} {d : Datagram}
    (h : d ∈ notifyAll monitors facilityName message) : IsNotification d := by
  obtain ⟨_, _, rfl⟩ := List.mem_map.1 h
  exact ⟨message, rfl⟩

/-- The last block of `handleRequest` may remove expired monitors and sends notifications. -/
theorem notifyMonitors_cases (s : ServerState) (m : RequestMessage) (now : BitVec 64) :
    ∃ monitors, (monitors = s.monitors ∨ monitors = removeExpiredMonitors s.monitors now) ∧
      (notifyMonitors s m now).1 = { s with monitors := monitors } ∧
      ∀ d ∈ (notifyMonitors s m now).2, IsNotification d := by
  unfold notifyMonitors
  split
  · exact ⟨s.monitors, Or.inl rfl, rfl, List.forall_mem_nil _⟩
  · split
    · refine ⟨removeExpiredMonitors s.monitors now, Or.inr rfl, ?_⟩
      dsimp only
      split
      · split
        · exact ⟨rfl, List.forall_mem_nil _⟩
        · exact ⟨rfl, fun d hd => isNotification_of_mem_notifyAll hd⟩
      · exact ⟨rfl, List.forall_mem_nil _⟩
    · exact ⟨s.monitors, Or.inl rfl, rfl, List.forall_mem_nil _⟩

/-- What is done after the `switch` changes nothing in what it returns. -/
theorem execute_result (Γ : Jvm) (s : ServerState) (m : RequestMessage) (e : Event) :
    (execute Γ s m e).result = (dispatch Γ s m e).2 := by
  unfold execute
  split <;> rename_i h <;> rw [h]

/-- What the `switch` leaves: the effect of the request, and a response, or the exception of a `READ`. -/
theorem dispatch_cases (Γ : Jvm) (s : ServerState) (m : RequestMessage) (e : Event) :
    (∃ x, m.getOperation = .READ ∧ readData Γ s.facilities m.data = .error x ∧ dispatch Γ s m e = (s, .error x)) ∨
    ∃ last r, Answers m (effectOf Γ s.facilities m) r ∧
      dispatch Γ s m e = ({ s with
        facilities := (effectOf Γ s.facilities m).onFacilities Γ e s.facilities
        monitors := (effectOf Γ s.facilities m).onMonitors m e s.monitors
        lastUpdatedFacility := last }, .ok r) := by
  by_cases ho : m.getOperation = .READ
  · have heffect : effectOf Γ s.facilities m = .nothing := by rw [effectOf, asked, ho]; rfl
    cases hd : readData Γ s.facilities m.data with
    | error x => exact Or.inl ⟨x, ho, rfl, by rw [dispatch, ho, hd]; rfl⟩
    | ok d =>
      refine Or.inr ⟨s.lastUpdatedFacility, ⟨Operation.READ.getOpCode, m.requestID, d⟩, ⟨rfl, ?_⟩, ?_⟩
      · rcases readData_answers hd with ⟨text, rfl⟩ | ⟨message, rfl⟩
        · exact Or.inl ⟨⟨text, rfl⟩, Or.inr ho⟩
        · exact Or.inr ⟨⟨message, rfl⟩, heffect⟩
      · rw [heffect, dispatch, ho, hd]
        rfl
  · have h := dispatch_handles Γ s m e ho
    obtain ⟨last, hstate⟩ := h.state
    obtain ⟨r, hresult⟩ := dispatch_answers Γ s m e ho
    obtain ⟨hid, hdata⟩ := h.response r hresult
    refine Or.inr ⟨last, r, ⟨hid, ?_⟩, Prod.ext hstate hresult⟩
    rcases hdata with ⟨hne, htext⟩ | ⟨heq, hmessage⟩
    · exact Or.inl ⟨htext, Or.inl hne⟩
    · exact Or.inr ⟨hmessage, heq⟩

/-- What executing a request leaves: nothing but the exception of a `READ`, or the effect of the request and its response. -/
theorem execute_cases (Γ : Jvm) (s : ServerState) (m : RequestMessage) (e : Event) :
    (∃ x, m.getOperation = .READ ∧ readData Γ s.facilities m.data = .error x ∧ execute Γ s m e = ⟨s, .error x, []⟩) ∨
    ∃ r last monitors sent, (dispatch Γ s m e).2 = .ok r ∧ Answers m (effectOf Γ s.facilities m) r ∧
      (monitors = (effectOf Γ s.facilities m).onMonitors m e s.monitors ∨
        monitors = removeExpiredMonitors ((effectOf Γ s.facilities m).onMonitors m e s.monitors) e.now) ∧
      (∀ d ∈ sent, IsNotification d) ∧
      execute Γ s m e = ⟨{ s with
        facilities := (effectOf Γ s.facilities m).onFacilities Γ e s.facilities
        monitors := monitors
        requestHistory := s.requestHistory ++ [⟨m, e.address, e.port, r⟩]
        lastUpdatedFacility := last }, .ok r, sent⟩ := by
  unfold execute
  rcases dispatch_cases Γ s m e with ⟨x, hr, hx, hd⟩ | ⟨last, r, hr, hd⟩
  · rw [hd]
    exact Or.inl ⟨x, hr, hx, rfl⟩
  · rw [hd]
    obtain ⟨monitors, hmon, hstate, hsent⟩ := notifyMonitors_cases _ m e.now
    dsimp only
    rw [hstate]
    exact Or.inr ⟨r, last, monitors, _, rfl, hr, hmon, hsent, rfl⟩

/-- The refinement: every datagram is handled in one of the five ways. -/
theorem handleRequest_handling (Γ : Jvm) (s : ServerState) (e : Event) : Handling Γ s e (handleRequest Γ s e) := by
  unfold handleRequest
  cases hm : deserializeMessage Γ e.bytes with
  | error x => exact .undecodable x hm
  | ok m =>
    by_cases ho : m.getOperation = .ECHO
    · simp only [ho, if_true]
      exact .echo m hm ho
    · simp only [ho, if_false]
      cases hp : replayOf { s with lastUpdatedFacility := none } m e with
      | some prevRequest => exact .replay m prevRequest hm ho hp
      | none =>
        dsimp only
        rcases execute_cases Γ s.reset m e with ⟨x, hr, hx, hrun⟩ | ⟨r, last, monitors, sent, hd, hr, hmon, hsent, hrun⟩
        · exact hrun ▸ .thrown m x hm hr hp hx
        · exact hrun ▸ .executed m r last monitors sent hm ho hp hd hr hmon hsent

end FacilityBooking
