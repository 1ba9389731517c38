import FacilityBooking.Effects
import FacilityBooking.Lemmas.JavaCodec

/-!
# Runs of the server

The server as a machine whose inputs are datagrams, the effect of a datagram, and the rule by which an invariant of every
availability is proved: the two operations of a calendar keep it.
-/

namespace FacilityBooking

/-- One datagram: the state `handleRequest` leaves, whether it returns or throws. -/
def serverStep (Γ : Jvm) (s : ServerState) (e : Event) : ServerState := (handleRequest Γ s e).state

/-- The state that a run of the server leads to. An exception ends the loop of `main`, and not such a run; `serve_eq_run` says what the
two have in common. -/
def serverRun (Γ : Jvm) (s : ServerState) (es : List Event) : ServerState := Machine.run (serverStep Γ) s es

/-- The states reachable from `init()`. -/
abbrev Reachable (Γ : Jvm) (checkHistory : Bool) : ServerState → Prop :=
  Machine.Reachable (serverStep Γ) (.init checkHistory)

/-- The effect of a datagram: of the request it holds, unless it is answered from the history. -/
def effect (Γ : Jvm) (s : ServerState) (e : Event) : Effect :=
  match deserializeMessage Γ e.bytes with
  | .error _ => .nothing
  | .ok m => if (replayOf s m e).isSome then .nothing else effectOf Γ s.facilities m

theorem effectOf_echo {Γ : Jvm} {facilities : List Facility} {m : RequestMessage} (h : m.getOperation = .ECHO) :
    effectOf Γ facilities m = .nothing := by rw [effectOf, asked, h]; rfl

theorem effectOf_read {Γ : Jvm} {facilities : List Facility} {m : RequestMessage} (h : m.getOperation = .READ) :
    effectOf Γ facilities m = .nothing := by rw [effectOf, asked, h]; rfl

/-- What a datagram does to the facilities is its effect. -/
theorem handleRequest_facilities (Γ : Jvm) (s : ServerState) (e : Event) :
    (handleRequest Γ s e).state.facilities = (effect Γ s e).onFacilities Γ e s.facilities := by
  have h := handleRequest_handling Γ s e
  generalize handleRequest Γ s e = outcome at h ⊢
  unfold effect
  cases h with
  | undecodable x hm => rw [hm]; rfl
  | echo m hm ho => simp only [hm, effectOf_echo ho, ite_self]; rfl
  | replay m prevRequest hm ho hp => simp only [hm, hp, Option.isSome_some, if_true]; rfl
  | thrown m x hm ho hp hx => simp only [hm, effectOf_read ho, ite_self]; rfl
  | executed m r last monitors sent hm ho hp =>
    simp only [hm, hp, Option.isSome_none, Bool.false_eq_true, if_false]

/-- A datagram never changes the mode. -/
theorem handleRequest_checkHistory (Γ : Jvm) (s : ServerState) (e : Event) :
    (handleRequest Γ s e).state.checkHistory = s.checkHistory := by
  have h := handleRequest_handling Γ s e
  generalize handleRequest Γ s e = outcome at h ⊢
  cases h <;> rfl

/-- The mode never changes. -/
theorem reachable_checkHistory {Γ : Jvm} {checkHistory : Bool} {s : ServerState} (h : Reachable Γ checkHistory s) :
    s.checkHistory = checkHistory := by
  refine h.invariant (fun s => s.checkHistory = checkHistory) rfl fun s e hs => ?_
  rw [serverStep, handleRequest_checkHistory, hs]

/-- The effect of the frame of a message. -/
theorem effect_frame {Γ : Jvm} {s : ServerState} {e : Event} {m : RequestMessage} (hbytes : e.bytes = m.frame)
    (hlength : ∀ t, m.data = some t → (getBytes t).length < 2 ^ 31) :
    effect Γ s e = if (replayOf s m e).isSome then .nothing else effectOf Γ s.facilities m := by
  rw [effect, hbytes, deserializeMessage_frame Γ m hlength]

/-- What is done with the frame of a message that is answered from nowhere else. -/
theorem serverStep_frame {Γ : Jvm} {s : ServerState} {e : Event} {m : RequestMessage} (hbytes : e.bytes = m.frame)
    (hlength : ∀ t, m.data = some t → (getBytes t).length < 2 ^ 31) (hreplay : replayOf s m e = none) :
    (serverStep Γ s e).facilities = (effectOf Γ s.facilities m).onFacilities Γ e s.facilities := by
  rw [serverStep, handleRequest_facilities, effect_frame hbytes hlength, hreplay]
  rfl

/-- An echo is answered by itself. -/
theorem handleRequest_of_echo {Γ : Jvm} {s : ServerState} {e : Event} {m : RequestMessage}
    (hm : deserializeMessage Γ e.bytes = .ok m) (ho : m.getOperation = .ECHO) :
    handleRequest Γ s e = ⟨s.reset, .ok m, []⟩ := by
  simp only [handleRequest, hm, ho, if_true]
  rfl

/-- A repetition is answered by the response of the request it repeats. -/
theorem handleRequest_of_replay {Γ : Jvm} {s : ServerState} {e : Event} {m : RequestMessage} {prevRequest : RequestInfo}
    (hm : deserializeMessage Γ e.bytes = .ok m) (ho : m.getOperation ≠ .ECHO) (hreplay : replayOf s m e = some prevRequest) :
    handleRequest Γ s e = ⟨s.reset, .ok prevRequest.responseMessage, []⟩ := by
  have hreplay' : replayOf { s with lastUpdatedFacility := none } m e = some prevRequest := hreplay
  simp only [handleRequest, hm, ho, if_false, hreplay']
  rfl

/-- A request that is no echo and no repetition is executed. -/
theorem handleRequest_of_new {Γ : Jvm} {s : ServerState} {e : Event} {m : RequestMessage}
    (hm : deserializeMessage Γ e.bytes = .ok m) (ho : m.getOperation ≠ .ECHO) (hreplay : replayOf s m e = none) :
    handleRequest Γ s e = execute Γ s.reset m e := by
  have hreplay' : replayOf { s with lastUpdatedFacility := none } m e = none := hreplay
  simp only [handleRequest, hm, ho, if_false, hreplay']
  rfl

theorem Effect.ifGranted_of_ne {facilities : List Facility} {effect : Effect} (h : effect.ifGranted facilities ≠ .nothing) :
    effect.ifGranted facilities = effect := by
  unfold Effect.ifGranted at h ⊢
  split
  · rfl
  · rename_i hgranted
    rw [if_neg hgranted] at h
    exact absurd rfl h

/-- A datagram that has an effect is a request that is executed, asks for it and is answered by a success. -/
theorem request_of_effect {Γ : Jvm} {s : ServerState} {e : Event} (h : effect Γ s e ≠ .nothing) :
    ∃ m r, deserializeMessage Γ e.bytes = .ok m ∧ replayOf s m e = none ∧ effect Γ s e = asked Γ m ∧
      (handleRequest Γ s e).result = .ok r ∧ r.Says "status:SUCCESS" := by
  have hhandling := handleRequest_handling Γ s e
  generalize handleRequest Γ s e = outcome at hhandling ⊢
  unfold effect at h ⊢
  cases hhandling with
  | undecodable x hm => simp only [hm, ne_eq, not_true_eq_false] at h
  | echo m hm ho => simp only [hm, effectOf_echo ho, ite_self, ne_eq, not_true_eq_false] at h
  | replay m prevRequest hm ho hp => simp only [hm, hp, Option.isSome_some, if_true, ne_eq, not_true_eq_false] at h
  | thrown m x hm ho => simp only [hm, effectOf_read ho, ite_self, ne_eq, not_true_eq_false] at h
  | executed m r last monitors sent hm ho hp hd hr =>
    simp only [hm, hp, Option.isSome_none, Bool.false_eq_true, if_false] at h ⊢
    rcases hr.data with ⟨⟨text, hdata⟩, _⟩ | ⟨_, hnothing⟩
    · exact ⟨m, r, rfl, hp, Effect.ifGranted_of_ne h, rfl, says_success hdata⟩
    · exact absurd hnothing h

/-- A request that is executed and answered by a success has the effect that it asks for, reading and echoing apart. -/
theorem effect_of_success {Γ : Jvm} {s : ServerState} {e : Event} {m r : RequestMessage}
    (hm : deserializeMessage Γ e.bytes = .ok m) (ho : m.getOperation ∉ [Operation.READ, .ECHO]) (hnew : replayOf s m e = none)
    (hresult : (handleRequest Γ s e).result = .ok r) (hsuccess : r.Says "status:SUCCESS") :
    effect Γ s e = asked Γ m ∧ effect Γ s e ≠ .nothing := by
  have heffect : effect Γ s e = effectOf Γ s.facilities m := by
    simp only [effect, hm, hnew, Option.isSome_none, Bool.false_eq_true, if_false]
  have hecho : m.getOperation ≠ .ECHO := fun h => ho (by rw [h]; decide)
  have hread : m.getOperation ≠ .READ := fun h => ho (by rw [h]; decide)
  rw [handleRequest_of_new hm hecho hnew, execute_result] at hresult
  rcases dispatch_cases Γ s.reset m e with ⟨x, hop, _⟩ | ⟨last, r', hanswers, hrun⟩
  · exact absurd hop hread
  · rw [hrun] at hresult
    cases hresult
    rcases hanswers.data with ⟨_, hne | hop⟩ | ⟨⟨message, hmessage⟩, _⟩
    · have hne' : effectOf Γ s.facilities m ≠ .nothing := hne
      exact ⟨heffect.trans (Effect.ifGranted_of_ne hne'), heffect ▸ hne'⟩
    · exact absurd hop hread
    · exact absurd hsuccess (not_says_success hmessage)

/-- A server that does not check its history repeats nothing. -/
theorem replayOf_atLeastOnce {s : ServerState} (h : s.checkHistory = false) (m : RequestMessage) (e : Event) :
    replayOf s m e = none := by
  rw [replayOf, h]
  rfl

/-- A datagram that a client on the local host sends: the frame of a message. -/
def Event.sent (port : Nat) (m : RequestMessage) (uuid : UUID) : Event :=
  ⟨⟨⟨[127, 0, 0, 1], "127.0.0.1".toList⟩, port, m.frame⟩, 0, uuid⟩

/-- A client on a port is the same user whatever it sends. -/
theorem userInfo_sent (port : Nat) (m m' : RequestMessage) (uuid uuid' : UUID) :
    (Event.sent port m uuid).userInfo = (Event.sent port m' uuid').userInfo := rfl

/-- A message that a client on the local host sends, from its port, with the UUID that the server draws for it. -/
structure Sending where
  port : Nat
  message : RequestMessage
  uuid : UUID

def Sending.event (x : Sending) : Event := .sent x.port x.message x.uuid

/-- The data can be written with its length in 32 bits. -/
def Sending.Fits (x : Sending) : Prop := ∀ text ∈ x.message.data, (getBytes text).length < 2 ^ 31

instance (x : Sending) : Decidable x.Fits := inferInstanceAs (Decidable (∀ text ∈ x.message.data, (getBytes text).length < 2 ^ 31))

/-- What messages do in turn to the facilities of a server that repeats nothing. -/
def Sending.facilities (Γ : Jvm) : List Facility → List Sending → List Facility
  | facilities, [] => facilities
  | facilities, x :: xs => Sending.facilities Γ ((effectOf Γ facilities x.message).onFacilities Γ x.event facilities) xs

theorem serverRun_sendings {Γ : Jvm} {xs : List Sending} (hfits : ∀ x ∈ xs, x.Fits) {s : ServerState} (hmode : s.checkHistory = false) :
    (serverRun Γ s (xs.map Sending.event)).facilities = Sending.facilities Γ s.facilities xs := by
  induction xs generalizing s with
  | nil => rfl
  | cons x xs ih =>
    have hmode' : (serverStep Γ s x.event).checkHistory = false := (handleRequest_checkHistory Γ s x.event).trans hmode
    have hrun : serverRun Γ s ((x :: xs).map Sending.event) = serverRun Γ (serverStep Γ s x.event) (xs.map Sending.event) := rfl
    rw [hrun, ih (fun y hy => hfits y (List.mem_cons_of_mem x hy)) hmode', Sending.facilities]
    rw [@serverStep_frame Γ s x.event x.message rfl (hfits x List.mem_cons_self) (replayOf_atLeastOnce hmode _ _)]

/-- Every response in the history of a reachable state is a success or an error. -/
theorem reachable_history {Γ : Jvm} {checkHistory : Bool} {s : ServerState} (h : Reachable Γ checkHistory s) :
    ∀ r ∈ s.requestHistory, (∃ text, r.responseMessage.data = success text) ∨ ∃ message, r.responseMessage.data = error message := by
  refine h.invariant (fun s => ∀ r ∈ s.requestHistory, (∃ text, r.responseMessage.data = success text) ∨
    ∃ message, r.responseMessage.data = error message) (fun _ hr => absurd hr List.not_mem_nil) fun s e hs => ?_
  have h := handleRequest_handling Γ s e
  rw [serverStep]
  generalize handleRequest Γ s e = outcome at h ⊢
  cases h with
  | undecodable => exact hs
  | echo => exact hs
  | replay => exact hs
  | thrown => exact hs
  | executed m r last monitors sent hm ho hp hd hr =>
    intro x hx
    rcases List.mem_append.1 hx with hx | hx
    · exact hs x hx
    · rw [List.mem_singleton] at hx
      subst hx
      exact hr.data.imp And.left And.left

/-- A request that is repeated is one of the history. -/
theorem mem_of_replayOf {s : ServerState} {m : RequestMessage} {e : Event} {prevRequest : RequestInfo}
    (h : replayOf s m e = some prevRequest) : prevRequest ∈ s.requestHistory := by
  unfold replayOf at h
  split at h
  · exact List.mem_of_find?_eq_some h
  · cases h

/-- The key of a request as it arrives. -/
def Event.key (e : Event) (m : RequestMessage) : RequestKey := ⟨m.requestID, e.address.address, e.port⟩

/-- A request that is repeated has the key of the one that repeats it. -/
theorem key_of_replayOf {s : ServerState} {m : RequestMessage} {e : Event} {prevRequest : RequestInfo}
    (h : replayOf s m e = some prevRequest) : prevRequest.key = e.key m := by
  unfold replayOf at h
  split at h
  · have hfound := List.find?_some h
    simp only [Bool.and_eq_true, decide_eq_true_eq] at hfound
    rw [RequestInfo.key, hfound.1, hfound.2.1, hfound.2.2, Event.key]
  · cases h

/-- Where the history is checked, a request that repeats none has a new key. -/
theorem key_notMem_of_replayOf {s : ServerState} {m : RequestMessage} {e : Event} (hmode : s.checkHistory = true)
    (h : replayOf s m e = none) : e.key m ∉ s.requestHistory.map RequestInfo.key := by
  rw [replayOf, if_pos hmode, containsRequest, List.find?_eq_none] at h
  intro hmem
  obtain ⟨r, hr, hkey⟩ := List.mem_map.1 hmem
  rw [RequestInfo.key, Event.key, RequestKey.mk.injEq] at hkey
  refine h r hr ?_
  simp only [hkey.1, hkey.2.1, hkey.2.2, decide_true, Bool.and_self]

/-- Where the history is checked, a request repeats one exactly when its key is in the history. -/
theorem replayOf_eq_none_iff {s : ServerState} {m : RequestMessage} {e : Event} (hmode : s.checkHistory = true) :
    replayOf s m e = none ↔ e.key m ∉ s.requestHistory.map RequestInfo.key := by
  refine ⟨key_notMem_of_replayOf hmode, fun hkey => ?_⟩
  cases hp : replayOf s m e with
  | none => rfl
  | some prevRequest =>
    rw [← key_of_replayOf hp] at hkey
    exact absurd (List.mem_map_of_mem (mem_of_replayOf hp)) hkey

/-- No effect renames a facility. -/
theorem onFacilities_names {Γ : Jvm} {e : Event} (effect : Effect) (facilities : List Facility) :
    (effect.onFacilities Γ e facilities).map Facility.name = facilities.map Facility.name := by
  cases effect with
  | nothing => rfl
  | book booking => exact map_modifyFacility fun _ _ => rfl
  | move booking => exact map_modifyFacility fun _ _ => rfl
  | remove facilityName bookingId => exact map_modifyFacility fun _ _ => rfl
  | rate facilityName rating => exact map_modifyFacility fun _ _ => rfl
  | register facilityName monitorInterval => rfl

/-- The facilities are the three that `init()` makes. -/
theorem reachable_names {Γ : Jvm} {checkHistory : Bool} {s : ServerState} (h : Reachable Γ checkHistory s) :
    s.facilities.map Facility.name = ["Weekday1".toList, "Weekday2".toList, "Weekends".toList] := by
  refine h.invariant (fun s => s.facilities.map Facility.name = ["Weekday1".toList, "Weekday2".toList, "Weekends".toList]) rfl
    fun s e hs => ?_
  rw [serverStep, handleRequest_facilities, onFacilities_names, hs]

theorem reachable_names_nodup {Γ : Jvm} {checkHistory : Bool} {s : ServerState} (h : Reachable Γ checkHistory s) :
    (s.facilities.map Facility.name).Nodup := by
  rw [reachable_names h]
  decide

/-- Their names are ASCII, without a mark that texts are taken apart at and without the letter of a status. -/
theorem reachable_name_chars {Γ : Jvm} {checkHistory : Bool} {s : ServerState} (h : Reachable Γ checkHistory s) {f : Facility}
    (hf : f ∈ s.facilities) : ∀ c ∈ f.name, c.toNat < 128 ∧ c ∉ [',', ':', '\n', 'u'] := by
  have hname : f.name ∈ s.facilities.map Facility.name := List.mem_map_of_mem hf
  rw [reachable_names h] at hname
  simp only [List.mem_cons, List.not_mem_nil, or_false] at hname
  rcases hname with hname | hname | hname <;> rw [hname] <;> exact List.all_iff_forall_prop.1 (by decide)

theorem name_mem_of_getFacility {Γ : Jvm} {checkHistory : Bool} {s : ServerState} (h : Reachable Γ checkHistory s) {name : Text}
    {f : Facility} (hf : getFacility s.facilities name = some f) :
    name ∈ ["Weekday1".toList, "Weekday2".toList, "Weekends".toList] := by
  obtain ⟨_, _, _, hname, _⟩ := getFacility_split hf
  rw [← reachable_names h, ← hname]
  exact List.mem_map_of_mem (getFacility_mem hf)

/-! ## Invariants of availabilities -/

/-- What booking and removing keep, every effect keeps. `C` is what the booking needs of a slot, and what the effect books has
it; removing a booking first leaves it true. -/
theorem forall_onFacilities {P : Availability → Prop} (C : Availability → TimeSlot → Prop)
    (hbook : ∀ a slot confirmationID userInfo, P a → C a slot → P (a.bookTimeSlot confirmationID userInfo slot))
    (hremove : ∀ a prevBookingId userInfo, P a → P (a.removeTimeSlot prevBookingId userInfo).1)
    (hC : ∀ a slot prevBookingId userInfo, C a slot → C (a.removeTimeSlot prevBookingId userInfo).1 slot) {Γ : Jvm}
    {e : Event} {effect : Effect} {facilities : List Facility} (h : ∀ f ∈ facilities, P f.availability)
    (hasked : ∀ booking f, effect.booking? = some booking → getFacility facilities booking.facilityName = some f →
      C f.availability booking.timeSlot) :
    ∀ f ∈ effect.onFacilities Γ e facilities, P f.availability := by
  cases effect with
  | nothing => exact h
  | book booking =>
    exact forall_modifyFacility h fun f hf hP => hbook _ _ _ _ hP (hasked booking f rfl hf)
  | move booking =>
    exact forall_modifyFacility h fun f hf hP =>
      hbook _ _ _ _ (hremove _ _ _ hP) (hC _ _ _ _ (hasked booking f rfl hf))
  | remove facilityName bookingId => exact forall_modifyFacility h fun f _ hP => hremove _ _ _ hP
  | rate facilityName rating => exact forall_modifyFacility h fun f _ hP => hP
  | register facilityName monitorInterval => exact h

/-- The booking an effect makes is granted. -/
theorem grants_of_effect {Γ : Jvm} {s : ServerState} {e : Event} {booking : BookingDetails}
    (h : (effect Γ s e).booking? = some booking) : grants s.facilities booking = true := by
  unfold effect at h
  split at h
  · cases h
  · split at h
    · cases h
    · exact Effect.grants_of_ifGranted h

theorem isAvailable_of_effect {Γ : Jvm} {s : ServerState} {e : Event} {booking : BookingDetails} {f : Facility}
    (h : (effect Γ s e).booking? = some booking) (hf : getFacility s.facilities booking.facilityName = some f) :
    f.availability.isAvailable booking.timeSlot = true := by
  obtain ⟨f', hf', hfree⟩ := grants_iff.1 (grants_of_effect h)
  cases hf.symm.trans hf'
  exact hfree

/-- In every reachable state the availability of every facility shows a calendar. -/
theorem reachable_shows {Γ : Jvm} {checkHistory : Bool} {s : ServerState} (h : Reachable Γ checkHistory s) :
    ∀ f ∈ s.facilities, ∃ C : Calendar, f.availability.Shows C := by
  refine h.invariant (fun s => ∀ f ∈ s.facilities, ∃ C : Calendar, f.availability.Shows C) ?_ fun s e hs => ?_
  · simp only [ServerState.init, List.forall_mem_cons]
    exact ⟨⟨.empty, fun _ => rfl⟩, ⟨.empty, fun _ => rfl⟩, ⟨.empty, fun _ => rfl⟩, fun _ hf => absurd hf List.not_mem_nil⟩
  · rw [serverStep, handleRequest_facilities]
    refine forall_onFacilities (P := fun a => ∃ C : Calendar, a.Shows C) (fun a slot => a.isAvailable slot = true)
      (fun a slot confirmationID userInfo ⟨_, hC⟩ hfree => Availability.bookTimeSlot_shows hC hfree confirmationID userInfo)
      (fun a prevBookingId userInfo ⟨_, hC⟩ => Availability.removeTimeSlot_shows hC prevBookingId userInfo)
      (fun a slot prevBookingId userInfo hfree => Availability.removeTimeSlot_isAvailable hfree prevBookingId userInfo)
      hs fun booking f hbooking hf => isAvailable_of_effect hbooking hf

end FacilityBooking
