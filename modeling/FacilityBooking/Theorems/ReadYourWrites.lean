import FacilityBooking.Lemmas.Split
import FacilityBooking.Lemmas.Stored
import FacilityBooking.Lemmas.Texts
import FacilityBooking.Theorems.Update

/-!
# Reading what was written

A booking that a `WRITE` or an `UPDATE` reports is what a `READ` of its ID reports, until its user removes it. No two bookings have
an ID in common, because the IDs are the UUIDs drawn, and nothing else removes a booking.
-/

namespace FacilityBooking

/-! ## What is written and what is read -/

/-- What the responses report of a booking. -/
structure Report where
  bookingID : Text
  user : Text
  facility : Text
  day : Text
  startTime : Text
  endTime : Text
deriving DecidableEq

/-- The lines below the ID. -/
def Report.fields (p : Report) : List Text :=
  [line "user" p.user, line "facility" p.facility, line "day" p.day, line "startTime" p.startTime, line "endTime" p.endTime]

/-- The response to a `WRITE` or an `UPDATE` that reports a new booking. -/
def RequestMessage.Reports (r : RequestMessage) (p : Report) : Prop :=
  r.data = success (lines (line "bookingID" p.bookingID :: p.fields)) ∨
    ∃ old, r.data = success (lines (line "oldBookingID" old :: line "newBookingID" p.bookingID :: p.fields) ++ ['\n'])

/-- What a `READ` reports of the booking. -/
def Report.readData (p : Report) : Option Text := success (lines (line "bookingID" p.bookingID :: p.fields) ++ ['\n'])

/-- The datagram is a request to make a booking, a `WRITE` or an `UPDATE` of a booking, and succeeds with that response. -/
structure Makes (Γ : Jvm) (s : ServerState) (e : Event) (r : RequestMessage) : Prop where
  request : ∃ m, deserializeMessage Γ e.bytes = .ok m ∧
    (m.getOperation = .WRITE ∨ m.getOperation = .UPDATE ∧ parseUpdateType m.data = .ok "booking".toList)
  result : (handleRequest Γ s e).result = .ok r
  success : r.Says "status:SUCCESS"

/-- The datagram is a request of the booking's user, a `DELETE` or an `UPDATE` that names the booking and its facility, and
succeeds. -/
structure Removes (Γ : Jvm) (s : ServerState) (e : Event) (p : Report) : Prop where
  request : ∃ m, deserializeMessage Γ e.bytes = .ok m ∧
    (m.getOperation = .DELETE ∧ parseDelete m.data = .ok (p.bookingID, p.facility) ∨
      m.getOperation = .UPDATE ∧ parseUpdateType m.data = .ok "booking".toList ∧
        ∃ booking, parseUpdateBookingDetails Γ m.data = .ok booking ∧ booking.prevBookingId = some p.bookingID ∧
          booking.facilityName = p.facility)
  user : e.userInfo = p.user
  result : ∃ r, (handleRequest Γ s e).result = .ok r ∧ r.Says "status:SUCCESS"

/-- The request is not answered from the history. -/
def IsExecuted (Γ : Jvm) (s : ServerState) (e : Event) : Prop :=
  ∀ m, deserializeMessage Γ e.bytes = .ok m → replayOf s m e = none

/-- Whatever client reads the booking of that ID, by a request that repeats none, the response has this data. -/
def ReadsAs (Γ : Jvm) (s : ServerState) (bookingID : Text) (data : Option Text) : Prop :=
  ∀ (e : Event) (m : RequestMessage), deserializeMessage Γ e.bytes = .ok m → m.getOperation = .READ →
    m.data = some ("booking".toList ++ ',' :: bookingID) → replayOf s m e = none →
    (handleRequest Γ s e).result = .ok ⟨Operation.READ.getOpCode, m.requestID, data⟩

/-- The UUID that a datagram draws: that of the booking it makes. -/
def drawn (Γ : Jvm) (s : ServerState) (e : Event) : List UUID :=
  if (effect Γ s e).booking?.isSome then [e.uuid] else []

/-- The UUIDs that a run draws. -/
def drawnAlong (Γ : Jvm) : ServerState → List Event → List UUID
  | _, [] => []
  | s, e :: es => drawn Γ s e ++ drawnAlong Γ (serverStep Γ s e) es

/-- What a booking that the datagram asks for is reported as. -/
def Event.report (e : Event) (booking : BookingDetails) : Report :=
  ⟨e.uuid.toText, e.userInfo, booking.facilityName, booking.day.name, booking.timeSlot.getStartTime, booking.timeSlot.getEndTime⟩

/-- What a run writes it reads: a booking that an executed request makes is reported, and is read as reported up to its removal,
and after that not at all. What removes a booking is left open. -/
def ReadsItsWrites (Γ : Jvm) (start : ServerState) (removes : ServerState → Event → Report → Prop) (es : List Event) : Prop :=
  ∀ pre e later r, es = pre ++ e :: later → Makes Γ (serverRun Γ start pre) e r → IsExecuted Γ (serverRun Γ start pre) e →
    ∃ booking, (effect Γ (serverRun Γ start pre) e).booking? = some booking ∧ r.Reports (e.report booking) ∧
      (Machine.Along (serverStep Γ) (fun s d => ¬removes s d (e.report booking)) (serverRun Γ start (pre ++ [e])) later →
        ReadsAs Γ (serverRun Γ start es) (e.report booking).bookingID (e.report booking).readData) ∧
      ∀ between d after, later = between ++ d :: after → removes (serverRun Γ start (pre ++ e :: between)) d (e.report booking) →
        ReadsAs Γ (serverRun Γ start es) (e.report booking).bookingID (error "Booking not found".toList)

/-! ## No two bookings have an ID in common -/

/-- The bookings have different IDs, which have all been drawn. -/
structure Distinct (used : List UUID) (s : ServerState) : Prop where
  names : (s.facilities.map Facility.name).Nodup
  nodup : (ids s.facilities).Nodup
  drawn : ∀ id ∈ ids s.facilities, ∃ u ∈ used, id = u.toText

/-- What an effect is to remove has one ID. -/
theorem Effect.TakesAway.id_eq {effect : Effect} {user : Text} {x y : Text × Booking} (hx : effect.TakesAway user x)
    (hy : effect.TakesAway user y) : x.2.confirmationID = y.2.confirmationID := by
  cases effect with
  | move booking => exact Option.some.inj (hx.2.1.trans hy.2.1.symm)
  | remove facilityName bookingId => exact hx.2.1.trans hy.2.1.symm
  | nothing => exact hx.elim
  | book booking => exact hx.elim
  | rate facilityName rating => exact hx.elim
  | register facilityName monitorInterval => exact hx.elim

section

variable {Γ : Jvm} {used : List UUID} {s : ServerState} {e : Event}

/-- The ID of a booking that is made is new. -/
theorem Distinct.gained_nodup (h : Distinct used s) (hnew : ∀ u ∈ FacilityBooking.drawn Γ s e, u ∉ used) :
    (((effect Γ s e).gained e s.facilities ++ stored s.facilities).map (fun x => x.2.confirmationID)).Nodup := by
  rcases (effect Γ s e).gained_cases e s.facilities with hgained | ⟨hbooking, x, hgained, hid⟩
  · rw [hgained]
    exact h.nodup
  · rw [hgained, List.map_append, List.map_singleton, List.singleton_append, List.nodup_cons, hid]
    refine ⟨?_, h.nodup⟩
    intro hmem
    obtain ⟨u, hu, htext⟩ := h.drawn _ hmem
    rw [FacilityBooking.drawn, if_pos hbooking] at hnew
    exact hnew e.uuid List.mem_cons_self (UUID.toText_injective htext ▸ hu)

/-- A step that draws a new UUID keeps the IDs different. -/
theorem Distinct.step (h : Distinct used s) (hnew : ∀ u ∈ FacilityBooking.drawn Γ s e, u ∉ used) :
    Distinct (used ++ FacilityBooking.drawn Γ s e) (serverStep Γ s e) := by
  obtain ⟨lost, hperm, _⟩ := stored_onFacilities Γ e (effect Γ s e) h.names
  have hids := hperm.map (fun x => x.2.confirmationID)
  rw [serverStep]
  refine ⟨?_, ?_, ?_⟩
  · rw [handleRequest_facilities, onFacilities_names]
    exact h.names
  · have hnodup := hids.nodup_iff.2 (h.gained_nodup hnew)
    rw [List.map_append] at hnodup
    rw [handleRequest_facilities]
    exact hnodup.of_append_right
  · intro id hid
    rw [handleRequest_facilities] at hid
    obtain ⟨y, hy, rfl⟩ := List.mem_map.1 hid
    rcases List.mem_append.1 (hperm.subset (List.mem_append_right lost hy)) with hgained | hstored
    · obtain ⟨hbooking, hid'⟩ := Effect.id_of_mem_gained hgained
      refine ⟨e.uuid, List.mem_append_right _ ?_, hid'⟩
      rw [FacilityBooking.drawn, if_pos hbooking]
      exact List.mem_cons_self
    · obtain ⟨u, hu, htext⟩ := h.drawn _ (List.mem_map_of_mem hstored)
      exact ⟨u, List.mem_append_left _ hu, htext⟩

/-- What is stored after a step: what is made, and what was stored and is not to be removed. -/
theorem Distinct.mem_step_iff (h : Distinct used s) (hnew : ∀ u ∈ FacilityBooking.drawn Γ s e, u ∉ used) {x : Text × Booking} :
    x ∈ stored (serverStep Γ s e).facilities ↔ x ∈ (effect Γ s e).gained e s.facilities ∨
      x ∈ stored s.facilities ∧ ¬(effect Γ s e).TakesAway e.userInfo x := by
  obtain ⟨lost, hperm, hlost, hne⟩ := stored_onFacilities Γ e (effect Γ s e) h.names
  have hnodup := h.gained_nodup hnew
  have hnodup' := (hperm.map (fun x => x.2.confirmationID)).nodup_iff.2 hnodup
  rw [List.map_append, List.nodup_append] at hnodup hnodup'
  have hdisjoint := hnodup.2.2
  have hdisjoint' := hnodup'.2.2
  rw [serverStep, handleRequest_facilities]
  have hmem : ∀ y, (y ∈ lost ∨ y ∈ stored ((effect Γ s e).onFacilities Γ e s.facilities)) ↔
      (y ∈ (effect Γ s e).gained e s.facilities ∨ y ∈ stored s.facilities) := by
    intro y
    rw [← List.mem_append, ← List.mem_append]
    exact hperm.mem_iff
  constructor
  · intro hx
    rcases (hmem x).1 (Or.inr hx) with hgained | hstored
    · exact Or.inl hgained
    · refine Or.inr ⟨hstored, fun htake => ?_⟩
      -- what is lost is x itself, which then is not left
      obtain ⟨y, hy⟩ := List.exists_mem_of_ne_nil lost (hne ⟨x, hstored, htake⟩)
      obtain ⟨hystored, hytake⟩ := hlost y hy
      obtain rfl : y = x := List.inj_on_of_nodup_map h.nodup hystored hstored (hytake.id_eq htake)
      exact hdisjoint' _ (List.mem_map_of_mem hy) _ (List.mem_map_of_mem hx) rfl
  · rintro (hgained | ⟨hstored, hkeep⟩)
    · rcases (hmem x).2 (Or.inl hgained) with hlost' | hx
      · exact absurd rfl (hdisjoint _ (List.mem_map_of_mem hgained) _ (List.mem_map_of_mem (hlost x hlost').1))
      · exact hx
    · rcases (hmem x).2 (Or.inr hstored) with hlost' | hx
      · exact absurd (hlost x hlost').2 hkeep
      · exact hx

/-- A booking that is stored after a step under an ID that was drawn before was stored before and was not to be removed. -/
theorem Distinct.mem_of_step (h : Distinct used s) (hnew : ∀ u ∈ FacilityBooking.drawn Γ s e, u ∉ used) {u : UUID} (hu : u ∈ used)
    {y : Text × Booking} (hy : y ∈ stored (serverStep Γ s e).facilities) (hid : y.2.confirmationID = u.toText) :
    y ∈ stored s.facilities ∧ ¬(effect Γ s e).TakesAway e.userInfo y := by
  rcases (h.mem_step_iff hnew).1 hy with hgained | hstored
  · obtain ⟨hbooking, hid'⟩ := Effect.id_of_mem_gained hgained
    rw [FacilityBooking.drawn, if_pos hbooking] at hnew
    exact absurd (UUID.toText_injective (hid'.symm.trans hid) ▸ hu) (hnew e.uuid List.mem_cons_self)
  · exact hstored

end

/-! ## Runs -/

/-- What is drawn after others is new where nothing is drawn twice. -/
theorem fresh_of_nodup {used drawn : List UUID} (h : (used ++ drawn).Nodup) : ∀ u ∈ drawn, u ∉ used := by
  rw [List.nodup_append] at h
  intro u hu hused
  exact h.2.2 u hused u hu rfl

/-- What every step that draws a new UUID and meets a condition keeps, a run of such steps keeps. -/
theorem run_keeps {Γ : Jvm} {P : List UUID → ServerState → Prop} {C : ServerState → Event → Prop}
    (hstep : ∀ used s e, P used s → C s e → (∀ u ∈ drawn Γ s e, u ∉ used) → P (used ++ drawn Γ s e) (serverStep Γ s e)) :
    ∀ (es : List Event) (used : List UUID) (s : ServerState), P used s → Machine.Along (serverStep Γ) C s es →
      (used ++ drawnAlong Γ s es).Nodup → P (used ++ drawnAlong Γ s es) (serverRun Γ s es) := by
  intro es
  induction es with
  | nil =>
    intro used s hP _ _
    rw [drawnAlong, List.append_nil]
    exact hP
  | cons e es ih =>
    intro used s hP hC hnodup
    rw [drawnAlong, ← List.append_assoc] at hnodup ⊢
    exact ih _ _ (hstep used s e hP hC.1 (fresh_of_nodup hnodup.of_append_left)) hC.2 hnodup

theorem drawnAlong_append (Γ : Jvm) (s : ServerState) (es es' : List Event) :
    drawnAlong Γ s (es ++ es') = drawnAlong Γ s es ++ drawnAlong Γ (serverRun Γ s es) es' := by
  induction es generalizing s with
  | nil => rfl
  | cons e es ih => rw [List.cons_append, drawnAlong, ih, drawnAlong, List.append_assoc]; rfl

/-- A run draws the UUIDs of its events, or fewer. -/
theorem drawnAlong_sublist (Γ : Jvm) (s : ServerState) (es : List Event) :
    (drawnAlong Γ s es).Sublist (es.map Event.uuid) := by
  induction es generalizing s with
  | nil => exact List.Sublist.refl _
  | cons e es ih =>
    rw [drawnAlong, List.map_cons, ← List.singleton_append]
    refine List.Sublist.append ?_ (ih _)
    rw [drawn]
    split
    · exact List.Sublist.refl _
    · exact List.nil_sublist _

theorem along_true {Γ : Jvm} (s : ServerState) (es : List Event) : Machine.Along (serverStep Γ) (fun _ _ => True) s es := by
  induction es generalizing s with
  | nil => trivial
  | cons e es ih => exact ⟨trivial, ih _⟩

theorem distinct_init (checkHistory : Bool) : Distinct [] (.init checkHistory) := by
  have hnone : ids (ServerState.init checkHistory).facilities = [] := rfl
  refine ⟨?_, by rw [hnone]; exact List.nodup_nil, ?_⟩
  · have hnames : (ServerState.init checkHistory).facilities.map Facility.name =
        ["Weekday1".toList, "Weekday2".toList, "Weekends".toList] := rfl
    rw [hnames]
    decide
  · intro id hid
    rw [hnone] at hid
    exact absurd hid List.not_mem_nil

/-- A run that draws different UUIDs keeps the IDs different. -/
theorem Distinct.run {Γ : Jvm} {used : List UUID} {s : ServerState} (h : Distinct used s) {es : List Event}
    (hdrawn : (used ++ drawnAlong Γ s es).Nodup) : Distinct (used ++ drawnAlong Γ s es) (serverRun Γ s es) :=
  run_keeps (P := Distinct) (fun _ _ _ hP _ hnew => hP.step hnew) es used s h (along_true s es) hdrawn

/-- A booking that no step is to remove stays. -/
theorem stored_run {Γ : Jvm} {x : Text × Booking} {used : List UUID} {s : ServerState} (h : Distinct used s)
    (hx : x ∈ stored s.facilities) {es : List Event}
    (hkept : Machine.Along (serverStep Γ) (fun s e => ¬(effect Γ s e).TakesAway e.userInfo x) s es)
    (hdrawn : (used ++ drawnAlong Γ s es).Nodup) : x ∈ stored (serverRun Γ s es).facilities := by
  refine (run_keeps (P := fun used s => Distinct used s ∧ x ∈ stored s.facilities) (fun used s e hP hC hnew => ?_) es used s
    ⟨h, hx⟩ hkept hdrawn).2
  exact ⟨hP.1.step hnew, (hP.1.mem_step_iff hnew).2 (Or.inr ⟨hP.2, hC⟩)⟩

/-- What holds of every booking of an ID that was drawn holds of it ever after. -/
theorem only_run {Γ : Jvm} {Q : Text × Booking → Prop} {u : UUID} {used : List UUID} {s : ServerState} (h : Distinct used s)
    (hu : u ∈ used) (honly : ∀ y ∈ stored s.facilities, y.2.confirmationID = u.toText → Q y) {es : List Event}
    (hdrawn : (used ++ drawnAlong Γ s es).Nodup) :
    ∀ y ∈ stored (serverRun Γ s es).facilities, y.2.confirmationID = u.toText → Q y := by
  refine (run_keeps (P := fun used s => Distinct used s ∧ u ∈ used ∧ ∀ y ∈ stored s.facilities, y.2.confirmationID = u.toText →
    Q y) (fun used s e hP _ hnew => ?_) es used s ⟨h, hu, honly⟩ (along_true s es) hdrawn).2.2
  obtain ⟨hdistinct, hu, honly⟩ := hP
  refine ⟨hdistinct.step hnew, List.mem_append_left _ hu, fun y hy hid => ?_⟩
  exact honly y (hdistinct.mem_of_step hnew hu hy hid).1 hid

/-- After the step that is to remove a booking no booking has its ID. -/
theorem gone_run {Γ : Jvm} {x : Text × Booking} {u : UUID} {used : List UUID} {s : ServerState} (h : Distinct used s)
    (hx : x ∈ stored s.facilities) (hid : x.2.confirmationID = u.toText) (hu : u ∈ used) {between after : List Event} {d : Event}
    (htake : (effect Γ (serverRun Γ s between) d).TakesAway d.userInfo x)
    (hdrawn : (used ++ drawnAlong Γ s (between ++ d :: after)).Nodup) :
    ∀ y ∈ stored (serverRun Γ s (between ++ d :: after)).facilities, y.2.confirmationID ≠ u.toText := by
  have hrun : serverRun Γ s (between ++ d :: after) = serverRun Γ (serverStep Γ (serverRun Γ s between) d) after :=
    Machine.run_append _ _ _
  rw [drawnAlong_append, drawnAlong, ← List.append_assoc, ← List.append_assoc] at hdrawn
  have hbetween := hdrawn.of_append_left.of_append_left
  -- up to the step no other booking has the ID
  have honly := only_run h hu (Q := fun y => y = x)
    (fun y hy hyid => List.inj_on_of_nodup_map h.nodup hy hx (hyid.trans hid.symm)) hbetween
  have hdistinct := h.run hbetween
  have hfresh := fresh_of_nodup hdrawn.of_append_left
  have hu' := List.mem_append_left (drawnAlong Γ s between) hu
  rw [hrun]
  refine only_run (hdistinct.step hfresh) (List.mem_append_left _ hu') (Q := fun _ => False) (fun y hy hyid => ?_) hdrawn
  obtain ⟨hy', hkeep⟩ := hdistinct.mem_of_step hfresh hu' hy hyid
  obtain rfl : y = x := honly y hy' hyid
  exact hkeep htake

/-! ## What is reported -/

/-- What a stored booking is reported as. -/
def reportOf (x : Text × Booking) : Report :=
  ⟨x.2.confirmationID, x.2.userInfo, x.1, x.2.getDay.name, x.2.timeSlot.getStartTime, x.2.timeSlot.getEndTime⟩

section

variable {Γ : Jvm} {s : ServerState} {e : Event} {booking : BookingDetails}

/-- The response to a `WRITE` that books. -/
theorem dispatch_write {m : RequestMessage} (ho : m.getOperation = .WRITE) (hparse : parseBookingDetails Γ m.data = .ok booking)
    (hgrants : grants s.facilities booking = true) :
    (dispatch Γ s m e).2 = .ok ⟨Operation.WRITE.getOpCode, m.requestID,
      success (bookedText e.uuid.toText e.userInfo booking)⟩ := by
  obtain ⟨f, hf, ha⟩ := grants_iff.1 hgrants
  simp only [dispatch, ho, bookFacility, hparse, hf, ha, if_true, tryCatch]

/-- What an executed request makes it reports. -/
theorem Makes.reports {r : RequestMessage} (h : Makes Γ s e r) (hnew : IsExecuted Γ s e) :
    ∃ booking, (effect Γ s e).booking? = some booking ∧ r.Reports (e.report booking) := by
  obtain ⟨m, hm, hkind⟩ := h.request
  have ho : m.getOperation ∉ [Operation.READ, .ECHO] := by
    rcases hkind with ho | ⟨ho, _⟩
    · rw [ho]
      decide
    · rw [ho]
      decide
  have hecho : m.getOperation ≠ .ECHO := fun hop => ho (by rw [hop]; decide)
  obtain ⟨heffect, hne⟩ := effect_of_success hm ho (hnew m hm) h.result h.success
  have hresult := h.result
  rw [handleRequest_of_new hm hecho (hnew m hm), execute_result] at hresult
  have hgrants : ∀ booking, (effect Γ s e).booking? = some booking → grants s.reset.facilities booking = true :=
    fun booking hbooking => grants_of_effect hbooking
  have hasking := asking Γ m
  rw [heffect] at hne hgrants ⊢
  generalize asked Γ m = effect at hne hgrants hasking ⊢
  cases hasking with
  | nothing => exact absurd rfl hne
  | book booking ho' hparse =>
    rw [dispatch_write ho' hparse (hgrants booking rfl)] at hresult
    cases hresult
    exact ⟨booking, rfl, Or.inl rfl⟩
  | move booking ho' htype hparse =>
    obtain ⟨f, hf, ha⟩ := grants_iff.1 (hgrants booking rfl)
    obtain ⟨old, hdispatch⟩ := dispatch_update Γ (s := s.reset) (e := e) ho' htype hparse hf ha
    rw [hdispatch] at hresult
    cases hresult
    exact ⟨booking, rfl, Or.inr ⟨orNull old, rfl⟩⟩
  | remove facilityName bookingId ho' =>
    rcases hkind with ho | ⟨ho, _⟩
    · cases ho.symm.trans ho'
    · cases ho.symm.trans ho'
  | rate facilityName rating ho' htype' =>
    rcases hkind with ho | ⟨_, htype⟩
    · cases ho.symm.trans ho'
    · exact absurd (Except.ok.inj (htype.symm.trans htype')) (by decide)
  | register facilityName monitorInterval ho' =>
    rcases hkind with ho | ⟨ho, _⟩
    · cases ho.symm.trans ho'
    · cases ho.symm.trans ho'

/-- The booking that is made is stored as it is reported. -/
theorem mem_gained (h : (effect Γ s e).booking? = some booking) :
    ∃ x ∈ (effect Γ s e).gained e s.facilities, reportOf x = e.report booking := by
  obtain ⟨f, hf, _⟩ := grants_iff.1 (grants_of_effect h)
  simp only [Effect.gained, h, hf, List.mem_singleton, exists_eq_left]
  rfl

/-- An executed request that removes a booking is one whose effect is to remove it. -/
theorem removes_iff {x : Text × Booking} :
    Removes Γ s e (reportOf x) ∧ IsExecuted Γ s e ↔ (effect Γ s e).TakesAway e.userInfo x := by
  constructor
  · rintro ⟨⟨⟨m, hm, hkind⟩, huser, r, hresult, hsuccess⟩, hnew⟩
    rcases hkind with ⟨ho, hparse⟩ | ⟨ho, htype, booking, hparse, hid, hname⟩
    · rw [(effect_of_success hm (by rw [ho]; decide) (hnew m hm) hresult hsuccess).1]
      simp only [asked, ho, hparse]
      exact ⟨rfl, rfl, huser.symm⟩
    · rw [(effect_of_success hm (by rw [ho]; decide) (hnew m hm) hresult hsuccess).1]
      simp only [asked, ho, askedUpdate, htype, if_true, hparse]
      exact ⟨hname, hid.symm, huser.symm⟩
  · intro h
    have hne : effect Γ s e ≠ .nothing := by
      intro hnothing
      rw [hnothing] at h
      exact h
    obtain ⟨m, r, hm, hnew, hasked, hresult, hsuccess⟩ := request_of_effect hne
    have hexecuted : IsExecuted Γ s e := by
      intro m' hm'
      cases hm.symm.trans hm'
      exact hnew
    have hasking := asking Γ m
    rw [hasked] at h
    generalize asked Γ m = effect at h hasking
    cases hasking with
    | nothing => exact h.elim
    | book booking => exact h.elim
    | move booking ho htype hparse =>
      obtain ⟨hname, hid, huser⟩ := h
      exact ⟨⟨⟨m, hm, Or.inr ⟨ho, htype, booking, hparse, hid.symm, hname⟩⟩, huser.symm, r, hresult, hsuccess⟩, hexecuted⟩
    | remove facilityName bookingId ho hparse =>
      obtain ⟨rfl, rfl, huser⟩ := h
      exact ⟨⟨⟨m, hm, Or.inl ⟨ho, hparse⟩⟩, huser.symm, r, hresult, hsuccess⟩, hexecuted⟩
    | rate facilityName rating => exact h.elim
    | register facilityName monitorInterval => exact h.elim

/-- A `READ` of an ID reports what is found under it. -/
theorem readsAs_findBooking (u : UUID) :
    ReadsAs Γ s u.toText (match findBooking s.facilities u.toText with
      | some (facility, bookingInfo) => success (bookingText facility bookingInfo)
      | none => error "Booking not found".toList) := by
  intro e m hm ho hdata hnew
  have hne : u.toText ≠ [] := by
    intro h
    have hlength := congrArg List.length h
    simp only [UUID.toText, List.length_append, List.length_cons, length_hexDigits, List.length_nil] at hlength
    omega
  rw [handleRequest_of_new hm (by rw [ho]; decide) hnew, execute_result]
  simp only [dispatch, ho, hdata, readData_of_split (split_pair (show ',' ∉ "booking".toList by decide) (comma_notMem_uuid u) hne)]
  rw [if_neg (by decide), if_pos trivial]
  rfl

/-- A booking that is stored is read as it is reported. -/
theorem readsAs_of_stored (hids : (ids s.facilities).Nodup) {x : Text × Booking} (hx : x ∈ stored s.facilities) {u : UUID}
    (hid : x.2.confirmationID = u.toText) : ReadsAs Γ s u.toText (reportOf x).readData := by
  obtain ⟨f, hfound, hname⟩ := findBooking_of_stored hids hx
  have h := @readsAs_findBooking Γ s u
  rw [← hid, hfound] at h
  rw [← hid, reportOf, ← hname]
  exact h

/-- An ID that no booking has is not found. -/
theorem readsAs_of_gone {u : UUID} (h : u.toText ∉ ids s.facilities) :
    ReadsAs Γ s u.toText (error "Booking not found".toList) := by
  have hread := @readsAs_findBooking Γ s u
  rw [findBooking_eq_none h] at hread
  exact hread

end

/-- Where no UUID is drawn twice, no two bookings have an ID in common at any point of a run, and the run reads its writes: only an
executed request of its user removes a booking. -/
theorem read_your_writes {Γ : Jvm} {checkHistory : Bool} {es : List Event}
    (hdrawn : (drawnAlong Γ (.init checkHistory) es).Nodup) :
    (ids (serverRun Γ (.init checkHistory) es).facilities).Nodup ∧
      ReadsItsWrites Γ (.init checkHistory) (fun s d p => Removes Γ s d p ∧ IsExecuted Γ s d) es := by
  have hids := ((distinct_init checkHistory).run hdrawn).nodup
  refine ⟨hids, fun pre e later r hes hmakes hnew => ?_⟩
  obtain ⟨booking, hbooking, hreports⟩ := hmakes.reports hnew
  obtain ⟨x, hgained, hx⟩ := mem_gained hbooking
  have hid : x.2.confirmationID = e.uuid.toText := congrArg Report.bookingID hx
  refine ⟨booking, hbooking, hreports, ?_⟩
  subst hes
  -- the run up to the request, and the state it leaves
  rw [drawnAlong_append, drawnAlong, ← List.append_assoc] at hdrawn
  have hdistinct : Distinct (drawnAlong Γ (.init checkHistory) pre) (serverRun Γ (.init checkHistory) pre) :=
    (distinct_init checkHistory).run hdrawn.of_append_left.of_append_left
  have hfresh := fresh_of_nodup hdrawn.of_append_left
  have hdistinct' := hdistinct.step hfresh
  have hstored := (hdistinct.mem_step_iff hfresh).2 (Or.inl hgained)
  have hused : e.uuid ∈ drawnAlong Γ (.init checkHistory) pre ++ drawn Γ (serverRun Γ (.init checkHistory) pre) e := by
    refine List.mem_append_right _ ?_
    rw [drawn, if_pos (Option.isSome_iff_exists.2 ⟨booking, hbooking⟩)]
    exact List.mem_cons_self
  have hrun : ∀ es, serverRun Γ (.init checkHistory) (pre ++ e :: es) =
      serverRun Γ (serverStep Γ (serverRun Γ (.init checkHistory) pre) e) es := fun es => Machine.run_append _ _ _
  generalize serverStep Γ (serverRun Γ (.init checkHistory) pre) e = s' at hdistinct' hstored hrun hdrawn
  generalize drawnAlong Γ (.init checkHistory) pre ++ drawn Γ (serverRun Γ (.init checkHistory) pre) e = used at *
  have hread : (reportOf x).bookingID = e.uuid.toText := hid
  rw [← hx, hread]
  simp only [hrun, removes_iff] at hids ⊢
  constructor
  · intro hkept
    exact readsAs_of_stored hids (stored_run hdistinct' hstored hkept hdrawn) hid
  · rintro between d after rfl htake
    refine readsAs_of_gone fun hmem => ?_
    obtain ⟨y, hy, hyid⟩ := List.mem_map.1 hmem
    exact gone_run hdistinct' hstored hid hused htake hdrawn y hy hyid

/-- A booking from eleven to twelve, of another client. -/
def bookAtEleven : Event := .sent 5001 ⟨1, 0, some "Weekday1,MONDAY,11,0,12,0".toList⟩ ⟨0, 4⟩

/-- Two clients book, one reads the booking of the other, and that one deletes it. -/
def removedAtNine : List Sending :=
  [⟨5000, ⟨1, 0, some "Weekday1,MONDAY,9,0,10,0".toList⟩, ⟨0, 0⟩⟩,
    ⟨5001, ⟨1, 0, some "Weekday1,MONDAY,11,0,12,0".toList⟩, ⟨0, 4⟩⟩,
    ⟨5001, ⟨0, 1, some "booking,00000000-0000-0000-0000-000000000000".toList⟩, ⟨0, 5⟩⟩,
    ⟨5000, ⟨3, 1, some "00000000-0000-0000-0000-000000000000,Weekday1".toList⟩, ⟨0, 6⟩⟩]

theorem removedAtNine_drawn (checkHistory : Bool) :
    (drawnAlong openJdk (.init checkHistory) (removedAtNine.map Sending.event)).Nodup := by
  refine List.Nodup.sublist (drawnAlong_sublist openJdk (.init checkHistory) _) ?_
  decide

theorem read_your_writes_removedAtNine :
    (ids (serverRun openJdk (.init true) (removedAtNine.map Sending.event)).facilities).Nodup ∧
      ReadsItsWrites openJdk (.init true) (fun s d p => Removes openJdk s d p ∧ IsExecuted openJdk s d)
        (removedAtNine.map Sending.event) :=
  read_your_writes (removedAtNine_drawn true)

/-- The details of the bookings, and the response to the request that made the first. -/
def atNine : BookingDetails := ⟨none, "Weekday1".toList, .MONDAY, 9, 0, 10, 0⟩
def atEleven : BookingDetails := ⟨none, "Weekday1".toList, .MONDAY, 11, 0, 12, 0⟩
def bookedAtNineResponse : RequestMessage := ⟨1, 0, success (bookedText bookAtNine.uuid.toText bookAtNine.userInfo atNine)⟩

/-- A request to delete the booking, under the ID of the request that made it. -/
def deleteAtNine : Event := .sent 5000 ⟨3, 0, some "00000000-0000-0000-0000-000000000000,Weekday1".toList⟩ ⟨0, 1⟩

/-- A request to read it. -/
def readAtNine : Event := .sent 5000 ⟨0, 1, some "booking,00000000-0000-0000-0000-000000000000".toList⟩ ⟨0, 2⟩

/-- The booking is made, and the response is in the history. -/
theorem bookAtNine_once :
    ∃ s', serverStep openJdk (.init true) bookAtNine = s' ∧
      (handleRequest openJdk (.init true) bookAtNine).result = .ok bookedAtNineResponse ∧ s'.facilities = bookedAtNine ∧
      s'.requestHistory = [⟨⟨1, 0, some "Weekday1,MONDAY,9,0,10,0".toList⟩, bookAtNine.address, bookAtNine.port,
        bookedAtNineResponse⟩] ∧ s'.checkHistory = true := by
  have hm : deserializeMessage openJdk bookAtNine.bytes = .ok ⟨1, 0, some "Weekday1,MONDAY,9,0,10,0".toList⟩ :=
    deserializeMessage_frame _ _ fun t ht => by cases ht; decide
  rw [serverStep, handleRequest_of_new hm (by decide) rfl]
  rcases execute_cases openJdk (ServerState.init true).reset ⟨1, 0, some "Weekday1,MONDAY,9,0,10,0".toList⟩ bookAtNine with
    ⟨x, hread, _⟩ | ⟨r, last, monitors, sent, hr, _, _, _, hrun⟩
  · cases hread
  · rw [@dispatch_write openJdk _ bookAtNine atNine _ rfl rfl (by decide)] at hr
    obtain rfl := Except.ok.inj hr
    exact ⟨_, rfl, hrun ▸ rfl, hrun ▸ rfl, hrun ▸ rfl, hrun ▸ rfl⟩

/-- The request is answered by the success of the other, which it repeats, and the booking is still read. -/
theorem not_readsItsWrites :
    ¬∀ checkHistory es, (drawnAlong openJdk (.init checkHistory) es).Nodup →
      ReadsItsWrites openJdk (.init checkHistory) (Removes openJdk) es := by
  intro h
  have hm : deserializeMessage openJdk bookAtNine.bytes = .ok ⟨1, 0, some "Weekday1,MONDAY,9,0,10,0".toList⟩ :=
    deserializeMessage_frame _ _ fun t ht => by cases ht; decide
  have hm' : deserializeMessage openJdk deleteAtNine.bytes =
      .ok ⟨3, 0, some "00000000-0000-0000-0000-000000000000,Weekday1".toList⟩ :=
    deserializeMessage_frame _ _ fun t ht => by cases ht; decide
  have hm'' : deserializeMessage openJdk readAtNine.bytes =
      .ok ⟨0, 1, some "booking,00000000-0000-0000-0000-000000000000".toList⟩ :=
    deserializeMessage_frame _ _ fun t ht => by cases ht; decide
  have heffect : effect openJdk (.init true) bookAtNine = .book atNine := by
    simp only [effect, hm]
    rfl
  obtain ⟨s', hstep, hresult, hfacilities, hhistory, hmode⟩ := bookAtNine_once
  have hreplay : replayOf s' ⟨3, 0, some "00000000-0000-0000-0000-000000000000,Weekday1".toList⟩ deleteAtNine =
      some ⟨⟨1, 0, some "Weekday1,MONDAY,9,0,10,0".toList⟩, bookAtNine.address, bookAtNine.port, bookedAtNineResponse⟩ := by
    rw [replayOf, hmode, hhistory]
    rfl
  have hnew : replayOf s' ⟨0, 1, some "booking,00000000-0000-0000-0000-000000000000".toList⟩ readAtNine = none := by
    rw [replayOf, hmode, hhistory]
    rfl
  have hdelete := handleRequest_of_replay hm' (by decide) hreplay
  have hdrawn : (drawnAlong openJdk (.init true) [bookAtNine, deleteAtNine]).Nodup := by
    have hnothing : effect openJdk s' deleteAtNine = .nothing := by
      simp only [effect, hm', hreplay, Option.isSome_some, if_true]
    simp only [drawnAlong, drawn, hstep, heffect, hnothing, Effect.booking?]
    decide
  have hmakes : Makes openJdk (.init true) bookAtNine bookedAtNineResponse := ⟨⟨_, hm, Or.inl rfl⟩, hresult, by decide⟩
  have hexecuted : IsExecuted openJdk (.init true) bookAtNine := fun m _ => rfl
  obtain ⟨booking, hbooking, _, _, hremoved⟩ := h true [bookAtNine, deleteAtNine] hdrawn [] bookAtNine [deleteAtNine] _ rfl
    hmakes hexecuted
  obtain rfl : atNine = booking := Option.some.inj ((congrArg Effect.booking? heffect).symm.trans hbooking)
  have hremoves : Removes openJdk s' deleteAtNine (bookAtNine.report atNine) :=
    ⟨⟨_, hm', Or.inl ⟨rfl, rfl⟩⟩, userInfo_sent 5000 _ _ _ _, bookedAtNineResponse, by rw [hdelete], by decide⟩
  have hend : serverRun openJdk (.init true) [bookAtNine, deleteAtNine] = s'.reset := by
    have hlast : serverStep openJdk s' deleteAtNine = s'.reset := by rw [serverStep, hdelete]
    rw [← hlast, ← hstep]
    rfl
  have hlast : serverRun openJdk (.init true) ([] ++ [bookAtNine]) = s' := hstep
  have hgone := hremoved [] deleteAtNine [] rfl (hlast.symm ▸ hremoves)
  have hfound : (findBooking bookedAtNine bookAtNine.uuid.toText).isSome = true := by decide +kernel
  obtain ⟨⟨f, b⟩, hfound⟩ := Option.isSome_iff_exists.1 hfound
  have hread := @readsAs_findBooking openJdk s'.reset bookAtNine.uuid
  rw [show s'.reset.facilities = bookedAtNine from hfacilities, hfound] at hread
  rw [hend] at hgone
  have hsame := (hgone readAtNine _ hm'' rfl rfl hnew).symm.trans (hread readAtNine _ hm'' rfl rfl hnew)
  have hdata := congrArg RequestMessage.data (Except.ok.inj hsame)
  exact not_says_success (r := ⟨0, 1, error "Booking not found".toList⟩) rfl (says_success hdata)

end FacilityBooking
