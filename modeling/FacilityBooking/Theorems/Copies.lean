import FacilityBooking.Lib.Stutter
import FacilityBooking.Theorems.AtMostOnce
import FacilityBooking.Theorems.Retransmission

/-!
# Copies right after their request

A network that repeats a datagram, but lets nothing come between the first and the last of its copies. A server that checks its
history answers the copies from it; one that does not executes them, and they find the request settled. Either way the run is that of
the first copies, and where no two requests have a key in common, both servers keep the same calendars.
-/

namespace FacilityBooking

/-- The calendars of the facilities: all of them but their ratings. -/
def calendarsOf (facilities : List Facility) : List (Text × Availability) := facilities.map (fun f => (f.name, f.availability))

/-- Datagrams in groups, each of copies of one. -/
def AreCopies (groups : List (Event × List Event)) : Prop := ∀ g ∈ groups, ∀ d ∈ g.2, d.toDatagram = g.1.toDatagram

/-- Every booking that a datagram asks for ends after it starts. -/
def AsksForProper (Γ : Jvm) (e : Event) : Prop :=
  ∀ m booking, deserializeMessage Γ e.bytes = .ok m → (asked Γ m).booking? = some booking → booking.timeSlot.span.Proper

/-! ## A server that checks its history -/

/-- The facility last updated before does not matter. -/
theorem handleRequest_reset (Γ : Jvm) (s : ServerState) (e : Event) : handleRequest Γ s.reset e = handleRequest Γ s e := rfl

theorem reset_serverStep {Γ : Jvm} {s s' : ServerState} (e : Event) (h : s.reset = s'.reset) :
    (serverStep Γ s e).reset = (serverStep Γ s' e).reset := by
  rw [serverStep, serverStep, ← handleRequest_reset Γ s, ← handleRequest_reset Γ s', h]

/-- A copy of the datagram handled last leaves the state as it is. -/
theorem reset_again {Γ : Jvm} {s : ServerState} {e d : Event} (hmode : s.checkHistory = true) (hd : d.toDatagram = e.toDatagram) :
    (serverStep Γ (serverStep Γ s e) d).reset = (serverStep Γ s e).reset := by
  have hbytes : d.bytes = e.bytes := congrArg Datagram.bytes hd
  have hkey : ∀ m, d.key m = e.key m := fun m => by
    rw [Event.key, Event.key, congrArg Datagram.address hd, congrArg Datagram.port hd]
  have hreplay : ∀ m, replayOf s.reset m d = replayOf s m e := fun m => by
    rw [replayOf, replayOf, congrArg Datagram.address hd, congrArg Datagram.port hd]
    rfl
  have hhandling := handleRequest_handling Γ s e
  rw [serverStep, serverStep]
  generalize handleRequest Γ s e = outcome at hhandling ⊢
  cases hhandling with
  | undecodable x hm =>
    have hm' : deserializeMessage Γ d.bytes = .error x := hbytes ▸ hm
    simp only [handleRequest, hm']
    rfl
  | echo m hm ho =>
    rw [handleRequest_of_echo (hbytes ▸ hm) ho]
    rfl
  | replay m prevRequest hm ho hp =>
    rw [handleRequest_of_replay (hbytes ▸ hm) ho ((hreplay m).trans hp)]
    rfl
  | thrown m x hm ho hp hx =>
    have hecho : m.getOperation ≠ .ECHO := by
      rw [ho]
      decide
    rw [handleRequest_of_new (hbytes ▸ hm) hecho ((hreplay m).trans hp)]
    rcases execute_cases Γ s.reset.reset m d with ⟨_, _, _, hrun⟩ | ⟨r, _, _, _, hdispatch, _⟩
    · rw [hrun]
      rfl
    · -- what it reads throws again
      have hread : readData Γ s.reset.reset.facilities m.data = .error x := hx
      rw [dispatch, ho, hread] at hdispatch
      cases hdispatch
  | executed m r last monitors sent hm ho hp hdispatch hr =>
    have hfound : ∀ s' : ServerState, s'.checkHistory = true →
        s'.requestHistory = s.requestHistory ++ [⟨m, e.address, e.port, r⟩] → ∃ prevRequest, replayOf s' m d = some prevRequest := by
      intro s' hmode' hhistory
      refine Option.ne_none_iff_exists'.1 fun hnone => ?_
      rw [replayOf_eq_none_iff hmode', hhistory, List.map_append, hkey m] at hnone
      exact hnone (List.mem_append_right _ (List.mem_singleton.2 rfl))
    obtain ⟨prevRequest, hprev⟩ := hfound
      { s with
        facilities := (effectOf Γ s.facilities m).onFacilities Γ e s.facilities
        monitors := monitors
        requestHistory := s.requestHistory ++ [⟨m, e.address, e.port, r⟩]
        lastUpdatedFacility := last } hmode rfl
    rw [handleRequest_of_replay (hbytes ▸ hm) ho hprev]
    rfl

/-- So do all the copies. -/
theorem reset_copies {Γ : Jvm} {s : ServerState} {e : Event} (hmode : s.checkHistory = true) {again : List Event}
    (hagain : ∀ d ∈ again, d.toDatagram = e.toDatagram) :
    (serverRun Γ (serverStep Γ s e) again).reset = (serverStep Γ s e).reset := by
  have hfixed : ∀ t : ServerState, t.reset = (serverStep Γ s e).reset →
      (serverRun Γ t again).reset = (serverStep Γ s e).reset := by
    induction again with
    | nil => exact fun t ht => ht
    | cons d again ih =>
      rw [List.forall_mem_cons] at hagain
      intro t ht
      exact ih hagain.2 _ ((reset_serverStep d ht).trans (reset_again hmode hagain.1))
  exact hfixed _ rfl

theorem serverRun_checkHistory (Γ : Jvm) (es : List Event) (s : ServerState) :
    (serverRun Γ s es).checkHistory = s.checkHistory := by
  induction es generalizing s with
  | nil => rfl
  | cons e es ih => exact (ih _).trans (handleRequest_checkHistory Γ s e)

/-- The run over copies is the run over the first of them. -/
theorem reset_serverRun_flat {Γ : Jvm} {groups : List (Event × List Event)} (hcopies : AreCopies groups) {s : ServerState}
    (hmode : s.checkHistory = true) :
    (serverRun Γ s (Machine.flat groups)).reset = (serverRun Γ s (Machine.heads groups)).reset := by
  refine Machine.run_flat (R := fun s s' : ServerState => s.reset = s'.reset) (fun _ => rfl) (fun _ _ _ h h' => h.trans h')
    (fun s s' a h => reset_serverStep a h) groups ?_
  induction groups generalizing s with
  | nil => trivial
  | cons g groups ih =>
    unfold AreCopies at hcopies
    rw [List.forall_mem_cons] at hcopies
    refine ⟨reset_copies hmode hcopies.1, ih hcopies.2 ?_⟩
    exact (serverRun_checkHistory Γ g.2 _).trans ((handleRequest_checkHistory Γ s g.1).trans hmode)

/-! ## A server that does not -/

theorem lookup_calendarsOf (facilities : List Facility) (name : Text) :
    (calendarsOf facilities).lookup name = (getFacility facilities name).map Facility.availability := by
  unfold calendarsOf getFacility
  induction facilities with
  | nil => rfl
  | cons f facilities ih =>
    rw [List.map_cons, List.find?_cons]
    by_cases hf : f.name = name
    · rw [hf, List.lookup_cons_self, decide_eq_true rfl]
      rfl
    · rw [List.lookup_cons, beq_false_of_ne (Ne.symm hf), decide_eq_false hf]
      exact ih

section

variable {Γ : Jvm} {e : Event} {facilities facilities' : List Facility}

/-- Whether an effect is granted depends on the calendars. -/
theorem ifGranted_congr (h : calendarsOf facilities = calendarsOf facilities') (effect : Effect) :
    effect.ifGranted facilities = effect.ifGranted facilities' := by
  have hfound : ∀ name, (getFacility facilities name).map Facility.availability =
      (getFacility facilities' name).map Facility.availability := fun name => by
    rw [← lookup_calendarsOf, ← lookup_calendarsOf, h]
  have hthere : ∀ name, (getFacility facilities name).isSome = (getFacility facilities' name).isSome := fun name => by
    rw [← Option.isSome_map (f := Facility.availability), hfound name, Option.isSome_map]
  have hgrants : ∀ booking, grants facilities booking = grants facilities' booking := fun booking => by
    have hfacility := hfound booking.facilityName
    unfold grants
    cases hf : getFacility facilities booking.facilityName with
    | none =>
      rw [hf, Option.map_none, eq_comm, Option.map_eq_none_iff] at hfacility
      rw [hfacility]
    | some f =>
      rw [hf, Option.map_some, eq_comm, Option.map_eq_some_iff] at hfacility
      obtain ⟨f', hf', havailability⟩ := hfacility
      simp only [hf', havailability]
  have hgranted : effect.granted facilities = effect.granted facilities' := by
    cases effect with
    | nothing => rfl
    | book booking => exact hgrants booking
    | move booking => exact hgrants booking
    | remove facilityName _ => exact hthere facilityName
    | rate facilityName _ => exact hthere facilityName
    | register facilityName _ => exact hthere facilityName
  rw [Effect.ifGranted, Effect.ifGranted, hgranted]

/-- A change of one calendar. -/
theorem calendarsOf_modifyFacility {change : Facility → Facility} (changed : Availability → Availability)
    (hname : ∀ f, (change f).name = f.name) (hchange : ∀ f, (change f).availability = changed f.availability) (name : Text)
    (h : calendarsOf facilities = calendarsOf facilities') :
    calendarsOf (modifyFacility facilities name change) = calendarsOf (modifyFacility facilities' name change) := by
  induction facilities generalizing facilities' with
  | nil =>
    rw [List.map_eq_nil_iff.1 h.symm]
  | cons f facilities ih =>
    cases facilities' with
    | nil => cases h
    | cons f' facilities' =>
      obtain ⟨hf, hrest⟩ := List.cons.inj h
      obtain ⟨hfname, hfavailability⟩ := Prod.mk.inj hf
      rw [modifyFacility, modifyFacility, hfname]
      have hchanged : ((change f).name, (change f).availability) = ((change f').name, (change f').availability) := by
        rw [hname, hname, hchange, hchange, hfname, hfavailability]
      split
      · exact congrArg₂ List.cons hchanged hrest
      · exact congrArg₂ List.cons hf (ih hrest)

/-- What an effect does to the calendars depends on them alone. -/
theorem calendarsOf_onFacilities (h : calendarsOf facilities = calendarsOf facilities') (effect : Effect) :
    calendarsOf (effect.onFacilities Γ e facilities) = calendarsOf (effect.onFacilities Γ e facilities') := by
  cases effect with
  | nothing => exact h
  | book booking =>
    refine calendarsOf_modifyFacility (fun a => a.bookTimeSlot e.uuid.toText e.userInfo booking.timeSlot) ?_ ?_ _ h
    · exact fun _ => rfl
    · exact fun _ => rfl
  | move booking =>
    refine calendarsOf_modifyFacility
      (fun a => (a.removeTimeSlot booking.prevBookingId e.userInfo).1.bookTimeSlot e.uuid.toText e.userInfo booking.timeSlot)
      ?_ ?_ _ h
    · exact fun _ => rfl
    · exact fun _ => rfl
  | remove facilityName bookingId =>
    refine calendarsOf_modifyFacility (fun a => (a.removeTimeSlot (some bookingId) e.userInfo).1) ?_ ?_ _ h
    · exact fun _ => rfl
    · exact fun _ => rfl
  | rate facilityName rating =>
    refine calendarsOf_modifyFacility id ?_ ?_ _ h
    · exact fun _ => rfl
    · exact fun _ => rfl
  | register facilityName monitorInterval => exact h

/-- What is settled changes no calendar. -/
theorem Effect.Settled.keeps_calendars {effect : Effect} (h : effect.Settled e.userInfo facilities) :
    calendarsOf ((effect.ifGranted facilities).onFacilities Γ e facilities) = calendarsOf facilities := by
  cases effect with
  | nothing => rfl
  | book booking =>
    have hnothing : (Effect.book booking).ifGranted facilities = .nothing := if_neg (Bool.eq_false_iff.1 h)
    rw [hnothing]
    rfl
  | move booking =>
    have hnothing : (Effect.move booking).ifGranted facilities = .nothing := if_neg (Bool.eq_false_iff.1 h)
    rw [hnothing]
    rfl
  | remove facilityName bookingId =>
    unfold Effect.ifGranted
    split
    · refine congrArg calendarsOf (modifyFacility_of_eq fun f hf => ?_)
      rw [Availability.removeTimeSlot_of_none (h f hf)]
      rfl
    · rfl
  | rate facilityName rating =>
    unfold Effect.ifGranted
    split
    · exact map_modifyFacility fun _ _ => rfl
    · rfl
  | register facilityName monitorInterval =>
    unfold Effect.ifGranted
    split <;> rfl

end

/-- Two servers that do not check their histories, with the same calendars. -/
def SameCalendars (s s' : ServerState) : Prop :=
  s.checkHistory = s'.checkHistory ∧ (s.checkHistory = false → calendarsOf s.facilities = calendarsOf s'.facilities)

/-- The calendars after a datagram, where the history is not checked. -/
theorem calendarsOf_serverStep {Γ : Jvm} {s : ServerState} {e : Event} (hmode : s.checkHistory = false) :
    (∃ x, deserializeMessage Γ e.bytes = .error x ∧ (serverStep Γ s e).facilities = s.facilities) ∨
      ∃ m, deserializeMessage Γ e.bytes = .ok m ∧
        (serverStep Γ s e).facilities = ((asked Γ m).ifGranted s.facilities).onFacilities Γ e s.facilities := by
  rw [serverStep, handleRequest_facilities]
  cases hm : deserializeMessage Γ e.bytes with
  | error x => exact Or.inl ⟨x, rfl, by rw [effect, hm]; rfl⟩
  | ok m => exact Or.inr ⟨m, rfl, by rw [effect_atLeastOnce hmode hm]⟩

theorem SameCalendars.step {Γ : Jvm} {s s' : ServerState} (e : Event) (h : SameCalendars s s') :
    SameCalendars (serverStep Γ s e) (serverStep Γ s' e) := by
  have hmodes := handleRequest_checkHistory Γ s e
  refine ⟨hmodes.trans (h.1.trans (handleRequest_checkHistory Γ s' e).symm), fun hmode => ?_⟩
  have hoff : s.checkHistory = false := hmodes.symm.trans hmode
  have hoff' : s'.checkHistory = false := h.1.symm.trans hoff
  rcases calendarsOf_serverStep (Γ := Γ) (e := e) hoff with ⟨x, hx, hsame⟩ | ⟨m, hm, hchange⟩
  · rcases calendarsOf_serverStep (Γ := Γ) (e := e) hoff' with ⟨_, _, hsame'⟩ | ⟨m', hm', _⟩
    · rw [hsame, hsame', h.2 hoff]
    · cases hx.symm.trans hm'
  · rcases calendarsOf_serverStep (Γ := Γ) (e := e) hoff' with ⟨x', hx', _⟩ | ⟨m', hm', hchange'⟩
    · cases hm.symm.trans hx'
    · cases hm.symm.trans hm'
      rw [hchange, hchange', ifGranted_congr (h.2 hoff)]
      exact calendarsOf_onFacilities (h.2 hoff) _

/-- The copies of a request that is settled leave the calendars as they are. -/
theorem sameCalendars_copies {Γ : Jvm} {e : Event} {m : RequestMessage} (hm : deserializeMessage Γ e.bytes = .ok m)
    {again : List Event} (hagain : ∀ d ∈ again, d.toDatagram = e.toDatagram) {s : ServerState} (hmode : s.checkHistory = false)
    (hsettled : (asked Γ m).Settled e.userInfo s.facilities) : SameCalendars (serverRun Γ s again) s := by
  refine ⟨serverRun_checkHistory Γ again s, fun _ => ?_⟩
  induction again generalizing s with
  | nil => rfl
  | cons d again ih =>
    rw [List.forall_mem_cons] at hagain
    have hbytes : d.bytes = e.bytes := congrArg Datagram.bytes hagain.1
    have huser : d.userInfo = e.userInfo := congrArg Datagram.userInfo hagain.1
    have hfacilities : (serverStep Γ s d).facilities = ((asked Γ m).ifGranted s.facilities).onFacilities Γ d s.facilities := by
      rw [serverStep, handleRequest_facilities, effect_atLeastOnce hmode (hbytes ▸ hm)]
    rw [← huser] at hsettled
    have hkept := (hsettled.keeps (Γ := Γ)).2
    rw [← hfacilities, huser] at hkept
    have hsame : calendarsOf (serverStep Γ s d).facilities = calendarsOf s.facilities := by
      rw [hfacilities]
      exact hsettled.keeps_calendars
    have hmode' : (serverStep Γ s d).checkHistory = false := (handleRequest_checkHistory Γ s d).trans hmode
    exact (ih hagain.2 hmode' hkept ((serverRun_checkHistory Γ again _).trans hmode')).trans hsame

/-- A datagram and its copies leave the calendars as the datagram does. -/
theorem sameCalendars_group {Γ : Jvm} {used : List UUID} {s : ServerState} (hids : Distinct used s) (hmode : s.checkHistory = false)
    {g : Event × List Event} (hcopies : ∀ d ∈ g.2, d.toDatagram = g.1.toDatagram) (hproper : AsksForProper Γ g.1) :
    SameCalendars (Machine.groupStep (serverStep Γ) s g) (serverStep Γ s g.1) := by
  have hmode' : (serverStep Γ s g.1).checkHistory = false := (handleRequest_checkHistory Γ s g.1).trans hmode
  cases hm : deserializeMessage Γ g.1.bytes with
  | ok m =>
    exact sameCalendars_copies hm hcopies hmode'
      (settled_serverStep hmode hm (fun booking hbooking => hproper m booking hm hbooking) fun _ => hids)
  | error x =>
    -- a datagram that is no request changes nothing, however often it comes
    refine ⟨serverRun_checkHistory Γ g.2 _, fun _ => ?_⟩
    have hnothing : ∀ (again : List Event) (t : ServerState), (∀ d ∈ again, d.toDatagram = g.1.toDatagram) →
        (serverRun Γ t again).facilities = t.facilities := by
      intro again
      induction again with
      | nil => exact fun _ _ => rfl
      | cons d again ih =>
        intro t hagain
        rw [List.forall_mem_cons] at hagain
        have hd : deserializeMessage Γ d.bytes = .error x := congrArg Datagram.bytes hagain.1 ▸ hm
        refine (ih (serverStep Γ t d) hagain.2).trans ?_
        rw [serverStep, handleRequest_facilities, effect, hd]
        rfl
    exact congrArg calendarsOf (hnothing g.2 _ hcopies)

/-- The run over copies keeps the calendars of the run over the first of them, where the UUIDs drawn are different. -/
theorem calendarsOf_serverRun_flat {Γ : Jvm} {groups : List (Event × List Event)} (hcopies : AreCopies groups)
    (hproper : ∀ g ∈ groups, AsksForProper Γ g.1) {used : List UUID} {s : ServerState} (hids : Distinct used s)
    (hmode : s.checkHistory = false) (hdrawn : (used ++ drawnAlong Γ s (Machine.flat groups)).Nodup) :
    calendarsOf (serverRun Γ s (Machine.flat groups)).facilities = calendarsOf (serverRun Γ s (Machine.heads groups)).facilities := by
  have hrun : SameCalendars (serverRun Γ s (Machine.flat groups)) (serverRun Γ s (Machine.heads groups)) := by
    refine Machine.run_flat (fun _ => ⟨rfl, fun _ => rfl⟩)
      (fun _ _ _ h h' => ⟨h.1.trans h'.1, fun hoff => (h.2 hoff).trans (h'.2 (h.1.symm.trans hoff))⟩)
      (fun s s' a h => h.step a) groups ?_
    induction groups generalizing used s with
    | nil => trivial
    | cons g groups ih =>
      unfold AreCopies at hcopies
      rw [List.forall_mem_cons] at hcopies hproper
      rw [Machine.flat_cons, drawnAlong_append, ← List.append_assoc] at hdrawn
      have hfirst := (hids.run (List.Nodup.of_append_left hdrawn))
      refine ⟨sameCalendars_group hids hmode hcopies.1 hproper.1, ih hcopies.2 hproper.2 hfirst ?_ hdrawn⟩
      exact (serverRun_checkHistory Γ (g.1 :: g.2) s).trans hmode
  exact hrun.2 ((serverRun_checkHistory Γ _ s).trans hmode)

/-! ## Both -/

/-- What a datagram adds to the history has the key of the datagram. -/
theorem keys_serverStep {Γ : Jvm} {s : ServerState} {e : Event} {k : RequestKey}
    (h : k ∈ (serverStep Γ s e).requestHistory.map RequestInfo.key) :
    k ∈ s.requestHistory.map RequestInfo.key ∨ keyOf Γ e = some k := by
  have hhandling := handleRequest_handling Γ s e
  rw [serverStep] at h
  generalize handleRequest Γ s e = outcome at hhandling h
  cases hhandling with
  | undecodable => exact Or.inl h
  | echo => exact Or.inl h
  | replay => exact Or.inl h
  | thrown => exact Or.inl h
  | executed m r last monitors sent hm ho hp =>
    rw [List.map_append, List.mem_append] at h
    rcases h with h | h
    · exact Or.inl h
    · rw [List.map_singleton, List.mem_singleton] at h
      subst h
      refine Or.inr ?_
      simp only [keyOf, hm, ho, if_false]
      rfl

/-- A request whose key is new has the same effect whether the history is checked or not. -/
theorem effect_of_new {Γ : Jvm} {s s' : ServerState} {e : Event} (hmode : s.checkHistory = true) (hmode' : s'.checkHistory = false)
    (hsame : s.facilities = s'.facilities) (hnew : ∀ k, keyOf Γ e = some k → k ∉ s.requestHistory.map RequestInfo.key) :
    effect Γ s e = effect Γ s' e := by
  cases hm : deserializeMessage Γ e.bytes with
  | error x => rw [effect, effect, hm]
  | ok m =>
    rw [effect_atLeastOnce hmode' hm, ← hsame]
    simp only [effect, hm]
    by_cases ho : m.getOperation = .ECHO
    · rw [effectOf_echo ho, ite_self]
      exact (effectOf_echo ho).symm
    · have hkey : e.key m ∉ s.requestHistory.map RequestInfo.key := by
        refine hnew _ ?_
        simp only [keyOf, hm, ho, if_false]
        rfl
      rw [(replayOf_eq_none_iff hmode).2 hkey]
      rfl

/-- Where no two datagrams have a key in common, nothing is answered from the history. -/
theorem facilities_of_distinct_keys {Γ : Jvm} {es : List Event} (hkeys : (es.filterMap (keyOf Γ)).Nodup) {s s' : ServerState}
    (hmode : s.checkHistory = true) (hmode' : s'.checkHistory = false) (hsame : s.facilities = s'.facilities)
    (hnew : ∀ k ∈ es.filterMap (keyOf Γ), k ∉ s.requestHistory.map RequestInfo.key) :
    (serverRun Γ s es).facilities = (serverRun Γ s' es).facilities := by
  induction es generalizing s s' with
  | nil => exact hsame
  | cons e es ih =>
    have hfirst : ∀ k, keyOf Γ e = some k → k ∉ s.requestHistory.map RequestInfo.key := fun k hk =>
      hnew k (List.mem_filterMap.2 ⟨e, List.mem_cons_self, hk⟩)
    have hlater : ∀ k, keyOf Γ e = some k → k ∉ es.filterMap (keyOf Γ) := by
      intro k hk
      rw [List.filterMap_cons, hk] at hkeys
      exact (List.nodup_cons.1 hkeys).1
    have hrest : (es.filterMap (keyOf Γ)).Nodup := hkeys.sublist ((List.sublist_cons_self e es).filterMap _)
    have hstep : (serverStep Γ s e).facilities = (serverStep Γ s' e).facilities := by
      rw [serverStep, serverStep, handleRequest_facilities, handleRequest_facilities,
        effect_of_new hmode hmode' hsame hfirst, hsame]
    refine ih hrest ((handleRequest_checkHistory Γ s e).trans hmode) ((handleRequest_checkHistory Γ s' e).trans hmode') hstep ?_
    intro k hk hmem
    rcases keys_serverStep hmem with hold | hnow
    · exact hnew k (((List.sublist_cons_self e es).filterMap _).subset hk) hold
    · exact hlater k hnow hk

/-- Copies come right after their request, no two requests have a key in common, the bookings asked for end after they start, and no
UUID is drawn twice: then the server that checks its history and the one that does not keep the same calendars. -/
theorem modes_agree {Γ : Jvm} {groups : List (Event × List Event)} (hcopies : AreCopies groups)
    (hkeys : ((Machine.heads groups).filterMap (keyOf Γ)).Nodup) (hproper : ∀ g ∈ groups, AsksForProper Γ g.1)
    (huuids : ((Machine.flat groups).map Event.uuid).Nodup) :
    calendarsOf (serverRun Γ (.init true) (Machine.flat groups)).facilities =
      calendarsOf (serverRun Γ (.init false) (Machine.flat groups)).facilities := by
  have honce := reset_serverRun_flat (Γ := Γ) hcopies (s := .init true) rfl
  have hdrawn : ([] ++ drawnAlong Γ (.init false) (Machine.flat groups)).Nodup := huuids.sublist (drawnAlong_sublist Γ _ _)
  have hagain := calendarsOf_serverRun_flat hcopies hproper (distinct_init false) rfl hdrawn
  have hheads : (serverRun Γ (.init true) (Machine.heads groups)).facilities =
      (serverRun Γ (.init false) (Machine.heads groups)).facilities :=
    facilities_of_distinct_keys hkeys rfl rfl rfl fun _ _ hmem => absurd hmem List.not_mem_nil
  have hfirst := congrArg (fun s : ServerState => calendarsOf s.facilities) honce
  rw [hagain, ← hheads]
  exact hfirst

/-- The booking from nine to ten and its deletion, each arriving twice. -/
def repeated : List (Event × List Event) :=
  [(bookAtNine, [{ bookAtNine with uuid := ⟨0, 2⟩ }]), (deleteNine, [{ deleteNine with uuid := ⟨0, 3⟩ }])]

theorem modes_agree_repeated :
    calendarsOf (serverRun openJdk (.init true) (Machine.flat repeated)).facilities =
      calendarsOf (serverRun openJdk (.init false) (Machine.flat repeated)).facilities := by
  have hbook : deserializeMessage openJdk bookAtNine.bytes = .ok ⟨1, 0, some "Weekday1,MONDAY,9,0,10,0".toList⟩ :=
    deserializeMessage_frame _ _ fun t ht => by cases ht; decide
  have hdelete : deserializeMessage openJdk deleteNine.bytes =
      .ok ⟨3, 1, some "00000000-0000-0000-0000-000000000000,Weekday1".toList⟩ :=
    deserializeMessage_frame _ _ fun t ht => by cases ht; decide
  refine modes_agree ?_ ?_ ?_ (by decide)
  · intro g hg d hd
    simp only [repeated, List.mem_cons, List.not_mem_nil, or_false] at hg
    rcases hg with rfl | rfl <;> rw [List.mem_singleton.1 hd]
  · have hkeyBook : keyOf openJdk bookAtNine = some ⟨0, [127, 0, 0, 1], 5000⟩ := by
      simp only [keyOf, hbook]
      rfl
    have hkeyDelete : keyOf openJdk deleteNine = some ⟨1, [127, 0, 0, 1], 5000⟩ := by
      simp only [keyOf, hdelete]
      rfl
    simp only [Machine.heads, repeated, List.map_cons, List.map_nil, List.filterMap_cons, List.filterMap_nil, hkeyBook, hkeyDelete]
    decide
  · intro g hg m booking hm hbooking
    simp only [repeated, List.mem_cons, List.not_mem_nil, or_false] at hg
    rcases hg with rfl | rfl
    · cases hbook.symm.trans hm
      have hasked : asked openJdk ⟨1, 0, some "Weekday1,MONDAY,9,0,10,0".toList⟩ = .book atNine := rfl
      rw [hasked] at hbooking
      cases hbooking
      decide
    · cases hdelete.symm.trans hm
      cases hbooking

end FacilityBooking
