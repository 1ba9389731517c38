import FacilityBooking.Theorems.Notify
import FacilityBooking.Theorems.ReadYourWrites

/-!
# How long a monitor lives

Expired monitors are removed, all at once, whenever a request about bookings is executed, and the others of its facility are
notified. A monitor expires when more milliseconds have passed than its interval has, a product that Java computes in 32 bits: it is
right up to 2147483 seconds, and wraps from there on.
-/

namespace FacilityBooking

/-- What is sent is one notification for each of these monitors. -/
def SendsTo (s : ServerState) (outcome : Outcome) (notified : List Monitor) : Prop :=
  notified.Sublist s.monitors ∧ ∃ bytes, outcome.sent = notified.map (fun monitor => ⟨monitor.clientAddress, monitor.clientPort, bytes⟩)

/-- The notification of a facility that a monitor is due. -/
def dueTo (monitor : Monitor) (f : Facility) : Datagram :=
  ⟨monitor.clientAddress, monitor.clientPort, notification (availabilityText f)⟩

/-- A monitor lives as long as it was asked to: in a run after its registration, at every request that changes the bookings of its
facility, it is notified while its interval, in seconds, lasts, and after that it is gone and is never notified again. -/
def LivesAsAsked (Γ : Jvm) (s : ServerState) (monitor : Monitor) (interval : Int) (later : List Event) : Prop :=
  ∀ pre d post f f', later = pre ++ d :: post →
    getFacility (serverRun Γ s pre).facilities monitor.resourceName = some f →
    getFacility (serverRun Γ s (pre ++ [d])).facilities monitor.resourceName = some f' →
    f'.availability.bookedSlots ≠ f.availability.bookedSlots →
    (d.now.toInt - monitor.createdTime.toInt ≤ 1000 * interval →
      dueTo monitor f' ∈ (handleRequest Γ (serverRun Γ s pre) d).sent) ∧
    (1000 * interval < d.now.toInt - monitor.createdTime.toInt →
      monitor ∉ (serverRun Γ s (pre ++ [d])).monitors ∧
      ∀ pre' d' post', d :: post = pre' ++ d' :: post' →
        ∃ notified, SendsTo (serverRun Γ s (pre ++ pre')) (handleRequest Γ (serverRun Γ s (pre ++ pre')) d') notified ∧
          monitor ∉ notified)

/-! ## The clock -/

/-- The product of a short interval does not wrap. -/
theorem toInt_mul_1000 {interval : Int} (h : 1 ≤ interval) (hshort : interval ≤ 2147483) :
    ((BitVec.ofInt 32 interval * 1000).signExtend 64).toInt = 1000 * interval := by
  have hsmall : (BitVec.ofInt 32 interval).toInt = interval := by
    rw [BitVec.toInt_ofInt, Int.bmod_def]
    omega
  have hthousand : (1000 : BitVec 32).toInt = 1000 := by decide
  rw [BitVec.toInt_signExtend_of_le (by decide), BitVec.toInt_mul, hsmall, hthousand, Int.bmod_def]
  omega

/-- A monitor of a short interval is expired when more than the interval has passed. -/
theorem ifExpired_iff {monitor : Monitor} {interval : Int} (hinterval : monitor.monitorInterval = BitVec.ofInt 32 interval)
    (h : 1 ≤ interval) (hshort : interval ≤ 2147483) {now : BitVec 64} (hnow : monitor.createdTime.toInt ≤ now.toInt)
    (hspan : now.toInt - monitor.createdTime.toInt < 2 ^ 63) :
    monitor.ifExpired now = true ↔ 1000 * interval < now.toInt - monitor.createdTime.toInt := by
  have hdifference : (now - monitor.createdTime).toInt = now.toInt - monitor.createdTime.toInt := by
    rw [BitVec.toInt_sub, Int.bmod_def]
    omega
  rw [Monitor.ifExpired, BitVec.slt_iff_toInt_lt, hinterval, toInt_mul_1000 h hshort, hdifference]

/-! ## What a datagram does to the monitors -/

section

variable {Γ : Jvm} {checkHistory : Bool} {s : ServerState} {e : Event}

/-- A monitor that is not expired stays. -/
theorem mem_monitors_step {monitor : Monitor} (hmonitor : monitor ∈ s.monitors) (halive : monitor.ifExpired e.now = false) :
    monitor ∈ (serverStep Γ s e).monitors := by
  have hhandling := handleRequest_handling Γ s e
  rw [serverStep]
  generalize handleRequest Γ s e = outcome at hhandling ⊢
  cases hhandling with
  | undecodable => exact hmonitor
  | echo => exact hmonitor
  | replay => exact hmonitor
  | thrown => exact hmonitor
  | executed m r last monitors sent hm ho hp hd hr hmon =>
    have hkept : monitor ∈ (effectOf Γ s.facilities m).onMonitors m e s.monitors := by
      cases effectOf Γ s.facilities m with
      | register facilityName monitorInterval => exact List.mem_append_left _ hmonitor
      | _ => exact hmonitor
    rcases hmon with rfl | rfl
    · exact hkept
    · exact List.mem_filter.2 ⟨hkept, by rw [halive]; rfl⟩

/-- A monitor that comes is made at the time of the request. -/
theorem mem_monitors_of_step {monitor : Monitor} (hmonitor : monitor ∈ (serverStep Γ s e).monitors) :
    monitor ∈ s.monitors ∨ monitor.createdTime = e.now := by
  have hhandling := handleRequest_handling Γ s e
  rw [serverStep] at hmonitor
  generalize handleRequest Γ s e = outcome at hhandling hmonitor
  cases hhandling with
  | undecodable => exact Or.inl hmonitor
  | echo => exact Or.inl hmonitor
  | replay => exact Or.inl hmonitor
  | thrown => exact Or.inl hmonitor
  | executed m r last monitors sent hm ho hp hd hr hmon =>
    have hcame : monitor ∈ (effectOf Γ s.facilities m).onMonitors m e s.monitors := by
      rcases hmon with rfl | rfl
      · exact hmonitor
      · exact (List.mem_filter.1 hmonitor).1
    cases heffect : effectOf Γ s.facilities m with
    | register facilityName monitorInterval =>
      rw [heffect] at hcame
      rcases List.mem_append.1 hcame with hold | hnew
      · exact Or.inl hold
      · rw [List.mem_singleton] at hnew
        exact Or.inr (hnew ▸ rfl)
    | _ =>
      rw [heffect] at hcame
      exact Or.inl hcame

/-- A registration puts its monitor in. -/
theorem mem_monitors_of_register {m : RequestMessage} {facilityName : Text} {interval : Int}
    (hm : deserializeMessage Γ e.bytes = .ok m) (heffect : effect Γ s e = .register facilityName interval)
    (halive : Monitor.ifExpired ⟨facilityName, m.requestID, e.address, e.port, e.now, BitVec.ofInt 32 interval⟩ e.now = false) :
    ⟨facilityName, m.requestID, e.address, e.port, e.now, BitVec.ofInt 32 interval⟩ ∈ (serverStep Γ s e).monitors := by
  have hhandling := handleRequest_handling Γ s e
  rw [serverStep]
  unfold effect at heffect
  generalize handleRequest Γ s e = outcome at hhandling ⊢
  cases hhandling with
  | undecodable x hm' => cases hm.symm.trans hm'
  | echo m' hm' ho =>
    simp only [hm', effectOf_echo ho, ite_self, reduceCtorEq] at heffect
  | replay m' prevRequest hm' ho hp =>
    simp only [hm', hp, Option.isSome_some, if_true, reduceCtorEq] at heffect
  | thrown m' x hm' ho =>
    simp only [hm', effectOf_read ho, ite_self, reduceCtorEq] at heffect
  | executed m' r last monitors sent hm' ho hp hd hr hmon =>
    cases hm.symm.trans hm'
    simp only [hm', hp, Option.isSome_none, Bool.false_eq_true, if_false] at heffect
    rw [heffect] at hmon
    have hmade := List.mem_append_right s.monitors (List.mem_singleton_self
      (⟨facilityName, m.requestID, e.address, e.port, e.now, BitVec.ofInt 32 interval⟩ : Monitor))
    rcases hmon with rfl | rfl
    · exact hmade
    · exact List.mem_filter.2 ⟨hmade, by rw [halive]; rfl⟩

/-- The last block removes expired monitors when a facility is to be notified. -/
theorem notifyMonitors_monitors {s : ServerState} {m : RequestMessage} {name : Text} (now : BitVec 64)
    (hlast : s.lastUpdatedFacility = some name)
    (hop : m.getOperation = .WRITE ∨ m.getOperation = .UPDATE ∨ m.getOperation = .DELETE) :
    (notifyMonitors s m now).1.monitors = removeExpiredMonitors s.monitors now := by
  unfold notifyMonitors
  simp only [hlast, hop, if_true]
  split
  · split <;> rfl
  · rfl

/-- What a datagram sends are notifications that are due. -/
theorem handleRequest_sent (h : Reachable Γ checkHistory s) :
    (handleRequest Γ s e).sent = [] ∨ ∃ f, (handleRequest Γ s e).sent = notificationsOf s.monitors e.now f := by
  cases hm : deserializeMessage Γ e.bytes with
  | error x =>
    rw [handleRequest, hm]
    exact Or.inl rfl
  | ok m =>
    by_cases ho : m.getOperation = .ECHO
    · rw [handleRequest_of_echo hm ho]
      exact Or.inl rfl
    · cases hnew : replayOf s m e with
      | some prevRequest =>
        rw [handleRequest_of_replay hm ho hnew]
        exact Or.inl rfl
      | none =>
        have hnames : ∀ f ∈ s.reset.facilities, 'u' ∉ f.name := fun f hf => (reachable_name_letters h f hf).1
        rw [handleRequest_of_new hm ho hnew, execute_sent rfl hnames]
        generalize Option.bind _ _ = found
        cases found with
        | none => exact Or.inl rfl
        | some f => exact Or.inr ⟨f, rfl⟩

/-- So what is sent is sent to some monitors of the state. -/
theorem sendsTo_step (h : Reachable Γ checkHistory s) : ∃ notified, SendsTo s (handleRequest Γ s e) notified ∧
    ∀ monitor ∈ notified, monitor.ifExpired e.now = false := by
  rcases handleRequest_sent (e := e) h with hsent | ⟨f, hsent⟩
  · exact ⟨[], ⟨List.nil_sublist _, [], hsent⟩, List.forall_mem_nil _⟩
  · refine ⟨_, ⟨List.filter_sublist, _, hsent⟩, ?_⟩
    intro monitor hmonitor
    have hboth := (List.mem_filter.1 hmonitor).2
    rw [Bool.and_eq_true, Bool.not_eq_true'] at hboth
    exact hboth.2

end

/-! ## What a request does that changes bookings -/

section

variable {Γ : Jvm} {checkHistory : Bool} {s : ServerState} {e : Event} {m : RequestMessage} {name : Text} {f f' : Facility}

/-- A request that is about no bookings leaves the lists of bookings. -/
theorem bookedSlots_of_untouched {effect : Effect} (h : effect.touched? = none) {facilities : List Facility}
    (hf : getFacility facilities name = some f) (hf' : getFacility (effect.onFacilities Γ e facilities) name = some f') :
    f'.availability.bookedSlots = f.availability.bookedSlots := by
  cases effect with
  | book booking => cases h
  | move booking => cases h
  | remove facilityName bookingId => cases h
  | nothing =>
    cases hf.symm.trans hf'
    rfl
  | rate facilityName rating =>
    have hname : ∀ f : Facility, (f.addRating Γ rating).name = f.name := fun _ => rfl
    rw [Effect.onFacilities, getFacility_modifyFacility hname] at hf'
    split at hf'
    · rename_i heq
      rw [← heq, hf] at hf'
      cases hf'
      rfl
    · cases hf.symm.trans hf'
      rfl
  | register facilityName monitorInterval =>
    cases hf.symm.trans hf'
    rfl

/-- An effect that changes the bookings of a facility is about them. -/
theorem touched_of_change {effect : Effect} {facilities : List Facility} (hf : getFacility facilities name = some f)
    (hf' : getFacility (effect.onFacilities Γ e facilities) name = some f')
    (hne : f'.availability.bookedSlots ≠ f.availability.bookedSlots) : effect.touched? = some name := by
  cases ht : effect.touched? with
  | none => exact absurd (bookedSlots_of_untouched ht hf hf') hne
  | some name' =>
    by_contra hother
    rw [onFacilities_of_touched ht, getFacility_modifyFacility (effect.change_name e)] at hf'
    have hname : name ≠ name' := fun heq => hother (congrArg some heq.symm)
    rw [if_neg hname] at hf'
    cases hf.symm.trans hf'
    exact hne rfl

/-- What is executed for a facility that is there removes the expired monitors. -/
theorem execute_monitors (hlast : s.lastUpdatedFacility = none) (ht : (asked Γ m).touched? = some name)
    (hf : getFacility s.facilities name = some f) :
    (execute Γ s m e).state.monitors = removeExpiredMonitors s.monitors e.now := by
  have hne : (asked Γ m).touched? ≠ none := by
    rw [ht]
    exact Option.some_ne_none name
  have hop := operation_of_touched hne
  have hlast' := @dispatch_last Γ s m e hlast
  unfold execute
  rcases dispatch_cases Γ s m e with ⟨x, hread, _, _⟩ | ⟨last, r, _, hd⟩
  · rw [hread] at hop
    rcases hop with h | h | h <;> cases h
  · rw [hd] at hlast' ⊢
    obtain rfl : last = there s.facilities (asked Γ m).touched? := hlast'
    rw [ht, there_of_some hf, onMonitors_asked ht]
    exact notifyMonitors_monitors e.now rfl hop

/-- A datagram that changes the bookings of a facility notifies the monitors of the facility that are not expired, and removes those
that are. -/
theorem notified_of_change (h : Reachable Γ checkHistory s) (hf : getFacility s.facilities name = some f)
    (hf' : getFacility (serverStep Γ s e).facilities name = some f')
    (hne : f'.availability.bookedSlots ≠ f.availability.bookedSlots) :
    (handleRequest Γ s e).sent = notificationsOf s.monitors e.now f' ∧
      (serverStep Γ s e).monitors = removeExpiredMonitors s.monitors e.now := by
  rw [serverStep] at hf' ⊢
  have hchanged := hf'
  rw [handleRequest_facilities] at hchanged
  have ht := touched_of_change hf hchanged hne
  have heffect : effect Γ s e ≠ .nothing := by
    intro hnothing
    rw [hnothing] at ht
    cases ht
  obtain ⟨m, r, hm, hnew, hasked, _, _⟩ := request_of_effect heffect
  have ho : m.getOperation ≠ .ECHO := by
    intro hecho
    rw [hasked, asked, hecho] at ht
    cases ht
  rw [hasked] at ht
  have hafter : (effectOf Γ s.facilities m).onFacilities Γ e s.facilities = (handleRequest Γ s e).state.facilities := by
    rw [handleRequest_facilities, effect, hm]
    simp only [hnew, Option.isSome_none, Bool.false_eq_true, if_false]
  have hnames : ∀ f ∈ s.reset.facilities, 'u' ∉ f.name := fun f hf => (reachable_name_letters h f hf).1
  have hthere : there s.reset.facilities (some name) = some name := there_of_some hf
  have hafter' : (effectOf Γ s.reset.facilities m).onFacilities Γ e s.reset.facilities =
      (handleRequest Γ s e).state.facilities := hafter
  constructor
  · rw [handleRequest_of_new hm ho hnew, execute_sent rfl hnames, hafter', ht, hthere, Option.bind_some, hf']
    rfl
  · rw [handleRequest_of_new hm ho hnew]
    exact execute_monitors rfl ht hf

end

/-! ## Runs -/

section

variable {Γ : Jvm} {checkHistory : Bool} {s : ServerState} {monitor : Monitor}

/-- A monitor that is not expired at any datagram of a run stays. -/
theorem mem_monitors_run (hmonitor : monitor ∈ s.monitors) {es : List Event}
    (halive : ∀ d ∈ es, monitor.ifExpired d.now = false) : monitor ∈ (serverRun Γ s es).monitors := by
  induction es generalizing s with
  | nil => exact hmonitor
  | cons d es ih =>
    rw [List.forall_mem_cons] at halive
    exact ih (mem_monitors_step hmonitor halive.1) halive.2

/-- A monitor that is gone does not come back at another time than its own. -/
theorem notMem_monitors_run (hmonitor : monitor ∉ s.monitors) {es : List Event} (hlater : ∀ d ∈ es, monitor.createdTime ≠ d.now) :
    monitor ∉ (serverRun Γ s es).monitors := by
  induction es generalizing s with
  | nil => exact hmonitor
  | cons d es ih =>
    rw [List.forall_mem_cons] at hlater
    refine ih (fun hstep => ?_) hlater.2
    rcases mem_monitors_of_step hstep with hold | hnew
    · exact hmonitor hold
    · exact hlater.1 hnew

/-- What is known of a monitor before a run: it is there, it is not younger than the run, the clock does not go back, and it expires
when its interval has passed. -/
structure Watched (s : ServerState) (monitor : Monitor) (interval : Int) (later : List Event) : Prop where
  made : monitor ∈ s.monitors
  clock : later.Pairwise (fun d d' => d.now.toInt ≤ d'.now.toInt)
  expires : ∀ d ∈ later, monitor.ifExpired d.now = true ↔ 1000 * interval < d.now.toInt - monitor.createdTime.toInt

variable {interval : Int} {later pre post : List Event} {d : Event} {f f' : Facility}

/-- While its interval lasts, the monitor is there and is not expired. -/
theorem Watched.alive (h : Watched s monitor interval later) (hlater : later = pre ++ d :: post)
    (hlasts : d.now.toInt - monitor.createdTime.toInt ≤ 1000 * interval) :
    monitor ∈ (serverRun Γ s pre).monitors ∧ monitor.ifExpired d.now = false := by
  have hclock := h.clock
  rw [hlater, List.pairwise_append] at hclock
  -- what is not expired now was not expired at an earlier request either
  have halive : ∀ d' ∈ pre ++ [d], monitor.ifExpired d'.now = false := by
    intro d' hd'
    have hle : d'.now.toInt ≤ d.now.toInt := by
      rcases List.mem_append.1 hd' with hpre | hself
      · exact hclock.2.2 d' hpre d List.mem_cons_self
      · rw [List.mem_singleton.1 hself]
    have hmem : d' ∈ later := by
      rw [hlater, List.append_cons]
      exact List.mem_append_left _ hd'
    rw [← Bool.not_eq_true, h.expires d' hmem]
    omega
  rw [List.forall_mem_append, List.forall_mem_singleton] at halive
  exact ⟨mem_monitors_run h.made halive.1, halive.2⟩

/-- Once its interval has passed at a request that removes the expired monitors, the monitor is gone for good. -/
theorem Watched.gone (h : Watched s monitor interval later) (hlater : later = pre ++ d :: post) (hpositive : 1 ≤ interval)
    (hover : 1000 * interval < d.now.toInt - monitor.createdTime.toInt)
    (hremoved : (serverRun Γ s (pre ++ [d])).monitors = removeExpiredMonitors (serverRun Γ s pre).monitors d.now) {between : List Event}
    (hbetween : ∀ x ∈ between, x ∈ post) : monitor ∉ (serverRun Γ s (pre ++ d :: between)).monitors := by
  have hclock := h.clock
  rw [hlater, List.pairwise_append, List.pairwise_cons] at hclock
  have hd : d ∈ later := by
    rw [hlater]
    exact List.mem_append_right _ List.mem_cons_self
  have hgone : monitor ∉ (serverRun Γ s (pre ++ [d])).monitors := by
    rw [hremoved]
    intro hmem
    have halive := (List.mem_filter.1 hmem).2
    rw [(h.expires d hd).2 hover] at halive
    cases halive
  have hrun : serverRun Γ s (pre ++ d :: between) = serverRun Γ (serverRun Γ s (pre ++ [d])) between := by
    rw [List.append_cons]
    exact Machine.run_append _ _ _
  rw [hrun]
  refine notMem_monitors_run hgone fun x hx heq => ?_
  have hle := hclock.2.1.1 x (hbetween x hx)
  rw [← heq] at hle
  omega

/-- At the first request of the run. -/
theorem LivesAsAsked.first (h : LivesAsAsked Γ s monitor interval (d :: post))
    (hf : getFacility s.facilities monitor.resourceName = some f)
    (hf' : getFacility (serverStep Γ s d).facilities monitor.resourceName = some f')
    (hne : f'.availability.bookedSlots ≠ f.availability.bookedSlots)
    (hlasts : d.now.toInt - monitor.createdTime.toInt ≤ 1000 * interval) : dueTo monitor f' ∈ (handleRequest Γ s d).sent :=
  (h [] d post f f' rfl hf hf' hne).1 hlasts

/-- A monitor that expires when its interval has passed lives as long as it was asked to. -/
theorem Watched.lives (h : Watched s monitor interval later) (hs : Reachable Γ checkHistory s) (hpositive : 1 ≤ interval) :
    LivesAsAsked Γ s monitor interval later := by
  intro pre d post f f' hlater hf hf' hne
  have hlast : serverRun Γ s (pre ++ [d]) = serverStep Γ (serverRun Γ s pre) d := Machine.run_append _ _ _
  have hd : d ∈ later := by
    rw [hlater]
    exact List.mem_append_right _ List.mem_cons_self
  have hreachable : Reachable Γ checkHistory (serverRun Γ s pre) := hs.run pre
  rw [hlast] at hf'
  obtain ⟨hsent, hmonitors⟩ := notified_of_change hreachable hf hf' hne
  rw [← hlast] at hmonitors
  constructor
  · intro hlasts
    obtain ⟨hstays, halive⟩ := h.alive (Γ := Γ) hlater hlasts
    rw [hsent]
    refine List.mem_map.2 ⟨monitor, List.mem_filter.2 ⟨hstays, ?_⟩, rfl⟩
    rw [halive, getFacility_name hf', decide_eq_true rfl]
    rfl
  · intro hover
    refine ⟨h.gone hlater hpositive hover hmonitors (List.forall_mem_nil _), ?_⟩
    intro pre' d' post' hrest
    obtain ⟨notified, hsends, halive⟩ := sendsTo_step (e := d') (hs.run (pre ++ pre'))
    refine ⟨notified, hsends, fun hmem => ?_⟩
    cases pre' with
    | nil =>
      cases hrest
      have hdead := (h.expires d hd).2 hover
      rw [halive monitor hmem] at hdead
      cases hdead
    | cons d'' pre' =>
      obtain ⟨rfl, hpost⟩ := List.cons.inj hrest
      refine h.gone hlater hpositive hover hmonitors (fun x hx => ?_) (hsends.1.subset hmem)
      rw [hpost]
      exact List.mem_append_left _ hx

end

/-- A monitor with an interval of at most 2147483 seconds lives as long as it was asked to, in every run after its registration in
which the clock does not go back and less than 2⁶³ milliseconds pass. -/
theorem monitor_lives_as_asked {Γ : Jvm} {checkHistory : Bool} {s : ServerState} (h : Reachable Γ checkHistory s) (e : Event)
    (m : RequestMessage) (facilityName : Text) (interval : Int) (hm : deserializeMessage Γ e.bytes = .ok m)
    (hregister : effect Γ s e = .register facilityName interval) (hpositive : 1 ≤ interval) (hshort : interval ≤ 2147483)
    (later : List Event) (hclock : (e :: later).Pairwise (fun d d' => d.now.toInt ≤ d'.now.toInt))
    (hspan : ∀ d ∈ later, d.now.toInt - e.now.toInt < 2 ^ 63) :
    LivesAsAsked Γ (serverStep Γ s e) ⟨facilityName, m.requestID, e.address, e.port, e.now, BitVec.ofInt 32 interval⟩ interval
      later := by
  rw [List.pairwise_cons] at hclock
  refine Watched.lives ⟨mem_monitors_of_register hm hregister ?_, hclock.2, ?_⟩ (h.step e) hpositive
  · rw [← Bool.not_eq_true, ifExpired_iff rfl hpositive hshort (le_refl _)]
    · dsimp only
      omega
    · dsimp only
      omega
  · intro d hd
    exact ifExpired_iff rfl hpositive hshort (hclock.1 d hd) (hspan d hd)

/-! ## A monitor of a minute, and one of twenty-five days -/

/-- A request for a slot of the facility that is monitored. -/
def bookMonitored : RequestMessage := ⟨1, 1, some "Weekday1,MONDAY,9,0,10,0".toList⟩

theorem monitor_lives_as_asked_minute :
    LivesAsAsked openJdk monitored ⟨"Weekday1".toList, 0, ⟨[127, 0, 0, 1], "127.0.0.1".toList⟩, 5000, 0, 60⟩ 60
      [.sent 5001 bookMonitored ⟨0, 1⟩] := by
  refine monitor_lives_as_asked (s := .init true) .start (.sent 5000 registerMonitor ⟨0, 0⟩) registerMonitor "Weekday1".toList 60
    (deserializeMessage_frame openJdk registerMonitor fun t ht => by cases ht; decide) ?_ (by decide) (by decide) _ ?_ ?_
  · rw [effect_frame (m := registerMonitor) rfl fun t ht => by cases ht; decide]
    rfl
  · exact List.pairwise_pair.2 (le_refl _)
  · intro d hd
    rw [List.mem_singleton.1 hd]
    decide

/-- The registration of a monitor for 2147484 seconds. -/
def registerLong : RequestMessage := ⟨4, 0, some "register,Weekday1,2147484".toList⟩

/-- The monitor, and the server when it is registered. -/
def longMonitor : Monitor := ⟨"Weekday1".toList, 0, ⟨[127, 0, 0, 1], "127.0.0.1".toList⟩, 5000, 0, 2147484⟩
def longMonitored : ServerState := serverStep openJdk (.init true) (.sent 5000 registerLong ⟨0, 0⟩)

theorem longMonitored_eq : longMonitored =
    { ServerState.init true with
      monitors := [longMonitor]
      requestHistory := [⟨registerLong, ⟨[127, 0, 0, 1], "127.0.0.1".toList⟩, 5000,
        ⟨4, 0, success (lines [line "facility" "Weekday1".toList, line "interval" (decimal 2147484)])⟩⟩] } := by
  have hm : deserializeMessage openJdk (Event.sent 5000 registerLong ⟨0, 0⟩).bytes = .ok registerLong :=
    deserializeMessage_frame openJdk registerLong fun t ht => by cases ht; decide
  rw [longMonitored, serverStep, handleRequest_of_new hm (by decide) rfl]
  rfl

/-- The facility with the slot booked. -/
def monitoredFacility : Facility :=
  (Facility.new "Weekday1".toList).setAvailability
    (ServerState.weekday1.bookTimeSlot (UUID.toText ⟨0, 1⟩) (Event.sent 5001 bookMonitored ⟨0, 1⟩).userInfo ⟨9, 0, 10, 0, .MONDAY⟩)

theorem longMonitored_booked :
    getFacility (serverStep openJdk longMonitored (.sent 5001 bookMonitored ⟨0, 1⟩)).facilities "Weekday1".toList =
      some monitoredFacility := by
  have hnew : replayOf longMonitored bookMonitored (.sent 5001 bookMonitored ⟨0, 1⟩) = none := by
    rw [longMonitored_eq]
    rfl
  rw [serverStep_frame (m := bookMonitored) rfl (fun t ht => by cases ht; decide) hnew, longMonitored_eq]
  rfl

/-- At the very time of its registration, the monitor is taken for expired. -/
theorem not_monitor_lives_as_asked :
    ¬∀ checkHistory s, Reachable openJdk checkHistory s → ∀ (e : Event) (m : RequestMessage) (facilityName : Text) (interval : Int),
      deserializeMessage openJdk e.bytes = .ok m → effect openJdk s e = .register facilityName interval → 1 ≤ interval →
      ∀ later : List Event, (e :: later).Pairwise (fun d d' => d.now.toInt ≤ d'.now.toInt) →
      (∀ d ∈ later, d.now.toInt - e.now.toInt < 2 ^ 63) →
      LivesAsAsked openJdk (serverStep openJdk s e)
        ⟨facilityName, m.requestID, e.address, e.port, e.now, BitVec.ofInt 32 interval⟩ interval later := by
  intro h
  have hreachable : Reachable openJdk true longMonitored := by
    unfold longMonitored
    exact .step .start _
  have heffect : effect openJdk (.init true) (.sent 5000 registerLong ⟨0, 0⟩) = .register "Weekday1".toList 2147484 := by
    rw [effect_frame (m := registerLong) rfl fun t ht => by cases ht; decide]
    rfl
  have hlives : LivesAsAsked openJdk longMonitored longMonitor 2147484 [.sent 5001 bookMonitored ⟨0, 1⟩] := by
    refine h true _ .start (.sent 5000 registerLong ⟨0, 0⟩) registerLong "Weekday1".toList 2147484
      (deserializeMessage_frame openJdk registerLong fun t ht => by cases ht; decide) heffect (by decide) _ ?_ ?_
    · exact List.pairwise_pair.2 (le_refl _)
    · intro d hd
      rw [List.mem_singleton.1 hd]
      decide
  have hfacility : getFacility longMonitored.facilities "Weekday1".toList =
      some ((Facility.new "Weekday1".toList).setAvailability ServerState.weekday1) := by
    rw [longMonitored_eq]
    rfl
  have hne : monitoredFacility.availability.bookedSlots ≠ ServerState.weekday1.bookedSlots := by
    intro heq
    cases congrFun heq .MONDAY
  obtain ⟨hsent, _⟩ := notified_of_change hreachable hfacility longMonitored_booked hne
  have hnotified := hlives.first hfacility longMonitored_booked hne (by decide)
  have hsent' : (handleRequest openJdk longMonitored (.sent 5001 bookMonitored ⟨0, 1⟩)).sent = [] := by
    rw [hsent, longMonitored_eq]
    rfl
  rw [hsent'] at hnotified
  exact List.not_mem_nil hnotified

end FacilityBooking
