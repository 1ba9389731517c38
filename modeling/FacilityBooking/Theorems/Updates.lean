import FacilityBooking.Theorems.Lifetime
import FacilityBooking.Theorems.Linearizable

/-!
# What monitoring clients are told

A notification is never older than the server makes it: what a client that monitors a facility is sent is what is free there right after
a request about the facility, while the registration lasts that the client itself has asked for. And all that is due is sent.
-/

namespace FacilityBooking

section

variable {Γ : Jvm} {checkHistory : Bool} {s : ServerState} {e : Event} {monitor : Monitor} {f : Facility}

/-! ## Registrations -/

/-- A datagram that a monitor comes from: the request to register it, at the time and from the place that the monitor says. -/
def Registers (Γ : Jvm) (s : ServerState) (e : Event) (monitor : Monitor) : Prop :=
  ∃ m interval, deserializeMessage Γ e.bytes = .ok m ∧ effect Γ s e = .register monitor.resourceName interval ∧
    monitor = ⟨monitor.resourceName, m.requestID, e.address, e.port, e.now, BitVec.ofInt 32 interval⟩

/-- A monitor is there before a datagram or comes from it. -/
theorem registers_of_step (h : monitor ∈ (serverStep Γ s e).monitors) : monitor ∈ s.monitors ∨ Registers Γ s e monitor := by
  have hhandling := handleRequest_handling Γ s e
  rw [serverStep] at h
  generalize handleRequest Γ s e = outcome at hhandling h
  cases hhandling with
  | undecodable => exact Or.inl h
  | echo => exact Or.inl h
  | replay => exact Or.inl h
  | thrown => exact Or.inl h
  | executed m r last monitors sent hm ho hp hd hr hmon =>
    have hcame : monitor ∈ (effectOf Γ s.facilities m).onMonitors m e s.monitors := by
      rcases hmon with rfl | rfl
      · exact h
      · exact (List.mem_filter.1 h).1
    have hexecuted : effect Γ s e = effectOf Γ s.facilities m := by
      simp only [effect, hm, hp, Option.isSome_none, Bool.false_eq_true, if_false]
    cases heffect : effectOf Γ s.facilities m with
    | register facilityName interval =>
      rw [heffect] at hcame
      rcases List.mem_append.1 hcame with hold | hnew
      · exact Or.inl hold
      · obtain rfl := List.mem_singleton.1 hnew
        exact Or.inr ⟨m, interval, hm, hexecuted.trans heffect, rfl⟩
    | _ =>
      rw [heffect] at hcame
      exact Or.inl hcame

/-- Every monitor has been registered. -/
theorem registered (es : List Event) (h : monitor ∈ (serverRun Γ (.init checkHistory) es).monitors) :
    ∃ before e after, es = before ++ e :: after ∧ Registers Γ (serverRun Γ (.init checkHistory) before) e monitor := by
  have hgiven := @Machine.exists_given _ _ (serverStep Γ) (fun s => monitor ∈ s.monitors) (fun s e => Registers Γ s e monitor)
    (fun _ _ => registers_of_step) es (.init checkHistory) h
  exact hgiven.resolve_left List.not_mem_nil

/-- A registration is executed. -/
theorem exists_executed_of_effect (h : effect Γ s e ≠ .nothing) :
    ∃ x ∈ executed Γ s e, deserializeMessage Γ e.bytes = .ok x.request := by
  obtain ⟨m, r, hm, hnew, hasked, _⟩ := request_of_effect h
  have hecho : m.getOperation ≠ .ECHO := by
    intro hecho
    rw [hasked, asked, hecho] at h
    exact h rfl
  exact ⟨_, executed_of_new hm hecho hnew ▸ List.mem_singleton_self _, hm⟩

/-! ## Notifications -/

/-- A notification is due: a request about the facility is executed, the monitor is one of the facility's and has not expired, and the
facility is then as the notification says. -/
structure Due (Γ : Jvm) (s : ServerState) (e : Event) (monitor : Monitor) (f : Facility) : Prop where
  executed : ∃ x ∈ executed Γ s e, (asked Γ x.request).touched? = some monitor.resourceName
  made : monitor ∈ s.monitors
  alive : monitor.ifExpired e.now = false
  facility : getFacility (serverStep Γ s e).facilities monitor.resourceName = some f

/-- A notification is sent to each monitor of the facility that lives. -/
theorem mem_notificationsOf {monitors : List Monitor} {now : BitVec 64} {d : Datagram} : d ∈ notificationsOf monitors now f ↔
    ∃ monitor ∈ monitors, monitor.resourceName = f.name ∧ monitor.ifExpired now = false ∧ d = dueTo monitor f := by
  simp only [notificationsOf, dueTo, List.mem_map, List.mem_filter, Bool.and_eq_true, decide_eq_true_eq, Bool.not_eq_true']
  constructor
  · rintro ⟨monitor, ⟨hmonitor, hname, halive⟩, rfl⟩
    exact ⟨monitor, hmonitor, hname, halive, rfl⟩
  · rintro ⟨monitor, hmonitor, hname, halive, rfl⟩
    exact ⟨monitor, ⟨hmonitor, hname, halive⟩, rfl⟩

/-- Facilities are found by their names alone. -/
theorem isSome_getFacility_iff {facilities : List Facility} {name : Text} :
    (getFacility facilities name).isSome ↔ name ∈ facilities.map Facility.name := by
  rw [getFacility, List.find?_isSome, List.mem_map]
  simp only [decide_eq_true_eq]

theorem there_bind {facilities facilities' : List Facility} (h : facilities'.map Facility.name = facilities.map Facility.name)
    (name : Option Text) : (there facilities name).bind (getFacility facilities') = name.bind (getFacility facilities') := by
  cases name with
  | none => rfl
  | some name =>
    cases hf : getFacility facilities name with
    | some f => rw [there_of_some hf]
    | none =>
      have hnot : ¬(getFacility facilities' name).isSome := by
        rw [isSome_getFacility_iff, h, ← isSome_getFacility_iff, hf]
        exact Bool.false_ne_true
      rw [there_of_none hf]
      exact (Option.not_isSome_iff_eq_none.1 hnot).symm

/-- What an executed request sends are the notifications of the facility that it is about, as it then is. -/
theorem sent_of_executed (hs : Reachable Γ checkHistory s) {x : Execution} (hx : x ∈ executed Γ s e) :
    (handleRequest Γ s e).sent =
      ((asked Γ x.request).touched?.bind (getFacility (serverStep Γ s e).facilities)).elim [] (notificationsOf s.monitors e.now) := by
  obtain ⟨hm, hecho, hnew, _⟩ := of_mem_executed hx
  have hnames : ∀ f ∈ s.reset.facilities, 'u' ∉ f.name := fun f hf => (reachable_name_letters hs f hf).1
  have hfacilities : (serverStep Γ s e).facilities = (effectOf Γ s.facilities x.request).onFacilities Γ e s.facilities := by
    rw [serverStep, handleRequest_facilities]
    simp only [effect, hm, hnew, Option.isSome_none, Bool.false_eq_true, if_false]
  have hsent := @execute_sent Γ s.reset x.request e rfl hnames
  rw [← handleRequest_of_new hm hecho hnew] at hsent
  have hbind := there_bind (onFacilities_names (Γ := Γ) (e := e) (effectOf Γ s.facilities x.request) s.facilities)
    (asked Γ x.request).touched?
  rw [hfacilities, ← hbind]
  exact hsent

/-- Where nothing is executed, nothing is sent but a reply. -/
theorem sent_of_unexecuted (h : executed Γ s e = []) : (handleRequest Γ s e).sent = [] := by
  have hhandling := handleRequest_handling Γ s e
  generalize handleRequest Γ s e = outcome at hhandling ⊢
  cases hhandling with
  | executed m r last monitors sent hm ho hp =>
    simp only [executed, hm, ho, hp, Option.isSome_none, Bool.false_eq_true, or_self, if_false, reduceCtorEq] at h
  | _ => rfl

/-- All that is due is sent, and nothing else. -/
theorem mem_sent_iff (hs : Reachable Γ checkHistory s) {d : Datagram} :
    d ∈ (handleRequest Γ s e).sent ↔ ∃ monitor f, Due Γ s e monitor f ∧ d = dueTo monitor f := by
  constructor
  · intro hd
    rcases executed_cases Γ s e with hnone | ⟨x, hx⟩
    · rw [sent_of_unexecuted hnone] at hd
      exact absurd hd List.not_mem_nil
    · have hmem : x ∈ executed Γ s e := hx ▸ List.mem_singleton_self x
      rw [sent_of_executed hs hmem] at hd
      cases hfound : (asked Γ x.request).touched?.bind (getFacility (serverStep Γ s e).facilities) with
      | none =>
        rw [hfound] at hd
        exact absurd hd List.not_mem_nil
      | some f =>
        rw [hfound] at hd
        obtain ⟨name, htouched, hf⟩ := Option.bind_eq_some_iff.1 hfound
        obtain ⟨monitor, hmonitor, hname, halive, rfl⟩ := mem_notificationsOf.1 hd
        obtain rfl : monitor.resourceName = name := hname.trans (getFacility_name hf)
        exact ⟨monitor, f, ⟨⟨x, hmem, htouched⟩, hmonitor, halive, hf⟩, rfl⟩
  · rintro ⟨monitor, f, ⟨⟨x, hx, htouched⟩, hmonitor, halive, hf⟩, rfl⟩
    rw [sent_of_executed hs hx, htouched, Option.bind_some, hf]
    exact mem_notificationsOf.2 ⟨monitor, hmonitor, (getFacility_name hf).symm, halive, rfl⟩

/-- The frame of a reply does not start like a notification. -/
theorem not_isNotification_reply {responseMessage : RequestMessage} {d : Datagram} (hd : d ∈ reply Γ e responseMessage) :
    ¬IsNotification d := by
  intro hnotification
  obtain ⟨tail, hbytes⟩ := bytes_of_isNotification hnotification
  obtain ⟨rfl, _⟩ := mem_reply hd
  have hfirst : (1 : UInt8) = 82 := (List.cons.inj hbytes).1
  exact absurd hfirst (by decide)

theorem isNotification_dueTo (monitor : Monitor) (f : Facility) : IsNotification (dueTo monitor f) := ⟨_, rfl⟩

/-- So of all that the server sends, the notifications are what is due. -/
theorem mem_answers_iff (hs : Reachable Γ checkHistory s) {d : Datagram} :
    d ∈ System.answers Γ s e ∧ IsNotification d ↔ ∃ monitor f, Due Γ s e monitor f ∧ d = dueTo monitor f := by
  rw [← mem_sent_iff hs]
  constructor
  · rintro ⟨hd, hnotification⟩
    rcases List.mem_append.1 hd with hsent | hreply
    · exact hsent
    · cases hresult : (handleRequest Γ s e).result with
      | ok r =>
        rw [hresult] at hreply
        exact absurd hnotification (not_isNotification_reply hreply)
      | error x =>
        rw [hresult] at hreply
        exact absurd hreply List.not_mem_nil
  · intro hd
    refine ⟨List.mem_append_left _ hd, ?_⟩
    obtain ⟨monitor, f, _, rfl⟩ := (mem_sent_iff hs).1 hd
    exact isNotification_dueTo monitor f

end

/-! ## Screens -/

/-- What is shown of a notification that is received whole. -/
theorem parse_dueTo {checkHistory : Bool} {Γ : Jvm} {s : ServerState} (hs : Reachable Γ checkHistory s) {monitor : Monitor} {f : Facility}
    (hf : getFacility s.facilities monitor.resourceName = some f)
    (hslots : ∀ day, ∀ slot ∈ f.availability.getAvailableTimeSlots day, slot.IsTwoDigit) :
    Cpp.ResponseParser.parseQueryAvailabilityResponse (dueTo monitor f).bytes [] =
      (shown monitor.resourceName f.availability.getAvailableTimeSlots []).map getBytes := by
  have hline : '\n' ∉ monitor.resourceName := by
    rw [← getFacility_name hf]
    exact (reachable_name_letters hs f (getFacility_mem hf)).2
  have htext : "status:SUCCESS\n".toList ++ availabilityText f =
      slotsMessage monitor.resourceName f.availability.getAvailableTimeSlots [] :=
    Option.some.inj ((formatFacilityAvailability_of_some hf).symm.trans (formatFacilityAvailability_eq hf []))
  have hsent : dueTo monitor f ∈ notifyAll [monitor] monitor.resourceName ("status:SUCCESS\n".toList ++ availabilityText f) :=
    List.mem_map.2 ⟨monitor, List.mem_filter.2 ⟨List.mem_singleton_self monitor, decide_eq_true rfl⟩, rfl⟩
  have hfirst : "RequestMessage: 0 0 ".toList ++ slotsMessage monitor.resourceName f.availability.getAvailableTimeSlots [] =
      "RequestMessage: 0 0 status:SUCCESS".toList ++
        '\n' :: slotsText monitor.resourceName f.availability.getAvailableTimeSlots [] := rfl
  have hnewline : getBytes ('\n' :: slotsText monitor.resourceName f.availability.getAvailableTimeSlots []) =
      10 :: getBytes (slotsText monitor.resourceName f.availability.getAvailableTimeSlots []) := rfl
  rw [notification_bytes hsent, htext, hfirst, getBytes_append, hnewline]
  exact @Cpp.ResponseParser.parse_slotsText monitor.resourceName f.availability.getAvailableTimeSlots [] _ (by decide) (by decide)
    hline hslots

/-- In either mode and whatever the network does to the datagrams of any number of clients: the notifications that the server sends are those that are due
when a request about a facility is executed, to every monitor of the facility that has not expired. Each monitor comes from a request of
the client that it is sent to, which was executed before, and a notification that fits the client's buffer is shown as what is free in
the facility right after the request that it is due to. -/
theorem updates_tell {ι : Type} [DecidableEq ι] (Γ : Jvm) (checkHistory : Bool) (endpoint : ι → Endpoint)
    (hendpoint : System.Distinct endpoint) (S : System ι) (h : System.Reachable Γ checkHistory endpoint S) :
    ∃ es, S.Received Γ checkHistory endpoint es ∧
      (∀ d, d ∈ S.replies ∧ IsNotification d ↔ ∃ before e after monitor f, es = before ++ e :: after ∧
        Due Γ (serverRun Γ (.init checkHistory) before) e monitor f ∧ d = dueTo monitor f) ∧
      ∀ before e after monitor f, es = before ++ e :: after → Due Γ (serverRun Γ (.init checkHistory) before) e monitor f →
        (∃ earlier r later i, ∃ request ∈ (S.clients i).requests, before = earlier ++ r :: later ∧
          Registers Γ (serverRun Γ (.init checkHistory) earlier) r monitor ∧ deserializeMessage Γ r.bytes = .ok (decoded Γ request) ∧
          monitor.clientAddress = (endpoint i).address ∧ monitor.clientPort = (endpoint i).port) ∧
        ((dueTo monitor f).bytes.length ≤ Cpp.Constants.BUFFER_SIZE →
          (∀ day, ∀ slot ∈ f.availability.getAvailableTimeSlots day, slot.IsTwoDigit) →
          Cpp.ResponseParser.parseQueryAvailabilityResponse ((dueTo monitor f).bytes.take Cpp.Constants.BUFFER_SIZE) [] =
            (shown monitor.resourceName f.availability.getAvailableTimeSlots []).map getBytes) := by
  have hinv := System.invariant_reachable hendpoint h
  obtain ⟨es, hes⟩ := System.received_reachable hendpoint h
  have hreach : ∀ before, Reachable Γ checkHistory (serverRun Γ (.init checkHistory) before) :=
    fun before => Machine.Reachable.start.run before
  refine ⟨es, hes, ?_, ?_⟩
  · intro d
    rw [hes.replies, Machine.mem_emitted_iff]
    constructor
    · rintro ⟨⟨before, e, after, hsplit, hd⟩, hnotification⟩
      obtain ⟨monitor, f, hdue, rfl⟩ := (mem_answers_iff (hreach before)).1 ⟨hd, hnotification⟩
      exact ⟨before, e, after, monitor, f, hsplit, hdue, rfl⟩
    · rintro ⟨before, e, after, monitor, f, hsplit, hdue, hd⟩
      obtain ⟨hsent, hnotification⟩ := (mem_answers_iff (hreach before)).2 ⟨monitor, f, hdue, hd⟩
      exact ⟨⟨before, e, after, hsplit, hsent⟩, hnotification⟩
  · rintro before e after monitor f rfl hdue
    constructor
    · obtain ⟨earlier, r, later, rfl, hregisters⟩ := registered before hdue.made
      obtain ⟨m, interval, hm, heffect, hmonitor⟩ := hregisters
      have hne : effect Γ (serverRun Γ (.init checkHistory) earlier) r ≠ .nothing := by
        rw [heffect]
        exact Effect.noConfusion
      -- the registration is an execution, so it is one of a request of a client
      obtain ⟨x, hx, hmx⟩ := exists_executed_of_effect hne
      have hexecution : x ∈ S.executions := by
        rw [hes.executions, Machine.mem_emitted_iff]
        exact ⟨earlier, r, later ++ e :: after, by simp, hx⟩
      obtain ⟨i, request, hrequest, hasked, haddress, hport, _⟩ := hinv.executions x hexecution
      obtain ⟨_, _, _, hfrom, hat, _⟩ := of_mem_executed hx
      refine ⟨earlier, r, later, i, request, hrequest, rfl, ⟨m, interval, hm, heffect, hmonitor⟩, hasked ▸ hmx, ?_, ?_⟩
      · rw [hmonitor]
        exact hfrom.symm.trans haddress
      · rw [hmonitor]
        exact hat.symm.trans hport
    · intro hlength hslots
      rw [List.take_of_length_le hlength]
      exact parse_dueTo ((hreach before).step e) hdue.facility hslots

/-- A client that monitors a facility, where another books a slot: its request as a datagram, and as the server receives it. -/
def askMonitor : Cpp.RequestMessage := ⟨4, 0, Cpp.literal "register,Weekday1,60"⟩
def monitorDatagram : Datagram := ⟨(twoClients true).address, 5000, Cpp.JavaSerializer.serialize (some askMonitor)⟩
def monitorEvent : Event := .sent 5000 registerMonitor ⟨0, 0⟩

/-- The system in which both have asked, and then the one in which both have been served. -/
def bothAsked : System Bool :=
  let S := (System.init true).withClient true (Cpp.Client.new.call askMonitor.requestType askMonitor.data)
  let S := (S.withClient true ((S.clients true).sendRequest askMonitor 0)).post monitorDatagram
  let S := S.withClient false ((S.clients false).call askMorning.requestType askMorning.data)
  (S.withClient false ((S.clients false).sendRequest askMorning 0)).post morningDatagram
def monitorServed : System Bool := bothAsked.serve openJdk monitorEvent
def morningServed : System Bool := monitorServed.serve openJdk morningEvent

theorem monitorEvent_eq : monitorEvent =
    ⟨⟨monitorDatagram.address, monitorDatagram.port, monitorDatagram.bytes.take bufferLength⟩, 0, ⟨0, 0⟩⟩ := by
  have hfits : (Cpp.JavaSerializer.serialize (some askMonitor)).length ≤ bufferLength := by decide +kernel
  rw [monitorDatagram, List.take_of_length_le hfits, Cpp.serialize_eq]
  rfl

/-- Two clients have asked, and nothing has arrived. -/
theorem bothAsked_reachable : System.Reachable openJdk true twoClients bothAsked := by
  have hmonitorFits : (Cpp.JavaSerializer.serialize (some askMonitor)).length ≤ bufferLength := by decide +kernel
  have hmorningFits : (Cpp.JavaSerializer.serialize (some askMorning)).length ≤ bufferLength := by decide +kernel
  exact (((Relation.ReflTransGen.refl.tail (.call true 4 askMonitor.data rfl (by decide) hmonitorFits)).tail
    (.send true askMonitor 0 rfl)).tail (.call false 1 askMorning.data rfl (by decide) hmorningFits)).tail
    (.send false askMorning 0 rfl)

theorem monitorServed_server : monitorServed.server = monitored := by
  have hserver : bothAsked.server = .init true := rfl
  rw [monitorServed, System.serve_server, hserver, monitored, monitorEvent]

/-- Then the registration arrives, -/
theorem monitorServed_reachable : System.Reachable openJdk true twoClients monitorServed := by
  rw [monitorServed, monitorEvent_eq]
  exact bothAsked_reachable.tail (.serve monitorDatagram List.mem_cons_self 0 ⟨0, 0⟩ rfl)

theorem monitorServed_running : monitorServed.running = true := by
  have hm : deserializeMessage openJdk monitorEvent.bytes = .ok registerMonitor :=
    deserializeMessage_frame openJdk registerMonitor fun t ht => by cases ht; decide
  have hserver : bothAsked.server = .init true := rfl
  rw [monitorServed, System.serve, hserver, handleRequest_of_new hm (by decide) rfl]
  rfl

/-- and after it the booking. -/
theorem morningServed_reachable : System.Reachable openJdk true twoClients morningServed := by
  rw [morningServed, morningEvent_eq]
  exact monitorServed_reachable.tail (.serve morningDatagram (List.mem_cons_of_mem _ List.mem_cons_self) 0 ⟨0, 1⟩
    monitorServed_running)

/-- The monitor of the first client is due a notification of the second client's booking. -/
theorem morning_due : Due openJdk monitored morningEvent ⟨"Weekday1".toList, 0, (twoClients true).address, 5000, 0, 60⟩
    ((Facility.new "Weekday1".toList).setAvailability
      (ServerState.weekday1.bookTimeSlot (UUID.toText ⟨0, 1⟩) morningEvent.userInfo ⟨9, 0, 10, 0, .MONDAY⟩)) := by
  have hm : deserializeMessage openJdk morningEvent.bytes = .ok morningAsked :=
    deserializeMessage_frame openJdk morningAsked fun t ht => by cases ht; decide
  have hnew : replayOf monitored morningAsked morningEvent = none := by
    rw [monitored_eq]
    rfl
  refine ⟨⟨⟨morningAsked, morningEvent.address, morningEvent.port, (execute openJdk monitored.reset morningAsked morningEvent).result⟩,
    ?_, rfl⟩, ?_, by decide, ?_⟩
  · have hecho : morningAsked.getOperation ≠ .ECHO := by decide
    exact executed_of_new hm hecho hnew ▸ List.mem_singleton_self _
  · rw [monitored_eq]
    exact List.mem_cons_self
  · rw [serverStep_frame (m := morningAsked) rfl (fun t ht => by cases ht; decide) hnew, monitored_eq]
    rfl

/-- The first client's notification, as it is due after some datagrams to a monitor that the client has registered. -/
theorem updates_tell_morning : ∃ es before e after monitor f, morningServed.Received openJdk true twoClients es ∧
    es = before ++ e :: after ∧ Due openJdk (serverRun openJdk (.init true) before) e monitor f ∧
    ∃ earlier r later, before = earlier ++ r :: later ∧ Registers openJdk (serverRun openJdk (.init true) earlier) r monitor := by
  have hdistinct : ∀ i j, (twoClients i).port = (twoClients j).port → i = j := by decide
  obtain ⟨es, hes, hsent, hdue⟩ := updates_tell openJdk true twoClients (fun i j _ => hdistinct i j) morningServed morningServed_reachable
  obtain ⟨hanswer, hnotification⟩ := (mem_answers_iff monitored_reachable).2 ⟨_, _, morning_due, rfl⟩
  have hreply := List.mem_append_right monitorServed.replies hanswer
  rw [← monitorServed_server, ← System.serve_replies] at hreply
  obtain ⟨before, e, after, monitor, f, hsplit, hnow, _⟩ := (hsent _).1 ⟨hreply, hnotification⟩
  obtain ⟨⟨earlier, r, later, _, _, _, hearlier, hregisters, _⟩, _⟩ := hdue before e after monitor f hsplit hnow
  exact ⟨es, before, e, after, monitor, f, hes, hsplit, hnow, earlier, r, later, hearlier, hregisters⟩

end FacilityBooking
