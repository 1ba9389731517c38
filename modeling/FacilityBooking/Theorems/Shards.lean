import FacilityBooking.Theorems.Linearizable
import FacilityBooking.Theorems.Survival
import Mathlib.Data.List.Find

/-!
# One facility at a time

The facilities share a server, and nothing else: what the server answers to the requests about one facility, and the facility itself, are
those of a server that receives no other requests.
-/

namespace FacilityBooking

/-! ## What a request is about -/

/-- The facility that a query asks for by its name. -/
def readFacility? (data : Option Text) : Option Text :=
  match splitData data with
  | .ok (kind :: name :: _) =>
    if kind = "rating".toList ∨ kind = "facility".toList ∧ name ≠ "ALL".toList then some name else none
  | _ => none

/-- The one facility that a request is about, if it is about one. -/
def aboutFacility? (Γ : Jvm) (m : RequestMessage) : Option Text :=
  if m.getOperation = .READ then readFacility? m.data else (asked Γ m).facility?

/-- A datagram that holds a request about the facility. -/
def isAboutFacility (Γ : Jvm) (name : Text) (e : Event) : Bool :=
  match deserializeMessage Γ e.bytes with
  | .ok m => decide (aboutFacility? Γ m = some name)
  | .error _ => false

section

variable {Γ : Jvm} {s t : ServerState} {m : RequestMessage} {e : Event} {name : Text}

/-- A query about a facility sees no other. -/
theorem readData_result {facilities facilities' : List Facility} {data : Option Text} (habout : readFacility? data = some name)
    (hfacility : getFacility facilities name = getFacility facilities' name) : readData Γ facilities data = readData Γ facilities' data := by
  unfold readFacility? at habout
  cases data with
  | none => rfl
  | some text =>
    cases hsplit : split text with
    | nil => rw [readData_of_empty hsplit, readData_of_empty hsplit]
    | cons kind rest =>
      cases rest with
      | nil => rw [readData_of_single hsplit, readData_of_single hsplit]
      | cons name' rest =>
        rw [splitData, hsplit] at habout
        dsimp only at habout
        split at habout
        · rename_i hkind
          obtain rfl := Option.some.inj habout
          have hformat : formatFacilityAvailability facilities name' = formatFacilityAvailability facilities' name' := by
            funext days
            rw [formatFacilityAvailability, formatFacilityAvailability, hfacility]
          have hbooking : kind ≠ "booking".toList := by
            rcases hkind with rfl | ⟨rfl, _⟩ <;> decide
          rw [readData_of_split hsplit, readData_of_split hsplit, if_neg hbooking, if_neg hbooking, hformat, hfacility]
          rcases hkind with rfl | ⟨rfl, hall⟩
          · have hfacilities : "rating".toList ≠ "facility".toList := by decide
            rw [if_neg hfacilities, if_neg hfacilities]
          · rw [if_pos rfl, if_pos rfl, if_neg hall, if_neg hall]
        · cases habout

/-- The answer to a request about a facility depends on that facility alone. -/
theorem dispatch_about (habout : aboutFacility? Γ m = some name)
    (hfacility : getFacility s.facilities name = getFacility t.facilities name) : (dispatch Γ s m e).2 = (dispatch Γ t m e).2 := by
  unfold aboutFacility? at habout
  refine dispatch_result Γ m e ?_ ?_
  · intro name' hname'
    by_cases hread : m.getOperation = .READ
    · have hnothing : asked Γ m = .nothing := by rw [asked, hread]
      rw [hnothing] at hname'
      cases hname'
    · rw [if_neg hread, hname'] at habout
      rw [Option.some.inj habout, hfacility]
  · intro hread
    rw [if_pos hread] at habout
    exact readData_result habout hfacility

/-! ## What a request changes -/

theorem Effect.granted_congr {effect : Effect} {facilities facilities' : List Facility}
    (h : ∀ name, effect.facility? = some name → getFacility facilities name = getFacility facilities' name) :
    effect.granted facilities = effect.granted facilities' := by
  cases effect with
  | nothing => rfl
  | book booking => simp only [granted, grants, h booking.facilityName rfl]
  | move booking => simp only [granted, grants, h booking.facilityName rfl]
  | remove facilityName bookingId => simp only [granted, h facilityName rfl]
  | rate facilityName rating => simp only [granted, h facilityName rfl]
  | register facilityName monitorInterval => simp only [granted, h facilityName rfl]

/-- An effect changes the facility that it is on, by itself. -/
theorem Effect.getFacility_onFacilities (effect : Effect) : ∃ change : Facility → Facility, ∀ facilities name,
    getFacility (effect.onFacilities Γ e facilities) name =
      if effect.facility? = some name then (getFacility facilities name).map change else getFacility facilities name := by
  have hone : ∀ (name' : Text) (change : Facility → Facility), (∀ f, (change f).name = f.name) → ∀ facilities name,
      getFacility (modifyFacility facilities name' change) name =
        if some name' = some name then (getFacility facilities name).map change else getFacility facilities name := by
    intro name' change hchange facilities name
    rw [getFacility_modifyFacility hchange]
    by_cases hname : name = name'
    · rw [hname, if_pos rfl, if_pos rfl]
    · rw [if_neg hname, if_neg fun h => hname (Option.some.inj h).symm]
  cases effect with
  | nothing => exact ⟨id, fun facilities name => rfl⟩
  | book booking => exact ⟨_, hone booking.facilityName _ fun _ => rfl⟩
  | move booking => exact ⟨_, hone booking.facilityName _ fun _ => rfl⟩
  | remove facilityName bookingId => exact ⟨_, hone facilityName _ fun _ => rfl⟩
  | rate facilityName rating => exact ⟨_, hone facilityName _ fun _ => rfl⟩
  | register facilityName monitorInterval =>
    refine ⟨id, fun facilities name => ?_⟩
    rw [Option.map_id]
    split <;> rfl

/-- What is changed is what was asked to be. -/
theorem facility_of_effectOf {facilities : List Facility} (h : (effectOf Γ facilities m).facility? = some name) :
    aboutFacility? Γ m = some name := by
  have hread : m.getOperation ≠ .READ := by
    intro hread
    rw [effectOf_read hread] at h
    cases h
  rw [aboutFacility?, if_neg hread]
  unfold effectOf Effect.ifGranted at h
  split at h
  · exact h
  · cases h

theorem effectOf_about (habout : aboutFacility? Γ m = some name)
    (hfacility : getFacility s.facilities name = getFacility t.facilities name) :
    effectOf Γ s.facilities m = effectOf Γ t.facilities m := by
  by_cases hread : m.getOperation = .READ
  · rw [effectOf_read hread, effectOf_read hread]
  · rw [aboutFacility?, if_neg hread] at habout
    have hgranted : (asked Γ m).granted s.facilities = (asked Γ m).granted t.facilities := by
      refine Effect.granted_congr fun name' hname' => ?_
      rw [habout] at hname'
      rw [← Option.some.inj hname', hfacility]
    rw [effectOf, effectOf, Effect.ifGranted, Effect.ifGranted, hgranted]

theorem not_echo_of_about (habout : aboutFacility? Γ m = some name) : m.getOperation ≠ .ECHO := by
  intro hecho
  have hread : m.getOperation ≠ .READ := by
    rw [hecho]
    exact Operation.noConfusion
  have hnothing : asked Γ m = .nothing := by rw [asked, hecho]
  rw [aboutFacility?, if_neg hread, hnothing] at habout
  cases habout

/-- A request that is executed, as far as the facilities and the history go. -/
theorem executed_step (hm : deserializeMessage Γ e.bytes = .ok m) (hecho : m.getOperation ≠ .ECHO) (hnew : replayOf s m e = none) :
    (handleRequest Γ s e).result = (dispatch Γ s.reset m e).2 ∧
      ((∃ x, (dispatch Γ s.reset m e).2 = .error x ∧ serverStep Γ s e = s.reset) ∨
        ∃ r, (dispatch Γ s.reset m e).2 = .ok r ∧
          (serverStep Γ s e).facilities = (effectOf Γ s.facilities m).onFacilities Γ e s.facilities ∧
          (serverStep Γ s e).requestHistory = s.requestHistory ++ [⟨m, e.address, e.port, r⟩] ∧
          (serverStep Γ s e).checkHistory = s.checkHistory) := by
  rw [serverStep, handleRequest_of_new hm hecho hnew]
  refine ⟨execute_result Γ s.reset m e, ?_⟩
  rcases execute_cases Γ s.reset m e with ⟨x, _, _, hrun⟩ | ⟨r, last, monitors, sent, hr, _, _, _, hrun⟩
  · refine Or.inl ⟨x, ?_, ?_⟩
    · rw [← execute_result, hrun]
    · rw [hrun]
  · rw [hrun]
    exact Or.inr ⟨r, hr, rfl, rfl, rfl⟩

end

/-! ## Runs -/

/-- No key is that of two requests about different facilities. -/
def KeysTellFacilities (Γ : Jvm) (es : List Event) : Prop :=
  ∀ e ∈ es, ∀ e' ∈ es, ∀ m m', deserializeMessage Γ e.bytes = .ok m → deserializeMessage Γ e'.bytes = .ok m' →
    e.key m = e'.key m' → aboutFacility? Γ m = aboutFacility? Γ m'

/-- A server and one that has received only the requests about one facility. -/
structure Shard (Γ : Jvm) (es : List Event) (name : Text) (s t : ServerState) : Prop where
  checkHistory : t.checkHistory = s.checkHistory
  facility : getFacility s.facilities name = getFacility t.facilities name
  history : t.requestHistory = s.requestHistory.filter (fun r => decide (aboutFacility? Γ r.requestMessage = some name))
  received : ∀ r ∈ s.requestHistory, ∃ e ∈ es, deserializeMessage Γ e.bytes = .ok r.requestMessage ∧ r.key = e.key r.requestMessage

/-- The answers to the requests about one facility. -/
def answersAbout (Γ : Jvm) (name : Text) (s : ServerState) (e : Event) : List (Java RequestMessage) :=
  if isAboutFacility Γ name e then [(handleRequest Γ s e).result] else []

namespace Shard

variable {Γ : Jvm} {es : List Event} {name : Text} {s t : ServerState} {m : RequestMessage} {e : Event}

theorem reset (h : Shard Γ es name s t) : Shard Γ es name s.reset t := ⟨h.checkHistory, h.facility, h.history, h.received⟩

theorem reset_both (h : Shard Γ es name s t) : Shard Γ es name s.reset t.reset := ⟨h.checkHistory, h.facility, h.history, h.received⟩

/-- A request about the facility repeats one for the one server when it does for the other. -/
theorem replayOf_eq (h : Shard Γ es name s t) (hkeys : KeysTellFacilities Γ es) (he : e ∈ es)
    (hm : deserializeMessage Γ e.bytes = .ok m) (habout : aboutFacility? Γ m = some name) : replayOf t m e = replayOf s m e := by
  unfold replayOf
  rw [h.checkHistory]
  split
  · rw [containsRequest, containsRequest, h.history, List.find?_filter]
    refine List.find?_congr fun r hr => ?_
    obtain ⟨e', he', hm', hkey⟩ := h.received r hr
    rw [Bool.eq_iff_iff]
    simp only [decide_eq_true_eq, Bool.and_eq_true]
    refine and_iff_right_of_imp ?_
    rintro ⟨hid, haddress, hport⟩
    have hsame : e'.key r.requestMessage = e.key m := by
      rw [← hkey, RequestInfo.key, hid, haddress, hport, Event.key]
    rw [hkeys e' he' e he _ _ hm' hm hsame, habout]
  · rfl

/-- A request about the facility is executed by both alike. -/
theorem executed (h : Shard Γ es name s t) (he : e ∈ es) (hm : deserializeMessage Γ e.bytes = .ok m)
    (habout : aboutFacility? Γ m = some name) (hs : replayOf s m e = none) (ht : replayOf t m e = none) :
    Shard Γ es name (serverStep Γ s e) (serverStep Γ t e) ∧ (handleRequest Γ s e).result = (handleRequest Γ t e).result := by
  have hecho := not_echo_of_about habout
  obtain ⟨hresult, hstate⟩ := executed_step hm hecho hs
  obtain ⟨hresult', hstate'⟩ := executed_step hm hecho ht
  have hsame := @dispatch_about Γ s.reset t.reset m e name habout h.facility
  refine ⟨?_, by rw [hresult, hresult', hsame]⟩
  rw [hsame] at hstate
  rcases hstate with ⟨x, hx, hstep⟩ | ⟨r, hr, hfacilities, hhistory, hmode⟩
  · rcases hstate' with ⟨_, _, hstep'⟩ | ⟨r, hr, _⟩
    · rw [hstep, hstep']
      exact h.reset_both
    · rw [hx] at hr
      cases hr
  · rcases hstate' with ⟨x, hx, _⟩ | ⟨r', hr', hfacilities', hhistory', hmode'⟩
    · rw [hr] at hx
      cases hx
    · obtain rfl : r = r' := Except.ok.inj (hr.symm.trans hr')
      obtain ⟨change, hchange⟩ := Effect.getFacility_onFacilities (Γ := Γ) (e := e) (effectOf Γ s.facilities m)
      refine ⟨hmode'.trans (h.checkHistory.trans hmode.symm), ?_, ?_, ?_⟩
      · rw [hfacilities, hfacilities', ← effectOf_about habout h.facility, hchange, hchange, h.facility]
      · rw [hhistory, hhistory', List.filter_append, h.history]
        have hkept : List.filter (fun r => decide (aboutFacility? Γ r.requestMessage = some name))
            [(⟨m, e.address, e.port, r⟩ : RequestInfo)] = [⟨m, e.address, e.port, r⟩] := by
          simp only [List.filter_cons, habout, decide_true, if_true, List.filter_nil]
        rw [hkept]
      · rw [hhistory]
        intro r' hr'
        rcases List.mem_append.1 hr' with hold | hlast
        · exact h.received r' hold
        · obtain rfl := List.mem_singleton.1 hlast
          exact ⟨e, he, hm, rfl⟩

/-- A request about the facility. -/
theorem seen (h : Shard Γ es name s t) (hkeys : KeysTellFacilities Γ es) (he : e ∈ es) (habout : isAboutFacility Γ name e = true) :
    Shard Γ es name (serverStep Γ s e) (serverStep Γ t e) ∧ answersAbout Γ name s e = answersAbout Γ name t e := by
  rw [answersAbout, answersAbout, if_pos habout, if_pos habout]
  unfold isAboutFacility at habout
  split at habout
  · rename_i m hm
    rw [decide_eq_true_eq] at habout
    have hecho := not_echo_of_about habout
    have hreplay := h.replayOf_eq hkeys he hm habout
    cases hp : replayOf s m e with
    | some prevRequest =>
      rw [serverStep, serverStep, handleRequest_of_replay hm hecho hp, handleRequest_of_replay hm hecho (hreplay.trans hp)]
      exact ⟨h.reset_both, rfl⟩
    | none =>
      obtain ⟨hstep, hresult⟩ := h.executed he hm habout hp (hreplay.trans hp)
      exact ⟨hstep, congrArg (fun result => [result]) hresult⟩
  · cases habout

/-- Any other datagram. -/
theorem unseen (h : Shard Γ es name s t) (he : e ∈ es) (habout : isAboutFacility Γ name e = false) :
    Shard Γ es name (serverStep Γ s e) t ∧ answersAbout Γ name s e = [] := by
  refine ⟨?_, if_neg (Bool.eq_false_iff.1 habout)⟩
  unfold isAboutFacility at habout
  cases hm : deserializeMessage Γ e.bytes with
  | error x =>
    have hstep : serverStep Γ s e = s.reset := by
      rw [serverStep, handleRequest, hm]
      rfl
    rw [hstep]
    exact h.reset
  | ok m =>
    rw [hm] at habout
    have hother : aboutFacility? Γ m ≠ some name := of_decide_eq_false habout
    by_cases hecho : m.getOperation = .ECHO
    · rw [serverStep, handleRequest_of_echo hm hecho]
      exact h.reset
    · cases hp : replayOf s m e with
      | some prevRequest =>
        rw [serverStep, handleRequest_of_replay hm hecho hp]
        exact h.reset
      | none =>
        rcases (executed_step hm hecho hp).2 with ⟨_, _, hstep⟩ | ⟨r, _, hfacilities, hhistory, hmode⟩
        · rw [hstep]
          exact h.reset
        · obtain ⟨change, hchange⟩ := Effect.getFacility_onFacilities (Γ := Γ) (e := e) (effectOf Γ s.facilities m)
          refine ⟨h.checkHistory.trans hmode.symm, ?_, ?_, ?_⟩
          · rw [hfacilities, hchange, if_neg fun hfacility => hother (facility_of_effectOf hfacility), h.facility]
          · rw [hhistory, List.filter_append, h.history]
            have hdropped : List.filter (fun r => decide (aboutFacility? Γ r.requestMessage = some name))
                [(⟨m, e.address, e.port, r⟩ : RequestInfo)] = [] := by
              simp only [List.filter_cons, hother, decide_false, Bool.false_eq_true, if_false, List.filter_nil]
            rw [hdropped, List.append_nil]
          · rw [hhistory]
            intro r' hr'
            rcases List.mem_append.1 hr' with hold | hlast
            · exact h.received r' hold
            · obtain rfl := List.mem_singleton.1 hlast
              exact ⟨e, he, hm, rfl⟩

end Shard

/-- The responses to the datagrams that a test picks. -/
def responsesTo (p : Event → Bool) (es : List Event) (responses : List RequestMessage) : List RequestMessage :=
  ((es.zip responses).filter (fun x => p x.1)).map Prod.snd

section

variable {Γ : Jvm} {name : Text} {es : List Event} {s : ServerState}

/-- As long as the loop runs, these are the answers about the facility. -/
theorem emitted_of_alive (h : (serve Γ s es).alive = true) :
    Machine.emitted (serverStep Γ) (answersAbout Γ name) s es =
      (responsesTo (isAboutFacility Γ name) es (serve Γ s es).responses).map .ok := by
  induction es generalizing s with
  | nil => rfl
  | cons e es ih =>
    cases hresult : (handleRequest Γ s e).result with
    | error x =>
      rw [serve_of_error hresult] at h
      cases h
    | ok r =>
      rw [serve_of_ok hresult] at h ⊢
      rw [Machine.emitted, answersAbout, hresult, ih h]
      unfold responsesTo
      rw [List.zip_cons_cons, List.filter_cons]
      split <;> rfl

/-- Where all answers are responses, the loop runs, and gives them. -/
theorem alive_of_emitted (habout : ∀ e ∈ es, isAboutFacility Γ name e = true) {responses : List RequestMessage}
    (h : Machine.emitted (serverStep Γ) (answersAbout Γ name) s es = responses.map .ok) :
    (serve Γ s es).alive = true ∧ (serve Γ s es).responses = responses := by
  induction es generalizing s responses with
  | nil =>
    cases responses with
    | nil => exact ⟨rfl, rfl⟩
    | cons r responses => cases h
  | cons e es ih =>
    rw [List.forall_mem_cons] at habout
    rw [Machine.emitted, answersAbout, if_pos habout.1, List.singleton_append] at h
    cases responses with
    | nil => cases h
    | cons r responses =>
      rw [List.map_cons, List.cons.injEq] at h
      obtain ⟨halive, hresponses⟩ := ih habout.2 h.2
      rw [serve_of_ok h.1]
      exact ⟨halive, congrArg (List.cons r) hresponses⟩

end

/-- In either mode, as long as the server runs and over any datagrams of which no two requests about different facilities have one key:
the requests about a facility are answered, and the facility is left, as by a server that receives none but them, and runs as well. -/
theorem facilities_independent (Γ : Jvm) (checkHistory : Bool) (es : List Event)
    (halive : (serve Γ (.init checkHistory) es).alive = true) (hkeys : KeysTellFacilities Γ es) (name : Text) :
    (serve Γ (.init checkHistory) (es.filter (isAboutFacility Γ name))).alive = true ∧
      (serve Γ (.init checkHistory) (es.filter (isAboutFacility Γ name))).responses =
        responsesTo (isAboutFacility Γ name) es (serve Γ (.init checkHistory) es).responses ∧
      getFacility (serve Γ (.init checkHistory) (es.filter (isAboutFacility Γ name))).state.facilities name =
        getFacility (serve Γ (.init checkHistory) es).state.facilities name := by
  have hinit : Shard Γ es name (.init checkHistory) (.init checkHistory) := ⟨rfl, rfl, rfl, fun _ hr => absurd hr List.not_mem_nil⟩
  obtain ⟨hrun, hanswers⟩ := @Machine.run_filter _ _ (serverStep Γ) _ _ (serverStep Γ) (Shard Γ es name) (answersAbout Γ name)
    (answersAbout Γ name) (isAboutFacility Γ name) (· ∈ es) (fun _ _ _ h he habout => h.seen hkeys he habout)
    (fun _ _ _ h he habout => h.unseen he habout) es _ _ (fun _ he => he) hinit
  rw [emitted_of_alive halive] at hanswers
  obtain ⟨halive', hresponses⟩ := alive_of_emitted (fun e he => (List.mem_filter.1 he).2) hanswers.symm
  refine ⟨halive', hresponses, ?_⟩
  rw [serve_state halive, serve_state halive']
  exact hrun.facility.symm

/-- Two bookings for two facilities, and a query of the second. -/
def bookWeekday : Event := .sent 5000 ⟨1, 0, some "Weekday1,MONDAY,9,0,10,0".toList⟩ ⟨0, 0⟩
def bookWeekend : Event := .sent 5001 ⟨1, 0, some "Weekends,SUNDAY,9,0,10,0".toList⟩ ⟨0, 1⟩
def queryWeekend : Event := .sent 5000 ⟨0, 1, some "facility,Weekends,SUNDAY".toList⟩ ⟨0, 0⟩

theorem facilities_independent_weekend :
    (serve openJdk (.init true) [bookWeekend, queryWeekend]).responses =
      responsesTo (isAboutFacility openJdk "Weekends".toList) [bookWeekday, bookWeekend, queryWeekend]
        (serve openJdk (.init true) [bookWeekday, bookWeekend, queryWeekend]).responses := by
  have hweekday : deserializeMessage openJdk bookWeekday.bytes = .ok ⟨1, 0, some "Weekday1,MONDAY,9,0,10,0".toList⟩ :=
    deserializeMessage_frame openJdk _ fun t ht => by cases ht; decide
  have hweekend : deserializeMessage openJdk bookWeekend.bytes = .ok ⟨1, 0, some "Weekends,SUNDAY,9,0,10,0".toList⟩ :=
    deserializeMessage_frame openJdk _ fun t ht => by cases ht; decide
  have hquery : deserializeMessage openJdk queryWeekend.bytes = .ok ⟨0, 1, some "facility,Weekends,SUNDAY".toList⟩ :=
    deserializeMessage_frame openJdk _ fun t ht => by cases ht; decide
  have hother : isAboutFacility openJdk "Weekends".toList bookWeekday = false := by
    rw [isAboutFacility, hweekday]
    decide +kernel
  have hbooking : isAboutFacility openJdk "Weekends".toList bookWeekend = true := by
    rw [isAboutFacility, hweekend]
    decide +kernel
  have hreading : isAboutFacility openJdk "Weekends".toList queryWeekend = true := by
    rw [isAboutFacility, hquery]
    decide +kernel
  have hkeys : KeysTellFacilities openJdk [bookWeekday, bookWeekend, queryWeekend] := by
    intro e he e' he' m m' hm hm' hkey
    have hport : e.port = e'.port := congrArg RequestKey.port hkey
    have hid : m.requestID = m'.requestID := congrArg RequestKey.requestID hkey
    simp only [List.mem_cons, List.not_mem_nil, or_false] at he he'
    rcases he with rfl | rfl | rfl <;> rcases he' with rfl | rfl | rfl
    · rw [Except.ok.inj (hm.symm.trans hm')]
    · exact absurd hport (by decide)
    · obtain rfl := Except.ok.inj (hm.symm.trans hweekday)
      obtain rfl := Except.ok.inj (hm'.symm.trans hquery)
      exact absurd hid (by decide)
    · exact absurd hport (by decide)
    · rw [Except.ok.inj (hm.symm.trans hm')]
    · exact absurd hport (by decide)
    · obtain rfl := Except.ok.inj (hm.symm.trans hquery)
      obtain rfl := Except.ok.inj (hm'.symm.trans hweekday)
      exact absurd hid (by decide)
    · exact absurd hport (by decide)
    · rw [Except.ok.inj (hm.symm.trans hm')]
  have halive : (serve openJdk (.init true) [bookWeekday, bookWeekend, queryWeekend]).alive = true := by
    have hasked : ¬ReadThrows (some "facility,Weekends,SUNDAY".toList) := by
      have hsplit : split "facility,Weekends,SUNDAY".toList = ["facility".toList, "Weekends".toList, "SUNDAY".toList] := by decide
      rw [readThrows_of_split hsplit]
      exact fun h => h.2.2 ⟨[.SUNDAY], rfl⟩
    exact (serve_alive_iff openJdk _ _).2
      ⟨not_stops_of_operation hweekday (by decide), not_stops_of_operation hweekend (by decide), not_stops_of_data hquery hasked, trivial⟩
  have hfilter : [bookWeekday, bookWeekend, queryWeekend].filter (isAboutFacility openJdk "Weekends".toList) =
      [bookWeekend, queryWeekend] := by
    rw [List.filter_cons_of_neg (Bool.eq_false_iff.1 hother), List.filter_cons_of_pos hbooking, List.filter_cons_of_pos hreading,
      List.filter_nil]
  have hindependent := (facilities_independent openJdk true _ halive hkeys "Weekends".toList).2.1
  rw [hfilter] at hindependent
  exact hindependent

end FacilityBooking
