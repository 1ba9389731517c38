import FacilityBooking.Theorems.Displayed

/-!
# What a client shows, the server has done

The server of a system is where the datagrams it has received have led it, and what it has executed it has executed on the way. So
whatever the network does, a screen tells of the one execution of the request it answers, in the state that this was executed in, or of
the attempts being used up.
-/

namespace FacilityBooking

namespace System

variable {ι : Type} {Γ : Jvm} {checkHistory : Bool} {endpoint : ι → Endpoint} {S : System ι}

/-! ## The server's run -/

/-- What the server sends when it is given a datagram: the notifications, and the reply. -/
def answers (Γ : Jvm) (s : ServerState) (e : Event) : List Datagram :=
  (handleRequest Γ s e).sent ++
    match (handleRequest Γ s e).result with
    | .ok responseMessage => reply Γ e responseMessage
    | .error _ => []

/-- The datagrams that a server has received: they come from clients, and they have led it to its state, its executions and all that
it has sent. -/
structure Received (Γ : Jvm) (checkHistory : Bool) (endpoint : ι → Endpoint) (S : System ι) (es : List Event) : Prop where
  server : S.server = serverRun Γ (.init checkHistory) es
  executions : S.executions = Machine.emitted (serverStep Γ) (executed Γ) (.init checkHistory) es
  replies : S.replies = Machine.emitted (serverStep Γ) (answers Γ) (.init checkHistory) es
  senders : ∀ e ∈ es, ∃ i, e.address = (endpoint i).address ∧ e.port = (endpoint i).port

theorem Received.serve {es : List Event} (h : S.Received Γ checkHistory endpoint es) {e : Event}
    (he : ∃ i, e.address = (endpoint i).address ∧ e.port = (endpoint i).port) :
    (S.serve Γ e).Received Γ checkHistory endpoint (es ++ [e]) where
  server := by
    have hrun : serverRun Γ (.init checkHistory) (es ++ [e]) = serverStep Γ (serverRun Γ (.init checkHistory) es) e :=
      Machine.run_append _ es [e]
    rw [hrun, ← h.server]
    rfl
  executions := by
    rw [Machine.emitted_append, ← h.executions, ← serverRun, ← h.server, Machine.emitted, Machine.emitted, List.append_nil]
    rfl
  replies := by
    rw [Machine.emitted_append, ← h.replies, ← serverRun, ← h.server, Machine.emitted, Machine.emitted, List.append_nil]
    rfl
  senders := List.forall_mem_append.2 ⟨h.senders, List.forall_mem_singleton.2 he⟩

variable [DecidableEq ι]

/-- A round is the only step of the server; the others leave it as it is. -/
theorem Received.step {es : List Event} (h : S.Received Γ checkHistory endpoint es) (hinv : S.Invariant Γ endpoint) {S' : System ι}
    (hstep : Step Γ endpoint S S') : ∃ es', S'.Received Γ checkHistory endpoint es' := by
  cases hstep with
  | call => exact ⟨es, h.server, h.executions, h.replies, h.senders⟩
  | send => exact ⟨es, h.server, h.executions, h.replies, h.senders⟩
  | serve d hd now uuid =>
    obtain ⟨i, request, _, rfl⟩ := hinv.requests d hd
    exact ⟨es ++ [_], h.serve ⟨i, rfl, rfl⟩⟩
  | receive => exact ⟨es, h.server, h.executions, h.replies, h.senders⟩
  | timeout => exact ⟨es, h.server, h.executions, h.replies, h.senders⟩

theorem received_reachable (hendpoint : Distinct endpoint) (h : Reachable Γ checkHistory endpoint S) :
    ∃ es, S.Received Γ checkHistory endpoint es := by
  induction h with
  | refl => exact ⟨[], rfl, rfl, rfl, fun _ he => absurd he List.not_mem_nil⟩
  | tail hreach hstep ih =>
    obtain ⟨es, hes⟩ := ih
    exact hes.step (invariant_reachable hendpoint hreach) hstep

end System

/-- What an execution is the execution of: a datagram that holds its request, which the history does not answer. -/
theorem of_mem_executed {Γ : Jvm} {s : ServerState} {e : Event} {x : Execution} (h : x ∈ executed Γ s e) :
    deserializeMessage Γ e.bytes = .ok x.request ∧ x.request.getOperation ≠ .ECHO ∧ replayOf s x.request e = none ∧
      x.clientAddress = e.address ∧ x.clientPort = e.port ∧ (handleRequest Γ s e).result = x.result := by
  unfold executed at h
  split at h
  · exact absurd h List.not_mem_nil
  · rename_i m hm
    split at h
    · exact absurd h List.not_mem_nil
    · rename_i hnot
      rw [List.mem_singleton] at h
      subst h
      rw [not_or, Option.not_isSome_iff_eq_none] at hnot
      refine ⟨hm, hnot.1, hnot.2, rfl, rfl, ?_⟩
      rw [handleRequest_of_new hm hnot.1 hnot.2]

/-! ## Screens -/

section

open Cpp

variable {Γ : Jvm} {checkHistory : Bool} {s : ServerState} {e : Event} {call : Cpp.Call} {requestType requestID : BitVec 32} {text : Text}

/-- The operations whose screens are told of: those that change something, and queries of what is there. -/
def Cpp.Call.Told (call : Cpp.Call) (text : Text) : Prop := call.Changes ∨ call.Queries text

theorem Cpp.Call.Told.ne_echoMessage (h : call.Told text) : ∀ messageData, call ≠ .echoMessage messageData :=
  h.elim Changes.ne_echoMessage Queries.ne_echoMessage

theorem Cpp.Call.Told.operation (h : call.Told text) : call.operation ≠ .ECHO := by
  intro hecho
  cases call with
  | echoMessage messageData => exact h.ne_echoMessage messageData rfl
  | _ => cases hecho

/-- The fields of its data are joined by commas. -/
theorem Cpp.Call.comma_mem {data : Bytes} (hcall : ∀ messageData, call ≠ .echoMessage messageData)
    (hrequest : call.request = some (requestType, data)) : (44 : UInt8) ∈ data := by
  have hcomma : (44 : UInt8) ∈ literal "," := by decide
  cases call with
  | queryFacilityNames =>
    cases hrequest
    decide
  | queryAvailability facilityName daysOfWeek =>
    cases hrequest
    simp only [Client.queryAvailability, List.mem_append, hcomma, true_or, or_true]
  | bookFacility facilityName dayOfWeek startTime endTime =>
    obtain ⟨messageData, hdata, heq⟩ := Option.map_eq_some_iff.1 hrequest
    obtain ⟨_, rfl⟩ := Prod.mk.inj heq
    simp only [Client.bookFacility, Option.bind_eq_bind, Option.bind_eq_some_iff] at hdata
    obtain ⟨_, _, _, _, _, _, _, _, hdata⟩ := hdata
    rw [← Option.some.inj hdata]
    simp only [List.mem_append, hcomma, true_or, or_true]
  | queryBooking bookingID =>
    cases hrequest
    exact List.mem_append_left _ (by decide)
  | updateBooking oldBookingID offsetMinutes oldBookingDetails =>
    obtain ⟨messageData, hdata, heq⟩ := Option.map_eq_some_iff.1 hrequest
    obtain ⟨_, rfl⟩ := Prod.mk.inj heq
    obtain ⟨tail, rfl⟩ := updateBooking_prefix hdata
    exact List.mem_append_left _ (by decide)
  | deleteBooking bookingID bookingDetails =>
    cases hrequest
    simp only [Client.deleteBooking, List.mem_append, hcomma, true_or, or_true]
  | monitorAvailability facilityName durationSeconds =>
    cases hrequest
    simp only [Client.monitorAvailability, List.mem_append, hcomma, true_or, or_true]
  | rateFacility facilityName rating =>
    cases hrequest
    simp only [Client.rateFacility, List.mem_append, hcomma, true_or, or_true]
  | queryRating facilityName =>
    cases hrequest
    exact List.mem_append_left _ (by decide)
  | echoMessage messageData => exact absurd rfl (hcall messageData)

/-- The server reads the request as it was made. -/
theorem decoded_of_request (Γ : Jvm) (hcall : ∀ messageData, call ≠ .echoMessage messageData)
    (hrequest : call.request = some (requestType, getBytes text)) (requestID : BitVec 32) :
    decoded Γ ⟨requestType, requestID, getBytes text⟩ = ⟨requestType, requestID, some text⟩ := by
  have hne : getBytes text ≠ [] := List.ne_nil_of_mem (Cpp.Call.comma_mem hcall hrequest)
  rw [decoded, nullIfEmpty, if_neg hne, Option.map_some, Γ.newString_getBytes]

/-- The screen of an operation shows what the execution of its request has done. -/
theorem shows_of_execution (hs : Reachable Γ checkHistory s) (husers : UsersOnLine s) (he : e.HostOnLine)
    (hformat : ∀ d, '\n' ∉ Γ.format1f d) (hcall : call.Told text) (hrequest : call.request = some (requestType, getBytes text))
    {x : Execution} (hx : x ∈ executed Γ s e) (hasked : x.request = ⟨requestType, requestID, some text⟩) {r : RequestMessage}
    (hresult : x.result = .ok r) : Shows Γ s e call (call.parse r.bytes) := by
  obtain ⟨hm, hecho, hnew, _, _, hhandled⟩ := of_mem_executed hx
  rw [hasked] at hm hecho hnew
  rw [hresult] at hhandled
  rcases hcall with hchanges | hqueries
  · exact shows_of_change hs he hformat hchanges hrequest hm hnew hhandled
  · rw [hqueries.request] at hrequest
    cases hrequest
    have hread : (dispatch Γ s.reset ⟨RequestMessage.READ, requestID, some text⟩ e).2 =
        (readData Γ s.facilities (some text)).map (fun data => ⟨Operation.READ.getOpCode, requestID, data⟩) := rfl
    rw [handleRequest_of_new hm hecho hnew, execute_result, hread] at hhandled
    cases hdata : readData Γ s.facilities (some text) with
    | error exception =>
      rw [hdata] at hhandled
      cases hhandled
    | ok data =>
      rw [hdata] at hhandled
      obtain rfl := Except.ok.inj hhandled
      have hbytes : RequestMessage.bytes ⟨Operation.READ.getOpCode, requestID, data⟩ = getBytes (data.getD []) := by
        cases data <;> rfl
      rw [hbytes]
      exact shows_of_readData hs husers hformat hqueries hdata

end

/-- In either mode and whatever the network does to the datagrams of any number of clients: when an operation of a client has returned,
its dialog shows that the attempts are used up, or what one datagram of the client did, which holds the operation's request, to the
state that the datagrams received before it had led to. -/
theorem screen_tells {ι : Type} [DecidableEq ι] (Γ : Jvm) (checkHistory : Bool) (endpoint : ι → Endpoint)
    (hendpoint : System.Distinct endpoint) (hhosts : ∀ i, '\n' ∉ (endpoint i).address.hostAddress) (hformat : ∀ d, '\n' ∉ Γ.format1f d) (S : System ι)
    (h : System.Reachable Γ checkHistory endpoint S) (i : ι) (call : Cpp.Call) (requestType requestID : BitVec 32) (text : Text)
    (hcall : call.Told text) (hrequest : call.request = some (requestType, getBytes text)) (returned : Cpp.Returned)
    (hreturned : (⟨requestType, requestID, getBytes text⟩, returned) ∈ (S.clients i).returned) :
    returned = .failed ∧ call.parse returned.text = (shownError "Request failed after 5 attempts.".toList).map getBytes ∨
      ∃ before e after, S.server = serverRun Γ (.init checkHistory) (before ++ e :: after) ∧
        e.address = (endpoint i).address ∧ e.port = (endpoint i).port ∧
        deserializeMessage Γ e.bytes = .ok ⟨requestType, requestID, some text⟩ ∧
        replayOf (serverRun Γ (.init checkHistory) before) ⟨requestType, requestID, some text⟩ e = none ∧
        Shows Γ (serverRun Γ (.init checkHistory) before) e call (call.parse returned.text) := by
  have hinv := System.invariant_reachable hendpoint h
  obtain ⟨es, hes⟩ := System.received_reachable hendpoint h
  have hdecoded := decoded_of_request Γ hcall.ne_echoMessage hrequest requestID
  cases returned with
  | failed =>
    refine Or.inl ⟨rfl, ?_⟩
    exact parse_error hcall.ne_echoMessage "Request failed after 5 attempts.".toList
  | response data =>
    have hecho : (decoded Γ ⟨requestType, requestID, getBytes text⟩).getOperation ≠ .ECHO := by
      rw [hdecoded, getOperation_of_request hrequest]
      exact hcall.operation
    obtain ⟨x, hx, hkey, r, hr, rfl⟩ := hinv.returned i _ data hreturned hecho
    have hasked := hinv.request_of_key hendpoint ((hinv.counts i).answered _ hreturned) hx hkey
    rw [hdecoded] at hasked
    rw [hes.executions] at hx
    obtain ⟨before, e, after, rfl, hexecuted⟩ := Machine.exists_of_mem_emitted hx
    obtain ⟨hm, _, hnew, haddress, hport, _⟩ := of_mem_executed hexecuted
    -- two places with one address are one client's, so the whole address is the client's
    obtain ⟨j, hjaddress, hjport⟩ := hes.senders e (List.mem_append_right _ List.mem_cons_self)
    rw [Execution.key, System.keyOf, RequestKey.mk.injEq, haddress, hport, hjaddress, hjport] at hkey
    obtain rfl := hendpoint j i hkey.2.1 hkey.2.2
    have hhost : ∀ e' ∈ before ++ e :: after, e'.HostOnLine := by
      intro e' he'
      obtain ⟨j, haddress, _⟩ := hes.senders e' he'
      rw [Event.HostOnLine, haddress]
      exact hhosts j
    rw [hasked] at hm hnew
    have hs : Reachable Γ checkHistory (serverRun Γ (.init checkHistory) before) := Machine.Reachable.start.run before
    have husers := usersOnLine_run Γ checkHistory fun e' he' => hhost e' (List.mem_append_left _ he')
    exact Or.inr ⟨before, e, after, hes.server, hjaddress, hjport, hm, hnew,
      shows_of_execution hs husers (hhost e (List.mem_append_right _ List.mem_cons_self)) hformat hcall hrequest hexecuted hasked hr⟩

/-- The rating of a facility that is not there, asked for and answered. -/
theorem ratingReturned_reachable : System.Reachable openJdk true twoClients ratingReturned := by
  have hmade : System.Step openJdk twoClients (.init true) ratingMade := .call true 0 askRating.data rfl (by decide) askRating_fits
  have hsent : System.Step openJdk twoClients ratingMade ratingSent := .send true askRating 0 rfl
  have hserved : System.Step openJdk twoClients ratingSent ratingServed := .serve ratingAsked List.mem_cons_self 0 ⟨0, 0⟩ rfl
  have hreturned : System.Step openJdk twoClients ratingServed ratingReturned :=
    .receive true askRating 0 ratingAnswered rfl ratingServed_replies rfl rfl
  exact (((Relation.ReflTransGen.refl.tail hmade).tail hsent).tail hserved).tail hreturned

theorem ratingReturned_returned : (askRating, .response noFacility.bytes) ∈ (ratingReturned.clients true).returned := by
  have hresponse : Cpp.receiveResponse (some ratingAnswered.bytes) askRating.requestID = some noFacility.bytes := by decide +kernel
  rw [ratingReturned, System.withClient_self, Cpp.Client.receive, hresponse]
  exact List.mem_append_right _ List.mem_cons_self

theorem screen_tells_nowhere :
    ∃ before e after, ratingReturned.server = serverRun openJdk (.init true) (before ++ e :: after) ∧
      Shows openJdk (serverRun openJdk (.init true) before) e (.queryRating (getBytes "Nowhere".toList))
        ((shownError "Facility not found".toList).map getBytes) := by
  have hdistinct : ∀ i j, (twoClients i).port = (twoClients j).port → i = j := by decide
  have hhosts : ∀ i, '\n' ∉ (twoClients i).address.hostAddress := by decide
  have hshown : (Cpp.Call.queryRating (getBytes "Nowhere".toList)).parse noFacility.bytes =
      (shownError "Facility not found".toList).map getBytes := parse_error (fun _ => Cpp.Call.noConfusion) _
  rcases screen_tells openJdk true twoClients (fun i j _ => hdistinct i j) hhosts (fun _ => List.not_mem_nil) ratingReturned
    ratingReturned_reachable true (.queryRating (getBytes "Nowhere".toList)) 0 0 "rating,Nowhere".toList
    (Or.inr (.rating "Nowhere".toList (by decide))) rfl (.response noFacility.bytes) ratingReturned_returned with
    ⟨hfailed, _⟩ | ⟨before, e, after, hserver, _, _, _, _, hshows⟩
  · cases hfailed
  · exact ⟨before, e, after, hserver, hshown ▸ hshows⟩

end FacilityBooking
