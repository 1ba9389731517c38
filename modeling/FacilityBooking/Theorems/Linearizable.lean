import FacilityBooking.Lib.Linear
import FacilityBooking.Theorems.Answers

/-!
# Clients as if one after the other

Clients wait for their answers at the same time, and a datagram may be handled long after it was sent. All the same, what they are
answered is what a server without a history and without monitors would answer them one after the other, in the order in which their
requests have been executed; and an operation that begins after another has returned stands behind it in that order.
-/

namespace FacilityBooking

/-! ## The facilities by themselves -/

/-- A server of which nothing is known but the facilities. -/
def ServerState.bare (facilities : List Facility) : ServerState := ⟨false, facilities, [], [], none⟩

/-- An execution as an operation on the facilities, at some time and with some new ID. -/
def Performs (Γ : Jvm) (facilities : List Facility) (x : Execution) (facilities' : List Facility) : Prop :=
  ∃ now uuid, (dispatch Γ (.bare facilities) x.request ⟨⟨x.clientAddress, x.clientPort, []⟩, now, uuid⟩).2 = x.result ∧
    (dispatch Γ (.bare facilities) x.request ⟨⟨x.clientAddress, x.clientPort, []⟩, now, uuid⟩).1.facilities = facilities'

section

variable (Γ : Jvm) {s t : ServerState} (m : RequestMessage) (e : Event)

theorem tryCatch_result (operation : Operation) {handled handled' : Handled} (h : handled.2 = handled'.2) :
    (tryCatch Γ operation m handled).2 = (tryCatch Γ operation m handled').2 := by
  obtain ⟨s, result⟩ := handled
  obtain ⟨t, result'⟩ := handled'
  cases h
  cases result <;> rfl

theorem bookFacility_result (h : ∀ booking, parseBookingDetails Γ m.data = .ok booking →
    getFacility s.facilities booking.facilityName = getFacility t.facilities booking.facilityName) :
    (bookFacility Γ s m e).2 = (bookFacility Γ t m e).2 := by
  unfold bookFacility
  cases hparse : parseBookingDetails Γ m.data with
  | error x => rfl
  | ok booking =>
    dsimp only
    rw [h booking hparse]
    cases getFacility t.facilities booking.facilityName with
    | none => rfl
    | some facility =>
      dsimp only
      split <;> rfl

theorem updateBooking_result (h : ∀ booking, parseUpdateBookingDetails Γ m.data = .ok booking →
    getFacility s.facilities booking.facilityName = getFacility t.facilities booking.facilityName) :
    (updateBooking Γ s m e).2 = (updateBooking Γ t m e).2 := by
  unfold updateBooking
  cases hparse : parseUpdateBookingDetails Γ m.data with
  | error x => rfl
  | ok booking =>
    dsimp only
    rw [h booking hparse]
    cases getFacility t.facilities booking.facilityName with
    | none => rfl
    | some facility =>
      dsimp only
      split <;> rfl

theorem deleteBooking_result (h : ∀ bookingId facilityName, parseDelete m.data = .ok (bookingId, facilityName) →
    getFacility s.facilities facilityName = getFacility t.facilities facilityName) :
    (deleteBooking s m e).2 = (deleteBooking t m e).2 := by
  unfold deleteBooking
  cases hparse : parseDelete m.data with
  | error x => rfl
  | ok parts =>
    obtain ⟨bookingId, facilityName⟩ := parts
    dsimp only
    rw [h bookingId facilityName hparse]
    cases getFacility t.facilities facilityName <;> rfl

theorem addRating_result (h : ∀ facilityName rating, parseRating Γ m.data = .ok (facilityName, rating) →
    getFacility s.facilities facilityName = getFacility t.facilities facilityName) :
    (addRating Γ s m e).2 = (addRating Γ t m e).2 := by
  unfold addRating
  cases hparse : parseRating Γ m.data with
  | error x => rfl
  | ok parts =>
    obtain ⟨facilityName, rating⟩ := parts
    dsimp only
    rw [h facilityName rating hparse]
    cases getFacility t.facilities facilityName <;> rfl

/-- The facility that an effect is on. -/
def Effect.facility? : Effect → Option Text
  | .nothing => none
  | .book booking => some booking.facilityName
  | .move booking => some booking.facilityName
  | .remove facilityName _ => some facilityName
  | .rate facilityName _ => some facilityName
  | .register facilityName _ => some facilityName

theorem update_result
    (h : ∀ name, (askedUpdate Γ m.data).facility? = some name → getFacility s.facilities name = getFacility t.facilities name) :
    (update Γ s m e).2 = (update Γ t m e).2 := by
  unfold askedUpdate at h
  unfold update
  cases htype : parseUpdateType m.data with
  | error x => rfl
  | ok updateType =>
    rw [htype] at h
    dsimp only at h ⊢
    split
    · rename_i hbooking
      rw [if_pos hbooking] at h
      refine updateBooking_result Γ m e fun booking hparse => h booking.facilityName ?_
      rw [hparse]
      rfl
    · rename_i hbooking
      rw [if_neg hbooking] at h
      split
      · rename_i hrating
        rw [if_pos hrating] at h
        refine addRating_result Γ m e fun facilityName rating hparse => h facilityName ?_
        rw [hparse]
        rfl
      · rfl

theorem monitor_result
    (h : ∀ name, (askedMonitor Γ m.data).facility? = some name → getFacility s.facilities name = getFacility t.facilities name) :
    (monitor Γ s m e).2 = (monitor Γ t m e).2 := by
  unfold askedMonitor at h
  unfold monitor
  cases hsplit : splitData m.data with
  | error x => rfl
  | ok monitorRequestString =>
    rw [hsplit] at h
    dsimp only at h ⊢
    split
    · rfl
    · rename_i hlength
      cases hkind : getIndex monitorRequestString 0 with
      | error x => rfl
      | ok kind =>
        dsimp only
        split
        · rename_i hregister
          have hfirst : monitorRequestString[0]? = some "register".toList := by
            rw [← hregister]
            exact getIndex_eq_ok.1 hkind
          rw [if_pos ⟨hlength, hfirst⟩] at h
          cases hparse : parseRegistration Γ monitorRequestString with
          | error x => rfl
          | ok parts =>
            obtain ⟨facilityName, monitorInterval⟩ := parts
            rw [hparse] at h
            dsimp only
            rw [h facilityName rfl]
            cases getFacility t.facilities facilityName <;> rfl
        · rfl

/-- What the `switch` answers depends on nothing of the state but what it reads and the facility that is asked to change. -/
theorem dispatch_result
    (hasked : ∀ name, (asked Γ m).facility? = some name → getFacility s.facilities name = getFacility t.facilities name)
    (hread : m.getOperation = .READ → readData Γ s.facilities m.data = readData Γ t.facilities m.data) :
    (dispatch Γ s m e).2 = (dispatch Γ t m e).2 := by
  unfold asked at hasked
  unfold dispatch
  cases ho : m.getOperation with
  | READ =>
    dsimp only
    rw [hread ho]
  | WRITE =>
    rw [ho] at hasked
    refine tryCatch_result Γ m .WRITE (bookFacility_result Γ m e fun booking hparse => hasked booking.facilityName ?_)
    rw [hparse]
    rfl
  | UPDATE =>
    rw [ho] at hasked
    exact tryCatch_result Γ m .UPDATE (update_result Γ m e hasked)
  | DELETE =>
    rw [ho] at hasked
    refine tryCatch_result Γ m .DELETE (deleteBooking_result m e fun bookingId facilityName hparse => hasked facilityName ?_)
    rw [hparse]
    rfl
  | MONITOR =>
    rw [ho] at hasked
    exact tryCatch_result Γ m .MONITOR (monitor_result Γ m e hasked)
  | _ => rfl

/-- And it leaves the effect of the request on them. -/
theorem dispatch_facilities (s : ServerState) :
    (dispatch Γ s m e).1.facilities = (effectOf Γ s.facilities m).onFacilities Γ e s.facilities := by
  rcases dispatch_cases Γ s m e with ⟨x, hread, _, hrun⟩ | ⟨last, r, _, hrun⟩
  · rw [hrun, effectOf_read hread]
    rfl
  · rw [hrun]

/-- It looks at the sender, the time and the new ID, and not at the bytes. -/
theorem dispatch_bytes (s : ServerState) (bytes : Bytes) :
    dispatch Γ s m e = dispatch Γ s m ⟨⟨e.address, e.port, bytes⟩, e.now, e.uuid⟩ := rfl

end

variable {Γ : Jvm} {s : ServerState} {e : Event}

/-- What is executed is performed on the facilities. -/
theorem performs_of_mem_executed {x : Execution} (hx : x ∈ executed Γ s e) : Performs Γ s.facilities x (serverStep Γ s e).facilities := by
  obtain ⟨hm, hecho, hnew, haddress, hport, hhandled⟩ := of_mem_executed hx
  have hbytes := dispatch_bytes Γ x.request e (.bare s.facilities) []
  refine ⟨e.now, e.uuid, ?_, ?_⟩
  · rw [haddress, hport, ← hbytes, ← hhandled, handleRequest_of_new hm hecho hnew, execute_result]
    exact dispatch_result Γ x.request e (fun _ _ => rfl) fun _ => rfl
  · have heffect : effect Γ s e = effectOf Γ s.facilities x.request := by
      simp only [effect, hm, hnew, Option.isSome_none, Bool.false_eq_true, if_false]
    rw [haddress, hport, ← hbytes, dispatch_facilities, serverStep, handleRequest_facilities, heffect]
    rfl

/-- Where nothing is executed, the facilities stay. -/
theorem facilities_of_unexecuted (hnone : executed Γ s e = []) : (serverStep Γ s e).facilities = s.facilities := by
  have heffect : effect Γ s e = .nothing := by
    unfold effect
    unfold executed at hnone
    split
    · rfl
    · rename_i m hm
      rw [hm] at hnone
      dsimp only at hnone
      split at hnone
      · rename_i hold
        rcases hold with hecho | hreplay
        · rw [effectOf_echo hecho, ite_self]
        · rw [if_pos hreplay]
      · cases hnone
  rw [serverStep, handleRequest_facilities, heffect]
  rfl

/-- A datagram leads to at most one execution. -/
theorem executed_cases (Γ : Jvm) (s : ServerState) (e : Event) : executed Γ s e = [] ∨ ∃ x, executed Γ s e = [x] := by
  unfold executed
  split
  · exact Or.inl rfl
  · split
    · exact Or.inl rfl
    · exact Or.inr ⟨_, rfl⟩

namespace System

variable {ι : Type} {endpoint : ι → Endpoint} {S S' : System ι}

/-! ## The order of the executions -/

/-- A client has been answered a request, by data that is not its own sent back. -/
def Answered (Γ : Jvm) (S : System ι) (i : ι) (request : Cpp.RequestMessage) : Prop :=
  (decoded Γ request).getOperation ≠ .ECHO ∧ ∃ data, (request, .response data) ∈ (S.clients i).returned

/-- The executions of a system as an order of the operations of its clients: performed one after the other, they answer what has been
answered and leave the facilities as they are, and they keep the order of real time. -/
structure Linearization (Γ : Jvm) (endpoint : ι → Endpoint) (S : System ι) (xs : List Execution) [DecidableEq ι] : Prop where
  sequential : Linear.Sequential (Performs Γ) (ServerState.init true).facilities xs S.server.facilities
  once : (xs.map Execution.key).Nodup
  made : ∀ x ∈ xs, S.IsExecution Γ endpoint x
  answered : ∀ i request data, (request, .response data) ∈ (S.clients i).returned → (decoded Γ request).getOperation ≠ .ECHO →
    ∃ x ∈ xs, x.key = keyOf endpoint i request ∧ x.request = decoded Γ request ∧ ∃ r, x.result = .ok r ∧ data = r.bytes
  realTime : ∀ S₀, Reachable Γ true endpoint S₀ → Relation.ReflTransGen (Step Γ endpoint) S₀ S →
    ∀ i request, S₀.Answered Γ i request → ∀ j request', request' ∈ (S.clients j).requests → request' ∉ (S₀.clients j).requests →
    ∀ before x after, xs = before ++ x :: after → x.key = keyOf endpoint j request' →
    ∃ y ∈ before, y.key = keyOf endpoint i request

theorem serve_server (Γ : Jvm) (S : System ι) (e : Event) : (S.serve Γ e).server = serverStep Γ S.server e := rfl

theorem serve_executions (Γ : Jvm) (S : System ι) (e : Event) :
    (S.serve Γ e).executions = S.executions ++ executed Γ S.server e := rfl

theorem serve_replies (Γ : Jvm) (S : System ι) (e : Event) : (S.serve Γ e).replies = S.replies ++ answers Γ S.server e := rfl

/-- A round performs what it executes. -/
theorem sequential_serve {facilities : List Facility}
    (h : Linear.Sequential (Performs Γ) facilities S.executions S.server.facilities) (e : Event) :
    Linear.Sequential (Performs Γ) facilities (S.serve Γ e).executions (S.serve Γ e).server.facilities := by
  rw [serve_executions, serve_server]
  rcases executed_cases Γ S.server e with hnone | ⟨x, hx⟩
  · rw [hnone, List.append_nil, facilities_of_unexecuted hnone]
    exact h
  · rw [hx]
    exact .snoc h (performs_of_mem_executed (hx ▸ List.mem_singleton_self x))

/-- What has been executed stands between what has been answered and what has been asked. -/
theorem Invariant.between (h : S.Invariant Γ endpoint) : Linear.Between Execution.key
    (fun k => ∃ i request, S.Answered Γ i request ∧ keyOf endpoint i request = k)
    (fun k => ∃ i, ∃ request ∈ (S.clients i).requests, keyOf endpoint i request = k) S.executions where
  called := by
    intro x hx
    obtain ⟨i, request, hrequest, hasked, haddress, hport, _⟩ := h.executions x hx
    refine ⟨i, request, hrequest, ?_⟩
    rw [Execution.key, hasked, haddress, hport]
    rfl
  returned := by
    rintro k ⟨i, request, ⟨hecho, data, hreturned⟩, rfl⟩
    obtain ⟨x, hx, hkey, _⟩ := h.returned i request data hreturned hecho
    exact ⟨x, hx, hkey⟩

/-- A key tells requests of the clients apart. -/
theorem Invariant.eq_of_keyOf (h : S.Invariant Γ endpoint) (hendpoint : Distinct endpoint) {i j : ι}
    {request request' : Cpp.RequestMessage} (hrequest : request ∈ (S.clients i).requests)
    (hrequest' : request' ∈ (S.clients j).requests) (hkey : keyOf endpoint i request = keyOf endpoint j request') :
    i = j ∧ request = request' := by
  rw [keyOf, keyOf, RequestKey.mk.injEq] at hkey
  obtain rfl := hendpoint i j hkey.2.1 hkey.2.2
  exact ⟨rfl, (h.counts i).eq_of_requestID hrequest hrequest' hkey.1⟩

variable [DecidableEq ι]

/-- Requests and executions are only ever added, executions at the end. -/
theorem Step.grows (h : Step Γ endpoint S S') :
    S.executions <+: S'.executions ∧ ∀ i, (S.clients i).requests ⊆ (S'.clients i).requests := by
  have hclient : ∀ (i : ι) (c : Cpp.Client), (S.clients i).requests ⊆ c.requests →
      ∀ j, (S.clients j).requests ⊆ ((S.withClient i c).clients j).requests := by
    intro i c hc j
    rcases eq_or_ne j i with rfl | hj
    · rw [withClient_self]
      exact hc
    · rw [withClient_of_ne S c hj]
      exact fun _ hr => hr
  cases h with
  | call i requestType data => exact ⟨List.prefix_rfl, hclient i _ (List.subset_append_left _ _)⟩
  | send i request attempt => exact ⟨List.prefix_rfl, hclient i _ fun _ hr => hr⟩
  | serve d hd now uuid => exact ⟨List.prefix_append _ _, fun i _ hr => hr⟩
  | receive i request attempt d =>
    refine ⟨List.prefix_rfl, hclient i _ ?_⟩
    rw [Cpp.Client.receive_requests]
    exact fun _ hr => hr
  | timeout i request attempt =>
    refine ⟨List.prefix_rfl, hclient i _ ?_⟩
    rw [Cpp.Client.receive_requests]
    exact fun _ hr => hr

theorem requests_subset (h : Relation.ReflTransGen (Step Γ endpoint) S S') (i : ι) :
    (S.clients i).requests ⊆ (S'.clients i).requests := by
  induction h with
  | refl => exact fun _ hr => hr
  | tail _ hstep ih => exact fun _ hr => hstep.grows.2 i (ih hr)

theorem sequential_reachable {checkHistory : Bool} (h : Reachable Γ checkHistory endpoint S) :
    Linear.Sequential (Performs Γ) (ServerState.init checkHistory).facilities S.executions S.server.facilities := by
  induction h with
  | refl => exact .nil
  | tail _ hstep ih =>
    cases hstep with
    | serve d hd now uuid => exact sequential_serve ih _
    | _ => exact ih

end System

/-- Whatever the network does to the datagrams of any number of clients that ask at the same time: the executions of the server are an
order of their operations in which a server without a history, asked one request after the other, gives the answers that the clients
have been given and comes to the same facilities, and in which an operation that has returned before another one begins is before it. -/
theorem linearizable {ι : Type} [DecidableEq ι] (Γ : Jvm) (endpoint : ι → Endpoint) (hendpoint : System.Distinct endpoint)
    (S : System ι) (h : System.Reachable Γ true endpoint S) : S.Linearization Γ endpoint S.executions where
  sequential := System.sequential_reachable h
  once := (System.invariant_reachable hendpoint h).once (System.checkHistory_reachable h)
  made := (System.invariant_reachable hendpoint h).executions
  answered := by
    intro i request data hreturned hecho
    have hinv := System.invariant_reachable hendpoint h
    obtain ⟨x, hx, hkey, hr⟩ := hinv.returned i request data hreturned hecho
    exact ⟨x, hx, hkey, hinv.request_of_key hendpoint ((hinv.counts i).answered _ hreturned) hx hkey, hr⟩
  realTime := by
    intro S₀ h₀ hlater i request hanswered j request' hmade hnotYet before x after hsplit hkey
    have hinv := System.invariant_reachable hendpoint h
    have hgrown : S₀.executions <+: S.executions :=
      Linear.prefix_of_reflTransGen (fun S S' (hstep : System.Step Γ endpoint S S') => hstep.grows.1) hlater
    refine (System.invariant_reachable hendpoint h₀).between.precedes hgrown ⟨i, request, hanswered, rfl⟩ hsplit ?_
    rintro ⟨k, request₀, hrequest₀, hsame⟩
    obtain ⟨rfl, rfl⟩ := hinv.eq_of_keyOf hendpoint (System.requests_subset hlater k hrequest₀) hmade (hsame.trans hkey)
    exact hnotYet hrequest₀

/-- Once the first client has been answered, the second books a slot: its request as a datagram, and as the server receives it. -/
def askMorning : Cpp.RequestMessage := ⟨1, 0, Cpp.literal "Weekday1,MONDAY,9,0,10,0"⟩
def morningAsked : RequestMessage := ⟨1, 0, some "Weekday1,MONDAY,9,0,10,0".toList⟩
def morningDatagram : Datagram := ⟨(twoClients false).address, 5001, Cpp.JavaSerializer.serialize (some askMorning)⟩
def morningEvent : Event := .sent 5001 morningAsked ⟨0, 1⟩

theorem morningEvent_eq : morningEvent =
    ⟨⟨morningDatagram.address, morningDatagram.port, morningDatagram.bytes.take bufferLength⟩, 0, ⟨0, 1⟩⟩ := by
  have hfits : (Cpp.JavaSerializer.serialize (some askMorning)).length ≤ bufferLength := by decide +kernel
  rw [morningDatagram, List.take_of_length_le hfits, Cpp.serialize_eq]
  rfl

/-- A system in which the second client has asked, and then the one in which it has been served. -/
def withMorning (S : System Bool) : System Bool :=
  let S := S.withClient false ((S.clients false).call askMorning.requestType askMorning.data)
  (S.withClient false ((S.clients false).sendRequest askMorning 0)).post morningDatagram
def servedAfterRating : System Bool := (withMorning ratingReturned).serve openJdk morningEvent

@[simp] theorem withMorning_running (S : System Bool) : (withMorning S).running = S.running := rfl

@[simp] theorem withMorning_server (S : System Bool) : (withMorning S).server = S.server := rfl

@[simp] theorem withMorning_executions (S : System Bool) : (withMorning S).executions = S.executions := rfl

theorem withMorning_reachable {S : System Bool} (h : System.Reachable openJdk true twoClients S) (hnew : S.clients false = .new) :
    System.Reachable openJdk true twoClients (withMorning S) := by
  have hfits : (Cpp.JavaSerializer.serialize (some askMorning)).length ≤ bufferLength := by decide +kernel
  have hmade := h.tail (.call false 1 askMorning.data (by rw [hnew]; rfl) (by rw [hnew]; decide) (by rw [hnew]; exact hfits))
  exact hmade.tail (.send false askMorning 0 (by rw [System.withClient_self, hnew]; rfl))

theorem ratingReturned_running : ratingReturned.running = true := by
  have hserver : ratingSent.server = .init true := rfl
  simp only [ratingReturned, ratingServed, System.withClient, System.serve, hserver, ratingReceived_result]
  rfl

theorem ratingReturned_executions : ratingReturned.executions = executed openJdk (.init true) ratingReceived := by
  have hsent : ratingSent.executions = [] ∧ ratingSent.server = .init true := ⟨rfl, rfl⟩
  rw [ratingReturned, System.withClient, ratingServed, System.serve_executions, hsent.1, hsent.2, List.nil_append]

/-- The server remembers the query, under its key. -/
theorem ratingReturned_server : ratingReturned.server =
    { ServerState.init true with requestHistory := [⟨⟨0, 0, some "rating,Nowhere".toList⟩, (twoClients true).address, 5000, noFacility⟩] } := by
  have hserver : ratingSent.server = .init true := rfl
  rw [ratingReturned, System.withClient, ratingServed, System.serve_server, hserver, serverStep,
    handleRequest_of_new ratingReceived_decodes (by decide) rfl]
  rfl

theorem servedAfterRating_reachable : System.Reachable openJdk true twoClients servedAfterRating := by
  rw [servedAfterRating, morningEvent_eq]
  refine (withMorning_reachable ratingReturned_reachable rfl).tail (.serve morningDatagram ?_ 0 ⟨0, 1⟩ ?_)
  · exact List.mem_append_right _ List.mem_cons_self
  · rw [withMorning_running, ratingReturned_running]

/-- The query is executed, and then the booking, each under the key of its client. -/
theorem servedAfterRating_executions :
    servedAfterRating.executions.map Execution.key = [⟨0, [127, 0, 0, 1], 5000⟩, ⟨0, [127, 0, 0, 1], 5001⟩] := by
  have hm : deserializeMessage openJdk morningEvent.bytes = .ok morningAsked :=
    deserializeMessage_frame openJdk morningAsked fun t ht => by cases ht; decide
  have hnew : replayOf ratingReturned.server morningAsked morningEvent = none := by
    rw [ratingReturned_server]
    rfl
  rw [servedAfterRating, System.serve_executions, withMorning_executions, withMorning_server, ratingReturned_executions,
    executed_of_new ratingReceived_decodes (by decide) rfl, executed_of_new hm (by decide) hnew]
  rfl

/-- The second client's booking stands behind the query that was answered before it was asked for. -/
theorem linearizable_morning : ∃ xs : List Execution, xs.map Execution.key = [⟨0, [127, 0, 0, 1], 5000⟩, ⟨0, [127, 0, 0, 1], 5001⟩] ∧
    servedAfterRating.Linearization openJdk twoClients xs := by
  have hdistinct : ∀ i j, (twoClients i).port = (twoClients j).port → i = j := by decide
  exact ⟨_, servedAfterRating_executions,
    linearizable openJdk twoClients (fun i j _ => hdistinct i j) servedAfterRating servedAfterRating_reachable⟩

end FacilityBooking
