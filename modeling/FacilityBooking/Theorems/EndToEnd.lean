import FacilityBooking.Lemmas.Client
import FacilityBooking.Runs
import FacilityBooking.System

/-!
# At most once, end to end

What is in flight at any moment: every datagram on its way to the server is a request of a client, and every datagram of the server
is a notification, an echo or the response of an execution. A client that takes the data of a response takes it from the one
execution of the request that it waits for.
-/

namespace FacilityBooking

/-- What the server reads from the frame of a client's request. -/
def decoded (Γ : Jvm) (request : Cpp.RequestMessage) : RequestMessage :=
  ⟨request.requestType, request.requestID, (Cpp.nullIfEmpty request.data).map Γ.newString⟩

/-- The data of a response, as the client has it. -/
def RequestMessage.bytes (m : RequestMessage) : Bytes := (m.data.map getBytes).getD []

theorem deserializeMessage_serialize (Γ : Jvm) {request : Cpp.RequestMessage}
    (h : (Cpp.JavaSerializer.serialize (some request)).length ≤ bufferLength) :
    deserializeMessage Γ (Cpp.JavaSerializer.serialize (some request)) = .ok (decoded Γ request) := by
  rw [Cpp.serialize_eq] at h ⊢
  refine deserializeMessage_payload Γ request.requestType request.requestID ?_
  intro bs hbs
  rw [hbs] at h
  have hbuffer : bufferLength < 2 ^ 31 := by decide
  exact (Frame.length_data_lt.trans_le h).trans hbuffer

/-- Of the frame of a message that fits the server's buffer, a client takes the data or nothing. -/
theorem receiveResponse_message {m : RequestMessage} (h : m.frame.length ≤ Serializer.capacity)
    (expectedRequestID : BitVec 32) :
    Cpp.receiveResponse (some m.frame) expectedRequestID = some [] ∨
      m.requestID = expectedRequestID ∧ Cpp.receiveResponse (some m.frame) expectedRequestID = some m.bytes := by
  refine Cpp.receiveResponse_frame ?_ expectedRequestID
  intro bs hbs
  rw [RequestMessage.frame, hbs] at h
  have hcapacity : Serializer.capacity < 2 ^ 31 := by decide
  exact (Frame.length_data_lt.trans_le h).trans hcapacity

/-- What the server replies is the frame of the response, if it fits its buffer. -/
theorem mem_reply {Γ : Jvm} {e : Event} {m : RequestMessage} {d : Datagram} (h : d ∈ reply Γ e m) :
    d = ⟨e.address, e.port, m.frame⟩ ∧ m.frame.length ≤ Serializer.capacity := by
  unfold reply at h
  rcases serializeMessage_cases Γ m with ⟨hfits, hok⟩ | ⟨_, x, herror⟩
  · rw [hok, List.mem_singleton] at h
    exact ⟨h, hfits⟩
  · rw [herror] at h
    exact absurd h List.not_mem_nil

/-- A notification starts like the text of a message. -/
theorem bytes_of_isNotification {d : Datagram} (h : IsNotification d) : ∃ tail, d.bytes = Cpp.literal "Reques" ++ tail := by
  obtain ⟨message, hbytes⟩ := h
  refine ⟨getBytes ("tMessage: ".toList ++ decimal 0 ++ ' ' :: decimal 0 ++ ' ' :: message), ?_⟩
  rw [hbytes, Cpp.literal, getBytes, getBytes, getBytes, ← List.flatMap_append]
  rfl

/-- A request that is no echo and no repetition is an execution. -/
theorem executed_of_new {Γ : Jvm} {s : ServerState} {e : Event} {m : RequestMessage} (hm : deserializeMessage Γ e.bytes = .ok m)
    (ho : m.getOperation ≠ .ECHO) (hreplay : replayOf s m e = none) :
    executed Γ s e = [⟨m, e.address, e.port, (execute Γ s.reset m e).result⟩] := by
  simp only [executed, hm, ho, hreplay, Option.isSome_none, Bool.false_eq_true, or_self, if_false]

/-- A request of the history as an execution. -/
def RequestInfo.execution (r : RequestInfo) : Execution := ⟨r.requestMessage, r.clientAddress, r.clientPort, .ok r.responseMessage⟩

namespace System

variable {ι : Type} (Γ : Jvm) (endpoint : ι → Endpoint)

/-- The key of a client's request. -/
def keyOf (i : ι) (request : Cpp.RequestMessage) : RequestKey :=
  ⟨request.requestID, (endpoint i).address.address, (endpoint i).port⟩

/-- No two clients receive in one place. -/
def Distinct : Prop :=
  ∀ i j, (endpoint i).address.address = (endpoint j).address.address → (endpoint i).port = (endpoint j).port → i = j

/-- A datagram that is a request of a client. -/
def IsRequest (S : System ι) (d : Datagram) : Prop :=
  ∃ i, ∃ request ∈ (S.clients i).requests,
    d = ⟨(endpoint i).address, (endpoint i).port, Cpp.JavaSerializer.serialize (some request)⟩

/-- An execution of a request of a client, whose response has the ID of the request. -/
def IsExecution (S : System ι) (x : Execution) : Prop :=
  ∃ i, ∃ request ∈ (S.clients i).requests, x.request = decoded Γ request ∧ x.clientAddress = (endpoint i).address ∧
    x.clientPort = (endpoint i).port ∧ ∀ r, x.result = .ok r → r.requestID = request.requestID

/-- A datagram that the server sends. -/
inductive IsReply (S : System ι) (d : Datagram) : Prop
  | notification (h : IsNotification d)
  | echo (i : ι) (request : Cpp.RequestMessage) (hrequest : request ∈ (S.clients i).requests)
    (hecho : (decoded Γ request).getOperation = .ECHO) (haddress : d.address = (endpoint i).address)
    (hport : d.port = (endpoint i).port) (hbytes : d.bytes = (decoded Γ request).frame)
    (hfits : (decoded Γ request).frame.length ≤ Serializer.capacity)
  | response (x : Execution) (hx : x ∈ S.executions) (r : RequestMessage) (hr : x.result = .ok r)
    (haddress : d.address.address = x.clientAddress.address) (hport : d.port = x.clientPort) (hbytes : d.bytes = r.frame)
    (hfits : r.frame.length ≤ Serializer.capacity)

/-- What every interleaving keeps. -/
structure Invariant (S : System ι) : Prop where
  counts : ∀ i, (S.clients i).Counts
  fits : ∀ i, ∀ request ∈ (S.clients i).requests,
    (Cpp.JavaSerializer.serialize (some request)).length ≤ bufferLength
  requests : ∀ d ∈ S.requests, S.IsRequest endpoint d
  history : S.running = true → S.executions = S.server.requestHistory.map RequestInfo.execution
  executions : ∀ x ∈ S.executions, S.IsExecution Γ endpoint x
  once : S.server.checkHistory = true → (S.executions.map Execution.key).Nodup
  replies : ∀ d ∈ S.replies, S.IsReply Γ endpoint d
  returned : ∀ i request data, (request, .response data) ∈ (S.clients i).returned → (decoded Γ request).getOperation ≠ .ECHO →
    ∃ x ∈ S.executions, x.key = keyOf endpoint i request ∧ ∃ r, x.result = .ok r ∧ data = r.bytes

variable {Γ endpoint} {S : System ι}

/-! ## Growing -/

/-- Requests are only ever added, and so are executions. -/
structure Grows (S S' : System ι) : Prop where
  requests : ∀ i, (S.clients i).requests ⊆ (S'.clients i).requests
  executions : S.executions ⊆ S'.executions

theorem IsRequest.mono {S' : System ι} (h : Grows S S') {d : Datagram} (hd : S.IsRequest endpoint d) :
    S'.IsRequest endpoint d := by
  obtain ⟨i, request, hrequest, hd⟩ := hd
  exact ⟨i, request, h.requests i hrequest, hd⟩

theorem IsExecution.mono {S' : System ι} (h : Grows S S') {x : Execution} (hx : S.IsExecution Γ endpoint x) :
    S'.IsExecution Γ endpoint x := by
  obtain ⟨i, request, hrequest, hx⟩ := hx
  exact ⟨i, request, h.requests i hrequest, hx⟩

theorem IsReply.mono {S' : System ι} (h : Grows S S') {d : Datagram} (hd : S.IsReply Γ endpoint d) :
    S'.IsReply Γ endpoint d := by
  cases hd with
  | notification hd => exact .notification hd
  | echo i request hrequest hecho haddress hport hbytes hfits =>
    exact .echo i request (h.requests i hrequest) hecho haddress hport hbytes hfits
  | response x hx r hr haddress hport hbytes hfits =>
    exact .response x (h.executions hx) r hr haddress hport hbytes hfits

theorem invariant_init (checkHistory : Bool) : (init checkHistory : System ι).Invariant Γ endpoint where
  counts := fun _ => Cpp.Client.counts_new
  fits := fun _ _ h => absurd h List.not_mem_nil
  requests := fun _ h => absurd h List.not_mem_nil
  history := fun _ => rfl
  executions := fun _ h => absurd h List.not_mem_nil
  once := fun _ => List.nodup_nil
  replies := fun _ h => absurd h List.not_mem_nil
  returned := fun _ _ _ h => absurd h List.not_mem_nil

/-- A request of a client is sent. -/
theorem Invariant.post (h : S.Invariant Γ endpoint) {d : Datagram} (hd : S.IsRequest endpoint d) :
    (S.post d).Invariant Γ endpoint := by
  have hgrow : Grows S (S.post d) := ⟨fun _ _ hr => hr, fun _ hx => hx⟩
  refine ⟨h.counts, h.fits, ?_, h.history, fun x hx => (h.executions x hx).mono hgrow, h.once,
    fun d' hd' => (h.replies d' hd').mono hgrow, h.returned⟩
  intro d' hd'
  rcases List.mem_append.1 hd' with hd' | hd'
  · exact h.requests d' hd'
  · rw [List.mem_singleton] at hd'
    exact hd' ▸ hd

/-- A datagram of the server that a client takes data from, waiting for a request that is no echo, is the response of the
execution of that request. -/
theorem Invariant.receiveResponse (h : S.Invariant Γ endpoint)
    (hendpoint : Distinct endpoint) {i : ι} {request : Cpp.RequestMessage} (hrequest : request ∈ (S.clients i).requests)
    (hecho : (decoded Γ request).getOperation ≠ .ECHO) {d : Datagram} (hd : d ∈ S.replies)
    (haddress : d.address.address = (endpoint i).address.address) (hport : d.port = (endpoint i).port) {data : Bytes}
    (hdata : Cpp.receiveResponse (some d.bytes) request.requestID = some data) (hne : data ≠ []) :
    ∃ x ∈ S.executions, x.key = keyOf endpoint i request ∧ ∃ r, x.result = .ok r ∧ data = r.bytes := by
  have hnotEmpty : Cpp.receiveResponse (some d.bytes) request.requestID ≠ some [] := by
    rw [hdata]
    exact fun hnil => hne (Option.some.inj hnil)
  cases h.replies d hd with
  | notification hnotification =>
    obtain ⟨tail, hbytes⟩ := bytes_of_isNotification hnotification
    rw [hbytes] at hnotEmpty
    exact absurd (Cpp.receiveResponse_text tail request.requestID) hnotEmpty
  | echo j request' hrequest' hecho' haddress' hport' hbytes hfits =>
    rw [hbytes] at hnotEmpty
    rcases receiveResponse_message hfits request.requestID with hnil | ⟨hid, _⟩
    · exact absurd hnil hnotEmpty
    · rw [haddress'] at haddress
      rw [hport'] at hport
      obtain rfl := hendpoint j i haddress hport
      obtain rfl := (h.counts j).eq_of_requestID hrequest' hrequest hid
      exact absurd hecho' hecho
  | response x hx r hr haddress' hport' hbytes hfits =>
    rw [hbytes] at hnotEmpty hdata
    rcases receiveResponse_message hfits request.requestID with hnil | ⟨hid, hresponse⟩
    · exact absurd hnil hnotEmpty
    · obtain ⟨j, request', _, hexecuted, _, _, hresult⟩ := h.executions x hx
      have hkey : x.request.requestID = request.requestID := by
        rw [hexecuted]
        exact (hresult r hr).symm.trans hid
      refine ⟨x, hx, ?_, r, hr, Option.some.inj (hdata.symm.trans hresponse)⟩
      rw [Execution.key, keyOf, hkey, ← haddress', ← hport', haddress, hport]

/-! ## What has been executed -/

/-- An execution with the key of a client's request is an execution of that request. -/
theorem Invariant.request_of_key (h : S.Invariant Γ endpoint) (hendpoint : Distinct endpoint) {i : ι}
    {request : Cpp.RequestMessage} (hrequest : request ∈ (S.clients i).requests) {x : Execution} (hx : x ∈ S.executions)
    (hkey : x.key = keyOf endpoint i request) : x.request = decoded Γ request := by
  obtain ⟨j, request', hrequest', hexecuted, haddress, hport, _⟩ := h.executions x hx
  rw [Execution.key, keyOf, RequestKey.mk.injEq, haddress, hport, hexecuted] at hkey
  obtain rfl := hendpoint j i hkey.2.1 hkey.2.2
  obtain rfl := (h.counts j).eq_of_requestID hrequest' hrequest hkey.1
  exact hexecuted

/-- A request has been executed at most once, if the history is checked. -/
theorem Invariant.executionsOf_length (h : S.Invariant Γ endpoint) (hmode : S.server.checkHistory = true) (i : ι)
    (request : Cpp.RequestMessage) : (S.executionsOf endpoint i request).length ≤ 1 := by
  have hcount := List.nodup_iff_count_le_one.1 (h.once hmode) (keyOf endpoint i request)
  rw [List.count, List.countP_map, List.countP_eq_length_filter] at hcount
  exact hcount

/-! ## Rounds of the server -/

/-- The server has executed and sent something more. -/
theorem Invariant.served (h : S.Invariant Γ endpoint) {s : ServerState} {running : Bool} {sent : List Datagram}
    {more : List Execution} (hmode : s.checkHistory = S.server.checkHistory)
    (hhistory : running = true → S.executions ++ more = s.requestHistory.map RequestInfo.execution)
    (hmore : ∀ x ∈ more, S.IsExecution Γ endpoint x)
    (honce : S.server.checkHistory = true → ((S.executions ++ more).map Execution.key).Nodup)
    (hsent : ∀ d ∈ sent, ({ S with executions := S.executions ++ more } : System ι).IsReply Γ endpoint d) :
    ({ S with server := s, running := running, replies := S.replies ++ sent, executions := S.executions ++ more } :
      System ι).Invariant Γ endpoint := by
  refine ⟨h.counts, h.fits, h.requests, hhistory, ?_, fun hchecked => honce (hmode.symm.trans hchecked), ?_, ?_⟩
  · intro x hx
    rcases List.mem_append.1 hx with hx | hx
    · exact h.executions x hx
    · exact hmore x hx
  · intro d hd
    rcases List.mem_append.1 hd with hd | hd
    · refine IsReply.mono ?_ (h.replies d hd)
      exact ⟨fun _ _ hr => hr, List.subset_append_left _ _⟩
    · refine IsReply.mono ?_ (hsent d hd)
      exact ⟨fun _ _ hr => hr, fun _ hx => hx⟩
  · intro i request data hr hecho
    obtain ⟨x, hx, hkey⟩ := h.returned i request data hr hecho
    exact ⟨x, List.mem_append_left _ hx, hkey⟩

/-- A round in which nothing is executed. -/
theorem Invariant.serve_unexecuted (h : S.Invariant Γ endpoint) (hrunning : S.running = true) {e : Event} {r : RequestMessage}
    (hrun : handleRequest Γ S.server e = ⟨S.server.reset, .ok r, []⟩) (hnone : executed Γ S.server e = [])
    (hreply : ∀ d ∈ reply Γ e r, S.IsReply Γ endpoint d) : (S.serve Γ e).Invariant Γ endpoint := by
  have hsame : S.executions ++ [] = S.server.requestHistory.map RequestInfo.execution := by
    rw [List.append_nil, h.history hrunning]
  have honce : S.server.checkHistory = true → ((S.executions ++ []).map Execution.key).Nodup := by
    rw [List.append_nil]
    exact h.once
  unfold System.serve
  rw [hrun, hnone]
  refine h.served rfl (fun _ => hsame) (List.forall_mem_nil _) honce ?_
  intro d hd
  refine IsReply.mono ?_ (hreply d (List.mem_append.1 hd |>.resolve_left List.not_mem_nil))
  exact ⟨fun _ _ hr => hr, List.subset_append_left _ _⟩

/-- A round in which a request of a client is executed, the first with its key. -/
theorem Invariant.serve_executed (h : S.Invariant Γ endpoint) (hrunning : S.running = true) {i : ι}
    {request : Cpp.RequestMessage} (hrequest : request ∈ (S.clients i).requests) {e : Event}
    (haddress : e.address = (endpoint i).address) (hport : e.port = (endpoint i).port)
    (hm : deserializeMessage Γ e.bytes = .ok (decoded Γ request)) (hecho : (decoded Γ request).getOperation ≠ .ECHO)
    (hp : replayOf S.server (decoded Γ request) e = none) : (S.serve Γ e).Invariant Γ endpoint := by
  have hhistory := h.history hrunning
  have hkeys : S.executions.map Execution.key = S.server.requestHistory.map RequestInfo.key := by
    rw [hhistory, List.map_map]
    rfl
  have honce : ∀ x : Execution, x.key = e.key (decoded Γ request) → S.server.checkHistory = true →
      ((S.executions ++ [x]).map Execution.key).Nodup := by
    intro x hx hmode
    have hnotMem := key_notMem_of_replayOf hmode hp
    rw [← hkeys, ← hx] at hnotMem
    have hconcat := List.Nodup.concat hnotMem (h.once hmode)
    rw [List.concat_eq_append] at hconcat
    rwa [List.map_append]
  unfold System.serve
  rw [handleRequest_of_new hm hecho hp, executed_of_new hm hecho hp]
  rcases execute_cases Γ S.server.reset (decoded Γ request) e with
    ⟨x, _, _, hrun⟩ | ⟨r, last, monitors, sent, _, hr, _, hsent, hrun⟩
  · -- the exception ends the loop, so nothing is said of the history
    rw [hrun]
    refine h.served rfl (fun hx => absurd hx Bool.false_ne_true) ?_ (honce _ rfl) (List.forall_mem_nil _)
    intro x hx
    rw [List.mem_singleton] at hx
    subst hx
    exact ⟨i, request, hrequest, rfl, haddress, hport, fun _ hr => by cases hr⟩
  · rw [hrun]
    refine h.served rfl ?_ ?_ (honce _ rfl) ?_
    · intro _
      show _ = (S.server.requestHistory ++ [_]).map RequestInfo.execution
      rw [hhistory, List.map_append]
      rfl
    · intro x hx
      rw [List.mem_singleton] at hx
      subst hx
      refine ⟨i, request, hrequest, rfl, haddress, hport, ?_⟩
      intro r' hr'
      cases hr'
      exact hr.requestID
    · intro d hd
      rcases List.mem_append.1 hd with hd | hd
      · exact .notification (hsent d hd)
      · obtain ⟨rfl, hfits⟩ := mem_reply hd
        exact .response _ (List.mem_append_right _ List.mem_cons_self) r rfl rfl rfl rfl hfits

/-- A round of the loop, on a request of a client. -/
theorem Invariant.serve (h : S.Invariant Γ endpoint) (hrunning : S.running = true) {d : Datagram} (hd : d ∈ S.requests)
    (now : BitVec 64) (uuid : UUID) :
    (S.serve Γ ⟨⟨d.address, d.port, d.bytes.take bufferLength⟩, now, uuid⟩).Invariant Γ endpoint := by
  obtain ⟨i, request, hrequest, rfl⟩ := h.requests d hd
  have hsize := h.fits i request hrequest
  rw [List.take_of_length_le hsize]
  generalize he : (⟨⟨(endpoint i).address, (endpoint i).port, Cpp.JavaSerializer.serialize (some request)⟩, now, uuid⟩ : Event) = e
  have haddress : e.address = (endpoint i).address := by rw [← he]
  have hport : e.port = (endpoint i).port := by rw [← he]
  have hm : deserializeMessage Γ e.bytes = .ok (decoded Γ request) := by
    rw [← he]
    exact deserializeMessage_serialize Γ hsize
  by_cases hecho : (decoded Γ request).getOperation = .ECHO
  · have hnone : executed Γ S.server e = [] := by simp only [executed, hm, hecho, true_or, if_true]
    refine h.serve_unexecuted hrunning (handleRequest_of_echo hm hecho) hnone ?_
    intro d hd
    obtain ⟨rfl, hfits⟩ := mem_reply hd
    exact .echo i request hrequest hecho haddress hport rfl hfits
  · cases hp : replayOf S.server (decoded Γ request) e with
    | some prevRequest =>
      have hnone : executed Γ S.server e = [] := by
        simp only [executed, hm, hp, Option.isSome_some, or_true, if_true]
      have hprev : prevRequest.execution ∈ S.executions := by
        rw [h.history hrunning]
        exact List.mem_map_of_mem (mem_of_replayOf hp)
      have hkey := key_of_replayOf hp
      rw [RequestInfo.key, Event.key, RequestKey.mk.injEq] at hkey
      refine h.serve_unexecuted hrunning (handleRequest_of_replay hm hecho hp) hnone ?_
      intro d hd
      obtain ⟨rfl, hfits⟩ := mem_reply hd
      exact .response prevRequest.execution hprev prevRequest.responseMessage rfl hkey.2.1.symm hkey.2.2.symm rfl hfits
    | none => exact h.serve_executed hrunning hrequest haddress hport hm hecho hp

/-! ## Steps of a client -/

variable [DecidableEq ι]

/-- A client does something: what it returns, if it returns something new, is of an execution. -/
theorem Invariant.withClient (h : S.Invariant Γ endpoint) {i : ι} {c : Cpp.Client} (hcounts : c.Counts)
    (hgrows : (S.clients i).requests ⊆ c.requests)
    (hfits : ∀ request ∈ c.requests, (Cpp.JavaSerializer.serialize (some request)).length ≤ bufferLength)
    (hreturned : ∀ request data, (request, .response data) ∈ c.returned → (decoded Γ request).getOperation ≠ .ECHO →
      ∃ x ∈ S.executions, x.key = keyOf endpoint i request ∧ ∃ r, x.result = .ok r ∧ data = r.bytes) :
    (S.withClient i c).Invariant Γ endpoint := by
  have hgrow : Grows S (S.withClient i c) := by
    refine ⟨?_, fun _ hx => hx⟩
    intro j
    rcases eq_or_ne j i with rfl | hj
    · rw [withClient_self]
      exact hgrows
    · rw [withClient_of_ne S c hj]
      exact fun _ hr => hr
  refine ⟨?_, ?_, fun d hd => (h.requests d hd).mono hgrow, h.history,
    fun x hx => (h.executions x hx).mono hgrow, h.once, fun d hd => (h.replies d hd).mono hgrow, ?_⟩
  · intro j
    rcases eq_or_ne j i with rfl | hj
    · rw [withClient_self]
      exact hcounts
    · rw [withClient_of_ne S c hj]
      exact h.counts j
  · intro j
    rcases eq_or_ne j i with rfl | hj
    · rw [withClient_self]
      exact hfits
    · rw [withClient_of_ne S c hj]
      exact h.fits j
  · intro j
    rcases eq_or_ne j i with rfl | hj
    · rw [withClient_self]
      exact hreturned
    · rw [withClient_of_ne S c hj]
      exact h.returned j

/-- An attempt ends: data that is returned for a request that is no echo is that of its execution. -/
theorem Invariant.receive (h : S.Invariant Γ endpoint) {i : ι} {request : Cpp.RequestMessage} {attempt : Nat}
    (hphase : (S.clients i).phase = .receiving request attempt) (received : Option Bytes)
    (hreceived : ∀ data, Cpp.receiveResponse received request.requestID = some data → data ≠ [] →
      (decoded Γ request).getOperation ≠ .ECHO →
      ∃ x ∈ S.executions, x.key = keyOf endpoint i request ∧ ∃ r, x.result = .ok r ∧ data = r.bytes) :
    (S.withClient i ((S.clients i).receive request attempt received)).Invariant Γ endpoint := by
  have hrequests := Cpp.Client.receive_requests (S.clients i) request attempt received
  refine h.withClient ((h.counts i).receive hphase received) ?_ ?_ ?_
  · rw [hrequests]
    exact fun _ hr => hr
  · rw [hrequests]
    exact h.fits i
  · intro request' data hdata hecho
    rcases Cpp.Client.mem_returned_receive hdata with hold | ⟨rfl, hne, hnew⟩
    · exact h.returned i request' data hold hecho
    · exact hreceived data hnew hne hecho

/-- Every step keeps the invariant. -/
theorem Invariant.step (h : S.Invariant Γ endpoint) (hendpoint : Distinct endpoint) {S' : System ι}
    (hstep : Step Γ endpoint S S') : S'.Invariant Γ endpoint := by
  cases hstep with
  | call i requestType data hphase hcount hsize =>
    refine h.withClient ((h.counts i).call hphase hcount requestType data) (List.subset_append_left _ _) (fun request hr => ?_)
      (h.returned i)
    rcases List.mem_append.1 hr with hr | hr
    · exact h.fits i request hr
    · rw [List.mem_singleton] at hr
      exact hr ▸ hsize
  | send i request attempt hphase =>
    refine (h.withClient ((h.counts i).sendRequest hphase) (fun _ hr => hr) (h.fits i) (h.returned i)).post ?_
    refine ⟨i, request, ?_, rfl⟩
    rw [withClient_self]
    exact (h.counts i).current request attempt (Or.inl hphase)
  | serve d hd now uuid hrunning => exact h.serve hrunning hd now uuid
  | receive i request attempt d hphase hd haddress hport =>
    have hrequest := (h.counts i).current request attempt (Or.inr hphase)
    exact h.receive hphase (some d.bytes) fun data hdata hne hecho =>
      h.receiveResponse hendpoint hrequest hecho hd haddress hport hdata hne
  | timeout i request attempt hphase =>
    exact h.receive hphase none fun data hdata hne _ => absurd (Option.some.inj hdata).symm hne

variable {checkHistory : Bool}

theorem invariant_reachable (hendpoint : Distinct endpoint) (h : Reachable Γ checkHistory endpoint S) : S.Invariant Γ endpoint := by
  induction h with
  | refl => exact invariant_init checkHistory
  | tail _ hstep ih => exact ih.step hendpoint hstep

/-- The server stays in its mode. -/
theorem checkHistory_reachable (h : Reachable Γ checkHistory endpoint S) : S.server.checkHistory = checkHistory := by
  induction h with
  | refl => rfl
  | tail _ hstep ih =>
    cases hstep with
    | serve => exact (handleRequest_checkHistory Γ _ _).trans ih
    | _ => exact ih

end System

/-- However the datagrams of any number of clients are dropped, repeated, delayed and reordered: the requests of a client have
IDs of their own; each is executed at most once, as the client has sent it; and data returned to a client for a request that is no
echo is that of the response of its only execution. -/
theorem executed_at_most_once {ι : Type} [DecidableEq ι] (Γ : Jvm) (endpoint : ι → Endpoint)
    (hendpoint : System.Distinct endpoint) (S : System ι) (h : System.Reachable Γ true endpoint S) (i : ι) :
    ((S.clients i).requests.map Cpp.RequestMessage.requestID).Nodup ∧
    (∀ request ∈ (S.clients i).requests, (S.executionsOf endpoint i request).length ≤ 1 ∧
      ∀ x ∈ S.executionsOf endpoint i request, x.request = decoded Γ request) ∧
    ∀ request data, (request, .response data) ∈ (S.clients i).returned → (decoded Γ request).getOperation ≠ .ECHO →
      ∃ x r, S.executionsOf endpoint i request = [x] ∧ x.result = .ok r ∧ data = r.bytes := by
  have hinv := System.invariant_reachable hendpoint h
  have hmode := System.checkHistory_reachable h
  refine ⟨(hinv.counts i).nodup, ?_, ?_⟩
  · intro request hrequest
    refine ⟨hinv.executionsOf_length hmode i request, ?_⟩
    intro x hx
    obtain ⟨hx, hkey⟩ := List.mem_filter.1 hx
    exact hinv.request_of_key hendpoint hrequest hx (of_decide_eq_true hkey)
  · intro request data hreturned hecho
    obtain ⟨x, hx, hkey, r, hr, hdata⟩ := hinv.returned i request data hreturned hecho
    have hmem : x ∈ S.executionsOf endpoint i request := List.mem_filter.2 ⟨hx, decide_eq_true hkey⟩
    have hlength := hinv.executionsOf_length hmode i request
    obtain ⟨y, hy⟩ := List.length_eq_one_iff.1 (le_antisymm hlength (List.length_pos_of_mem hmem))
    rw [hy, List.mem_singleton] at hmem
    exact ⟨x, r, hmem ▸ hy, hr, hdata⟩

/-- Two clients on one host, the first of which asks for the rating of a facility that is not there. -/
def twoClients (first : Bool) : Endpoint := ⟨⟨[127, 0, 0, 1], "127.0.0.1".toList⟩, if first then 5000 else 5001⟩
def askRating : Cpp.RequestMessage := ⟨0, 0, Cpp.literal "rating,Nowhere"⟩
def noFacility : RequestMessage := ⟨0, 0, error "Facility not found".toList⟩

/-- The request and its response as datagrams. -/
def ratingAsked : Datagram := ⟨(twoClients true).address, 5000, Cpp.JavaSerializer.serialize (some askRating)⟩
def ratingAnswered : Datagram := ⟨(twoClients true).address, 5000, noFacility.frame⟩

/-- The request as the server receives it. -/
def ratingReceived : Event := ⟨⟨ratingAsked.address, ratingAsked.port, ratingAsked.bytes.take bufferLength⟩, 0, ⟨0, 0⟩⟩

/-- The system after the four steps in which it is made, sent, answered and received. -/
def ratingMade : System Bool := (System.init true).withClient true (Cpp.Client.new.call askRating.requestType askRating.data)
def ratingSent : System Bool :=
  (ratingMade.withClient true ((ratingMade.clients true).sendRequest askRating 0)).post ratingAsked
def ratingServed : System Bool := ratingSent.serve openJdk ratingReceived
def ratingReturned : System Bool :=
  ratingServed.withClient true ((ratingServed.clients true).receive askRating 0 (some ratingAnswered.bytes))

theorem askRating_fits : (Cpp.JavaSerializer.serialize (some askRating)).length ≤ bufferLength := by decide +kernel

theorem ratingReceived_decodes : deserializeMessage openJdk ratingReceived.bytes = .ok ⟨0, 0, some "rating,Nowhere".toList⟩ := by
  have hdecoded : decoded openJdk askRating = ⟨0, 0, some "rating,Nowhere".toList⟩ :=
    congrArg (fun t => RequestMessage.mk 0 0 (some t)) (openJdk.newString_getBytes "rating,Nowhere".toList)
  have hbytes : ratingReceived.bytes = Cpp.JavaSerializer.serialize (some askRating) := by
    simp only [ratingReceived, ratingAsked, List.take_of_length_le askRating_fits]
  rw [hbytes, deserializeMessage_serialize openJdk askRating_fits, hdecoded]

/-- The server answers that the facility is not there. -/
theorem ratingReceived_result : (handleRequest openJdk (.init true) ratingReceived).result = .ok noFacility := by
  rw [handleRequest_of_new ratingReceived_decodes (by decide) rfl]
  rfl

/-- The server's loop replies so. -/
theorem ratingServed_replies : ratingAnswered ∈ ratingServed.replies := by
  have hreply : ratingAnswered ∈ reply openJdk ratingReceived noFacility := by
    rcases serializeMessage_cases openJdk noFacility with ⟨_, hok⟩ | ⟨hover, _⟩
    · rw [reply, hok]
      exact List.mem_singleton_self _
    · exact absurd hover (by decide +kernel)
  have hserver : ratingSent.server = .init true := rfl
  unfold ratingServed System.serve
  simp only [hserver, ratingReceived_result]
  exact List.mem_append_right _ (List.mem_append_right _ hreply)

theorem executed_at_most_once_askRating :
    ∃ x r, ratingReturned.executionsOf twoClients true askRating = [x] ∧ x.result = .ok r ∧ noFacility.bytes = r.bytes := by
  have hreachable : System.Reachable openJdk true twoClients ratingReturned := by
    exact (((Relation.ReflTransGen.refl.tail (.call true 0 askRating.data rfl (by decide) askRating_fits)).tail
      (.send true askRating 0 rfl)).tail (.serve ratingAsked List.mem_cons_self 0 ⟨0, 0⟩ rfl)).tail
      (.receive true askRating 0 ratingAnswered rfl ratingServed_replies rfl rfl)
  have hreturned : (askRating, .response noFacility.bytes) ∈ (ratingReturned.clients true).returned := by
    have hresponse : Cpp.receiveResponse (some ratingAnswered.bytes) askRating.requestID = some noFacility.bytes := by
      decide +kernel
    rw [ratingReturned, System.withClient_self, Cpp.Client.receive, hresponse]
    exact List.mem_append_right _ List.mem_cons_self
  have hdistinct : ∀ i j, (twoClients i).port = (twoClients j).port → i = j := by decide
  exact (executed_at_most_once openJdk twoClients (fun i j _ => hdistinct i j) ratingReturned hreachable true).2.2 askRating
    noFacility.bytes hreturned (by decide)

end FacilityBooking
