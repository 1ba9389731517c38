import FacilityBooking.Lossless
import FacilityBooking.Theorems.Stale

/-!
# Echo

The reply to an echo is the frame of the request. An empty message is null in the frame, so its reply has no data, which the client
takes for no reply: it gives up after five attempts, and says so. Every other message comes back as it is.
-/

namespace FacilityBooking

/-- The request of `echoMessage`. -/
def echoRequest (requestID : BitVec 32) (message : Text) : Cpp.RequestMessage :=
  ⟨Cpp.RequestMessage.ECHO, requestID, getBytes message⟩

/-- The server's data that requests change. -/
structure SameData (s s' : ServerState) : Prop where
  facilities : s'.facilities = s.facilities
  monitors : s'.monitors = s.monitors
  requestHistory : s'.requestHistory = s.requestHistory

/-- Of an echo, the client returns the message and the server has changed nothing. -/
def EchoIsIdentity (Γ : Jvm) (endpoint : Endpoint) (drawn : Nat → BitVec 64 × UUID) (requestID : BitVec 32) (message : Text)
    (link : Link) : Prop :=
  (Cpp.echoMessage (Link.exchange Γ endpoint drawn) requestID (getBytes message) link).1.map Cpp.Returned.text =
      some (getBytes message) ∧
    SameData link.server (Cpp.echoMessage (Link.exchange Γ endpoint drawn) requestID (getBytes message) link).2.server

/-! ## One exchange -/

/-- A server that runs, and no datagrams that wait; the server's data as it was. -/
structure Link.Ready (s : ServerState) (link : Link) : Prop where
  running : link.running = true
  queue : link.queue = []
  data : SameData s link.server

section

variable {Γ : Jvm} {endpoint : Endpoint} {drawn : Nat → BitVec 64 × UUID} {requestID : BitVec 32} {message : Text}

theorem decoded_echo : (decoded Γ (echoRequest requestID message)).data.map getBytes = Cpp.nullIfEmpty (getBytes message) := by
  unfold decoded echoRequest Cpp.nullIfEmpty
  split
  · rfl
  · exact congrArg some (congrArg getBytes (Γ.newString_getBytes message))

/-- The frame of the reply is that of the request. -/
theorem frame_decoded_echo :
    (decoded Γ (echoRequest requestID message)).frame = Cpp.JavaSerializer.serialize (some (echoRequest requestID message)) := by
  rw [Cpp.serialize_eq, RequestMessage.frame, decoded_echo]
  rfl

/-- A response that is all the server sends, and fits its buffer, is what the client receives. -/
theorem Link.exchange_of_handled {link : Link} {request : Cpp.RequestMessage} (hrunning : link.running = true) (hqueue : link.queue = [])
    {e : Event} (he : e = (⟨endpoint.address, endpoint.port, Cpp.JavaSerializer.serialize (some request)⟩ : Datagram).received
      (drawn link.count).1 (drawn link.count).2) {s : ServerState} {r : RequestMessage}
    (hhandled : handleRequest Γ link.server e = ⟨s, .ok r, []⟩) (hlength : r.frame.length ≤ Serializer.capacity) :
    Link.exchange Γ endpoint drawn request link = (some r.frame, ⟨s, true, [], link.count + 1⟩) := by
  have hreply : reply Γ e r = [⟨endpoint.address, endpoint.port, r.frame⟩] := by
    rcases serializeMessage_cases Γ r with ⟨_, hok⟩ | ⟨hlong, _⟩
    · rw [reply, hok, he]
      rfl
    · exact absurd hlength (Nat.not_le_of_lt hlong)
  have hserve : link.serve Γ endpoint drawn request = ⟨s, true, [r.frame], link.count + 1⟩ := by
    unfold Link.serve
    dsimp only
    rw [← he, hhandled, hqueue]
    simp only [hreply, Endpoint.arriving, List.nil_append, List.filter_cons, and_self, decide_true, if_true,
      List.filter_nil, List.map_cons, List.map_nil]
    rfl
  unfold Link.exchange
  simp only [hrunning, if_true, hserve, List.head?_cons, List.tail_cons]

/-- The server is left as it was, and the frame comes back. -/
theorem Link.Ready.exchange {s : ServerState} {link : Link} (h : link.Ready s)
    (hsize : (Cpp.JavaSerializer.serialize (some (echoRequest requestID message))).length ≤ bufferLength) :
    (Link.exchange Γ endpoint drawn (echoRequest requestID message) link).1 =
        some (Cpp.JavaSerializer.serialize (some (echoRequest requestID message))) ∧
      (Link.exchange Γ endpoint drawn (echoRequest requestID message) link).2.Ready s := by
  have hm : deserializeMessage Γ ((Cpp.JavaSerializer.serialize (some (echoRequest requestID message))).take bufferLength) =
      .ok (decoded Γ (echoRequest requestID message)) := by
    rw [List.take_of_length_le hsize]
    exact deserializeMessage_serialize Γ hsize
  have hcapacity : bufferLength ≤ Serializer.capacity := by decide
  rw [Link.exchange_of_handled h.running h.queue rfl (handleRequest_of_echo hm rfl) (frame_decoded_echo ▸ hsize.trans hcapacity),
    frame_decoded_echo]
  exact ⟨rfl, rfl, rfl, h.data.facilities, h.data.monitors, h.data.requestHistory⟩

/-- The frame of the request, as the client decodes it. -/
theorem inspected_echo (hsize : (Cpp.JavaSerializer.serialize (some (echoRequest requestID message))).length ≤ bufferLength) :
    inspected (Cpp.JavaSerializer.serialize (some (echoRequest requestID message))) = .ok (some (echoRequest requestID message)) := by
  have hdata : (decoded openJdk (echoRequest requestID message)).bytes = getBytes message := by
    rw [RequestMessage.bytes, decoded_echo, Cpp.nullIfEmpty]
    split
    · rename_i hempty
      exact hempty.symm
    · rfl
  have hbuffer : bufferLength ≤ Cpp.Constants.BUFFER_SIZE := by decide
  rw [← frame_decoded_echo (Γ := openJdk)] at hsize ⊢
  rw [inspected_frame (hsize.trans hbuffer), hdata]
  rfl

/-! ## The attempts -/

/-- Whatever the message is, the server has changed nothing in the end. -/
theorem Link.Ready.echoMessage {s : ServerState} {link : Link} (h : link.Ready s)
    (hsize : (Cpp.JavaSerializer.serialize (some (echoRequest requestID message))).length ≤ bufferLength) :
    (Cpp.echoMessage (Link.exchange Γ endpoint drawn) requestID (getBytes message) link).2.Ready s := by
  have hstep : ∀ link' : Link, link'.Ready s →
      (Cpp.attempt (Link.exchange Γ endpoint drawn) (echoRequest requestID message) link').2.Ready s :=
    fun _ hlink => (hlink.exchange hsize).2
  exact Retry.run_keeps hstep Cpp.Constants.MAX_RETRIES link h

/-- A message that is not empty is returned from the first attempt. -/
theorem Link.Ready.returned {s : ServerState} {link : Link} (h : link.Ready s)
    (hsize : (Cpp.JavaSerializer.serialize (some (echoRequest requestID message))).length ≤ bufferLength)
    (hmessage : getBytes message ≠ []) :
    (Cpp.echoMessage (Link.exchange Γ endpoint drawn) requestID (getBytes message) link).1 =
      some (.response (getBytes message)) := by
  have hattempt : Cpp.attempt (Link.exchange Γ endpoint drawn) (echoRequest requestID message) link =
      (some (some (getBytes message)), (Link.exchange Γ endpoint drawn (echoRequest requestID message) link).2) := by
    rw [Cpp.attempt, (h.exchange hsize).1, conclusive_of_reply (inspected_echo hsize) rfl hmessage]
    rfl
  have hrun := Retry.run_of_some hattempt 4
  exact congrArg (fun result => Cpp.concluded result.1) hrun

/-- An empty message is not: no attempt has a response. -/
theorem Link.Ready.returned_empty {s : ServerState} {link : Link} (h : link.Ready s)
    (hsize : (Cpp.JavaSerializer.serialize (some (echoRequest requestID message))).length ≤ bufferLength)
    (hmessage : getBytes message = []) :
    (Cpp.echoMessage (Link.exchange Γ endpoint drawn) requestID (getBytes message) link).1 = some .failed := by
  have hstep : ∀ link' : Link, link'.Ready s →
      (Cpp.attempt (Link.exchange Γ endpoint drawn) (echoRequest requestID message) link').1 = none ∧
        (Cpp.attempt (Link.exchange Γ endpoint drawn) (echoRequest requestID message) link').2.Ready s := by
    intro link' hlink
    refine ⟨?_, (hlink.exchange hsize).2⟩
    rw [Cpp.attempt, (hlink.exchange hsize).1]
    exact conclusive_of_empty (inspected_echo hsize) hmessage
  have hrun := Retry.run_fails hstep Cpp.Constants.MAX_RETRIES link h
  exact congrArg Cpp.concluded hrun

end

/-- On a network that loses nothing and with nothing that waits, for every message whose request fits the server's buffer, the client
returns the message and the server has changed nothing exactly when the message is not empty. -/
theorem echo_isIdentity_iff (Γ : Jvm) (endpoint : Endpoint) (drawn : Nat → BitVec 64 × UUID) (requestID : BitVec 32)
    (message : Text) (link : Link) (hrunning : link.running = true) (hqueue : link.queue = [])
    (hsize : (Cpp.JavaSerializer.serialize (some (echoRequest requestID message))).length ≤ bufferLength) :
    EchoIsIdentity Γ endpoint drawn requestID message link ↔ message ≠ [] := by
  have hready : link.Ready link.server := ⟨hrunning, hqueue, ⟨rfl, rfl, rfl⟩⟩
  constructor
  · rintro ⟨hreturned, _⟩ hempty
    have hbytes : getBytes message = [] := congrArg getBytes hempty
    rw [hready.returned_empty hsize hbytes, hbytes] at hreturned
    cases hreturned
  · intro hmessage
    have hbytes : getBytes message ≠ [] := fun hempty => hmessage (getBytes_injective hempty)
    refine ⟨?_, (hready.echoMessage hsize).data⟩
    rw [hready.returned hsize hbytes]
    rfl

/-! ## A new server -/

/-- A client before a server after `init()`, and what the server draws. -/
def newLink : Link := ⟨.init true, true, [], 0⟩
def neverDrawn (_ : Nat) : BitVec 64 × UUID := (0, ⟨0, 0⟩)

theorem echo_isIdentity_iff_hello : EchoIsIdentity openJdk (twoClients true) neverDrawn 0 "hello".toList newLink :=
  (echo_isIdentity_iff openJdk (twoClients true) neverDrawn 0 "hello".toList newLink rfl rfl (by decide +kernel)).2
    (List.cons_ne_nil _ _)

/-- An empty message comes back as the text that the request has failed. -/
theorem not_echo_isIdentity :
    ¬∀ (endpoint : Endpoint) (drawn : Nat → BitVec 64 × UUID) (requestID : BitVec 32) (message : Text) (link : Link),
      link.running = true → link.queue = [] →
      (Cpp.JavaSerializer.serialize (some (echoRequest requestID message))).length ≤ bufferLength →
      EchoIsIdentity openJdk endpoint drawn requestID message link := by
  intro h
  have hsize : (Cpp.JavaSerializer.serialize (some (echoRequest 0 []))).length ≤ bufferLength := by decide +kernel
  have hready : newLink.Ready newLink.server := ⟨rfl, rfl, ⟨rfl, rfl, rfl⟩⟩
  obtain ⟨hreturned, _⟩ := h (twoClients true) neverDrawn 0 [] newLink rfl rfl hsize
  rw [hready.returned_empty hsize rfl] at hreturned
  cases hreturned

end FacilityBooking
