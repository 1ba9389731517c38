import FacilityBooking.Lossy
import FacilityBooking.Server.Main
import FacilityBooking.Theorems.Echo
import FacilityBooking.Theorems.ReadYourWrites

/-!
# A server that drops every other datagram

Its loop over some datagrams is the plain loop over every second of them. To a client that is alone it is the plain server, but for
the attempts: the first of every operation is in vain, and the second is answered as the first would have been.
-/

namespace FacilityBooking

/-- Every second element of a list, beginning with the second. -/
def everySecond {α : Type*} : List α → List α
  | _ :: a :: as => a :: everySecond as
  | _ => []

namespace Main

/-- The same variables, with the switch as given, and the next datagram to be dropped if it is on. -/
def switched (main : Main) (DROP_REQUEST : Bool) : Main := { main with DROP_REQUEST := DROP_REQUEST, DROP := false }

variable {Γ : Jvm} {main : Main}

/-- The first datagram is dropped. -/
theorem round_drops (main : Main) (e : Event) :
    (main.switched true).round Γ e = ⟨{ main with DROP_REQUEST := true, DROP := true }, true, []⟩ := rfl

/-- The next is handled as if the switch were off. -/
theorem round_handles (main : Main) (e : Event) :
    ({ main with DROP_REQUEST := true, DROP := true } : Main).round Γ e =
      { (main.switched false).round Γ e with main := ((main.switched false).round Γ e).main.switched true } := rfl

theorem loop_of_running {e : Event} (h : (main.round Γ e).running = true) (es : List Event) :
    main.loop Γ (e :: es) =
      { (main.round Γ e).main.loop Γ es with sent := (main.round Γ e).sent ++ ((main.round Γ e).main.loop Γ es).sent } := by
  rw [loop]
  exact if_pos h

theorem loop_of_stopped {e : Event} (h : ¬(main.round Γ e).running = true) (es : List Event) :
    main.loop Γ (e :: es) = main.round Γ e := by
  rw [loop]
  exact if_neg h

/-- With the switch on, the loop answers every second datagram as it does with the switch off, and leaves the same server. -/
theorem loop_everySecond (es : List Event) (main : Main) :
    ((main.switched true).loop Γ es).sent = ((main.switched false).loop Γ (everySecond es)).sent ∧
      ((main.switched true).loop Γ es).running = ((main.switched false).loop Γ (everySecond es)).running ∧
      ((main.switched true).loop Γ es).main.server = ((main.switched false).loop Γ (everySecond es)).main.server := by
  induction es using everySecond.induct generalizing main with
  | case1 d e es ih =>
    have hoff : ((main.switched false).round Γ e).main.switched false = ((main.switched false).round Γ e).main := rfl
    rw [loop_of_running rfl, round_drops, everySecond]
    by_cases hrun : ((main.switched false).round Γ e).running = true
    · have hrun' : (({ main with DROP_REQUEST := true, DROP := true } : Main).round Γ e).running = true := hrun
      obtain ⟨hsent, hrunning, hserver⟩ := ih ((main.switched false).round Γ e).main
      rw [hoff] at hsent hrunning hserver
      rw [loop_of_running hrun, loop_of_running hrun', round_handles]
      exact ⟨congrArg (fun sent => ((main.switched false).round Γ e).sent ++ sent) hsent, hrunning, hserver⟩
    · have hrun' : ¬(({ main with DROP_REQUEST := true, DROP := true } : Main).round Γ e).running = true := hrun
      rw [loop_of_stopped hrun, loop_of_stopped hrun', round_handles]
      exact ⟨rfl, rfl, rfl⟩
  | case2 es hshort =>
    cases es with
    | nil => exact ⟨rfl, rfl, rfl⟩
    | cons d es =>
      cases es with
      | nil => exact ⟨rfl, rfl, rfl⟩
      | cons e es => exact absurd rfl (hshort d e es)

end Main

/-! ## A client alone before it -/

/-- A network that loses nothing, before a server whose switch may be on; how many requests it has not dropped is counted. -/
structure MainLink where
  main : Main
  running : Bool
  queue : List Bytes
  count : Nat

namespace MainLink

/-- The server's turn. -/
def serve (Γ : Jvm) (endpoint : Endpoint) (drawn : Nat → BitVec 64 × UUID) (request : Cpp.RequestMessage) (link : MainLink) :
    MainLink :=
  let d : Datagram := ⟨endpoint.address, endpoint.port, Cpp.JavaSerializer.serialize (some request)⟩
  let round := link.main.round Γ (d.received (drawn link.count).1 (drawn link.count).2)
  { main := round.main
    running := round.running
    queue := link.queue ++ endpoint.arriving round.sent
    count := if round.main.DROP then link.count else link.count + 1 }

/-- The client sends a request and receives the first datagram that waits. -/
def exchange (Γ : Jvm) (endpoint : Endpoint) (drawn : Nat → BitVec 64 × UUID) (request : Cpp.RequestMessage) (link : MainLink) :
    Option Bytes × MainLink :=
  let link := if link.running then link.serve Γ endpoint drawn request else link
  (link.queue.head?, { link with queue := link.queue.tail })

/-- The same, with the switch as given. -/
def of (DROP_REQUEST : Bool) (link : Link) : MainLink :=
  ⟨⟨DROP_REQUEST, false, link.server⟩, link.running, link.queue, link.count⟩

variable {Γ : Jvm} {endpoint : Endpoint} {drawn : Nat → BitVec 64 × UUID} {request : Cpp.RequestMessage} {link : Link}

/-- The server has dropped a request, and nothing waits. -/
def dropped (link : Link) : MainLink := ⟨⟨true, true, link.server⟩, true, [], link.count⟩

/-- The first attempt is in vain. -/
theorem exchange_drops (hrunning : link.running = true) (hqueue : link.queue = []) :
    exchange Γ endpoint drawn request (of true link) = (none, dropped link) := by
  unfold exchange of
  simp only [hrunning, hqueue, if_true]
  rfl

/-- The second is the first of the plain server. -/
theorem exchange_dropped (hrunning : link.running = true) (hqueue : link.queue = []) :
    exchange Γ endpoint drawn request (dropped link) =
      ((Link.exchange Γ endpoint drawn request link).1, of true (Link.exchange Γ endpoint drawn request link).2) := by
  unfold exchange Link.exchange
  simp only [hrunning, if_true]
  unfold Link.serve
  simp only [hqueue]
  rfl

end MainLink

section

variable {Γ : Jvm} {endpoint : Endpoint} {drawn : Nat → BitVec 64 × UUID}

/-- Nothing waits for the client, and its first attempt is answered. -/
def Link.Prompt (Γ : Jvm) (endpoint : Endpoint) (drawn : Nat → BitVec 64 × UUID) (link : Link) (request : Cpp.RequestMessage) : Prop :=
  link.queue = [] ∧ (Cpp.conclusive request (Link.exchange Γ endpoint drawn request link).1).isSome = true

/-- A server that does not run any more answers nothing. -/
theorem Link.Prompt.running {link : Link} {request : Cpp.RequestMessage} (h : link.Prompt Γ endpoint drawn request) :
    link.running = true := by
  obtain ⟨hqueue, hanswered⟩ := h
  by_contra hstopped
  rw [Bool.not_eq_true] at hstopped
  unfold Link.exchange at hanswered
  simp only [hstopped, Bool.false_eq_true, if_false, hqueue, List.head?_nil] at hanswered
  cases hanswered

/-- One operation: the first attempt with the switch off, the second with the switch on. -/
theorem Link.Prompt.sendWithRetry {link : Link} {request : Cpp.RequestMessage} (h : link.Prompt Γ endpoint drawn request) :
    (Cpp.sendWithRetry (Link.exchange Γ endpoint drawn) request link).2 = (Link.exchange Γ endpoint drawn request link).2 ∧
      Cpp.sendWithRetry (MainLink.exchange Γ endpoint drawn) request (.of true link) =
        ((Cpp.sendWithRetry (Link.exchange Γ endpoint drawn) request link).1,
          .of true (Link.exchange Γ endpoint drawn request link).2) := by
  obtain ⟨result, hresult⟩ := Option.isSome_iff_exists.1 h.2
  have hattempt : Cpp.attempt (Link.exchange Γ endpoint drawn) request link =
      (some result, (Link.exchange Γ endpoint drawn request link).2) := by
    rw [Cpp.attempt, hresult]
  have hfirst : Cpp.attempt (MainLink.exchange Γ endpoint drawn) request (.of true link) = (none, .dropped link) := by
    rw [Cpp.attempt, MainLink.exchange_drops h.running h.1]
    rfl
  have hsecond : Cpp.attempt (MainLink.exchange Γ endpoint drawn) request (.dropped link) =
      (some result, .of true (Link.exchange Γ endpoint drawn request link).2) := by
    rw [Cpp.attempt, MainLink.exchange_dropped h.running h.1, hresult]
  have hplain : Cpp.sendWithRetry (Link.exchange Γ endpoint drawn) request link =
      (Cpp.concluded (some result), (Link.exchange Γ endpoint drawn request link).2) := by
    rw [Cpp.sendWithRetry, Cpp.Constants.MAX_RETRIES, Retry.run_of_some hattempt]
  rw [hplain, Cpp.sendWithRetry, Cpp.Constants.MAX_RETRIES, Retry.run_of_none hfirst, Retry.run_of_some hsecond]
  exact ⟨rfl, rfl⟩

/-- A client alone, each of whose requests the plain server answers at the first attempt: the server that drops every other datagram
has the operations return the same, and ends in the same state. -/
theorem dropping_like_plain (Γ : Jvm) (endpoint : Endpoint) (drawn : Nat → BitVec 64 × UUID) (requests : List Cpp.RequestMessage)
    (link : Link)
    (hprompt : Machine.Along (fun link request => (Link.exchange Γ endpoint drawn request link).2) (Link.Prompt Γ endpoint drawn) link
      requests) :
    Cpp.perform (MainLink.exchange Γ endpoint drawn) requests (.of true link) =
      ((Cpp.perform (Link.exchange Γ endpoint drawn) requests link).1,
        .of true (Cpp.perform (Link.exchange Γ endpoint drawn) requests link).2) := by
  induction requests generalizing link with
  | nil => rfl
  | cons request requests ih =>
    obtain ⟨hfirst, hrest⟩ := hprompt
    obtain ⟨hstate, hdropping⟩ := hfirst.sendWithRetry
    have hlater := ih _ hrest
    rw [Cpp.perform, Cpp.perform, hdropping]
    generalize Cpp.sendWithRetry (Link.exchange Γ endpoint drawn) request link = outcome at hstate ⊢
    obtain ⟨result, link'⟩ := outcome
    cases hstate
    cases result with
    | none => rfl
    | some returned =>
      dsimp only
      rw [hlater]
      rfl

/-- A server without monitors notifies nobody. -/
theorem notifyMonitors_of_nil {s : ServerState} (h : s.monitors = []) (m : RequestMessage) (now : BitVec 64) :
    (notifyMonitors s m now).2 = [] := by
  unfold notifyMonitors
  split
  · rfl
  · split
    · rw [h]
      dsimp only
      split
      · split <;> rfl
      · rfl
    · rfl

/-- A booking, and two echoes after it. -/
def bookRequest : Cpp.RequestMessage := ⟨Cpp.RequestMessage.WRITE, 0, getBytes "Weekday1,MONDAY,9,0,10,0".toList⟩
def bookAndEcho : List Cpp.RequestMessage := [bookRequest, echoRequest 1 "hello".toList, echoRequest 2 "hello again".toList]

theorem exchange_bookRequest : ∃ (r : RequestMessage) (s : ServerState), r.requestID = 0 ∧ r.bytes ≠ [] ∧ r.frame.length ≤ bufferLength ∧
    Link.exchange openJdk (twoClients true) neverDrawn bookRequest newLink = (some r.frame, ⟨s, true, [], 1⟩) := by
  have hsize : (Cpp.JavaSerializer.serialize (some bookRequest)).length ≤ bufferLength := by decide +kernel
  have hcapacity : bufferLength ≤ Serializer.capacity := by decide
  generalize he : (⟨(twoClients true).address, (twoClients true).port, Cpp.JavaSerializer.serialize (some bookRequest)⟩ : Datagram).received
    0 ⟨0, 0⟩ = e
  have hm : deserializeMessage openJdk e.bytes = .ok ⟨1, 0, some "Weekday1,MONDAY,9,0,10,0".toList⟩ := by
    have hne : getBytes "Weekday1,MONDAY,9,0,10,0".toList ≠ [] := by decide
    have hdecoded : decoded openJdk bookRequest = ⟨1, 0, some "Weekday1,MONDAY,9,0,10,0".toList⟩ := by
      rw [decoded, bookRequest, Cpp.nullIfEmpty, if_neg hne, Option.map_some, openJdk.newString_getBytes]
      rfl
    have hreceived : ∀ d : Datagram, (d.received 0 ⟨0, 0⟩).bytes = d.bytes.take bufferLength := fun _ => rfl
    rw [← hdecoded, ← he, hreceived, List.take_of_length_le hsize]
    exact deserializeMessage_serialize openJdk hsize
  have hresult := @dispatch_write openJdk (ServerState.init true).reset e ⟨none, "Weekday1".toList, .MONDAY, 9, 0, 10, 0⟩
    ⟨1, 0, some "Weekday1,MONDAY,9,0,10,0".toList⟩ rfl rfl (by decide)
  have hmonitors : (dispatch openJdk (ServerState.init true).reset ⟨1, 0, some "Weekday1,MONDAY,9,0,10,0".toList⟩ e).1.monitors = [] := by
    rcases dispatch_cases openJdk (ServerState.init true).reset ⟨1, 0, some "Weekday1,MONDAY,9,0,10,0".toList⟩ e with
      ⟨x, hread, _⟩ | ⟨last, r, _, hrun⟩
    · cases hread
    · rw [hrun]
      rfl
  have hhandled := @handleRequest_of_new openJdk (.init true) e _ hm (by decide) rfl
  rw [execute] at hhandled
  generalize dispatch openJdk (ServerState.init true).reset ⟨1, 0, some "Weekday1,MONDAY,9,0,10,0".toList⟩ e = handled at *
  obtain ⟨s, result⟩ := handled
  cases hresult
  dsimp only at hhandled
  have hquiet : ∀ history m now, (notifyMonitors { s with requestHistory := history } m now).2 = [] :=
    fun _ => notifyMonitors_of_nil hmonitors
  rw [hquiet] at hhandled
  have hlength : (⟨1, 0, success (bookedText e.uuid.toText e.userInfo ⟨none, "Weekday1".toList, .MONDAY, 9, 0, 10, 0⟩)⟩ :
      RequestMessage).frame.length ≤ bufferLength := by
    rw [← he]
    decide +kernel
  refine ⟨_, _, rfl, ?_, hlength, Link.exchange_of_handled rfl rfl he.symm hhandled (hlength.trans hcapacity)⟩
  rw [← he]
  decide +kernel

theorem dropping_like_plain_bookAndEcho :
    Cpp.perform (MainLink.exchange openJdk (twoClients true) neverDrawn) bookAndEcho (.of true newLink) =
      ((Cpp.perform (Link.exchange openJdk (twoClients true) neverDrawn) bookAndEcho newLink).1,
        .of true (Cpp.perform (Link.exchange openJdk (twoClients true) neverDrawn) bookAndEcho newLink).2) := by
  have hsize : (Cpp.JavaSerializer.serialize (some (echoRequest 1 "hello".toList))).length ≤ bufferLength := by decide +kernel
  have hsize' : (Cpp.JavaSerializer.serialize (some (echoRequest 2 "hello again".toList))).length ≤ bufferLength := by decide +kernel
  have hbuffer : bufferLength ≤ Cpp.Constants.BUFFER_SIZE := by decide
  obtain ⟨r, s, hid, hbytes, hlength, hbook⟩ := exchange_bookRequest
  have hready : (⟨s, true, [], 1⟩ : Link).Ready s := ⟨rfl, rfl, rfl, rfl, rfl⟩
  obtain ⟨hecho, hready'⟩ := @Link.Ready.exchange openJdk (twoClients true) neverDrawn _ _ _ _ hready hsize
  refine dropping_like_plain openJdk (twoClients true) neverDrawn _ newLink ⟨⟨rfl, ?_⟩, ?_⟩
  · rw [hbook, conclusive_of_reply (inspected_frame (hlength.trans hbuffer)) hid hbytes]
    rfl
  · dsimp only
    rw [hbook]
    refine ⟨⟨rfl, ?_⟩, ⟨hready'.queue, ?_⟩, trivial⟩
    · rw [hecho, conclusive_of_reply (inspected_echo hsize) rfl (by decide)]
      rfl
    · rw [(hready'.exchange hsize').1, conclusive_of_reply (inspected_echo hsize') rfl (by decide)]
      rfl

end

end FacilityBooking
