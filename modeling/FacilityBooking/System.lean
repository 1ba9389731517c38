import FacilityBooking.Client.Client
import FacilityBooking.Server.Server

/-!
# Clients, the network and the server

Any number of clients, a server that checks its history or does not, and a network that keeps every datagram ever sent: it may deliver
it late, out of order, many times or never, but not changed, and to no other address. What a client does with datagrams between two
calls of `sendWithRetry` changes nothing here.
-/

namespace FacilityBooking

/-- A request that the `switch` of the server was reached with, and what it made of it. -/
structure Execution where
  request : RequestMessage
  clientAddress : InetAddress
  clientPort : Nat
  result : Java RequestMessage

/-- The key of an execution: that of its request. -/
def Execution.key (x : Execution) : RequestKey := ⟨x.request.requestID, x.clientAddress.address, x.clientPort⟩

/-- The execution that a datagram leads to, if it leads to one. -/
def executed (Γ : Jvm) (s : ServerState) (e : Event) : List Execution :=
  match deserializeMessage Γ e.bytes with
  | .error _ => []
  | .ok m =>
    if m.getOperation = .ECHO ∨ (replayOf s m e).isSome then []
    else [⟨m, e.address, e.port, (execute Γ s.reset m e).result⟩]

/-- Where a client receives. -/
structure Endpoint where
  address : InetAddress
  port : Nat

/-- The clients, the server and whether its loop still runs, the datagrams sent to the server with their senders, the datagrams
sent by the server with their receivers, and what the server has executed. -/
structure System (ι : Type) where
  clients : ι → Cpp.Client
  server : ServerState
  running : Bool
  requests : List Datagram
  replies : List Datagram
  executions : List Execution

namespace System

variable {ι : Type}

/-- New clients, and a server after `init()`. -/
def init (checkHistory : Bool) : System ι := ⟨fun _ => .new, .init checkHistory, true, [], [], []⟩

variable [DecidableEq ι]

/-- One client replaced. -/
def withClient (S : System ι) (i : ι) (c : Cpp.Client) : System ι := { S with clients := Function.update S.clients i c }

@[simp] theorem withClient_self (S : System ι) (i : ι) (c : Cpp.Client) : (S.withClient i c).clients i = c := by
  simp [withClient]

theorem withClient_of_ne (S : System ι) {i j : ι} (c : Cpp.Client) (h : j ≠ i) :
    (S.withClient i c).clients j = S.clients j := by
  simp [withClient, h]

/-- One more datagram on its way to the server. -/
def post (S : System ι) (d : Datagram) : System ι := { S with requests := S.requests ++ [d] }

/-- A round of the server's loop: `handleRequest`, the notifications it sends, and the reply. -/
def serve (Γ : Jvm) (S : System ι) (e : Event) : System ι :=
  let outcome := handleRequest Γ S.server e
  { S with
    server := outcome.state
    running := outcome.result.isOk
    replies := S.replies ++ (outcome.sent ++
      match outcome.result with
      | .ok responseMessage => reply Γ e responseMessage
      | .error _ => [])
    executions := S.executions ++ executed Γ S.server e }

/-- What can happen next. A client makes fewer than 2³¹ requests, each in a frame that the server's buffer holds. -/
inductive Step (Γ : Jvm) (endpoint : ι → Endpoint) (S : System ι) : System ι → Prop
  | call (i : ι) (requestType : BitVec 32) (data : Bytes) (hphase : (S.clients i).phase = .idle)
    (hcount : (S.clients i).requests.length + 1 < 2 ^ 31)
    (hsize : (Cpp.JavaSerializer.serialize (some ⟨requestType, (S.clients i).requestID, data⟩)).length ≤ bufferLength) :
    Step Γ endpoint S (S.withClient i ((S.clients i).call requestType data))
  | send (i : ι) (request : Cpp.RequestMessage) (attempt : Nat) (hphase : (S.clients i).phase = .sending request attempt) :
    Step Γ endpoint S ((S.withClient i ((S.clients i).sendRequest request attempt)).post
      ⟨(endpoint i).address, (endpoint i).port, Cpp.JavaSerializer.serialize (some request)⟩)
  | serve (d : Datagram) (hd : d ∈ S.requests) (now : BitVec 64) (uuid : UUID) (hrunning : S.running = true) :
    Step Γ endpoint S (S.serve Γ ⟨⟨d.address, d.port, d.bytes.take bufferLength⟩, now, uuid⟩)
  | receive (i : ι) (request : Cpp.RequestMessage) (attempt : Nat) (d : Datagram)
    (hphase : (S.clients i).phase = .receiving request attempt) (hd : d ∈ S.replies)
    (haddress : d.address.address = (endpoint i).address.address) (hport : d.port = (endpoint i).port) :
    Step Γ endpoint S (S.withClient i ((S.clients i).receive request attempt (some d.bytes)))
  | timeout (i : ι) (request : Cpp.RequestMessage) (attempt : Nat)
    (hphase : (S.clients i).phase = .receiving request attempt) :
    Step Γ endpoint S (S.withClient i ((S.clients i).receive request attempt none))

/-- The systems that any interleaving of steps leads to. -/
abbrev Reachable (Γ : Jvm) (checkHistory : Bool) (endpoint : ι → Endpoint) : System ι → Prop :=
  Relation.ReflTransGen (Step Γ endpoint) (init checkHistory)

/-- The executions of the request of a client. -/
def executionsOf (S : System ι) (endpoint : ι → Endpoint) (i : ι) (request : Cpp.RequestMessage) : List Execution :=
  S.executions.filter
    (fun x => decide (x.key = ⟨request.requestID, (endpoint i).address.address, (endpoint i).port⟩))

end System

end FacilityBooking
