import FacilityBooking.Sessions

/-!
# One client on a network that loses nothing

Every request arrives at the server, whatever the server sends arrives at once, and the client's datagrams wait in its queue. Between
two requests of the client the server does nothing else.
-/

namespace FacilityBooking

/-- The server and whether its loop still runs, what waits for the client, and how many requests the server has received. -/
structure Link where
  server : ServerState
  running : Bool
  queue : List Bytes
  count : Nat

/-- What of the datagrams sent arrives at an endpoint. -/
def Endpoint.arriving (endpoint : Endpoint) (sent : List Datagram) : List Bytes :=
  (sent.filter (fun d => decide (d.address.address = endpoint.address.address ∧ d.port = endpoint.port))).map Datagram.bytes

namespace Link

/-- The server's turn: it receives the request at one of the times and with one of the identifiers drawn, and what it sends arrives. -/
def serve (Γ : Jvm) (endpoint : Endpoint) (drawn : Nat → BitVec 64 × UUID) (request : Cpp.RequestMessage) (link : Link) : Link :=
  let d : Datagram := ⟨endpoint.address, endpoint.port, Cpp.JavaSerializer.serialize (some request)⟩
  let e := d.received (drawn link.count).1 (drawn link.count).2
  let outcome := handleRequest Γ link.server e
  { server := outcome.state
    running := outcome.result.isOk
    queue := link.queue ++ endpoint.arriving (outcome.sent ++
      match outcome.result with
      | .ok responseMessage => reply Γ e responseMessage
      | .error _ => [])
    count := link.count + 1 }

/-- The client sends a request and receives the first datagram that waits. -/
def exchange (Γ : Jvm) (endpoint : Endpoint) (drawn : Nat → BitVec 64 × UUID) (request : Cpp.RequestMessage) (link : Link) :
    Option Bytes × Link :=
  let link := if link.running then link.serve Γ endpoint drawn request else link
  (link.queue.head?, { link with queue := link.queue.tail })

end Link

end FacilityBooking
