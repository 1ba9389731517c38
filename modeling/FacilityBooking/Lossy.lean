import FacilityBooking.Lossless

/-!
# One client on a network that loses and repeats

Of every request that the client sends, any number of copies arrive, none included, before its attempt is over. What the server sends
to the client may arrive in any attempt, late, out of order, many times or never. Between two requests of the client the server does
nothing else.
-/

namespace FacilityBooking

/-- What the network does in one attempt: the time at which each copy of the request arrives and the UUID drawn if one is, and which
of the datagrams sent to the client so far it receives, if it does not time out. -/
structure Weather where
  copies : List (BitVec 64 × UUID)
  received : Option Nat

/-- The server and whether its loop still runs, the datagrams it has received and those it has sent to the client, and what the network
is going to do in the attempts to come; after those nothing arrives any more. -/
structure Lossy where
  server : ServerState
  running : Bool
  handled : List Event
  sent : List Bytes
  weather : List Weather

namespace Lossy

/-- The server receives a datagram, if its loop still runs. -/
def handle (Γ : Jvm) (endpoint : Endpoint) (link : Lossy) (e : Event) : Lossy :=
  if link.running then
    let outcome := handleRequest Γ link.server e
    { link with
      server := outcome.state
      running := outcome.result.isOk
      handled := link.handled ++ [e]
      sent := link.sent ++ endpoint.arriving (outcome.sent ++
        match outcome.result with
        | .ok responseMessage => reply Γ e responseMessage
        | .error _ => []) }
  else link

/-- The datagram that a request is sent in. -/
def datagram (endpoint : Endpoint) (request : Cpp.RequestMessage) : Datagram :=
  ⟨endpoint.address, endpoint.port, Cpp.JavaSerializer.serialize (some request)⟩

/-- The copies of a request, as they arrive. -/
def arrivals (endpoint : Endpoint) (request : Cpp.RequestMessage) (copies : List (BitVec 64 × UUID)) : List Event :=
  copies.map (fun c => (datagram endpoint request).received c.1 c.2)

/-- One attempt: the copies of the request arrive, and the client receives or times out. -/
def exchange (Γ : Jvm) (endpoint : Endpoint) (request : Cpp.RequestMessage) (link : Lossy) : Option Bytes × Lossy :=
  match link.weather with
  | [] => (none, link)
  | w :: weather =>
    let link := (arrivals endpoint request w.copies).foldl (handle Γ endpoint) { link with weather := weather }
    (w.received.bind (fun i => link.sent[i]?), link)

end Lossy

namespace Cpp

/-- The requests of operations, under request IDs that count on from the first. -/
def numbered : BitVec 32 → List (BitVec 32 × Bytes) → List RequestMessage
  | _, [] => []
  | requestID, (requestType, data) :: operations => ⟨requestType, requestID, data⟩ :: numbered (requestID + 1) operations

/-- Requests one after the other, and what `sendWithRetry` returns for each; nothing is done after one whose behaviour is undefined. -/
def perform {σ : Type*} (exchange : RequestMessage → σ → Option Bytes × σ) :
    List RequestMessage → σ → List (RequestMessage × Returned) × σ
  | [], socket => ([], socket)
  | request :: requests, socket =>
    match sendWithRetry exchange request socket with
    | (none, socket) => ([], socket)
    | (some returned, socket) =>
      let rest := perform exchange requests socket
      ((request, returned) :: rest.1, rest.2)

end Cpp

end FacilityBooking
