import FacilityBooking.Client.Client
import Mathlib.Data.Int.Order.Basic

/-!
# The client's monitoring loop

`listenForMonitoringUpdates` of the class `Client`, with the `setReceiveTimeout` and `receiveDataFrom` of its socket. What arrives at
the socket, and when, is given; a receive takes as long as it waits, and nothing else takes time. The clock is `steady_clock`, and
counts nanoseconds.
-/

namespace FacilityBooking.Cpp

namespace Constants

def TIMEOUT_SEC : Nat := 5

end Constants

/-- `std::chrono::seconds`, on the clock. -/
def seconds (n : Nat) : Int := n * 1000000000

/-- A datagram, and the time at which it arrives. -/
structure Arrival where
  time : Int
  bytes : Bytes
  deriving DecidableEq

/-- A `Socket`, with the time it is and the datagrams that it has not handed over, whether they have arrived or are still to come. -/
structure Socket where
  now : Int
  receiveTimeout : Nat
  arrivals : List Arrival
  ordered : arrivals.Pairwise fun datagram later => datagram.time ≤ later.time

/-- The datagram as a buffer of the client holds it. -/
def Arrival.received (datagram : Arrival) : Arrival := { datagram with bytes := datagram.bytes.take Constants.BUFFER_SIZE }

namespace Socket

/-- A timeout of 0 s would be none at all; the loop never receives with one. -/
def setReceiveTimeout (seconds : Nat) (socket : Socket) : Socket := { socket with receiveTimeout := seconds }

/-- The socket when it has waited until the timeout has passed. -/
def timedOut (socket : Socket) : Socket := { socket with now := socket.now + seconds socket.receiveTimeout }

/-- The socket when it has handed over a datagram, the next one, for which it has waited unless it was there. -/
def handOver (datagram : Arrival) (socket : Socket) : Socket :=
  { socket with
    now := max socket.now datagram.time
    arrivals := socket.arrivals.tail
    ordered := socket.ordered.tail }

/-- The next datagram, if it has arrived when the timeout passes. -/
def inTime (socket : Socket) : Option Arrival :=
  socket.arrivals.head?.filter fun datagram => datagram.time ≤ socket.now + seconds socket.receiveTimeout

def receiveDataFrom (socket : Socket) : Result Arrival × Socket :=
  match socket.inTime with
  | some datagram => (.ok datagram.received, socket.handOver datagram)
  | none => (.error (.runtimeError (literal "Receive failed! Error: Timeout occurred")), socket.timedOut)

/-- What a receive does. -/
theorem receiveDataFrom_cases (socket : Socket) :
    (∃ x, socket.receiveDataFrom = (.error x, socket.timedOut) ∧
      ∀ datagram ∈ socket.arrivals.head?, socket.now + seconds socket.receiveTimeout < datagram.time) ∨
    ∃ datagram rest, socket.receiveDataFrom = (.ok datagram.received, socket.handOver datagram) ∧
      socket.arrivals = datagram :: rest ∧ datagram.time ≤ socket.now + seconds socket.receiveTimeout := by
  unfold receiveDataFrom
  cases hnext : socket.inTime with
  | none =>
    have hlate := Option.filter_eq_none_iff.1 hnext
    exact Or.inl ⟨_, rfl, fun datagram hdatagram => by simpa using hlate datagram hdatagram⟩
  | some datagram =>
    obtain ⟨hhead, hle⟩ := Option.filter_eq_some_iff.1 hnext
    obtain ⟨rest, hrest⟩ := List.head?_eq_some_iff.1 hhead
    exact Or.inr ⟨datagram, rest, rfl, hrest, of_decide_eq_true hle⟩

/-- What is received is no longer to be received. -/
theorem length_of_received {socket socket' : Socket} {datagram : Arrival} (h : socket.receiveDataFrom = (.ok datagram, socket')) :
    socket'.arrivals.length < socket.arrivals.length := by
  obtain ⟨x, heq, _⟩ | ⟨first, rest, heq, harrivals, _⟩ := socket.receiveDataFrom_cases
  · simp [heq] at h
  · rw [heq] at h
    cases h
    simp [handOver, harrivals]

end Socket

/-- The loop of `listenForMonitoringUpdates`: the datagrams handed to `onUpdate`, in order, and the socket when it is left. -/
def listen (endTime : Int) (socket : Socket) : List Arrival × Socket :=
  if socket.now < endTime then
    match _h : socket.receiveDataFrom with
    | (.error _, socket) => ([], socket)
    | (.ok datagram, socket) =>
      let (updates, socket) := listen endTime socket
      (if datagram.bytes ≠ [] then datagram :: updates else updates, socket)
  else ([], socket)
termination_by socket.arrivals.length
decreasing_by exact Socket.length_of_received ‹_›

/-- `listenForMonitoringUpdates`. -/
def listenForMonitoringUpdates (durationSeconds : Nat) (socket : Socket) : List Arrival × Socket :=
  let endTime := socket.now + seconds durationSeconds
  let (updates, socket) := listen endTime (socket.setReceiveTimeout durationSeconds)
  (updates, socket.setReceiveTimeout Constants.TIMEOUT_SEC)

end FacilityBooking.Cpp
