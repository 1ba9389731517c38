import FacilityBooking.Client.Monitoring
import FacilityBooking.Lib.Window

/-!
# The monitoring period

Every receive of `listenForMonitoringUpdates` may wait as long as the whole period, from whenever it begins. A datagram inside the
period starts another such wait, so that the loop is left at the end of the period only if none comes inside it, or one right at its
end. In any case it is left after another period at most.
-/

namespace FacilityBooking.Cpp

/-! ## The loop waits through a window -/

theorem seconds_nonneg (n : Nat) : 0 ≤ seconds n := mul_nonneg (Int.natCast_nonneg n) (by decide)

/-- The waiting of the loop. -/
def Socket.wait (endTime : Int) (socket : Socket) : List Arrival × Int :=
  Window.collect Arrival.time (seconds socket.receiveTimeout) endTime socket.now socket.arrivals

namespace Socket

variable {endTime : Int} {socket : Socket}

theorem wait_timeout (hopen : socket.now < endTime)
    (hnone : ∀ datagram ∈ socket.arrivals.head?, socket.now + seconds socket.receiveTimeout < datagram.time) :
    socket.wait endTime = ([], socket.timedOut.now) := Window.collect_timeout hopen hnone

theorem wait_closed (hclosed : endTime ≤ socket.now) : socket.wait endTime = ([], socket.now) := Window.collect_closed hclosed _

theorem wait_received {datagram : Arrival} {rest : List Arrival} (hopen : socket.now < endTime)
    (harrivals : socket.arrivals = datagram :: rest) (hle : datagram.time ≤ socket.now + seconds socket.receiveTimeout) :
    socket.wait endTime =
      (datagram :: ((socket.handOver datagram).wait endTime).1, ((socket.handOver datagram).wait endTime).2) := by
  unfold wait
  rw [harrivals, Window.collect_arrival hopen hle]
  simp only [handOver, harrivals, List.tail_cons]

/-- The waiting of `listenForMonitoringUpdates`. -/
def monitoring (durationSeconds : Nat) (socket : Socket) : List Arrival × Int :=
  (socket.setReceiveTimeout durationSeconds).wait (socket.now + seconds durationSeconds)

end Socket

/-- The loop hands over what arrives while it waits, empty datagrams apart, and is left when the waiting ends. -/
theorem listen_eq (endTime : Int) (socket : Socket) :
    (listen endTime socket).1 = (((socket.wait endTime).1.map Arrival.received).filter fun datagram => datagram.bytes ≠ []) ∧
      (listen endTime socket).2.now = (socket.wait endTime).2 := by
  fun_induction listen endTime socket with
  | case1 socket hopen x socket' hreceive =>
    obtain ⟨x', heq, hnone⟩ | ⟨first, rest, heq, _, _⟩ := socket.receiveDataFrom_cases
    · cases hreceive.symm.trans heq
      rw [Socket.wait_timeout hopen hnone]
      exact ⟨rfl, rfl⟩
    · cases hreceive.symm.trans heq
  | case2 socket hopen datagram socket' hreceive updates last hlisten ih =>
    obtain ⟨x, heq, _⟩ | ⟨first, rest, heq, harrivals, hle⟩ := socket.receiveDataFrom_cases
    · cases hreceive.symm.trans heq
    · cases hreceive.symm.trans heq
      rw [hlisten] at ih
      rw [Socket.wait_received hopen harrivals hle, List.map_cons, List.filter_cons, ← ih.1, ← ih.2]
      simp only [decide_eq_true_eq, and_self]
  | case3 socket hclosed =>
    rw [Socket.wait_closed (not_lt.1 hclosed)]
    exact ⟨rfl, rfl⟩

/-! ## A whole period -/

section

variable (durationSeconds : Nat) (socket : Socket)

theorem listening_updates : (listenForMonitoringUpdates durationSeconds socket).1 =
    ((socket.monitoring durationSeconds).1.map Arrival.received).filter fun datagram => datagram.bytes ≠ [] :=
  (listen_eq (socket.now + seconds durationSeconds) (socket.setReceiveTimeout durationSeconds)).1

theorem listening_now : (listenForMonitoringUpdates durationSeconds socket).2.now = (socket.monitoring durationSeconds).2 :=
  (listen_eq (socket.now + seconds durationSeconds) (socket.setReceiveTimeout durationSeconds)).2

/-- What is handed over has arrived before the loop is left. -/
theorem update_le_now : ∀ update ∈ (listenForMonitoringUpdates durationSeconds socket).1,
    update.time ≤ (listenForMonitoringUpdates durationSeconds socket).2.now := by
  intro update hupdate
  rw [listening_updates, List.mem_filter] at hupdate
  obtain ⟨datagram, hdatagram, rfl⟩ := List.mem_map.1 hupdate.1
  rw [listening_now]
  exact Window.taken_le_end (seconds_nonneg _) _ _ datagram hdatagram

/-- The loop is left no earlier than the period ends, and at most another period later. -/
theorem listening_bounds : socket.now + seconds durationSeconds ≤ (listenForMonitoringUpdates durationSeconds socket).2.now ∧
    (listenForMonitoringUpdates durationSeconds socket).2.now ≤ socket.now + seconds durationSeconds + seconds durationSeconds := by
  have hopen : socket.now ≤ socket.now + seconds durationSeconds := le_add_of_nonneg_right (seconds_nonneg _)
  rw [listening_now]
  exact ⟨Window.deadline_le_end (le_refl _), Window.end_le hopen (seconds_nonneg _)⟩

/-! ## Whether it ends with its period -/

/-- The loop is left by the end of the period, and what it has handed to `onUpdate` has arrived by then. -/
def EndsInWindow (endTime : Int) (outcome : List Arrival × Socket) : Prop :=
  outcome.2.now ≤ endTime ∧ ∀ update ∈ outcome.1, update.time ≤ endTime

/-- Listening ends with its period exactly where no datagram, empty ones included, arrives strictly inside the period, or one arrives
at the very end of it. -/
theorem listening_endsInWindow_iff :
    EndsInWindow (socket.now + seconds durationSeconds) (listenForMonitoringUpdates durationSeconds socket) ↔
      (∀ datagram ∈ socket.arrivals, ¬(socket.now < datagram.time ∧ datagram.time < socket.now + seconds durationSeconds)) ∨
        ∃ datagram ∈ socket.arrivals, datagram.time = socket.now + seconds durationSeconds := by
  rw [← Window.end_le_iff (seconds_nonneg _) socket.ordered]
  constructor
  · rintro ⟨hnow, _⟩
    rwa [listening_now] at hnow
  · intro hend
    have hnow : (listenForMonitoringUpdates durationSeconds socket).2.now ≤ socket.now + seconds durationSeconds := by
      rwa [listening_now]
    exact ⟨hnow, fun update hupdate => (update_le_now durationSeconds socket update hupdate).trans hnow⟩

end

/-- A socket where one update arrives after 30 s and one after 80 s. -/
def twoUpdates : Socket where
  now := 0
  receiveTimeout := Constants.TIMEOUT_SEC
  arrivals := [⟨seconds 30, literal "facility:Gym"⟩, ⟨seconds 80, literal "facility:Gym"⟩]
  ordered := by decide

/-- A period of a minute is left after 80 s, with the update that arrives then. -/
theorem not_listening_endsInWindow : ¬∀ (durationSeconds : Nat) (socket : Socket), 1 ≤ durationSeconds →
    EndsInWindow (socket.now + seconds durationSeconds) (listenForMonitoringUpdates durationSeconds socket) := by
  intro h
  have hnow := (h 60 twoUpdates (by decide)).1
  rw [listening_now] at hnow
  exact absurd hnow (by decide)

end FacilityBooking.Cpp
