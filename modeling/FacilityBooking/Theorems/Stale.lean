import FacilityBooking.Theorems.EndToEnd
import FacilityBooking.Theorems.Notify

/-!
# Stale datagrams

A datagram that is not decoded, or has the ID of another request, makes `receiveResponse` return the empty string, as a timeout does:
it uses up one of the five attempts. So the reply is reached through up to four of them, and not through five.
-/

namespace FacilityBooking

open Cpp (receiveResponse sendWithRetry conclusive)

/-- What is decoded of a datagram, as much of it as the buffer of the client takes. -/
def inspected (d : Bytes) : Cpp.Result (Option Cpp.RequestMessage) :=
  Cpp.JavaDeserializer.deserialize (d.take Cpp.Constants.BUFFER_SIZE)

/-- A datagram that is undecodable or has another request ID. -/
def Stale (requestID : BitVec 32) (d : Bytes) : Prop :=
  ∀ obj, inspected d = .ok obj → ∃ m, obj = some m ∧ m.requestID ≠ requestID

/-- A stale datagram is taken for no response. -/
theorem conclusive_of_stale {request : Cpp.RequestMessage} {d : Bytes} (h : Stale request.requestID d) :
    conclusive request (some d) = none := by
  unfold Stale inspected at h
  unfold conclusive receiveResponse
  cases hd : Cpp.JavaDeserializer.deserialize (d.take Cpp.Constants.BUFFER_SIZE) with
  | error x => simp only [hd, ne_eq, not_true_eq_false, if_false]
  | ok obj =>
    obtain ⟨m, rfl, hid⟩ := h obj hd
    simp only [hd, ne_eq, hid, not_false_eq_true, if_true, not_true_eq_false, if_false]

theorem conclusive_of_backlog {request : Cpp.RequestMessage} {stale : List Bytes} (h : ∀ d ∈ stale, Stale request.requestID d) :
    ∀ received ∈ stale.map some, conclusive request received = none := by
  intro received hreceived
  obtain ⟨d, hd, rfl⟩ := List.mem_map.1 hreceived
  exact conclusive_of_stale (h d hd)

/-- A reply with the request ID and with data is taken. -/
theorem conclusive_of_reply {request m : Cpp.RequestMessage} {d : Bytes} (hd : inspected d = .ok (some m))
    (hid : m.requestID = request.requestID) (hdata : m.data ≠ []) : conclusive request (some d) = some (some m.data) := by
  unfold inspected at hd
  unfold conclusive receiveResponse
  simp only [hd, hid, ne_eq, not_true_eq_false, if_false, hdata, not_false_eq_true, if_true]

/-- A reply without data is taken for no response. -/
theorem conclusive_of_empty {request m : Cpp.RequestMessage} {d : Bytes} (hd : inspected d = .ok (some m)) (hdata : m.data = []) :
    conclusive request (some d) = none := by
  unfold inspected at hd
  unfold conclusive receiveResponse
  simp only [hd, hdata, ite_self, ne_eq, not_true_eq_false, if_false]

/-- Notifications are stale for every request. -/
theorem stale_notification (requestID : BitVec 32) (text : Text) : Stale requestID (notification text) := by
  obtain ⟨tail, htail⟩ := bytes_of_isNotification (d := ⟨⟨[], []⟩, 0, notification text⟩) ⟨_, rfl⟩
  have htake : (Cpp.literal "Reques" ++ tail).take Cpp.Constants.BUFFER_SIZE = Cpp.literal "Reques" ++ tail.take 1018 := rfl
  have hlength : (tail.take 1018).length ≤ 1018 := List.length_take_le _ _
  obtain ⟨x, hx⟩ := Cpp.deserialize_text (tail.take 1018) (by omega)
  have htext : notification text = Cpp.literal "Reques" ++ tail := htail
  intro obj hobj
  rw [inspected, htext, htake, hx] at hobj
  cases hobj

/-- The frame of a message that fits the client's buffer is decoded. -/
theorem inspected_frame {m : RequestMessage} (h : m.frame.length ≤ Cpp.Constants.BUFFER_SIZE) :
    inspected m.frame = .ok (some ⟨m.requestType, m.requestID, m.bytes⟩) := by
  rw [inspected, List.take_of_length_le h]
  refine Cpp.deserialize_frame fun bs hbs => ?_
  rw [RequestMessage.frame, hbs] at h
  have hbuffer : Cpp.Constants.BUFFER_SIZE < 2 ^ 31 := by decide
  exact (Frame.length_data_lt.trans_le h).trans hbuffer

/-- Replies to other requests are stale. -/
theorem stale_frame {requestID : BitVec 32} {m : RequestMessage} (hid : m.requestID ≠ requestID)
    (h : m.frame.length ≤ Cpp.Constants.BUFFER_SIZE) : Stale requestID m.frame := by
  intro obj hobj
  rw [inspected_frame h] at hobj
  cases hobj
  exact ⟨_, rfl, hid⟩

/-- What a socket receives, exchange after exchange, when it does not time out. -/
def Receives {σ : Type} (exchange : Cpp.RequestMessage → σ → Option Bytes × σ) (request : Cpp.RequestMessage) (socket : σ)
    (datagrams : List Bytes) : Prop :=
  Retry.received (exchange request) datagrams.length socket = datagrams.map some

/-- What `sendWithRetry` returns is found in what the attempts receive. -/
theorem sendWithRetry_returned {σ : Type} (exchange : Cpp.RequestMessage → σ → Option Bytes × σ) (request : Cpp.RequestMessage)
    (socket : σ) : (sendWithRetry exchange request socket).1 = Cpp.concluded
      (Retry.run (fun socket => (conclusive request (exchange request socket).1, (exchange request socket).2))
        Cpp.Constants.MAX_RETRIES socket).1 := rfl

/-- Let a socket, whatever it does with what is sent, receive any number of stale datagrams and then a reply to the request with
data. The data is returned when fewer datagrams than there are attempts stand before the reply, and otherwise the text that the
request has failed. -/
theorem reply_reached_iff {σ : Type} (exchange : Cpp.RequestMessage → σ → Option Bytes × σ) (request m : Cpp.RequestMessage)
    (socket : σ) (stale : List Bytes) (reply : Bytes) (hstale : ∀ d ∈ stale, Stale request.requestID d)
    (hreply : inspected reply = .ok (some m)) (hid : m.requestID = request.requestID) (hdata : m.data ≠ [])
    (hreceives : Receives exchange request socket (stale ++ [reply])) :
    (sendWithRetry exchange request socket).1 =
      some (if stale.length < Cpp.Constants.MAX_RETRIES then .response m.data else .failed) := by
  rw [Receives, List.length_append, List.length_singleton, List.map_append, List.map_singleton] at hreceives
  have hrun := Retry.run_of_received (f := conclusive request) (conclusive_of_backlog hstale) (conclusive_of_reply hreply hid hdata)
    (by rw [List.length_map, hreceives]) Cpp.Constants.MAX_RETRIES
  rw [List.length_map] at hrun
  rw [sendWithRetry_returned, hrun]
  split <;> rfl

/-! ## A reply behind a backlog -/

/-- A socket with datagrams that wait in its queue, and none that come. -/
def dequeue (_ : Cpp.RequestMessage) (queue : List Bytes) : Option Bytes × List Bytes := (queue.head?, queue.tail)

theorem receives_dequeue (request : Cpp.RequestMessage) (datagrams rest : List Bytes) :
    Receives dequeue request (datagrams ++ rest) datagrams := by
  unfold Receives
  induction datagrams with
  | nil => rfl
  | cons d datagrams ih => exact congrArg (some d :: ·) ih

/-- A request for a rating, its reply, the reply to the request before it, and a notification. -/
def askedLater : Cpp.RequestMessage := ⟨0, 1, Cpp.literal "rating,Nowhere"⟩
def answeredLater : RequestMessage := ⟨0, 1, error "Facility not found".toList⟩
def notified : Bytes := notification (line "facility" "Weekday1".toList)

theorem stale_notified (requestID : BitVec 32) : Stale requestID notified := by
  unfold notified
  exact stale_notification requestID _

theorem answeredLater_data : answeredLater.bytes ≠ [] := by decide +kernel

theorem reply_reached_iff_two :
    (sendWithRetry dequeue askedLater [noFacility.frame, notified, answeredLater.frame]).1 =
      some (.response answeredLater.bytes) := by
  refine reply_reached_iff dequeue askedLater ⟨0, 1, answeredLater.bytes⟩ _ [noFacility.frame, notified] answeredLater.frame ?_ ?_
    rfl answeredLater_data ?_
  · rw [List.forall_mem_cons, List.forall_mem_singleton]
    exact ⟨stale_frame (by decide) (by decide +kernel), stale_notified _⟩
  · exact inspected_frame (by decide +kernel)
  · exact receives_dequeue askedLater [noFacility.frame, notified, answeredLater.frame] []

/-- Five notifications that wait hide the reply. -/
theorem not_reply_reached :
    ¬∀ (request m : Cpp.RequestMessage) (stale : List Bytes) (reply : Bytes), (∀ d ∈ stale, Stale request.requestID d) →
      inspected reply = .ok (some m) → m.requestID = request.requestID → m.data ≠ [] →
      (sendWithRetry dequeue request (stale ++ [reply])).1 = some (.response m.data) := by
  intro h
  have hbacklog : ∀ d ∈ List.replicate 5 notified, Stale askedLater.requestID d := by
    intro d hd
    rw [List.eq_of_mem_replicate hd]
    exact stale_notified _
  have hreturned := h askedLater ⟨0, 1, answeredLater.bytes⟩ (List.replicate 5 notified) answeredLater.frame hbacklog
    (inspected_frame (by decide +kernel)) rfl answeredLater_data
  have hnone : (List.map some (List.replicate 5 notified)).findSome? (conclusive askedLater) = none :=
    List.findSome?_eq_none_iff.2 (conclusive_of_backlog hbacklog)
  have hreceives := receives_dequeue askedLater (List.replicate 5 notified) [answeredLater.frame]
  rw [Receives, List.length_replicate] at hreceives
  have hfailed : (sendWithRetry dequeue askedLater (List.replicate 5 notified ++ [answeredLater.frame])).1 = some .failed := by
    rw [sendWithRetry_returned, Retry.run_eq_findSome?, Cpp.Constants.MAX_RETRIES, hreceives, hnone]
    rfl
  rw [hfailed] at hreturned
  cases hreturned

end FacilityBooking
