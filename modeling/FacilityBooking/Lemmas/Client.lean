import FacilityBooking.Client.Client
import FacilityBooking.Lemmas.CppCodec

/-!
# What a client does

A client counts its requests, so that no two have one ID; and what `receiveResponse` makes of the datagrams that the server sends.
-/

namespace FacilityBooking.Cpp

open Stream

/-! ## Counting requests -/

/-- The request made that the request ID does not count yet. -/
def Phase.ahead : Phase → BitVec 32
  | .sending _ 0 => 1
  | _ => 0

namespace Client

/-- The rest of an attempt: the behaviour is undefined, or there is another attempt, or something is returned; what is returned as
data is that of a response received. -/
theorem receive_cases (c : Client) (request : RequestMessage) (attempt : Nat) (received : Option Bytes) :
    c.receive request attempt received = { c with phase := .undefined } ∨
    c.receive request attempt received = { c with phase := .sending request (attempt + 1) } ∨
    ∃ returned, c.receive request attempt received =
        { c with phase := .idle, returned := c.returned ++ [(request, returned)] } ∧
      ∀ data, returned = .response data → data ≠ [] ∧ receiveResponse received request.requestID = some data := by
  unfold receive
  split
  · exact Or.inl rfl
  · rename_i response hresponse
    split
    · rename_i hne
      refine Or.inr (Or.inr ⟨.response response, rfl, fun data hdata => ?_⟩)
      cases hdata
      exact ⟨hne, hresponse⟩
    · split
      · exact Or.inr (Or.inl rfl)
      · exact Or.inr (Or.inr ⟨.failed, rfl, fun data hdata => by cases hdata⟩)

/-- The requests of a client are numbered from zero, as far as 32 bits count, and its request ID is the next number, unless a
request has just been made. -/
structure Numbers (c : Client) : Prop where
  ids : c.requests.map RequestMessage.requestID = (List.range c.requests.length).map (BitVec.ofNat 32)
  next : c.requestID + c.phase.ahead = BitVec.ofNat 32 c.requests.length

namespace Numbers

variable {c : Client}

/-- The ID of a request is its number. -/
theorem requestID (h : c.Numbers) {n : Nat} {request : RequestMessage} (hrequest : c.requests[n]? = some request) :
    request.requestID = BitVec.ofNat 32 n := by
  have hn := (List.getElem?_eq_some_iff.1 hrequest).1
  have hid := congrArg (fun ids => ids[n]?) h.ids
  simp only [List.getElem?_map, hrequest, List.getElem?_range hn, Option.map_some, Option.some.injEq] at hid
  exact hid

theorem call (h : c.Numbers) (hphase : c.phase = .idle) (requestType : BitVec 32) (data : Bytes) :
    (c.call requestType data).Numbers := by
  have hnext := h.next
  rw [hphase] at hnext
  have hid : c.requestID = BitVec.ofNat 32 c.requests.length := by
    rw [← hnext]
    exact (BitVec.add_zero _).symm
  constructor
  · simp only [Client.call, List.map_append, h.ids, List.length_append, List.length_singleton, List.range_succ, List.map_cons,
      List.map_nil, hid]
  · simp only [Client.call, Phase.ahead, List.length_append, List.length_singleton, hid, BitVec.ofNat_add]
    rfl

theorem sendRequest (h : c.Numbers) {request : RequestMessage} {attempt : Nat} (hphase : c.phase = .sending request attempt) :
    (c.sendRequest request attempt).Numbers := by
  have hnext := h.next
  rw [hphase] at hnext
  refine ⟨h.ids, ?_⟩
  cases attempt with
  | zero => exact (BitVec.add_zero _).trans hnext
  | succ attempt => exact hnext

theorem receive (h : c.Numbers) {request : RequestMessage} {attempt : Nat} (hphase : c.phase = .receiving request attempt)
    (received : Option Bytes) : (c.receive request attempt received).Numbers := by
  have hnext := h.next
  rw [hphase] at hnext
  rcases c.receive_cases request attempt received with hrun | hrun | ⟨returned, hrun, _⟩ <;> rw [hrun] <;>
    exact ⟨h.ids, hnext⟩

end Numbers

/-- A client that is at a request is at the last it has made. -/
def AtLast (c : Client) : Prop :=
  ∀ request attempt, c.phase = .sending request attempt ∨ c.phase = .receiving request attempt →
    c.requests[c.requests.length - 1]? = some request

namespace AtLast

variable {c : Client}

theorem call (c : Client) (requestType : BitVec 32) (data : Bytes) : (c.call requestType data).AtLast := by
  rintro request attempt (hr | hr)
  · cases hr
    simp only [Client.call, List.length_append, List.length_singleton, Nat.add_sub_cancel, List.getElem?_concat_length]
  · cases hr

theorem sendRequest (h : c.AtLast) {request : RequestMessage} {attempt : Nat} (hphase : c.phase = .sending request attempt) :
    (c.sendRequest request attempt).AtLast := by
  rintro request' attempt' (hr | hr)
  · cases hr
  · cases hr
    exact h request attempt (Or.inl hphase)

theorem receive (h : c.AtLast) {request : RequestMessage} {attempt : Nat} (hphase : c.phase = .receiving request attempt)
    (received : Option Bytes) : (c.receive request attempt received).AtLast := by
  rcases c.receive_cases request attempt received with hrun | hrun | ⟨returned, hrun, _⟩ <;> rw [hrun]
  · rintro request' attempt' (hr | hr) <;> cases hr
  · rintro request' attempt' (hr | hr)
    · cases hr
      exact h request attempt (Or.inr hphase)
    · cases hr
  · rintro request' attempt' (hr | hr) <;> cases hr

end AtLast

/-- The requests of a client are numbered from zero, and its request ID is the next number, unless a request has just been made. -/
structure Counts (c : Client) : Prop where
  ids : c.requests.map RequestMessage.requestID = (List.range c.requests.length).map (BitVec.ofNat 32)
  bound : c.requests.length < 2 ^ 31
  next : c.requestID + c.phase.ahead = BitVec.ofNat 32 c.requests.length
  current : ∀ request attempt, c.phase = .sending request attempt ∨ c.phase = .receiving request attempt → request ∈ c.requests
  answered : ∀ p ∈ c.returned, p.1 ∈ c.requests

theorem counts_new : new.Counts where
  ids := rfl
  bound := by decide
  next := rfl
  current := by
    rintro request attempt (h | h)
    · cases h
    · cases h
  answered := fun _ h => absurd h List.not_mem_nil

namespace Counts

variable {c : Client}

/-- No two requests of a client have one ID. -/
theorem nodup (h : c.Counts) : (c.requests.map RequestMessage.requestID).Nodup := by
  rw [h.ids]
  refine List.Nodup.map_on ?_ List.nodup_range
  intro x hx y hy hxy
  have hbound := h.bound
  rw [List.mem_range] at hx hy
  have hnat := congrArg BitVec.toNat hxy
  rw [BitVec.toNat_ofNat, BitVec.toNat_ofNat, Nat.mod_eq_of_lt (by omega), Nat.mod_eq_of_lt (by omega)] at hnat
  exact hnat

theorem eq_of_requestID (h : c.Counts) {request request' : RequestMessage} (hrequest : request ∈ c.requests)
    (hrequest' : request' ∈ c.requests) (hid : request.requestID = request'.requestID) : request = request' :=
  List.inj_on_of_nodup_map h.nodup hrequest hrequest' hid

theorem numbers (h : c.Counts) : c.Numbers := ⟨h.ids, h.next⟩

theorem call (h : c.Counts) (hphase : c.phase = .idle) (hcount : c.requests.length + 1 < 2 ^ 31) (requestType : BitVec 32)
    (data : Bytes) : (c.call requestType data).Counts := by
  have hnumbers := h.numbers.call hphase requestType data
  refine ⟨hnumbers.ids, ?_, hnumbers.next, ?_, fun p hp => List.mem_append_left _ (h.answered p hp)⟩
  · simpa only [Client.call, List.length_append, List.length_singleton] using hcount
  · rintro request attempt (hr | hr)
    · cases hr
      exact List.mem_append_right _ List.mem_cons_self
    · cases hr

theorem sendRequest (h : c.Counts) {request : RequestMessage} {attempt : Nat} (hphase : c.phase = .sending request attempt) :
    (c.sendRequest request attempt).Counts := by
  have hnumbers := h.numbers.sendRequest hphase
  refine ⟨hnumbers.ids, h.bound, hnumbers.next, ?_, h.answered⟩
  rintro request' attempt' (hr | hr)
  · cases hr
  · cases hr
    exact h.current request attempt (Or.inl hphase)

theorem receive (h : c.Counts) {request : RequestMessage} {attempt : Nat} (hphase : c.phase = .receiving request attempt)
    (received : Option Bytes) : (c.receive request attempt received).Counts := by
  have hnumbers := h.numbers.receive hphase received
  have hcurrent := h.current request attempt (Or.inr hphase)
  rcases c.receive_cases request attempt received with hrun | hrun | ⟨returned, hrun, _⟩ <;> rw [hrun] at hnumbers ⊢
  · refine ⟨h.ids, h.bound, hnumbers.next, ?_, h.answered⟩
    rintro request' attempt' (hr | hr) <;> cases hr
  · refine ⟨h.ids, h.bound, hnumbers.next, ?_, h.answered⟩
    rintro request' attempt' (hr | hr)
    · cases hr
      exact hcurrent
    · cases hr
  · refine ⟨h.ids, h.bound, hnumbers.next, ?_, ?_⟩
    · rintro request' attempt' (hr | hr) <;> cases hr
    · intro p hp
      rcases List.mem_append.1 hp with hp | hp
      · exact h.answered p hp
      · rw [List.mem_singleton.1 hp]
        exact hcurrent

end Counts

/-- To receive makes no request. -/
theorem receive_requests (c : Client) (request : RequestMessage) (attempt : Nat) (received : Option Bytes) :
    (c.receive request attempt received).requests = c.requests := by
  rcases c.receive_cases request attempt received with hrun | hrun | ⟨returned, hrun, _⟩ <;> rw [hrun]

/-- The data that is returned is that of a response received. -/
theorem mem_returned_receive {c : Client} {request request' : RequestMessage} {attempt : Nat} {received : Option Bytes}
    {data : Bytes} (h : (request', .response data) ∈ (c.receive request attempt received).returned) :
    (request', .response data) ∈ c.returned ∨
      request' = request ∧ data ≠ [] ∧ receiveResponse received request.requestID = some data := by
  rcases c.receive_cases request attempt received with hrun | hrun | ⟨returned, hrun, hreturned⟩ <;> rw [hrun] at h
  · exact Or.inl h
  · exact Or.inl h
  · rcases List.mem_append.1 h with h | h
    · exact Or.inl h
    · rw [List.mem_singleton, Prod.mk.injEq] at h
      exact Or.inr ⟨h.1, hreturned data h.2.symm⟩

end Client

/-! ## The loop of `sendWithRetry` -/

namespace Client

variable {σ : Type*} (exchange : RequestMessage → σ → Option Bytes × σ)

/-- A turn of the loop, if the client is in it: the socket sends the request and receives. -/
def turn (p : Client × σ) : Client × σ :=
  match p.1.phase with
  | .sending request attempt =>
    ((p.1.sendRequest request attempt).receive request attempt (exchange request p.2).1, (exchange request p.2).2)
  | _ => p

/-- After the loop: the behaviour is undefined, or the client is idle and has returned something. -/
def Ended (before : List (RequestMessage × Returned)) (request : RequestMessage) (result : Option Returned) (c : Client) : Prop :=
  match result with
  | none => c.phase = .undefined
  | some returned => c.phase = .idle ∧ c.returned = before ++ [(request, returned)]

variable {exchange} {c : Client} {request : RequestMessage} {attempt : Nat}

/-- A client that has ended takes no turn. -/
theorem turn_of_ended {before : List (RequestMessage × Returned)} {result : Option Returned} (h : Ended before request result c)
    (socket : σ) : turn exchange (c, socket) = (c, socket) := by
  cases result with
  | none =>
    have hphase : c.phase = .undefined := h
    simp only [turn, hphase]
  | some returned =>
    have hphase : c.phase = .idle := h.1
    simp only [turn, hphase]

/-- A turn ends the loop, or there is another attempt, or it was the last. -/
theorem turn_cases (socket : σ) (hphase : c.phase = .sending request attempt) :
    ∃ c', turn exchange (c, socket) = (c', (exchange request socket).2) ∧
      match conclusive request (exchange request socket).1 with
      | some result => Ended c.returned request (concluded (some result)) c'
      | none =>
        if attempt + 1 < Constants.MAX_RETRIES then c'.phase = .sending request (attempt + 1) ∧ c'.returned = c.returned
        else Ended c.returned request (some .failed) c' := by
  refine ⟨(c.sendRequest request attempt).receive request attempt (exchange request socket).1, by simp only [turn, hphase], ?_⟩
  unfold conclusive receive
  cases receiveResponse (exchange request socket).1 request.requestID with
  | none => rfl
  | some response =>
    by_cases hempty : response = []
    · simp only [hempty, ne_eq, not_true_eq_false, if_false]
      split
      · exact ⟨rfl, rfl⟩
      · exact ⟨rfl, rfl⟩
    · simp only [ne_eq, hempty, not_false_eq_true, if_true]
      exact ⟨rfl, rfl⟩

/-- From an attempt on, as many turns as there are attempts left end the loop as `sendWithRetry` does. -/
theorem iterate_turn (n : Nat) (socket : σ) (hphase : c.phase = .sending request attempt)
    (hn : attempt + n + 1 = Constants.MAX_RETRIES) :
    ∃ c', (turn exchange)^[n + 1] (c, socket) = (c', (Retry.run (Cpp.attempt exchange request) (n + 1) socket).2) ∧
      Ended c.returned request (concluded (Retry.run (Cpp.attempt exchange request) (n + 1) socket).1) c' := by
  induction n generalizing c attempt socket with
  | zero =>
    obtain ⟨c', hturn, hcases⟩ := @turn_cases _ exchange _ _ _ socket hphase
    rw [Function.iterate_one, hturn, Retry.run, Cpp.attempt]
    refine ⟨c', ?_, ?_⟩
    · cases conclusive request (exchange request socket).1 <;> rfl
    · cases hconclusive : conclusive request (exchange request socket).1 with
      | some result => rwa [hconclusive] at hcases
      | none =>
        rw [hconclusive] at hcases
        dsimp only at hcases
        rwa [if_neg (by omega)] at hcases
  | succ n ih =>
    obtain ⟨c', hturn, hcases⟩ := @turn_cases _ exchange _ _ _ socket hphase
    rw [Function.iterate_succ_apply, hturn, Retry.run, Cpp.attempt]
    cases hconclusive : conclusive request (exchange request socket).1 with
    | some result =>
      rw [hconclusive] at hcases
      exact ⟨c', Function.iterate_fixed (turn_of_ended hcases _) _, hcases⟩
    | none =>
      rw [hconclusive] at hcases
      dsimp only at hcases
      rw [if_pos (by omega)] at hcases
      obtain ⟨c'', hrun, hended⟩ := ih (exchange request socket).2 hcases.1 (by omega)
      rw [hcases.2] at hended
      exact ⟨c'', hrun, hended⟩

/-- The loop of an operation, as the client goes through it, is `sendWithRetry`. -/
theorem run_sendWithRetry (c : Client) (requestType : BitVec 32) (data : Bytes) (socket : σ) :
    ∃ c', (turn exchange)^[Constants.MAX_RETRIES] (c.call requestType data, socket) =
        (c', (sendWithRetry exchange ⟨requestType, c.requestID, data⟩ socket).2) ∧
      Ended c.returned ⟨requestType, c.requestID, data⟩ (sendWithRetry exchange ⟨requestType, c.requestID, data⟩ socket).1 c' :=
  iterate_turn 4 socket rfl rfl

end Client

/-! ## Receiving -/

/-- A text that starts like that of a message is not taken for a response. -/
theorem receiveResponse_text (tail : Bytes) (expectedRequestID : BitVec 32) :
    receiveResponse (some (literal "Reques" ++ tail)) expectedRequestID = some [] := by
  have htake : (literal "Reques" ++ tail).take Constants.BUFFER_SIZE = literal "Reques" ++ tail.take 1018 := rfl
  have hlength : (tail.take 1018).length ≤ 1018 := List.length_take_le _ _
  obtain ⟨x, hx⟩ := deserialize_text (tail.take 1018) (by omega)
  simp only [receiveResponse, htake, hx]

/-- Of a frame, the data is taken if the request ID is the one expected, or nothing. -/
theorem receiveResponse_frame {requestType requestID : BitVec 32} {d : Option Bytes}
    (h : ∀ bs, d = some bs → bs.length < 2 ^ 31) (expectedRequestID : BitVec 32) :
    receiveResponse (some (Frame.withParity (Frame.payload requestType requestID d))) expectedRequestID = some [] ∨
      requestID = expectedRequestID ∧
        receiveResponse (some (Frame.withParity (Frame.payload requestType requestID d))) expectedRequestID =
          some (d.getD []) := by
  unfold receiveResponse
  cases hobj : JavaDeserializer.deserialize
      ((Frame.withParity (Frame.payload requestType requestID d)).take Constants.BUFFER_SIZE) with
  | error x => exact Or.inl (by simp only [hobj])
  | ok obj =>
    simp only [hobj, deserialize_take h hobj]
    by_cases hid : requestID = expectedRequestID
    · exact Or.inr ⟨hid, by rw [if_neg (not_not_intro hid)]⟩
    · exact Or.inl (by rw [if_pos hid])

end FacilityBooking.Cpp
