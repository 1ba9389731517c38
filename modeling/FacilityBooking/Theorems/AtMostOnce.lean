import FacilityBooking.Lib.ReplyCache
import FacilityBooking.Runs

/-!
# At most once

With `checkHistory` the server is a service behind a reply cache: the history is the cache, the key of a request is its ID with
the sender's address and port, and a datagram without a request, or with an echo, has none.
-/

namespace FacilityBooking

/-- The key a datagram is told apart by: that of its request, if it has one that is no echo. -/
def keyOf (Γ : Jvm) (e : Event) : Option RequestKey :=
  match deserializeMessage Γ e.bytes with
  | .error _ => none
  | .ok m => if m.getOperation = .ECHO then none else some ⟨m.requestID, e.address.address, e.port⟩

/-- The server that executes every request it is given. -/
def service (Γ : Jvm) : Service ServerState Event RequestKey RequestMessage where
  key := keyOf Γ
  plain := fun e =>
    match deserializeMessage Γ e.bytes with
    | .error _ => badRequest
    | .ok m => m
  exec := fun s e =>
    match deserializeMessage Γ e.bytes with
    | .error _ => none
    | .ok m =>
      match execute Γ s.reset m e with
      | ⟨_, .error _, _⟩ => none
      | ⟨s', .ok r, _⟩ => some (s', r)

/-- Of a sequence of datagrams, the first with each key. -/
def firstRequests (Γ : Jvm) (es : List Event) : List Event := (service Γ).firsts [] es

/-- The history as a cache. -/
def ServerState.replies (s : ServerState) : List (RequestKey × RequestMessage) :=
  s.requestHistory.map (fun r => (r.key, r.responseMessage))

/-- Looking up a request in the history is looking up its key in the cache. -/
theorem lookup_replies (s : ServerState) (requestID : BitVec 32) (clientAddress : InetAddress) (clientPort : Nat) :
    s.replies.lookup ⟨requestID, clientAddress.address, clientPort⟩ =
      (containsRequest s.requestHistory requestID clientAddress clientPort).map RequestInfo.responseMessage := by
  unfold ServerState.replies containsRequest
  induction s.requestHistory with
  | nil => rfl
  | cons r rs ih =>
    rw [List.map_cons, List.find?_cons]
    by_cases hr : r.key = ⟨requestID, clientAddress.address, clientPort⟩
    · have hkey := hr
      rw [RequestInfo.key, RequestKey.mk.injEq] at hkey
      rw [hr, List.lookup_cons_self]
      simp only [hkey.1, hkey.2.1, hkey.2.2, decide_true, Bool.and_self, Option.map_some]
    · have hkey := hr
      rw [RequestInfo.key, RequestKey.mk.injEq] at hkey
      have hfound : (decide (r.requestMessage.requestID = requestID) &&
          (decide (r.clientAddress.address = clientAddress.address) && decide (r.clientPort = clientPort))) = false := by
        rw [Bool.eq_false_iff]
        intro h
        simp only [Bool.and_eq_true, decide_eq_true_eq] at h
        exact hkey h
      rw [hfound, List.lookup_cons, beq_false_of_ne (Ne.symm hr)]
      exact ih

/-- A state of the server and one of the cached service that are the same but for the facility last updated. -/
structure Caches (s : ServerState) (c : Cached ServerState RequestKey RequestMessage) : Prop where
  state : c.state.reset = s.reset
  cache : c.cache = s.replies
  checkHistory : s.checkHistory = true

/-- The refinement, for one datagram: the server does what the cached service does, and where one throws the other fails. -/
theorem handleRequest_step (Γ : Jvm) {s : ServerState} {c : Cached ServerState RequestKey RequestMessage} (h : Caches s c)
    (e : Event) :
    (∃ c' r, (handleRequest Γ s e).result = .ok r ∧ (service Γ).step c e = some (c', r) ∧
      Caches (handleRequest Γ s e).state c') ∨
    ((∃ x, (handleRequest Γ s e).result = .error x) ∧ (service Γ).step c e = none ∧
      Caches (handleRequest Γ s e).state c) := by
  have hreset : Caches s.reset c := ⟨h.state, h.cache, h.checkHistory⟩
  cases hm : deserializeMessage Γ e.bytes with
  | error x =>
    have hrun : handleRequest Γ s e = ⟨s.reset, .ok badRequest, []⟩ := by
      rw [handleRequest, hm]
      rfl
    have hkey : (service Γ).key e = none := by simp only [service, keyOf, hm]
    have hplain : (service Γ).plain e = badRequest := by simp only [service, hm]
    rw [hrun]
    exact Or.inl ⟨c, badRequest, rfl, hplain ▸ (service Γ).step_of_plain hkey, hreset⟩
  | ok m =>
    by_cases ho : m.getOperation = .ECHO
    · have hkey : (service Γ).key e = none := by simp only [service, keyOf, hm, ho, if_true]
      have hplain : (service Γ).plain e = m := by simp only [service, hm]
      rw [handleRequest_of_echo hm ho]
      exact Or.inl ⟨c, m, rfl, hplain ▸ (service Γ).step_of_plain hkey, hreset⟩
    · have hkey : (service Γ).key e = some (e.key m) := by
        simp only [service, keyOf, hm, ho, if_false]
        rfl
      have hlookup : c.cache.lookup (e.key m) = (replayOf s m e).map RequestInfo.responseMessage := by
        rw [h.cache, Event.key, lookup_replies, replayOf, if_pos h.checkHistory]
      cases hp : replayOf s m e with
      | some prevRequest =>
        rw [hp] at hlookup
        rw [handleRequest_of_replay hm ho hp]
        exact Or.inl ⟨c, prevRequest.responseMessage, rfl, (service Γ).step_of_stored hkey hlookup, hreset⟩
      | none =>
        rw [hp] at hlookup
        have hexec : (service Γ).exec c.state e = match execute Γ s.reset m e with
            | ⟨_, .error _, _⟩ => none
            | ⟨s', .ok r, _⟩ => some (s', r) := by
          simp only [service, hm, h.state]
        rw [(service Γ).step_of_new hkey hlookup, hexec, handleRequest_of_new hm ho hp]
        rcases execute_cases Γ s.reset m e with ⟨x, _, _, hrun⟩ | ⟨r, last, monitors, sent, _, _, _, _, hrun⟩
        · rw [hrun]
          exact Or.inr ⟨⟨x, rfl⟩, rfl, hreset⟩
        · rw [hrun]
          refine Or.inl ⟨_, r, rfl, rfl, rfl, ?_, h.checkHistory⟩
          rw [h.cache, ServerState.replies, ServerState.replies, List.map_append]
          rfl

/-! ## Runs -/

/-- The refinement, for a run. -/
theorem serve_run (Γ : Jvm) (es : List Event) {s : ServerState} {c : Cached ServerState RequestKey RequestMessage}
    (h : Caches s c) :
    Caches (serve Γ s es).state ((service Γ).run c es).1 ∧ (serve Γ s es).responses = ((service Γ).run c es).2 := by
  induction es generalizing s c with
  | nil => exact ⟨h, rfl⟩
  | cons e es ih =>
    have hstep := handleRequest_step Γ h e
    rw [serve, Service.run]
    generalize handleRequest Γ s e = outcome at hstep ⊢
    obtain ⟨s', result, sent⟩ := outcome
    rcases hstep with ⟨c', r, hr, hc, hcaches⟩ | ⟨⟨x, hx⟩, hc, hcaches⟩
    · cases hr
      rw [hc]
      obtain ⟨hstate, hresponses⟩ := ih hcaches
      exact ⟨hstate, congrArg (List.cons r) hresponses⟩
    · cases hx
      rw [hc]
      exact ⟨hcaches, rfl⟩

/-- The server at its start, and the cached service at its start. -/
theorem caches_init : Caches (.init true) ⟨.init true, []⟩ := ⟨rfl, rfl, rfl⟩

/-- With `checkHistory`, a run from `init()` over any datagrams leaves the facilities and the monitors that the run over the
first datagram with each key leaves; and when the run reaches a datagram with the key of an earlier one, both get the same
response. -/
theorem executes_first_requests (Γ : Jvm) (es : List Event) :
    ((serve Γ (.init true) es).state.facilities = (serve Γ (.init true) (firstRequests Γ es)).state.facilities ∧
      (serve Γ (.init true) es).state.monitors = (serve Γ (.init true) (firstRequests Γ es)).state.monitors) ∧
    ∀ (i j : Nat) (e e' : Event) (k : RequestKey), i < j → es[i]? = some e → es[j]? = some e' → keyOf Γ e = some k →
      keyOf Γ e' = some k → j ≤ (serve Γ (.init true) es).responses.length →
      ∃ r, (serve Γ (.init true) es).responses[i]? = some r ∧ (serve Γ (.init true) es).responses[j]? = some r := by
  obtain ⟨hall, hresponses⟩ := serve_run Γ es caches_init
  obtain ⟨hfirst, _⟩ := serve_run Γ (firstRequests Γ es) caches_init
  have hruns : ((service Γ).run ⟨.init true, []⟩ (firstRequests Γ es)).1 = ((service Γ).run ⟨.init true, []⟩ es).1 :=
    (service Γ).run_firsts es ⟨.init true, []⟩
  have hreset : (serve Γ (.init true) es).state.reset = (serve Γ (.init true) (firstRequests Γ es)).state.reset := by
    rw [← hall.state, ← hfirst.state, hruns]
  refine ⟨⟨congrArg (fun s => s.facilities) hreset, congrArg (fun s => s.monitors) hreset⟩, ?_⟩
  rw [hresponses]
  intro i j e e' k hij he he' hk hk'
  exact (service Γ).run_replies_agree es _ i j e e' hij he he' hk hk'

end FacilityBooking
