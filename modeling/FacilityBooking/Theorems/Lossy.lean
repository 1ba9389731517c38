import FacilityBooking.Lossy
import FacilityBooking.Theorems.Copies
import FacilityBooking.Theorems.EndToEnd
import FacilityBooking.Theorems.Survival

/-!
# What a client's operations do on a network that loses and repeats

The server has received, for each request in order, nothing or some copies of it; and whatever it has sent to the client is a
notification or has the ID of a request that it has received. So an operation that returns a response has been received, and where
the copies of a request do no more than its first, every operation has been done once or, if it failed, once or not at all.
-/

namespace FacilityBooking

/-- Every response of the history has the ID of its request. -/
def AnswersOwn (s : ServerState) : Prop := ∀ r ∈ s.requestHistory, r.responseMessage.requestID = r.requestMessage.requestID

/-- The response to a request has its ID. -/
theorem requestID_of_result {Γ : Jvm} {s : ServerState} {e : Event} {m r : RequestMessage} (h : AnswersOwn s)
    (hm : deserializeMessage Γ e.bytes = .ok m) (hresult : (handleRequest Γ s e).result = .ok r) : r.requestID = m.requestID := by
  have hhandling := handleRequest_handling Γ s e
  generalize handleRequest Γ s e = outcome at hhandling hresult
  cases hhandling with
  | undecodable x hm' => cases hm.symm.trans hm'
  | echo m' hm' ho =>
    cases hm.symm.trans hm'
    cases hresult
    rfl
  | replay m' prevRequest hm' ho hp =>
    cases hm.symm.trans hm'
    cases hresult
    rw [h _ (mem_of_replayOf hp)]
    exact congrArg RequestKey.requestID (key_of_replayOf hp)
  | thrown => cases hresult
  | executed m' r' last monitors sent hm' ho hp hd hr =>
    cases hm.symm.trans hm'
    cases hresult
    exact hr.requestID

theorem AnswersOwn.step {Γ : Jvm} {s : ServerState} (h : AnswersOwn s) (e : Event) : AnswersOwn (serverStep Γ s e) := by
  have hhandling := handleRequest_handling Γ s e
  rw [serverStep]
  generalize handleRequest Γ s e = outcome at hhandling ⊢
  cases hhandling with
  | undecodable => exact h
  | echo => exact h
  | replay => exact h
  | thrown => exact h
  | executed m r last monitors sent hm ho hp hd hr =>
    intro x hx
    rcases List.mem_append.1 hx with hx | hx
    · exact h x hx
    · rw [List.mem_singleton] at hx
      subst hx
      exact hr.requestID

theorem AnswersOwn.run {Γ : Jvm} {s : ServerState} (h : AnswersOwn s) (es : List Event) : AnswersOwn (serverRun Γ s es) := by
  induction es generalizing s with
  | nil => exact h
  | cons e es ih => exact ih (h.step e)

namespace Lossy

variable (Γ : Jvm) (endpoint : Endpoint)

/-- A datagram to the client: a notification, or the frame of a response to a request that the server has received. -/
def IsGenuine (handled : List Event) (bytes : Bytes) : Prop :=
  (∃ tail, bytes = Cpp.literal "Reques" ++ tail) ∨
    ∃ e ∈ handled, ∃ m r, deserializeMessage Γ e.bytes = .ok m ∧ r.requestID = m.requestID ∧ bytes = RequestMessage.frame r ∧
      r.frame.length ≤ Serializer.capacity

/-- What the attempts keep: the state is the one that the datagrams received lead to, and what is sent is genuine. -/
structure Invariant (start : ServerState) (link : Lossy) : Prop where
  server : link.server = serverRun Γ start link.handled
  genuine : ∀ bytes ∈ link.sent, IsGenuine Γ link.handled bytes

/-- A copy of a request, as it arrives. -/
def IsCopyOf (request : Cpp.RequestMessage) (e : Event) : Prop :=
  e.toDatagram = ⟨endpoint.address, endpoint.port, (Cpp.JavaSerializer.serialize (some request)).take bufferLength⟩

/-- A request that the server's buffer holds. -/
def Fits (request : Cpp.RequestMessage) : Prop := (Cpp.JavaSerializer.serialize (some request)).length ≤ bufferLength

instance (request : Cpp.RequestMessage) : Decidable (Fits request) := inferInstanceAs (Decidable (_ ≤ _))

variable {Γ endpoint} {start : ServerState} {link : Lossy} {request : Cpp.RequestMessage}

theorem IsGenuine.mono {handled handled' : List Event} {bytes : Bytes} (h : IsGenuine Γ handled bytes) (hsub : handled ⊆ handled') :
    IsGenuine Γ handled' bytes := by
  rcases h with h | ⟨e, he, hresponse⟩
  · exact Or.inl h
  · exact Or.inr ⟨e, hsub he, hresponse⟩

theorem IsCopyOf.decoded {e : Event} (h : IsCopyOf endpoint request e) (hfits : Fits request) :
    deserializeMessage Γ e.bytes = .ok (FacilityBooking.decoded Γ request) := by
  have hbytes : e.bytes = (Cpp.JavaSerializer.serialize (some request)).take bufferLength := congrArg Datagram.bytes h
  rw [hbytes, List.take_of_length_le hfits]
  exact deserializeMessage_serialize Γ hfits

/-! ## One attempt -/

/-- The server's turn keeps it. -/
theorem Invariant.handle (h : Invariant Γ start link) (hown : AnswersOwn start) {e : Event} {m : RequestMessage}
    (hm : deserializeMessage Γ e.bytes = .ok m) : Invariant Γ start (link.handle Γ endpoint e) := by
  unfold Lossy.handle
  split
  · refine ⟨?_, fun bytes hbytes => ?_⟩
    · have hrun : serverRun Γ start (link.handled ++ [e]) = serverStep Γ link.server e := by
        rw [h.server]
        exact Machine.run_append _ _ _
      exact hrun.symm
    · rcases List.mem_append.1 hbytes with hold | hnew
      · exact (h.genuine bytes hold).mono (List.subset_append_left _ _)
      · obtain ⟨d, hd, rfl⟩ := List.mem_map.1 hnew
        rcases List.mem_append.1 (List.mem_filter.1 hd).1 with hnotification | hreply
        · -- what `handleRequest` sends itself are notifications
          have hhandling := handleRequest_handling Γ link.server e
          generalize handleRequest Γ link.server e = outcome at hhandling hnotification
          cases hhandling with
          | undecodable => exact absurd hnotification List.not_mem_nil
          | echo => exact absurd hnotification List.not_mem_nil
          | replay => exact absurd hnotification List.not_mem_nil
          | thrown => exact absurd hnotification List.not_mem_nil
          | executed m' r last monitors sent hm' ho hp hdispatch hr hmon hsent =>
            exact Or.inl (bytes_of_isNotification (hsent d hnotification))
        · cases hresult : (handleRequest Γ link.server e).result with
          | error x =>
            rw [hresult] at hreply
            exact absurd hreply List.not_mem_nil
          | ok r =>
            rw [hresult] at hreply
            obtain ⟨rfl, hfits⟩ := mem_reply hreply
            have hown' : AnswersOwn link.server := h.server ▸ hown.run link.handled
            exact Or.inr ⟨e, List.mem_append_right _ (List.mem_singleton.2 rfl), m, r, hm,
              requestID_of_result hown' hm hresult, rfl, hfits⟩
  · exact h

/-- Copies of a request arrive: the server receives some of them. -/
theorem Invariant.handles (h : Invariant Γ start link) (hown : AnswersOwn start) (hfits : Fits request) {es : List Event}
    (hcopies : ∀ e ∈ es, IsCopyOf endpoint request e) :
    Invariant Γ start (es.foldl (Lossy.handle Γ endpoint) link) ∧
      ∃ received, (es.foldl (Lossy.handle Γ endpoint) link).handled = link.handled ++ received ∧
        ∀ e ∈ received, IsCopyOf endpoint request e := by
  induction es generalizing link with
  | nil => exact ⟨h, [], (List.append_nil _).symm, List.forall_mem_nil _⟩
  | cons e es ih =>
    rw [List.forall_mem_cons] at hcopies
    obtain ⟨hkept, received, hhandled, hreceived⟩ := ih (h.handle hown (hcopies.1.decoded hfits)) hcopies.2
    refine ⟨hkept, ?_⟩
    rw [List.foldl_cons, hhandled]
    unfold Lossy.handle
    split
    · exact ⟨e :: received, by rw [List.append_assoc, List.singleton_append], List.forall_mem_cons.2 ⟨hcopies.1, hreceived⟩⟩
    · exact ⟨received, rfl, hreceived⟩

theorem isCopyOf_arrivals (endpoint : Endpoint) (request : Cpp.RequestMessage) (copies : List (BitVec 64 × UUID)) :
    ∀ e ∈ arrivals endpoint request copies, IsCopyOf endpoint request e := by
  intro e he
  obtain ⟨c, _, rfl⟩ := List.mem_map.1 he
  rfl

/-- An attempt: the server receives some copies of the request, and the client something genuine if anything. -/
theorem Invariant.exchange (h : Invariant Γ start link) (hown : AnswersOwn start) (hfits : Fits request) :
    Invariant Γ start (Lossy.exchange Γ endpoint request link).2 ∧
      (∃ received, (Lossy.exchange Γ endpoint request link).2.handled = link.handled ++ received ∧
        ∀ e ∈ received, IsCopyOf endpoint request e) ∧
      ∀ bytes, (Lossy.exchange Γ endpoint request link).1 = some bytes →
        IsGenuine Γ (Lossy.exchange Γ endpoint request link).2.handled bytes := by
  unfold Lossy.exchange
  split
  · exact ⟨h, ⟨[], (List.append_nil _).symm, List.forall_mem_nil _⟩, fun _ hbytes => by cases hbytes⟩
  · rename_i w weather hweather
    have hstart : Invariant Γ start { link with weather := weather } := ⟨h.server, h.genuine⟩
    obtain ⟨hkept, hreceived⟩ := hstart.handles hown hfits (isCopyOf_arrivals endpoint request w.copies)
    refine ⟨hkept, hreceived, fun bytes hbytes => hkept.genuine bytes ?_⟩
    obtain ⟨i, _, hi⟩ := Option.bind_eq_some_iff.1 hbytes
    exact List.mem_of_getElem? hi

/-- What is genuine and taken for the response to a request has the ID of one that the server has received. -/
theorem IsGenuine.requestID {handled : List Event} {received : Option Bytes} {data : Bytes}
    (h : ∀ bytes, received = some bytes → IsGenuine Γ handled bytes)
    (hresponse : Cpp.conclusive request received = some (some data)) :
    ∃ e ∈ handled, ∃ m, deserializeMessage Γ e.bytes = .ok m ∧ m.requestID = request.requestID := by
  have hnonempty : Cpp.receiveResponse received request.requestID ≠ some [] := by
    intro hempty
    simp only [Cpp.conclusive, hempty, ne_eq, not_true_eq_false, if_false, reduceCtorEq] at hresponse
  cases received with
  | none => exact absurd rfl hnonempty
  | some bytes =>
    rcases h bytes rfl with ⟨tail, rfl⟩ | ⟨e, he, m, r, hm, hid, rfl, hfits⟩
    · exact absurd (Cpp.receiveResponse_text tail _) hnonempty
    · rcases receiveResponse_message hfits request.requestID with hempty | ⟨hexpected, _⟩
      · exact absurd hempty hnonempty
      · exact ⟨e, he, m, hm, hid.symm.trans hexpected⟩

/-! ## An operation -/

/-- The server has received more, all of it copies of a request. -/
def Receives (endpoint : Endpoint) (request : Cpp.RequestMessage) (link link' : Lossy) : Prop :=
  ∃ received, link'.handled = link.handled ++ received ∧ ∀ e ∈ received, IsCopyOf endpoint request e

/-- The attempts of an operation: copies of its request are received, and at least one if a response is returned. -/
theorem Invariant.sendWithRetry (h : Invariant Γ start link) (hown : AnswersOwn start) (hfits : Fits request) :
    Invariant Γ start (Cpp.sendWithRetry (Lossy.exchange Γ endpoint) request link).2 ∧
      Receives endpoint request link (Cpp.sendWithRetry (Lossy.exchange Γ endpoint) request link).2 ∧
      ∀ data, (Cpp.sendWithRetry (Lossy.exchange Γ endpoint) request link).1 = some (.response data) →
        ∃ e ∈ (Cpp.sendWithRetry (Lossy.exchange Γ endpoint) request link).2.handled,
          ∃ m, deserializeMessage Γ e.bytes = .ok m ∧ m.requestID = request.requestID := by
  have hattempts := @Retry.run_changes _ _ (Cpp.attempt (Lossy.exchange Γ endpoint) request) (Invariant Γ start)
    (Receives endpoint request)
    (fun result link => ∀ data, result = some data → ∃ e ∈ link.handled, ∃ m, deserializeMessage Γ e.bytes = .ok m ∧
      m.requestID = request.requestID)
    (fun link => ⟨[], (List.append_nil _).symm, List.forall_mem_nil _⟩) ?_ ?_ Cpp.Constants.MAX_RETRIES link h
  · obtain ⟨hkept, hreceives, hresult⟩ := hattempts
    refine ⟨hkept, hreceives, fun data hdata => ?_⟩
    unfold Cpp.sendWithRetry at hdata
    dsimp only at hdata
    generalize hrun : (Retry.run (Cpp.attempt (Lossy.exchange Γ endpoint) request) Cpp.Constants.MAX_RETRIES link).1 = result at hdata
    cases result with
    | none => cases hdata
    | some result =>
      cases result with
      | none => cases hdata
      | some text => exact hresult (some text) hrun text rfl
  · rintro link link' link'' ⟨received, hhandled, hcopies⟩ ⟨received', hhandled', hcopies'⟩
    refine ⟨received ++ received', by rw [hhandled', hhandled, List.append_assoc], ?_⟩
    exact List.forall_mem_append.2 ⟨hcopies, hcopies'⟩
  · intro link hlink
    obtain ⟨hkept, hreceives, hgenuine⟩ := hlink.exchange hown hfits
    refine ⟨hkept, hreceives, ?_⟩
    rintro result hresult data rfl
    exact IsGenuine.requestID hgenuine hresult

/-- The UUIDs that may have been drawn, and those that may be. -/
def uuids (link : Lossy) : List UUID := link.handled.map Event.uuid ++ link.weather.flatMap (fun w => w.copies.map Prod.snd)

theorem uuids_handles (es : List Event) (link : Lossy) :
    (es.foldl (Lossy.handle Γ endpoint) link).weather = link.weather ∧
      ((es.foldl (Lossy.handle Γ endpoint) link).handled.map Event.uuid).Sublist (link.handled.map Event.uuid ++ es.map Event.uuid) := by
  induction es generalizing link with
  | nil =>
    rw [List.map_nil, List.append_nil]
    exact ⟨rfl, List.Sublist.refl _⟩
  | cons e es ih =>
    obtain ⟨hweather, hhandled⟩ := ih (link.handle Γ endpoint e)
    rw [List.foldl_cons, hweather]
    refine ⟨by unfold Lossy.handle; split <;> rfl, hhandled.trans ?_⟩
    unfold Lossy.handle
    split
    · rw [List.map_append, List.append_assoc]
      exact List.Sublist.refl _
    · exact (List.sublist_cons_self _ _).append_left _

/-- An attempt draws no UUID but those that may be drawn. -/
theorem uuids_exchange (request : Cpp.RequestMessage) (link : Lossy) :
    (Lossy.exchange Γ endpoint request link).2.uuids.Sublist link.uuids := by
  unfold Lossy.exchange
  split
  · exact List.Sublist.refl _
  · rename_i w weather hweather
    obtain ⟨hrest, hhandled⟩ := @uuids_handles Γ endpoint (arrivals endpoint request w.copies)
      { link with weather := weather }
    have hcopies : (arrivals endpoint request w.copies).map Event.uuid = w.copies.map Prod.snd := by
      rw [arrivals, List.map_map]
      rfl
    rw [uuids, uuids, hrest, hweather, List.flatMap_cons, ← List.append_assoc, ← hcopies]
    exact hhandled.append_right _

theorem uuids_perform (requests : List Cpp.RequestMessage) (link : Lossy) :
    (Cpp.perform (Lossy.exchange Γ endpoint) requests link).2.uuids.Sublist link.uuids := by
  induction requests generalizing link with
  | nil => exact List.Sublist.refl _
  | cons request requests ih =>
    have hstep : (Cpp.sendWithRetry (Lossy.exchange Γ endpoint) request link).2.uuids.Sublist link.uuids :=
      @Retry.run_keeps _ _ (Cpp.attempt (Lossy.exchange Γ endpoint) request) (fun l => l.uuids.Sublist link.uuids)
        (fun l hl => (uuids_exchange request l).trans hl) Cpp.Constants.MAX_RETRIES link (List.Sublist.refl _)
    rw [Cpp.perform]
    split
    · rename_i hrun
      rw [hrun] at hstep
      exact hstep
    · rename_i hrun
      rw [hrun] at hstep
      exact (ih _).trans hstep

/-! ## A session -/

/-- The requests received, each with its copies in the order in which they were received. -/
abbrev Deliveries := List (Cpp.RequestMessage × Event × List Event)

/-- What is received, as groups of copies. -/
def Deliveries.groups (ds : Deliveries) : List (Event × List Event) := ds.map Prod.snd

/-- Groups of copies of requests, those of each request after those of the one before. -/
structure Delivers (endpoint : Endpoint) (requests : List Cpp.RequestMessage) (ds : Deliveries) : Prop where
  inOrder : (ds.map Prod.fst).Sublist requests
  copies : ∀ d ∈ ds, IsCopyOf endpoint d.1 d.2.1 ∧ ∀ e ∈ d.2.2, IsCopyOf endpoint d.1 e

theorem Delivers.append {requests : List Cpp.RequestMessage} {ds ds' : Deliveries} (h : Delivers endpoint [request] ds)
    (h' : Delivers endpoint requests ds') : Delivers endpoint (request :: requests) (ds ++ ds') where
  inOrder := by
    rw [List.map_append]
    exact h.inOrder.append h'.inOrder
  copies := List.forall_mem_append.2 ⟨h.copies, h'.copies⟩

/-- Copies of one request, if there are any. -/
theorem exists_delivers {received : List Event} (hcopies : ∀ e ∈ received, IsCopyOf endpoint request e) :
    ∃ ds : Deliveries, Delivers endpoint [request] ds ∧ received = Machine.flat ds.groups ∧
      (received ≠ [] → ds.map Prod.fst = [request]) := by
  cases received with
  | nil =>
    exact ⟨[], ⟨List.nil_sublist _, List.forall_mem_nil _⟩, rfl, fun h => absurd rfl h⟩
  | cons e again =>
    refine ⟨[(request, e, again)], ⟨List.Sublist.refl _, ?_⟩, (List.append_nil _).symm, fun _ => rfl⟩
    intro d hd
    rw [List.mem_singleton] at hd
    rw [hd]
    exact List.forall_mem_cons.1 hcopies

theorem Deliveries.flat_append (ds ds' : Deliveries) :
    Machine.flat (ds ++ ds').groups = Machine.flat ds.groups ++ Machine.flat ds'.groups := by
  rw [groups, groups, groups, List.map_append, Machine.flat_append]

/-- Requests with different IDs, none of which the server has received: for each nothing arrives or some copies do, and some if a
response is returned. -/
theorem Invariant.perform {requests : List Cpp.RequestMessage} (hown : AnswersOwn start) (hfits : ∀ request ∈ requests, Fits request)
    (hids : (requests.map Cpp.RequestMessage.requestID).Nodup) (h : Invariant Γ start link)
    (hnew : ∀ e ∈ link.handled, ∀ m, deserializeMessage Γ e.bytes = .ok m → m.requestID ∉ requests.map Cpp.RequestMessage.requestID) :
    ∃ ds : Deliveries, Delivers endpoint requests ds ∧
      (Cpp.perform (Lossy.exchange Γ endpoint) requests link).2.handled = link.handled ++ Machine.flat ds.groups ∧
      Invariant Γ start (Cpp.perform (Lossy.exchange Γ endpoint) requests link).2 ∧
      ∀ p ∈ (Cpp.perform (Lossy.exchange Γ endpoint) requests link).1, p.2 ≠ .failed → p.1 ∈ ds.map Prod.fst := by
  induction requests generalizing link with
  | nil => exact ⟨[], ⟨List.Sublist.refl _, List.forall_mem_nil _⟩, (List.append_nil _).symm, h, List.forall_mem_nil _⟩
  | cons request requests ih =>
    rw [List.forall_mem_cons] at hfits
    rw [List.map_cons, List.nodup_cons] at hids
    obtain ⟨hkept, ⟨received, hhandled, hcopies⟩, hresponse⟩ := @Invariant.sendWithRetry Γ endpoint _ _ _ h hown hfits.1
    -- what is received now has the ID of this request, not of a later one
    have hnow : ∀ e ∈ received, ∀ m, deserializeMessage Γ e.bytes = .ok m → m.requestID = request.requestID := by
      intro e he m hm
      cases hm.symm.trans ((hcopies e he).decoded hfits.1)
      rfl
    have hlater : ∀ e ∈ (Cpp.sendWithRetry (Lossy.exchange Γ endpoint) request link).2.handled, ∀ m,
        deserializeMessage Γ e.bytes = .ok m → m.requestID ∉ requests.map Cpp.RequestMessage.requestID := by
      intro e he m hm hmem
      rw [hhandled] at he
      rcases List.mem_append.1 he with he | he
      · exact hnew e he m hm (List.mem_cons_of_mem _ hmem)
      · rw [hnow e he m hm] at hmem
        exact hids.1 hmem
    have hreturned : ∀ data, (Cpp.sendWithRetry (Lossy.exchange Γ endpoint) request link).1 = some (.response data) → received ≠ [] := by
      rintro data hdata rfl
      obtain ⟨e, he, m, hm, hid⟩ := hresponse data hdata
      rw [hhandled, List.append_nil] at he
      exact hnew e he m hm (List.mem_map.2 ⟨request, List.mem_cons_self, hid.symm⟩)
    obtain ⟨ds, hdelivers, hreceived, hfirst⟩ := exists_delivers hcopies
    rw [Cpp.perform]
    generalize houtcome : Cpp.sendWithRetry (Lossy.exchange Γ endpoint) request link = outcome at *
    obtain ⟨result, link'⟩ := outcome
    cases result with
    | none =>
      refine ⟨ds, ?_, hreceived ▸ hhandled, hkept, List.forall_mem_nil _⟩
      exact List.append_nil ds ▸ hdelivers.append ⟨List.nil_sublist _, List.forall_mem_nil _⟩
    | some returned =>
      obtain ⟨ds', hdelivers', hhandled', hkept', hanswered⟩ := ih hfits.2 hids.2 hkept hlater
      refine ⟨ds ++ ds', hdelivers.append hdelivers', ?_, hkept', ?_⟩
      · rw [Deliveries.flat_append, hhandled', hhandled, hreceived, List.append_assoc]
      · rw [List.forall_mem_cons]
        refine ⟨fun hsuccess => ?_, fun p hp hsuccess => ?_⟩
        · cases returned with
          | failed => exact absurd rfl hsuccess
          | response data =>
            rw [List.map_append, hfirst (hreturned data rfl)]
            exact List.mem_cons_self
        · rw [List.map_append]
          exact List.mem_append_right _ (hanswered p hp hsuccess)

/-- The first copy of every request received. -/
def Deliveries.firsts (ds : Deliveries) : List (Cpp.RequestMessage × Event) := ds.map (fun d => (d.1, d.2.1))

theorem Delivers.isCopyOf {requests : List Cpp.RequestMessage} {ds : Deliveries} (h : Delivers endpoint requests ds) :
    ∀ x ∈ ds.firsts, IsCopyOf endpoint x.1 x.2 := by
  intro x hx
  obtain ⟨d, hd, rfl⟩ := List.mem_map.1 hx
  exact (h.copies d hd).1

theorem Delivers.areCopies {requests : List Cpp.RequestMessage} {ds : Deliveries} (h : Delivers endpoint requests ds) :
    AreCopies ds.groups := by
  intro g hg d hd
  obtain ⟨delivery, hdelivery, rfl⟩ := List.mem_map.1 hg
  obtain ⟨hfirst, hagain⟩ := h.copies delivery hdelivery
  exact (hagain d hd).trans hfirst.symm

@[simp] theorem Deliveries.map_fst_firsts (ds : Deliveries) : ds.firsts.map Prod.fst = ds.map Prod.fst := by
  rw [firsts, List.map_map]
  rfl

@[simp] theorem Deliveries.map_snd_firsts (ds : Deliveries) : ds.firsts.map Prod.snd = Machine.heads ds.groups := by
  rw [firsts, groups, Machine.heads, List.map_map, List.map_map]
  rfl

end Lossy

/-! ## The numbers of a client's requests -/

theorem Cpp.requestIDs_numbered (requestID : BitVec 32) (operations : List (BitVec 32 × Bytes)) :
    (Cpp.numbered requestID operations).map Cpp.RequestMessage.requestID =
      (List.range operations.length).map (fun n => requestID + BitVec.ofNat 32 n) := by
  induction operations generalizing requestID with
  | nil => rfl
  | cons operation operations ih =>
    rw [Cpp.numbered, List.map_cons, ih, List.length_cons, List.range_succ_eq_map, List.map_cons, List.map_map]
    refine congrArg₂ List.cons (BitVec.add_zero _).symm (List.map_congr_left fun n _ => ?_)
    rw [Function.comp_apply, Nat.succ_eq_one_add, BitVec.ofNat_add, BitVec.add_assoc]
    rfl

/-- No ID comes twice, up to 2³² operations. -/
theorem Cpp.nodup_numbered (requestID : BitVec 32) {operations : List (BitVec 32 × Bytes)} (hcount : operations.length ≤ 2 ^ 32) :
    ((Cpp.numbered requestID operations).map Cpp.RequestMessage.requestID).Nodup := by
  rw [Cpp.requestIDs_numbered]
  refine List.Nodup.map_on ?_ List.nodup_range
  intro x hx y hy hxy
  rw [List.mem_range] at hx hy
  have hnat := congrArg BitVec.toNat ((BitVec.add_right_inj requestID).1 hxy)
  rw [BitVec.toNat_ofNat, BitVec.toNat_ofNat, Nat.mod_eq_of_lt (by omega), Nat.mod_eq_of_lt (by omega)] at hnat
  exact hnat

/-! ## Keys -/

/-- The history holds the keys of the datagrams received, or fewer. -/
theorem keys_serverRun {Γ : Jvm} {s : ServerState} {es : List Event} {k : RequestKey}
    (h : k ∈ (serverRun Γ s es).requestHistory.map RequestInfo.key) :
    k ∈ s.requestHistory.map RequestInfo.key ∨ ∃ e ∈ es, keyOf Γ e = some k := by
  induction es generalizing s with
  | nil => exact Or.inl h
  | cons e es ih =>
    rcases ih h with hfirst | ⟨d, hd, hkey⟩
    · exact (keys_serverStep hfirst).imp_right fun hkey => ⟨e, List.mem_cons_self, hkey⟩
    · exact Or.inr ⟨d, List.mem_cons_of_mem _ hd, hkey⟩

theorem keyOf_eq_some {Γ : Jvm} {e : Event} {k : RequestKey} (h : keyOf Γ e = some k) :
    ∃ m, deserializeMessage Γ e.bytes = .ok m ∧ k = e.key m := by
  unfold keyOf at h
  split at h
  · cases h
  · rename_i m hm
    split at h
    · cases h
    · exact ⟨m, hm, (Option.some.inj h).symm⟩

/-- Requests with keys of their own are executed, each when it comes. -/
theorem along_isExecuted {Γ : Jvm} {es : List Event}
    (hkeys : es.Pairwise (fun e e' => ∀ m m', deserializeMessage Γ e.bytes = .ok m → deserializeMessage Γ e'.bytes = .ok m' →
      e.key m ≠ e'.key m')) {s : ServerState} (hmode : s.checkHistory = true)
    (hnew : ∀ e ∈ es, ∀ m, deserializeMessage Γ e.bytes = .ok m → e.key m ∉ s.requestHistory.map RequestInfo.key) :
    Machine.Along (serverStep Γ) (IsExecuted Γ) s es := by
  induction es generalizing s with
  | nil => trivial
  | cons e es ih =>
    rw [List.pairwise_cons] at hkeys
    rw [List.forall_mem_cons] at hnew
    refine ⟨fun m hm => (replayOf_eq_none_iff hmode).2 (hnew.1 m hm), ih hkeys.2 ((handleRequest_checkHistory Γ s e).trans hmode) ?_⟩
    intro e' he' m' hm' hmem
    rcases keys_serverStep hmem with hold | hkey
    · exact hnew.2 e' he' m' hm' hold
    · obtain ⟨m, hm, hsame⟩ := keyOf_eq_some hkey
      exact hkeys.1 e' he' m m' hm hm' hsame.symm

/-! ## Both modes -/

section

open Lossy

variable {Γ : Jvm} {endpoint : Endpoint}

/-- The datagrams come from elsewhere than this endpoint. -/
def Endpoint.Unused (endpoint : Endpoint) (before : List Event) : Prop :=
  ∀ e ∈ before, ¬(e.address.address = endpoint.address.address ∧ e.port = endpoint.port)

/-- The session of a new client with a server that has received some datagrams: the requests of its operations, up to 2³², one after the
other. -/
def session (Γ : Jvm) (endpoint : Endpoint) (checkHistory : Bool) (before : List Event) (operations : List (BitVec 32 × Bytes))
    (weather : List Weather) : List (Cpp.RequestMessage × Cpp.Returned) × Lossy :=
  let server := serve Γ (.init checkHistory) before
  Cpp.perform (Lossy.exchange Γ endpoint) (Cpp.numbered 0 operations) ⟨server.state, server.alive, [], [], weather⟩

/-- What the session leaves. -/
theorem session_delivers (Γ : Jvm) (endpoint : Endpoint) (checkHistory : Bool) (before : List Event)
    {operations : List (BitVec 32 × Bytes)} (weather : List Weather)
    (hcount : operations.length ≤ 2 ^ 32) (hfits : ∀ request ∈ Cpp.numbered 0 operations, Fits request) :
    ∃ ds : Deliveries, Delivers endpoint (Cpp.numbered 0 operations) ds ∧
      (session Γ endpoint checkHistory before operations weather).2.handled = Machine.flat ds.groups ∧
      (session Γ endpoint checkHistory before operations weather).2.server =
        serverRun Γ (serve Γ (.init checkHistory) before).state (Machine.flat ds.groups) ∧
      ∀ x ∈ (session Γ endpoint checkHistory before operations weather).1, x.2 ≠ .failed → x.1 ∈ ds.map Prod.fst := by
  have hown : AnswersOwn (serve Γ (.init checkHistory) before).state := by
    obtain ⟨received, _, hstate⟩ := exists_prefix_serve Γ before (.init checkHistory)
    rw [hstate]
    exact AnswersOwn.run (fun _ hr => absurd hr List.not_mem_nil) received
  have hstart : Lossy.Invariant Γ (serve Γ (.init checkHistory) before).state
      ⟨(serve Γ (.init checkHistory) before).state, (serve Γ (.init checkHistory) before).alive, [], [], weather⟩ :=
    ⟨rfl, List.forall_mem_nil _⟩
  obtain ⟨ds, hdelivers, hhandled, hkept, hanswered⟩ :=
    @Lossy.Invariant.perform Γ endpoint _ _ _ hown hfits (Cpp.nodup_numbered 0 hcount) hstart (List.forall_mem_nil _)
  exact ⟨ds, hdelivers, hhandled, hkept.server.trans (congrArg _ hhandled), hanswered⟩

/-- What is received as a copy of a request has its ID. -/
theorem Lossy.Delivers.requestID {requests : List Cpp.RequestMessage} {ds : Deliveries} (h : Delivers endpoint requests ds)
    (hfits : ∀ request ∈ requests, Fits request) {d : Cpp.RequestMessage × Event × List Event} (hd : d ∈ ds) {m : RequestMessage}
    (hm : deserializeMessage Γ d.2.1.bytes = .ok m) : m.requestID = d.1.requestID := by
  have hrequest : d.1 ∈ requests := h.inOrder.subset (List.mem_map_of_mem hd)
  cases hm.symm.trans ((h.copies d hd).1.decoded (hfits d.1 hrequest))
  rfl

/-- At most once. A new client's operations, with a server that checks its history and was sent nothing from the client's endpoint: some of the requests, in order, are executed once each and the others never, the state is the one that these executions leave, and an
operation that returned a response is among the executed. -/
theorem session_atMostOnce (Γ : Jvm) {endpoint : Endpoint} {before : List Event} (hunused : endpoint.Unused before)
    {operations : List (BitVec 32 × Bytes)} (hcount : operations.length ≤ 2 ^ 32)
    (hfits : ∀ request ∈ Cpp.numbered 0 operations, Fits request) (weather : List Weather) :
    ∃ executed : List (Cpp.RequestMessage × Event),
      (executed.map Prod.fst).Sublist (Cpp.numbered 0 operations) ∧ (∀ x ∈ executed, IsCopyOf endpoint x.1 x.2) ∧
      Machine.Along (serverStep Γ) (IsExecuted Γ) (serve Γ (.init true) before).state (executed.map Prod.snd) ∧
      (session Γ endpoint true before operations weather).2.server.reset =
        (serverRun Γ (serve Γ (.init true) before).state (executed.map Prod.snd)).reset ∧
      ∀ x ∈ (session Γ endpoint true before operations weather).1, x.2 ≠ .failed → x.1 ∈ executed.map Prod.fst := by
  obtain ⟨ds, hdelivers, _, hserver, hanswered⟩ := session_delivers Γ endpoint true before weather hcount hfits
  obtain ⟨received, hreceived, hstate⟩ := exists_prefix_serve Γ before (.init true)
  rw [hstate] at hserver ⊢
  have hmode : (serverRun Γ (.init true) received).checkHistory = true := serverRun_checkHistory Γ received _
  refine ⟨ds.firsts, ?_, hdelivers.isCopyOf, ?_, ?_, ?_⟩
  · rw [Deliveries.map_fst_firsts]
    exact hdelivers.inOrder
  · have hids : ds.Pairwise (fun d d' => d.1.requestID ≠ d'.1.requestID) := by
      have hnodup := (Cpp.nodup_numbered 0 hcount).sublist (hdelivers.inOrder.map Cpp.RequestMessage.requestID)
      rw [List.map_map] at hnodup
      exact List.pairwise_map.1 hnodup
    refine along_isExecuted ?_ hmode ?_
    · rw [Deliveries.firsts, List.map_map, List.pairwise_map]
      refine hids.imp_of_mem fun hd hd' hne m m' hm hm' hkey => hne ?_
      rw [← hdelivers.requestID hfits hd hm, ← hdelivers.requestID hfits hd' hm']
      exact congrArg RequestKey.requestID hkey
    · -- nothing in the history is from the client's endpoint
      intro e he m _ hmem
      obtain ⟨x, hx, rfl⟩ := List.mem_map.1 he
      have hcopy := hdelivers.isCopyOf x hx
      rcases keys_serverRun hmem with hold | ⟨d, hd, hkey⟩
      · exact absurd hold List.not_mem_nil
      · obtain ⟨m', _, hsame⟩ := keyOf_eq_some hkey
        obtain ⟨_, haddress, hport⟩ := RequestKey.mk.inj hsame
        rw [congrArg Datagram.address hcopy] at haddress
        rw [congrArg Datagram.port hcopy] at hport
        exact hunused d (hreceived.subset hd) ⟨haddress.symm, hport.symm⟩
  · rw [Deliveries.map_snd_firsts, hserver]
    exact reset_serverRun_flat hdelivers.areCopies hmode
  · rw [Deliveries.map_fst_firsts]
    exact hanswered

/-- Another client's booking, and then one from nine to ten, with a network that delivers two copies of its request but no reply, and then
one more copy. -/
def bookElsewhere : Event := .sent 5001 ⟨1, 0, some "Weekday2,MONDAY,9,0,10,0".toList⟩ ⟨0, 3⟩
def bookNineOperation : List (BitVec 32 × Bytes) := [(1, Cpp.literal "Weekday1,MONDAY,9,0,10,0")]
def nineThrice : List Weather := [⟨[(0, ⟨0, 0⟩), (0, ⟨0, 1⟩)], none⟩, ⟨[(0, ⟨0, 2⟩)], some 1⟩]

theorem session_atMostOnce_nine :
    ∃ executed : List (Cpp.RequestMessage × Event),
      (executed.map Prod.fst).Sublist (Cpp.numbered 0 bookNineOperation) ∧ (∀ x ∈ executed, IsCopyOf (twoClients true) x.1 x.2) ∧
      Machine.Along (serverStep openJdk) (IsExecuted openJdk) (serve openJdk (.init true) [bookElsewhere]).state
        (executed.map Prod.snd) ∧
      (session openJdk (twoClients true) true [bookElsewhere] bookNineOperation nineThrice).2.server.reset =
        (serverRun openJdk (serve openJdk (.init true) [bookElsewhere]).state (executed.map Prod.snd)).reset ∧
      ∀ x ∈ (session openJdk (twoClients true) true [bookElsewhere] bookNineOperation nineThrice).1, x.2 ≠ .failed →
        x.1 ∈ executed.map Prod.fst := by
  have hunused : (twoClients true).Unused [bookElsewhere] := List.forall_mem_singleton.2 (by decide)
  exact session_atMostOnce openJdk hunused (by decide) (List.forall_mem_singleton.2 (by decide +kernel)) nineThrice

/-- At least once. A new client's operations, with a server that does not check its history: where the bookings asked for end after
they start and no two of the UUIDs that may be drawn are the same, the calendars are those that some of the requests leave, in order and
once each, and an operation that returned a response is among these. -/
theorem session_atLeastOnce (Γ : Jvm) {endpoint : Endpoint} {before : List Event} {operations : List (BitVec 32 × Bytes)}
    (hcount : operations.length ≤ 2 ^ 32) (hfits : ∀ request ∈ Cpp.numbered 0 operations, Fits request)
    (hproper : ∀ request ∈ Cpp.numbered 0 operations, ∀ booking, (asked Γ (decoded Γ request)).booking? = some booking →
      booking.timeSlot.span.Proper) (weather : List Weather)
    (huuids : (before.map Event.uuid ++ weather.flatMap (fun w => w.copies.map Prod.snd)).Nodup) :
    ∃ executed : List (Cpp.RequestMessage × Event),
      (executed.map Prod.fst).Sublist (Cpp.numbered 0 operations) ∧ (∀ x ∈ executed, IsCopyOf endpoint x.1 x.2) ∧
      calendarsOf (session Γ endpoint false before operations weather).2.server.facilities =
        calendarsOf (serverRun Γ (serve Γ (.init false) before).state (executed.map Prod.snd)).facilities ∧
      ∀ x ∈ (session Γ endpoint false before operations weather).1, x.2 ≠ .failed → x.1 ∈ executed.map Prod.fst := by
  obtain ⟨ds, hdelivers, hhandled, hserver, hanswered⟩ :=
    session_delivers Γ endpoint false before weather hcount hfits
  obtain ⟨received, hreceived, hstate⟩ := exists_prefix_serve Γ before (.init false)
  rw [hstate] at hserver ⊢
  refine ⟨ds.firsts, ?_, hdelivers.isCopyOf, ?_, ?_⟩
  · rw [Deliveries.map_fst_firsts]
    exact hdelivers.inOrder
  · have hmay : ((session Γ endpoint false before operations weather).2.handled.map Event.uuid).Sublist
        (weather.flatMap (fun w => w.copies.map Prod.snd)) :=
      (List.sublist_append_left _ _).trans (uuids_perform _ _)
    rw [hhandled] at hmay
    have hdrawn : ([] ++ drawnAlong Γ (.init false) (received ++ Machine.flat ds.groups)).Nodup := by
      refine huuids.sublist ((drawnAlong_sublist Γ _ _).trans ?_)
      rw [List.map_append]
      exact (hreceived.sublist.map Event.uuid).append hmay
    rw [drawnAlong_append, ← List.append_assoc] at hdrawn
    have hids := (distinct_init false).run (List.Nodup.of_append_left hdrawn)
    rw [Deliveries.map_snd_firsts, hserver]
    refine calendarsOf_serverRun_flat hdelivers.areCopies ?_ hids (serverRun_checkHistory Γ received _) hdrawn
    intro g hg m booking hm hbooking
    obtain ⟨d, hd, rfl⟩ := List.mem_map.1 hg
    have hrequest : d.1 ∈ Cpp.numbered 0 operations := hdelivers.inOrder.subset (List.mem_map_of_mem hd)
    cases hm.symm.trans ((hdelivers.copies d hd).1.decoded (hfits d.1 hrequest))
    exact hproper d.1 hrequest booking hbooking
  · rw [Deliveries.map_fst_firsts]
    exact hanswered

theorem session_atLeastOnce_nine :
    ∃ executed : List (Cpp.RequestMessage × Event),
      (executed.map Prod.fst).Sublist (Cpp.numbered 0 bookNineOperation) ∧ (∀ x ∈ executed, IsCopyOf (twoClients true) x.1 x.2) ∧
      calendarsOf (session openJdk (twoClients true) false [bookElsewhere] bookNineOperation nineThrice).2.server.facilities =
        calendarsOf (serverRun openJdk (serve openJdk (.init false) [bookElsewhere]).state (executed.map Prod.snd)).facilities ∧
      ∀ x ∈ (session openJdk (twoClients true) false [bookElsewhere] bookNineOperation nineThrice).1, x.2 ≠ .failed →
        x.1 ∈ executed.map Prod.fst := by
  refine session_atLeastOnce openJdk (by decide) (List.forall_mem_singleton.2 (by decide +kernel)) ?_ nineThrice
    (by decide)
  refine List.forall_mem_singleton.2 fun booking hbooking => ?_
  have hasked : asked openJdk (decoded openJdk ⟨1, 0, Cpp.literal "Weekday1,MONDAY,9,0,10,0"⟩) = .book atNine := rfl
  rw [hasked] at hbooking
  cases hbooking
  decide

end

end FacilityBooking
