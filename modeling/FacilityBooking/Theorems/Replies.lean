import FacilityBooking.Runs

/-!
# Whether a response is labelled as its request

A response repeats the ID of its request, and it should repeat its operation. An update that is refused because the slot is taken
is answered as a `WRITE`, and a registration that names no facility, or is one piece only, as a `READ`.
-/

namespace FacilityBooking

/-- The operation of a request, by its code. -/
theorem requestType_of_getOperation {m : RequestMessage} {op : Operation} (h : m.getOperation = op) (hop : op ≠ .NONE) :
    m.requestType = op.getOpCode := by
  unfold RequestMessage.getOperation Operation.fromInt at h
  cases hfind : Operation.values.find? (fun op => decide (op.getOpCode = m.requestType)) with
  | none =>
    rw [hfind] at h
    exact absurd h.symm hop
  | some op' =>
    rw [hfind] at h
    obtain rfl : op' = op := h
    have hcode := List.find?_some hfind
    exact (of_decide_eq_true hcode).symm

/-- The codes from 0 to 5 are those of the operations from `READ` to `ECHO`. -/
theorem getOperation_of_code {m : RequestMessage} (h : 0 ≤ m.requestType.toInt ∧ m.requestType.toInt ≤ 5) :
    m.getOperation ∈ [Operation.READ, .WRITE, .UPDATE, .DELETE, .MONITOR, .ECHO] := by
  have hofInt := BitVec.ofInt_toInt (x := m.requestType)
  have hcodes : m.requestType.toInt ∈ [0, 1, 2, 3, 4, 5] := by
    simp only [List.mem_cons, List.not_mem_nil, or_false]
    omega
  unfold RequestMessage.getOperation
  rw [← hofInt]
  revert hcodes
  generalize m.requestType.toInt = code
  intro hcodes
  simp only [List.mem_cons, List.not_mem_nil, or_false] at hcodes
  rcases hcodes with rfl | rfl | rfl | rfl | rfl | rfl <;> decide

/-- Whatever a handler answers is labelled as that operation. -/
def Labels (op : Operation) (handled : Handled) : Prop := ∀ r, handled.2 = .ok r → r.requestType = op.getOpCode

theorem labels_ok_iff {op : Operation} {s : ServerState} {r : RequestMessage} :
    Labels op (s, .ok r) ↔ r.requestType = op.getOpCode := by
  refine ⟨fun h => h r rfl, ?_⟩
  intro h r' hr'
  cases hr'
  exact h

theorem labels_error (op : Operation) (s : ServerState) (x : JavaException) : Labels op (s, .error x) := by
  intro r hr
  cases hr

/-- The handler of a block labels what it answers as the block does. -/
theorem labels_tryCatch_iff {Γ : Jvm} {op : Operation} {m : RequestMessage} {handled : Handled} :
    Labels op (tryCatch Γ op m handled) ↔ Labels op handled := by
  obtain ⟨s, result⟩ := handled
  cases result with
  | ok r => exact Iff.rfl
  | error x => exact iff_of_true (labels_ok_iff.2 rfl) (labels_error op s x)

section

variable (Γ : Jvm) (s : ServerState) (m : RequestMessage) (e : Event)

theorem bookFacility_labels : Labels .WRITE (bookFacility Γ s m e) := by
  unfold bookFacility
  cases parseBookingDetails Γ m.data with
  | error x => exact labels_error _ _ _
  | ok booking =>
    dsimp only
    split
    · exact labels_ok_iff.2 rfl
    · split
      · exact labels_ok_iff.2 rfl
      · exact labels_ok_iff.2 rfl

theorem deleteBooking_labels : Labels .DELETE (deleteBooking s m e) := by
  unfold deleteBooking
  cases parseDelete m.data with
  | error x => exact labels_error _ _ _
  | ok p =>
    dsimp only
    split
    · exact labels_ok_iff.2 rfl
    · exact labels_ok_iff.2 rfl

theorem addRating_labels : Labels .UPDATE (addRating Γ s m e) := by
  unfold addRating
  cases parseRating Γ m.data with
  | error x => exact labels_error _ _ _
  | ok p =>
    dsimp only
    split
    · exact labels_error _ _ _
    · exact labels_ok_iff.2 rfl

/-- The update is for a slot of a facility that is there, and the slot is not free. -/
def RefusesSlot : Prop :=
  ∃ booking f, parseUpdateBookingDetails Γ m.data = .ok booking ∧ getFacility s.facilities booking.facilityName = some f ∧
    f.availability.isAvailable booking.timeSlot = false

theorem updateBooking_labels_iff : Labels .UPDATE (updateBooking Γ s m e) ↔ ¬RefusesSlot Γ s m := by
  unfold updateBooking RefusesSlot
  cases parseUpdateBookingDetails Γ m.data with
  | error x => exact iff_of_true (labels_error _ _ _) (by rintro ⟨_, _, h, _⟩; cases h)
  | ok booking =>
    cases hf : getFacility s.facilities booking.facilityName with
    | none =>
      refine iff_of_true (by simp only [hf]; exact labels_ok_iff.2 rfl) ?_
      rintro ⟨_, _, h, hf', _⟩
      cases h
      rw [hf] at hf'
      cases hf'
    | some f =>
      cases ha : f.availability.isAvailable booking.timeSlot with
      | true =>
        refine iff_of_true (by simp only [hf, ha, if_true]; exact labels_ok_iff.2 rfl) ?_
        rintro ⟨_, _, h, hf', ha'⟩
        cases h
        cases hf.symm.trans hf'
        exact Bool.false_ne_true (ha'.symm.trans ha)
      | false =>
        refine iff_of_false ?_ (not_not_intro ⟨booking, f, rfl, hf, ha⟩)
        simp only [hf, ha, Bool.false_eq_true, if_false, labels_ok_iff]
        decide

theorem update_labels_iff :
    Labels .UPDATE (update Γ s m e) ↔ ¬(parseUpdateType m.data = .ok "booking".toList ∧ RefusesSlot Γ s m) := by
  unfold update
  cases parseUpdateType m.data with
  | error x => exact iff_of_true (labels_error _ _ _) (by rintro ⟨h, _⟩; cases h)
  | ok updateType =>
    by_cases hb : updateType = "booking".toList
    · simp only [hb, if_true, true_and]
      exact updateBooking_labels_iff Γ s m e
    · refine iff_of_true ?_ (by rintro ⟨h, _⟩; exact hb (Except.ok.inj h))
      simp only [hb, if_false]
      split
      · exact addRating_labels Γ s m e
      · exact labels_ok_iff.2 rfl

/-- The registration is one piece only, or is for a facility that is not there. -/
def Misregisters : Prop :=
  ∃ parts, splitData m.data = .ok parts ∧ (parts.length = 1 ∨ getIndex parts 0 = .ok "register".toList ∧
    ∃ facilityName monitorInterval, parseRegistration Γ parts = .ok (facilityName, monitorInterval) ∧
      getFacility s.facilities facilityName = none)

theorem monitor_labels_iff : Labels .MONITOR (monitor Γ s m e) ↔ ¬Misregisters Γ s m := by
  unfold monitor Misregisters
  cases splitData m.data with
  | error x => exact iff_of_true (labels_error _ _ _) (by rintro ⟨_, h, _⟩; cases h)
  | ok parts =>
    simp only [Except.ok.injEq, exists_eq_left']
    by_cases hl : parts.length = 1
    · refine iff_of_false ?_ (not_not_intro (Or.inl hl))
      simp only [hl, if_true, labels_ok_iff]
      decide
    · simp only [hl, if_false, false_or]
      cases getIndex parts 0 with
      | error x => exact iff_of_true (labels_error _ _ _) (by rintro ⟨h, _⟩; cases h)
      | ok kind =>
        by_cases hk : kind = "register".toList
        · simp only [hk, if_true, true_and]
          cases parseRegistration Γ parts with
          | error x => exact iff_of_true (labels_error _ _ _) (by rintro ⟨_, _, h, _⟩; cases h)
          | ok p =>
            cases hf : getFacility s.facilities p.1 with
            | none =>
              refine iff_of_false ?_ (not_not_intro ⟨p.1, p.2, rfl, hf⟩)
              simp only [hf, labels_ok_iff]
              decide
            | some f =>
              refine iff_of_true (by simp only [hf]; exact labels_ok_iff.2 rfl) ?_
              rintro ⟨_, _, h, hf'⟩
              cases h
              rw [hf] at hf'
              cases hf'
        · refine iff_of_true (by simp only [hk, if_false]; exact labels_ok_iff.2 rfl) ?_
          rintro ⟨h, _⟩
          exact hk (Except.ok.inj h)

/-- The requests whose response is labelled as another operation. -/
def Mislabelled : Prop :=
  m.getOperation = .UPDATE ∧ parseUpdateType m.data = .ok "booking".toList ∧ RefusesSlot Γ s m ∨
    m.getOperation = .MONITOR ∧ Misregisters Γ s m

theorem dispatch_labels_iff (h : m.getOperation ∈ [Operation.READ, .WRITE, .UPDATE, .DELETE, .MONITOR]) :
    Labels m.getOperation (dispatch Γ s m e) ↔ ¬Mislabelled Γ s m := by
  unfold dispatch Mislabelled
  cases ho : m.getOperation with
  | READ =>
    refine iff_of_true ?_ (by simp)
    intro r hr
    cases hd : readData Γ s.facilities m.data with
    | error x =>
      rw [hd] at hr
      cases hr
    | ok d =>
      rw [hd] at hr
      cases hr
      rfl
  | WRITE => exact iff_of_true (labels_tryCatch_iff.2 (bookFacility_labels Γ s m e)) (by simp)
  | UPDATE => simp only [labels_tryCatch_iff, update_labels_iff, true_and, reduceCtorEq, false_and, or_false]
  | DELETE => exact iff_of_true (labels_tryCatch_iff.2 (deleteBooking_labels s m e)) (by simp)
  | MONITOR => simp only [labels_tryCatch_iff, monitor_labels_iff, true_and, reduceCtorEq, false_and, false_or]
  | NONE => exact absurd (ho ▸ h) (by decide)
  | ECHO => exact absurd (ho ▸ h) (by decide)
  | RATING => exact absurd (ho ▸ h) (by decide)

end

/-- The response to a request of one of the operations `READ` to `ECHO` that repeats none, if there is one, has its operation and
its ID exactly when the request is none of these. -/
theorem response_matches_iff (Γ : Jvm) (s : ServerState) (e : Event) (m : RequestMessage)
    (hm : deserializeMessage Γ e.bytes = .ok m) (hcode : 0 ≤ m.requestType.toInt ∧ m.requestType.toInt ≤ 5)
    (hnew : m.getOperation ≠ .ECHO → replayOf s m e = none) :
    (∀ r, (handleRequest Γ s e).result = .ok r → r.requestType = m.requestType ∧ r.requestID = m.requestID) ↔
      ¬Mislabelled Γ s m := by
  have hop := getOperation_of_code hcode
  by_cases ho : m.getOperation = .ECHO
  · refine iff_of_true ?_ (by simp [Mislabelled, ho])
    intro r hr
    rw [handleRequest_of_echo hm ho] at hr
    cases hr
    exact ⟨rfl, rfl⟩
  · have hop' : m.getOperation ∈ [Operation.READ, .WRITE, .UPDATE, .DELETE, .MONITOR] := by
      revert hop ho
      generalize m.getOperation = op
      cases op <;> decide
    have htype : m.requestType = m.getOperation.getOpCode := by
      refine requestType_of_getOperation rfl fun hnone => ?_
      rw [hnone] at hop'
      revert hop'
      decide
    have hmislabelled : Mislabelled Γ s m ↔ Mislabelled Γ s.reset m := Iff.rfl
    rw [handleRequest_of_new hm ho (hnew ho), execute_result, hmislabelled, ← dispatch_labels_iff Γ s.reset m e hop', Labels,
      htype]
    refine forall_congr' fun r => imp_congr_right fun hr => ?_
    refine and_iff_left ?_
    rcases dispatch_cases Γ s.reset m e with ⟨x, _, _, hrun⟩ | ⟨last, r', hanswers, hrun⟩
    · rw [hrun] at hr
      cases hr
    · rw [hrun] at hr
      cases hr
      exact hanswers.requestID

/-- A registration for a facility that is not there. -/
def registerNowhere : RequestMessage := ⟨4, 7, some "register,Nowhere,60".toList⟩

theorem response_matches_iff_registerNowhere :
    (∀ r, (handleRequest openJdk (.init true) (.sent 5000 registerNowhere ⟨0, 0⟩)).result = .ok r →
      r.requestType = registerNowhere.requestType ∧ r.requestID = registerNowhere.requestID) ↔
      ¬Mislabelled openJdk (.init true) registerNowhere := by
  refine response_matches_iff openJdk (.init true) (.sent 5000 registerNowhere ⟨0, 0⟩) registerNowhere ?_ (by decide)
    (fun _ => rfl)
  exact deserializeMessage_frame openJdk registerNowhere fun t ht => by cases ht; decide

/-- It is answered as a `READ`. -/
theorem response_not_matches :
    ¬∀ s, Reachable openJdk true s → ∀ (e : Event) (m r : RequestMessage), deserializeMessage openJdk e.bytes = .ok m →
      0 ≤ m.requestType.toInt ∧ m.requestType.toInt ≤ 5 → replayOf s m e = none → (handleRequest openJdk s e).result = .ok r →
      r.requestType = m.requestType ∧ r.requestID = m.requestID := by
  intro h
  have hm : deserializeMessage openJdk (Event.sent 5000 registerNowhere ⟨0, 0⟩).bytes = .ok registerNowhere :=
    deserializeMessage_frame openJdk registerNowhere fun t ht => by cases ht; decide
  have hresult : (handleRequest openJdk (.init true) (.sent 5000 registerNowhere ⟨0, 0⟩)).result =
      .ok ⟨0, 7, error "Invalid facilityName provided".toList⟩ := by
    rw [handleRequest_of_new hm (by decide) rfl, execute_result]
    rfl
  have hmatch := (h (.init true) .start _ _ _ hm (by decide) rfl hresult).1
  revert hmatch
  decide

end FacilityBooking
