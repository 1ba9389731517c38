import FacilityBooking.Sessions
import FacilityBooking.Theorems.EndToEnd

/-!
# New operations and duplicates

The server tells requests apart by the sender's address and port and by the request ID, for as long as it runs; a client counts its
operations from zero, and the next client in its place counts from zero again. So the first request of an operation is executed as
long as no other operation from the same place has its number, up to the 32 bits of an ID, and the server's buffer holds it.
-/

namespace FacilityBooking

variable {ι : Type} (Γ : Jvm) (endpoint : ι → Endpoint)

namespace Reception

/-- A request for something else than an echo. -/
def IsOperation (r : Reception ι) : Prop := (decoded Γ r.letter.request).getOperation ≠ .ECHO

/-- The `switch` of the server is reached with the request that was made, and the history answers nothing. -/
def IsExecuted (r : Reception ι) : Prop := ∃ x, executed Γ r.server r.event = [x] ∧ x.request = decoded Γ r.letter.request

/-- The server's buffer holds the request. -/
def Fits (r : Reception ι) : Prop := (Cpp.JavaSerializer.serialize (some r.letter.request)).length ≤ bufferLength

/-- Two operations that come from one place and have one number, as far as an ID tells. -/
def Alike (r r' : Reception ι) : Prop :=
  (endpoint r.letter.call.session).address.address = (endpoint r'.letter.call.session).address.address ∧
    (endpoint r.letter.call.session).port = (endpoint r'.letter.call.session).port ∧
    r.letter.call.number % 2 ^ 32 = r'.letter.call.number % 2 ^ 32

end Reception

/-- The first request received for each operation, echoes apart, is executed. -/
def NeverMistaken (rs : List (Reception ι)) : Prop :=
  ∀ before r after, rs = before ++ r :: after → r.IsOperation Γ → (∀ r' ∈ before, r'.letter.call ≠ r.letter.call) →
    r.IsExecuted Γ

/-- Every request received, echoes apart, fits the buffer, and those that are alike are for one operation. -/
structure Unambiguous (rs : List (Reception ι)) : Prop where
  fits : ∀ r ∈ rs, r.IsOperation Γ → r.Fits
  alike : ∀ r ∈ rs, ∀ r' ∈ rs, r.IsOperation Γ → r'.IsOperation Γ → r.Alike endpoint r' → r.letter.call = r'.letter.call

section

variable {Γ endpoint}

/-- One more request received. -/
theorem neverMistaken_concat {rs : List (Reception ι)} {r : Reception ι} :
    NeverMistaken Γ (rs ++ [r]) ↔
      NeverMistaken Γ rs ∧ (r.IsOperation Γ → (∀ r' ∈ rs, r'.letter.call ≠ r.letter.call) → r.IsExecuted Γ) := by
  constructor
  · intro h
    refine ⟨?_, h rs r [] rfl⟩
    rintro before r' after rfl
    exact h before r' (after ++ [r]) (by rw [List.append_assoc, List.cons_append])
  · rintro ⟨h, hlast⟩ before r' after hsplit
    rcases List.eq_nil_or_concat after with rfl | ⟨after, x, rfl⟩
    · obtain ⟨rfl, hr⟩ := List.append_inj' hsplit rfl
      cases hr
      exact hlast
    · rw [List.concat_eq_append, ← List.cons_append, ← List.append_assoc] at hsplit
      exact h before r' after (List.append_inj' hsplit rfl).1

theorem Reception.Alike.symm {r r' : Reception ι} (h : r.Alike endpoint r') : r'.Alike endpoint r :=
  ⟨h.1.symm, h.2.1.symm, h.2.2.symm⟩

theorem unambiguous_concat {rs : List (Reception ι)} {r : Reception ι} :
    Unambiguous Γ endpoint (rs ++ [r]) ↔ Unambiguous Γ endpoint rs ∧ (r.IsOperation Γ →
      r.Fits ∧ ∀ r' ∈ rs, r'.IsOperation Γ → r'.Alike endpoint r → r'.letter.call = r.letter.call) := by
  have hold : ∀ r' ∈ rs, r' ∈ rs ++ [r] := fun r' => List.mem_append_left _
  have hnew : r ∈ rs ++ [r] := List.mem_append_right _ List.mem_cons_self
  constructor
  · intro h
    refine ⟨⟨fun r' hr' => h.fits r' (hold r' hr'), fun r' hr' r'' hr'' => h.alike r' (hold r' hr') r'' (hold r'' hr'')⟩, ?_⟩
    intro hasked
    exact ⟨h.fits r hnew hasked, fun r' hr' hasked' => h.alike r' (hold r' hr') r hnew hasked' hasked⟩
  · rintro ⟨h, hlast⟩
    constructor
    · intro r' hr' hasked
      rcases List.mem_append.1 hr' with hr' | hr'
      · exact h.fits r' hr' hasked
      · rw [List.mem_singleton] at hr'
        exact hr' ▸ (hlast (hr' ▸ hasked)).1
    · intro r' hr' r'' hr'' hasked' hasked'' halike
      rcases List.mem_append.1 hr' with hbefore' | hlast'
      · rcases List.mem_append.1 hr'' with hbefore'' | hlast''
        · exact h.alike r' hbefore' r'' hbefore'' hasked' hasked'' halike
        · obtain rfl := List.mem_singleton.1 hlast''
          exact (hlast hasked'').2 r' hbefore' hasked' halike
      · obtain rfl := List.mem_singleton.1 hlast'
        rcases List.mem_append.1 hr'' with hbefore'' | hlast''
        · exact ((hlast hasked').2 r'' hbefore'' hasked'' halike.symm).symm
        · rw [List.mem_singleton.1 hlast'']

end

/-! ## What is executed -/

section

variable {Γ endpoint} {r : Reception ι} {now : BitVec 64} {uuid : UUID}

/-- What the server decodes of a request that its buffer holds. -/
theorem Reception.deserializeMessage_of_fits (he : r.event = (r.letter.datagram endpoint).received now uuid) (hfits : r.Fits) :
    deserializeMessage Γ r.event.bytes = .ok (decoded Γ r.letter.request) := by
  have hbytes : r.event.bytes = Cpp.JavaSerializer.serialize (some r.letter.request) := by
    rw [he]
    exact List.take_of_length_le hfits
  rw [hbytes, deserializeMessage_serialize Γ hfits]

/-- Nothing is decoded of one that it does not hold. -/
theorem Reception.deserializeMessage_of_not_fits (he : r.event = (r.letter.datagram endpoint).received now uuid)
    (hsize : (Cpp.JavaSerializer.serialize (some r.letter.request)).length ≤ datagramLimit) (hfits : ¬r.Fits) :
    ∃ x, deserializeMessage Γ r.event.bytes = .error x := by
  have hbytes : r.event.bytes = (Cpp.JavaSerializer.serialize (some r.letter.request)).take bufferLength := by rw [he]; rfl
  rw [Reception.Fits, not_le] at hfits
  rw [hbytes]
  rw [Cpp.serialize_eq] at hsize hfits ⊢
  cases hdata : Cpp.nullIfEmpty r.letter.request.data with
  | none =>
    rw [hdata, Frame.withParity, Frame.payload_eq, List.length_append, List.length_append, Frame.length_header,
      List.length_singleton] at hfits
    exact absurd hfits (by decide)
  | some bs =>
    rw [hdata] at hsize hfits
    have hlimit : datagramLimit < 2 ^ 31 := by decide
    exact deserializeMessage_cut Γ _ _ ((Frame.length_data_lt.trans_le hsize).trans hlimit) (by decide) hfits

/-- A request is executed when it is for no echo, the buffer holds it, and its key is not in the history. -/
theorem Reception.executed_cases (he : r.event = (r.letter.datagram endpoint).received now uuid)
    (hsize : (Cpp.JavaSerializer.serialize (some r.letter.request)).length ≤ datagramLimit) (hmode : r.server.checkHistory = true) :
    ((r.IsOperation Γ ∧ r.Fits ∧ System.keyOf endpoint r.letter.call.session r.letter.request ∉
        r.server.requestHistory.map RequestInfo.key) ∧
      ∃ x, executed Γ r.server r.event = [x] ∧ x.request = decoded Γ r.letter.request ∧
        x.key = System.keyOf endpoint r.letter.call.session r.letter.request) ∨
    ¬(r.IsOperation Γ ∧ r.Fits ∧ System.keyOf endpoint r.letter.call.session r.letter.request ∉
        r.server.requestHistory.map RequestInfo.key) ∧ executed Γ r.server r.event = [] := by
  have hkey : r.event.key (decoded Γ r.letter.request) = System.keyOf endpoint r.letter.call.session r.letter.request := by
    rw [he]
    rfl
  by_cases hfits : r.Fits
  · have hm := r.deserializeMessage_of_fits (Γ := Γ) he hfits
    by_cases hasked : r.IsOperation Γ
    · by_cases hnew : replayOf r.server (decoded Γ r.letter.request) r.event = none
      · refine Or.inl ⟨⟨hasked, hfits, hkey ▸ (replayOf_eq_none_iff hmode).1 hnew⟩, ?_⟩
        exact ⟨_, executed_of_new hm hasked hnew, rfl, hkey⟩
      · refine Or.inr ⟨fun hall => hnew ((replayOf_eq_none_iff hmode).2 (hkey ▸ hall.2.2)), ?_⟩
        simp only [executed, hm, Option.isSome_iff_ne_none.2 hnew, or_true, if_true]
    · refine Or.inr ⟨fun hall => hasked hall.1, ?_⟩
      simp only [executed, hm, not_not.1 hasked, true_or, if_true]
  · obtain ⟨x, hx⟩ := r.deserializeMessage_of_not_fits (Γ := Γ) he hsize hfits
    refine Or.inr ⟨fun hall => hfits hall.2.1, ?_⟩
    simp only [executed, hx]

theorem Reception.isExecuted_iff (he : r.event = (r.letter.datagram endpoint).received now uuid)
    (hsize : (Cpp.JavaSerializer.serialize (some r.letter.request)).length ≤ datagramLimit) (hmode : r.server.checkHistory = true) :
    r.IsExecuted Γ ↔ r.IsOperation Γ ∧ r.Fits ∧
      System.keyOf endpoint r.letter.call.session r.letter.request ∉ r.server.requestHistory.map RequestInfo.key := by
  rcases r.executed_cases (Γ := Γ) he hsize hmode with ⟨hall, x, hx, hrequest, _⟩ | ⟨hnot, hnone⟩
  · exact iff_of_true ⟨x, hx, hrequest⟩ hall
  · refine iff_of_false ?_ hnot
    rintro ⟨x, hx, _⟩
    rw [hnone] at hx
    cases hx

/-- The keys of the history after a datagram that leaves the loop running: those of before, and those of what is executed. -/
theorem handleRequest_keys {s : ServerState} {e : Event} (h : (handleRequest Γ s e).result.isOk = true) :
    (handleRequest Γ s e).state.requestHistory.map RequestInfo.key =
      s.requestHistory.map RequestInfo.key ++ (executed Γ s e).map Execution.key := by
  have hhandling := handleRequest_handling Γ s e
  generalize handleRequest Γ s e = outcome at h hhandling ⊢
  cases hhandling with
  | undecodable x hm => simp only [executed, hm, List.map_nil, List.append_nil]; rfl
  | echo m hm ho => simp only [executed, hm, ho, true_or, if_true, List.map_nil, List.append_nil]; rfl
  | replay m prevRequest hm ho hp =>
    simp only [executed, hm, hp, Option.isSome_some, or_true, if_true, List.map_nil, List.append_nil]
    rfl
  | thrown m x => cases h
  | executed m r last monitors sent hm ho hp =>
    simp only [executed, hm, ho, hp, Option.isSome_none, Bool.false_eq_true, or_self, if_false, List.map_append, List.map_cons,
      List.map_nil]
    rfl

end

namespace Sessions

/-- What every interleaving keeps: what the letters are, what the receptions are of, and that the keys of the history are those of
the requests received, echoes and what the buffer does not hold apart. -/
structure Invariant (S : Sessions ι) : Prop where
  numbers : ∀ i, (S.system.clients i).Numbers
  atLast : ∀ i, (S.system.clients i).AtLast
  letters : ∀ letter ∈ S.letters,
    (S.system.clients letter.call.session).requests[letter.call.number]? = some letter.request ∧
      (Cpp.JavaSerializer.serialize (some letter.request)).length ≤ datagramLimit
  receptions : ∀ r ∈ S.receptions, r.letter ∈ S.letters
  checkHistory : S.system.server.checkHistory = true
  history : S.system.running = true → ∀ k, k ∈ S.system.server.requestHistory.map RequestInfo.key ↔
    ∃ r ∈ S.receptions, r.IsOperation Γ ∧ r.Fits ∧ k = System.keyOf endpoint r.letter.call.session r.letter.request

section

variable {Γ endpoint} {S : Sessions ι}

theorem invariant_init : (init : Sessions ι).Invariant Γ endpoint where
  numbers := fun _ => ⟨rfl, rfl⟩
  atLast := by
    rintro i request attempt (h | h)
    · cases h
    · cases h
  letters := fun _ h => absurd h List.not_mem_nil
  receptions := fun _ h => absurd h List.not_mem_nil
  checkHistory := rfl
  history := by
    intro _ k
    refine iff_of_false List.not_mem_nil ?_
    rintro ⟨r, hr, _⟩
    exact absurd hr List.not_mem_nil

/-- A letter is sent that is of a request made. -/
theorem Invariant.post (h : S.Invariant Γ endpoint) {letter : Letter ι}
    (hrequest : (S.system.clients letter.call.session).requests[letter.call.number]? = some letter.request)
    (hsize : (Cpp.JavaSerializer.serialize (some letter.request)).length ≤ datagramLimit) :
    (S.post endpoint letter).Invariant Γ endpoint := by
  refine ⟨h.numbers, h.atLast, ?_, fun r hr => List.mem_append_left _ (h.receptions r hr), h.checkHistory, h.history⟩
  intro letter' hletter'
  rcases List.mem_append.1 hletter' with hletter' | hletter'
  · exact h.letters letter' hletter'
  · obtain rfl := List.mem_singleton.1 hletter'
    exact ⟨hrequest, hsize⟩

/-- A letter is received: its key is in the history then, unless it is for an echo or the buffer does not hold it. -/
theorem Invariant.serve (h : S.Invariant Γ endpoint) (hrunning : S.system.running = true) {letter : Letter ι}
    (hletter : letter ∈ S.letters) (now : BitVec 64) (uuid : UUID) :
    (S.serve Γ letter ((letter.datagram endpoint).received now uuid)).Invariant Γ endpoint := by
  generalize he : (letter.datagram endpoint).received now uuid = e
  have hcases := Reception.executed_cases (Γ := Γ) (r := ⟨letter, S.system.server, e⟩) he.symm (h.letters letter hletter).2
    h.checkHistory
  refine ⟨h.numbers, h.atLast, h.letters, ?_, (handleRequest_checkHistory Γ S.system.server e).trans h.checkHistory, ?_⟩
  · intro r hr
    rcases List.mem_append.1 hr with hr | hr
    · exact h.receptions r hr
    · rw [List.mem_singleton] at hr
      exact hr ▸ hletter
  · intro hrunning' k
    have hkeys := handleRequest_keys hrunning'
    have hold := h.history hrunning
    show k ∈ (handleRequest Γ S.system.server e).state.requestHistory.map RequestInfo.key ↔ _
    rw [hkeys, List.mem_append, hold]
    constructor
    · rintro (⟨r, hr, hr'⟩ | hnew)
      · exact ⟨r, List.mem_append_left _ hr, hr'⟩
      · rcases hcases with ⟨⟨hasked, hfits, _⟩, x, hx, _, hkey⟩ | ⟨_, hnone⟩
        · rw [hx, List.map_cons, List.map_nil, List.mem_singleton] at hnew
          exact ⟨_, List.mem_append_right _ List.mem_cons_self, hasked, hfits, hnew.trans hkey⟩
        · rw [hnone] at hnew
          exact absurd hnew List.not_mem_nil
    · rintro ⟨r, hr, hasked, hfits, rfl⟩
      rcases List.mem_append.1 hr with hr | hr
      · exact Or.inl ⟨r, hr, hasked, hfits, rfl⟩
      · obtain rfl := List.mem_singleton.1 hr
        rcases hcases with ⟨_, x, hx, _, hkey⟩ | ⟨hnot, _⟩
        · refine Or.inr ?_
          rw [hx, List.map_cons, List.map_nil, List.mem_singleton]
          exact hkey.symm
        · rw [← hold]
          exact Or.inl (by_contra fun hkey => hnot ⟨hasked, hfits, hkey⟩)

/-- Requests with one number are of one operation, as far as the server can tell. -/
theorem Invariant.alike_iff (h : S.Invariant Γ endpoint) {r r' : Reception ι} (hr : r.letter ∈ S.letters)
    (hr' : r'.letter ∈ S.letters) :
    r.Alike endpoint r' ↔ System.keyOf endpoint r.letter.call.session r.letter.request =
      System.keyOf endpoint r'.letter.call.session r'.letter.request := by
  have hid := (h.numbers _).requestID (h.letters _ hr).1
  have hid' := (h.numbers _).requestID (h.letters _ hr').1
  have hnumber : BitVec.ofNat 32 r.letter.call.number = BitVec.ofNat 32 r'.letter.call.number ↔
      r.letter.call.number % 2 ^ 32 = r'.letter.call.number % 2 ^ 32 := by
    rw [← BitVec.toNat_inj, BitVec.toNat_ofNat, BitVec.toNat_ofNat]
  rw [System.keyOf, System.keyOf, RequestKey.mk.injEq, hid, hid', hnumber]
  constructor
  · rintro ⟨haddress, hport, hn⟩
    exact ⟨hn, haddress, hport⟩
  · rintro ⟨hn, haddress, hport⟩
    exact ⟨haddress, hport, hn⟩

/-- Letters for one operation are one letter. -/
theorem Invariant.eq_of_call (h : S.Invariant Γ endpoint) {letter letter' : Letter ι} (hletter : letter ∈ S.letters)
    (hletter' : letter' ∈ S.letters) (hcall : letter.call = letter'.call) : letter = letter' := by
  obtain ⟨call, request⟩ := letter
  obtain ⟨call', request'⟩ := letter'
  obtain rfl : call = call' := hcall
  have hrequest := (h.letters _ hletter).1.symm.trans (h.letters _ hletter').1
  exact congrArg (Letter.mk call) (Option.some.inj hrequest)

/-- After requests that are no two alike, one is executed, if it is the first for its operation, exactly when it fits the buffer and
is like none before. -/
theorem Invariant.executed_iff (h : S.Invariant Γ endpoint) (hrunning : S.system.running = true)
    (hbefore : Unambiguous Γ endpoint S.receptions) {r : Reception ι} (hr : r.letter ∈ S.letters)
    (hserver : r.server = S.system.server) {now : BitVec 64} {uuid : UUID}
    (he : r.event = (r.letter.datagram endpoint).received now uuid) :
    (r.IsOperation Γ → (∀ r' ∈ S.receptions, r'.letter.call ≠ r.letter.call) → r.IsExecuted Γ) ↔
      (r.IsOperation Γ →
        r.Fits ∧ ∀ r' ∈ S.receptions, r'.IsOperation Γ → r'.Alike endpoint r → r'.letter.call = r.letter.call) := by
  have hexecuted := r.isExecuted_iff (Γ := Γ) he (h.letters _ hr).2 (hserver ▸ h.checkHistory)
  rw [hexecuted, hserver, h.history hrunning]
  refine forall_congr' fun hasked => ⟨fun hfirst => ?_, ?_⟩
  · by_cases hnew : ∀ r' ∈ S.receptions, r'.letter.call ≠ r.letter.call
    · obtain ⟨_, hfits, hkey⟩ := hfirst hnew
      refine ⟨hfits, fun r' hr' hasked' halike => absurd ⟨r', hr', hasked', hbefore.fits r' hr' hasked', ?_⟩ hkey⟩
      exact ((h.alike_iff (h.receptions r' hr') hr).1 halike).symm
    · -- the operation was received before, in the same letter
      simp only [not_forall, not_not] at hnew
      obtain ⟨r₀, hr₀, hcall⟩ := hnew
      have hletter := h.eq_of_call (h.receptions r₀ hr₀) hr hcall
      have hasked₀ : r₀.IsOperation Γ := by rwa [Reception.IsOperation, hletter]
      refine ⟨?_, fun r' hr' hasked' halike => ?_⟩
      · have hfits := hbefore.fits r₀ hr₀ hasked₀
        rwa [Reception.Fits, hletter] at hfits
      · rw [Reception.Alike, ← hletter] at halike
        exact (hbefore.alike r' hr' r₀ hr₀ hasked' hasked₀ halike).trans hcall
  · rintro ⟨hfits, honly⟩ hnew
    refine ⟨hasked, hfits, ?_⟩
    rintro ⟨r', hr', hasked', _, hkey⟩
    exact hnew r' hr' (honly r' hr' hasked' ((h.alike_iff (h.receptions r' hr') hr).2 hkey.symm))

/-- A request with the key of one received before is not executed. -/
theorem Invariant.not_isExecuted (h : S.Invariant Γ endpoint) (hrunning : S.system.running = true) {letter : Letter ι}
    (hletter : letter ∈ S.letters) {r : Reception ι} (hr : r ∈ S.receptions) (hasked : r.IsOperation Γ) (hfits : r.Fits)
    (hkey : System.keyOf endpoint letter.call.session letter.request =
      System.keyOf endpoint r.letter.call.session r.letter.request) (now : BitVec 64) (uuid : UUID) :
    ¬Reception.IsExecuted Γ ⟨letter, S.system.server, (letter.datagram endpoint).received now uuid⟩ := by
  intro hexecuted
  have hnew := ((Reception.isExecuted_iff rfl (h.letters letter hletter).2 h.checkHistory).1 hexecuted).2.2
  exact hnew ((h.history hrunning _).2 ⟨r, hr, hasked, hfits, hkey⟩)

variable [DecidableEq ι]

/-- A session goes further. -/
theorem Invariant.withStage (h : S.Invariant Γ endpoint) (i : ι) (stage : Stage) : (S.withStage i stage).Invariant Γ endpoint :=
  ⟨h.numbers, h.atLast, h.letters, h.receptions, h.checkHistory, h.history⟩

/-- A client does something: the requests it has made stay. -/
theorem Invariant.withClient (h : S.Invariant Γ endpoint) {i : ι} {c : Cpp.Client} (hnumbers : c.Numbers) (hatLast : c.AtLast)
    (hstays : ∀ (n : Nat) (request : Cpp.RequestMessage), (S.system.clients i).requests[n]? = some request → c.requests[n]? = some request) :
    (S.withClient i c).Invariant Γ endpoint := by
  refine ⟨?_, ?_, ?_, h.receptions, h.checkHistory, h.history⟩
  · intro j
    rcases eq_or_ne j i with rfl | hj
    · rw [Sessions.withClient, System.withClient_self]
      exact hnumbers
    · rw [Sessions.withClient, System.withClient_of_ne S.system c hj]
      exact h.numbers j
  · intro j
    rcases eq_or_ne j i with rfl | hj
    · rw [Sessions.withClient, System.withClient_self]
      exact hatLast
    · rw [Sessions.withClient, System.withClient_of_ne S.system c hj]
      exact h.atLast j
  · intro letter hletter
    refine ⟨?_, (h.letters letter hletter).2⟩
    rcases eq_or_ne letter.call.session i with hj | hj
    · rw [Sessions.withClient, hj, System.withClient_self]
      exact hstays _ _ (hj ▸ (h.letters letter hletter).1)
    · rw [Sessions.withClient, System.withClient_of_ne S.system c hj]
      exact (h.letters letter hletter).1

/-- Every step keeps the invariant. -/
theorem Invariant.step (h : S.Invariant Γ endpoint) {S' : Sessions ι} (hstep : Step Γ endpoint S S') :
    S'.Invariant Γ endpoint := by
  cases hstep with
  | opens i => exact h.withStage i .opened
  | closes i => exact h.withStage i .closed
  | call i requestType data hstage hphase =>
    refine h.withClient ((h.numbers i).call hphase requestType data) (Cpp.Client.AtLast.call _ requestType data) ?_
    intro n request hrequest
    exact (List.getElem?_append_left (List.getElem?_eq_some_iff.1 hrequest).1).trans hrequest
  | send i request attempt hstage hphase hsize =>
    refine (h.withClient ((h.numbers i).sendRequest hphase) ((h.atLast i).sendRequest hphase) fun _ _ hr => hr).post ?_ hsize
    show ((S.withClient i _).system.clients i).requests[_]? = some request
    rw [Sessions.withClient, System.withClient_self]
    exact h.atLast i request attempt (Or.inl hphase)
  | serve letter hletter now uuid hrunning => exact h.serve hrunning hletter now uuid
  | receive i request attempt d hstage hphase =>
    refine h.withClient ((h.numbers i).receive hphase _) ((h.atLast i).receive hphase _) fun n request' hr => ?_
    rwa [Cpp.Client.receive_requests]
  | timeout i request attempt hstage hphase =>
    refine h.withClient ((h.numbers i).receive hphase _) ((h.atLast i).receive hphase _) fun n request' hr => ?_
    rwa [Cpp.Client.receive_requests]

theorem invariant_reachable (h : Reachable Γ endpoint S) : S.Invariant Γ endpoint := by
  induction h with
  | refl => exact invariant_init
  | tail _ hstep ih => exact ih.step hstep

end

end Sessions

/-- In every run, the first request that the server receives for each operation other than an echo is executed, exactly when every
request received fits the server's buffer and no two of different operations come from one place with one number. -/
theorem neverMistaken_iff [DecidableEq ι] (S : Sessions ι) (h : Sessions.Reachable Γ endpoint S) :
    NeverMistaken Γ S.receptions ↔ Unambiguous Γ endpoint S.receptions := by
  induction h with
  | refl =>
    refine iff_of_true ?_ ⟨fun _ hr => absurd hr List.not_mem_nil, fun _ hr => absurd hr List.not_mem_nil⟩
    intro before r after hsplit
    exact absurd hsplit.symm (List.append_ne_nil_of_right_ne_nil _ (List.cons_ne_nil _ _))
  | tail hreachable hstep ih =>
    cases hstep with
    | serve letter hletter now uuid hrunning =>
      have hinv := Sessions.invariant_reachable hreachable
      refine neverMistaken_concat.trans (Iff.trans ?_ unambiguous_concat.symm)
      rw [ih]
      exact and_congr_right fun hbefore => hinv.executed_iff hrunning hbefore hletter rfl rfl
    | opens => exact ih
    | closes => exact ih
    | call => exact ih
    | send => exact ih
    | receive => exact ih
    | timeout => exact ih

/-- That is so where no two sessions receive in one place, no session makes more than 2³² operations and every request fits. -/
theorem unambiguous_of_distinct [DecidableEq ι] (hendpoint : System.Distinct endpoint) {S : Sessions ι}
    (h : Sessions.Reachable Γ endpoint S) (hcount : ∀ i, (S.system.clients i).requests.length ≤ 2 ^ 32)
    (hfits : ∀ r ∈ S.receptions, r.Fits) : Unambiguous Γ endpoint S.receptions := by
  have hinv := Sessions.invariant_reachable h
  have hnumber : ∀ r ∈ S.receptions, r.letter.call.number < 2 ^ 32 := by
    intro r hr
    have hrequest := (hinv.letters r.letter (hinv.receptions r hr)).1
    exact (List.getElem?_eq_some_iff.1 hrequest).1.trans_le (hcount _)
  refine ⟨fun r hr _ => hfits r hr, ?_⟩
  rintro r hr r' hr' - - ⟨haddress, hport, hmod⟩
  rw [Nat.mod_eq_of_lt (hnumber r hr), Nat.mod_eq_of_lt (hnumber r' hr')] at hmod
  obtain ⟨⟨⟨i, n⟩, request⟩, server, event⟩ := r
  obtain ⟨⟨⟨j, n'⟩, request'⟩, server', event'⟩ := r'
  obtain rfl : i = j := hendpoint i j haddress hport
  obtain rfl : n = n' := hmod
  rfl

/-! ## A session in the place of another -/

/-- Two sessions, one after the other in one place. The first asks for a rating, the second books. -/
def onePlace (_ : Bool) : Endpoint := twoClients true
def askBooking : Cpp.RequestMessage := ⟨1, 0, Cpp.literal "Weekday1,MONDAY,9,0,10,0"⟩
def ratingLetter : Letter Bool := ⟨⟨false, 0⟩, askRating⟩
def bookingLetter : Letter Bool := ⟨⟨true, 0⟩, askBooking⟩

/-- The first session, as it is made, asks, and is closed after the server has answered it. -/
def ratingWaiting : Sessions Bool :=
  (Sessions.init.withStage false .opened).withClient false (Cpp.Client.new.call askRating.requestType askRating.data)
def ratingPosted : Sessions Bool :=
  (ratingWaiting.withClient false ((ratingWaiting.system.clients false).sendRequest askRating 0)).post onePlace ratingLetter
def ratingDone : Sessions Bool :=
  (ratingPosted.serve openJdk ratingLetter ((ratingLetter.datagram onePlace).received 0 ⟨0, 0⟩)).withStage false .closed

/-- The second session, as it is made, asks, and is answered. -/
def bookingWaiting : Sessions Bool :=
  (ratingDone.withStage true .opened).withClient true (Cpp.Client.new.call askBooking.requestType askBooking.data)
def bookingPosted : Sessions Bool :=
  (bookingWaiting.withClient true ((bookingWaiting.system.clients true).sendRequest askBooking 0)).post onePlace bookingLetter
def bookingDone : Sessions Bool :=
  bookingPosted.serve openJdk bookingLetter ((bookingLetter.datagram onePlace).received 0 ⟨0, 0⟩)

theorem reachable_bookingPosted : Sessions.Reachable openJdk onePlace bookingPosted := by
  have hlimit : bufferLength ≤ datagramLimit := by decide
  have hbooking : (Cpp.JavaSerializer.serialize (some askBooking)).length ≤ datagramLimit := by decide +kernel
  have hposted : Sessions.Reachable openJdk onePlace ratingPosted := by
    refine ((Relation.ReflTransGen.refl.tail (.opens false rfl ?_)).tail (.call false 0 askRating.data rfl rfl)).tail
      (.send false askRating 0 rfl rfl (askRating_fits.trans hlimit))
    intro j hj
    cases hj
  refine ((((hposted.tail (.serve ratingLetter List.mem_cons_self 0 ⟨0, 0⟩ rfl)).tail (.closes false rfl)).tail
    (.opens true rfl ?_)).tail (.call true 1 askBooking.data rfl rfl)).tail (.send true askBooking 0 rfl rfl hbooking)
  intro j hj
  cases j <;> cases hj

theorem bookingPosted_running : bookingPosted.system.running = true := by
  have hserver : ratingPosted.system.server = .init true := rfl
  have hevent : (ratingLetter.datagram onePlace).received 0 ⟨0, 0⟩ = ratingReceived := rfl
  simp only [bookingPosted, bookingWaiting, ratingDone, Sessions.post, Sessions.withClient, Sessions.withStage, Sessions.serve,
    System.post, System.withClient, System.serve, hevent, hserver, ratingReceived_result]
  rfl

theorem reachable_bookingDone : Sessions.Reachable openJdk onePlace bookingDone := by
  refine reachable_bookingPosted.tail (.serve bookingLetter ?_ 0 ⟨0, 0⟩ bookingPosted_running)
  exact List.mem_append_right _ List.mem_cons_self

theorem neverMistaken_iff_bookingDone :
    NeverMistaken openJdk bookingDone.receptions ↔ Unambiguous openJdk onePlace bookingDone.receptions :=
  neverMistaken_iff openJdk onePlace bookingDone reachable_bookingDone

/-- The booking of the second session is answered from the history, since the first has asked for a rating under its ID. -/
theorem not_neverMistaken :
    ¬∀ (endpoint : Bool → Endpoint) (S : Sessions Bool), Sessions.Reachable openJdk endpoint S →
      NeverMistaken openJdk S.receptions := by
  intro h
  have hinv := Sessions.invariant_reachable reachable_bookingPosted
  have hasked : (decoded openJdk askRating).getOperation ≠ .ECHO := by decide
  have hasked' : (decoded openJdk askBooking).getOperation ≠ .ECHO := by decide
  have hcall : ratingLetter.call ≠ bookingLetter.call := fun hcall => Bool.false_ne_true (congrArg Call.session hcall)
  have hexecuted := h onePlace bookingDone reachable_bookingDone bookingPosted.receptions
    ⟨bookingLetter, bookingPosted.system.server, (bookingLetter.datagram onePlace).received 0 ⟨0, 0⟩⟩ [] rfl hasked'
    (List.forall_mem_singleton.2 hcall)
  exact hinv.not_isExecuted bookingPosted_running (List.mem_append_right _ List.mem_cons_self) List.mem_cons_self hasked
    askRating_fits rfl 0 ⟨0, 0⟩ hexecuted

end FacilityBooking
