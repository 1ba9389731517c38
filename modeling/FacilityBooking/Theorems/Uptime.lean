import FacilityBooking.Client.Prompts
import FacilityBooking.Theorems.Answers
import FacilityBooking.Theorems.Survival

/-!
# When the server is stopped

The exception of a request ends the server's loop for all clients. Of what the dialogs ask of a client, only a query of the availability
of a facility has one: when the name entered goes on after a comma with a word that is no day.
-/

namespace FacilityBooking

open Cpp Cpp.UserInterface

/-! ## What is entered -/

/-- What a prompt returns, a round has returned. -/
theorem prompt_returns {α β : Type} {round : α → Prompted β} {value : β} {typed : List α} (h : prompt round typed = some (.returns value)) :
    ∃ input ∈ typed, round input = .returns value := by
  induction typed with
  | nil => cases h
  | cons input typed ih =>
    unfold prompt at h
    cases hround : round input with
    | returns value' =>
      rw [hround] at h
      cases h
      exact ⟨input, List.mem_cons_self, hround⟩
    | again =>
      rw [hround] at h
      obtain ⟨input', hmem, hreturns⟩ := ih h
      exact ⟨input', List.mem_cons_of_mem _ hmem, hreturns⟩
    | ends =>
      rw [hround] at h
      cases h

/-- The tokens that choose days: each is read as the number of its day. -/
def Chooses (tokens : List Bytes) (days : List DayOfWeek) : Prop :=
  List.Forall₂ (fun token day => ∃ n : Nat, stoi token = some ((n : Int) + 1) ∧ DayOfWeek.values[n]? = some day) tokens days

theorem daysOfWeek_eq : Constants.DAYS_OF_WEEK = DayOfWeek.values.map (fun day => getBytes day.name) := by decide +kernel

/-- A number that an `int` holds and a prompt takes for a day is that of a day. -/
theorem exists_day {choice : Int} (h : ¬(choice < 1 ∨ 7 < choice)) :
    ∃ day, DayOfWeek.values[(choice - 1).toNat]? = some day ∧
      Constants.DAYS_OF_WEEK.getD (choice - 1).toNat [] = getBytes day.name := by
  have hlength : (choice - 1).toNat < DayOfWeek.values.length := by
    have hseven : DayOfWeek.values.length = 7 := rfl
    omega
  have hday := List.getElem?_eq_getElem hlength
  refine ⟨_, hday, ?_⟩
  rw [daysOfWeek_eq, List.getD_eq_getElem?_getD, List.getElem?_map, hday]
  rfl

/-- The days are selected that the tokens choose. -/
theorem selectDays_returns_iff {tokens : List Bytes} :
    ∀ {selectedDays selectedDays' : List Bytes}, selectDays selectedDays tokens = .returns selectedDays' ↔
      ∃ days, Chooses tokens days ∧ selectedDays' = selectedDays ++ days.map (fun day => getBytes day.name) := by
  induction tokens with
  | nil =>
    intro selectedDays selectedDays'
    constructor
    · intro h
      cases h
      exact ⟨[], .nil, (List.append_nil _).symm⟩
    · rintro ⟨days, hchooses, rfl⟩
      cases hchooses
      rw [List.map_nil, List.append_nil]
      rfl
  | cons token tokens ih =>
    intro selectedDays selectedDays'
    have hnone : stoi token = none → ¬∃ days, Chooses (token :: tokens) days ∧
        selectedDays' = selectedDays ++ days.map (fun day => getBytes day.name) := by
      rintro htoken ⟨days, hchooses, _⟩
      cases hchooses with
      | cons hday _ =>
        obtain ⟨n, hn, _⟩ := hday
        rw [htoken] at hn
        cases hn
    unfold selectDays
    cases htoken : stoi token with
    | none =>
      refine iff_of_false ?_ (hnone htoken)
      dsimp only
      split
      · exact fun h => by cases h
      · exact fun h => by cases h
    | some choice =>
      dsimp only
      by_cases hchoice : choice < 1 ∨ 7 < choice
      · rw [if_pos hchoice]
        refine iff_of_false (fun h => by cases h) ?_
        rintro ⟨days, hchooses, _⟩
        cases hchooses with
        | cons hday _ =>
          obtain ⟨n, hn, hvalue⟩ := hday
          rw [htoken, Option.some.injEq] at hn
          have hlength : n < 7 := (List.getElem?_eq_some_iff.1 hvalue).1
          omega
      · obtain ⟨day, hday, hname⟩ := exists_day hchoice
        rw [if_neg hchoice, ih, hname]
        constructor
        · rintro ⟨days, hchooses, rfl⟩
          refine ⟨day :: days, .cons ⟨(choice - 1).toNat, ?_, hday⟩ hchooses, ?_⟩
          · rw [htoken]
            congr 1
            omega
          · rw [List.append_assoc]
            rfl
        · rintro ⟨days, hchooses, rfl⟩
          cases hchooses with
          | cons hday' hchooses =>
            obtain ⟨n, hn, hvalue⟩ := hday'
            rw [htoken, Option.some.injEq] at hn
            have hindex : (choice - 1).toNat = n := by omega
            rw [hindex, hvalue] at hday
            cases hday
            refine ⟨_, hchooses, ?_⟩
            rw [List.append_assoc]
            rfl

/-- The prompt for days returns the days that the tokens choose, in that order, and there is one. -/
theorem promptDaysOfWeek_returns_iff {input daysOfWeek : Bytes} : promptDaysOfWeek input = .returns daysOfWeek ↔
    ∃ days, days ≠ [] ∧ Chooses (getlines input 44) days ∧ daysOfWeek = requested days := by
  have hjoined : ∀ (day : DayOfWeek) (days : List DayOfWeek),
      (days.map (fun day => getBytes day.name)).foldl (fun a b => a ++ literal "," ++ b) (getBytes day.name) = requested (day :: days) := by
    intro day days
    rw [Delimited.foldl_append_separator, requested, joined, getBytes_intercalate, List.map_map]
    rfl
  unfold promptDaysOfWeek
  constructor
  · intro h
    split at h
    · cases h
    · rename_i first selectedDays hselected
      obtain ⟨days, hchooses, hdays⟩ := selectDays_returns_iff.1 hselected
      cases days with
      | nil => cases hdays
      | cons day days =>
        obtain ⟨rfl, rfl⟩ := List.cons.inj hdays
        exact ⟨day :: days, List.cons_ne_nil _ _, hchooses, (Prompted.returns.inj h).symm.trans (hjoined day days)⟩
    · cases h
    · cases h
  · rintro ⟨days, hne, hchooses, rfl⟩
    cases days with
    | nil => exact absurd rfl hne
    | cons day days =>
      have hselected := (@selectDays_returns_iff _ [] ((day :: days).map (fun day => getBytes day.name))).2 ⟨day :: days, hchooses, rfl⟩
      rw [hselected]
      exact congrArg Prompted.returns (hjoined day days)

/-! ## What spoils a query -/

/-- A name that spoils the query of its availability: after a comma it goes on with a word that is no day, and it does not start with the
word for all facilities. -/
def Spoils (name : Text) : Prop :=
  ∃ first words, name.splitOn ',' = first :: words ∧ first ≠ "ALL".toList ∧ ∃ word ∈ words, word ∉ DayOfWeek.values.map DayOfWeek.name

/-- Whatever the name, the text of its query is taken apart at every comma. -/
theorem split_query (name : Text) {days : List DayOfWeek} (hdays : days ≠ []) :
    split ("facility,".toList ++ name ++ ',' :: joined (days.map DayOfWeek.name)) =
      "facility".toList :: (name.splitOn ',' ++ days.map DayOfWeek.name) := by
  have hname : ∀ day : DayOfWeek, ',' ∉ day.name ∧ day.name ≠ [] := by
    intro day
    cases day <;> decide
  have hfacility : ("facility,".toList ++ name).splitOn ',' = "facility".toList :: name.splitOn ',' := by
    have hcons : "facility,".toList ++ name = "facility".toList ++ ',' :: name := rfl
    rw [hcons, List.splitOn_append_cons_self, List.splitOn_eq_singleton (by decide)]
    rfl
  obtain ⟨front, last, rfl⟩ := (List.eq_nil_or_concat' days).resolve_left hdays
  have hfront : ∀ piece ∈ front.map DayOfWeek.name, ',' ∉ piece := List.forall_mem_map.2 fun day _ => (hname day).1
  rw [List.map_append, List.map_singleton, split_append_joined _ hfront (hname last).1 (hname last).2, hfacility]
  rfl

/-- Exactly a name that spoils its query makes the server throw. -/
theorem readThrows_query_iff (name : Text) {days : List DayOfWeek} (hdays : days ≠ []) :
    ReadThrows (some ("facility,".toList ++ name ++ ',' :: joined (days.map DayOfWeek.name))) ↔ Spoils name := by
  cases hname : name.splitOn ',' with
  | nil => exact absurd hname (List.splitOn_ne_nil ',' name)
  | cons first words =>
    have hsplit := split_query name hdays
    rw [hname, List.cons_append] at hsplit
    rw [readThrows_of_split hsplit, mapM_valueOf_ok_iff]
    constructor
    · rintro ⟨_, hall, hwords⟩
      push Not at hwords
      obtain ⟨word, hword, hnot⟩ := hwords
      refine ⟨first, words, hname, hall, word, ?_, hnot⟩
      rcases List.mem_append.1 hword with hword | hday
      · exact hword
      · obtain ⟨day, _, rfl⟩ := List.mem_map.1 hday
        exact absurd (List.mem_map_of_mem (DayOfWeek.mem_values day)) hnot
    · rintro ⟨first', words', hsplit', hall, word, hword, hnot⟩
      rw [hname] at hsplit'
      obtain ⟨rfl, rfl⟩ := List.cons.inj hsplit'
      exact ⟨rfl, hall, fun hwords => hnot (hwords word (List.mem_append_left _ hword))⟩

/-- A text of another kind makes it throw nothing. -/
theorem not_readThrows_of_kind {kind : Text} (hcomma : ',' ∉ kind) (hne : kind ≠ []) (hkind : kind ≠ "facility".toList) (rest : Text) :
    ¬ReadThrows (some (kind ++ ',' :: rest)) := by
  obtain ⟨pieces, hsplit⟩ := split_append_comma hcomma hne rest
  intro hthrows
  rcases hthrows _ rfl with hnil | ⟨name, days, hpieces, _⟩
  · rw [hsplit] at hnil
    cases hnil
  · rw [hsplit] at hpieces
    exact hkind (List.cons.inj hpieces).1

/-! ## What the dialogs ask -/

/-- The booking IDs that are entered are ASCII. -/
theorem ascii_of_isOfClasses {classes : List (UInt8 → Bool)} (hclasses : ∀ isOfClass ∈ classes, ∀ b, isOfClass b = true → b.toNat < 128) :
    ∀ {s : Bytes}, isOfClasses classes s = true → ∀ b ∈ s, b.toNat < 128 := by
  induction classes with
  | nil =>
    intro s h b hb
    rw [isOfClasses, Bool.and_eq_true, decide_eq_true_eq] at h
    rw [List.length_eq_zero_iff.1 h.1] at hb
    cases hb
  | cons isOfClass classes ih =>
    intro s h b hb
    cases s with
    | nil => cases hb
    | cons b' s =>
      rw [List.forall_mem_cons] at hclasses
      simp only [isOfClasses, List.length_cons, List.zipWith_cons_cons, List.all_cons, Bool.and_eq_true, decide_eq_true_eq,
        Nat.add_right_cancel_iff, id] at h
      rcases List.mem_cons.1 hb with rfl | hb
      · exact hclasses.1 _ h.2.1
      · refine ih hclasses.2 ?_ b hb
        rw [isOfClasses, h.1, h.2.2, decide_eq_true rfl]
        rfl

theorem ascii_of_bookingIDRegex {bookingID : Bytes} (h : bookingIDRegex bookingID = true) : ∀ b ∈ bookingID, b.toNat < 128 := by
  have hhex : ∀ b, isHexDigit b = true → b.toNat < 128 := by
    intro b hb
    simp only [isHexDigit, isDigit, Bool.or_eq_true, Bool.and_eq_true, decide_eq_true_eq, UInt8.le_iff_toNat_le] at hb
    have hdigits : (57 : UInt8).toNat = 57 ∧ (102 : UInt8).toNat = 102 ∧ (70 : UInt8).toNat = 70 := by decide
    omega
  have hvariant : ∀ b, isVariantDigit b = true → b.toNat < 128 := by
    intro b hb
    simp only [isVariantDigit, decide_eq_true_eq, List.mem_cons, List.not_mem_nil, or_false] at hb
    rcases hb with rfl | rfl | rfl | rfl | rfl | rfl <;> decide
  have hchar : ∀ c : UInt8, c.toNat < 128 → ∀ b, isChar c b = true → b.toNat < 128 := by
    intro c hc b hb
    rwa [of_decide_eq_true hb]
  have hreplicate : ∀ n, ∀ isOfClass ∈ List.replicate n isHexDigit, ∀ b, isOfClass b = true → b.toNat < 128 := by
    intro n isOfClass hmem
    rw [List.eq_of_mem_replicate hmem]
    exact hhex
  refine ascii_of_isOfClasses ?_ h
  have hdash := hchar 45 (by decide)
  simp only [List.forall_mem_append, List.forall_mem_cons]
  exact ⟨⟨⟨⟨hreplicate 8, hdash, hreplicate 4⟩, hdash, hchar 52 (by decide), hreplicate 3⟩, hdash, hvariant, hreplicate 3⟩, hdash,
    hreplicate 12⟩

variable {Γ : Jvm} {call : Cpp.Call} {requestType requestID : BitVec 32} {data : Bytes}

/-- A query that is a text of another kind. -/
theorem not_throws_of_kind {kind rest : Text} (hcomma : ',' ∉ kind) (hne : kind ≠ []) (hkind : kind ≠ "facility".toList)
    (hdata : data = getBytes (kind ++ ',' :: rest)) (hcall : ∀ messageData, call ≠ .echoMessage messageData)
    (hrequest : call.request = some (requestType, data)) : ¬ReadThrows (decoded Γ ⟨requestType, requestID, data⟩).data := by
  rw [hdata] at hrequest ⊢
  rw [decoded_of_request Γ hcall hrequest]
  exact not_readThrows_of_kind hcomma hne hkind rest

/-- The query of an availability. -/
theorem throws_query_iff {name : Text} {days : List DayOfWeek} (hdays : days ≠ [])
    (hrequest : (Cpp.Call.queryAvailability (getBytes name) (requested days)).request = some (requestType, data)) :
    ReadThrows (decoded Γ ⟨requestType, requestID, data⟩).data ↔ Spoils name := by
  have hdata : data = getBytes ("facility,".toList ++ name ++ ',' :: joined (days.map DayOfWeek.name)) := by
    cases hrequest
    rw [Client.queryAvailability, requested, ← List.singleton_append, getBytes_append, getBytes_append, getBytes_append,
      ← List.append_assoc]
    rfl
  rw [hdata] at hrequest ⊢
  rw [decoded_of_request Γ (fun _ => Cpp.Call.noConfusion) hrequest, readThrows_query_iff name hdays]

/-- Only a query has an exception, and of the queries that are entered only that of an availability. -/
theorem throws_iff_of_entered (hcall : call.Entered) (hrequest : call.request = some (requestType, data)) :
    (decoded Γ ⟨requestType, requestID, data⟩).getOperation = .READ ∧ ReadThrows (decoded Γ ⟨requestType, requestID, data⟩).data ↔
      ∃ name days, days ≠ [] ∧ call = .queryAvailability (getBytes name) (requested days) ∧ Spoils name := by
  have hop : (decoded Γ ⟨requestType, requestID, data⟩).getOperation = call.operation := getOperation_of_request hrequest requestID _
  rw [hop]
  cases hcall with
  | queryFacilityNames =>
    cases hrequest
    refine iff_of_false ?_ (by rintro ⟨_, _, _, h, _⟩; cases h)
    rintro ⟨_, hthrows⟩
    have hsplit : split "facility,ALL".toList = ["facility".toList, "ALL".toList] := by decide
    have hdecoded := @decoded_of_request .queryFacilityNames 0 "facility,ALL".toList Γ (fun _ => Cpp.Call.noConfusion) rfl requestID
    have hdata : (decoded Γ ⟨RequestMessage.READ, requestID, Client.queryFacilityNames⟩).data = some "facility,ALL".toList :=
      congrArg RequestMessage.data hdecoded
    rw [hdata, readThrows_of_split hsplit] at hthrows
    exact hthrows.2.1 rfl
  | queryAvailability facilityName typed daysOfWeek hdays =>
    obtain ⟨input, _, hinput⟩ := prompt_returns hdays
    obtain ⟨days, hne, _, rfl⟩ := promptDaysOfWeek_returns_iff.1 hinput
    rw [throws_query_iff hne hrequest]
    constructor
    · rintro ⟨_, hspoils⟩
      exact ⟨facilityName, days, hne, rfl, hspoils⟩
    · rintro ⟨name, days', _, heq, hspoils⟩
      obtain ⟨hname, _⟩ := Cpp.Call.queryAvailability.inj heq
      exact ⟨rfl, getBytes_injective hname ▸ hspoils⟩
  | queryBooking typed bookingID hid =>
    obtain ⟨input, _, hinput⟩ := prompt_returns hid
    have hregex : bookingIDRegex bookingID = true := by
      unfold promptBookingID at hinput
      split at hinput
      · rename_i hregex
        cases hinput
        exact hregex
      · cases hinput
    refine iff_of_false (fun h => ?_) (by rintro ⟨_, _, _, h, _⟩; cases h)
    have hdata : data = getBytes ("booking".toList ++ ',' :: ascii bookingID) := by
      cases hrequest
      rw [getBytes_append, getBytes_cons, getBytes_ascii (ascii_of_bookingIDRegex hregex)]
      rfl
    exact not_throws_of_kind (by decide) (by decide) (by decide) hdata (fun _ => Cpp.Call.noConfusion) hrequest h.2
  | queryRating facilityName =>
    refine iff_of_false (fun h => ?_) (by rintro ⟨_, _, _, h, _⟩; cases h)
    have hdata : data = getBytes ("rating".toList ++ ',' :: facilityName) := by
      cases hrequest
      rw [getBytes_append, getBytes_cons]
      rfl
    exact not_throws_of_kind (by decide) (by decide) (by decide) hdata (fun _ => Cpp.Call.noConfusion) hrequest h.2
  | _ =>
    refine iff_of_false (fun h => ?_) (by rintro ⟨_, _, _, h, _⟩; cases h)
    cases h.1

/-! ## The loop -/

/-- What an exception leaves is an execution. -/
theorem exists_mem_executed {s : ServerState} {e : Event} {exception : JavaException} (h : (handleRequest Γ s e).result = .error exception) :
    ∃ x ∈ executed Γ s e, x.result = .error exception := by
  have hhandling := handleRequest_handling Γ s e
  generalize houtcome : handleRequest Γ s e = outcome at h hhandling
  cases hhandling with
  | undecodable => cases h
  | echo => cases h
  | replay => cases h
  | executed => cases h
  | thrown m exception' hm ho hp hx =>
    have hecho : m.getOperation ≠ .ECHO := by rw [ho]; decide
    refine ⟨_, executed_of_new hm hecho hp ▸ List.mem_singleton_self _, ?_⟩
    rw [handleRequest_of_new hm hecho hp] at houtcome
    rw [houtcome]
    exact h

/-- Which executions end with an exception. -/
theorem error_iff_of_mem_executed {s : ServerState} {e : Event} {x : Execution} (h : x ∈ executed Γ s e) :
    (∃ exception, x.result = .error exception) ↔ x.request.getOperation = .READ ∧ ReadThrows x.request.data := by
  obtain ⟨hm, _, hnew, _, _, hresult⟩ := of_mem_executed h
  have hreturns := handleRequest_returns_iff Γ s e
  rw [hresult] at hreturns
  have hstops : Stops Γ s e ↔ x.request.getOperation = .READ ∧ ReadThrows x.request.data := by
    constructor
    · rintro ⟨m, hm', hread, _, hthrows⟩
      rw [hm] at hm'
      cases hm'
      exact ⟨hread, hthrows⟩
    · rintro ⟨hread, hthrows⟩
      exact ⟨x.request, hm, hread, hnew, hthrows⟩
  rw [← hstops, ← not_iff_not, ← hreturns]
  cases x.result with
  | ok r => exact iff_of_true (by rintro ⟨_, h⟩; cases h) ⟨r, rfl⟩
  | error exception => exact iff_of_false (fun h => h ⟨exception, rfl⟩) (by rintro ⟨_, h⟩; cases h)

namespace System

variable {ι : Type} [DecidableEq ι] {endpoint : ι → Endpoint} {S : System ι}

/-- The loop has ended exactly when an execution has, with an exception. -/
theorem running_iff {checkHistory : Bool} (h : Reachable Γ checkHistory endpoint S) :
    S.running = false ↔ ∃ x ∈ S.executions, ∃ exception, x.result = .error exception := by
  induction h with
  | refl => exact iff_of_false Bool.noConfusion (by rintro ⟨_, h, _⟩; cases h)
  | @tail S' _ _ hstep ih =>
    cases hstep with
    | call => exact ih
    | send => exact ih
    | receive => exact ih
    | timeout => exact ih
    | serve d _ now uuid hrunning =>
      rw [hrunning] at ih
      have hbefore : ∀ x ∈ S'.executions, ∀ exception, x.result ≠ .error exception := by
        intro x hx exception hresult
        exact absurd (ih.2 ⟨x, hx, exception, hresult⟩) Bool.noConfusion
      constructor
      · intro hstopped
        cases hresult : (handleRequest Γ S'.server ⟨⟨d.address, d.port, d.bytes.take bufferLength⟩, now, uuid⟩).result with
        | ok r =>
          have hgoes : (S'.serve Γ ⟨⟨d.address, d.port, d.bytes.take bufferLength⟩, now, uuid⟩).running = true := by
            rw [serve, hresult]
            rfl
          rw [hgoes] at hstopped
          cases hstopped
        | error exception =>
          obtain ⟨x, hx, hexception⟩ := exists_mem_executed hresult
          exact ⟨x, List.mem_append_right _ hx, exception, hexception⟩
      · rintro ⟨x, hx, exception, hexception⟩
        rcases List.mem_append.1 hx with hx | hx
        · exact absurd hexception (hbefore x hx exception)
        · obtain ⟨_, _, _, _, _, hresult⟩ := of_mem_executed hx
          rw [serve, hresult, hexception]
          rfl

end System

/-- The server of a system, in either mode, whose clients ask what the dialogs ask is stopped exactly when a query of an availability has been executed
whose name spoils it. -/
theorem stopped_iff_spoiled {ι : Type} [DecidableEq ι] (Γ : Jvm) (checkHistory : Bool) (endpoint : ι → Endpoint)
    (hendpoint : System.Distinct endpoint) (S : System ι) (h : System.Reachable Γ checkHistory endpoint S)
    (hentered : ∀ i, ∀ request ∈ (S.clients i).requests, ∃ call : Cpp.Call, call.Entered ∧
      call.request = some (request.requestType, request.data)) :
    S.running = false ↔ ∃ i, ∃ request ∈ (S.clients i).requests, S.executionsOf endpoint i request ≠ [] ∧
      ∃ name days, days ≠ [] ∧ Spoils name ∧
        (Cpp.Call.queryAvailability (getBytes name) (requested days)).request = some (request.requestType, request.data) := by
  have hinv := System.invariant_reachable hendpoint h
  obtain ⟨es, hes⟩ := System.received_reachable hendpoint h
  have herror : ∀ x ∈ S.executions, (∃ exception, x.result = .error exception) ↔
      x.request.getOperation = .READ ∧ ReadThrows x.request.data := by
    intro x hx
    rw [hes.executions] at hx
    obtain ⟨before, e, after, _, hexecuted⟩ := Machine.exists_of_mem_emitted hx
    exact error_iff_of_mem_executed hexecuted
  rw [System.running_iff h]
  constructor
  · rintro ⟨x, hx, hexception⟩
    obtain ⟨i, request, hrequest, hasked, haddress, hport, _⟩ := hinv.executions x hx
    obtain ⟨call, hcall, hmade⟩ := hentered i request hrequest
    have hthrows := (herror x hx).1 hexception
    rw [hasked] at hthrows
    obtain ⟨name, days, hdays, rfl, hspoils⟩ := (throws_iff_of_entered hcall hmade).1 hthrows
    have hkey : x.key = System.keyOf endpoint i request := by
      rw [Execution.key, System.keyOf, hasked, haddress, hport]
      rfl
    have hexecuted : x ∈ S.executionsOf endpoint i request := List.mem_filter.2 ⟨hx, decide_eq_true hkey⟩
    exact ⟨i, request, hrequest, List.ne_nil_of_mem hexecuted, name, days, hdays, hspoils, hmade⟩
  · rintro ⟨i, request, hrequest, hexecuted, name, days, hdays, hspoils, hmade⟩
    obtain ⟨x, hx⟩ := List.exists_mem_of_ne_nil _ hexecuted
    obtain ⟨hx, hkey⟩ := List.mem_filter.1 hx
    have hasked := hinv.request_of_key hendpoint hrequest hx (of_decide_eq_true hkey)
    refine ⟨x, hx, (herror x hx).2 ?_⟩
    rw [hasked]
    exact ⟨getOperation_of_request hmade _ _, (throws_query_iff hdays hmade).2 hspoils⟩

/-- A user who enters the name of a facility and a day in one line. -/
def weekdayAndMonday : Text := "Weekday1,Monday".toList
def askSpoiled : Cpp.RequestMessage := ⟨0, 0, Client.queryAvailability (getBytes weekdayAndMonday) (requested [.MONDAY])⟩
def spoiledAsked : Datagram := ⟨(twoClients true).address, 5000, Cpp.JavaSerializer.serialize (some askSpoiled)⟩
def spoiledReceived : Event := ⟨⟨spoiledAsked.address, spoiledAsked.port, spoiledAsked.bytes.take bufferLength⟩, 0, ⟨0, 0⟩⟩

/-- The system after the query is made, sent and received. -/
def spoiledMade : System Bool := (System.init true).withClient true (Cpp.Client.new.call askSpoiled.requestType askSpoiled.data)
def spoiledSent : System Bool :=
  (spoiledMade.withClient true ((spoiledMade.clients true).sendRequest askSpoiled 0)).post spoiledAsked
def spoiledServed : System Bool := spoiledSent.serve openJdk spoiledReceived

theorem askSpoiled_fits : (Cpp.JavaSerializer.serialize (some askSpoiled)).length ≤ bufferLength := by decide +kernel

theorem spoiledServed_reachable : System.Reachable openJdk true twoClients spoiledServed := by
  have hmade : System.Step openJdk twoClients (.init true) spoiledMade := .call true 0 askSpoiled.data rfl (by decide) askSpoiled_fits
  have hsent : System.Step openJdk twoClients spoiledMade spoiledSent := .send true askSpoiled 0 rfl
  have hserved : System.Step openJdk twoClients spoiledSent spoiledServed := .serve spoiledAsked List.mem_cons_self 0 ⟨0, 0⟩ rfl
  exact ((Relation.ReflTransGen.refl.tail hmade).tail hsent).tail hserved

/-- Of the days she chooses the first. -/
theorem spoiled_entered : (Cpp.Call.queryAvailability (getBytes weekdayAndMonday) (requested [.MONDAY])).Entered := by
  have htokens : getlines (literal "1") 44 = [literal "1"] := by
    have hpieces := @Delimited.pieces_intercalate _ _ (44 : UInt8) [literal "1"] (by decide)
    rwa [List.intercalate_singleton] at hpieces
  have hmonday : promptDaysOfWeek (literal "1") = .returns (requested [.MONDAY]) := by
    refine promptDaysOfWeek_returns_iff.2 ⟨[.MONDAY], List.cons_ne_nil _ _, ?_, rfl⟩
    rw [htokens]
    exact .cons ⟨0, by decide, rfl⟩ .nil
  refine .queryAvailability weekdayAndMonday [literal "1"] _ ?_
  rw [prompt, hmonday]

theorem spoiled_executed : spoiledServed.executionsOf twoClients true askSpoiled ≠ [] := by
  have hm : deserializeMessage openJdk spoiledReceived.bytes = .ok (decoded openJdk askSpoiled) := by
    have hbytes : spoiledReceived.bytes = Cpp.JavaSerializer.serialize (some askSpoiled) := by
      simp only [spoiledReceived, spoiledAsked, List.take_of_length_le askSpoiled_fits]
    rw [hbytes, deserializeMessage_serialize openJdk askSpoiled_fits]
  have hecho : (decoded openJdk askSpoiled).getOperation ≠ .ECHO := by
    change Operation.READ ≠ .ECHO
    decide
  have hnew : replayOf spoiledSent.server (decoded openJdk askSpoiled) spoiledReceived = none := rfl
  generalize hx : (⟨decoded openJdk askSpoiled, spoiledReceived.address, spoiledReceived.port,
    (execute openJdk spoiledSent.server.reset (decoded openJdk askSpoiled) spoiledReceived).result⟩ : Execution) = x
  have hexecuted : x ∈ executed openJdk spoiledSent.server spoiledReceived := by
    rw [executed_of_new hm hecho hnew, hx]
    exact List.mem_singleton_self _
  have hkey : x.key = ⟨askSpoiled.requestID, (twoClients true).address.address, (twoClients true).port⟩ := by
    rw [← hx]
    rfl
  exact List.ne_nil_of_mem (List.mem_filter.2 ⟨List.mem_append_right _ hexecuted, decide_eq_true hkey⟩)

/-- The query stops the server. -/
theorem stopped_iff_spoiled_monday : spoiledServed.running = false := by
  have hdistinct : ∀ i j, (twoClients i).port = (twoClients j).port → i = j := by decide
  have hrequests : (spoiledServed.clients true).requests = [askSpoiled] ∧ (spoiledServed.clients false).requests = [] := ⟨rfl, rfl⟩
  refine (stopped_iff_spoiled openJdk true twoClients (fun i j _ => hdistinct i j) spoiledServed spoiledServed_reachable ?_).2 ?_
  · intro i request hrequest
    cases i with
    | false =>
      rw [hrequests.2] at hrequest
      cases hrequest
    | true =>
      rw [hrequests.1, List.mem_singleton] at hrequest
      subst hrequest
      exact ⟨_, spoiled_entered, rfl⟩
  · have hspoils : Spoils weekdayAndMonday :=
      ⟨"Weekday1".toList, ["Monday".toList], by decide, by decide, "Monday".toList, List.mem_cons_self, by decide⟩
    exact ⟨true, askSpoiled, hrequests.1 ▸ List.mem_cons_self, spoiled_executed, weekdayAndMonday, [.MONDAY], List.cons_ne_nil _ _,
      hspoils, rfl⟩

end FacilityBooking
