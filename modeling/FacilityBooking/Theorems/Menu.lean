import FacilityBooking.Client.Menu
import FacilityBooking.Lib.Delimited

/-!
# What goes on at the menu

Whatever is typed at the menu and whatever the client answers, the operations that it asks are some that the prompts return, one after the
other, and what it shows is what the parsers make of the responses. A box has its contents in lines of one width.
-/

namespace FacilityBooking.Cpp

namespace UserInterface

/-! ## Sessions at the menu -/

section

variable {σ : Type}

/-- A session: the operations that are asked of the client, the contents of the boxes that are shown, and the client before and after. -/
inductive Session (ask : Call → σ → Bytes × σ) (listen : Int → σ → List Bytes × σ) : σ → List Call → List (List Bytes) → σ → Prop
  | nil (client : σ) : Session ask listen client [] [] client
  | asks {client client' client'' : σ} {call : Call} {response : Bytes} {calls : List Call} {screens : List (List Bytes)}
    (hentered : call.Entered) (hasked : ask call client = (response, client')) (hrest : Session ask listen client' calls screens client'') :
    Session ask listen client (call :: calls) (call.parse response :: screens) client''
  | listens {client client' client'' : σ} {durationSeconds : Int} {updates : List Bytes} {calls : List Call}
    {screens : List (List Bytes)} (hlistened : listen durationSeconds client = (updates, client'))
    (hrest : Session ask listen client' calls screens client'') :
    Session ask listen client calls
      (updates.map (fun update => ResponseParser.parseQueryAvailabilityResponse update []) ++ screens) client''
  | monitored {client client' : σ} {calls : List Call} {screens : List (List Bytes)}
    (hrest : Session ask listen client calls screens client') : Session ask listen client calls (endOfMonitoring :: screens) client'

variable {ask : Call → σ → Bytes × σ} {listen : Int → σ → List Bytes × σ}

/-- One session goes on where another ends. -/
theorem Session.append {client client' client'' : σ} {calls calls' : List Call} {screens screens' : List (List Bytes)}
    (h : Session ask listen client calls screens client') (h' : Session ask listen client' calls' screens' client'') :
    Session ask listen client (calls ++ calls') (screens ++ screens') client'' := by
  induction h with
  | nil => exact h'
  | asks hentered hasked _ ih => exact .asks hentered hasked (ih h')
  | listens hlistened _ ih =>
    rw [List.append_assoc]
    exact .listens hlistened (ih h')
  | monitored _ ih => exact .monitored (ih h')

/-- All that is asked is entered at the prompts. -/
theorem Session.entered {client client' : σ} {calls : List Call} {screens : List (List Bytes)}
    (h : Session ask listen client calls screens client') : ∀ call ∈ calls, call.Entered := by
  induction h with
  | nil => exact List.forall_mem_nil _
  | asks hentered _ _ ih => exact List.forall_mem_cons.2 ⟨hentered, ih⟩
  | listens _ _ ih => exact ih
  | monitored _ ih => exact ih

/-- So is what the requests are made for, by which the server may be stopped. -/
theorem Session.request_entered {client client' : σ} {calls : List Call} {screens : List (List Bytes)}
    (h : Session ask listen client calls screens client') {requestType : BitVec 32} {data : Bytes}
    (hmade : (requestType, data) ∈ calls.filterMap Call.request) :
    ∃ call : Call, call.Entered ∧ call.request = some (requestType, data) := by
  obtain ⟨call, hcall, hrequest⟩ := List.mem_filterMap.1 hmade
  exact ⟨call, h.entered call hcall, hrequest⟩

/-- What is shown is a session, which leaves the client as it returns to the menu. -/
def IsSession (ask : Call → σ → Bytes × σ) (listen : Int → σ → List Bytes × σ) (client : σ) (displayed : Displayed σ) : Prop :=
  ∃ calls client', Session ask listen client calls displayed.1 client' ∧ ∀ c, displayed.2 = some c → c = client'

variable {client : σ} {typed : Typed}

/-- A handler that asks nothing more. -/
theorem isSession_done : IsSession ask listen client (done client) :=
  ⟨[], client, .nil client, fun _ h => (Option.some.inj h).symm⟩

/-- One that goes on with what a prompt returns. -/
theorem isSession_enter {α β : Type} {round : α → Prompted β} {inputs : List α} {goOn : β → σ → Displayed σ}
    (h : ∀ value, prompt round inputs = some (.returns value) → IsSession ask listen client (goOn value client)) :
    IsSession ask listen client (enter round inputs goOn client) := by
  unfold enter
  split
  · rename_i value hreturns
    exact h value hreturns
  · exact ⟨[], client, .nil client, fun c h => absurd h (Option.some_ne_none c).symm⟩

/-- One that asks, shows the response and goes on if it is no error. -/
theorem isSession_askAndShow {call : Call} {goOn : Bytes → σ → Displayed σ} (hentered : call.Entered)
    (h : ∀ response client', IsSession ask listen client' (goOn response client')) :
    IsSession ask listen client (askAndShow ask call goOn client) := by
  unfold askAndShow
  cases hasked : ask call client with
  | mk response client' =>
    dsimp only
    split
    · exact ⟨[call], client', .asks hentered hasked (.nil client'), fun _ h => (Option.some.inj h).symm⟩
    · obtain ⟨calls, client'', hsession, hlast⟩ := h response client'
      exact ⟨call :: calls, client'', .asks hentered hasked hsession, hlast⟩

/-- One that asks and shows the response. -/
theorem isSession_askLast {call : Call} (hentered : call.Entered) : IsSession ask listen client (askLast ask call client) :=
  isSession_askAndShow hentered fun _ _ => isSession_done

theorem isSession_handleFacility {goOn : σ → Displayed σ} (h : ∀ client', IsSession ask listen client' (goOn client')) :
    IsSession ask listen client (handleFacility ask goOn client) :=
  isSession_askAndShow .queryFacilityNames fun _ => h

theorem isSession_handleBooking {goOn : Bytes → Bytes → σ → Displayed σ}
    (h : ∀ bookingID oldBookingDetails client', prompt promptBookingID typed.bookingID = some (.returns bookingID) →
      IsSession ask listen client' (goOn bookingID oldBookingDetails client')) :
    IsSession ask listen client (handleBooking ask typed goOn client) := by
  refine isSession_enter fun bookingID hid => isSession_askAndShow (.queryBooking _ bookingID hid) fun response client' => ?_
  refine isSession_enter fun confirmation _ => ?_
  cases confirmation with
  | true => exact h bookingID response client' hid
  | false => exact isSession_done

/-- Monitoring is a session, and shows that it has ended. -/
theorem isSession_monitorAvailability {durationSeconds : Int}
    (hduration : prompt promptDuration typed.durationSeconds = some (.returns durationSeconds)) :
    ∃ calls, Session ask listen client calls
      ((monitorAvailability ask listen (getBytes typed.facilityName) durationSeconds client).1 ++ [endOfMonitoring])
      (monitorAvailability ask listen (getBytes typed.facilityName) durationSeconds client).2 := by
  have hentered : (Call.monitorAvailability (getBytes typed.facilityName) durationSeconds).Entered :=
    .monitorAvailability typed.facilityName typed.durationSeconds durationSeconds hduration
  unfold monitorAvailability
  cases hasked : ask (.monitorAvailability (getBytes typed.facilityName) durationSeconds) client with
  | mk response client' =>
    dsimp only
    split
    · cases hlistened : listen durationSeconds client' with
      | mk updates client'' => exact ⟨_, .asks hentered hasked (.listens hlistened (.monitored (.nil client'')))⟩
    · exact ⟨_, .asks hentered hasked (.monitored (.nil client'))⟩

/-- Every choice at the menu is a session. -/
theorem isSession_handleUserChoice (choice : Int) : IsSession ask listen client (handleUserChoice ask listen typed choice client) := by
  unfold handleUserChoice
  split
  · exact isSession_askLast .queryFacilityNames
  · exact isSession_handleFacility fun _ => isSession_enter fun daysOfWeek hdays =>
      isSession_askLast (.queryAvailability typed.facilityName _ daysOfWeek hdays)
  · exact isSession_handleFacility fun _ => isSession_enter fun dayOfWeek hday => isSession_enter fun startTime hstart =>
      isSession_enter fun endTime hend =>
        isSession_askLast (.bookFacility typed.facilityName _ _ _ dayOfWeek startTime endTime hday hstart hend)
  · exact isSession_enter fun bookingID hid => isSession_askLast (.queryBooking _ bookingID hid)
  · exact isSession_handleBooking fun bookingID oldBookingDetails _ hid => isSession_enter fun offsetMinutes hoffset =>
      isSession_askLast (.updateBooking _ _ bookingID offsetMinutes oldBookingDetails hid hoffset)
  · exact isSession_handleBooking fun bookingID oldBookingDetails _ hid =>
      isSession_askLast (.deleteBooking _ bookingID oldBookingDetails hid)
  · refine isSession_handleFacility fun client' => isSession_enter fun durationSeconds hduration => ?_
    obtain ⟨calls, hsession⟩ := isSession_monitorAvailability hduration
    exact ⟨calls, _, hsession, fun _ h => (Option.some.inj h).symm⟩
  · exact isSession_handleFacility fun _ => isSession_askLast (.rateFacility typed.facilityName typed.rating)
  · exact isSession_handleFacility fun _ => isSession_askLast (.queryRating typed.facilityName)
  · refine isSession_enter fun confirmation _ => ?_
    cases confirmation with
    | true => exact isSession_askLast (.echoMessage typed.messageData)
    | false => exact isSession_done
  · refine isSession_enter fun confirmation _ => ⟨[], client, .nil client, ?_⟩
    cases confirmation with
    | true => exact fun c h => absurd h (Option.some_ne_none c).symm
    | false => exact fun _ h => (Option.some.inj h).symm
  · exact isSession_done

/-- Whatever is typed at the menu, and whatever the client answers and hears, the menu goes through a session. -/
theorem isSession_displayMenu (rounds : List Typed) : IsSession ask listen client (displayMenu ask listen rounds client) := by
  induction rounds generalizing client with
  | nil => exact isSession_done
  | cons typed rounds ih =>
    have hround : IsSession ask listen client (enter promptChoice typed.choice (handleUserChoice ask listen typed) client) :=
      isSession_enter fun choice _ => isSession_handleUserChoice choice
    unfold displayMenu
    split
    · rename_i screens heq
      rw [heq] at hround
      exact hround
    · rename_i screens client' heq
      rw [heq] at hround
      obtain ⟨calls, last, hsession, hlast⟩ := hround
      obtain rfl := hlast client' rfl
      obtain ⟨calls', client'', hsession', hlast'⟩ := @ih client'
      exact ⟨calls ++ calls', client'', hsession.append hsession', hlast'⟩

end

/-! ## Boxes -/

section

variable {content : List Bytes}

/-- Every line is as long as the longest at most. -/
theorem length_le_maxLength : ∀ line ∈ content, line.length ≤ maxLength content := by
  have hfold : ∀ (content : List Bytes) (n : Nat), n ≤ content.foldl (fun maxLength line => max maxLength line.length) n ∧
      ∀ line ∈ content, line.length ≤ content.foldl (fun maxLength line => max maxLength line.length) n := by
    intro content
    induction content with
    | nil => exact fun n => ⟨le_refl n, List.forall_mem_nil _⟩
    | cons line content ih =>
      intro n
      obtain ⟨hle, hlines⟩ := ih (max n line.length)
      exact ⟨(le_max_left _ _).trans hle, List.forall_mem_cons.2 ⟨(le_max_right _ _).trans hle, hlines⟩⟩
  exact (hfold content 0).2

/-- The border is as long as a line with its two bars and two spaces. -/
theorem length_border (maxLength : Nat) : (border maxLength).length = maxLength + 4 := by
  have hends : (literal "+-").length = 2 ∧ (literal "-+").length = 2 := ⟨rfl, rfl⟩
  simp only [border, List.length_append, List.length_replicate, hends]
  omega

theorem length_headerLine {maxLength : Nat} {header : Bytes} (h : header.length ≤ maxLength) :
    (headerLine maxLength header).length = maxLength + 4 := by
  have hends : (literal "| ").length = 2 ∧ (literal " |").length = 2 := ⟨rfl, rfl⟩
  simp only [headerLine, List.length_append, List.length_replicate, hends]
  omega

theorem length_contentLine {maxLength : Nat} {line : Bytes} (h : line.length ≤ maxLength) :
    (contentLine maxLength line).length = maxLength + 4 := by
  have hends : (literal "| ").length = 2 ∧ (literal " |").length = 2 := ⟨rfl, rfl⟩
  simp only [contentLine, List.length_append, List.length_replicate, hends]
  omega

/-- All lines of a box have one width, in which the longest line of its contents has room. -/
theorem length_boxLines : ∀ line ∈ boxLines content, line.length = maxLength content + 4 := by
  cases content with
  | nil => exact List.forall_mem_nil _
  | cons header rest =>
    obtain ⟨hheader, hrest⟩ := List.forall_mem_cons.1 (@length_le_maxLength (header :: rest))
    intro line hline
    simp only [boxLines, List.cons_append, List.mem_cons, List.mem_append, List.mem_map, List.not_mem_nil, or_false] at hline
    rcases hline with rfl | rfl | rfl | ⟨line, hmem, rfl⟩ | rfl
    · exact length_border _
    · exact length_headerLine hheader
    · exact length_border _
    · exact length_contentLine (hrest line hmem)
    · exact length_border _

/-- A box of contents without line breaks is read as its lines, one by one. -/
theorem getlines_generateBox (h : ∀ line ∈ content, (10 : UInt8) ∉ line) : getlines (generateBox content) 10 = boxLines content := by
  refine Delimited.pieces_terminated fun line hline => ?_
  cases content with
  | nil => cases hline
  | cons header rest =>
    obtain ⟨hheader, hrest⟩ := List.forall_mem_cons.1 h
    have hends : ∀ s ∈ [literal "+-", literal "-+", literal "| ", literal " |"], (10 : UInt8) ∉ s := by decide
    simp only [List.forall_mem_cons] at hends
    obtain ⟨hplus, hplus', hbar, hbar', _⟩ := hends
    have hfill : ∀ n, (10 : UInt8) ∉ List.replicate n 32 ∧ (10 : UInt8) ∉ List.replicate n 45 :=
      fun n => ⟨fun h => absurd (List.eq_of_mem_replicate h) (by decide), fun h => absurd (List.eq_of_mem_replicate h) (by decide)⟩
    simp only [boxLines, List.cons_append, List.mem_cons, List.mem_append, List.mem_map, List.not_mem_nil, or_false] at hline
    rcases hline with rfl | rfl | rfl | ⟨line, hmem, rfl⟩ | rfl
    · simp [border, hplus, hplus', hfill]
    · simp [headerLine, hbar, hbar', hheader, hfill]
    · simp [border, hplus, hplus', hfill]
    · simp [contentLine, hbar, hbar', hrest line hmem, hfill]
    · simp [border, hplus, hplus', hfill]

end

end UserInterface

end FacilityBooking.Cpp
