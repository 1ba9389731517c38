import FacilityBooking.Lemmas.Extract
import FacilityBooking.Lemmas.Requests
import FacilityBooking.Theorems.ReadYourWrites

/-!
# Shifting a booking

The client reads a booking, takes the first two and the next two characters of its times for hours and minutes, adds an offset, and
asks for an update to the sum. The sum is exact for hours and minutes of two characters, and the server takes any sum: so a
sequence of shifts is exact and stays within the day exactly when the offsets stay within the day.
-/

namespace FacilityBooking

/-! ## Shifts -/

namespace TimeSlot

/-- The start and the end in minutes. -/
def startTotal (slot : TimeSlot) : Int := slot.startHour * 60 + slot.startMinute

def endTotal (slot : TimeSlot) : Int := slot.endHour * 60 + slot.endMinute

/-- Each number of the slot is written with two characters. -/
def IsWrittenWithTwo (slot : TimeSlot) : Prop :=
  ∀ n ∈ [slot.startHour, slot.startMinute, slot.endHour, slot.endMinute], -9 ≤ n ∧ n ≤ 99

end TimeSlot

/-- Minutes of the day. -/
def InDay (n : Int) : Prop := 0 ≤ n ∧ n ≤ 1439

/-- The datagram is a request with that text, it repeats none, and that is the response. -/
structure Exchange (Γ : Jvm) (s : ServerState) (e : Event) (operation : Operation) (text : Bytes) (r : RequestMessage) : Prop where
  request : ∃ m, deserializeMessage Γ e.bytes = .ok m ∧ m.getOperation = operation ∧ m.data = some (Γ.newString text) ∧
    replayOf s m e = none
  result : (handleRequest Γ s e).result = .ok r

/-- A shift: the datagrams of the request to read the booking and of the request to update it, and the offset. -/
structure Shift where
  read : Event
  update : Event
  offset : Int

namespace Shift

/-- The ID that the booking has after the shift. -/
def newID (x : Shift) : Text := x.update.uuid.toText

/-- The state after both requests. -/
def after (Γ : Jvm) (s : ServerState) (x : Shift) : ServerState := serverStep Γ (serverStep Γ s x.read) x.update

/-- The booking is read, the client makes the text of the update of the response, and the update is a success, under an ID that no
booking has. -/
def Succeeds (Γ : Jvm) (s : ServerState) (bookingID : Text) (x : Shift) : Prop :=
  ∃ r text r', Exchange Γ s x.read .READ (Cpp.Client.queryBooking (getBytes bookingID)) r ∧
    Cpp.Client.updateBooking (getBytes bookingID) x.offset (getBytes (r.data.getD [])) = some text ∧
    Exchange Γ (serverStep Γ s x.read) x.update .UPDATE text r' ∧ r'.Says "status:SUCCESS" ∧ x.newID ∉ ids s.facilities

/-- The booking that is stored after the shift starts and ends by the offset later than the one before, and within the day. -/
def IsExact (Γ : Jvm) (s : ServerState) (bookingID : Text) (x : Shift) : Prop :=
  ∃ f b f' b', findBooking s.facilities bookingID = some (f, b) ∧ findBooking (x.after Γ s).facilities x.newID = some (f', b') ∧
    b'.timeSlot.startTotal = b.timeSlot.startTotal + x.offset ∧ b'.timeSlot.endTotal = b.timeSlot.endTotal + x.offset ∧
    InDay b'.timeSlot.startTotal ∧ InDay b'.timeSlot.endTotal

end Shift

/-- A sequence of shifts of one booking, each of which succeeds. -/
def AllSucceed (Γ : Jvm) : ServerState → Text → List Shift → Prop
  | _, _, [] => True
  | s, bookingID, x :: xs => x.Succeeds Γ s bookingID ∧ AllSucceed Γ (x.after Γ s) x.newID xs

/-- A sequence of shifts of one booking, each of which is exact. -/
def AllExact (Γ : Jvm) : ServerState → Text → List Shift → Prop
  | _, _, [] => True
  | s, bookingID, x :: xs => x.IsExact Γ s bookingID ∧ AllExact Γ (x.after Γ s) x.newID xs

/-- The offsets, added one after the other, stay within the day. -/
def StaysInDay : Int → Int → List Shift → Prop
  | _, _, [] => True
  | start, stop, x :: xs => InDay (start + x.offset) ∧ InDay (stop + x.offset) ∧ StaysInDay (start + x.offset) (stop + x.offset) xs

/-- The labels that the client looks for. -/
def labels : List String := ["facility:", "day:", "startTime:", "endTime:"]

/-- A text that no label is part of. -/
def Plain (t : Text) : Prop := ∀ label ∈ labels, ¬Cpp.literal label <:+: getBytes t

/-! ## What the client reads in the response -/

/-- A text without a colon is plain. -/
theorem plain_of_colon {t : Text} (h : ':' ∉ t) : Plain t := by
  intro label hlabel hpart
  have hcolon : (58 : UInt8) ∈ Cpp.literal label := by
    simp only [labels, List.mem_cons, List.not_mem_nil, or_false] at hlabel
    rcases hlabel with rfl | rfl | rfl | rfl <;> decide
  exact notMem_getBytes (by decide) rfl h (hpart.subset hcolon)

/-- The lines of the response that reports a booking. -/
def Report.lines (p : Report) : List Bytes :=
  [Cpp.literal "status:SUCCESS", Cpp.literal "bookingID:" ++ getBytes p.bookingID, Cpp.literal "user:" ++ getBytes p.user,
    Cpp.literal "facility:" ++ getBytes p.facility, Cpp.literal "day:" ++ getBytes p.day,
    Cpp.literal "startTime:" ++ getBytes p.startTime, Cpp.literal "endTime:" ++ getBytes p.endTime]

theorem getBytes_readData (p : Report) : getBytes (p.readData.getD []) = Cpp.unlines p.lines := by
  have hline : ∀ (name : String) (value : Text), getBytes (line name value) = Cpp.literal name ++ 58 :: getBytes value := by
    intro name value
    rw [line, getBytes_append]
    rfl
  have hcons : ∀ (l l' : Text) (ls : List Text), FacilityBooking.lines (l :: l' :: ls) =
      l ++ '\n' :: FacilityBooking.lines (l' :: ls) := by
    intro l l' ls
    rw [FacilityBooking.lines, FacilityBooking.lines, List.intercalate_cons_of_ne_nil (List.cons_ne_nil _ _), List.append_assoc]
    rfl
  have hend : ∀ t : Text, getBytes ('\n' :: t) = 10 :: getBytes t := fun _ => rfl
  have hlast : ∀ l : Text, FacilityBooking.lines [l] = l := fun _ => List.intercalate_singleton
  simp only [Report.readData, success, Option.getD_some, Report.fields, hcons, hlast, getBytes_append, hline, hend, List.append_assoc,
    List.cons_append, Cpp.unlines, Report.lines, List.flatMap_cons, List.flatMap_nil]
  rfl

/-- What the client needs of a report to read its lines: no label in the values before the last, and no end of a line in those that it
reads. -/
structure Report.Readable (p : Report) : Prop where
  plain : ∀ t ∈ [p.bookingID, p.user, p.facility, p.day, p.startTime], Plain t
  newline : ∀ t ∈ [p.facility, p.day, p.startTime, p.endTime], (10 : UInt8) ∉ getBytes t

/-- A label is no part of the line of another name. -/
theorem not_infix_named {label : String} (hlabel : label ∈ labels) (name : Bytes) (hname : ¬Cpp.literal label <:+: name ++ [58])
    {t : Text} (ht : Plain t) : ¬Cpp.literal label <:+: (name ++ [58]) ++ getBytes t := by
  have hplain := ht label hlabel
  obtain ⟨part, hpart, hsplit⟩ : ∃ part, (58 : UInt8) ∉ part ∧ Cpp.literal label = part ++ [58] := by
    simp only [labels, List.mem_cons, List.not_mem_nil, or_false] at hlabel
    rcases hlabel with rfl | rfl | rfl | rfl
    · exact ⟨Cpp.literal "facility", by decide, rfl⟩
    · exact ⟨Cpp.literal "day", by decide, rfl⟩
    · exact ⟨Cpp.literal "startTime", by decide, rfl⟩
    · exact ⟨Cpp.literal "endTime", by decide, rfl⟩
  rw [hsplit] at hname hplain ⊢
  exact Cpp.not_infix_line hpart hname hplain

/-- What the client extracts is what is reported. -/
theorem Report.Readable.extract {p : Report} (h : p.Readable) :
    Cpp.Client.extractFacilityName (Cpp.unlines p.lines) = getBytes p.facility ∧
      Cpp.Client.extractDayOfWeek (Cpp.unlines p.lines) = getBytes p.day ∧
      Cpp.Client.extractStartTime (Cpp.unlines p.lines) = getBytes p.startTime ∧
      Cpp.Client.extractEndTime (Cpp.unlines p.lines) = getBytes p.endTime := by
  have hplain := h.plain
  have hnewline := h.newline
  simp only [List.forall_mem_cons] at hplain hnewline
  obtain ⟨hid, huser, hfacility, hday, hstart, _⟩ := hplain
  have hstatus : ∀ label ∈ labels, ¬Cpp.literal label <:+: Cpp.literal "status:SUCCESS" := by decide
  have hidLine : ∀ label ∈ labels, ¬Cpp.literal label <:+: Cpp.literal "bookingID:" ++ getBytes p.bookingID :=
    fun label hlabel => not_infix_named hlabel (Cpp.literal "bookingID") (by revert hlabel label; decide) hid
  have huserLine : ∀ label ∈ labels, ¬Cpp.literal label <:+: Cpp.literal "user:" ++ getBytes p.user :=
    fun label hlabel => not_infix_named hlabel (Cpp.literal "user") (by revert hlabel label; decide) huser
  have hfacilityLine : ∀ label ∈ labels.drop 1, ¬Cpp.literal label <:+: Cpp.literal "facility:" ++ getBytes p.facility :=
    fun label hlabel => not_infix_named (List.mem_of_mem_drop hlabel) (Cpp.literal "facility")
      (by revert hlabel label; decide) hfacility
  have hdayLine : ∀ label ∈ labels.drop 2, ¬Cpp.literal label <:+: Cpp.literal "day:" ++ getBytes p.day :=
    fun label hlabel => not_infix_named (List.mem_of_mem_drop hlabel) (Cpp.literal "day")
      (by revert hlabel label; decide) hday
  have hstartLine : ∀ label ∈ labels.drop 3, ¬Cpp.literal label <:+: Cpp.literal "startTime:" ++ getBytes p.startTime :=
    fun label hlabel => not_infix_named (List.mem_of_mem_drop hlabel) (Cpp.literal "startTime")
      (by revert hlabel label; decide) hstart
  refine ⟨?_, ?_, ?_, ?_⟩
  · refine Cpp.extract_unlines (Cpp.literal "facility") rfl (by decide) (p.lines.take 3) ?_ hnewline.1
    simp only [Report.lines, List.take, List.forall_mem_cons]
    exact ⟨hstatus _ (by decide), hidLine _ (by decide), huserLine _ (by decide), List.forall_mem_nil _⟩
  · refine Cpp.extract_unlines (Cpp.literal "day") rfl (by decide) (p.lines.take 4) ?_ hnewline.2.1
    simp only [Report.lines, List.take, List.forall_mem_cons]
    exact ⟨hstatus _ (by decide), hidLine _ (by decide), huserLine _ (by decide), hfacilityLine _ (by decide),
      List.forall_mem_nil _⟩
  · refine Cpp.extract_unlines (Cpp.literal "startTime") rfl (by decide) (p.lines.take 5) ?_ hnewline.2.2.1
    simp only [Report.lines, List.take, List.forall_mem_cons]
    exact ⟨hstatus _ (by decide), hidLine _ (by decide), huserLine _ (by decide), hfacilityLine _ (by decide),
      hdayLine _ (by decide), List.forall_mem_nil _⟩
  · refine Cpp.extract_unlines (Cpp.literal "endTime") rfl (by decide) (p.lines.take 6) ?_ hnewline.2.2.2.1
    simp only [Report.lines, List.take, List.forall_mem_cons]
    exact ⟨hstatus _ (by decide), hidLine _ (by decide), huserLine _ (by decide), hfacilityLine _ (by decide),
      hdayLine _ (by decide), hstartLine _ (by decide), List.forall_mem_nil _⟩

/-! ## What the client asks for -/

/-- The two characters of a number: what `stoi` reads in them is the number. -/
theorem format02d_two {n : Int} (h : -9 ≤ n ∧ n ≤ 99) :
    (getBytes (format02d n)).length = 2 ∧ Cpp.stoi (getBytes (format02d n)) = some n := by
  have hall : ∀ k < 109, (getBytes (format02d ((k : Nat) - 9 : Int))).length = 2 ∧
      Cpp.stoi (getBytes (format02d ((k : Nat) - 9 : Int))) = some ((k : Nat) - 9 : Int) := by decide +kernel
  have hk := hall (n + 9).toNat (by omega)
  rwa [show (((n + 9).toNat : Nat) : Int) - 9 = n by omega] at hk

/-- The minutes that the client takes a time of two characters each for. -/
theorem totalMinutes_of_two {hour minute : Int} (hhour : -9 ≤ hour ∧ hour ≤ 99) (hminute : -9 ≤ minute ∧ minute ≤ 99)
    (offset : Int) : Cpp.Client.totalMinutes (getBytes (format02d hour ++ format02d minute)) offset =
      Cpp.toInt (hour * 60 + minute + offset) := by
  obtain ⟨hl₁, hs₁⟩ := format02d_two hhour
  obtain ⟨hl₂, hs₂⟩ := format02d_two hminute
  have htake := Cpp.substr_time hl₁ hl₂
  rw [← getBytes_append] at htake
  rw [Cpp.Client.totalMinutes, htake.1, htake.2]
  simp only [Option.bind_eq_bind, Option.bind_some, hs₁, hs₂]

theorem toInt_eq_some {n m : Int} : Cpp.toInt n = some m ↔ (-2 ^ 31 ≤ n ∧ n < 2 ^ 31) ∧ n = m := by
  unfold Cpp.toInt
  split_ifs with h
  · rw [Option.some.injEq, and_iff_right h]
  · exact iff_of_false (fun hn => by cases hn) (fun hn => h hn.1)

/-- The pieces of the text of an update. -/
def updatePieces (bookingID : Text) (p : Report) (start stop : Int) : List Text :=
  [bookingID, p.facility, p.day, decimal (start.tdiv 60), decimal (start.tmod 60), decimal (stop.tdiv 60)] ++
    [decimal (stop.tmod 60)]

/-- The text of the update that the client asks for. -/
theorem updateBooking_of_readable {p : Report} (h : p.Readable) {slot : TimeSlot} (hslot : slot.IsWrittenWithTwo)
    (hstart : p.startTime = slot.getStartTime) (hend : p.endTime = slot.getEndTime) {bookingID : Text} {offset : Int} {text : Bytes}
    (htext : Cpp.Client.updateBooking (getBytes bookingID) offset (getBytes (p.readData.getD [])) = some text) :
    (-2 ^ 31 ≤ slot.startTotal + offset ∧ slot.startTotal + offset < 2 ^ 31) ∧
      (-2 ^ 31 ≤ slot.endTotal + offset ∧ slot.endTotal + offset < 2 ^ 31) ∧
      text = getBytes (joined ("booking".toList :: updatePieces bookingID p (slot.startTotal + offset) (slot.endTotal + offset))) := by
  obtain ⟨hfacility, hday, hstartTime, hendTime⟩ := h.extract
  simp only [TimeSlot.IsWrittenWithTwo, List.forall_mem_cons] at hslot
  obtain ⟨hh₁, hm₁, hh₂, hm₂, _⟩ := hslot
  rw [getBytes_readData, Cpp.Client.updateBooking, hfacility, hday, hstartTime, hendTime, hstart, hend, TimeSlot.getStartTime,
    TimeSlot.getEndTime, totalMinutes_of_two hh₁ hm₁, totalMinutes_of_two hh₂ hm₂] at htext
  simp only [Option.bind_eq_bind, Option.bind_eq_some_iff, toInt_eq_some] at htext
  obtain ⟨_, ⟨hrange₁, rfl⟩, _, ⟨hrange₂, rfl⟩, htext⟩ := htext
  refine ⟨hrange₁, hrange₂, ?_⟩
  have hcomma : ∀ t : Text, getBytes (',' :: t) = Cpp.literal "," ++ getBytes t := fun _ => rfl
  have hlast : ∀ t : Text, joined [t] = t := fun _ => List.intercalate_singleton
  simp only [updatePieces, List.cons_append, List.nil_append, joined_cons_cons, hlast, getBytes_append, hcomma]
  rw [← Option.some.inj htext]
  simp only [List.append_assoc]
  rfl

/-- Hours and minutes of a number of minutes, as C++ divides: both have the sign of the number. -/
theorem tdiv_tmod (n : Int) : n.tdiv 60 * 60 + n.tmod 60 = n ∧ (0 ≤ n → 0 ≤ n.tdiv 60 ∧ 0 ≤ n.tmod 60 ∧ n.tmod 60 < 60) ∧
    (n < 0 → n.tdiv 60 ≤ 0 ∧ n.tmod 60 ≤ 0 ∧ -60 < n.tmod 60) := by
  have hsum := Int.mul_tdiv_add_tmod n 60
  have hlt := Int.tmod_lt_of_pos n (by decide : (0 : Int) < 60)
  have hgt := Int.tmod_lt_of_pos (-n) (by decide : (0 : Int) < 60)
  rw [Int.neg_tmod] at hgt
  refine ⟨by omega, fun hn => ?_, fun hn => ?_⟩
  · have hdiv := Int.tdiv_nonneg hn (by decide : (0 : Int) ≤ 60)
    have hmod := Int.tmod_nonneg 60 hn
    exact ⟨hdiv, hmod, hlt⟩
  · have hdiv := Int.tdiv_nonneg (Int.neg_nonneg_of_nonpos (le_of_lt hn)) (by decide : (0 : Int) ≤ 60)
    have hmod := Int.tmod_nonneg 60 (Int.neg_nonneg_of_nonpos (le_of_lt hn))
    rw [Int.neg_tdiv] at hdiv
    rw [Int.neg_tmod] at hmod
    exact ⟨by omega, by omega, by omega⟩

/-- What the server reads in the text of an update. -/
theorem parse_update (Γ : Jvm) {bookingID : Text} {p : Report} {start stop : Int} {day : DayOfWeek} (hid : ',' ∉ bookingID)
    (hfacility : ',' ∉ p.facility) (hday : p.day = day.name) (hstart : -2 ^ 31 ≤ start ∧ start < 2 ^ 31)
    (hstop : -2 ^ 31 ≤ stop ∧ stop < 2 ^ 31) :
    parseUpdateType (some (joined ("booking".toList :: updatePieces bookingID p start stop))) = .ok "booking".toList ∧
      parseUpdateBookingDetails Γ (some (joined ("booking".toList :: updatePieces bookingID p start stop))) =
        .ok ⟨some bookingID, p.facility, day, start.tdiv 60, start.tmod 60, stop.tdiv 60, stop.tmod 60⟩ := by
  have htext : joined ("booking".toList :: updatePieces bookingID p start stop) =
      updateText bookingID p.facility day (start.tdiv 60) (start.tmod 60) (stop.tdiv 60) (stop.tmod 60) := by
    rw [updateText, updatePieces, hday]
  obtain ⟨hsum, hpos, hneg⟩ := tdiv_tmod start
  obtain ⟨hsum', hpos', hneg'⟩ := tdiv_tmod stop
  rw [htext]
  refine parse_updateText Γ hid hfacility day ?_
  simp only [List.forall_mem_cons]
  exact ⟨by omega, by omega, by omega, by omega, List.forall_mem_nil _⟩

/-! ## What the server does -/

section

variable {Γ : Jvm} {checkHistory : Bool} {s : ServerState} {e : Event}

/-- The IDs of bookings are texts of UUIDs. -/
theorem reachable_ids (hs : Reachable Γ checkHistory s) : ∀ id ∈ ids s.facilities, ∃ u : UUID, id = u.toText := by
  have hinvariant := hs.invariant (fun s => (s.facilities.map Facility.name).Nodup ∧ ∀ id ∈ ids s.facilities, ∃ u : UUID, id = u.toText)
    ?_ fun s e hs => ?_
  · exact hinvariant.2
  · exact ⟨(distinct_init checkHistory).names, fun id hid => absurd hid List.not_mem_nil⟩
  · rw [serverStep, handleRequest_facilities, onFacilities_names]
    refine ⟨hs.1, fun id hid => ?_⟩
    obtain ⟨lost, hperm, _⟩ := stored_onFacilities Γ e (effect Γ s e) hs.1
    obtain ⟨y, hy, rfl⟩ := List.mem_map.1 hid
    rcases List.mem_append.1 (hperm.subset (List.mem_append_right lost hy)) with hgained | hstored
    · exact ⟨e.uuid, (Effect.id_of_mem_gained hgained).2⟩
    · exact hs.2 _ (List.mem_map_of_mem hstored)

/-- What a datagram books under a new ID is found under it. -/
theorem findBooking_made (hs : Reachable Γ checkHistory s) {booking : BookingDetails}
    (hbooking : (effect Γ s e).booking? = some booking) (hfresh : e.uuid.toText ∉ ids s.facilities) :
    ∃ f b, findBooking (serverStep Γ s e).facilities e.uuid.toText = some (f, b) ∧ f.name = booking.facilityName ∧
      b.userInfo = e.userInfo ∧ b.timeSlot = booking.timeSlot := by
  obtain ⟨g, hg, _⟩ := grants_iff.1 (grants_of_effect hbooking)
  obtain ⟨lost, hperm, hlost, _⟩ := stored_onFacilities Γ e (effect Γ s e) (reachable_names_nodup hs)
  rw [serverStep, handleRequest_facilities]
  simp only [Effect.gained, hbooking, hg] at hperm
  generalize hx : (booking.facilityName, (⟨e.uuid.toText, e.userInfo, g.availability.facilityName, booking.timeSlot⟩ : Booking)) = x
    at hperm
  have hid : x.2.confirmationID = e.uuid.toText := by rw [← hx]
  have hmem : x ∈ stored ((effect Γ s e).onFacilities Γ e s.facilities) := by
    rcases List.mem_append.1 (hperm.symm.subset List.mem_cons_self) with hl | hstored
    · exact absurd (hid ▸ List.mem_map_of_mem (hlost x hl).1) hfresh
    · exact hstored
  have honly : ∀ y ∈ stored ((effect Γ s e).onFacilities Γ e s.facilities), y.2.confirmationID = x.2.confirmationID → y = x := by
    intro y hy hyid
    rcases List.mem_cons.1 (hperm.subset (List.mem_append_right lost hy)) with rfl | hstored
    · rfl
    · exact absurd (hid ▸ hyid ▸ List.mem_map_of_mem hstored) hfresh
  obtain ⟨f, hfound, hname⟩ := findBooking_of_unique hmem honly
  rw [hid] at hfound
  refine ⟨f, x.2, hfound, ?_, ?_, ?_⟩
  · rw [hname, ← hx]
  · rw [← hx]
  · rw [← hx]

/-- The name of the facility of a booking has no mark that the texts are taken apart at. -/
theorem name_of_found (hs : Reachable Γ checkHistory s) {bookingID : Text} {f : Facility} {b : Booking}
    (hb : findBooking s.facilities bookingID = some (f, b)) : ∀ c ∈ [',', ':', '\n', 'u'], c ∉ f.name := by
  intro c hmark hc
  obtain ⟨g, hg, hname, _⟩ := mem_stored.1 (stored_of_findBooking hb).1
  rw [← show g.name = f.name from hname] at hc
  exact (reachable_name_chars hs hg c hc).2 hmark

/-- A booking that is stored is reported so that the client can read it, if the text of its user is plain. -/
theorem readable_of_found (hs : Reachable Γ checkHistory s) {bookingID : Text} {f : Facility} {b : Booking}
    (hb : findBooking s.facilities bookingID = some (f, b)) (huser : Plain b.userInfo) : (reportOf (f.name, b)).Readable := by
  obtain ⟨hmem, hid⟩ := stored_of_findBooking hb
  have hnumeric : ¬IsNumeric ':' ∧ ¬IsNumeric '\n' := by decide
  have huuid : ':' ∉ b.confirmationID := by
    obtain ⟨u, hu⟩ := reachable_ids hs b.confirmationID (List.mem_map.2 ⟨_, hmem, rfl⟩)
    intro hc
    rw [hu] at hc
    exact absurd (mem_uuid_toText hc) (by decide)
  have hname : ':' ∉ f.name ∧ '\n' ∉ f.name :=
    ⟨name_of_found hs hb ':' (by decide), name_of_found hs hb '\n' (by decide)⟩
  have hday : ':' ∉ b.getDay.name ∧ '\n' ∉ b.getDay.name := by
    cases b.getDay <;> decide
  have htime : ∀ {c : Char} {hour minute : Int}, ¬IsNumeric c → c ∉ format02d hour ++ format02d minute := fun hc hmem =>
    hc ((List.mem_append.1 hmem).elim isNumeric_of_mem_format02d isNumeric_of_mem_format02d)
  constructor
  · simp only [List.forall_mem_cons, reportOf]
    exact ⟨plain_of_colon huuid, huser, plain_of_colon hname.1, plain_of_colon hday.1, plain_of_colon (htime hnumeric.1),
      List.forall_mem_nil _⟩
  · simp only [List.forall_mem_cons, reportOf]
    exact ⟨newline_notMem_getBytes hname.2, newline_notMem_getBytes hday.2, newline_notMem_getBytes (htime hnumeric.2),
      newline_notMem_getBytes (htime hnumeric.2), List.forall_mem_nil _⟩

/-- The slot that a slot is shifted to. -/
def TimeSlot.shifted (slot : TimeSlot) (offset : Int) : TimeSlot :=
  ⟨(slot.startTotal + offset).tdiv 60, (slot.startTotal + offset).tmod 60, (slot.endTotal + offset).tdiv 60,
    (slot.endTotal + offset).tmod 60, slot.day⟩

/-- The response to the request to read a booking. -/
theorem Exchange.read {u : UUID} {r : RequestMessage}
    (h : Exchange Γ s e .READ (Cpp.Client.queryBooking (getBytes u.toText)) r) {f : Facility} {b : Booking}
    (hb : findBooking s.facilities u.toText = some (f, b)) :
    r.data = (reportOf (f.name, b)).readData ∧ (serverStep Γ s e).facilities = s.facilities := by
  obtain ⟨m, hm, ho, hdata, hnew⟩ := h.request
  have hquery : Cpp.Client.queryBooking (getBytes u.toText) = getBytes ("booking".toList ++ ',' :: u.toText) := by
    rw [Cpp.Client.queryBooking, show Cpp.literal "booking," = getBytes "booking".toList ++ [44] from rfl, getBytes_append,
      List.append_assoc]
    rfl
  rw [hquery, Γ.newString_getBytes] at hdata
  have hread := readsAs_findBooking u e m hm ho hdata hnew
  rw [h.result, hb] at hread
  constructor
  · rw [Except.ok.inj hread]
    rfl
  · have hnothing : effect Γ s e = .nothing := by
      simp only [effect, hm, effectOf_read ho, ite_self]
    rw [serverStep, handleRequest_facilities, hnothing]
    rfl

/-- The booking that is found after a shift that succeeds has the shifted slot. -/
theorem Shift.Succeeds.found {x : Shift} {bookingID : Text} (h : x.Succeeds Γ s bookingID) (hs : Reachable Γ checkHistory s)
    {f : Facility} {b : Booking} (hb : findBooking s.facilities bookingID = some (f, b))
    (hwritten : b.timeSlot.IsWrittenWithTwo) (huser : Plain b.userInfo) :
    ∃ f' b', findBooking (x.after Γ s).facilities x.newID = some (f', b') ∧ b'.userInfo = x.update.userInfo ∧
      b'.timeSlot = b.timeSlot.shifted x.offset := by
  obtain ⟨r, text, r', hread, htext, hupdate, hsuccess, hfresh⟩ := h
  obtain ⟨hmem, hid⟩ := stored_of_findBooking hb
  obtain ⟨u, rfl⟩ := reachable_ids hs bookingID (List.mem_map.2 ⟨_, hmem, hid⟩)
  obtain ⟨hdata, hfacilities⟩ := hread.read hb
  have hreadable := readable_of_found hs hb huser
  rw [hdata] at htext
  obtain ⟨hstart, hstop, rfl⟩ := updateBooking_of_readable hreadable hwritten rfl rfl htext
  obtain ⟨m, hm, ho, hm_data, hnew⟩ := hupdate.request
  rw [Γ.newString_getBytes] at hm_data
  have hname : ',' ∉ f.name := name_of_found hs hb ',' (by decide)
  obtain ⟨htype, hparse⟩ := @parse_update Γ u.toText (reportOf (f.name, b)) _ _ b.getDay (comma_notMem_uuid u) hname rfl hstart hstop
  rw [← hm_data] at htype hparse
  have heffect := (effect_of_success hm (by rw [ho]; decide) hnew hupdate.result hsuccess).1
  have hasked : ∀ booking, parseUpdateBookingDetails Γ m.data = .ok booking → asked Γ m = .move booking := by
    intro booking hbooking
    simp only [asked, ho, askedUpdate, htype, if_true, hbooking]
  rw [hasked _ hparse] at heffect
  rw [← hfacilities] at hfresh
  obtain ⟨f', b', hfound, _, huser', hslot⟩ := findBooking_made (.step hs x.read) (congrArg Effect.booking? heffect) hfresh
  exact ⟨f', b', hfound, huser', hslot⟩

end

/-! ## Sequences of shifts -/

/-- The slot after a shift: its times are exact. -/
theorem TimeSlot.shifted_totals (slot : TimeSlot) (offset : Int) :
    (slot.shifted offset).startTotal = slot.startTotal + offset ∧ (slot.shifted offset).endTotal = slot.endTotal + offset :=
  ⟨(tdiv_tmod _).1, (tdiv_tmod _).1⟩

/-- Within the day the numbers of the slot are written with two characters. -/
theorem TimeSlot.shifted_isWrittenWithTwo {slot : TimeSlot} {offset : Int} (hstart : InDay (slot.startTotal + offset))
    (hstop : InDay (slot.endTotal + offset)) : (slot.shifted offset).IsWrittenWithTwo := by
  obtain ⟨hsum, hpos, _⟩ := tdiv_tmod (slot.startTotal + offset)
  obtain ⟨hsum', hpos', _⟩ := tdiv_tmod (slot.endTotal + offset)
  have hstart' := hpos hstart.1
  have hstop' := hpos' hstop.1
  rw [InDay] at hstart hstop
  simp only [TimeSlot.IsWrittenWithTwo, TimeSlot.shifted, List.forall_mem_cons]
  exact ⟨by omega, by omega, by omega, by omega, List.forall_mem_nil _⟩

/-- A sequence of shifts, each of which succeeds, of a booking whose numbers are written with two characters, by users whose texts
are plain, is exact and stays within the day exactly when the offsets, added one after the other, stay within the day. -/
theorem shifts_exact_iff {Γ : Jvm} {checkHistory : Bool} {s : ServerState} (hs : Reachable Γ checkHistory s) {bookingID : Text}
    {f : Facility} {b : Booking} (hb : findBooking s.facilities bookingID = some (f, b)) (hwritten : b.timeSlot.IsWrittenWithTwo)
    {xs : List Shift} (husers : Plain b.userInfo ∧ ∀ x ∈ xs, Plain x.update.userInfo) (hall : AllSucceed Γ s bookingID xs) :
    AllExact Γ s bookingID xs ↔ StaysInDay b.timeSlot.startTotal b.timeSlot.endTotal xs := by
  induction xs generalizing s bookingID f b with
  | nil => exact Iff.rfl
  | cons x xs ih =>
    obtain ⟨huser, husers⟩ := husers
    obtain ⟨hsucceeds, hall⟩ := hall
    obtain ⟨f', b', hfound, huser', hslot⟩ := hsucceeds.found hs hb hwritten huser
    obtain ⟨hstart, hstop⟩ := b.timeSlot.shifted_totals x.offset
    have hexact : x.IsExact Γ s bookingID ↔
        InDay (b.timeSlot.startTotal + x.offset) ∧ InDay (b.timeSlot.endTotal + x.offset) := by
      constructor
      · rintro ⟨_, b₁, _, b₁', hb₁, hb₁', _, _, hday, hday'⟩
        rw [hfound] at hb₁'
        cases hb₁'
        rw [hslot, hstart] at hday
        rw [hslot, hstop] at hday'
        exact ⟨hday, hday'⟩
      · rintro ⟨hday, hday'⟩
        refine ⟨f, b, f', b', hb, hfound, ?_⟩
        rw [hslot, hstart, hstop]
        exact ⟨rfl, rfl, hday, hday'⟩
    rw [AllExact, StaysInDay, hexact, and_assoc]
    refine and_congr_right fun hday => and_congr_right fun hday' => ?_
    have hwritten' : b'.timeSlot.IsWrittenWithTwo := hslot ▸ TimeSlot.shifted_isWrittenWithTwo hday hday'
    have hs' : Reachable Γ checkHistory (x.after Γ s) := .step (.step hs x.read) x.update
    have hrest := ih hs' hfound hwritten'
      ⟨huser' ▸ husers x List.mem_cons_self, fun y hy => husers y (List.mem_cons_of_mem x hy)⟩ hall
    rw [hrest, hslot, hstart, hstop]

/-- A booking from four to five, the state that it leaves, and the request to read it. -/
def bookAtFour : Event := .sent 5000 ⟨1, 0, some "Weekday1,MONDAY,16,0,17,0".toList⟩ ⟨0x4000, 0x8000000000000000⟩
def bookedAtFour : List Facility :=
  (Effect.book ⟨none, "Weekday1".toList, .MONDAY, 16, 0, 17, 0⟩).onFacilities openJdk bookAtFour (ServerState.init false).facilities
def readAtFour : Event := .sent 5000 ⟨0, 1, some "booking,00000000-0000-4000-8000-000000000000".toList⟩ ⟨0, 1⟩

/-- The report of the booking. -/
def reportAtFour : Report :=
  ⟨bookAtFour.uuid.toText, bookAtFour.userInfo, "Weekday1".toList, "MONDAY".toList, "1600".toList, "1700".toList⟩

theorem found_atFour : ∃ f b, findBooking bookedAtFour bookAtFour.uuid.toText = some (f, b) ∧
    b.timeSlot = ⟨16, 0, 17, 0, .MONDAY⟩ ∧ b.userInfo = bookAtFour.userInfo ∧ reportOf (f.name, b) = reportAtFour :=
  ⟨_, _, rfl, rfl, rfl, rfl⟩

/-- A state with that booking. -/
theorem reachable_bookAtFour : ∃ s, Reachable openJdk false s ∧ s.facilities = bookedAtFour :=
  ⟨_, .step .start bookAtFour,
    serverStep_frame (m := ⟨1, 0, some "Weekday1,MONDAY,16,0,17,0".toList⟩) rfl (fun t ht => by cases ht; decide) rfl⟩

/-- The datagrams by which the client on port 5000 shifts a booking: it reads it, and asks for an update of the text that it makes. -/
def shiftOf (u : UUID) (requestID : BitVec 32) (text : Text) (newUuid : UUID) (offset : Int) : Shift :=
  ⟨.sent 5000 ⟨0, requestID, some ("booking".toList ++ ',' :: u.toText)⟩ ⟨0, 1⟩,
    .sent 5000 ⟨2, requestID + 1, some text⟩ newUuid, offset⟩

section

variable {s : ServerState} {text : Text} {offset : Int} {booking : BookingDetails} {requestID : BitVec 32}

/-- An update is a success when the slot asked for is free. -/
theorem update_of_free {uuid : UUID} (hnew : replayOf s ⟨2, requestID, some text⟩ (.sent 5000 ⟨2, requestID, some text⟩ uuid) = none)
    (hlength : (getBytes text).length < 2 ^ 31) (htype : parseUpdateType (some text) = .ok "booking".toList)
    (hparse : parseUpdateBookingDetails openJdk (some text) = .ok booking) (hgrants : grants s.facilities booking = true) :
    ∃ r, Exchange openJdk s (.sent 5000 ⟨2, requestID, some text⟩ uuid) .UPDATE (getBytes text) r ∧ r.Says "status:SUCCESS" := by
  generalize he : Event.sent 5000 ⟨2, requestID, some text⟩ uuid = e at hnew ⊢
  have hm : deserializeMessage openJdk e.bytes = .ok ⟨2, requestID, some text⟩ := by
    rw [← he]
    exact deserializeMessage_frame _ _ fun t ht => by cases ht; exact hlength
  have ho : (⟨2, requestID, some text⟩ : RequestMessage).getOperation = .UPDATE := rfl
  obtain ⟨f, hf, ha⟩ := grants_iff.1 hgrants
  obtain ⟨old, hresponse⟩ := dispatch_update openJdk (s := s.reset) (e := e) ho htype hparse hf ha
  have hresult : (handleRequest openJdk s e).result = .ok ⟨Operation.UPDATE.getOpCode, requestID,
      success (updatedText old e.uuid.toText e.userInfo booking)⟩ := by
    rw [handleRequest_of_new hm (by rw [ho]; decide) hnew, execute_result]
    exact hresponse
  exact ⟨_, ⟨⟨_, hm, rfl, by rw [openJdk.newString_getBytes], hnew⟩, hresult⟩, says_success rfl⟩

/-- A shift of a booking succeeds when the slot asked for is free. -/
theorem succeeds_of_free (hs : Reachable openJdk false s) {u newUuid : UUID} {f : Facility} {b : Booking} {report : Report} {day : DayOfWeek}
    {start stop : Int} (hb : findBooking s.facilities u.toText = some (f, b)) (hreport : reportOf (f.name, b) = report)
    (hday : report.day = day.name) (hname : ',' ∉ report.facility) (hstart : -2 ^ 31 ≤ start ∧ start < 2 ^ 31)
    (hstop : -2 ^ 31 ≤ stop ∧ stop < 2 ^ 31) (hpieces : text = joined ("booking".toList :: updatePieces u.toText report start stop))
    (hlength : (getBytes text).length < 2 ^ 31) (hlength' : (getBytes ("booking".toList ++ ',' :: u.toText)).length < 2 ^ 31)
    (htext : Cpp.Client.updateBooking (getBytes u.toText) offset (Cpp.unlines report.lines) = some (getBytes text))
    (hgrants : grants s.facilities
      ⟨some u.toText, report.facility, day, start.tdiv 60, start.tmod 60, stop.tdiv 60, stop.tmod 60⟩ = true)
    (hfresh : newUuid.toText ∉ ids s.facilities) :
    (shiftOf u requestID text newUuid offset).Succeeds openJdk s u.toText := by
  obtain ⟨htype, hparse⟩ := @parse_update openJdk _ report _ _ day (comma_notMem_uuid u) hname hday hstart hstop
  rw [← hpieces] at htype hparse
  have hnew : ∀ m e, replayOf s m e = none := replayOf_atLeastOnce (reachable_checkHistory hs)
  generalize hread : Event.sent 5000 ⟨0, requestID, some ("booking".toList ++ ',' :: u.toText)⟩ ⟨0, 1⟩ = read
  have hnew' : ∀ m e, replayOf (serverStep openJdk s read) m e = none :=
    replayOf_atLeastOnce (reachable_checkHistory (.step hs read))
  have hm : deserializeMessage openJdk read.bytes = .ok ⟨0, requestID, some ("booking".toList ++ ',' :: u.toText)⟩ := by
    rw [← hread]
    exact deserializeMessage_frame _ _ fun t ht => by cases ht; exact hlength'
  have hexchange : Exchange openJdk s read .READ (Cpp.Client.queryBooking (getBytes u.toText)) ⟨0, requestID, report.readData⟩ := by
    have hquery : Cpp.Client.queryBooking (getBytes u.toText) = getBytes ("booking".toList ++ ',' :: u.toText) := by
      rw [getBytes_append, getBytes_cons]
      rfl
    refine ⟨⟨_, hm, rfl, by rw [hquery, openJdk.newString_getBytes], hnew _ _⟩, ?_⟩
    have h := readsAs_findBooking u read _ hm rfl rfl (hnew _ _)
    rw [hb] at h
    rw [h, ← hreport]
    rfl
  rw [← (hexchange.read hb).2] at hgrants
  obtain ⟨r, hupdate, hsuccess⟩ := @update_of_free _ _ _ (requestID + 1) newUuid (hnew' _ _) hlength htype hparse hgrants
  rw [shiftOf, hread]
  refine ⟨_, getBytes text, r, hexchange, ?_, hupdate, hsuccess, hfresh⟩
  rw [getBytes_readData]
  exact htext

end

/-- An hour earlier. -/
def anHourEarlier : Shift :=
  shiftOf bookAtFour.uuid 1 "booking,00000000-0000-4000-8000-000000000000,Weekday1,MONDAY,15,0,16,0".toList ⟨0x4000, 0x8000000000000002⟩ (-60)

/-- Ten hours later. -/
def tenHoursLater : Shift :=
  shiftOf bookAtFour.uuid 1 "booking,00000000-0000-4000-8000-000000000000,Weekday1,MONDAY,26,0,27,0".toList ⟨0x4000, 0x8000000000000002⟩ 600

/-- Then an hour and a half later than that. -/
def thenLater : Shift :=
  shiftOf anHourEarlier.update.uuid 3 "booking,00000000-0000-4000-8000-000000000002,Weekday1,MONDAY,16,30,17,30".toList
    ⟨0x4000, 0x8000000000000003⟩ 90

theorem succeeds_anHourEarlier {s : ServerState} (hs : Reachable openJdk false s) (hfacilities : s.facilities = bookedAtFour) :
    anHourEarlier.Succeeds openJdk s bookAtFour.uuid.toText := by
  obtain ⟨f, b, hb, _, _, hreport⟩ := found_atFour
  refine @succeeds_of_free s _ _ _ hs _ _ f b reportAtFour .MONDAY 900 960 (by rw [hfacilities]; exact hb) hreport rfl (by decide)
    (by decide) (by decide) (by decide +kernel) (by decide) (by decide) (by decide +kernel) ?_ ?_
  all_goals
    rw [hfacilities]
    decide +kernel

theorem succeeds_tenHoursLater {s : ServerState} (hs : Reachable openJdk false s) (hfacilities : s.facilities = bookedAtFour) :
    tenHoursLater.Succeeds openJdk s bookAtFour.uuid.toText := by
  obtain ⟨f, b, hb, _, _, hreport⟩ := found_atFour
  refine @succeeds_of_free s _ _ _ hs _ _ f b reportAtFour .MONDAY 1560 1620 (by rw [hfacilities]; exact hb) hreport rfl (by decide)
    (by decide) (by decide) (by decide +kernel) (by decide) (by decide) (by decide +kernel) ?_ ?_
  all_goals
    rw [hfacilities]
    decide +kernel

/-- The messages of the booking and of the first shift. -/
def shiftedToThree : List Sending :=
  [⟨5000, ⟨1, 0, some "Weekday1,MONDAY,16,0,17,0".toList⟩, ⟨0x4000, 0x8000000000000000⟩⟩,
    ⟨5000, ⟨0, 1, some ("booking".toList ++ ',' :: bookAtFour.uuid.toText)⟩, ⟨0, 1⟩⟩,
    ⟨5000, ⟨2, 2, some "booking,00000000-0000-4000-8000-000000000000,Weekday1,MONDAY,15,0,16,0".toList⟩, ⟨0x4000, 0x8000000000000002⟩⟩]

/-- The report of the booking after the first shift. -/
def reportAtThree : Report :=
  ⟨anHourEarlier.newID, bookAtFour.userInfo, "Weekday1".toList, "MONDAY".toList, "1500".toList, "1600".toList⟩

theorem succeeds_thenLater : thenLater.Succeeds openJdk (anHourEarlier.after openJdk (serverStep openJdk (.init false) bookAtFour))
    anHourEarlier.newID := by
  generalize hstate : anHourEarlier.after openJdk (serverStep openJdk (.init false) bookAtFour) = s
  have hevents : shiftedToThree.map Sending.event = [bookAtFour, anHourEarlier.read, anHourEarlier.update] := rfl
  have hthree : ∀ d e e' : Event, serverRun openJdk (.init false) [d, e, e'] =
      serverStep openJdk (serverStep openJdk (serverStep openJdk (.init false) d) e) e' := fun _ _ _ => rfl
  have hrun : s = serverRun openJdk (.init false) (shiftedToThree.map Sending.event) := by
    rw [hevents, hthree, ← hstate, Shift.after]
  have hfacilities : s.facilities = Sending.facilities openJdk (ServerState.init false).facilities shiftedToThree := by
    rw [hrun]
    exact serverRun_sendings (by decide +kernel) rfl
  have hs : Reachable openJdk false s := by
    rw [hrun]
    exact Machine.Reachable.start.run _
  have hfound : (findBooking (Sending.facilities openJdk (ServerState.init false).facilities shiftedToThree) anHourEarlier.newID).map
      (fun x => reportOf (x.1.name, x.2)) = some reportAtThree := by decide +kernel
  obtain ⟨⟨f, b⟩, hb, hreport⟩ := Option.map_eq_some_iff.1 hfound
  refine @succeeds_of_free s _ _ _ hs _ _ f b reportAtThree .MONDAY 990 1050 (by rw [hfacilities]; exact hb) hreport rfl (by decide)
    (by decide) (by decide) (by decide +kernel) (by decide) (by decide) (by decide +kernel) ?_ ?_
  all_goals
    rw [hfacilities]
    decide +kernel

/-- A text that lacks a byte of each label has none of them. -/
theorem plain_of_foreign {user : Text} (hforeign : ∀ label ∈ labels, ∃ b ∈ Cpp.literal label, b ∉ getBytes user) : Plain user := by
  intro label hlabel hpart
  obtain ⟨b, hb, hnot⟩ := hforeign label hlabel
  exact hnot (hpart.subset hb)

theorem plain_userAt5000 : Plain "/127.0.0.1:5000".toList := plain_of_foreign (by decide)

theorem plain_userAt5001 : Plain "/127.0.0.1:5001".toList := plain_of_foreign (by decide)

/-- All these requests are from one user. -/
theorem plain_sent (m : RequestMessage) (u : UUID) : Plain (Event.sent 5000 m u).userInfo := by
  have huser : (Event.sent 5000 m u).userInfo = bookAtFour.userInfo := userInfo_sent 5000 m _ u _
  have htext : bookAtFour.userInfo = "/127.0.0.1:5000".toList := by decide +kernel
  rw [huser, htext]
  exact plain_userAt5000

theorem shifts_exact_iff_twice :
    ∃ s, Reachable openJdk false s ∧ s.facilities = bookedAtFour ∧
      AllSucceed openJdk s bookAtFour.uuid.toText [anHourEarlier, thenLater] ∧
      (AllExact openJdk s bookAtFour.uuid.toText [anHourEarlier, thenLater] ↔ StaysInDay 960 1020 [anHourEarlier, thenLater]) := by
  have hs : Reachable openJdk false (serverStep openJdk (.init false) bookAtFour) := .step .start bookAtFour
  have hfacilities : (serverStep openJdk (.init false) bookAtFour).facilities = bookedAtFour :=
    serverStep_frame (m := ⟨1, 0, some "Weekday1,MONDAY,16,0,17,0".toList⟩) rfl (fun t ht => by cases ht; decide) rfl
  obtain ⟨f, b, hb, hslot, huser, _⟩ := found_atFour
  rw [← hfacilities] at hb
  have husers : ∀ x ∈ [anHourEarlier, thenLater], Plain x.update.userInfo := by
    simp only [List.forall_mem_cons]
    exact ⟨plain_sent _ _, plain_sent _ _, List.forall_mem_nil _⟩
  have hsucceed : AllSucceed openJdk (serverStep openJdk (.init false) bookAtFour) bookAtFour.uuid.toText [anHourEarlier, thenLater] :=
    ⟨succeeds_anHourEarlier hs hfacilities, succeeds_thenLater, trivial⟩
  have hiff := shifts_exact_iff hs hb (by rw [hslot, TimeSlot.IsWrittenWithTwo]; decide) ⟨huser ▸ plain_sent _ _, husers⟩ hsucceed
  rw [hslot] at hiff
  exact ⟨_, hs, hfacilities, hsucceed, hiff⟩

/-- Ten hours after four there is no time of the day, and the server takes it. -/
theorem not_shifts_exact :
    ¬∀ checkHistory s, Reachable openJdk checkHistory s → ∀ bookingID f b, findBooking s.facilities bookingID = some (f, b) →
      Plain b.userInfo → ∀ xs : List Shift, (∀ x ∈ xs, Plain x.update.userInfo) → AllSucceed openJdk s bookingID xs →
        AllExact openJdk s bookingID xs := by
  intro h
  obtain ⟨s, hs, hfacilities⟩ := reachable_bookAtFour
  obtain ⟨f, b, hb, hslot, huser, _⟩ := found_atFour
  rw [← hfacilities] at hb
  have hplain : Plain b.userInfo := huser ▸ plain_sent _ _
  have husers : ∀ x ∈ [tenHoursLater], Plain x.update.userInfo := by
    intro x hx
    rw [List.mem_singleton.1 hx]
    exact plain_sent _ _
  have hsucceeds := succeeds_tenHoursLater hs hfacilities
  obtain ⟨⟨_, _, _, b', _, hb', _, _, hday, _⟩, _⟩ := h false s hs _ f b hb hplain [tenHoursLater] husers ⟨hsucceeds, trivial⟩
  obtain ⟨_, b₁, hb₁, _, hslot'⟩ := hsucceeds.found hs hb (by rw [hslot, TimeSlot.IsWrittenWithTwo]; decide) hplain
  rw [hb'] at hb₁
  cases hb₁
  rw [hslot', hslot] at hday
  exact absurd hday.2 (by decide)

end FacilityBooking
