import FacilityBooking.Lemmas.Requests
import FacilityBooking.Lemmas.Stored
import FacilityBooking.Runs

/-!
# Booking what was asked for

The client puts the name of the facility, as it is entered, before a comma, and the server takes the first six pieces between the
commas, however many there are. A name that is itself the text of a request is booked in place of what was asked for, and only
such a name is.
-/

namespace FacilityBooking

/-! ## What is asked for -/

/-- The booking, with its facility, is of the facility of that name, on that day, from that time to that time. -/
structure AsAsked (facilityName dayOfWeek startTime endTime : Bytes) (x : Text × Booking) : Prop where
  facility : getBytes x.1 = facilityName
  day : getBytes x.2.getDay.name = dayOfWeek
  startHour : Cpp.stoi (startTime.take 2) = some x.2.timeSlot.startHour
  startMinute : Cpp.stoi (startTime.drop 2) = some x.2.timeSlot.startMinute
  endHour : Cpp.stoi (endTime.take 2) = some x.2.timeSlot.endHour
  endMinute : Cpp.stoi (endTime.drop 2) = some x.2.timeSlot.endMinute

/-- One booking is made, as it is asked for, or none and the response is an error. -/
def MadeAsAsked (facilities : List Facility) (facilityName dayOfWeek startTime endTime : Bytes) (outcome : Outcome) : Prop :=
  ∃ r, outcome.result = .ok r ∧
    ((∃ x, (stored outcome.state.facilities).Perm (x :: stored facilities) ∧
        AsAsked facilityName dayOfWeek startTime endTime x) ∨
      r.Says "status:ERROR" ∧ stored outcome.state.facilities = stored facilities)

/-- The runtime decodes those bytes for themselves, whatever ASCII follows them, and makes ASCII of ASCII only: what is no UTF-8 is
replaced by characters that are not ASCII. -/
structure Decodes (Γ : Jvm) (bs : Bytes) : Prop where
  followed : ∀ rest : Text, (∀ c ∈ rest, c.toNat < 128) → Γ.newString (bs ++ getBytes rest) = Γ.newString bs ++ rest
  ascii : (∀ c ∈ Γ.newString bs, c.toNat < 128) → getBytes (Γ.newString bs) = bs

/-- The text is that of a request for a slot that is free: its first six pieces are. -/
def RequestsFreeSlot (Γ : Jvm) (facilities : List Facility) (text : Text) : Prop :=
  ∃ booking, readDetails Γ DayOfWeek.valueOf none (text.splitOn ',') 0 = .ok booking ∧ grants facilities booking = true

/-- The bytes of a text are decoded so. -/
theorem decodes_getBytes (Γ : Jvm) (t : Text) : Decodes Γ (getBytes t) := by
  constructor
  · intro rest _
    rw [← getBytes_append, Γ.newString_getBytes, Γ.newString_getBytes]
  · intro _
    rw [Γ.newString_getBytes]

/-! ## The text of the request -/

/-- Two digits, as an hour or a minute is entered: both sides read the same number. -/
structure TwoDigits (Γ : Jvm) (t : Text) (n : Int) : Prop where
  length : t.length = 2
  digits : ∀ c ∈ t, c.isDigit = true
  parsed : parseInt Γ t = .ok n
  read : Cpp.stoi (getBytes t) = some n

theorem twoDigits_of_isDigit (Γ : Jvm) {b₁ b₂ : UInt8} (h₁ : Cpp.isDigit b₁ = true) (h₂ : Cpp.isDigit b₂ = true) :
    ∃ t n, getBytes t = [b₁, b₂] ∧ TwoDigits Γ t n := by
  have hrange : ∀ b : UInt8, Cpp.isDigit b = true → 48 ≤ b.toNat ∧ b.toNat ≤ 57 := by
    intro b hb
    simp only [Cpp.isDigit, Bool.and_eq_true, decide_eq_true_eq, UInt8.le_iff_toNat_le] at hb
    exact hb
  have hr₁ := hrange b₁ h₁
  have hr₂ := hrange b₂ h₂
  have hbytes : getBytes (ascii [b₁, b₂]) = [b₁, b₂] := by
    refine getBytes_ascii fun b hb => ?_
    simp only [List.mem_cons, List.not_mem_nil, or_false] at hb
    rcases hb with rfl | rfl <;> omega
  have hchar : ∀ n < 58, 48 ≤ n → (Char.ofNat n).isDigit = true ∧ (Char.ofNat n).toNat < 58 := by decide
  have hd₁ := hchar b₁.toNat (by omega) hr₁.1
  have hd₂ := hchar b₂.toNat (by omega) hr₂.1
  have hdigits : ∀ c ∈ ascii [b₁, b₂], c.isDigit = true := by
    intro c hc
    simp only [ascii, List.map_cons, List.map_nil, List.mem_cons, List.not_mem_nil, or_false] at hc
    rcases hc with rfl | rfl
    · exact hd₁.1
    · exact hd₂.1
  have hne : ascii [b₁, b₂] ≠ [] := List.cons_ne_nil _ _
  have hlt : Nat.ofDigitChars 10 (ascii [b₁, b₂]) 0 < 2 ^ 31 := by
    have hvalue : Nat.ofDigitChars 10 (ascii [b₁, b₂]) 0 =
        10 * (10 * 0 + ((Char.ofNat b₁.toNat).toNat - 48)) + ((Char.ofNat b₂.toNat).toNat - 48) := rfl
    omega
  exact ⟨ascii [b₁, b₂], _, hbytes, rfl, hdigits, parseInt_of_isDigit Γ hne hdigits hlt, stoi_of_isDigit hne hdigits hlt⟩

/-- A time that is accepted is an hour and a minute of two digits each. -/
theorem timeRegex_cases (Γ : Jvm) {timeStr : Bytes} (h : Cpp.timeRegex timeStr = true) :
    ∃ hour minute h m, timeStr = getBytes hour ++ getBytes minute ∧ (getBytes hour).length = 2 ∧ (getBytes minute).length = 2 ∧
      TwoDigits Γ hour h ∧ TwoDigits Γ minute m := by
  unfold Cpp.timeRegex at h
  split at h
  · rename_i b₁ b₂ b₃ b₄
    have hdigits : Cpp.isDigit b₁ = true ∧ Cpp.isDigit b₂ = true ∧ Cpp.isDigit b₃ = true ∧ Cpp.isDigit b₄ = true := by
      simp only [Cpp.isDigit, Bool.and_eq_true, Bool.or_eq_true, decide_eq_true_eq] at h ⊢
      grind
    obtain ⟨hour, n, hhour, hn⟩ := twoDigits_of_isDigit Γ hdigits.1 hdigits.2.1
    obtain ⟨minute, n', hminute, hn'⟩ := twoDigits_of_isDigit Γ hdigits.2.2.1 hdigits.2.2.2
    exact ⟨hour, minute, n, n', by rw [hhour, hminute]; rfl, by rw [hhour]; rfl, by rw [hminute]; rfl, hn, hn'⟩
  · cases h

theorem name_of_mem_days {d : Bytes} (h : d ∈ Cpp.Constants.DAYS_OF_WEEK) : ∃ day : DayOfWeek, d = getBytes day.name := by
  simp only [Cpp.Constants.DAYS_OF_WEEK, List.map_cons, List.map_nil, List.mem_cons, List.not_mem_nil, or_false] at h
  rcases h with rfl | rfl | rfl | rfl | rfl | rfl | rfl
  · exact ⟨.MONDAY, rfl⟩
  · exact ⟨.TUESDAY, rfl⟩
  · exact ⟨.WEDNESDAY, rfl⟩
  · exact ⟨.THURSDAY, rfl⟩
  · exact ⟨.FRIDAY, rfl⟩
  · exact ⟨.SATURDAY, rfl⟩
  · exact ⟨.SUNDAY, rfl⟩

/-- What was entered: the texts of the day and of the four numbers. -/
structure Entered (Γ : Jvm) (dayOfWeek startTime endTime : Bytes) (day : DayOfWeek) (h₁ m₁ h₂ m₂ : Text) (b : BookingDetails) :
    Prop where
  day : dayOfWeek = getBytes day.name ∧ b.day = day
  start : startTime = getBytes h₁ ++ getBytes m₁ ∧ (getBytes h₁).length = 2 ∧ (getBytes m₁).length = 2
  stop : endTime = getBytes h₂ ++ getBytes m₂ ∧ (getBytes h₂).length = 2 ∧ (getBytes m₂).length = 2
  startHour : TwoDigits Γ h₁ b.startHour
  startMinute : TwoDigits Γ m₁ b.startMinute
  endHour : TwoDigits Γ h₂ b.endHour
  endMinute : TwoDigits Γ m₂ b.endMinute

/-- What was asked for. -/
theorem entered (Γ : Jvm) {dayOfWeek startTime endTime : Bytes} (facilityName : Text)
    (hday : dayOfWeek ∈ Cpp.Constants.DAYS_OF_WEEK) (hstart : Cpp.timeRegex startTime = true)
    (hend : Cpp.timeRegex endTime = true) :
    ∃ day h₁ m₁ h₂ m₂ b, Entered Γ dayOfWeek startTime endTime day h₁ m₁ h₂ m₂ b ∧ b.prevBookingId = none ∧
      b.facilityName = facilityName := by
  obtain ⟨day, hday⟩ := name_of_mem_days hday
  obtain ⟨h₁, m₁, n₁, k₁, hstart, hh₁, hm₁, hn₁, hk₁⟩ := timeRegex_cases Γ hstart
  obtain ⟨h₂, m₂, n₂, k₂, hend, hh₂, hm₂, hn₂, hk₂⟩ := timeRegex_cases Γ hend
  exact ⟨day, h₁, m₁, h₂, m₂, ⟨none, facilityName, day, n₁, k₁, n₂, k₂⟩,
    ⟨⟨hday, rfl⟩, ⟨hstart, hh₁, hm₁⟩, ⟨hend, hh₂, hm₂⟩, hn₁, hk₁, hn₂, hk₂⟩, rfl, rfl⟩

section

variable {Γ : Jvm} {dayOfWeek startTime endTime : Bytes} {day : DayOfWeek} {h₁ m₁ h₂ m₂ : Text} {b : BookingDetails}

/-- The text that the server is sent. -/
theorem Entered.data (h : Entered Γ dayOfWeek startTime endTime day h₁ m₁ h₂ m₂ b) (facilityName : Bytes) :
    Cpp.Client.bookFacility facilityName dayOfWeek startTime endTime =
      some (facilityName ++ getBytes (',' :: joined ([day.name, h₁, m₁, h₂] ++ [m₂]))) := by
  obtain ⟨hstart, hh₁, hm₁⟩ := h.start
  obtain ⟨hstop, hh₂, hm₂⟩ := h.stop
  have hcomma : ∀ t : Text, getBytes (',' :: t) = Cpp.literal "," ++ getBytes t := fun _ => rfl
  have hjoined : joined ([day.name, h₁, m₁, h₂] ++ [m₂]) =
      day.name ++ ',' :: (h₁ ++ ',' :: (m₁ ++ ',' :: (h₂ ++ ',' :: m₂))) := by
    simp only [List.cons_append, List.nil_append, joined_cons_cons]
    rw [joined, List.intercalate_singleton]
  rw [Cpp.Client.bookFacility, hstart, hstop, (Cpp.substr_time hh₁ hm₁).1, (Cpp.substr_time hh₁ hm₁).2, (Cpp.substr_time hh₂ hm₂).1,
    (Cpp.substr_time hh₂ hm₂).2, h.day.1, hjoined]
  simp only [getBytes_append, hcomma, List.append_assoc]
  rfl

/-- No piece but the name has a comma, and each is ASCII. -/
theorem Entered.pieces (h : Entered Γ dayOfWeek startTime endTime day h₁ m₁ h₂ m₂ b) :
    ∀ piece ∈ [day.name, h₁, m₁, h₂] ++ [m₂], ∀ c ∈ piece, c ≠ ',' ∧ c.toNat < 128 := by
  have hdigit : ∀ c : Char, c.isDigit = true → c ≠ ',' ∧ c.toNat < 128 := by
    intro c hc
    obtain ⟨d, hd, rfl⟩ := digit_of_isDigit hc
    exact (by decide : ∀ d < 10, Char.ofNat (48 + d) ≠ ',' ∧ (Char.ofNat (48 + d)).toNat < 128) d hd
  have hname : ∀ c ∈ day.name, c ≠ ',' ∧ c.toNat < 128 := by
    cases day <;> exact List.all_iff_forall_prop.1 (by decide)
  intro piece hpiece c hc
  simp only [List.cons_append, List.nil_append, List.mem_cons, List.not_mem_nil, or_false] at hpiece
  rcases hpiece with rfl | rfl | rfl | rfl | rfl
  · exact hname c hc
  · exact hdigit c (h.startHour.digits c hc)
  · exact hdigit c (h.startMinute.digits c hc)
  · exact hdigit c (h.endHour.digits c hc)
  · exact hdigit c (h.endMinute.digits c hc)

/-- The pieces that the server reads. -/
theorem Entered.split (h : Entered Γ dayOfWeek startTime endTime day h₁ m₁ h₂ m₂ b) (t : Text) :
    split (t ++ ',' :: joined ([day.name, h₁, m₁, h₂] ++ [m₂])) = t.splitOn ',' ++ ([day.name, h₁, m₁, h₂] ++ [m₂]) := by
  have hcomma : ∀ piece ∈ [day.name, h₁, m₁, h₂] ++ [m₂], ',' ∉ piece :=
    fun piece hpiece hmem => (h.pieces piece hpiece ',' hmem).1 rfl
  refine split_append_joined t (fun piece hpiece => hcomma piece (List.mem_append_left _ hpiece))
    (hcomma m₂ (List.mem_append_right _ List.mem_cons_self)) ?_
  intro hnil
  have hlength := h.endMinute.length
  rw [hnil] at hlength
  cases hlength

/-- What the server decodes. -/
theorem Entered.text (h : Entered Γ dayOfWeek startTime endTime day h₁ m₁ h₂ m₂ b) {facilityName data : Bytes}
    (hname : Decodes Γ facilityName)
    (hdata : Cpp.Client.bookFacility facilityName dayOfWeek startTime endTime = some data) :
    Γ.newString data = Γ.newString facilityName ++ ',' :: joined ([day.name, h₁, m₁, h₂] ++ [m₂]) := by
  rw [h.data, Option.some.injEq] at hdata
  subst hdata
  refine hname.followed _ fun c hc => ?_
  rw [List.mem_cons] at hc
  rcases hc with rfl | hc
  · decide
  · rcases mem_joined hc with rfl | ⟨piece, hpiece, hc⟩
    · decide
    · exact (h.pieces piece hpiece c hc).2

/-- A booking of the slot that was asked for. -/
theorem Entered.asAsked (h : Entered Γ dayOfWeek startTime endTime day h₁ m₁ h₂ m₂ b) {facilityName : Bytes} {x : Text × Booking}
    (hx : getBytes x.1 = facilityName) (hslot : x.2.timeSlot = b.timeSlot) :
    AsAsked facilityName dayOfWeek startTime endTime x := by
  obtain ⟨hstart, hh₁, _⟩ := h.start
  obtain ⟨hend, hh₂, _⟩ := h.stop
  have hday : x.2.getDay = day := (congrArg TimeSlot.day hslot).trans h.day.2
  refine ⟨hx, ?_, ?_, ?_, ?_, ?_⟩
  · rw [hday, h.day.1]
  · rw [hstart, List.take_left' hh₁, hslot]
    exact h.startHour.read
  · rw [hstart, List.drop_left' hh₁, hslot]
    exact h.startMinute.read
  · rw [hend, List.take_left' hh₂, hslot]
    exact h.endHour.read
  · rw [hend, List.drop_left' hh₂, hslot]
    exact h.endMinute.read

/-- The details that are read when the name of the facility is one piece. -/
theorem Entered.read_of_one (h : Entered Γ dayOfWeek startTime endTime day h₁ m₁ h₂ m₂ b) {t : Text}
    (hprev : b.prevBookingId = none) (hname : b.facilityName = t) {booking : BookingDetails} :
    readDetails Γ DayOfWeek.valueOf none ([t] ++ ([day.name, h₁, m₁, h₂] ++ [m₂])) 0 = .ok booking ↔ booking = b := by
  rw [readDetails_eq_ok]
  simp only [List.cons_append, List.nil_append, List.getElem?_cons_zero, List.getElem?_cons_succ, Option.some.injEq]
  constructor
  · rintro ⟨_, _, _, _, _, ⟨hf, rfl, rfl, rfl, rfl, rfl⟩, hp, hday, hh₁, hm₁, hh₂, hm₂⟩
    obtain ⟨p, f, d, a₁, b₁, a₂, b₂⟩ := booking
    obtain ⟨p', f', d', a₁', b₁', a₂', b₂'⟩ := b
    have hday' := h.day.2
    rw [DayOfWeek.valueOf_name, ← hday', Except.ok.injEq] at hday
    rw [h.startHour.parsed, Except.ok.injEq] at hh₁
    rw [h.startMinute.parsed, Except.ok.injEq] at hm₁
    rw [h.endHour.parsed, Except.ok.injEq] at hh₂
    rw [h.endMinute.parsed, Except.ok.injEq] at hm₂
    dsimp only at *
    rw [← hp, hprev, ← hf, hname, hday, hh₁, hm₁, hh₂, hm₂]
  · rintro rfl
    exact ⟨_, _, _, _, _, ⟨hname.symm, rfl, rfl, rfl, rfl, rfl⟩, hprev.symm, h.day.2 ▸ DayOfWeek.valueOf_name _, h.startHour.parsed,
      h.startMinute.parsed, h.endHour.parsed, h.endMinute.parsed⟩

/-- The details that the server reads: those that were asked for, or those that the name of the facility requests. -/
theorem Entered.read (h : Entered Γ dayOfWeek startTime endTime day h₁ m₁ h₂ m₂ b) {t : Text} (hprev : b.prevBookingId = none)
    (hname : b.facilityName = t) {booking : BookingDetails} :
    parseBookingDetails Γ (some (t ++ ',' :: joined ([day.name, h₁, m₁, h₂] ++ [m₂]))) = .ok booking ↔
      (',' ∉ t ∧ booking = b) ∨ readDetails Γ DayOfWeek.valueOf none (t.splitOn ',') 0 = .ok booking := by
  have hread : parseBookingDetails Γ (some (t ++ ',' :: joined ([day.name, h₁, m₁, h₂] ++ [m₂]))) =
      readDetails Γ DayOfWeek.valueOf none (t.splitOn ',' ++ ([day.name, h₁, m₁, h₂] ++ [m₂])) 0 := by
    rw [parseBookingDetails, splitData, h.split]
    rfl
  rw [hread]
  by_cases hcomma : ',' ∈ t
  · -- the name has two pieces or more, and the day comes in the place of a number or after the sixth piece
    have htwo : 2 ≤ (t.splitOn ',').length := by
      obtain ⟨l, r, rfl⟩ := List.append_of_mem hcomma
      rw [List.splitOn_append_cons_self, List.length_append]
      have hl := List.length_pos_of_ne_nil (List.splitOn_ne_nil ',' l)
      have hr := List.length_pos_of_ne_nil (List.splitOn_ne_nil ',' r)
      omega
    have hright : (',' ∉ t ∧ booking = b) ∨ readDetails Γ DayOfWeek.valueOf none (t.splitOn ',') 0 = .ok booking ↔
        readDetails Γ DayOfWeek.valueOf none (t.splitOn ',') 0 = .ok booking :=
      or_iff_right fun hnot => hnot.1 hcomma
    rw [hright]
    by_cases hsix : (t.splitOn ',').length < 6
    · refine iff_of_false ?_ (readDetails_of_length_lt (by omega))
      refine readDetails_of_not_number (j := (t.splitOn ',').length) (by omega) ?_ (parseInt_name Γ day)
      rw [List.getElem?_append_right (le_refl _), Nat.sub_self]
      rfl
    · exact readDetails_append (by omega)
  · have hshort : readDetails Γ DayOfWeek.valueOf none (t.splitOn ',') 0 ≠ .ok booking := by
      rw [List.splitOn_eq_singleton hcomma]
      exact readDetails_of_length_lt (by simp)
    rw [or_iff_left hshort, and_iff_right hcomma, List.splitOn_eq_singleton hcomma]
    exact h.read_of_one hprev hname

end

/-! ## What is made -/

/-- One element more tells which. -/
theorem eq_of_perm_cons {α : Type} {l l' : List α} {x y : α} (hx : l'.Perm (x :: l)) (hy : l'.Perm (y :: l)) : x = y := by
  have hperm := Multiset.coe_eq_coe.2 (hx.symm.trans hy)
  rw [← Multiset.cons_coe, ← Multiset.cons_coe] at hperm
  exact (Multiset.cons_inj_left _).1 hperm

section

variable {Γ : Jvm} {checkHistory : Bool} {s : ServerState} {e : Event} {m : RequestMessage}

/-- A `WRITE` that is executed makes the booking that is read, if it is granted. -/
theorem made_of_grants (hs : Reachable Γ checkHistory s) (hm : deserializeMessage Γ e.bytes = .ok m)
    (ho : m.getOperation = .WRITE) (hnew : replayOf s m e = none) {booking : BookingDetails}
    (hparse : parseBookingDetails Γ m.data = .ok booking) (hgrants : grants s.facilities booking = true) :
    ∃ r x, (handleRequest Γ s e).result = .ok r ∧
      (stored (handleRequest Γ s e).state.facilities).Perm (x :: stored s.facilities) ∧ x.1 = booking.facilityName ∧
      x.2.timeSlot = booking.timeSlot := by
  obtain ⟨f, hf, ha⟩ := grants_iff.1 hgrants
  have heffect : effectOf Γ s.reset.facilities m = .book booking := by
    have hgranted : (Effect.book booking).granted s.reset.facilities = true := hgrants
    rw [effectOf, asked, ho]
    simp only [hparse, Effect.ifGranted, hgranted, if_true]
  obtain ⟨lost, hperm, hlost, _⟩ := stored_onFacilities Γ e (.book booking) (reachable_names_nodup hs)
  have hnil : lost = [] := List.eq_nil_iff_forall_not_mem.2 fun x hx => (hlost x hx).2.elim
  rw [hnil, List.nil_append] at hperm
  rw [handleRequest_of_new hm (by rw [ho]; decide) hnew]
  rcases execute_cases Γ s.reset m e with ⟨x, hread, _⟩ | ⟨r, last, monitors, sent, _, _, _, _, hrun⟩
  · cases ho.symm.trans hread
  · rw [hrun, heffect]
    simp only [Effect.gained, Effect.booking?, hf] at hperm
    exact ⟨r, _, rfl, hperm, rfl, rfl⟩

/-- One that is refused makes none and answers an error. -/
theorem refused_of_not_grants (hm : deserializeMessage Γ e.bytes = .ok m) (ho : m.getOperation = .WRITE)
    (hnew : replayOf s m e = none)
    (hnot : ∀ booking, parseBookingDetails Γ m.data = .ok booking → grants s.facilities booking = false) :
    ∃ r, (handleRequest Γ s e).result = .ok r ∧ r.Says "status:ERROR" ∧
      (handleRequest Γ s e).state.facilities = s.facilities := by
  have heffect : effectOf Γ s.reset.facilities m = .nothing := by
    rw [effectOf, asked, ho]
    cases hparse : parseBookingDetails Γ m.data with
    | error x => rfl
    | ok booking =>
      have hgranted : (Effect.book booking).granted s.reset.facilities = false := hnot booking hparse
      simp only [Effect.ifGranted, hgranted, Bool.false_eq_true, if_false]
  rw [handleRequest_of_new hm (by rw [ho]; decide) hnew]
  rcases execute_cases Γ s.reset m e with ⟨x, hread, _⟩ | ⟨r, last, monitors, sent, _, hanswers, _, _, hrun⟩
  · cases ho.symm.trans hread
  · rw [hrun, heffect]
    refine ⟨r, rfl, ?_, rfl⟩
    rcases hanswers.data with ⟨_, hne | hread⟩ | ⟨⟨message, hmessage⟩, _⟩
    · exact absurd heffect hne
    · cases ho.symm.trans hread
    · exact says_error hmessage

/-- The name of a facility is ASCII and has no comma. -/
theorem name_of_getFacility (hs : Reachable Γ checkHistory s) {name : Text} {f : Facility}
    (hf : getFacility s.facilities name = some f) : ∀ c ∈ name, c ≠ ',' ∧ c.toNat < 128 := by
  intro c hc
  rw [← getFacility_name hf] at hc
  obtain ⟨hascii, hmarks⟩ := reachable_name_chars hs (getFacility_mem hf) c hc
  simp only [List.mem_cons, not_or] at hmarks
  exact ⟨hmarks.1, hascii⟩

/-- Of what is asked for, exactly that is booked or nothing, if and only if the name of the facility is not itself the text of a
request for a slot that is free. -/
theorem bookFacility_asAsked_iff (hs : Reachable Γ checkHistory s) {facilityName dayOfWeek startTime endTime data : Bytes}
    (hname : Decodes Γ facilityName) (hday : dayOfWeek ∈ Cpp.Constants.DAYS_OF_WEEK)
    (hstart : Cpp.timeRegex startTime = true) (hend : Cpp.timeRegex endTime = true)
    (hdata : Cpp.Client.bookFacility facilityName dayOfWeek startTime endTime = some data)
    (hm : deserializeMessage Γ e.bytes = .ok m) (ho : m.getOperation = .WRITE) (htext : m.data = some (Γ.newString data))
    (hnew : replayOf s m e = none) :
    MadeAsAsked s.facilities facilityName dayOfWeek startTime endTime (handleRequest Γ s e) ↔
      ¬RequestsFreeSlot Γ s.facilities (Γ.newString facilityName) := by
  obtain ⟨day, h₁, m₁, h₂, m₂, b, h, hprev, hb⟩ := entered Γ (Γ.newString facilityName) hday hstart hend
  have hparse : ∀ booking, parseBookingDetails Γ m.data = .ok booking ↔
      (',' ∉ Γ.newString facilityName ∧ booking = b) ∨
        readDetails Γ DayOfWeek.valueOf none ((Γ.newString facilityName).splitOn ',') 0 = .ok booking := by
    intro booking
    rw [htext, h.text hname hdata]
    exact h.read hprev hb
  constructor
  · rintro ⟨r, _, hmade⟩ ⟨booking, hread, hgrants⟩
    obtain ⟨_, x, _, hperm, hx, _⟩ := made_of_grants hs hm ho hnew ((hparse booking).2 (Or.inr hread)) hgrants
    rcases hmade with ⟨y, hperm', hy⟩ | ⟨_, hsame⟩
    · obtain rfl := eq_of_perm_cons hperm hperm'
      obtain ⟨f, hf, _⟩ := grants_iff.1 hgrants
      have hsame : Γ.newString facilityName = booking.facilityName := by rw [← hy.facility, hx, Γ.newString_getBytes]
      have hcomma : ',' ∉ Γ.newString facilityName := fun hc => (name_of_getFacility hs hf ',' (hsame ▸ hc)).1 rfl
      rw [List.splitOn_eq_singleton hcomma] at hread
      exact readDetails_of_length_lt (by simp) hread
    · have hlength := hperm.length_eq
      rw [hsame, List.length_cons] at hlength
      omega
  · intro hnot
    by_cases hgranted : ∃ booking, parseBookingDetails Γ m.data = .ok booking ∧ grants s.facilities booking = true
    · obtain ⟨booking, hbooking, hgrants⟩ := hgranted
      obtain ⟨r, x, hresult, hperm, hx, hslot⟩ := made_of_grants hs hm ho hnew hbooking hgrants
      obtain ⟨hcomma, rfl⟩ : ',' ∉ Γ.newString facilityName ∧ booking = b :=
        ((hparse booking).1 hbooking).resolve_right fun hread => hnot ⟨booking, hread, hgrants⟩
      obtain ⟨f, hf, _⟩ := grants_iff.1 hgrants
      refine ⟨r, hresult, Or.inl ⟨x, hperm, h.asAsked ?_ hslot⟩⟩
      rw [hx, hb]
      exact hname.ascii fun c hc => (name_of_getFacility hs hf c (hb ▸ hc)).2
    · obtain ⟨r, hresult, herror, hfacilities⟩ := refused_of_not_grants hm ho hnew fun booking hbooking =>
        Bool.eq_false_iff.2 fun hgrants => hgranted ⟨booking, hbooking, hgrants⟩
      exact ⟨r, hresult, Or.inr ⟨herror, by rw [hfacilities]⟩⟩

end

/-- A request to book the first facility on Tuesday, and one under a name that requests it on Monday. -/
def askTuesday : Event := .sent 5000 ⟨1, 0, some "Weekday1,TUESDAY,09,00,10,00".toList⟩ ⟨0, 0⟩
def askAmiss : Event := .sent 5000 ⟨1, 0, some "Weekday1,MONDAY,10,0,11,0,TUESDAY,09,00,10,00".toList⟩ ⟨0, 0⟩

theorem bookFacility_asAsked_iff_tuesday :
    MadeAsAsked (ServerState.init false).facilities (Cpp.literal "Weekday1") (Cpp.literal "TUESDAY") (Cpp.literal "0900")
        (Cpp.literal "1000") (handleRequest openJdk (.init false) askTuesday) ↔
      ¬RequestsFreeSlot openJdk (ServerState.init false).facilities (openJdk.newString (Cpp.literal "Weekday1")) := by
  have hdata : Cpp.Client.bookFacility (Cpp.literal "Weekday1") (Cpp.literal "TUESDAY") (Cpp.literal "0900") (Cpp.literal "1000") =
      some (getBytes "Weekday1,TUESDAY,09,00,10,00".toList) := rfl
  refine bookFacility_asAsked_iff (m := ⟨1, 0, some "Weekday1,TUESDAY,09,00,10,00".toList⟩) (.start : Reachable openJdk false _)
    (decodes_getBytes _ _) (by decide) (by decide) (by decide) hdata
    (deserializeMessage_frame _ _ fun t ht => by cases ht; decide) rfl ?_ rfl
  rw [openJdk.newString_getBytes]

/-- The name of the facility is booked in place of what is asked for. -/
theorem not_bookFacility_asAsked :
    ¬∀ checkHistory s, Reachable openJdk checkHistory s → ∀ facilityName dayOfWeek startTime endTime data,
      Decodes openJdk facilityName → dayOfWeek ∈ Cpp.Constants.DAYS_OF_WEEK → Cpp.timeRegex startTime = true →
      Cpp.timeRegex endTime = true → Cpp.Client.bookFacility facilityName dayOfWeek startTime endTime = some data →
      ∀ (e : Event) (m : RequestMessage), deserializeMessage openJdk e.bytes = .ok m → m.getOperation = .WRITE →
      m.data = some (openJdk.newString data) → replayOf s m e = none →
      MadeAsAsked s.facilities facilityName dayOfWeek startTime endTime (handleRequest openJdk s e) := by
  intro h
  have hm : deserializeMessage openJdk askAmiss.bytes =
      .ok ⟨1, 0, some "Weekday1,MONDAY,10,0,11,0,TUESDAY,09,00,10,00".toList⟩ :=
    deserializeMessage_frame _ _ fun t ht => by cases ht; decide
  obtain ⟨r, hr, hmade⟩ := h false _ .start (Cpp.literal "Weekday1,MONDAY,10,0,11,0") (Cpp.literal "TUESDAY") (Cpp.literal "0900")
    (Cpp.literal "1000") (getBytes "Weekday1,MONDAY,10,0,11,0,TUESDAY,09,00,10,00".toList) (decodes_getBytes _ _) (by decide)
    (by decide) (by decide) rfl askAmiss _ hm rfl (by rw [openJdk.newString_getBytes]) rfl
  obtain ⟨_, x, _, hperm, hx, _⟩ := @made_of_grants openJdk false (.init false) askAmiss _ .start hm rfl rfl
    ⟨none, "Weekday1".toList, .MONDAY, 10, 0, 11, 0⟩ rfl (by decide)
  rcases hmade with ⟨y, hperm', hy⟩ | ⟨_, hsame⟩
  · obtain rfl := eq_of_perm_cons hperm hperm'
    have hfacility := hy.facility
    rw [hx] at hfacility
    exact absurd hfacility (by decide)
  · have hlength := hperm.length_eq
    rw [hsame, List.length_cons] at hlength
    omega

end FacilityBooking
