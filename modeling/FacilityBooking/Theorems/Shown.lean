import FacilityBooking.Client.ResponseParser
import FacilityBooking.Lemmas.Extract
import FacilityBooking.Lemmas.Numbers
import FacilityBooking.Lemmas.Split
import FacilityBooking.Server.Server

/-!
# What the client shows of an availability

The server writes the free slots of each day in a line, and the client takes the lines apart at colons and commas. Whatever the slots
are, as long as their hours and minutes have two digits, and whichever days are asked for, each day that is asked for is shown with
exactly its slots, in order, or as closed; and a notification is shown as the response to a query is.
-/

namespace FacilityBooking

/-! ## Slots, texts and what they are shown as -/

/-- Each number of the slot is from 0 to 99. -/
def TimeSlot.IsTwoDigit (slot : TimeSlot) : Prop :=
  ∀ n ∈ [slot.startHour, slot.startMinute, slot.endHour, slot.endMinute], 0 ≤ n ∧ n ≤ 99

/-- A number of two digits. -/
def twoDigits (n : Int) : Text := [Nat.digitChar (n.toNat / 10), Nat.digitChar (n.toNat % 10)]

/-- `HHMM to HHMM`. -/
def shownSlot (slot : TimeSlot) : Text :=
  twoDigits slot.startHour ++ twoDigits slot.startMinute ++ " to ".toList ++ (twoDigits slot.endHour ++ twoDigits slot.endMinute)

section

variable (name : Text) (slots : DayOfWeek → List TimeSlot) (days : List DayOfWeek)

/-- The line of a day with its free slots, without its end. -/
def dayText (day : DayOfWeek) : Text := day.name ++ ':' :: (slots day).flatMap fun slot => slot.toText ++ [',']

/-- The day has a line: it is asked for, as all days are when none is named, and has free slots. -/
def HasLine (day : DayOfWeek) : Prop := (days = [] ∨ day ∈ days) ∧ slots day ≠ []

instance : DecidablePred (HasLine slots days) := fun _ => inferInstanceAs (Decidable (_ ∧ _))

/-- The lines after the status in what `formatFacilityAvailability` returns, when these are the free slots of the days. -/
def slotsLines : List Text :=
  line "facility" name :: "availableTimeslots:".toList :: (DayOfWeek.values.filter fun day => HasLine slots days day).map (dayText slots)

/-- Those lines, each with its end. -/
def slotsText : Text := Delimited.terminated '\n' (slotsLines name slots days)

/-- The whole text. -/
def slotsMessage : Text := "status:SUCCESS\n".toList ++ slotsText name slots days

/-- The days as the client asks for them. -/
def requested : Bytes := getBytes (joined (days.map DayOfWeek.name))

/-- A day with its slots, separated by commas. -/
def shownSlots (day : DayOfWeek) : Text := day.name ++ ": ".toList ++ ", ".toList.intercalate ((slots day).map shownSlot)

/-- What is shown for a day: its slots, or that it is closed, which is shown of a day only when days are asked for by name. -/
def shownDay (day : DayOfWeek) : Option Text :=
  if days = [] ∨ day ∈ days then
    if slots day = [] then
      if days = [] then none else some (day.name ++ ": Closed".toList)
    else
      some (shownSlots slots day)
  else none

/-- What is shown of an availability. -/
def shown : List Text :=
  "Facility Availability".toList :: ("Facility: ".toList ++ name) :: DayOfWeek.values.filterMap (shownDay slots days)

end

/-! ## The text of the server -/

/-- The days' part of the text. -/
theorem flatMap_formatDay (a : Availability) (days ds : List DayOfWeek) :
    ds.flatMap (formatDay a days) = Delimited.terminated '\n'
      ((ds.filter fun day => HasLine a.getAvailableTimeSlots days day).map (dayText a.getAvailableTimeSlots)) := by
  induction ds with
  | nil => rfl
  | cons day ds ih =>
    rw [List.flatMap_cons, ih]
    by_cases hday : HasLine a.getAvailableTimeSlots days day
    · have hformat : formatDay a days day = dayText a.getAvailableTimeSlots day ++ ['\n'] := by
        have hasked : ¬(days ≠ [] ∧ day ∉ days) := fun h => hday.1.elim h.1 h.2
        rw [formatDay, if_neg hasked]
        cases hslots : a.getAvailableTimeSlots day with
        | nil => exact absurd hslots hday.2
        | cons slot rest => rw [dayText, hslots]
      simp only [List.filter_cons, hday, decide_true, if_true, List.map_cons, Delimited.terminated_cons, hformat, List.append_assoc,
        List.singleton_append]
    · have hformat : formatDay a days day = [] := by
        rw [formatDay]
        split
        · rfl
        · rename_i hasked
          have hslots : a.getAvailableTimeSlots day = [] := by
            by_contra hne
            refine hday ⟨?_, hne⟩
            by_contra hnot
            rw [not_or] at hnot
            exact hasked hnot
          rw [hslots]
      simp only [List.filter_cons, hday, decide_false, Bool.false_eq_true, if_false, hformat, List.nil_append]

/-- The text of the server is that text. -/
theorem formatFacilityAvailability_eq {facilities : List Facility} {name : Text} {f : Facility}
    (hf : getFacility facilities name = some f) (days : List DayOfWeek) :
    formatFacilityAvailability facilities name days = some (slotsMessage name f.availability.getAvailableTimeSlots days) := by
  have htext : slotsText name f.availability.getAvailableTimeSlots days = line "facility" name ++ "\navailableTimeslots:\n".toList ++
      DayOfWeek.values.flatMap (formatDay f.availability days) := by
    rw [flatMap_formatDay, slotsText, slotsLines, Delimited.terminated_cons, Delimited.terminated_cons, List.append_assoc]
    rfl
  rw [formatFacilityAvailability, hf]
  exact congrArg success htext.symm

/-! ## Bytes of texts -/

theorem getBytes_terminated (ls : List Text) :
    getBytes (Delimited.terminated '\n' ls) = Delimited.terminated 10 (ls.map getBytes) := by
  rw [Delimited.terminated, Delimited.terminated, getBytes_flatMap, List.flatMap_map]
  exact List.flatMap_congr fun l _ => getBytes_append l _

/-- The name of a day tells it from the others. -/
theorem getBytes_name_injective {d d' : DayOfWeek} (h : getBytes d.name = getBytes d'.name) : d = d' := by
  have hvalue := DayOfWeek.valueOf_name d
  rw [getBytes_injective h, DayOfWeek.valueOf_name] at hvalue
  exact (Except.ok.inj hvalue).symm

/-- Numbers of two digits are written so. -/
theorem format02d_eq {n : Int} (h : 0 ≤ n ∧ n ≤ 99) : format02d n = twoDigits n ∧ '-' ∉ twoDigits n := by
  have hall : ∀ k < 100, format02d ((k : Nat) : Int) = twoDigits ((k : Nat) : Int) ∧ '-' ∉ twoDigits ((k : Nat) : Int) := by
    decide +kernel
  have hk := hall n.toNat (by omega)
  rwa [Int.toNat_of_nonneg h.1] at hk

namespace Cpp.ResponseParser

/-- The first dash is replaced. -/
theorem formatTimeslot_append {before : Bytes} (h : (45 : UInt8) ∉ before) (after : Bytes) :
    formatTimeslot (before ++ 45 :: after) = before ++ literal "to" ++ after := by
  have hfind : find (before ++ (([] ++ [45]) ++ after)) ([] ++ [45]) 0 = some before.length := by
    refine find_first after fun hpart => h ?_
    rw [List.append_nil] at hpart
    exact hpart.subset List.mem_cons_self
  have hdash : find (before ++ 45 :: after) (literal "-") 0 = some before.length := hfind
  rw [formatTimeslot, hdash]
  dsimp only
  rw [List.take_left, List.drop_length_add_append]
  rfl

/-- The first dash of a slot's text is the one between its times. -/
theorem formatTimeslot_toText {slot : TimeSlot} (h : slot.IsTwoDigit) :
    formatTimeslot (getBytes slot.toText) = getBytes (shownSlot slot) := by
  simp only [TimeSlot.IsTwoDigit, List.forall_mem_cons] at h
  obtain ⟨hstartHour, hstartMinute, hendHour, hendMinute, _⟩ := h
  have hstart : '-' ∉ twoDigits slot.startHour ++ twoDigits slot.startMinute ++ [' '] := by
    simp only [List.mem_append, not_or]
    exact ⟨⟨(format02d_eq hstartHour).2, (format02d_eq hstartMinute).2⟩, by decide⟩
  have htext : getBytes slot.toText = getBytes (twoDigits slot.startHour ++ twoDigits slot.startMinute ++ [' ']) ++
      45 :: getBytes (' ' :: (twoDigits slot.endHour ++ twoDigits slot.endMinute)) := by
    rw [TimeSlot.toText, (format02d_eq hstartHour).1, (format02d_eq hstartMinute).1, (format02d_eq hendHour).1,
      (format02d_eq hendMinute).1]
    simp only [getBytes_append, getBytes_cons, List.append_assoc]
    rfl
  rw [htext, formatTimeslot_append (notMem_getBytes (by decide) rfl hstart), shownSlot]
  simp only [getBytes_append, getBytes_cons, List.append_assoc]
  rfl

/-- The pieces of a day's line, each shown, with a comma and a space after each. -/
theorem foldl_formatTimeslot {ts : List TimeSlot} (h : ∀ slot ∈ ts, slot.IsTwoDigit) (formatted : Bytes) :
    (ts.map fun slot => getBytes slot.toText).foldl
      (fun formatted timeslot => if timeslot = [] then formatted else formatted ++ (formatTimeslot timeslot ++ literal ", ")) formatted =
      formatted ++ ts.flatMap fun slot => getBytes (shownSlot slot) ++ literal ", " := by
  induction ts generalizing formatted with
  | nil => exact (List.append_nil formatted).symm
  | cons slot ts ih =>
    rw [List.forall_mem_cons] at h
    have hne : getBytes slot.toText ≠ [] := getBytes_ne_nil (by simp [TimeSlot.toText])
    rw [List.map_cons, List.foldl_cons, if_neg hne, ih h.2, formatTimeslot_toText h.1, List.flatMap_cons]
    simp only [List.append_assoc]

/-- The last comma and space are removed. -/
theorem cut_separator {formatted : Bytes} (h : formatted ≠ []) :
    (if 2 < (formatted ++ literal ", ").length then (formatted ++ literal ", ").take ((formatted ++ literal ", ").length - 2)
      else formatted ++ literal ", ") = formatted := by
  have hlength : (formatted ++ literal ", ").length = formatted.length + 2 := List.length_append
  have hpositive := List.length_pos_iff.2 h
  rw [hlength, if_pos (by omega), Nat.add_sub_cancel, List.take_left]

/-- A day's line is shown with exactly its slots. -/
theorem formatTimeslots_dayText {slots : DayOfWeek → List TimeSlot} {day : DayOfWeek} (hne : slots day ≠ [])
    (h : ∀ slot ∈ slots day, slot.IsTwoDigit) :
    formatTimeslots (getBytes (dayText slots day)) =
      some (getBytes day.name, getBytes (shownSlots slots day)) := by
  have hname : (58 : UInt8) ∉ getBytes day.name := by cases day <;> decide
  have htext : getBytes (dayText slots day) =
      getBytes day.name ++ 58 :: Delimited.terminated 44 ((slots day).map fun slot => getBytes slot.toText) := by
    rw [dayText, getBytes_append, getBytes_cons, getBytes_flatMap, Delimited.terminated, List.flatMap_map]
    refine congrArg (fun bytes => getBytes day.name ++ 58 :: bytes) (List.flatMap_congr fun slot _ => ?_)
    exact getBytes_append _ _
  have hpieces : getlines (Delimited.terminated 44 ((slots day).map fun slot => getBytes slot.toText)) 44 =
      (slots day).map fun slot => getBytes slot.toText := by
    refine Delimited.pieces_terminated ?_
    rw [List.forall_mem_map]
    intro slot _
    refine notMem_getBytes (by decide) (rfl : _ = ','.toNat) fun hmem => ?_
    have hchar := mem_timeSlot_toText hmem
    revert hchar
    decide
  have hshown : ((slots day).flatMap fun slot => getBytes (shownSlot slot) ++ literal ", ") =
      getBytes (", ".toList.intercalate ((slots day).map shownSlot)) ++ literal ", " := by
    rw [literal, ← getBytes_append, ← Delimited.flatMap_append_separator _ (fun hnil => hne (List.map_eq_nil_iff.1 hnil)),
      getBytes_flatMap, List.flatMap_map]
    exact List.flatMap_congr fun slot _ => (getBytes_append _ _).symm
  rw [htext, formatTimeslots, getline, Delimited.next_append hname]
  dsimp only
  have hcolon : getBytes day.name ++ literal ": " ≠ [] := List.append_ne_nil_of_right_ne_nil _ (by decide)
  rw [hpieces, foldl_formatTimeslot h, hshown, ← List.append_assoc, cut_separator (List.append_ne_nil_of_left_ne_nil hcolon _)]
  simp only [shownSlots, getBytes_append, literal]

/-! ## The lines -/

/-- The first byte of a day's line is the first of its name: the line is none of the others. -/
theorem not_prefix_dayText {label : Bytes} {slots : DayOfWeek → List TimeSlot} {day : DayOfWeek}
    (h : ∀ day : DayOfWeek, label.head? ≠ (getBytes day.name).head?) (hne : label ≠ []) : ¬label <+: getBytes (dayText slots day) := by
  rintro ⟨rest, hrest⟩
  have hname : getBytes day.name ≠ [] := by cases day <;> decide
  have hhead := congrArg List.head? hrest
  rw [dayText, getBytes_append, List.head?_append_of_ne_nil _ hne, List.head?_append_of_ne_nil _ hname] at hhead
  exact h day hhead

/-- The line of a day adds the day to the map. -/
theorem parseLine_dayText {slots : DayOfWeek → List TimeSlot} {day : DayOfWeek} (hne : slots day ≠ [])
    (h : ∀ slot ∈ slots day, slot.IsTwoDigit) (parsed : Parsed) :
    parseLine parsed (getBytes (dayText slots day)) =
      { parsed with
        availabilityMap := Function.update parsed.availabilityMap (getBytes day.name) (some (getBytes (shownSlots slots day))) } := by
  have hfacility : ¬literal "facility:" <+: getBytes (dayText slots day) :=
    not_prefix_dayText (fun day => by cases day <;> decide) (by decide)
  have hheader : ¬literal "availableTimeslots:" <+: getBytes (dayText slots day) :=
    not_prefix_dayText (fun day => by cases day <;> decide) (by decide)
  rw [parseLine, if_neg (fun hfind => hfacility (find_eq_zero_iff.1 hfind)), if_neg (fun hfind => hheader (find_eq_zero_iff.1 hfind)),
    formatTimeslots_dayText hne h]

/-- The lines of days leave the response as it is, and the map has their slots. -/
theorem foldl_dayText {slots : DayOfWeek → List TimeSlot} {ds : List DayOfWeek} (hne : ∀ day ∈ ds, slots day ≠ [])
    (h : ∀ day, ∀ slot ∈ slots day, slot.IsTwoDigit) (parsed : Parsed) :
    let parsed' := (ds.map fun day => getBytes (dayText slots day)).foldl parseLine parsed
    parsed'.parsedResponse = parsed.parsedResponse ∧ ∀ day : DayOfWeek, parsed'.availabilityMap (getBytes day.name) =
      if day ∈ ds then some (getBytes (shownSlots slots day)) else parsed.availabilityMap (getBytes day.name) := by
  induction ds generalizing parsed with
  | nil => exact ⟨rfl, fun day => (if_neg List.not_mem_nil).symm⟩
  | cons d ds ih =>
    rw [List.forall_mem_cons] at hne
    obtain ⟨hresponse, hmap⟩ := ih hne.2 (parseLine parsed (getBytes (dayText slots d)))
    rw [parseLine_dayText hne.1 (h d)] at hresponse hmap
    rw [List.map_cons, List.foldl_cons, parseLine_dayText hne.1 (h d)]
    refine ⟨hresponse, fun day => ?_⟩
    rw [hmap day]
    dsimp only
    by_cases hday : day ∈ ds
    · rw [if_pos hday, if_pos (List.mem_cons_of_mem d hday)]
    · rw [if_neg hday]
      by_cases heq : day = d
      · rw [heq, Function.update_self, if_pos List.mem_cons_self]
      · rw [Function.update_of_ne (fun hname => heq (getBytes_name_injective hname)), if_neg]
        rw [List.mem_cons, not_or]
        exact ⟨heq, hday⟩

/-- The days asked for are read back. -/
theorem getlines_requested (days : List DayOfWeek) :
    getlines (requested days) 44 = days.map fun day => getBytes day.name := by
  have hbytes : requested days = [44].intercalate (days.map fun day => getBytes day.name) := by
    rw [requested, joined]
    induction days with
    | nil => rfl
    | cons day days ih =>
      cases days with
      | nil =>
        rw [List.map_singleton, List.map_singleton, List.intercalate_singleton, List.intercalate_singleton]
      | cons day' days =>
        simp only [List.map_cons] at ih ⊢
        rw [List.intercalate_cons_of_ne_nil (List.cons_ne_nil _ _), List.intercalate_cons_of_ne_nil (List.cons_ne_nil _ _),
          getBytes_append, getBytes_append, ih]
        rfl
  rw [hbytes]
  refine Delimited.pieces_intercalate ?_
  rw [List.forall_mem_map]
  intro day _
  cases day <;> decide

/-- Days are asked for by name exactly when there are some. -/
theorem requested_eq_nil_iff {days : List DayOfWeek} : requested days = [] ↔ days = [] := by
  constructor
  · intro h
    have hdays := getlines_requested days
    rw [h, getlines, Delimited.pieces_nil] at hdays
    exact List.map_eq_nil_iff.1 hdays.symm
  · rintro rfl
    rfl

/-- A day is asked for exactly when its name is among the names. -/
theorem name_mem_iff {day : DayOfWeek} {days : List DayOfWeek} :
    getBytes day.name ∈ (days.map fun day => getBytes day.name) ↔ day ∈ days := by
  rw [List.mem_map]
  constructor
  · rintro ⟨day', hmem, heq⟩
    exact getBytes_name_injective heq ▸ hmem
  · intro hmem
    exact ⟨day, hmem, rfl⟩

/-- Each day is shown as it should be. -/
theorem dayLine_eq {slots : DayOfWeek → List TimeSlot} {days : List DayOfWeek} {availabilityMap : Bytes → Option Bytes}
    (h : ∀ day : DayOfWeek, availabilityMap (getBytes day.name) =
      if HasLine slots days day then some (getBytes (shownSlots slots day)) else none) (day : DayOfWeek) :
    dayLine (decide (requested days ≠ [])) (if decide (requested days ≠ []) then getlines (requested days) 44 else []) availabilityMap
      (getBytes day.name) = (shownDay slots days day).map getBytes := by
  rw [dayLine, shownDay, h day]
  by_cases hdays : days = []
  · subst hdays
    by_cases hslots : slots day = [] <;> simp [requested_eq_nil_iff, HasLine, hslots]
  · have hrequested : requested days ≠ [] := fun hnil => hdays (requested_eq_nil_iff.1 hnil)
    by_cases hday : day ∈ days
    · by_cases hslots : slots day = [] <;>
        simp [hrequested, getlines_requested, name_mem_iff, HasLine, hdays, hday, hslots, getBytes_append, literal]
    · simp [hrequested, getlines_requested, name_mem_iff, hdays, hday]

/-! ## The response -/

variable {name : Text} {slots : DayOfWeek → List TimeSlot} {days : List DayOfWeek}

/-- The lines of the server are lines: none has an end within. -/
theorem newline_notMem_slotsLines (hname : '\n' ∉ name) : ∀ l ∈ slotsLines name slots days, '\n' ∉ l := by
  rw [slotsLines, List.forall_mem_cons, List.forall_mem_cons, List.forall_mem_map]
  refine ⟨?_, by decide, fun day _ => ?_⟩
  · rw [line, List.mem_append, List.mem_cons, not_or, not_or]
    exact ⟨by decide, by decide, hname⟩
  · rw [dayText, List.mem_append, List.mem_cons, List.mem_flatMap, not_or, not_or]
    refine ⟨by cases day <;> decide, by decide, ?_⟩
    rintro ⟨slot, _, hmem⟩
    rcases List.mem_append.1 hmem with hmem | hmem
    · have hchar := mem_timeSlot_toText hmem
      revert hchar
      decide
    · revert hmem
      decide

/-- They are what the client reads after the first line. -/
theorem getlines_slotsText (hname : '\n' ∉ name) :
    getlines (getBytes (slotsText name slots days)) 10 = (slotsLines name slots days).map getBytes := by
  rw [slotsText, getBytes_terminated]
  refine Delimited.pieces_terminated ?_
  rw [List.forall_mem_map]
  exact fun l hl => newline_notMem_getBytes (newline_notMem_slotsLines hname l hl)

/-- The line of the facility is shown, and the one after it is not. -/
theorem parseLine_header (name : Text) (parsed : Parsed) :
    parseLine (parseLine parsed (getBytes (line "facility" name))) (getBytes "availableTimeslots:".toList) =
      { parsed with parsedResponse := parsed.parsedResponse ++ [getBytes ("Facility: ".toList ++ name)] } := by
  have hline : getBytes (line "facility" name) = literal "facility:" ++ getBytes name := by
    rw [line, getBytes_append, getBytes_cons]
    rfl
  have hfirst : find (literal "facility:" ++ getBytes name) (literal "facility:") 0 = some 0 :=
    find_eq_zero_iff.2 (List.prefix_append _ _)
  have hother : ¬find (getBytes "availableTimeslots:".toList) (literal "facility:") 0 = some 0 := by
    rw [find_eq_zero_iff]
    decide
  have hheader : find (getBytes "availableTimeslots:".toList) (literal "availableTimeslots:") 0 = some 0 :=
    find_eq_zero_iff.2 (List.prefix_refl _)
  have hname : (literal "facility:" ++ getBytes name).drop 9 = getBytes name := List.drop_left' rfl
  rw [hline, parseLine, if_neg hother, if_pos hheader, parseLine, if_pos hfirst, hname, getBytes_append]
  rfl

/-- After a first line that is no error, an availability is shown as it is. -/
theorem parse_slotsText (first : Bytes) (hfirst : (10 : UInt8) ∉ first) (hstatus : ¬Constants.STATUS_ERROR <+: first)
    (hname : '\n' ∉ name) (h : ∀ day, ∀ slot ∈ slots day, slot.IsTwoDigit) :
    parseQueryAvailabilityResponse (first ++ 10 :: getBytes (slotsText name slots days)) (requested days) =
      (shown name slots days).map getBytes := by
  have herror : isErrorResponse (first ++ 10 :: getBytes (slotsText name slots days)) =
      (false, getBytes (slotsText name slots days)) := by
    rw [isErrorResponse, getline, Delimited.next_append hfirst]
    dsimp only
    rw [decide_eq_false (fun hfind => hstatus (find_eq_zero_iff.1 hfind))]
  have hasked : ∀ day ∈ DayOfWeek.values.filter (fun day => HasLine slots days day), slots day ≠ [] := by
    intro day hday
    exact (of_decide_eq_true (List.mem_filter.1 hday).2).2
  obtain ⟨hresponse, hmap⟩ := foldl_dayText hasked h
    ⟨[literal "Facility Availability"] ++ [getBytes ("Facility: ".toList ++ name)], fun _ => none⟩
  have hdays : Constants.DAYS_OF_WEEK = DayOfWeek.values.map fun day => getBytes day.name := rfl
  rw [parseQueryAvailabilityResponse, herror]
  dsimp only
  rw [getlines_slotsText hname, slotsLines, List.map_cons, List.map_cons, List.foldl_cons, List.foldl_cons, parseLine_header,
    List.map_map, if_neg Bool.false_ne_true]
  simp only [Function.comp_def]
  rw [hresponse, hdays, List.filterMap_map, shown, List.map_cons, List.map_cons, List.map_filterMap]
  refine congrArg (fun ls => literal "Facility Availability" :: getBytes ("Facility: ".toList ++ name) :: ls)
    (List.filterMap_congr fun day _ => dayLine_eq (fun day => ?_) day)
  rw [hmap day]
  simp only [List.mem_filter, DayOfWeek.mem_values, true_and, decide_eq_true_eq]

end Cpp.ResponseParser

/-- The bytes of a notification. -/
theorem notification_bytes {monitors : List Monitor} {name message : Text} {d : Datagram} (h : d ∈ notifyAll monitors name message) :
    d.bytes = getBytes ("RequestMessage: 0 0 ".toList ++ message) := by
  obtain ⟨m, _, rfl⟩ := List.mem_map.1 h
  have hnumbers : "RequestMessage: ".toList ++ decimal Operation.READ.getOpCode.toInt ++ ' ' :: decimal (0 : BitVec 32).toInt ++ [' '] =
      "RequestMessage: 0 0 ".toList := by decide
  have htext : RequestMessage.toText ⟨Operation.READ.getOpCode, 0, some message⟩ =
      ("RequestMessage: ".toList ++ decimal Operation.READ.getOpCode.toInt ++ ' ' :: decimal (0 : BitVec 32).toInt ++ [' ']) ++
        message := by
    unfold RequestMessage.toText
    simp only [orNull, Option.getD_some, List.append_assoc, List.cons_append, List.nil_append]
  rw [← hnumbers, ← htext]

/-- Of every facility without a newline in its name, for all free slots of two digits on the days and for all days asked for: what
`formatFacilityAvailability` returns is shown with the facility, and then, from Monday to Sunday, each day asked for with exactly its
slots, in order; so is every notification of it. -/
theorem availability_isShown (name : Text) (slots : DayOfWeek → List TimeSlot) (days : List DayOfWeek) (hname : '\n' ∉ name)
    (h : ∀ day, ∀ slot ∈ slots day, slot.IsTwoDigit) :
    (∀ facilities f, getFacility facilities name = some f → f.availability.getAvailableTimeSlots = slots →
      formatFacilityAvailability facilities name days = some (slotsMessage name slots days)) ∧
    (∀ monitors, ∀ d ∈ notifyAll monitors name (slotsMessage name slots days),
      d.bytes = getBytes ("RequestMessage: 0 0 ".toList ++ slotsMessage name slots days)) ∧
    Cpp.ResponseParser.parseQueryAvailabilityResponse (getBytes (slotsMessage name slots days)) (requested days) =
      (shown name slots days).map getBytes ∧
    Cpp.ResponseParser.parseQueryAvailabilityResponse (getBytes ("RequestMessage: 0 0 ".toList ++ slotsMessage name slots days))
      (requested days) = (shown name slots days).map getBytes := by
  have hresponse : getBytes (slotsMessage name slots days) =
      Cpp.literal "status:SUCCESS" ++ 10 :: getBytes (slotsText name slots days) :=
    getBytes_append "status:SUCCESS\n".toList _
  have hnotification : getBytes ("RequestMessage: 0 0 ".toList ++ slotsMessage name slots days) =
      Cpp.literal "RequestMessage: 0 0 status:SUCCESS" ++ 10 :: getBytes (slotsText name slots days) := by
    have hfirst : Cpp.literal "RequestMessage: 0 0 status:SUCCESS" =
        getBytes "RequestMessage: 0 0 ".toList ++ Cpp.literal "status:SUCCESS" := by decide
    rw [getBytes_append, hresponse, hfirst, List.append_assoc]
  refine ⟨?_, fun monitors d => notification_bytes, ?_, ?_⟩
  · rintro facilities f hf rfl
    exact formatFacilityAvailability_eq hf days
  · rw [hresponse]
    exact Cpp.ResponseParser.parse_slotsText _ (by decide) (by decide) hname h
  · rw [hnotification]
    exact Cpp.ResponseParser.parse_slotsText _ (by decide) (by decide) hname h

/-- Two free slots on a Monday, and none on the other days. -/
def mondaySlots (day : DayOfWeek) : List TimeSlot :=
  if day = .MONDAY then [⟨9, 0, 10, 0, .MONDAY⟩, ⟨11, 30, 17, 5, .MONDAY⟩] else []

theorem availability_isShown_monday : Cpp.ResponseParser.parseQueryAvailabilityResponse
    (getBytes (slotsMessage "Gym".toList mondaySlots [.TUESDAY, .MONDAY])) (requested [.TUESDAY, .MONDAY]) =
      ["Facility Availability", "Facility: Gym", "MONDAY: 0900 to 1000, 1130 to 1705", "TUESDAY: Closed"].map Cpp.literal := by
  have hslots : ∀ day, ∀ slot ∈ mondaySlots day, slot.IsTwoDigit := by
    intro day slot hslot
    unfold mondaySlots at hslot
    split_ifs at hslot
    · simp only [List.mem_cons, List.not_mem_nil, or_false] at hslot
      rcases hslot with rfl | rfl <;> simp [TimeSlot.IsTwoDigit]
    · exact absurd hslot List.not_mem_nil
  have hshown : shown "Gym".toList mondaySlots [.TUESDAY, .MONDAY] = ["Facility Availability", "Facility: Gym",
      "MONDAY: 0900 to 1000, 1130 to 1705", "TUESDAY: Closed"].map String.toList := by decide
  rw [(availability_isShown "Gym".toList mondaySlots [.TUESDAY, .MONDAY] (by decide) hslots).2.2.1, hshown, List.map_map]
  rfl

end FacilityBooking
