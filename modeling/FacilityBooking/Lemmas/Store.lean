import FacilityBooking.Lib.HalfOpen
import FacilityBooking.Server.Services
import Mathlib.Data.Prod.Lex

/-!
# Calendars, and the store of bookings

The abstract store: an hour and a minute are an instant, instants are ordered lexicographically, a slot is a half-open interval
of instants, and a calendar is a timetable for each day. `Availability.Shows` is the refinement: booking an available slot and
removing a booking are the two operations of a calendar. The rest says what `removeTimeSlot` and `modifyFacility` change and
what they leave.
-/

namespace FacilityBooking

/-- A time of the day, in lexicographic order. -/
abbrev Instant := ℤ ×ₗ ℤ

def Instant.mk (hour minute : Int) : Instant := toLex (hour, minute)

theorem Instant.mk_le_mk {h m h' m' : Int} : Instant.mk h m ≤ Instant.mk h' m' ↔ h < h' ∨ h = h' ∧ m ≤ m' :=
  Prod.Lex.toLex_le_toLex

theorem Instant.mk_lt_mk {h m h' m' : Int} : Instant.mk h m < Instant.mk h' m' ↔ h < h' ∨ h = h' ∧ m < m' :=
  Prod.Lex.toLex_lt_toLex

namespace TimeSlot

/-- The interval of instants a slot stands for. -/
def span (slot : TimeSlot) : HalfOpen Instant where
  start := Instant.mk slot.startHour slot.startMinute
  stop := Instant.mk slot.endHour slot.endMinute

/-- The code's comparison of two slots is the overlap of their intervals. -/
theorem conflictsWith_iff (slot other : TimeSlot) :
    slot.conflictsWith other = true ↔ HalfOpen.Overlaps slot.span other.span := by
  rw [← not_iff_not, HalfOpen.not_overlaps_iff]
  simp only [span, Instant.mk_le_mk, conflictsWith, gt_iff_lt, ge_iff_le, Bool.or_eq_true, Bool.and_eq_true,
    decide_eq_true_eq, beq_iff_eq]
  split
  · rename_i h
    exact iff_of_true Bool.false_ne_true (Or.inr h)
  · rename_i h
    split
    · rename_i h'
      refine iff_of_true Bool.false_ne_true (Or.inl ?_)
      rwa [eq_comm (a := other.endHour)]
    · rename_i h'
      refine iff_of_false (not_not_intro rfl) ?_
      rw [eq_comm (a := other.endHour)]
      exact not_or.2 ⟨h', h⟩

end TimeSlot

/-- The interval of a booking. -/
def Booking.span (b : Booking) : HalfOpen Instant := b.timeSlot.span

namespace Availability

/-- The opening hours of a day, as `setAvaOfDay` configured them. -/
def opening (a : Availability) (day : DayOfWeek) : HalfOpen Instant where
  start := Instant.mk (a.startHour day) (a.startMinute day)
  stop := Instant.mk (a.endHour day) (a.endMinute day)

/-- A slot is available when its day is open and it overlaps no booking of the day. -/
theorem isAvailable_iff (a : Availability) (slot : TimeSlot) :
    a.isAvailable slot = true ↔
      a.days slot.day = true ∧ ∀ b ∈ a.bookedSlots slot.day, ¬HalfOpen.Overlaps b.span slot.span := by
  simp only [isAvailable, Bool.and_eq_true, List.all_eq_true, Bool.not_eq_true', Booking.conflictsWith, Booking.span,
    ← TimeSlot.conflictsWith_iff, Bool.not_eq_true]

end Availability

/-! ## Calendars -/

/-- A timetable for each day, in which every booking is filed under its own day. -/
structure Calendar where
  timetable : DayOfWeek → HalfOpen.Timetable Booking.span
  filed : ∀ day, ∀ b ∈ (timetable day).entries, b.timeSlot.day = day

namespace Calendar

/-- The calendar without bookings. -/
def empty : Calendar where
  timetable := fun _ => .empty
  filed := fun _ _ h => absurd h List.not_mem_nil

/-- One day replaced. -/
def set (C : Calendar) (day : DayOfWeek) (T : HalfOpen.Timetable Booking.span)
    (h : ∀ b ∈ T.entries, b.timeSlot.day = day) : Calendar where
  timetable := Function.update C.timetable day T
  filed := by
    intro d b hb
    rcases eq_or_ne d day with rfl | hd
    · rw [Function.update_self] at hb
      exact h b hb
    · rw [Function.update_of_ne hd] at hb
      exact C.filed d b hb

theorem set_self (C : Calendar) {day : DayOfWeek} {T : HalfOpen.Timetable Booking.span}
    (h : ∀ b ∈ T.entries, b.timeSlot.day = day) : (C.set day T h).timetable day = T :=
  Function.update_self _ _ _

theorem set_of_ne (C : Calendar) {day d : DayOfWeek} {T : HalfOpen.Timetable Booking.span}
    (h : ∀ b ∈ T.entries, b.timeSlot.day = day) (hd : d ≠ day) : (C.set day T h).timetable d = C.timetable d :=
  Function.update_of_ne hd _ _

/-- A booking that overlaps none of its day. -/
def book (C : Calendar) (b : Booking)
    (h : ∀ x ∈ (C.timetable b.timeSlot.day).entries, ¬HalfOpen.Overlaps x.span b.span) : Calendar :=
  C.set b.timeSlot.day ((C.timetable b.timeSlot.day).add b h) (by
    intro x hx
    rcases List.mem_append.1 hx with hx | hx
    · exact C.filed _ x hx
    · rw [List.mem_singleton] at hx
      exact hx ▸ rfl)

/-- Some of the bookings of one day. -/
def restrict (C : Calendar) (day : DayOfWeek) (l : List Booking) (h : l.Sublist (C.timetable day).entries) : Calendar :=
  C.set day ((C.timetable day).restrict l h) (fun x hx => C.filed day x (h.subset hx))

end Calendar

namespace Availability

/-- An availability shows a calendar: its lists are the calendar's entries. -/
def Shows (a : Availability) (C : Calendar) : Prop := ∀ day, a.bookedSlots day = (C.timetable day).entries

theorem shows_set {a : Availability} {C : Calendar} (ha : a.Shows C) {day : DayOfWeek}
    (T : HalfOpen.Timetable Booking.span) (h : ∀ b ∈ T.entries, b.timeSlot.day = day) :
    (a.setBooked day T.entries).Shows (C.set day T h) := by
  intro d
  rcases eq_or_ne d day with rfl | hd
  · rw [setBooked_self, Calendar.set_self]
  · rw [setBooked_of_ne a _ hd, Calendar.set_of_ne C h hd, ha d]

/-- Booking an available slot is booking in the calendar. -/
theorem bookTimeSlot_shows {a : Availability} {C : Calendar} (ha : a.Shows C) {slot : TimeSlot}
    (h : a.isAvailable slot = true) (confirmationID userInfo : Text) :
    ∃ C' : Calendar, (a.bookTimeSlot confirmationID userInfo slot).Shows C' := by
  have hfree : ∀ x ∈ (C.timetable slot.day).entries, ¬HalfOpen.Overlaps x.span slot.span := by
    rw [← ha slot.day]
    exact ((isAvailable_iff a slot).1 h).2
  let b : Booking := ⟨confirmationID, userInfo, a.facilityName, slot⟩
  refine ⟨C.book b hfree, ?_⟩
  rw [bookTimeSlot, ha slot.day]
  exact shows_set ha ((C.timetable slot.day).add b hfree) _

/-- The bookings of a day after a slot is booked. -/
theorem mem_bookTimeSlot {a : Availability} {confirmationID userInfo : Text} {slot : TimeSlot} {day : DayOfWeek} {b : Booking} :
    b ∈ (a.bookTimeSlot confirmationID userInfo slot).bookedSlots day ↔
      b ∈ a.bookedSlots day ∨ day = slot.day ∧ b = ⟨confirmationID, userInfo, a.facilityName, slot⟩ := by
  rw [bookTimeSlot]
  by_cases hday : day = slot.day
  · subst hday
    rw [setBooked_self, List.mem_append, List.mem_singleton]
    simp
  · rw [setBooked_of_ne a _ hday]
    simp [hday]

/-! ## Removing a booking -/

/-- The day on which `removeTimeSlot` finds a booking: the first that has one of that ID and that user. -/
def dayOf (a : Availability) (prevBookingId : Option Text) (userInfo : Text) (days : List DayOfWeek) : Option DayOfWeek :=
  days.find? (fun day => (a.bookedSlots day).any (Booking.isOf prevBookingId userInfo))

theorem removeFromDays_eq (a : Availability) (prevBookingId : Option Text) (userInfo : Text) (days : List DayOfWeek) :
    a.removeFromDays prevBookingId userInfo days =
      match a.dayOf prevBookingId userInfo days with
      | none => (a, none)
      | some day => (a.setBooked day ((a.bookedSlots day).eraseP (Booking.isOf prevBookingId userInfo)), prevBookingId) := by
  induction days with
  | nil => rfl
  | cons day days ih =>
    rw [removeFromDays, dayOf, List.find?_cons]
    cases hf : (a.bookedSlots day).find? (Booking.isOf prevBookingId userInfo) with
    | none =>
      have hany : (a.bookedSlots day).any (Booking.isOf prevBookingId userInfo) = false := by
        rw [List.any_eq_false]
        exact List.find?_eq_none.1 hf
      rw [hany]
      exact ih
    | some slot =>
      have hslot := List.find?_some hf
      have hany : (a.bookedSlots day).any (Booking.isOf prevBookingId userInfo) = true :=
        List.any_eq_true.2 ⟨slot, List.mem_of_find?_eq_some hf, hslot⟩
      simp only [Booking.isOf, Bool.and_eq_true, decide_eq_true_eq] at hslot
      simp only [hany, hslot.1]

/-- The day of the booking that `removeTimeSlot` finds, over the whole week. -/
def ownedDay (a : Availability) (prevBookingId : Option Text) (userInfo : Text) : Option DayOfWeek :=
  a.dayOf prevBookingId userInfo DayOfWeek.values

/-- Nobody's booking of that ID is found exactly when no day has one. -/
theorem ownedDay_eq_none_iff {a : Availability} {prevBookingId : Option Text} {userInfo : Text} :
    a.ownedDay prevBookingId userInfo = none ↔
      ∀ day, ∀ b ∈ a.bookedSlots day, Booking.isOf prevBookingId userInfo b = false := by
  simp only [ownedDay, dayOf, List.find?_eq_none, DayOfWeek.mem_values, true_implies, Bool.not_eq_true, List.any_eq_false]

theorem removeTimeSlot_of_none {a : Availability} {prevBookingId : Option Text} {userInfo : Text}
    (h : a.ownedDay prevBookingId userInfo = none) : a.removeTimeSlot prevBookingId userInfo = (a, none) := by
  rw [removeTimeSlot, removeFromDays_eq, ← ownedDay, h]

theorem removeTimeSlot_of_some {a : Availability} {prevBookingId : Option Text} {userInfo : Text} {day : DayOfWeek}
    (h : a.ownedDay prevBookingId userInfo = some day) :
    a.removeTimeSlot prevBookingId userInfo =
      (a.setBooked day ((a.bookedSlots day).eraseP (Booking.isOf prevBookingId userInfo)), prevBookingId) := by
  rw [removeTimeSlot, removeFromDays_eq, ← ownedDay, h]

/-- Of a found booking: where it stands in the list of its day, which loses it and nothing else. -/
theorem owned_split {a : Availability} {prevBookingId : Option Text} {userInfo : Text} {day : DayOfWeek}
    (h : a.ownedDay prevBookingId userInfo = some day) :
    ∃ l₁ b l₂, a.bookedSlots day = l₁ ++ b :: l₂ ∧ some b.confirmationID = prevBookingId ∧ b.userInfo = userInfo ∧
      (a.bookedSlots day).eraseP (Booking.isOf prevBookingId userInfo) = l₁ ++ l₂ := by
  have hany : (a.bookedSlots day).any (Booking.isOf prevBookingId userInfo) = true := by
    rw [ownedDay, dayOf, List.find?_eq_some_iff_append] at h
    exact h.1
  obtain ⟨x, hx, hp⟩ := List.any_eq_true.1 hany
  obtain ⟨b, l₁, l₂, _, hb, hsplit, herase⟩ := List.exists_of_eraseP hx hp
  simp only [Booking.isOf, Bool.and_eq_true, decide_eq_true_eq] at hb
  exact ⟨l₁, b, l₂, hsplit, hb.1, hb.2, herase⟩

/-- A removal leaves of every day a part of its bookings, and every other user's bookings. -/
theorem removeTimeSlot_bookedSlots (a : Availability) (prevBookingId : Option Text) (userInfo : Text) (day : DayOfWeek) :
    ((a.removeTimeSlot prevBookingId userInfo).1.bookedSlots day).Sublist (a.bookedSlots day) ∧
      ((a.removeTimeSlot prevBookingId userInfo).1.bookedSlots day).filter (fun b => decide (b.userInfo ≠ userInfo)) =
        (a.bookedSlots day).filter (fun b => decide (b.userInfo ≠ userInfo)) := by
  cases h : a.ownedDay prevBookingId userInfo with
  | none =>
    rw [removeTimeSlot_of_none h]
    exact ⟨List.Sublist.refl _, rfl⟩
  | some d =>
    rw [removeTimeSlot_of_some h]
    rcases eq_or_ne day d with rfl | hd
    · obtain ⟨l₁, b, l₂, hsplit, _, huser, herase⟩ := owned_split h
      rw [setBooked_self, herase, hsplit]
      refine ⟨(List.Sublist.refl l₁).append (List.sublist_cons_self b l₂), ?_⟩
      simp [huser]
    · rw [setBooked_of_ne a _ hd]
      exact ⟨List.Sublist.refl _, rfl⟩

@[simp] theorem removeTimeSlot_days (a : Availability) (prevBookingId : Option Text) (userInfo : Text) :
    (a.removeTimeSlot prevBookingId userInfo).1.days = a.days := by
  cases h : a.ownedDay prevBookingId userInfo with
  | none => rw [removeTimeSlot_of_none h]
  | some d => rw [removeTimeSlot_of_some h, setBooked_days]

/-- Fewer bookings leave an available slot available. -/
theorem removeTimeSlot_isAvailable {a : Availability} {slot : TimeSlot} (h : a.isAvailable slot = true)
    (prevBookingId : Option Text) (userInfo : Text) :
    (a.removeTimeSlot prevBookingId userInfo).1.isAvailable slot = true := by
  rw [isAvailable_iff] at h ⊢
  refine ⟨by rw [removeTimeSlot_days]; exact h.1, fun b hb => h.2 b ?_⟩
  exact (removeTimeSlot_bookedSlots a prevBookingId userInfo slot.day).1.subset hb

/-- Removing a booking is restricting the calendar. -/
theorem removeTimeSlot_shows {a : Availability} {C : Calendar} (ha : a.Shows C) (prevBookingId : Option Text)
    (userInfo : Text) : ∃ C' : Calendar, (a.removeTimeSlot prevBookingId userInfo).1.Shows C' := by
  cases h : a.ownedDay prevBookingId userInfo with
  | none =>
    rw [removeTimeSlot_of_none h]
    exact ⟨C, ha⟩
  | some day =>
    have hsub : ((a.bookedSlots day).eraseP (Booking.isOf prevBookingId userInfo)).Sublist (C.timetable day).entries := by
      rw [← ha day]
      exact List.eraseP_sublist
    rw [removeTimeSlot_of_some h]
    exact ⟨C.restrict day _ hsub, shows_set ha ((C.timetable day).restrict _ hsub) _⟩

end Availability

/-! ## Facilities by name -/

/-- The facility that `getFacility` finds, in its place, which is where `modifyFacility` makes its change. -/
theorem getFacility_split {facilities : List Facility} {name : Text} {f : Facility}
    (h : getFacility facilities name = some f) :
    ∃ pre post, facilities = pre ++ f :: post ∧ f.name = name ∧
      ∀ change, modifyFacility facilities name change = pre ++ change f :: post := by
  induction facilities with
  | nil => cases h
  | cons g facilities ih =>
    rw [getFacility, List.find?_cons] at h
    by_cases hg : g.name = name
    · simp only [hg, decide_true, Option.some.injEq] at h
      subst h
      exact ⟨[], facilities, rfl, hg, fun change => by rw [modifyFacility, if_pos hg]; rfl⟩
    · simp only [hg, decide_false] at h
      obtain ⟨pre, post, hsplit, hname, hchange⟩ := ih h
      refine ⟨g :: pre, post, by rw [hsplit]; rfl, hname, ?_⟩
      intro change
      rw [modifyFacility, if_neg hg, hchange]
      rfl

theorem getFacility_name {facilities : List Facility} {name : Text} {f : Facility}
    (h : getFacility facilities name = some f) : f.name = name := by
  have hfound := List.find?_some h
  exact of_decide_eq_true hfound

theorem getFacility_mem {facilities : List Facility} {name : Text} {f : Facility}
    (h : getFacility facilities name = some f) : f ∈ facilities := List.mem_of_find?_eq_some h

/-- A name that no facility has changes nothing. -/
theorem modifyFacility_of_none {facilities : List Facility} {name : Text} (h : getFacility facilities name = none)
    (change : Facility → Facility) : modifyFacility facilities name change = facilities := by
  induction facilities with
  | nil => rfl
  | cons g facilities ih =>
    rw [getFacility, List.find?_cons] at h
    by_cases hg : g.name = name
    · simp [hg] at h
    · simp only [hg, decide_false] at h
      rw [modifyFacility, if_neg hg, ih h]

/-- What holds of every facility and is kept by the change of the one named holds of every facility afterwards. -/
theorem forall_modifyFacility {P : Facility → Prop} {facilities : List Facility} {name : Text}
    {change : Facility → Facility} (h : ∀ f ∈ facilities, P f)
    (hc : ∀ f, getFacility facilities name = some f → P f → P (change f)) :
    ∀ f ∈ modifyFacility facilities name change, P f := by
  cases hf : getFacility facilities name with
  | none => rwa [modifyFacility_of_none hf]
  | some f =>
    obtain ⟨pre, post, hsplit, _, hchange⟩ := getFacility_split hf
    subst hsplit
    rw [hchange]
    simp only [List.forall_mem_append, List.forall_mem_cons] at h ⊢
    exact ⟨h.1, hc f hf h.2.1, h.2.2⟩

/-- What the change of the facility named leaves alone is left alone in every facility. -/
theorem map_modifyFacility {β : Type*} {g : Facility → β} {facilities : List Facility} {name : Text}
    {change : Facility → Facility} (h : ∀ f, getFacility facilities name = some f → g (change f) = g f) :
    (modifyFacility facilities name change).map g = facilities.map g := by
  cases hf : getFacility facilities name with
  | none => rw [modifyFacility_of_none hf]
  | some f =>
    obtain ⟨pre, post, hsplit, _, hchange⟩ := getFacility_split hf
    subst hsplit
    rw [hchange, List.map_append, List.map_append, List.map_cons, List.map_cons, h f hf]

/-- A change that renames no facility is found under its name, and nowhere else. -/
theorem getFacility_modifyFacility {change : Facility → Facility} (hchange : ∀ f, (change f).name = f.name)
    (facilities : List Facility) (name name' : Text) :
    getFacility (modifyFacility facilities name change) name' =
      if name' = name then (getFacility facilities name).map change else getFacility facilities name' := by
  induction facilities with
  | nil => simp [getFacility, modifyFacility]
  | cons g facilities ih =>
    rw [modifyFacility]
    by_cases hg : g.name = name
    · rw [if_pos hg]
      simp only [getFacility, List.find?_cons, hchange, hg, decide_true]
      by_cases hname : name' = name
      · simp only [hname, decide_true, if_true, Option.map_some]
      · simp only [hname, Ne.symm hname, decide_false, if_false]
    · rw [if_neg hg]
      simp only [getFacility, List.find?_cons, hg, decide_false] at ih ⊢
      by_cases hname : g.name = name'
      · have hne : name' ≠ name := fun h => hg (hname.trans h)
        simp only [hname, decide_true, hne, if_false]
      · simp only [hname, decide_false]
        exact ih

end FacilityBooking
