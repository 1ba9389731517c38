import FacilityBooking.Effects

/-!
# The bookings of all facilities

All bookings of the server as one list, each with the name of its facility; what an effect puts in and takes out of it, and what
`getBookingInfo` finds in it.
-/

namespace FacilityBooking

namespace Availability

/-- The bookings of the week. -/
def week (a : Availability) : List Booking := DayOfWeek.values.flatMap a.bookedSlots

theorem mem_week {a : Availability} {b : Booking} : b ∈ a.week ↔ ∃ day, b ∈ a.bookedSlots day := by
  rw [week, List.mem_flatMap]
  constructor
  · rintro ⟨day, _, hb⟩
    exact ⟨day, hb⟩
  · rintro ⟨day, hb⟩
    exact ⟨day, DayOfWeek.mem_values day, hb⟩

/-- Where the bookings of a day stand among those of the week. -/
theorem week_setBooked (a : Availability) (day : DayOfWeek) :
    ∃ before after, a.week = before ++ a.bookedSlots day ++ after ∧
      ∀ l, (a.setBooked day l).week = before ++ l ++ after := by
  obtain ⟨days, days', hsplit⟩ := List.append_of_mem (DayOfWeek.mem_values day)
  have hnodup : DayOfWeek.values.Nodup := by decide
  rw [hsplit, List.nodup_append, List.nodup_cons] at hnodup
  have hbefore : day ∉ days := fun h => hnodup.2.2 day h day List.mem_cons_self rfl
  refine ⟨days.flatMap a.bookedSlots, days'.flatMap a.bookedSlots, ?_, ?_⟩
  · rw [week, hsplit, List.flatMap_append, List.flatMap_cons, List.append_assoc]
  · intro l
    have hsame : ∀ ds : List DayOfWeek, day ∉ ds → ds.flatMap (a.setBooked day l).bookedSlots = ds.flatMap a.bookedSlots := by
      intro ds hds
      refine List.flatMap_congr fun d hd => setBooked_of_ne a l ?_
      rintro rfl
      exact hds hd
    rw [week, hsplit, List.flatMap_append, List.flatMap_cons, setBooked_self, hsame days hbefore, hsame days' hnodup.2.1.1,
      List.append_assoc]

/-- A slot that is booked adds one booking. -/
theorem week_bookTimeSlot (a : Availability) (confirmationID userInfo : Text) (slot : TimeSlot) :
    (a.bookTimeSlot confirmationID userInfo slot).week.Perm (⟨confirmationID, userInfo, a.facilityName, slot⟩ :: a.week) := by
  obtain ⟨before, after, hweek, hset⟩ := week_setBooked a slot.day
  rw [bookTimeSlot, hset, hweek]
  simp only [List.append_assoc]
  exact ((List.perm_middle).append_left _).trans List.perm_middle

/-- A removal takes out one booking of that ID and that user, if there is one. -/
theorem week_removeTimeSlot (a : Availability) (prevBookingId : Option Text) (userInfo : Text) :
    ∃ lost, (lost ++ (a.removeTimeSlot prevBookingId userInfo).1.week).Perm a.week ∧
      (∀ b ∈ lost, some b.confirmationID = prevBookingId ∧ b.userInfo = userInfo) ∧
      ((∃ b ∈ a.week, some b.confirmationID = prevBookingId ∧ b.userInfo = userInfo) → lost ≠ []) := by
  cases h : a.ownedDay prevBookingId userInfo with
  | none =>
    rw [removeTimeSlot_of_none h]
    refine ⟨[], List.Perm.refl _, fun b hb => absurd hb List.not_mem_nil, ?_⟩
    rintro ⟨b, hb, hid, huser⟩
    obtain ⟨day, hb⟩ := mem_week.1 hb
    have hnot := ownedDay_eq_none_iff.1 h day b hb
    rw [Booking.isOf, decide_eq_true hid, decide_eq_true huser] at hnot
    exact absurd hnot (by decide)
  | some day =>
    obtain ⟨l₁, b, l₂, hsplit, hid, huser, herase⟩ := owned_split h
    obtain ⟨before, after, hweek, hset⟩ := week_setBooked a day
    rw [removeTimeSlot_of_some h, hset, herase, hweek, hsplit]
    refine ⟨[b], ?_, ?_, fun _ => List.cons_ne_nil b []⟩
    · have hmiddle := (@List.perm_middle _ b (before ++ l₁) (l₂ ++ after)).symm
      simpa only [List.append_assoc, List.cons_append, List.nil_append] using hmiddle
    · intro b' hb'
      rw [List.mem_singleton] at hb'
      subst hb'
      exact ⟨hid, huser⟩

end Availability

/-- The bookings of a facility, with its name. -/
def Facility.stored (f : Facility) : List (Text × Booking) := f.availability.week.map (fun b => (f.name, b))

/-- All bookings, each with the name of its facility. -/
def stored (facilities : List Facility) : List (Text × Booking) := facilities.flatMap Facility.stored

/-- The IDs of all bookings. -/
def ids (facilities : List Facility) : List Text := (stored facilities).map (fun x => x.2.confirmationID)

theorem mem_stored {facilities : List Facility} {x : Text × Booking} :
    x ∈ stored facilities ↔ ∃ f ∈ facilities, f.name = x.1 ∧ x.2 ∈ f.availability.week := by
  obtain ⟨name, b⟩ := x
  simp only [stored, Facility.stored, List.mem_flatMap, List.mem_map, Prod.mk.injEq]
  constructor
  · rintro ⟨f, hf, _, hb, rfl, rfl⟩
    exact ⟨f, hf, rfl, hb⟩
  · rintro ⟨f, hf, rfl, hb⟩
    exact ⟨f, hf, b, hb, rfl, rfl⟩

/-- Where the bookings of a facility stand among all. -/
theorem stored_modifyFacility {facilities : List Facility} {name : Text} {f : Facility}
    (hf : getFacility facilities name = some f) :
    ∃ before after, stored facilities = before ++ f.stored ++ after ∧
      ∀ change, stored (modifyFacility facilities name change) = before ++ (change f).stored ++ after := by
  obtain ⟨pre, post, rfl, _, hchange⟩ := getFacility_split hf
  refine ⟨pre.flatMap Facility.stored, post.flatMap Facility.stored, ?_, ?_⟩
  · rw [stored, List.flatMap_append, List.flatMap_cons, List.append_assoc]
  · intro change
    rw [hchange, stored, List.flatMap_append, List.flatMap_cons, List.append_assoc]

/-! ## What an effect puts in and takes out -/

/-- The booking that an effect makes in a facility that is there. -/
def Effect.gained (e : Event) (facilities : List Facility) (effect : Effect) : List (Text × Booking) :=
  match effect.booking? with
  | some booking =>
    match getFacility facilities booking.facilityName with
    | some f => [(booking.facilityName, ⟨e.uuid.toText, e.userInfo, f.availability.facilityName, booking.timeSlot⟩)]
    | none => []
  | none => []

theorem Effect.gained_cases (e : Event) (facilities : List Facility) (effect : Effect) :
    effect.gained e facilities = [] ∨
      (effect.booking?.isSome = true ∧ ∃ x, effect.gained e facilities = [x] ∧ x.2.confirmationID = e.uuid.toText) := by
  unfold gained
  cases hb : effect.booking? with
  | none => exact Or.inl rfl
  | some booking =>
    dsimp only
    cases getFacility facilities booking.facilityName with
    | none => exact Or.inl rfl
    | some f => exact Or.inr ⟨rfl, _, rfl, rfl⟩

/-- What is gained is the booking made, under the ID that is drawn. -/
theorem Effect.id_of_mem_gained {e : Event} {facilities : List Facility} {effect : Effect} {x : Text × Booking}
    (h : x ∈ effect.gained e facilities) : effect.booking?.isSome = true ∧ x.2.confirmationID = e.uuid.toText := by
  rcases effect.gained_cases e facilities with hnone | ⟨hbooking, y, hone, hy⟩
  · rw [hnone] at h
    exact absurd h List.not_mem_nil
  · rw [hone, List.mem_singleton] at h
    exact ⟨hbooking, h ▸ hy⟩

/-- The effect is to remove that booking. -/
def Effect.TakesAway (user : Text) (x : Text × Booking) : Effect → Prop
  | .move booking => booking.facilityName = x.1 ∧ some x.2.confirmationID = booking.prevBookingId ∧ x.2.userInfo = user
  | .remove facilityName bookingId => facilityName = x.1 ∧ x.2.confirmationID = bookingId ∧ x.2.userInfo = user
  | _ => False

/-- What a change of one facility loses and gains, all facilities lose and gain. -/
theorem stored_of_change {facilities : List Facility} {name : Text} {f : Facility} (hf : getFacility facilities name = some f)
    {change : Facility → Facility} {lost gained : List Booking} (hname : (change f).name = f.name)
    (h : (lost ++ (change f).availability.week).Perm (gained ++ f.availability.week)) :
    (lost.map (fun b => (name, b)) ++ stored (modifyFacility facilities name change)).Perm
      (gained.map (fun b => (name, b)) ++ stored facilities) := by
  obtain ⟨before, after, hstored, hchange⟩ := stored_modifyFacility hf
  have hstep := h.map (fun b => (name, b))
  rw [List.map_append, List.map_append] at hstep
  rw [hstored, hchange, Facility.stored, Facility.stored, hname, getFacility_name hf]
  have hmove : ∀ l m : List (Text × Booking), (l ++ (before ++ m ++ after)).Perm (before ++ (l ++ m) ++ after) := by
    intro l m
    simp only [List.append_assoc]
    exact List.perm_append_comm_assoc l before (m ++ after)
  exact (hmove _ _).trans (((hstep.append_left before).append_right after).trans (hmove _ _).symm)

/-- Where no two facilities have a name in common, a booking is in the facility that `getFacility` finds. -/
theorem getFacility_of_stored {facilities : List Facility} (hnames : (facilities.map Facility.name).Nodup) {x : Text × Booking}
    (hx : x ∈ stored facilities) : ∃ f, getFacility facilities x.1 = some f ∧ x.2 ∈ f.availability.week := by
  obtain ⟨g, hg, hname, hb⟩ := mem_stored.1 hx
  cases hf : getFacility facilities x.1 with
  | none =>
    rw [getFacility, List.find?_eq_none] at hf
    exact absurd (decide_eq_true hname) (hf g hg)
  | some f =>
    have heq : g = f := List.inj_on_of_nodup_map hnames hg (getFacility_mem hf) (hname.trans (getFacility_name hf).symm)
    exact ⟨f, rfl, heq ▸ hb⟩

theorem Availability.removeTimeSlot_facilityName (a : Availability) (prevBookingId : Option Text) (userInfo : Text) :
    (a.removeTimeSlot prevBookingId userInfo).1.facilityName = a.facilityName := by
  cases h : a.ownedDay prevBookingId userInfo with
  | none => rw [removeTimeSlot_of_none h]
  | some day =>
    rw [removeTimeSlot_of_some h]
    rfl

/-- An effect puts in what it gains and takes out what it loses: bookings that it is to remove, and one if there is one. -/
theorem stored_onFacilities (Γ : Jvm) (e : Event) (effect : Effect) {facilities : List Facility}
    (hnames : (facilities.map Facility.name).Nodup) :
    ∃ lost, (lost ++ stored (effect.onFacilities Γ e facilities)).Perm (effect.gained e facilities ++ stored facilities) ∧
      (∀ x ∈ lost, x ∈ stored facilities ∧ effect.TakesAway e.userInfo x) ∧
      ((∃ x ∈ stored facilities, effect.TakesAway e.userInfo x) → lost ≠ []) := by
  cases effect with
  | nothing => exact ⟨[], List.Perm.refl _, fun _ hx => absurd hx List.not_mem_nil, fun ⟨_, _, h⟩ => h.elim⟩
  | register name interval => exact ⟨[], List.Perm.refl _, fun _ hx => absurd hx List.not_mem_nil, fun ⟨_, _, h⟩ => h.elim⟩
  | rate name rating =>
    refine ⟨[], ?_, fun _ hx => absurd hx List.not_mem_nil, fun ⟨_, _, h⟩ => h.elim⟩
    cases hf : getFacility facilities name with
    | none => rw [Effect.onFacilities, modifyFacility_of_none hf]; exact List.Perm.refl _
    | some f => exact @stored_of_change facilities name f hf (fun f => f.addRating Γ rating) [] [] rfl (List.Perm.refl _)
  | book booking =>
    refine ⟨[], ?_, fun _ hx => absurd hx List.not_mem_nil, fun ⟨_, _, h⟩ => h.elim⟩
    simp only [Effect.gained, Effect.booking?]
    cases hf : getFacility facilities booking.facilityName with
    | none => rw [Effect.onFacilities, modifyFacility_of_none hf]
    | some f => exact @stored_of_change facilities _ f hf _ [] [_] rfl (Availability.week_bookTimeSlot _ _ _ _)
  | move booking =>
    simp only [Effect.gained, Effect.booking?]
    cases hf : getFacility facilities booking.facilityName with
    | none =>
      rw [Effect.onFacilities, modifyFacility_of_none hf]
      refine ⟨[], List.Perm.refl _, fun _ hx => absurd hx List.not_mem_nil, ?_⟩
      rintro ⟨x, hx, hname, _⟩
      obtain ⟨f, hf', _⟩ := getFacility_of_stored hnames hx
      rw [← hname, hf] at hf'
      cases hf'
    | some f =>
      obtain ⟨lost, hperm, hlost, hne⟩ := f.availability.week_removeTimeSlot booking.prevBookingId e.userInfo
      have hbook := (f.availability.removeTimeSlot booking.prevBookingId e.userInfo).1.week_bookTimeSlot e.uuid.toText e.userInfo
        booking.timeSlot
      rw [Availability.removeTimeSlot_facilityName] at hbook
      have hweek := ((hbook.append_left lost).trans List.perm_middle).trans (hperm.cons _)
      refine ⟨_, @stored_of_change facilities _ f hf _ lost [_] rfl hweek, ?_, ?_⟩
      · intro x hx
        obtain ⟨b, hb, rfl⟩ := List.mem_map.1 hx
        have hweek := hperm.subset (List.mem_append_left _ hb)
        exact ⟨mem_stored.2 ⟨f, getFacility_mem hf, getFacility_name hf, hweek⟩, rfl, hlost b hb⟩
      · rintro ⟨x, hx, hname, htake⟩
        obtain ⟨f', hf', hb⟩ := getFacility_of_stored hnames hx
        rw [← hname, hf] at hf'
        cases hf'
        exact fun hnil => hne ⟨x.2, hb, htake⟩ (List.map_eq_nil_iff.1 hnil)
  | remove name bookingId =>
    simp only [Effect.gained, Effect.booking?]
    cases hf : getFacility facilities name with
    | none =>
      rw [Effect.onFacilities, modifyFacility_of_none hf]
      refine ⟨[], List.Perm.refl _, fun _ hx => absurd hx List.not_mem_nil, ?_⟩
      rintro ⟨x, hx, hname, _⟩
      obtain ⟨f, hf', _⟩ := getFacility_of_stored hnames hx
      rw [← hname, hf] at hf'
      cases hf'
    | some f =>
      obtain ⟨lost, hperm, hlost, hne⟩ := f.availability.week_removeTimeSlot (some bookingId) e.userInfo
      refine ⟨_, @stored_of_change facilities _ f hf _ lost [] rfl hperm, ?_, ?_⟩
      · intro x hx
        obtain ⟨b, hb, rfl⟩ := List.mem_map.1 hx
        have hweek := hperm.subset (List.mem_append_left _ hb)
        exact ⟨mem_stored.2 ⟨f, getFacility_mem hf, getFacility_name hf, hweek⟩, rfl, Option.some.inj (hlost b hb).1,
          (hlost b hb).2⟩
      · rintro ⟨x, hx, hname, hid, huser⟩
        obtain ⟨f', hf', hb⟩ := getFacility_of_stored hnames hx
        rw [← hname, hf] at hf'
        cases hf'
        exact fun hnil => hne ⟨x.2, hb, congrArg some hid, huser⟩ (List.map_eq_nil_iff.1 hnil)

/-! ## Finding a booking by its ID -/

/-- A booking that is found is stored in the facility it is found in. -/
theorem stored_of_findBooking {facilities : List Facility} {bookingID : Text} {f : Facility} {b : Booking}
    (h : findBooking facilities bookingID = some (f, b)) : (f.name, b) ∈ stored facilities ∧ b.confirmationID = bookingID := by
  obtain ⟨g, hg, hfound⟩ := List.exists_of_findSome?_eq_some h
  obtain ⟨b', hb', hpair⟩ := Option.map_eq_some_iff.1 hfound
  cases hpair
  obtain ⟨day, hday, hfind⟩ := List.exists_of_findSome?_eq_some hb'
  refine ⟨mem_stored.2 ⟨f, hg, rfl, Availability.mem_week.2 ⟨day, List.mem_of_find?_eq_some hfind⟩⟩, ?_⟩
  have hid := List.find?_some hfind
  exact of_decide_eq_true hid

/-- Nothing is found under an ID that no booking has. -/
theorem findBooking_eq_none {facilities : List Facility} {bookingID : Text} (h : bookingID ∉ ids facilities) :
    findBooking facilities bookingID = none := by
  cases hfound : findBooking facilities bookingID with
  | none => rfl
  | some p =>
    obtain ⟨hmem, hid⟩ := stored_of_findBooking hfound
    exact absurd (List.mem_map.2 ⟨_, hmem, hid⟩) h

/-- A booking whose ID no other has is found under it. -/
theorem findBooking_of_unique {facilities : List Facility} {x : Text × Booking} (hx : x ∈ stored facilities)
    (honly : ∀ y ∈ stored facilities, y.2.confirmationID = x.2.confirmationID → y = x) :
    ∃ f, findBooking facilities x.2.confirmationID = some (f, x.2) ∧ f.name = x.1 := by
  cases hfound : findBooking facilities x.2.confirmationID with
  | none =>
    obtain ⟨g, hg, _, hb⟩ := mem_stored.1 hx
    obtain ⟨day, hday⟩ := Availability.mem_week.1 hb
    have hnone := List.findSome?_eq_none_iff.1 hfound g hg
    rw [Option.map_eq_none_iff, Availability.getBookingInfo, List.findSome?_eq_none_iff] at hnone
    have hnot := List.find?_eq_none.1 (hnone day (DayOfWeek.mem_values day)) x.2 hday
    exact absurd (decide_eq_true rfl) hnot
  | some p =>
    obtain ⟨hmem, hid⟩ := stored_of_findBooking hfound
    have heq : (p.1.name, p.2) = x := honly _ hmem hid
    subst heq
    exact ⟨p.1, rfl, rfl⟩

/-- Where no two bookings have an ID in common, a booking is found under its ID. -/
theorem findBooking_of_stored {facilities : List Facility} (hids : (ids facilities).Nodup) {x : Text × Booking}
    (hx : x ∈ stored facilities) : ∃ f, findBooking facilities x.2.confirmationID = some (f, x.2) ∧ f.name = x.1 :=
  findBooking_of_unique hx fun _ hy hid => List.inj_on_of_nodup_map hids hy hx hid

end FacilityBooking
