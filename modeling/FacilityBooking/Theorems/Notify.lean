import FacilityBooking.Lemmas.Texts
import FacilityBooking.Theorems.Delete
import FacilityBooking.Theorems.Update
import Mathlib.Data.Multiset.AddSub

/-!
# Notifying the monitors

The monitors of the facility last updated are notified after a request, and the handlers name that facility before they know
whether they will change it. A request that is refused the slot it asks for, or finds no booking to delete, is notified as well.
-/

namespace FacilityBooking

/-! ## What is sent, and when it is right -/

/-- The text of a facility's availability. -/
def availabilityText (f : Facility) : Text :=
  line "facility" f.name ++ "\navailableTimeslots:\n".toList ++ DayOfWeek.values.flatMap (formatDay f.availability [])

/-- A notification of that text. -/
def notification (text : Text) : Bytes :=
  getBytes (RequestMessage.toText ⟨Operation.READ.getOpCode, 0, success text⟩)

/-- The notifications due for a facility: one for each monitor of it that is not expired. -/
def notificationsOf (monitors : List Monitor) (now : BitVec 64) (f : Facility) : List Datagram :=
  (monitors.filter (fun m => decide (m.resourceName = f.name) && !m.ifExpired now)).map
    (fun m => ⟨m.clientAddress, m.clientPort, notification (availabilityText f)⟩)

/-- A datagram that notifies of the facility of that name. -/
def IsAbout (name : Text) (d : Datagram) : Prop := ∃ rest, d.bytes = notification (line "facility" name ++ '\n' :: rest)

/-- The two have the same bookings. -/
def SameBookings (f f' : Facility) : Prop := ∀ day, (f.availability.bookedSlots day).Perm (f'.availability.bookedSlots day)

/-- Of a facility whose bookings have changed, the notifications due are sent; of one whose bookings have not, none is. -/
def NotifiesExactly (s : ServerState) (e : Event) (outcome : Outcome) : Prop :=
  ∀ name f f', getFacility s.facilities name = some f → getFacility outcome.state.facilities name = some f' →
    (¬SameBookings f f' → outcome.sent = notificationsOf s.monitors e.now f') ∧
    (SameBookings f f' → ∀ d ∈ outcome.sent, ¬IsAbout name d)

namespace Effect

/-- The facility whose bookings an effect is about. -/
def touched? : Effect → Option Text
  | .book booking => some booking.facilityName
  | .move booking => some booking.facilityName
  | .remove facilityName _ => some facilityName
  | _ => none

/-- The booking that a request would make in a facility. -/
def made (e : Event) (f : Facility) (booking : BookingDetails) : Booking :=
  ⟨e.uuid.toText, e.userInfo, f.availability.facilityName, booking.timeSlot⟩

/-- The effect would change nothing in the facility: the slot is not available, there is no such booking to remove, or the booking
removed is the one made in its place. -/
def Idle (e : Event) (f : Facility) : Effect → Prop
  | .book booking => f.availability.isAvailable booking.timeSlot = false
  | .move booking => f.availability.isAvailable booking.timeSlot = false ∨
      f.availability.ownedDay booking.prevBookingId e.userInfo = some booking.day ∧
        (f.availability.bookedSlots booking.day).find? (Booking.isOf booking.prevBookingId e.userInfo) = some (made e f booking)
  | .remove _ bookingId => f.availability.ownedDay (some bookingId) e.userInfo = none
  | _ => True

end Effect

/-- The request is about a facility that it changes nothing in and that has a monitor that is not expired. -/
def AsksInVain (Γ : Jvm) (s : ServerState) (m : RequestMessage) (e : Event) : Prop :=
  ∃ name f, (asked Γ m).touched? = some name ∧ getFacility s.facilities name = some f ∧ (asked Γ m).Idle e f ∧
    ∃ monitor ∈ s.monitors, monitor.resourceName = name ∧ monitor.ifExpired e.now = false

/-- The datagram holds such a request. -/
def NotifiesInVain (Γ : Jvm) (s : ServerState) (e : Event) : Prop :=
  ∃ m, deserializeMessage Γ e.bytes = .ok m ∧ AsksInVain Γ s m e

/-! ## The texts -/

theorem formatFacilityAvailability_of_some {facilities : List Facility} {name : Text} {f : Facility}
    (hf : getFacility facilities name = some f) :
    formatFacilityAvailability facilities name [] = success (availabilityText f) := by
  obtain ⟨_, _, _, rfl, _⟩ := getFacility_split hf
  rw [formatFacilityAvailability, hf]
  rfl

/-- The letter that tells the start of a status from the rest of a text. -/
theorem notMem_availabilityText {f : Facility} (hname : 'u' ∉ f.name) : 'u' ∉ availabilityText f := by
  have hslot : ∀ slot : TimeSlot, 'u' ∉ slot.toText := by
    intro slot h
    have hchar := mem_timeSlot_toText h
    revert hchar
    decide
  have hday : ∀ day, 'u' ∉ formatDay f.availability [] day := by
    intro day h
    unfold formatDay at h
    rw [if_neg (fun h => h.1 rfl)] at h
    split at h
    · exact absurd h List.not_mem_nil
    · simp only [List.mem_append, List.mem_cons, List.mem_flatMap, List.not_mem_nil, or_false] at h
      rcases h with (h | h | ⟨slot, _, h | h⟩) | h
      · revert h
        cases day <;> decide
      · revert h
        decide
      · exact hslot slot h
      · revert h
        decide
      · revert h
        decide
  intro h
  simp only [availabilityText, line, List.mem_append, List.mem_cons, List.mem_flatMap] at h
  rcases h with ((h | h | h) | h) | ⟨day, _, h⟩
  · revert h
    decide
  · revert h
    decide
  · exact hname h
  · revert h
    decide
  · exact hday day h

/-- A success is no error, whatever follows. -/
theorem not_contains_error {text : Text} (h : 'u' ∉ text) :
    contains ("status:SUCCESS\n".toList ++ text) "status:ERROR".toList = false := by
  rw [← Bool.not_eq_true, contains_iff]
  rintro ⟨before, after, hsplit⟩
  have hsplit' : "stat".toList ++ 'u' :: ("s:SUCCESS\n".toList ++ text) =
      (before ++ "stat".toList) ++ 'u' :: ("s:ERROR".toList ++ after) := by
    rw [List.append_assoc]
    exact hsplit.symm.trans (List.append_assoc _ _ _)
  have htail : 'u' ∉ "s:SUCCESS\n".toList ++ text := by
    rw [List.mem_append, not_or]
    exact ⟨by decide, h⟩
  have hstart : 'u' ∉ "stat".toList := by decide
  obtain ⟨_, _, hrest⟩ := (List.append_cons_inj_of_notMem hstart htail).1 hsplit'
  cases hrest

theorem contains_error (message : Text) :
    contains ("status:ERROR\nmessage:".toList ++ message) "status:ERROR".toList = true := by
  rw [contains_iff]
  exact ((List.prefix_append "status:ERROR".toList "\nmessage:".toList).trans (List.prefix_append _ message)).isInfix

/-- The text of a notification is told from its bytes. -/
theorem notification_injective {text text' : Text} (h : notification text = notification text') : text = text' := by
  have htext : RequestMessage.toText ⟨Operation.READ.getOpCode, 0, success text⟩ =
      RequestMessage.toText ⟨Operation.READ.getOpCode, 0, success text'⟩ := getBytes_injective h
  unfold RequestMessage.toText at htext
  have hdata : orNull (success text) = orNull (success text') := (List.cons.inj (List.append_cancel_left htext)).2
  exact List.append_cancel_left hdata

/-- A notification is about one facility only. -/
theorem eq_of_isAbout {name name' : Text} {d : Datagram} (hname : '\n' ∉ name) (hname' : '\n' ∉ name') (h : IsAbout name d)
    (h' : IsAbout name' d) : name = name' := by
  obtain ⟨rest, hrest⟩ := h
  obtain ⟨rest', hrest'⟩ := h'
  have htext := notification_injective (hrest.symm.trans hrest')
  simp only [line, List.append_assoc, List.cons_append, List.append_cancel_left_eq, List.cons.injEq, true_and] at htext
  exact (append_cons_inj hname hname' htext).1

/-- The notifications due for a facility are about it. -/
theorem isAbout_of_mem {monitors : List Monitor} {now : BitVec 64} {f : Facility} {d : Datagram}
    (h : d ∈ notificationsOf monitors now f) : IsAbout f.name d := by
  obtain ⟨_, _, rfl⟩ := List.mem_map.1 h
  refine ⟨"availableTimeslots:\n".toList ++ DayOfWeek.values.flatMap (formatDay f.availability []), ?_⟩
  rw [availabilityText, List.append_assoc]
  rfl

/-! ## What the last block sends -/

theorem filter_removeExpired (monitors : List Monitor) (now : BitVec 64) (f : Facility) :
    notifyAll (removeExpiredMonitors monitors now) f.name ("status:SUCCESS\n".toList ++ availabilityText f) =
      notificationsOf monitors now f := by
  rw [notifyAll, removeExpiredMonitors, List.filter_filter]
  rfl

/-- The last block sends what is due for the facility last updated, if it is there. -/
theorem notifyMonitors_sent {s : ServerState} {m : RequestMessage} (now : BitVec 64) (hnames : ∀ f ∈ s.facilities, 'u' ∉ f.name)
    (hop : s.lastUpdatedFacility ≠ none → m.getOperation = .WRITE ∨ m.getOperation = .UPDATE ∨ m.getOperation = .DELETE) :
    (notifyMonitors s m now).2 =
      (s.lastUpdatedFacility.bind (getFacility s.facilities)).elim [] (notificationsOf s.monitors now) := by
  unfold notifyMonitors
  cases hlast : s.lastUpdatedFacility with
  | none => rfl
  | some name =>
    rw [hlast] at hop
    simp only [hop (Option.some_ne_none name), if_true, Option.bind_some]
    cases hf : getFacility s.facilities name with
    | none =>
      have htext : formatFacilityAvailability s.facilities name [] = error "Facility not found".toList := by
        rw [formatFacilityAvailability, hf]
      simp only [htext, error, contains_error, or_true, if_true, Option.elim_none]
    | some f =>
      have hcontains := not_contains_error (notMem_availabilityText (hnames f (getFacility_mem hf)))
      have hne : "status:SUCCESS\n".toList ++ availabilityText f ≠ [] := List.append_ne_nil_of_left_ne_nil (by decide) _
      simp only [formatFacilityAvailability_of_some hf, success, hcontains, hne, Bool.false_eq_true, or_false, if_false,
        Option.elim_some]
      rw [← getFacility_name hf]
      exact filter_removeExpired s.monitors now f

/-! ## Which facility the handlers name -/

section

variable {Γ : Jvm} {s : ServerState} {m : RequestMessage} {e : Event}

/-- The facility of that name, if it is there. -/
def there (facilities : List Facility) (name : Option Text) : Option Text :=
  name.filter (fun name => (getFacility facilities name).isSome)

theorem there_of_none {facilities : List Facility} {name : Text} (hf : getFacility facilities name = none) :
    there facilities (some name) = none := by
  rw [there, Option.filter_some, hf]
  rfl

theorem there_of_some {facilities : List Facility} {name : Text} {f : Facility} (hf : getFacility facilities name = some f) :
    there facilities (some name) = some name := by
  rw [there, Option.filter_some, hf]
  rfl

theorem tryCatch_state (op : Operation) (handled : Handled) : (tryCatch Γ op m handled).1 = handled.1 := by
  obtain ⟨s', result⟩ := handled
  cases result <;> rfl

theorem bookFacility_last (hlast : s.lastUpdatedFacility = none) :
    (bookFacility Γ s m e).1.lastUpdatedFacility =
      there s.facilities (Effect.touched? (match parseBookingDetails Γ m.data with
        | .ok booking => .book booking
        | .error _ => .nothing)) := by
  unfold bookFacility
  cases parseBookingDetails Γ m.data with
  | error x => exact hlast
  | ok booking =>
    cases hf : getFacility s.facilities booking.facilityName with
    | none => simp only [Effect.touched?, hf, there_of_none hf, hlast]
    | some f =>
      simp only [Effect.touched?, hf, there_of_some hf]
      split <;> rfl

theorem updateBooking_last (hlast : s.lastUpdatedFacility = none) :
    (updateBooking Γ s m e).1.lastUpdatedFacility =
      there s.facilities (Effect.touched? (match parseUpdateBookingDetails Γ m.data with
        | .ok booking => .move booking
        | .error _ => .nothing)) := by
  unfold updateBooking
  cases parseUpdateBookingDetails Γ m.data with
  | error x => exact hlast
  | ok booking =>
    cases hf : getFacility s.facilities booking.facilityName with
    | none => simp only [Effect.touched?, hf, there_of_none hf, hlast]
    | some f =>
      simp only [Effect.touched?, hf, there_of_some hf]
      split <;> rfl

theorem deleteBooking_last (hlast : s.lastUpdatedFacility = none) :
    (deleteBooking s m e).1.lastUpdatedFacility =
      there s.facilities (Effect.touched? (match parseDelete m.data with
        | .ok (bookingId, facilityName) => .remove facilityName bookingId
        | .error _ => .nothing)) := by
  unfold deleteBooking
  cases parseDelete m.data with
  | error x => exact hlast
  | ok p =>
    cases hf : getFacility s.facilities p.2 with
    | none => simp only [Effect.touched?, hf, there_of_none hf, hlast]
    | some f => simp only [Effect.touched?, hf, there_of_some hf]

theorem addRating_last : (addRating Γ s m e).1.lastUpdatedFacility = s.lastUpdatedFacility := by
  unfold addRating
  split
  · rfl
  · split <;> rfl

theorem monitor_last : (monitor Γ s m e).1.lastUpdatedFacility = s.lastUpdatedFacility := by
  unfold monitor
  split
  · rfl
  · split
    · rfl
    · split
      · rfl
      · split
        · split
          · rfl
          · split <;> rfl
        · rfl

/-- The block of `UPDATE` names a facility for a booking only. -/
theorem update_last (hlast : s.lastUpdatedFacility = none) :
    (update Γ s m e).1.lastUpdatedFacility = there s.facilities (askedUpdate Γ m.data).touched? := by
  unfold askedUpdate update
  cases parseUpdateType m.data with
  | error x => exact hlast
  | ok updateType =>
    by_cases hb : updateType = "booking".toList
    · simp only [hb, if_true]
      exact updateBooking_last hlast
    · by_cases hr : updateType = "rating".toList
      · simp only [hr, if_true]
        refine (addRating_last.trans hlast).trans ?_
        cases parseRating Γ m.data <;> rfl
      · simp only [hb, hr, if_false]
        exact hlast

theorem askedMonitor_touched (data : Option Text) : (askedMonitor Γ data).touched? = none := by
  unfold askedMonitor
  split
  · rfl
  · split
    · split <;> rfl
    · rfl

/-- The facility last updated is the one whose bookings the request is about, if it is there. -/
theorem dispatch_last (hlast : s.lastUpdatedFacility = none) :
    (dispatch Γ s m e).1.lastUpdatedFacility = there s.facilities (asked Γ m).touched? := by
  unfold dispatch asked
  cases ho : m.getOperation with
  | READ => exact hlast
  | WRITE =>
    simp only [tryCatch_state]
    exact bookFacility_last hlast
  | UPDATE =>
    simp only [tryCatch_state]
    exact update_last hlast
  | DELETE =>
    simp only [tryCatch_state]
    exact deleteBooking_last hlast
  | MONITOR =>
    simp only [tryCatch_state, askedMonitor_touched]
    exact monitor_last.trans hlast
  | NONE => exact hlast
  | ECHO => exact hlast
  | RATING => exact hlast

/-- Only these requests are about bookings. -/
theorem operation_of_touched (h : (asked Γ m).touched? ≠ none) :
    m.getOperation = .WRITE ∨ m.getOperation = .UPDATE ∨ m.getOperation = .DELETE := by
  unfold asked at h
  cases ho : m.getOperation with
  | WRITE => exact Or.inl rfl
  | UPDATE => exact Or.inr (Or.inl rfl)
  | DELETE => exact Or.inr (Or.inr rfl)
  | MONITOR =>
    simp only [ho, askedMonitor_touched] at h
    exact absurd rfl h
  | READ => rw [ho] at h; exact absurd rfl h
  | NONE => rw [ho] at h; exact absurd rfl h
  | ECHO => rw [ho] at h; exact absurd rfl h
  | RATING => rw [ho] at h; exact absurd rfl h

end

/-! ## What a request changes -/

/-- What an effect on bookings makes of its facility. -/
def Effect.change (e : Event) : Effect → Facility → Facility
  | .book booking, f => f.setAvailability (f.availability.bookTimeSlot e.uuid.toText e.userInfo booking.timeSlot)
  | .move booking, f => updated e booking f
  | .remove _ bookingId, f => f.setAvailability (f.availability.removeTimeSlot (some bookingId) e.userInfo).1
  | _, f => f

theorem Effect.change_name (e : Event) (effect : Effect) (f : Facility) : (effect.change e f).name = f.name := by
  cases effect <;> rfl

/-- Only the facility that a request is about is changed. -/
theorem onFacilities_of_touched {Γ : Jvm} {e : Event} {effect : Effect} {name : Text} (h : effect.touched? = some name)
    (facilities : List Facility) : effect.onFacilities Γ e facilities = modifyFacility facilities name (effect.change e) := by
  cases effect with
  | book booking => cases h; rfl
  | move booking => cases h; rfl
  | remove facilityName bookingId => cases h; rfl
  | nothing => cases h
  | rate facilityName rating => cases h
  | register facilityName monitorInterval => cases h

/-- A request that is about no bookings leaves those of every facility. -/
theorem sameBookings_of_untouched {Γ : Jvm} {e : Event} {effect : Effect} (h : effect.touched? = none)
    {facilities : List Facility} {name : Text} {f f' : Facility} (hf : getFacility facilities name = some f)
    (hf' : getFacility (effect.onFacilities Γ e facilities) name = some f') : SameBookings f f' := by
  cases effect with
  | book booking => cases h
  | move booking => cases h
  | remove facilityName bookingId => cases h
  | nothing =>
    cases hf.symm.trans hf'
    exact fun _ => List.Perm.refl _
  | rate facilityName rating =>
    have hname : ∀ f : Facility, (f.addRating Γ rating).name = f.name := fun _ => rfl
    rw [Effect.onFacilities, getFacility_modifyFacility hname] at hf'
    split at hf'
    · rename_i heq
      rw [← heq, hf] at hf'
      cases hf'
      exact fun _ => List.Perm.refl _
    · cases hf.symm.trans hf'
      exact fun _ => List.Perm.refl _
  | register facilityName monitorInterval =>
    cases hf.symm.trans hf'
    exact fun _ => List.Perm.refl _

theorem not_sameBookings_of_length {f f' : Facility} (day : DayOfWeek)
    (h : (f'.availability.bookedSlots day).length ≠ (f.availability.bookedSlots day).length) : ¬SameBookings f f' :=
  fun hsame => h (hsame day).length_eq.symm

/-- The booking found is the one that goes. -/
theorem perm_cons_eraseP {p : Booking → Bool} {l : List Booking} {b : Booking} (h : l.find? p = some b) :
    l.Perm (b :: l.eraseP p) := by
  induction l with
  | nil => cases h
  | cons x l ih =>
    cases hp : p x with
    | true =>
      rw [List.find?_cons_of_pos hp] at h
      cases h
      rw [List.eraseP_cons_of_pos hp]
    | false =>
      rw [List.find?_cons_of_neg (by simp [hp])] at h
      rw [List.eraseP_cons_of_neg (by simp [hp])]
      exact ((ih h).cons x).trans (List.Perm.swap b x _)

/-- An update changes nothing when the booking found is the one made. -/
theorem sameBookings_updated_iff {e : Event} {booking : BookingDetails} {f : Facility} :
    SameBookings f (updated e booking f) ↔
      f.availability.ownedDay booking.prevBookingId e.userInfo = some booking.day ∧
        (f.availability.bookedSlots booking.day).find? (Booking.isOf booking.prevBookingId e.userInfo) =
          some (Effect.made e f booking) := by
  by_cases hday : f.availability.ownedDay booking.prevBookingId e.userInfo = some booking.day
  · have hslots : (updated e booking f).availability.bookedSlots booking.day =
        (f.availability.bookedSlots booking.day).eraseP (Booking.isOf booking.prevBookingId e.userInfo) ++
          [Effect.made e f booking] := by
      have hslotday : booking.timeSlot.day = booking.day := rfl
      simp only [updated, Facility.setAvailability, Availability.removeTimeSlot_of_some hday, Availability.bookTimeSlot, hslotday,
        Availability.setBooked_self]
      rfl
    obtain ⟨b, hfind⟩ : ∃ b, (f.availability.bookedSlots booking.day).find?
        (Booking.isOf booking.prevBookingId e.userInfo) = some b := by
      rw [← Option.isSome_iff_exists, List.find?_isSome]
      obtain ⟨l₁, b, l₂, hsplit, hid, huser, _⟩ := Availability.owned_split hday
      refine ⟨b, ?_, ?_⟩
      · rw [hsplit]
        exact List.mem_append_right l₁ List.mem_cons_self
      · rw [Booking.isOf, decide_eq_true hid, decide_eq_true huser]
        rfl
    have hperm : (f.availability.bookedSlots booking.day).Perm ((updated e booking f).availability.bookedSlots booking.day) ↔
        b = Effect.made e f booking := by
      rw [hslots, (perm_cons_eraseP hfind).congr_left, (List.perm_append_singleton _ _).congr_right, ← Multiset.coe_eq_coe,
        ← Multiset.cons_coe, ← Multiset.cons_coe, Multiset.cons_inj_left]
    rw [hfind, Option.some.injEq, ← hperm]
    refine ⟨fun hsame => ⟨hday, hsame booking.day⟩, ?_⟩
    rintro ⟨_, hsame⟩ day
    rcases eq_or_ne day booking.day with rfl | hne
    · exact hsame
    · rw [(moves_updated hday).otherDays day hne]
  · refine iff_of_false (not_sameBookings_of_length booking.day ?_) (fun h => hday h.1)
    rw [length_updated hday]
    omega

/-- The facility that a request is about keeps its bookings exactly when the request is idle. -/
theorem sameBookings_iff_idle {e : Event} {effect : Effect} {facilities : List Facility} {name : Text} {f : Facility}
    (ht : effect.touched? = some name) (hf : getFacility facilities name = some f) :
    SameBookings f ((effect.ifGranted facilities).change e f) ↔ effect.Idle e f := by
  have hself : SameBookings f f := fun _ => List.Perm.refl _
  cases effect with
  | nothing => cases ht
  | rate facilityName rating => cases ht
  | register facilityName monitorInterval => cases ht
  | book booking =>
    cases ht
    cases ha : f.availability.isAvailable booking.timeSlot with
    | true =>
      simp only [Effect.ifGranted, Effect.granted, grants, hf, ha, if_true, Effect.Idle, Bool.true_eq_false, iff_false]
      refine not_sameBookings_of_length booking.timeSlot.day ?_
      simp only [Effect.change, Facility.setAvailability, Availability.bookTimeSlot, Availability.setBooked_self,
        List.length_append, List.length_singleton]
      omega
    | false =>
      simp only [Effect.ifGranted, Effect.granted, grants, hf, ha, Bool.false_eq_true, if_false, Effect.Idle, iff_true]
      exact hself
  | move booking =>
    cases ht
    cases ha : f.availability.isAvailable booking.timeSlot with
    | true =>
      simp only [Effect.ifGranted, Effect.granted, grants, hf, ha, if_true, Effect.Idle, Bool.true_eq_false, false_or]
      exact sameBookings_updated_iff
    | false =>
      simp only [Effect.ifGranted, Effect.granted, grants, hf, ha, Bool.false_eq_true, if_false, Effect.Idle, true_or, iff_true]
      exact hself
  | remove facilityName bookingId =>
    cases ht
    simp only [Effect.ifGranted, Effect.granted, hf, Option.isSome_some, if_true, Effect.Idle, Effect.change]
    cases ho : f.availability.ownedDay (some bookingId) e.userInfo with
    | none =>
      rw [Availability.removeTimeSlot_of_none ho]
      exact iff_of_true hself rfl
    | some day =>
      refine iff_of_false ?_ (Option.some_ne_none day)
      obtain ⟨day, l₁, b, l₂, hslots, hslots', _⟩ := loses_removed ho
      refine not_sameBookings_of_length day ?_
      rw [hslots, hslots']
      simp

/-! ## When the right notifications are sent -/

section

variable {Γ : Jvm} {s : ServerState} {m : RequestMessage} {e : Event}

/-- A request about bookings that is granted is the same request. -/
theorem onFacilities_asked {name : Text} (h : (asked Γ m).touched? = some name) :
    (effectOf Γ s.facilities m).onFacilities Γ e s.facilities =
      modifyFacility s.facilities name ((effectOf Γ s.facilities m).change e) := by
  unfold effectOf Effect.ifGranted
  split
  · exact onFacilities_of_touched h s.facilities
  · have hself : modifyFacility s.facilities name (fun f => f) = s.facilities := by
      have hmap := @map_modifyFacility Facility (fun f => f) s.facilities name (fun f => f) (fun _ _ => rfl)
      simpa using hmap
    exact hself.symm

theorem onMonitors_asked {name : Text} (h : (asked Γ m).touched? = some name) :
    (effectOf Γ s.facilities m).onMonitors m e s.monitors = s.monitors := by
  unfold effectOf Effect.ifGranted
  split
  · generalize asked Γ m = effect at h
    cases effect with
    | register facilityName monitorInterval => cases h
    | _ => rfl
  · rfl

theorem touched_of_there {facilities : List Facility} {name : Option Text} (h : there facilities name ≠ none) : name ≠ none := by
  rintro rfl
  exact h rfl

/-- No effect renames a facility. -/
theorem notMem_onFacilities {effect : Effect} {c : Char} (h : ∀ f ∈ s.facilities, c ∉ f.name) :
    ∀ f ∈ effect.onFacilities Γ e s.facilities, c ∉ f.name := by
  intro f hf
  have hname : f.name ∈ (effect.onFacilities Γ e s.facilities).map Facility.name := List.mem_map_of_mem hf
  rw [onFacilities_names] at hname
  obtain ⟨g, hg, hgf⟩ := List.mem_map.1 hname
  rw [← hgf]
  exact h g hg

/-- What a request that is executed sends: what is due for the facility it is about, as it is then. -/
theorem execute_sent (hlast : s.lastUpdatedFacility = none) (hnames : ∀ f ∈ s.facilities, 'u' ∉ f.name) :
    (execute Γ s m e).sent = ((there s.facilities (asked Γ m).touched?).bind
      (getFacility ((effectOf Γ s.facilities m).onFacilities Γ e s.facilities))).elim [] (notificationsOf s.monitors e.now) := by
  have hlast' := @dispatch_last Γ s m e hlast
  unfold execute
  rcases dispatch_cases Γ s m e with ⟨x, hread, _, hd⟩ | ⟨last, r, _, hd⟩
  · have hasked : asked Γ m = .nothing := by rw [asked, hread]
    rw [hd, hasked]
    rfl
  · rw [hd] at hlast' ⊢
    obtain rfl : last = there s.facilities (asked Γ m).touched? := hlast'
    refine (notifyMonitors_sent e.now (notMem_onFacilities hnames) fun h => operation_of_touched (touched_of_there h)).trans ?_
    cases ht : (asked Γ m).touched? with
    | none => rfl
    | some name => simp only [onMonitors_asked ht]

end

/-- The notifications due are none when every monitor of the facility is expired. -/
theorem notificationsOf_eq_nil_iff {monitors : List Monitor} {now : BitVec 64} {f : Facility} :
    notificationsOf monitors now f = [] ↔
      ¬∃ monitor ∈ monitors, monitor.resourceName = f.name ∧ monitor.ifExpired now = false := by
  simp only [notificationsOf, List.map_eq_nil_iff, List.filter_eq_nil_iff, Bool.and_eq_true, decide_eq_true_eq,
    Bool.not_eq_true', not_exists, not_and]

/-- Where nothing is sent and nothing has changed, all is right. -/
theorem notifiesExactly_of_quiet {s : ServerState} {e : Event} {outcome : Outcome} (hsent : outcome.sent = [])
    (hsame : ∀ name f f', getFacility s.facilities name = some f → getFacility outcome.state.facilities name = some f' →
      SameBookings f f') : NotifiesExactly s e outcome := by
  intro name f f' hf hf'
  refine ⟨fun hne => absurd (hsame name f f' hf hf') hne, ?_⟩
  intro _ d hd
  rw [hsent] at hd
  exact absurd hd List.not_mem_nil

theorem notifiesExactly_of_kept {s : ServerState} {e : Event} {outcome : Outcome} (hsent : outcome.sent = [])
    (hfacilities : outcome.state.facilities = s.facilities) : NotifiesExactly s e outcome := by
  refine notifiesExactly_of_quiet hsent fun name f f' hf hf' => ?_
  rw [hfacilities, hf] at hf'
  cases hf'
  exact fun _ => List.Perm.refl _

/-- Where one facility may have changed and what is due for it is sent, all is right unless something is sent for nothing. -/
theorem notifiesExactly_touched_iff {s : ServerState} {e : Event} {outcome : Outcome} {name : Text} {f : Facility}
    {change : Facility → Facility} (hlines : ∀ f ∈ s.facilities, '\n' ∉ f.name) (hf : getFacility s.facilities name = some f)
    (hname : ∀ f, (change f).name = f.name) (hfacilities : outcome.state.facilities = modifyFacility s.facilities name change)
    (hsent : outcome.sent = notificationsOf s.monitors e.now (change f)) :
    NotifiesExactly s e outcome ↔ (SameBookings f (change f) → notificationsOf s.monitors e.now (change f) = []) := by
  have hfound := getFacility_modifyFacility hname s.facilities name
  have hfname := getFacility_name hf
  constructor
  · intro h hsame
    have hf' : getFacility outcome.state.facilities name = some (change f) := by
      rw [hfacilities, hfound, if_pos rfl, hf]
      rfl
    have hquiet := (h name f (change f) hf hf').2 hsame
    rw [hsent] at hquiet
    refine List.eq_nil_iff_forall_not_mem.2 fun d hd => hquiet d hd ?_
    rw [← hfname, ← hname f]
    exact isAbout_of_mem hd
  · intro h name' g g' hg hg'
    rw [hfacilities, hfound] at hg'
    by_cases heq : name' = name
    · rw [if_pos heq, hf] at hg'
      rw [heq, hf] at hg
      cases hg
      cases hg'
      refine ⟨fun _ => hsent, fun hsame d hd => ?_⟩
      rw [hsent, h hsame] at hd
      exact absurd hd List.not_mem_nil
    · rw [if_neg heq, hg] at hg'
      cases hg'
      refine ⟨fun hne => absurd (fun _ => List.Perm.refl _) hne, fun _ d hd habout => heq ?_⟩
      rw [hsent] at hd
      have hgname := getFacility_name hg
      have habout' := isAbout_of_mem hd
      rw [hname f, hfname] at habout'
      exact eq_of_isAbout (hgname ▸ hlines g (getFacility_mem hg)) (hfname ▸ hlines f (getFacility_mem hf)) habout habout'

/-- No name of a facility has the letter of a status or the end of a line. -/
theorem reachable_name_letters {Γ : Jvm} {checkHistory : Bool} {s : ServerState} (h : Reachable Γ checkHistory s) :
    ∀ f ∈ s.facilities, 'u' ∉ f.name ∧ '\n' ∉ f.name := by
  intro f hf
  have hchars := reachable_name_chars h hf
  exact ⟨fun hu => (hchars _ hu).2 (by decide), fun hnewline => (hchars _ hnewline).2 (by decide)⟩

/-- A request that is executed notifies exactly, unless it asks in vain. -/
theorem notifiesExactly_new_iff {Γ : Jvm} {checkHistory : Bool} {s : ServerState} (h : Reachable Γ checkHistory s) {e : Event}
    {m : RequestMessage} (hm : deserializeMessage Γ e.bytes = .ok m) (ho : m.getOperation ≠ .ECHO)
    (hnew : replayOf s m e = none) : NotifiesExactly s e (handleRequest Γ s e) ↔ ¬AsksInVain Γ s m e := by
  have hfacilities : (handleRequest Γ s e).state.facilities = (effectOf Γ s.facilities m).onFacilities Γ e s.facilities := by
    rw [handleRequest_facilities, effect, hm]
    simp only [hnew, Option.isSome_none, Bool.false_eq_true, if_false]
  have hsent : (handleRequest Γ s e).sent = ((there s.facilities (asked Γ m).touched?).bind
      (getFacility ((effectOf Γ s.facilities m).onFacilities Γ e s.facilities))).elim [] (notificationsOf s.monitors e.now) := by
    rw [handleRequest_of_new hm ho hnew]
    exact execute_sent rfl fun f hf => (reachable_name_letters h f hf).1
  unfold AsksInVain
  cases ht : (asked Γ m).touched? with
  | none =>
    rw [ht] at hsent
    refine iff_of_true (notifiesExactly_of_quiet hsent fun name f f' hf hf' => ?_) (by rintro ⟨_, _, h, _⟩; cases h)
    rw [hfacilities] at hf'
    refine sameBookings_of_untouched ?_ hf hf'
    unfold effectOf Effect.ifGranted
    split
    · exact ht
    · rfl
  | some name =>
    rw [onFacilities_asked ht] at hfacilities hsent
    have hname := Effect.change_name e (effectOf Γ s.facilities m)
    cases hf : getFacility s.facilities name with
    | none =>
      rw [ht, there_of_none hf] at hsent
      rw [modifyFacility_of_none hf] at hfacilities
      refine iff_of_true (notifiesExactly_of_kept hsent hfacilities) ?_
      rintro ⟨name', f, h, hf', _⟩
      cases h
      cases hf.symm.trans hf'
    | some f =>
      rw [ht, there_of_some hf, Option.bind_some, getFacility_modifyFacility hname, if_pos rfl, hf, Option.map_some,
        Option.elim_some] at hsent
      rw [notifiesExactly_touched_iff (fun f hf => (reachable_name_letters h f hf).2) hf hname hfacilities hsent,
        notificationsOf_eq_nil_iff, effectOf, sameBookings_iff_idle ht hf, Effect.change_name, getFacility_name hf]
      simp only [Option.some.injEq, exists_and_left, exists_eq_left', hf, not_and]

/-- A request that is no repetition notifies exactly of what it changes, unless it is about a facility that it changes nothing in
and that is monitored: the handlers name their facility before they know. -/
theorem notifiesExactly_iff {Γ : Jvm} {checkHistory : Bool} {s : ServerState} (h : Reachable Γ checkHistory s) (e : Event)
    (hnew : ∀ m, deserializeMessage Γ e.bytes = .ok m → m.getOperation ≠ .ECHO → replayOf s m e = none) :
    NotifiesExactly s e (handleRequest Γ s e) ↔ ¬NotifiesInVain Γ s e := by
  cases hm : deserializeMessage Γ e.bytes with
  | error x =>
    have hrun : handleRequest Γ s e = ⟨s.reset, .ok badRequest, []⟩ := by
      rw [handleRequest, hm]
      rfl
    rw [hrun]
    refine iff_of_true (notifiesExactly_of_kept rfl rfl) ?_
    rintro ⟨m, hm', _⟩
    cases hm.symm.trans hm'
  | ok m =>
    have hvain : NotifiesInVain Γ s e ↔ AsksInVain Γ s m e := by
      simp only [NotifiesInVain, hm, Except.ok.injEq, exists_eq_left']
    rw [hvain]
    by_cases ho : m.getOperation = .ECHO
    · rw [handleRequest_of_echo hm ho]
      refine iff_of_true (notifiesExactly_of_kept rfl rfl) ?_
      rintro ⟨name, f, ht, _⟩
      have hasked : asked Γ m = .nothing := by rw [asked, ho]
      rw [hasked] at ht
      cases ht
    · exact notifiesExactly_new_iff h hm ho (hnew m hm ho)

/-- A registration of a monitor, and a deletion of a booking that was never made. -/
def registerMonitor : RequestMessage := ⟨4, 0, some "register,Weekday1,60".toList⟩
def deleteUnmade : RequestMessage := ⟨3, 1, some "00000000-0000-0000-0000-000000000000,Weekday1".toList⟩

/-- The server when the monitor is registered. -/
def monitored : ServerState := serverStep openJdk (.init true) (.sent 5000 registerMonitor ⟨0, 0⟩)

theorem monitored_eq : monitored =
    { ServerState.init true with
      monitors := [⟨"Weekday1".toList, 0, ⟨[127, 0, 0, 1], "127.0.0.1".toList⟩, 5000, 0, 60⟩]
      requestHistory := [⟨registerMonitor, ⟨[127, 0, 0, 1], "127.0.0.1".toList⟩, 5000,
        ⟨4, 0, success (lines [line "facility" "Weekday1".toList, line "interval" (decimal 60)])⟩⟩] } := by
  have hm : deserializeMessage openJdk (Event.sent 5000 registerMonitor ⟨0, 0⟩).bytes = .ok registerMonitor :=
    deserializeMessage_frame openJdk registerMonitor fun t ht => by cases ht; decide
  rw [monitored, serverStep, handleRequest_of_new hm (by decide) rfl]
  rfl

theorem monitored_reachable : Reachable openJdk true monitored := by
  unfold monitored
  exact .step .start _

theorem deleteUnmade_decodes : deserializeMessage openJdk (Event.sent 5000 deleteUnmade ⟨0, 1⟩).bytes = .ok deleteUnmade :=
  deserializeMessage_frame openJdk deleteUnmade fun t ht => by cases ht; decide

theorem notifiesExactly_iff_unmade :
    NotifiesExactly monitored (.sent 5000 deleteUnmade ⟨0, 1⟩) (handleRequest openJdk monitored (.sent 5000 deleteUnmade ⟨0, 1⟩)) ↔
      ¬NotifiesInVain openJdk monitored (.sent 5000 deleteUnmade ⟨0, 1⟩) := by
  refine notifiesExactly_iff monitored_reachable _ fun m hm _ => ?_
  cases hm.symm.trans deleteUnmade_decodes
  rw [monitored_eq]
  rfl

/-- The monitor is notified of the deletion. -/
theorem not_notifiesExactly :
    ¬∀ checkHistory s, Reachable openJdk checkHistory s → ∀ e : Event,
      (∀ m, deserializeMessage openJdk e.bytes = .ok m → m.getOperation ≠ .ECHO → replayOf s m e = none) →
      NotifiesExactly s e (handleRequest openJdk s e) := by
  intro h
  have hnew : replayOf monitored deleteUnmade (.sent 5000 deleteUnmade ⟨0, 1⟩) = none := by
    rw [monitored_eq]
    rfl
  refine (notifiesExactly_new_iff monitored_reachable deleteUnmade_decodes (by decide) hnew).1 (h true _ monitored_reachable _ fun m hm _ => ?_) ?_
  · cases hm.symm.trans deleteUnmade_decodes
    exact hnew
  · rw [monitored_eq]
    exact ⟨"Weekday1".toList, _, rfl, rfl, rfl, _, List.mem_cons_self, rfl, rfl⟩

end FacilityBooking
