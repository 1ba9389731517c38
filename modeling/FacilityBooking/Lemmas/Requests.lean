import FacilityBooking.Lemmas.Numbers
import FacilityBooking.Lemmas.Split
import FacilityBooking.Server.Parser

/-!
# The texts of requests

What the server reads in the pieces of a text that the client puts together, and what it makes of the bytes of that text.
-/

namespace FacilityBooking

/-! ## Details -/

theorem java_bind_eq_ok {α β : Type} {x : Java α} {f : α → Java β} {b : β} : (x >>= f) = .ok b ↔ ∃ a, x = .ok a ∧ f a = .ok b := by
  cases x with
  | error e =>
    constructor
    · intro h
      cases h
    · rintro ⟨a, ha, _⟩
      cases ha
  | ok a =>
    constructor
    · intro h
      exact ⟨a, rfl, h⟩
    · rintro ⟨a', ha, h⟩
      cases ha
      exact h

theorem getIndex_eq_ok {a : List Text} {i : Nat} {x : Text} : getIndex a i = .ok x ↔ a[i]? = some x := by
  unfold getIndex
  cases a[i]? with
  | none =>
    constructor
    · intro h
      cases h
    · intro h
      cases h
  | some y =>
    constructor
    · intro h
      cases h
      rfl
    · intro h
      cases h
      rfl

section

variable {Γ : Jvm} {readDay : Text → Java DayOfWeek} {prevBookingId : Option Text} {a : List Text} {i : Nat} {b : BookingDetails}

/-- Details are read when all six pieces are. -/
theorem readDetails_eq_ok :
    readDetails Γ readDay prevBookingId a i = .ok b ↔ ∃ day h₁ m₁ h₂ m₂,
      (a[i]? = some b.facilityName ∧ a[i + 1]? = some day ∧ a[i + 2]? = some h₁ ∧ a[i + 3]? = some m₁ ∧ a[i + 4]? = some h₂ ∧
        a[i + 5]? = some m₂) ∧ prevBookingId = b.prevBookingId ∧ readDay day = .ok b.day ∧ parseInt Γ h₁ = .ok b.startHour ∧
      parseInt Γ m₁ = .ok b.startMinute ∧ parseInt Γ h₂ = .ok b.endHour ∧ parseInt Γ m₂ = .ok b.endMinute := by
  simp only [readDetails, java_bind_eq_ok, getIndex_eq_ok]
  constructor
  · rintro ⟨f, hf, day, hday, d, hd, h₁, hh₁, v₁, hv₁, m₁, hm₁, w₁, hw₁, h₂, hh₂, v₂, hv₂, m₂, hm₂, w₂, hw₂, hb⟩
    cases hb
    exact ⟨day, h₁, m₁, h₂, m₂, ⟨hf, hday, hh₁, hm₁, hh₂, hm₂⟩, rfl, hd, hv₁, hw₁, hv₂, hw₂⟩
  · rintro ⟨day, h₁, m₁, h₂, m₂, ⟨hf, hday, hh₁, hm₁, hh₂, hm₂⟩, rfl, hd, hv₁, hw₁, hv₂, hw₂⟩
    exact ⟨_, hf, day, hday, _, hd, h₁, hh₁, _, hv₁, m₁, hm₁, _, hw₁, h₂, hh₂, _, hv₂, m₂, hm₂, _, hw₂, rfl⟩

/-- Fewer than six pieces are no details. -/
theorem readDetails_of_length_lt (h : a.length < i + 6) : readDetails Γ readDay prevBookingId a i ≠ .ok b := by
  intro hb
  obtain ⟨day, h₁, m₁, h₂, m₂, ⟨_, _, _, _, _, hm₂⟩, _⟩ := readDetails_eq_ok.1 hb
  have hlt := (List.getElem?_eq_some_iff.1 hm₂).1
  omega

/-- What follows the six pieces is not read. -/
theorem readDetails_append {tail : List Text} (h : i + 6 ≤ a.length) :
    readDetails Γ readDay prevBookingId (a ++ tail) i = .ok b ↔ readDetails Γ readDay prevBookingId a i = .ok b := by
  simp only [readDetails_eq_ok]
  have hindex : ∀ j < i + 6, (a ++ tail)[j]? = a[j]? := fun j hj => List.getElem?_append_left (by omega)
  rw [hindex i (by omega), hindex (i + 1) (by omega), hindex (i + 2) (by omega), hindex (i + 3) (by omega),
    hindex (i + 4) (by omega), hindex (i + 5) (by omega)]

/-- A piece that is no number is none of the four. -/
theorem readDetails_of_not_number {j : Nat} {x : Text} (hj : i + 2 ≤ j ∧ j < i + 6) (hx : a[j]? = some x)
    (hnumber : ∀ n, parseInt Γ x ≠ .ok n) : readDetails Γ readDay prevBookingId a i ≠ .ok b := by
  intro hb
  obtain ⟨day, h₁, m₁, h₂, m₂, ⟨_, _, hh₁, hm₁, hh₂, hm₂⟩, _, _, hv₁, hw₁, hv₂, hw₂⟩ := readDetails_eq_ok.1 hb
  obtain rfl | rfl | rfl | rfl : j = i + 2 ∨ j = i + 3 ∨ j = i + 4 ∨ j = i + 5 := by omega
  · exact hnumber _ (Option.some.inj (hx.symm.trans hh₁) ▸ hv₁)
  · exact hnumber _ (Option.some.inj (hx.symm.trans hm₁) ▸ hw₁)
  · exact hnumber _ (Option.some.inj (hx.symm.trans hh₂) ▸ hv₂)
  · exact hnumber _ (Option.some.inj (hx.symm.trans hm₂) ▸ hw₂)

end

/-- The name of a day is no number. -/
theorem parseInt_name (Γ : Jvm) (day : DayOfWeek) (n : Int) : parseInt Γ day.name ≠ .ok n := by
  obtain ⟨c, cs, hname, hascii, hdigit, hminus, hplus⟩ : ∃ c cs, day.name = c :: cs ∧ c.toNat < 128 ∧ c.isDigit = false ∧
      c ≠ '-' ∧ c ≠ '+' := by
    cases day <;> exact ⟨_, _, rfl, by decide, by decide, by decide, by decide⟩
  have hnone : Γ.digit c = none := by
    rw [Γ.digit_ascii c hascii, hdigit]
    rfl
  rw [hname]
  simp only [parseInt, List.head?_cons, Option.some.injEq, hminus, hplus, or_self, if_false, parseDigits, hnone]
  intro h
  cases h

/-! ## Updates -/

/-- The text of a number has no comma. -/
theorem comma_notMem_decimal (n : Int) : ',' ∉ decimal n := by
  intro h
  exact absurd (isNumeric_of_mem_decimal h) (by decide)

/-- The text of the request to update a booking. -/
def updateText (bookingID facility : Text) (day : DayOfWeek) (startHour startMinute endHour endMinute : Int) : Text :=
  joined ("booking".toList :: ([bookingID, facility, day.name, decimal startHour, decimal startMinute, decimal endHour] ++
    [decimal endMinute]))

/-- What the server reads in it. -/
theorem parse_updateText (Γ : Jvm) {bookingID facility : Text} (hid : ',' ∉ bookingID) (hfacility : ',' ∉ facility) (day : DayOfWeek)
    {h₁ m₁ h₂ m₂ : Int} (hrange : ∀ n ∈ [h₁, m₁, h₂, m₂], -2 ^ 31 ≤ n ∧ n < 2 ^ 31) :
    parseUpdateType (some (updateText bookingID facility day h₁ m₁ h₂ m₂)) = .ok "booking".toList ∧
      parseUpdateBookingDetails Γ (some (updateText bookingID facility day h₁ m₁ h₂ m₂)) =
        .ok ⟨some bookingID, facility, day, h₁, m₁, h₂, m₂⟩ := by
  have hname : ',' ∉ day.name := by cases day <;> decide
  have hupper : Γ.toUpperCase day.name = day.name :=
    Γ.toUpperCase_upper _ (by cases day <;> exact List.all_iff_forall_prop.1 (by decide))
  have hsplit : split (updateText bookingID facility day h₁ m₁ h₂ m₂) = "booking".toList ::
      ([bookingID, facility, day.name, decimal h₁, decimal m₁, decimal h₂] ++ [decimal m₂]) := by
    refine split_joined (by decide) ?_ (comma_notMem_decimal _) (decimal_ne_nil _)
    simp only [List.forall_mem_cons]
    exact ⟨hid, hfacility, hname, comma_notMem_decimal _, comma_notMem_decimal _, comma_notMem_decimal _, List.forall_mem_nil _⟩
  have htrim : trim (updateText bookingID facility day h₁ m₁ h₂ m₂) ≠ [] := by
    rw [updateText, List.cons_append, joined_cons_cons]
    intro h
    have hb := List.rdropWhile_eq_nil_iff.1 h 'b' List.mem_cons_self
    exact absurd hb (by decide)
  simp only [List.forall_mem_cons] at hrange
  obtain ⟨hh₁, hm₁, hh₂, hm₂, _⟩ := hrange
  constructor
  · rw [parseUpdateType, splitData, hsplit]
    rfl
  · have hdetails : readDetails Γ (fun day => DayOfWeek.valueOf (Γ.toUpperCase day)) (some bookingID) ("booking".toList ::
        ([bookingID, facility, day.name, decimal h₁, decimal m₁, decimal h₂] ++ [decimal m₂])) 2 =
          .ok ⟨some bookingID, facility, day, h₁, m₁, h₂, m₂⟩ :=
      readDetails_eq_ok.2 ⟨_, _, _, _, _, ⟨rfl, rfl, rfl, rfl, rfl, rfl⟩, rfl, by rw [hupper, DayOfWeek.valueOf_name],
        parseInt_decimal Γ hh₁.1 hh₁.2, parseInt_decimal Γ hm₁.1 hm₁.2, parseInt_decimal Γ hh₂.1 hh₂.2,
        parseInt_decimal Γ hm₂.1 hm₂.2⟩
    have hone : ("booking".toList :: ([bookingID, facility, day.name, decimal h₁, decimal m₁, decimal h₂] ++
        [decimal m₂]))[1]? = some bookingID := rfl
    rw [parseUpdateBookingDetails]
    simp only [htrim, if_false, hsplit]
    rw [if_neg (by simp), hone, hdetails]

end FacilityBooking
