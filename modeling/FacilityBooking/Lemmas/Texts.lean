import FacilityBooking.Server.Models

/-!
# The texts of numbers

A number reads back as itself, and its text has digits and at most a minus sign, so no text that is put together around numbers is
mistaken for another at a comma, a colon, a letter or the end of a line.
-/

namespace FacilityBooking

/-- A character of the text of a number. -/
def IsNumeric (c : Char) : Prop := c = '-' ∨ c.isDigit = true

instance (c : Char) : Decidable (IsNumeric c) := inferInstanceAs (Decidable (_ ∨ _))

theorem isNumeric_of_mem_decimal {c : Char} {n : Int} (h : c ∈ decimal n) : IsNumeric c := by
  cases n with
  | ofNat n => exact Or.inr (Nat.isDigit_of_mem_toDigits (by decide) (by decide) h)
  | negSucc n =>
    rcases List.mem_cons.1 h with rfl | h
    · exact Or.inl rfl
    · exact Or.inr (Nat.isDigit_of_mem_toDigits (by decide) (by decide) h)

theorem isNumeric_of_mem_format02d {c : Char} {n : Int} (h : c ∈ format02d n) : IsNumeric c := by
  unfold format02d at h
  split at h
  · rcases List.mem_cons.1 h with rfl | h
    · decide
    · exact isNumeric_of_mem_decimal h
  · exact isNumeric_of_mem_decimal h

/-- A number has a text. -/
theorem decimal_ne_nil (n : Int) : decimal n ≠ [] := by
  cases n with
  | ofNat n => exact Nat.toDigits_ne_nil
  | negSucc n => exact List.cons_ne_nil _ _

/-- The text of a slot has no character but these. -/
theorem mem_timeSlot_toText {c : Char} {slot : TimeSlot} (h : c ∈ slot.toText) : IsNumeric c ∨ c = ' ' := by
  simp only [TimeSlot.toText, List.mem_append] at h
  rcases h with (((h | h) | h) | h) | h
  · exact Or.inl (isNumeric_of_mem_format02d h)
  · exact Or.inl (isNumeric_of_mem_format02d h)
  · have hdash : ∀ c ∈ " - ".toList, IsNumeric c ∨ c = ' ' := List.all_iff_forall_prop.1 (by decide)
    exact hdash c h
  · exact Or.inl (isNumeric_of_mem_format02d h)
  · exact Or.inl (isNumeric_of_mem_format02d h)

/-! ## The text of a UUID -/

theorem hexDigits_succ (n x : Nat) : hexDigits (n + 1) x = Nat.digitChar (x / 16 ^ n % 16) :: hexDigits n x := by
  rw [hexDigits, List.range_succ, List.reverse_append, List.map_append]
  rfl

/-- As many digits as are asked for. -/
theorem length_hexDigits (n x : Nat) : (hexDigits n x).length = n := by
  rw [hexDigits, List.length_map, List.length_reverse, List.length_range]

/-- Hexadecimal digits tell numbers apart, up to the digits there are. -/
theorem hexDigits_inj {n x y : Nat} (h : hexDigits n x = hexDigits n y) : x % 16 ^ n = y % 16 ^ n := by
  have hdigit : ∀ a < 16, ∀ b < 16, Nat.digitChar a = Nat.digitChar b → a = b := by decide
  induction n with
  | zero => rw [Nat.pow_zero, Nat.mod_one, Nat.mod_one]
  | succ n ih =>
    rw [hexDigits_succ, hexDigits_succ] at h
    obtain ⟨hhead, htail⟩ := List.cons.inj h
    have hhead' := hdigit _ (Nat.mod_lt _ (by decide)) _ (Nat.mod_lt _ (by decide)) hhead
    rw [Nat.mod_pow_succ, Nat.mod_pow_succ, ih htail, hhead']

/-- The text of a UUID tells it apart. -/
theorem UUID.toText_injective {u v : UUID} (h : u.toText = v.toText) : u = v := by
  obtain ⟨m, l⟩ := u
  obtain ⟨m', l'⟩ := v
  have hm := m.isLt
  have hl := l.isLt
  have hm' := m'.isLt
  have hl' := l'.isLt
  simp only [UUID.toText, List.append_assoc, List.cons_append] at h
  obtain ⟨h₁, h⟩ := List.append_inj h (by rw [length_hexDigits, length_hexDigits])
  obtain ⟨h₂, h⟩ := List.append_inj (List.cons.inj h).2 (by rw [length_hexDigits, length_hexDigits])
  obtain ⟨h₃, h⟩ := List.append_inj (List.cons.inj h).2 (by rw [length_hexDigits, length_hexDigits])
  obtain ⟨h₄, h⟩ := List.append_inj (List.cons.inj h).2 (by rw [length_hexDigits, length_hexDigits])
  have e₁ := hexDigits_inj h₁
  have e₂ := hexDigits_inj h₂
  have e₃ := hexDigits_inj h₃
  have e₄ := hexDigits_inj h₄
  have e₅ := hexDigits_inj (List.cons.inj h).2
  rw [UUID.mk.injEq]
  refine ⟨BitVec.eq_of_toNat_eq ?_, BitVec.eq_of_toNat_eq ?_⟩
  · omega
  · omega

/-- The text of a UUID has digits and hyphens. -/
theorem mem_uuid_toText {c : Char} {u : UUID} (h : c ∈ u.toText) : c = '-' ∨ c ∈ "0123456789abcdef".toList := by
  have hdigit : ∀ a < 16, Nat.digitChar a ∈ "0123456789abcdef".toList := by decide
  have hhex : ∀ n x, c ∈ hexDigits n x → c ∈ "0123456789abcdef".toList := by
    intro n x hc
    obtain ⟨i, _, rfl⟩ := List.mem_map.1 hc
    exact hdigit _ (Nat.mod_lt _ (by decide))
  simp only [UUID.toText, List.mem_append, List.mem_cons] at h
  rcases h with (((h | h | h) | h | h) | h | h) | h | h
  · exact Or.inr (hhex _ _ h)
  · exact Or.inl h
  · exact Or.inr (hhex _ _ h)
  · exact Or.inl h
  · exact Or.inr (hhex _ _ h)
  · exact Or.inl h
  · exact Or.inr (hhex _ _ h)
  · exact Or.inl h
  · exact Or.inr (hhex _ _ h)

/-- So the text of a UUID is one piece of a request. -/
theorem comma_notMem_uuid (u : UUID) : ',' ∉ u.toText := by
  intro h
  rcases mem_uuid_toText h with h | h
  · exact absurd h (by decide)
  · exact absurd h (by decide)

end FacilityBooking
