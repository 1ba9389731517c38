import FacilityBooking.Client.Operations
import FacilityBooking.Lemmas.Texts

/-!
# Numbers that are read back

`parseInt` of the server and `stoi` of the client read the same number from digits, and the server reads back every number that
the client writes.
-/

namespace FacilityBooking

theorem getBytes_append (s t : Text) : getBytes (s ++ t) = getBytes s ++ getBytes t := List.flatMap_append

theorem getBytes_cons (c : Char) (t : Text) : getBytes (c :: t) = String.utf8EncodeChar c ++ getBytes t := List.flatMap_cons

theorem getBytes_flatMap {α : Type} (g : α → Text) (xs : List α) : getBytes (xs.flatMap g) = xs.flatMap fun x => getBytes (g x) :=
  List.flatMap_assoc

theorem getBytes_ne_nil {t : Text} (h : t ≠ []) : getBytes t ≠ [] := fun hnil => h (@getBytes_injective t [] hnil)

/-- The characters of the bytes of ASCII. -/
def ascii (bs : Bytes) : Text := bs.map (fun b => Char.ofNat b.toNat)

theorem getBytes_ascii {bs : Bytes} (h : ∀ b ∈ bs, b.toNat < 128) : getBytes (ascii bs) = bs := by
  have hbyte : ∀ n < 128, String.utf8EncodeChar (Char.ofNat n) = [UInt8.ofNat n] := by decide
  induction bs with
  | nil => rfl
  | cons b bs ih =>
    have hb := hbyte b.toNat (h b List.mem_cons_self)
    have htail := ih fun x hx => h x (List.mem_cons_of_mem b hx)
    rw [UInt8.ofNat_toNat] at hb
    rw [ascii, getBytes] at htail ⊢
    rw [List.map_cons, List.flatMap_cons, hb, htail]
    rfl

/-- A byte of ASCII stands for its character: no other character has such a byte. -/
theorem mem_of_mem_getBytes {t : Text} {b : UInt8} (h : b.toNat < 128) (hb : b ∈ getBytes t) : ∃ c ∈ t, b.toNat = c.toNat := by
  obtain ⟨c, hc, hmem⟩ := List.mem_flatMap.1 hb
  refine ⟨c, hc, ?_⟩
  unfold String.utf8EncodeChar at hmem
  dsimp only at hmem
  split_ifs at hmem with h₁ h₂ h₃
  · rw [List.mem_singleton] at hmem
    rw [hmem, UInt8.toNat_ofNat']
    exact Nat.mod_eq_of_lt (by omega)
  all_goals simp only [List.mem_cons, List.not_mem_nil, or_false] at hmem
  · rcases hmem with hmem | hmem <;> rw [hmem, UInt8.toNat_ofNat'] at h <;> omega
  · rcases hmem with hmem | hmem | hmem <;> rw [hmem, UInt8.toNat_ofNat'] at h <;> omega
  · rcases hmem with hmem | hmem | hmem | hmem <;> rw [hmem, UInt8.toNat_ofNat'] at h <;> omega

/-- A character of ASCII that a text does not have is no byte of it either. -/
theorem notMem_getBytes {t : Text} {c : Char} {b : UInt8} (hb : b.toNat < 128) (hc : b.toNat = c.toNat) (h : c ∉ t) :
    b ∉ getBytes t := by
  intro hmem
  obtain ⟨c', hc', heq⟩ := mem_of_mem_getBytes hb hmem
  have hsame : c' = c := Char.ext (UInt32.toNat_inj.1 (heq.symm.trans hc))
  exact h (hsame ▸ hc')

theorem newline_notMem_getBytes {t : Text} (h : '\n' ∉ t) : (10 : UInt8) ∉ getBytes t := notMem_getBytes (by decide) rfl h

/-! ## Digits -/

/-- The digits are those of ten numbers. -/
theorem digit_of_isDigit {c : Char} (h : c.isDigit = true) : ∃ d < 10, c = Char.ofNat (48 + d) := by
  have hrange : c.val ≥ '0'.val ∧ c.val ≤ '9'.val := by simpa [Char.isDigit] using h
  simp only [ge_iff_le, UInt32.le_iff_toNat_le] at hrange
  have hlow : 48 ≤ c.toNat := hrange.1
  have hhigh : c.toNat ≤ 57 := hrange.2
  refine ⟨c.toNat - 48, by omega, ?_⟩
  rw [show 48 + (c.toNat - 48) = c.toNat by omega, Char.ofNat_toNat]

/-- `parseInt` takes digits for their number. -/
theorem parseDigits_of_isDigit (Γ : Jvm) {cs : Text} (h : ∀ c ∈ cs, c.isDigit = true) (acc : Nat) :
    parseDigits Γ cs acc = some (Nat.ofDigitChars 10 cs acc) := by
  induction cs generalizing acc with
  | nil => rfl
  | cons c cs ih =>
    have hdigit := h c List.mem_cons_self
    obtain ⟨d, hd, rfl⟩ := digit_of_isDigit hdigit
    have hlt : (Char.ofNat (48 + d)).toNat < 128 := (by decide : ∀ d < 10, (Char.ofNat (48 + d)).toNat < 128) d hd
    have hvalue : Γ.digit (Char.ofNat (48 + d)) = some ((Char.ofNat (48 + d)).toNat - 48) := by
      rw [Γ.digit_ascii _ hlt, if_pos hdigit]
    rw [parseDigits, hvalue]
    dsimp only
    rw [ih fun x hx => h x (List.mem_cons_of_mem _ hx), Nat.ofDigitChars_cons, Nat.mul_comm]
    rfl

theorem parseInt_of_isDigit (Γ : Jvm) {cs : Text} (hne : cs ≠ []) (h : ∀ c ∈ cs, c.isDigit = true)
    (hlt : Nat.ofDigitChars 10 cs 0 < 2 ^ 31) : parseInt Γ cs = .ok (Nat.ofDigitChars 10 cs 0) := by
  cases cs with
  | nil => exact absurd rfl hne
  | cons c cs =>
    have hsign : c ≠ '-' ∧ c ≠ '+' := by
      constructor
      · rintro rfl
        exact absurd (h _ List.mem_cons_self) (by decide)
      · rintro rfl
        exact absurd (h _ List.mem_cons_self) (by decide)
    simp only [parseInt, List.head?_cons, Option.some.injEq, hsign.1, hsign.2, or_self, if_false, parseDigits_of_isDigit Γ h,
      inIntRange]
    rw [if_pos (by omega)]

/-- The server reads back a number that the client writes. -/
theorem parseInt_decimal (Γ : Jvm) {n : Int} (hlow : -2 ^ 31 ≤ n) (hhigh : n < 2 ^ 31) : parseInt Γ (decimal n) = .ok n := by
  cases n with
  | ofNat n =>
    have hvalue : Nat.ofDigitChars 10 (Nat.toDigits 10 n) 0 = n := Nat.ofDigitChars_ten_toDigits
    have hparse := parseInt_of_isDigit Γ (Nat.toDigits_ne_nil (n := n) (b := 10))
      (fun c hc => Nat.isDigit_of_mem_toDigits (by decide) (by decide) hc) (by rw [hvalue]; exact Int.ofNat_lt.1 hhigh)
    rw [hvalue] at hparse
    exact hparse
  | negSucc n =>
    have hdigits : ∀ c ∈ Nat.toDigits 10 (n + 1), c.isDigit = true :=
      fun c hc => Nat.isDigit_of_mem_toDigits (by decide) (by decide) hc
    cases hcs : Nat.toDigits 10 (n + 1) with
    | nil => exact absurd hcs Nat.toDigits_ne_nil
    | cons c cs =>
      have hparse := parseDigits_of_isDigit Γ hdigits 0
      rw [Nat.ofDigitChars_ten_toDigits, hcs] at hparse
      simp only [parseInt, decimal, hcs, List.head?_cons, true_or, if_true, List.tail_cons, hparse, inIntRange]
      rw [if_pos (by omega)]
      exact congrArg Except.ok (by omega)

/-- The byte of a digit. -/
theorem getBytes_digit_cons {d : Nat} (hd : d < 10) (cs : Text) :
    getBytes (Char.ofNat (48 + d) :: cs) = UInt8.ofNat (48 + d) :: getBytes cs := by
  have hbyte : ∀ d < 10, String.utf8EncodeChar (Char.ofNat (48 + d)) = [UInt8.ofNat (48 + d)] := by decide
  rw [getBytes, List.flatMap_cons, hbyte d hd]
  rfl

theorem isDigit_getBytes {cs : Text} (h : ∀ c ∈ cs, c.isDigit = true) : ∀ b ∈ getBytes cs, Cpp.isDigit b = true := by
  induction cs with
  | nil => exact fun b hb => absurd hb List.not_mem_nil
  | cons c cs ih =>
    obtain ⟨d, hd, rfl⟩ := digit_of_isDigit (h c List.mem_cons_self)
    have hbyte : ∀ d < 10, Cpp.isDigit (UInt8.ofNat (48 + d)) = true := by decide
    rw [getBytes_digit_cons hd, List.forall_mem_cons]
    exact ⟨hbyte d hd, ih fun x hx => h x (List.mem_cons_of_mem _ hx)⟩

/-- The bytes of digits stand for their number. -/
theorem foldl_getBytes {cs : Text} (h : ∀ c ∈ cs, c.isDigit = true) (acc : Nat) :
    (getBytes cs).foldl (fun n b => n * 10 + (b.toNat - 48)) acc = Nat.ofDigitChars 10 cs acc := by
  induction cs generalizing acc with
  | nil => rfl
  | cons c cs ih =>
    obtain ⟨d, hd, rfl⟩ := digit_of_isDigit (h c List.mem_cons_self)
    have hbyte : ∀ d < 10, (UInt8.ofNat (48 + d)).toNat - 48 = (Char.ofNat (48 + d)).toNat - '0'.toNat := by decide
    rw [getBytes_digit_cons hd, List.foldl_cons, ih fun x hx => h x (List.mem_cons_of_mem _ hx), Nat.ofDigitChars_cons,
      hbyte d hd, Nat.mul_comm]

/-- The client's `stoi` takes digits for the same number. -/
theorem stoi_of_isDigit {cs : Text} (hne : cs ≠ []) (h : ∀ c ∈ cs, c.isDigit = true)
    (hlt : Nat.ofDigitChars 10 cs 0 < 2 ^ 31) : Cpp.stoi (getBytes cs) = some (Nat.ofDigitChars 10 cs 0 : Int) := by
  have hbytes := isDigit_getBytes h
  have hvalue : Cpp.digitsValue (getBytes cs) = Nat.ofDigitChars 10 cs 0 := foldl_getBytes h 0
  cases hcs : getBytes cs with
  | nil =>
    cases cs with
    | nil => exact absurd rfl hne
    | cons c cs => exact absurd (List.append_eq_nil_iff.1 hcs).1 String.utf8EncodeChar_ne_nil
  | cons b bs =>
    rw [hcs] at hbytes hvalue
    have hb := hbytes b List.mem_cons_self
    have hspace : Cpp.isSpace b = false := by
      revert hb
      unfold Cpp.isDigit Cpp.isSpace
      grind
    have hsign : b ≠ 45 ∧ b ≠ 43 := by
      constructor
      · rintro rfl
        exact absurd hb (by decide)
      · rintro rfl
        exact absurd hb (by decide)
    have htake : (b :: bs).takeWhile Cpp.isDigit = b :: bs := List.takeWhile_eq_self_iff.2 hbytes
    have hdrop : (b :: bs).dropWhile Cpp.isSpace = b :: bs := by
      rw [List.dropWhile_cons, hspace]
      rfl
    simp only [Cpp.stoi, hdrop, List.head?_cons, Option.some.injEq, hsign.1, hsign.2, or_self, if_false, htake,
      List.cons_ne_nil, hvalue, Cpp.toInt]
    rw [if_pos (by omega)]

/-- The hour and the minute of a time. -/
theorem Cpp.substr_time {hour minute : Bytes} (hhour : hour.length = 2) (hminute : minute.length = 2) :
    Cpp.substr (hour ++ minute) 0 2 = some hour ∧ Cpp.substr (hour ++ minute) 2 2 = some minute := by
  have htake : (hour ++ minute).take 2 = hour := List.take_left' hhour
  have hdrop : (hour ++ minute).drop 2 = minute := List.drop_left' hhour
  have hlength : 2 ≤ (hour ++ minute).length := by rw [List.length_append]; omega
  constructor
  · rw [Cpp.substr, if_pos (Nat.zero_le _), List.drop_zero, htake]
  · rw [Cpp.substr, if_pos hlength, hdrop, List.take_of_length_le (by omega)]

end FacilityBooking
