import Mathlib.Data.BitVec
import Mathlib.Tactic.Positivity

/-!
# Big-endian bytes

The bytes of a number, most significant first, and the number such bytes stand for; and the two idioms by which a program
computes them, a shift and a mask to take a byte out of a word, and a disjunction of shifted bytes to put a word together.
-/

namespace BigEndian

/-- The `n` low bytes of a number, most significant first. -/
def bytes : Nat → Nat → List UInt8
  | 0, _ => []
  | n + 1, x => UInt8.ofNat (x / 256 ^ n) :: bytes n x

/-- The number that bytes stand for, most significant first. -/
def value : List UInt8 → Nat
  | [] => 0
  | b :: bs => value bs + 256 ^ bs.length * b.toNat

@[simp] theorem length_bytes (n x : Nat) : (bytes n x).length = n := by
  induction n with
  | zero => rfl
  | succ n ih => rw [bytes, List.length_cons, ih]

/-- The bytes of a number stand for the number, up to the bytes there are. -/
theorem value_bytes (n x : Nat) : value (bytes n x) = x % 256 ^ n := by
  induction n with
  | zero => rw [bytes, value, Nat.pow_zero, Nat.mod_one]
  | succ n ih =>
    have hbyte : (UInt8.ofNat (x / 256 ^ n)).toNat = x / 256 ^ n % 256 := UInt8.toNat_ofNat'
    rw [bytes, value, ih, length_bytes, hbyte, Nat.mod_pow_succ]

theorem value_lt (bs : List UInt8) : value bs < 256 ^ bs.length := by
  induction bs with
  | nil => exact Nat.one_pos
  | cons b bs ih =>
    have hb := b.toNat_lt
    rw [value, List.length_cons, Nat.pow_succ]
    have hmul : 256 ^ bs.length * b.toNat ≤ 256 ^ bs.length * 255 := Nat.mul_le_mul_left _ (by omega)
    omega

/-- Bytes above those taken do not matter. -/
theorem bytes_add_mul (n x k : Nat) : bytes n (x + 256 ^ n * k) = bytes n x := by
  induction n generalizing k with
  | zero => rfl
  | succ n ih =>
    have hpow : 256 ^ (n + 1) * k = 256 ^ n * (256 * k) := by rw [Nat.pow_succ, Nat.mul_assoc]
    have hbyte : UInt8.ofNat (x / 256 ^ n + 256 * k) = UInt8.ofNat (x / 256 ^ n) := by
      apply UInt8.toNat_inj.1
      rw [UInt8.toNat_ofNat', UInt8.toNat_ofNat']
      omega
    rw [bytes, bytes, hpow, Nat.add_mul_div_left _ _ (by positivity), hbyte, ih]

/-- Bytes are those of the number they stand for. -/
theorem bytes_value (bs : List UInt8) : bytes bs.length (value bs) = bs := by
  induction bs with
  | nil => rfl
  | cons b bs ih =>
    have hbyte : UInt8.ofNat b.toNat = b := UInt8.ofNat_toNat
    rw [List.length_cons, bytes, value, Nat.add_mul_div_left _ _ (by positivity), Nat.div_eq_of_lt (value_lt bs), Nat.zero_add,
      hbyte, bytes_add_mul, ih]

/-! ## Shifts, masks and disjunctions of words -/

/-- The bits of the mask of a byte. -/
theorem getLsbD_255 {w i : Nat} (hi : i < w) : (255#w).getLsbD i = decide (i < 8) := by
  rw [BitVec.getLsbD_ofNat, show 255 = 2 ^ 8 - 1 by rfl, Nat.testBit_two_pow_sub_one]
  simp [hi]

/-- A shift by `k` and a mask take out of a word the byte at bit `k`, whatever the shift brings in at the top. -/
theorem shift_mask {w k : Nat} (v : BitVec w) (hk : k + 8 ≤ w) :
    ((v.sshiftRight k &&& 255#w).setWidth 8) = BitVec.ofNat 8 (v.toNat / 2 ^ k) := by
  apply BitVec.eq_of_getLsbD_eq
  intro i hi
  have hw : i < w := by omega
  have hki : k + i < w := by omega
  rw [BitVec.getLsbD_setWidth, BitVec.getLsbD_and, BitVec.getLsbD_sshiftRight, getLsbD_255 hw, BitVec.getLsbD_ofNat,
    Nat.testBit_div_two_pow]
  simp [hi, hki, show ¬w ≤ i by omega, BitVec.getLsbD, Nat.add_comm]

/-- A word shifted left by `k`, or a lower word: their numbers add up. -/
theorem toNat_or_of_lt {w k : Nat} {x y : BitVec w} (hx : x.toNat % 2 ^ k = 0) (hy : y.toNat < 2 ^ k) :
    (x ||| y).toNat = x.toNat + y.toNat := by
  have hshift : x.toNat = (x.toNat / 2 ^ k) <<< k := by
    rw [Nat.shiftLeft_eq, Nat.div_mul_cancel (Nat.dvd_of_mod_eq_zero hx)]
  rw [BitVec.toNat_or, hshift, Nat.shiftLeft_add_eq_or_of_lt hy]

/-- A byte shifted left into a word wide enough for it. -/
theorem toNat_shift_byte {w k : Nat} (b : UInt8) (hk : k + 8 ≤ w) :
    (b.toBitVec.setWidth w <<< k).toNat = b.toNat * 2 ^ k := by
  have hb : b.toNat < 2 ^ 8 := b.toNat_lt
  have hw : 2 ^ 8 * 2 ^ k ≤ 2 ^ w := by
    rw [← Nat.pow_add]
    exact Nat.pow_le_pow_right (by decide) (by omega)
  have hlt : b.toNat * 2 ^ k < 2 ^ w := (Nat.mul_lt_mul_of_pos_right hb (by positivity)).trans_le hw
  have hb' : b.toNat < 2 ^ w := hb.trans_le (Nat.pow_le_pow_right (by decide) (by omega))
  rw [BitVec.toNat_shiftLeft, BitVec.toNat_setWidth, Nat.shiftLeft_eq, UInt8.toNat_toBitVec, Nat.mod_eq_of_lt hb',
    Nat.mod_eq_of_lt hlt]

/-! ## The idioms -/

/-- The byte at bit `k` of a signed word: a shift that brings in the sign, and a mask. -/
def byteAt {w : Nat} (v : BitVec w) (k : Nat) : UInt8 := UInt8.ofBitVec ((v.sshiftRight k &&& 255#w).setWidth 8)

/-- A byte between 0 and 255, shifted left by `k` in a word. -/
def shifted (w : Nat) (b : UInt8) (k : Nat) : BitVec w := b.toBitVec.setWidth w <<< k

theorem byteAt_eq {w k : Nat} (v : BitVec w) (hk : k + 8 ≤ w) : byteAt v k = UInt8.ofNat (v.toNat / 2 ^ k) := by
  rw [byteAt, shift_mask v hk]
  rfl

/-- The four bytes that a 32-bit word is taken apart into are its bytes. -/
theorem bytes_word32 (v : BitVec 32) : bytes 4 v.toNat = [byteAt v 24, byteAt v 16, byteAt v 8, byteAt v 0] := by
  simp only [bytes, byteAt_eq, show (24 : Nat) + 8 ≤ 32 by decide, show (16 : Nat) + 8 ≤ 32 by decide,
    show (8 : Nat) + 8 ≤ 32 by decide, show (0 : Nat) + 8 ≤ 32 by decide]
  rfl

/-- The four shifted bytes of a 32-bit word make the number that the bytes stand for. -/
theorem toNat_word32 (b₀ b₁ b₂ b₃ : UInt8) :
    (shifted 32 b₀ 24 ||| shifted 32 b₁ 16 ||| shifted 32 b₂ 8 ||| shifted 32 b₃ 0).toNat = value [b₀, b₁, b₂, b₃] := by
  have h₀ : (shifted 32 b₀ 24).toNat = b₀.toNat * 2 ^ 24 := toNat_shift_byte b₀ (by decide)
  have h₁ : (shifted 32 b₁ 16).toNat = b₁.toNat * 2 ^ 16 := toNat_shift_byte b₁ (by decide)
  have h₂ : (shifted 32 b₂ 8).toNat = b₂.toNat * 2 ^ 8 := toNat_shift_byte b₂ (by decide)
  have h₃ : (shifted 32 b₃ 0).toNat = b₃.toNat * 2 ^ 0 := toNat_shift_byte b₃ (by decide)
  have l₁ := b₁.toNat_lt
  have l₂ := b₂.toNat_lt
  have l₃ := b₃.toNat_lt
  have e₁ : (shifted 32 b₀ 24 ||| shifted 32 b₁ 16).toNat = _ := toNat_or_of_lt (k := 24) (by omega) (by omega)
  have e₂ : (shifted 32 b₀ 24 ||| shifted 32 b₁ 16 ||| shifted 32 b₂ 8).toNat = _ :=
    toNat_or_of_lt (k := 16) (by omega) (by omega)
  have e₃ : (shifted 32 b₀ 24 ||| shifted 32 b₁ 16 ||| shifted 32 b₂ 8 ||| shifted 32 b₃ 0).toNat = _ :=
    toNat_or_of_lt (k := 8) (by omega) (by omega)
  simp only [value, List.length_cons, List.length_nil]
  omega

/-- A 32-bit word is put together again from the bytes it is taken apart into. -/
theorem word32_byteAt (v : BitVec 32) :
    shifted 32 (byteAt v 24) 24 ||| shifted 32 (byteAt v 16) 16 ||| shifted 32 (byteAt v 8) 8 |||
      shifted 32 (byteAt v 0) 0 = v := by
  apply BitVec.eq_of_toNat_eq
  rw [toNat_word32, ← bytes_word32, value_bytes]
  exact Nat.mod_eq_of_lt v.isLt

/-- The bytes of a word that is put together from four bytes. -/
theorem bytes_shifted (b₀ b₁ b₂ b₃ : UInt8) :
    bytes 4 (shifted 32 b₀ 24 ||| shifted 32 b₁ 16 ||| shifted 32 b₂ 8 ||| shifted 32 b₃ 0).toNat = [b₀, b₁, b₂, b₃] := by
  rw [toNat_word32]
  exact bytes_value [b₀, b₁, b₂, b₃]

/-- The eight bytes that a 64-bit word is taken apart into are its bytes. -/
theorem bytes_word64 (v : BitVec 64) : bytes 8 v.toNat =
    [byteAt v 56, byteAt v 48, byteAt v 40, byteAt v 32, byteAt v 24, byteAt v 16, byteAt v 8, byteAt v 0] := by
  have hbyte : ∀ k, k ≤ 56 → byteAt v k = UInt8.ofNat (v.toNat / 2 ^ k) := fun k hk => byteAt_eq v (by omega)
  simp only [bytes, hbyte 56 (by decide), hbyte 48 (by decide), hbyte 40 (by decide), hbyte 32 (by decide), hbyte 24 (by decide),
    hbyte 16 (by decide), hbyte 8 (by decide), hbyte 0 (by decide)]
  rfl

/-- One more byte of a word that is put together from the top. -/
theorem toNat_or_shifted {x : BitVec 64} {b : UInt8} {k : Nat} (hk : k ≤ 56) (hx : x.toNat % 2 ^ (k + 8) = 0) :
    (x ||| shifted 64 b k).toNat = x.toNat + b.toNat * 2 ^ k := by
  have hbyte : (shifted 64 b k).toNat = b.toNat * 2 ^ k := toNat_shift_byte b (by omega)
  rw [toNat_or_of_lt (k := k + 8) hx, hbyte]
  rw [hbyte, Nat.pow_add, Nat.mul_comm]
  exact Nat.mul_lt_mul_of_pos_left b.toNat_lt (by positivity)

/-- The eight shifted bytes of a 64-bit word make the number that the bytes stand for. -/
theorem toNat_word64 (b₀ b₁ b₂ b₃ b₄ b₅ b₆ b₇ : UInt8) :
    (shifted 64 b₀ 56 ||| shifted 64 b₁ 48 ||| shifted 64 b₂ 40 ||| shifted 64 b₃ 32 ||| shifted 64 b₄ 24 ||| shifted 64 b₅ 16 |||
      shifted 64 b₆ 8 ||| shifted 64 b₇ 0).toNat = value [b₀, b₁, b₂, b₃, b₄, b₅, b₆, b₇] := by
  have e₀ : (shifted 64 b₀ 56).toNat = b₀.toNat * 2 ^ 56 := toNat_shift_byte b₀ (by decide)
  have e₁ := toNat_or_shifted (x := shifted 64 b₀ 56) (b := b₁) (k := 48) (by decide) (by omega)
  have e₂ := toNat_or_shifted (x := shifted 64 b₀ 56 ||| shifted 64 b₁ 48) (b := b₂) (k := 40) (by decide) (by omega)
  have e₃ := toNat_or_shifted (x := shifted 64 b₀ 56 ||| shifted 64 b₁ 48 ||| shifted 64 b₂ 40) (b := b₃) (k := 32) (by decide)
    (by omega)
  have e₄ := toNat_or_shifted (x := shifted 64 b₀ 56 ||| shifted 64 b₁ 48 ||| shifted 64 b₂ 40 ||| shifted 64 b₃ 32) (b := b₄)
    (k := 24) (by decide) (by omega)
  have e₅ := toNat_or_shifted (x := shifted 64 b₀ 56 ||| shifted 64 b₁ 48 ||| shifted 64 b₂ 40 ||| shifted 64 b₃ 32 |||
    shifted 64 b₄ 24) (b := b₅) (k := 16) (by decide) (by omega)
  have e₆ := toNat_or_shifted (x := shifted 64 b₀ 56 ||| shifted 64 b₁ 48 ||| shifted 64 b₂ 40 ||| shifted 64 b₃ 32 |||
    shifted 64 b₄ 24 ||| shifted 64 b₅ 16) (b := b₆) (k := 8) (by decide) (by omega)
  have e₇ := toNat_or_shifted (x := shifted 64 b₀ 56 ||| shifted 64 b₁ 48 ||| shifted 64 b₂ 40 ||| shifted 64 b₃ 32 |||
    shifted 64 b₄ 24 ||| shifted 64 b₅ 16 ||| shifted 64 b₆ 8) (b := b₇) (k := 0) (by decide) (by omega)
  simp only [value, List.length_cons, List.length_nil]
  omega

/-- A 64-bit word is put together again from the bytes it is taken apart into. -/
theorem word64_byteAt (v : BitVec 64) :
    shifted 64 (byteAt v 56) 56 ||| shifted 64 (byteAt v 48) 48 ||| shifted 64 (byteAt v 40) 40 ||| shifted 64 (byteAt v 32) 32 |||
      shifted 64 (byteAt v 24) 24 ||| shifted 64 (byteAt v 16) 16 ||| shifted 64 (byteAt v 8) 8 |||
      shifted 64 (byteAt v 0) 0 = v := by
  apply BitVec.eq_of_toNat_eq
  rw [toNat_word64, ← bytes_word64, value_bytes]
  exact Nat.mod_eq_of_lt v.isLt

end BigEndian
