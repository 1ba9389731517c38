import Mathlib.Data.List.Basic

/-!
# Counting bits

The number of one bits of a bit vector and of a list of bytes, and the number of bits in which two lists of bytes differ: modulo two
both are additive, so that what a list's parity is after a change depends on the number of bits changed.
-/

namespace Bits

/-- Modulo two, the number of places where exactly one of two conditions holds is the sum of the two numbers. -/
theorem countP_xor_mod_two {α : Type*} (p q : α → Bool) (l : List α) :
    l.countP (fun i => p i ^^ q i) % 2 = (l.countP p + l.countP q) % 2 := by
  induction l with
  | nil => rfl
  | cons i l ih =>
    simp only [List.countP_cons]
    cases p i <;> cases q i <;> simp <;> omega

/-- The number of one bits. -/
def popcount {w : Nat} (x : BitVec w) : Nat := (List.range w).countP (fun i => x.getLsbD i)

theorem popcount_xor_mod_two {w : Nat} (x y : BitVec w) : popcount (x ^^^ y) % 2 = (popcount x + popcount y) % 2 := by
  rw [popcount, popcount, popcount, ← countP_xor_mod_two]
  simp only [BitVec.getLsbD_xor]

/-- The number of one bits of a list of bytes. -/
def ones (bs : List UInt8) : Nat := bs.foldr (fun b n => popcount b.toBitVec + n) 0

@[simp] theorem ones_nil : ones [] = 0 := rfl

@[simp] theorem ones_cons (b : UInt8) (bs : List UInt8) : ones (b :: bs) = popcount b.toBitVec + ones bs := rfl

theorem ones_append (bs cs : List UInt8) : ones (bs ++ cs) = ones bs + ones cs := by
  induction bs with
  | nil => rw [List.nil_append, ones_nil, Nat.zero_add]
  | cons b bs ih => rw [List.cons_append, ones_cons, ones_cons, ih, Nat.add_assoc]

/-- The number of bits in which two lists of bytes differ. -/
def flipped (bs bs' : List UInt8) : Nat := ones (List.zipWith (fun b b' => b ^^^ b') bs bs')

theorem flipped_append {bs bs' : List UInt8} (h : bs.length = bs'.length) (cs cs' : List UInt8) :
    flipped (bs ++ cs) (bs' ++ cs') = flipped bs bs' + flipped cs cs' := by
  rw [flipped, List.zipWith_append h, ones_append]
  rfl

/-- Modulo two, the bits that differ are the difference. -/
theorem ones_mod_two {bs bs' : List UInt8} (h : bs.length = bs'.length) : ones bs' % 2 = (ones bs + flipped bs bs') % 2 := by
  induction bs generalizing bs' with
  | nil =>
    rw [List.length_nil, eq_comm, List.length_eq_zero_iff] at h
    rw [h]
    rfl
  | cons b bs ih =>
    cases bs' with
    | nil => cases h
    | cons b' bs' =>
      have hbyte := popcount_xor_mod_two b.toBitVec b'.toBitVec
      have hrest := ih (Nat.succ.inj h)
      have hcons : flipped (b :: bs) (b' :: bs') = popcount (b.toBitVec ^^^ b'.toBitVec) + flipped bs bs' := rfl
      rw [ones_cons, ones_cons, hcons]
      omega

end Bits
