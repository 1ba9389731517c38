import FacilityBooking.Lemmas.CppCodec
import FacilityBooking.Lemmas.JavaCodec
import FacilityBooking.Lib.Bits

/-!
# What the parity check detects

Both languages compute the number of one bits modulo two, and compare all eight bits of the last byte with it. A corruption passes
when it flips an even number of bits of the payload and leaves the parity byte, or an odd number and the lowest bit of that byte.
-/

namespace FacilityBooking

open Bits

/-! ## The parity is the number of one bits -/

/-- What the Java loop makes of a byte. -/
theorem Parity.rounds_eq_popcount (b : BitVec 8) : UInt8.ofBitVec (rounds 8 b 0) = UInt8.ofNat (popcount b % 2) := by
  revert b
  decide +kernel

/-- The exclusive or of two parities. -/
theorem xor_ofNat_mod_two (m n : Nat) : UInt8.ofNat (m % 2) ^^^ UInt8.ofNat (n % 2) = UInt8.ofNat ((m + n) % 2) := by
  rw [Nat.add_mod]
  rcases Nat.mod_two_eq_zero_or_one m with hm | hm <;> rcases Nat.mod_two_eq_zero_or_one n with hn | hn <;> rw [hm, hn] <;> rfl

theorem Parity.calculateEvenParityBit_eq (bs : Bytes) : calculateEvenParityBit bs = UInt8.ofNat (ones bs % 2) := by
  suffices h : ∀ parityBit : BitVec 8, UInt8.ofBitVec (bs.foldl (fun p b => rounds 8 b.toBitVec p) parityBit) =
      UInt8.ofBitVec parityBit ^^^ UInt8.ofNat (ones bs % 2) by
    have hzero : UInt8.ofBitVec (0 : BitVec 8) = 0 := rfl
    rw [calculateEvenParityBit, h, hzero, UInt8.zero_xor]
  induction bs with
  | nil =>
    intro parityBit
    exact (UInt8.xor_zero).symm
  | cons b bs ih =>
    intro parityBit
    rw [List.foldl_cons, ih, rounds_eq_xor, UInt8.ofBitVec_xor, rounds_eq_popcount, UInt8.xor_assoc, xor_ofNat_mod_two, ones_cons]

theorem Parity.toNat_calculateEvenParityBit (bs : Bytes) : (calculateEvenParityBit bs).toNat = ones bs % 2 := by
  rw [calculateEvenParityBit_eq]
  exact UInt8.toNat_ofNat_of_lt' ((Nat.mod_lt _ Nat.two_pos).trans (by decide))

/-- The parity after a change of some bits. -/
theorem Parity.calculateEvenParityBit_of_flipped {payload payload' : Bytes} (h : payload.length = payload'.length) :
    calculateEvenParityBit payload' =
      calculateEvenParityBit payload ^^^ UInt8.ofNat (flipped payload payload' % 2) := by
  rw [calculateEvenParityBit_eq, calculateEvenParityBit_eq, xor_ofNat_mod_two, ones_mod_two h]

/-! ## Frames and receivers -/

/-- A frame that one of the two serializers makes, of whatever it is given. -/
def IsFrame (frame : Bytes) : Prop :=
  (∃ Γ heap obj, Serializer.serialize Γ heap obj = .ok frame) ∨ ∃ obj, Cpp.JavaSerializer.serialize obj = frame

/-- What the Java deserializer does with the bytes before the parity once the check has passed. -/
def Serializer.decode (Γ : Jvm) (actualData : Bytes) : Java (Value × List Obj) := do
  let (value, s) ← deserializeObject Γ (actualData.length + 1) ⟨actualData, [], []⟩
  return (value, s.heap)

/-- What the C++ deserializer does with all the bytes once the check has passed. -/
def Cpp.JavaDeserializer.decode (data : Bytes) : Cpp.Result (Option Cpp.RequestMessage) := do
  let (obj, _) ← deserializeObject data
  return obj

/-- The corruptions that pass: an even number of bits of the payload are flipped and the parity byte is not changed, or an odd
number and of the parity byte exactly the lowest bit. -/
def Undetected (frame frame' : Bytes) : Prop :=
  flipped frame.dropLast frame'.dropLast % 2 = 0 ∧ frame'.getLast? = frame.getLast? ∨
    flipped frame.dropLast frame'.dropLast % 2 = 1 ∧ frame'.getLast? = frame.getLast?.map (fun parity => parity ^^^ 1)

instance (frame frame' : Bytes) : Decidable (Undetected frame frame') := inferInstanceAs (Decidable (_ ∨ _))

/-- What is written to a buffer is added to it. -/
theorem ByteBuffer.written_of_writeByte {value : UInt8} {buffer buffer' : ByteBuffer}
    (h : writeByte value buffer = .ok ((), buffer')) : buffer'.written = buffer.written ++ [value] := by
  rcases writeByte_writes value buffer with ⟨hfits, hok⟩ | ⟨_, x, herr⟩
  · cases hok.symm.trans h
    rfl
  · cases herr.symm.trans h

/-- A frame ends in the parity of what stands before it. -/
theorem IsFrame.eq_withParity {frame : Bytes} (h : IsFrame frame) : ∃ payload, frame = Frame.withParity payload := by
  rcases h with ⟨Γ, heap, obj, hok⟩ | ⟨obj, rfl⟩
  · unfold Serializer.serialize at hok
    cases hobj : Serializer.serializeObject Γ heap (heap.length + 1) obj ⟨⟨Serializer.capacity, [], Nat.zero_le _⟩, []⟩ with
    | error x =>
      rw [hobj] at hok
      cases hok
    | ok p =>
      obtain ⟨_, s⟩ := p
      rw [hobj] at hok
      cases hlast : ByteBuffer.writeByte (Parity.calculateEvenParityBit s.buffer.written) s.buffer with
      | error x =>
        simp only [bind, Except.bind, hlast] at hok
        cases hok
      | ok q =>
        obtain ⟨_, buffer⟩ := q
        simp only [bind, Except.bind, hlast, pure, Except.pure] at hok
        cases hok
        exact ⟨s.buffer.written, ByteBuffer.written_of_writeByte hlast⟩
  · refine ⟨Cpp.JavaSerializer.serializeObject obj [], ?_⟩
    rw [Cpp.JavaSerializer.serialize, Parity.calculateEvenParityBit_eq_cpp]
    rfl

/-- The check of what is received in place of a frame. -/
theorem check_iff_undetected {payload payload' : Bytes} (h : payload.length = payload'.length) (parity' : UInt8) :
    Parity.calculateEvenParityBit payload' = parity' ↔ Undetected (Frame.withParity payload) (payload' ++ [parity']) := by
  have hone : UInt8.ofNat 1 = 1 := rfl
  simp only [Undetected, Frame.withParity, List.dropLast_concat, List.getLast?_concat, Option.some.injEq, Option.map_some]
  rw [Parity.calculateEvenParityBit_of_flipped h, eq_comm]
  rcases Nat.mod_two_eq_zero_or_one (flipped payload payload') with hflips | hflips
  · have hzero : UInt8.ofNat 0 = 0 := rfl
    simp only [hflips, hzero, UInt8.xor_zero, true_and, Nat.zero_ne_one, false_and, or_false]
  · simp only [hflips, hone, Nat.one_ne_zero, false_and, true_and, false_or]

/-- An odd number of flipped bits of the whole frame is detected. -/
theorem flipped_of_undetected {payload payload' : Bytes} (h : payload.length = payload'.length) {parity' : UInt8}
    (hpass : Undetected (Frame.withParity payload) (payload' ++ [parity'])) :
    flipped (Frame.withParity payload) (payload' ++ [parity']) % 2 = 0 := by
  have hsplit := flipped_append h [Parity.calculateEvenParityBit payload] [parity']
  have hlast : flipped [Parity.calculateEvenParityBit payload] [parity'] =
      popcount (Parity.calculateEvenParityBit payload ^^^ parity').toBitVec := rfl
  simp only [Undetected, Frame.withParity, List.dropLast_concat, List.getLast?_concat, Option.some.injEq, Option.map_some] at hpass
  rw [Frame.withParity, hsplit, hlast]
  rcases hpass with ⟨heven, hparity⟩ | ⟨hodd, hparity⟩
  · rw [hparity, UInt8.xor_self, Nat.add_mod, heven]
    rfl
  · have hflip : Parity.calculateEvenParityBit payload ^^^ (Parity.calculateEvenParityBit payload ^^^ 1) = 1 := by
      rw [← UInt8.xor_assoc, UInt8.xor_self, UInt8.zero_xor]
    rw [hparity, hflip, Nat.add_mod, hodd]
    decide

/-- Both parities are the number of one bits modulo two. In place of a frame that either serializer makes, let bytes of the same
length be received: both receivers decode them exactly when they differ from the frame in an even number of bits of the payload and
not in the parity byte, or in an odd number and in exactly the lowest bit of the parity byte, and otherwise reject them before
decoding; in particular when they differ in an odd number of bits. -/
theorem parity_check_exact (frame frame' : Bytes) (hframe : IsFrame frame) (hlength : frame'.length = frame.length) :
    (∀ bs : Bytes, (Parity.calculateEvenParityBit bs).toNat = ones bs % 2 ∧
      (Cpp.Parity.calculateEvenParityBit bs).toNat = ones bs % 2) ∧
    (∀ Γ, Serializer.deserialize Γ frame' = if Undetected frame frame' then Serializer.decode Γ frame'.dropLast
      else .error (.checked "Parity check failed: data corruption detected".toList)) ∧
    (Cpp.JavaDeserializer.deserialize frame' = if Undetected frame frame' then Cpp.JavaDeserializer.decode frame'
      else .error (.runtimeError (Cpp.literal "Message parity check failed during deserialization"))) ∧
    (flipped frame frame' % 2 = 1 → ¬Undetected frame frame') := by
  obtain ⟨payload, rfl⟩ := hframe.eq_withParity
  have hne : frame' ≠ [] := by
    rintro rfl
    rw [Frame.withParity, List.length_append] at hlength
    cases hlength
  obtain ⟨payload', parity', rfl⟩ : ∃ payload' parity', frame' = payload' ++ [parity'] :=
    ⟨frame'.dropLast, frame'.getLast hne, (List.dropLast_append_getLast hne).symm⟩
  have hpayload : payload.length = payload'.length := by
    rw [Frame.withParity, List.length_append, List.length_append] at hlength
    exact (Nat.add_right_cancel hlength).symm
  have hcheck := check_iff_undetected hpayload parity'
  refine ⟨fun bs => ⟨Parity.toNat_calculateEvenParityBit bs, ?_⟩, fun Γ => ?_, ?_, fun hodd hpass => ?_⟩
  · rw [Parity.calculateEvenParityBit_eq_cpp, Parity.toNat_calculateEvenParityBit]
  · simp only [Serializer.deserialize, List.getLast?_concat, List.dropLast_concat, ne_eq, hcheck, ite_not]
    rfl
  · simp only [Cpp.JavaDeserializer.deserialize, List.getLast?_concat, List.dropLast_concat, Cpp.Parity.verifyEvenParity,
      decide_eq_true_eq, Parity.calculateEvenParityBit_eq_cpp, hcheck]
    rfl
  · rw [flipped_of_undetected hpayload hpass] at hodd
    cases hodd

/-- An echo of one letter, and the same frame with one bit of the letter flipped. -/
def echoFrame : Bytes := RequestMessage.frame ⟨5, 0, some "a".toList⟩
def echoFrame' : Bytes := echoFrame.set 114 0x63

theorem parity_check_exact_echo : ¬Undetected echoFrame echoFrame' := by
  have hfits : ¬Serializer.capacity < echoFrame.length := by decide +kernel
  have hframe : IsFrame echoFrame := by
    rcases serializeMessage_cases openJdk ⟨5, 0, some "a".toList⟩ with ⟨_, hok⟩ | ⟨hlong, _⟩
    · exact Or.inl ⟨_, _, _, hok⟩
    · exact absurd hlong hfits
  exact (parity_check_exact echoFrame echoFrame' hframe (List.length_set ..)).2.2.2 (by decide +kernel)

end FacilityBooking
