import FacilityBooking.Lemmas.CppCodec
import FacilityBooking.Lemmas.JavaCodec

/-!
# Whether the two decoders agree

The C++ decoder reads from all the bytes it is given, the parity byte included, and takes for a string only what follows the
marker one; the Java decoder reads from the bytes before the parity, and takes for a string what follows any marker but zero.
They agree when the data lies before the parity byte and its marker is zero, or one, or another one before a string that reads
as the empty one.
-/

namespace FacilityBooking

open Cpp Stream

/-- The Java decoder reads the same message, null and empty data being the same, and the C++ decoder reads it from the bytes before
the parity byte alone. -/
def DecodersAgree (Γ : Jvm) (b : Bytes) (m : Cpp.RequestMessage) : Prop :=
  (∃ m', deserializeMessage Γ b = .ok m' ∧ m'.requestType = m.requestType ∧ m'.requestID = m.requestID ∧
    getBytes (m'.data.getD []) = m.data) ∧
  ∃ left, JavaDeserializer.deserializeObject b.dropLast = .ok (some m, left)

/-- Where the data of a message starts. -/
def dataOffset : Nat := 109

/-- Before the last byte, where the data of a message starts, there is the marker zero, or the marker one and a string, or another
marker and a string that reads as the empty one. -/
def DataBeforeParity (Γ : Jvm) (b : Bytes) : Prop :=
  ∃ marker rest, b.dropLast.drop dataOffset = marker :: rest ∧
    (marker = 0 ∨ ∃ bs left, rest = Frame.string bs ++ left ∧ bs.length < 2 ^ 31 ∧ (marker = 1 ∨ Γ.newString bs = []))

/-- What the C++ decoder returns begins as a message does, and the parity is right. -/
theorem deserialize_sound {b : Bytes} {m : Cpp.RequestMessage} (h : JavaDeserializer.deserialize b = .ok (some m)) :
    (∃ payload, b = Frame.withParity payload) ∧ ∃ left, JavaDeserializer.deserializeObject b = .ok (some m, left) := by
  refine ⟨?_, deserializeObject_of_deserialize h⟩
  unfold JavaDeserializer.deserialize at h
  cases hlast : b.getLast? with
  | none =>
    rw [hlast] at h
    cases h
  | some receivedParityBit =>
    rw [hlast] at h
    dsimp only at h
    split at h
    · rename_i hparity
      rw [Cpp.Parity.verifyEvenParity, decide_eq_true_eq, FacilityBooking.Parity.calculateEvenParityBit_eq_cpp] at hparity
      refine ⟨b.dropLast, ?_⟩
      rw [Frame.withParity, hparity]
      exact (List.dropLast_append_getLast? receivedParityBit hlast).symm
    · cases h

/-- A string is told from what it starts. -/
theorem string_inj {bs bs' left left' : Bytes} (hbs : bs.length < 2 ^ 31) (hbs' : bs'.length < 2 ^ 31)
    (h : Frame.string bs ++ left = Frame.string bs' ++ left') : bs = bs' := by
  have hread := Cpp.ByteReader.readString_reads hbs left
  rw [h, Cpp.ByteReader.readString_reads hbs' left'] at hread
  exact (Prod.mk.inj (Except.ok.inj hread)).1.symm

/-- A message that the C++ decoder returns: its header, the data it has read, and what there is of the data before the parity. -/
theorem deserialize_layout {b : Bytes} {m : Cpp.RequestMessage} (h : JavaDeserializer.deserialize b = .ok (some m)) :
    ∃ nullMarker referenceMarker tail parity left, nullMarker ≠ 0 ∧ referenceMarker ≠ 1 ∧
      b = Frame.withParity (Frame.header nullMarker referenceMarker m.requestType m.requestID ++ tail) ∧
      ReadsData (tail ++ [parity]) m.data left := by
  obtain ⟨⟨payload, rfl⟩, left, hrun⟩ := deserialize_sound h
  obtain ⟨nullMarker, referenceMarker, tail, hnull, href, hsplit, hdata⟩ := deserializeObject_sound hrun
  obtain ⟨marker, rest, rfl, hrest⟩ := hdata
  obtain ⟨tail', parity, hlast⟩ : ∃ tail' parity, marker :: rest = tail' ++ [parity] :=
    ⟨_, _, (List.dropLast_append_getLast (List.cons_ne_nil marker rest)).symm⟩
  have hpayload : payload = Frame.header nullMarker referenceMarker m.requestType m.requestID ++ tail' := by
    rw [Frame.withParity, hlast, ← List.append_assoc] at hsplit
    exact (List.append_inj' hsplit rfl).1
  refine ⟨nullMarker, referenceMarker, tail', parity, left, hnull, href, by rw [hpayload], marker, rest, hlast.symm, hrest⟩

section

variable {Γ : Jvm} {nullMarker referenceMarker : UInt8} {m : Cpp.RequestMessage} {tail : Bytes}

/-- What stands before the parity, where the data starts. -/
theorem dataBeforeParity_iff :
    DataBeforeParity Γ (Frame.withParity (Frame.header nullMarker referenceMarker m.requestType m.requestID ++ tail)) ↔
      ∃ marker rest, tail = marker :: rest ∧ (marker = 0 ∨
        ∃ bs left, rest = Frame.string bs ++ left ∧ bs.length < 2 ^ 31 ∧ (marker = 1 ∨ Γ.newString bs = [])) := by
  have hinit : (Frame.withParity (Frame.header nullMarker referenceMarker m.requestType m.requestID ++ tail)).dropLast =
      Frame.header nullMarker referenceMarker m.requestType m.requestID ++ tail := List.dropLast_concat
  have hlength := Frame.length_header nullMarker referenceMarker m.requestType m.requestID
  rw [DataBeforeParity, hinit, dataOffset, ← hlength, List.drop_left]

/-- Both decoders agree when each reads the data from what stands before the parity. -/
theorem decodersAgree_iff_tail (hnull : nullMarker ≠ 0) (href : referenceMarker ≠ 1) :
    DecodersAgree Γ (Frame.withParity (Frame.header nullMarker referenceMarker m.requestType m.requestID ++ tail)) m ↔
      (∃ d left, Serializer.readText Γ tail = .ok (d, left) ∧ getBytes (d.getD []) = m.data) ∧
        ∃ left, ReadsData tail m.data left := by
  have hinit : (Frame.withParity (Frame.header nullMarker referenceMarker m.requestType m.requestID ++ tail)).dropLast =
      Frame.header nullMarker referenceMarker m.requestType m.requestID ++ tail := List.dropLast_concat
  rw [DecodersAgree, hinit, deserializeMessage_header Γ hnull href]
  refine and_congr ?_ (exists_congr fun left => ?_)
  · cases Serializer.readText Γ tail with
    | error x => exact iff_of_false (by rintro ⟨_, h, _⟩; cases h) (by rintro ⟨_, _, h, _⟩; cases h)
    | ok p =>
      constructor
      · rintro ⟨m', hm', _, _, hd⟩
        cases hm'
        exact ⟨p.1, p.2, rfl, hd⟩
      · rintro ⟨d, left, hp, hd⟩
        cases hp
        exact ⟨_, rfl, rfl, rfl, hd⟩
  · constructor
    · intro hrun
      obtain ⟨n, r, tail', _, _, hsplit, hdata⟩ := deserializeObject_sound hrun
      have hlength : (Frame.header nullMarker referenceMarker m.requestType m.requestID).length =
          (Frame.header n r m.requestType m.requestID).length := by rw [Frame.length_header, Frame.length_header]
      rw [(List.append_inj hsplit hlength).2]
      exact hdata
    · exact deserializeObject_header hnull href m.requestType m.requestID

end

/-- Of bytes that the C++ decoder reads a message with valid data from, the Java decoder reads the same message, and the message
does not depend on the parity byte, exactly when the data stands before that byte in a form that both know. -/
theorem decodersAgree_iff (Γ : Jvm) (b : Bytes) (m : Cpp.RequestMessage) (t : Text)
    (h : JavaDeserializer.deserialize b = .ok (some m)) (ht : m.data = getBytes t) :
    DecodersAgree Γ b m ↔ DataBeforeParity Γ b := by
  obtain ⟨nullMarker, referenceMarker, tail, parity, left, hnull, href, rfl, hread⟩ := deserialize_layout h
  rw [decodersAgree_iff_tail hnull href, dataBeforeParity_iff]
  constructor
  · rintro ⟨⟨d, left₁, htext, hd⟩, left₂, marker, rest, rfl, hdata⟩
    refine ⟨marker, rest, rfl, ?_⟩
    rcases hdata with ⟨hone, hrest, hlength⟩ | ⟨_, hempty, _⟩
    · exact Or.inr ⟨m.data, left₂, hrest, hlength, Or.inl hone⟩
    · by_cases hmarker : marker = 0
      · exact Or.inl hmarker
      · rw [Serializer.readText_of_ne_zero hmarker] at htext
        cases hs : FacilityBooking.ByteReader.readString Γ rest with
        | error x =>
          rw [hs] at htext
          cases htext
        | ok p =>
          rw [hs] at htext
          cases htext
          obtain ⟨bs, hbs, hlength, hp⟩ := FacilityBooking.ByteReader.readString_sound hs
          have hnil : p.1 = [] := getBytes_injective (hd.trans hempty)
          exact Or.inr ⟨bs, p.2, hbs, hlength, Or.inr (hp.symm.trans hnil)⟩
  · rintro ⟨marker, rest, rfl, hdata⟩
    obtain ⟨marker', rest', hcons, hread⟩ := hread
    rw [List.cons_append] at hcons
    obtain ⟨rfl, rfl⟩ := List.cons.inj hcons
    by_cases hzero : marker = 0
    · have hempty : m.data = [] := by
        rcases hread with ⟨hone, _⟩ | ⟨_, hempty, _⟩
        · rw [hzero] at hone
          exact absurd hone (by decide)
        · exact hempty
      subst hzero
      exact ⟨⟨none, rest, rfl, hempty.symm⟩, rest, 0, rest, rfl, Or.inr ⟨by decide, hempty, rfl⟩⟩
    · obtain ⟨bs, left', rfl, hlength, hkind⟩ := hdata.resolve_left hzero
      have htext : Serializer.readText Γ (marker :: (Frame.string bs ++ left')) = .ok (some (Γ.newString bs), left') := by
        rw [Serializer.readText_of_ne_zero hzero, FacilityBooking.ByteReader.readString_reads Γ hlength left']
        rfl
      rcases hread with ⟨hone, hrest, hlength'⟩ | ⟨hone, hempty, _⟩
      · rw [List.append_assoc] at hrest
        obtain rfl : bs = m.data := string_inj hlength hlength' hrest
        refine ⟨⟨_, left', htext, ?_⟩, left', marker, _, rfl, Or.inl ⟨hone, rfl, hlength⟩⟩
        rw [ht, Γ.newString_getBytes]
        rfl
      · have hnil : Γ.newString bs = [] := hkind.resolve_left hone
        refine ⟨⟨_, left', htext, ?_⟩, _, marker, _, rfl, Or.inr ⟨hone, hempty, rfl⟩⟩
        rw [hnil, hempty]
        rfl

/-- A message cut off so that its parity byte stands in the place of the only character of its data. -/
def cutOff : Bytes := Frame.withParity (Frame.header 1 0 0 0 ++ [1, 0, 0, 0, 1])

theorem deserialize_cutOff : JavaDeserializer.deserialize cutOff = .ok (some ⟨0, 0, getBytes [Char.ofNat 0]⟩) := by
  have hparity : FacilityBooking.Parity.calculateEvenParityBit (Frame.header 1 0 0 0 ++ [1, 0, 0, 0, 1]) = 0 := by
    decide +kernel
  have hdata : ReadsData [1, 0, 0, 0, 1, 0] (getBytes [Char.ofNat 0]) [] := ⟨1, _, rfl, Or.inl ⟨rfl, by decide, by decide⟩⟩
  have hrun := deserializeObject_header (by decide : (1 : UInt8) ≠ 0) (by decide : (0 : UInt8) ≠ 1) 0 0 hdata
  rw [cutOff, deserialize_withParity, Frame.withParity, hparity, List.append_assoc]
  exact congrArg (Except.map Prod.fst) hrun

theorem decodersAgree_iff_cutOff :
    DecodersAgree openJdk cutOff ⟨0, 0, getBytes [Char.ofNat 0]⟩ ↔ DataBeforeParity openJdk cutOff :=
  decodersAgree_iff openJdk cutOff ⟨0, 0, getBytes [Char.ofNat 0]⟩ [Char.ofNat 0] deserialize_cutOff rfl

/-- The C++ decoder takes the parity byte for the character, and the Java decoder fails. -/
theorem not_decodersAgree :
    ¬∀ (b : Bytes) (m : Cpp.RequestMessage) (t : Text), JavaDeserializer.deserialize b = .ok (some m) → m.data = getBytes t →
      DecodersAgree openJdk b m := by
  intro h
  have hagree := h cutOff ⟨0, 0, getBytes [Char.ofNat 0]⟩ [Char.ofNat 0] deserialize_cutOff rfl
  have htail := @decodersAgree_iff_tail openJdk 1 0 ⟨0, 0, getBytes [Char.ofNat 0]⟩ [1, 0, 0, 0, 1] (by decide) (by decide)
  obtain ⟨⟨d, left, htext, _⟩, _⟩ := htail.1 hagree
  cases htext

end FacilityBooking
