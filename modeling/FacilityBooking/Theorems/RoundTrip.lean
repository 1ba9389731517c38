import FacilityBooking.Lemmas.CppCodec
import FacilityBooking.Lemmas.JavaCodec

/-!
# Client and server agree on the wire

What the C++ serializer writes the Java deserializer reads, and what the Java serializer writes the C++ deserializer reads, for
every type, every ID and every data.
-/

namespace FacilityBooking

open Cpp (nullIfEmpty)

/-- The encoding of a message whose data is the bytes of a text is the frame of the Java message, empty data being null. -/
theorem serialize_eq_frame (requestType requestID : BitVec 32) (text : Text) :
    Cpp.JavaSerializer.serialize (some ⟨requestType, requestID, getBytes text⟩) =
      (⟨requestType, requestID, if text = [] then none else some text⟩ : RequestMessage).frame := by
  rw [Cpp.serialize_eq, RequestMessage.frame]
  cases text with
  | nil => rfl
  | cons c text =>
    have hbytes : getBytes (c :: text) ≠ [] := by
      rw [getBytes, List.flatMap_cons]
      exact fun h => String.utf8EncodeChar_ne_nil (List.append_eq_nil_iff.1 h).1
    simp only [nullIfEmpty, if_neg hbytes, if_neg (List.cons_ne_nil c text), Option.map_some]

/-- The data of a message is shorter than its frame. -/
theorem length_data_lt_frame {m : RequestMessage} {text : Text} (h : m.data = some text) :
    (getBytes text).length < m.frame.length := by
  rw [RequestMessage.frame, h]
  exact Frame.length_data_lt

/-- The wire format round-trips in both directions. The bytes a Java method is given are a Java array, so there are fewer than
2³¹; empty C++ data is null Java data, and null Java data is empty C++ data. -/
theorem wire_roundTrip (Γ : Jvm) :
    (∀ (requestType requestID : BitVec 32) (text : Text),
      (Cpp.JavaSerializer.serialize (some ⟨requestType, requestID, getBytes text⟩)).length < 2 ^ 31 →
      deserializeMessage Γ (Cpp.JavaSerializer.serialize (some ⟨requestType, requestID, getBytes text⟩)) =
        .ok ⟨requestType, requestID, if text = [] then none else some text⟩) ∧
    ∀ m : RequestMessage, m.frame.length ≤ Serializer.capacity →
      serializeMessage Γ m = .ok m.frame ∧
      Cpp.JavaDeserializer.deserialize m.frame = .ok (some ⟨m.requestType, m.requestID, getBytes (m.data.getD [])⟩) := by
  constructor
  · intro requestType requestID text hlength
    rw [serialize_eq_frame] at hlength ⊢
    exact deserializeMessage_frame Γ _ fun t ht => (length_data_lt_frame ht).trans hlength
  · intro m hfits
    constructor
    · rcases serializeMessage_cases Γ m with ⟨_, hok⟩ | ⟨hover, _⟩
      · exact hok
      · exact absurd hfits (Nat.not_le_of_lt hover)
    · have hdata : (m.data.map getBytes).getD [] = getBytes (m.data.getD []) := by cases m.data <;> rfl
      rw [RequestMessage.frame, ← hdata]
      refine Cpp.deserialize_frame ?_
      intro bs hbs
      obtain ⟨text, htext, rfl⟩ := Option.map_eq_some_iff.1 hbs
      have hcapacity : Serializer.capacity < 2 ^ 31 := by decide
      exact ((length_data_lt_frame htext).trans_le hfits).trans hcapacity

/-- An echo of a text that is not ASCII, and a notification without data. -/
theorem wire_roundTrip_echo :
    deserializeMessage openJdk (Cpp.JavaSerializer.serialize (some ⟨5, -7, getBytes "Größe,€".toList⟩)) =
        .ok ⟨5, -7, some "Größe,€".toList⟩ ∧
      Cpp.JavaDeserializer.deserialize (⟨5, -7, none⟩ : RequestMessage).frame = .ok (some ⟨5, -7, []⟩) :=
  ⟨(wire_roundTrip openJdk).1 5 (-7) "Größe,€".toList (by decide +kernel),
    ((wire_roundTrip openJdk).2 ⟨5, -7, none⟩ (by decide +kernel)).2⟩

end FacilityBooking
