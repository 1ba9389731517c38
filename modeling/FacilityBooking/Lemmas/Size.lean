import FacilityBooking.Lemmas.JavaCodec
import FacilityBooking.Server.Server

/-!
# The sizes of texts and frames

How many bytes a text has on the wire, what the texts of responses add to what they quote, and when a response fits the buffer it
is serialized into.
-/

namespace FacilityBooking

/-- How many bytes a text has. -/
def size (t : Text) : Nat := (getBytes t).length

/-- Texts put together have their bytes together. -/
theorem size_append (t t' : Text) : size (t ++ t') = size t + size t' := by
  rw [size, getBytes, List.flatMap_append, List.length_append]
  rfl

theorem size_cons (c : Char) (t : Text) : size (c :: t) = size [c] + size t := size_append [c] t

/-- The marks of a response are ASCII, of one byte each. -/
theorem size_colon : size [':'] = 1 := rfl

theorem size_comma : size [','] = 1 := rfl

theorem size_newline : size ['\n'] = 1 := rfl

/-- A text made for each element of a list. -/
theorem size_flatMap {α : Type*} (l : List α) (f : α → Text) : size (l.flatMap f) = (l.map (fun a => size (f a))).sum := by
  induction l with
  | nil => rfl
  | cons a l ih => rw [List.flatMap_cons, size_append, ih, List.map_cons, List.sum_cons]

theorem size_replicate (n : Nat) (c : Char) : size (List.replicate n c) = n * size [c] := by
  induction n with
  | zero => rw [Nat.zero_mul]; rfl
  | succ n ih => rw [List.replicate_succ, size_cons, ih, Nat.succ_mul, Nat.add_comm]

/-- A line of a response: its name, a colon and its value. -/
theorem size_line (name : String) (value : Text) : size (line name value) = size name.toList + 1 + size value := by
  rw [line, size_append, size_cons, size_colon, Nat.add_assoc]

theorem size_lines_singleton (l : Text) : size (lines [l]) = size l := by rw [lines, List.intercalate_singleton]

/-- Lines are put together with a newline between them. -/
theorem size_lines_cons (l l' : Text) (ls : List Text) : size (lines (l :: l' :: ls)) = size l + 1 + size (lines (l' :: ls)) := by
  rw [lines, List.intercalate_cons_of_ne_nil (List.cons_ne_nil _ _), size_append, size_append, size_newline, lines]

/-- The first line of a success has 15 bytes with its newline. -/
theorem size_success (text : Text) : size (orNull (success text)) = 15 + size text := size_append "status:SUCCESS\n".toList text

/-- What stands before the message of an error has 21. -/
theorem size_error (message : Text) : size (orNull (error message)) = 21 + size message :=
  size_append "status:ERROR\nmessage:".toList message

/-- A response has room for so many bytes of data. -/
def dataRoom : Nat := 909

/-- A frame has so many bytes more than its data. -/
theorem RequestMessage.length_frame (m : RequestMessage) :
    m.frame.length = match m.data with
      | none => 111
      | some t => 115 + size t := by
  have hclass : Frame.classInfo.length = 99 := rfl
  unfold RequestMessage.frame Frame.withParity Frame.payload
  cases m.data with
  | none => simp [hclass, Frame.data, Frame.int]
  | some t =>
    simp only [hclass, Frame.data, Frame.string, Frame.int, size, List.length_append, List.length_cons, List.length_nil,
      BigEndian.length_bytes, Option.map_some]
    omega

/-- A response is serialized exactly when its data fits the room. -/
theorem serializeMessage_ok_iff {Γ : Jvm} {r : RequestMessage} :
    (∃ bytes, serializeMessage Γ r = .ok bytes) ↔ ∀ t, r.data = some t → size t ≤ dataRoom := by
  have hlength := r.length_frame
  have hfits : r.frame.length ≤ Serializer.capacity ↔ ∀ t, r.data = some t → size t ≤ dataRoom := by
    rw [hlength, Serializer.capacity, dataRoom]
    cases r.data with
    | none => simp
    | some t =>
      simp only [Option.some.injEq, forall_eq']
      omega
  rw [← hfits]
  rcases serializeMessage_cases Γ r with ⟨h, hok⟩ | ⟨h, x, herr⟩
  · exact iff_of_true ⟨_, hok⟩ h
  · refine iff_of_false ?_ (Nat.not_le.2 h)
    rintro ⟨bytes, hok⟩
    rw [herr] at hok
    cases hok

end FacilityBooking
