import FacilityBooking.Client.Wire
import FacilityBooking.Server.Serializer

/-!
# The frame of a request message

The bytes of a request message on the wire, which both sides write and read, and the parity, which both sides compute alike.
-/

namespace FacilityBooking

open BigEndian

/-! ## The layout -/

namespace Frame

/-- An `int`. -/
def int (v : BitVec 32) : Bytes := bytes 4 v.toNat

/-- A string: the number of its bytes, and its bytes. -/
def string (bs : Bytes) : Bytes := int (BitVec.ofNat 32 bs.length) ++ bs

/-- The name of a class, of a field or of a type. -/
def name (s : String) : Bytes := string (getBytes s.toList)

/-- The name and the type of each field. -/
def metadata : Bytes :=
  (name "requestType" ++ name "int") ++ ((name "requestID" ++ name "int") ++ ((name "data" ++ name "java.lang.String") ++ []))

/-- The class and its fields. -/
def classInfo : Bytes := name "Server.RequestMessage" ++ (int 3 ++ metadata)

/-- The data: a null marker, and a string when there is one. -/
def data : Option Bytes → Bytes
  | none => [0]
  | some bs => [1] ++ string bs

/-- What stands before the data, with any markers. -/
def header (nullMarker referenceMarker : UInt8) (requestType requestID : BitVec 32) : Bytes :=
  [nullMarker] ++ ([referenceMarker] ++ (classInfo ++ (int requestType ++ int requestID)))

/-- A message without its parity. -/
def payload (requestType requestID : BitVec 32) (d : Option Bytes) : Bytes :=
  [1] ++ ([0] ++ (classInfo ++ (int requestType ++ (int requestID ++ data d))))

/-- The parity of the payload at its end. -/
def withParity (bs : Bytes) : Bytes := bs ++ [Parity.calculateEvenParityBit bs]

end Frame

/-- The frame of a message: its payload and its parity. -/
def RequestMessage.frame (m : RequestMessage) : Bytes :=
  Frame.withParity (Frame.payload m.requestType m.requestID (m.data.map getBytes))

theorem Frame.payload_eq (requestType requestID : BitVec 32) (d : Option Bytes) :
    payload requestType requestID d = header 1 0 requestType requestID ++ data d := by
  simp only [payload, header, List.append_assoc]

theorem Frame.length_header (nullMarker referenceMarker : UInt8) (requestType requestID : BitVec 32) :
    (header nullMarker referenceMarker requestType requestID).length = 109 := by
  have hclass : classInfo.length = 99 := rfl
  simp only [header, List.length_append, List.length_singleton, hclass, int, length_bytes]

/-- The data is shorter than the frame. -/
theorem Frame.length_data_lt {requestType requestID : BitVec 32} {bs : Bytes} :
    bs.length < (withParity (payload requestType requestID (some bs))).length := by
  simp only [withParity, payload, data, string, List.length_append, List.length_singleton]
  omega

/-- A length below 2³¹ is read back as it is written. -/
theorem toInt_length {n : Nat} (h : n < 2 ^ 31) : (BitVec.ofNat 32 n).toInt = n := by
  rw [BitVec.toInt_eq_toNat_of_lt] <;> simp <;> omega

/-! ## Parity -/

/-- A round of the Java loop adds to the parity bit what it would make of none. -/
theorem Parity.rounds_eq_xor (n : Nat) (temp parityBit : BitVec 8) :
    rounds n temp parityBit = parityBit ^^^ rounds n temp 0 := by
  induction n generalizing temp parityBit with
  | zero => simp [rounds]
  | succ n ih =>
    have hzero : (0 : BitVec 8) ^^^ (temp &&& 1) = temp &&& 1 := BitVec.zero_xor
    rw [rounds, rounds, hzero, ih, ih _ (temp &&& 1), BitVec.xor_assoc]

/-- So does a round of the C++ loop. -/
theorem Cpp.Parity.rounds_eq_xor (n : Nat) (temp parityBit : UInt8) :
    rounds n temp parityBit = parityBit ^^^ rounds n temp 0 := by
  induction n generalizing temp parityBit with
  | zero => simp [rounds]
  | succ n ih =>
    rw [rounds, rounds]
    split
    · simp
    · rw [ih, ih (temp >>> 1) (0 ^^^ (temp &&& 1)), UInt8.zero_xor, UInt8.xor_assoc]

/-- The sign that the Java shift brings in never reaches the bit that is read. -/
theorem Parity.rounds_eq_cpp (b : BitVec 8) : UInt8.ofBitVec (rounds 8 b 0) = Cpp.Parity.rounds 8 (UInt8.ofBitVec b) 0 := by
  revert b
  decide +kernel

/-- Both sides compute the same parity. -/
theorem Parity.calculateEvenParityBit_eq_cpp (bs : Bytes) :
    Cpp.Parity.calculateEvenParityBit bs = calculateEvenParityBit bs := by
  suffices h : ∀ parityBit : BitVec 8, bs.foldl (fun p b => Cpp.Parity.rounds 8 b p) (UInt8.ofBitVec parityBit) =
      UInt8.ofBitVec (bs.foldl (fun p b => rounds 8 b.toBitVec p) parityBit) from h 0
  induction bs with
  | nil => exact fun _ => rfl
  | cons b bs ih =>
    intro parityBit
    rw [List.foldl_cons, List.foldl_cons, ← ih, Cpp.Parity.rounds_eq_xor, rounds_eq_xor, UInt8.ofBitVec_xor, rounds_eq_cpp]

end FacilityBooking
