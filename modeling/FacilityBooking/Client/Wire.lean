import FacilityBooking.Java.Text
import FacilityBooking.Lib.BigEndian
import FacilityBooking.Lib.Stream

/-!
# The client's byte buffer, byte reader, parity and serializer

The C++ classes `ByteBuffer`, `ByteReader`, `Parity`, `RequestMessage`, `JavaSerializer` and `JavaDeserializer` of the client. A
`std::string` is its bytes. The only class that can be serialized is `RequestMessage`, none of whose fields is an object, so the
maps of objects are empty whenever they are consulted: no reference is ever written, and none is ever found.
-/

namespace FacilityBooking.Cpp

open BigEndian

/-- The exceptions of the C++ code; all are a `std::exception`. -/
inductive Exception where
  | runtimeError (what : Bytes)
  | lengthError

/-- What a C++ function returns, or the exception it throws. -/
abbrev Result := Except Exception

/-- A string literal. -/
def literal (s : String) : Bytes := getBytes s.toList

/-! ## ByteBuffer -/

namespace ByteBuffer

def writeByte (value : UInt8) (buffer : Bytes) : Bytes := buffer ++ [value]

def writeInt (value : BitVec 32) (buffer : Bytes) : Bytes :=
  writeByte (byteAt value 0) (writeByte (byteAt value 8) (writeByte (byteAt value 16) (writeByte (byteAt value 24) buffer)))

def writeString (str : Bytes) (buffer : Bytes) : Bytes :=
  str.foldl (fun buffer c => writeByte c buffer) (writeInt (BitVec.ofNat 32 str.length) buffer)

end ByteBuffer

/-! ## ByteReader -/

/-- A method of the reader: its state is the bytes from the position on. -/
abbrev Read := StateT Bytes Result

namespace ByteReader

def readByte : Read UInt8 := do
  match ← get with
  | [] => throw (.runtimeError (literal "Buffer overflow"))
  | b :: rest =>
    set rest
    return b

def readInt : Read (BitVec 32) := do
  let b₀ ← readByte
  let b₁ ← readByte
  let b₂ ← readByte
  let b₃ ← readByte
  return shifted 32 b₀ 24 ||| shifted 32 b₁ 16 ||| shifted 32 b₂ 8 ||| shifted 32 b₃ 0

/-- `readString`: to reserve a negative length is to reserve more than a string may hold. -/
def readString : Read Bytes := do
  let length ← readInt
  if length.toInt < 0 then
    throw .lengthError
  else
    Stream.times readByte length.toInt.toNat

end ByteReader

/-! ## Parity -/

namespace Parity

/-- The inner loop of `calculateEvenParityBit`, so many rounds at most: after eight a byte is zero. -/
def rounds : Nat → UInt8 → UInt8 → UInt8
  | 0, _, parityBit => parityBit
  | i + 1, temp, parityBit => if temp = 0 then parityBit else rounds i (temp >>> 1) (parityBit ^^^ (temp &&& 1))

def calculateEvenParityBit (data : Bytes) : UInt8 := data.foldl (fun parityBit byte => rounds 8 byte parityBit) 0

def verifyEvenParity (data : Bytes) (parityBit : UInt8) : Bool := decide (calculateEvenParityBit data = parityBit)

end Parity

/-! ## RequestMessage -/

/-- The C++ `RequestMessage`. -/
structure RequestMessage where
  requestType : BitVec 32
  requestID : BitVec 32
  data : Bytes
  deriving DecidableEq

namespace RequestMessage

def getJavaClassName : Bytes := literal "Server.RequestMessage"

def getFieldMetadata : List (Bytes × Bytes) :=
  [(literal "requestType", literal "int"), (literal "requestID", literal "int"), (literal "data", literal "java.lang.String")]

def serializeFieldValues (m : RequestMessage) (buffer : Bytes) : Bytes :=
  let buffer := ByteBuffer.writeInt m.requestID (ByteBuffer.writeInt m.requestType buffer)
  if m.data = [] then ByteBuffer.writeByte 0 buffer
  else ByteBuffer.writeString m.data (ByteBuffer.writeByte 1 buffer)

/-- `deserializeFields` of a message made by the default constructor. -/
def deserializeFields : Read RequestMessage := do
  let requestType ← ByteReader.readInt
  let requestID ← ByteReader.readInt
  let dataNullMarker ← ByteReader.readByte
  if dataNullMarker = 1 then
    let data ← ByteReader.readString
    return ⟨requestType, requestID, data⟩
  else
    return ⟨requestType, requestID, []⟩

end RequestMessage

/-! ## JavaSerializer -/

namespace JavaSerializer

/-- `serializeObject`, of a message or of a null pointer. -/
def serializeObject (obj : Option RequestMessage) (buffer : Bytes) : Bytes :=
  match obj with
  | none => ByteBuffer.writeByte 0 buffer
  | some m =>
    let buffer := ByteBuffer.writeByte 0 (ByteBuffer.writeByte 1 buffer)
    let buffer := ByteBuffer.writeString RequestMessage.getJavaClassName buffer
    let buffer := ByteBuffer.writeInt (BitVec.ofNat 32 RequestMessage.getFieldMetadata.length) buffer
    let buffer := RequestMessage.getFieldMetadata.foldl
      (fun buffer field => ByteBuffer.writeString field.2 (ByteBuffer.writeString field.1 buffer)) buffer
    m.serializeFieldValues buffer

def serialize (obj : Option RequestMessage) : Bytes :=
  let buffer := serializeObject obj []
  ByteBuffer.writeByte (Parity.calculateEvenParityBit buffer) buffer

end JavaSerializer

/-! ## JavaDeserializer -/

namespace JavaDeserializer

/-- The loop that compares the metadata of the fields with the ones expected. -/
def verifyFields : List (Bytes × Bytes) → Read Unit
  | [] => return ()
  | expected :: rest => do
    let fieldName ← ByteReader.readString
    let fieldType ← ByteReader.readString
    if fieldName ≠ expected.1 ∨ fieldType ≠ expected.2 then
      throw (.runtimeError (literal "Field metadata mismatch"))
    else
      verifyFields rest

/-- `deserializeObject`: a message, or a null pointer. The factory knows the class `Server.RequestMessage`. -/
def deserializeObject : Read (Option RequestMessage) := do
  let nullMarker ← ByteReader.readByte
  if nullMarker = 0 then
    return none
  else
    let referenceMarker ← ByteReader.readByte
    if referenceMarker = 1 then
      let _ ← ByteReader.readInt
      throw (.runtimeError (literal "Invalid object reference"))
    else
      let className ← ByteReader.readString
      if className ≠ RequestMessage.getJavaClassName then
        throw (.runtimeError (literal "Unknown class: " ++ className))
      else
        let fieldCount ← ByteReader.readInt
        if fieldCount.toInt ≠ RequestMessage.getFieldMetadata.length then
          throw (.runtimeError (literal "Field count mismatch"))
        else
          verifyFields RequestMessage.getFieldMetadata
          return some (← RequestMessage.deserializeFields)

/-- `deserialize`: the parity of all but the last byte is verified, and the message is read from all the bytes. -/
def deserialize (data : Bytes) : Result (Option RequestMessage) :=
  match data.getLast? with
  | none => .error (.runtimeError (literal "Empty data received for deserialization"))
  | some receivedParityBit =>
    if Parity.verifyEvenParity data.dropLast receivedParityBit = true then do
      let (obj, _) ← deserializeObject data
      return obj
    else
      .error (.runtimeError (literal "Message parity check failed during deserialization"))

end JavaDeserializer

end FacilityBooking.Cpp
