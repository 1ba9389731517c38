import FacilityBooking.Java.Runtime
import FacilityBooking.Lib.BigEndian
import FacilityBooking.Lib.Stream

/-!
# The server's byte buffer, byte reader and parity

The classes `ByteBuffer`, `ByteReader` and `Parity` of `Server/utils`. A buffer is the bytes written so far and the capacity it
never exceeds; a reader is the bytes not read yet. A Java `byte` is signed, so the shifts of `Parity` bring in copies of its
sign.
-/

namespace FacilityBooking

open BigEndian

/-! ## Writing -/

/-- `ByteBuffer`: its capacity and what is written. -/
abbrev ByteBuffer := Stream.Buffer UInt8

/-- A method that writes to a buffer. -/
abbrev Write := StateT ByteBuffer Java

namespace ByteBuffer

/-- `writeByte`: past the end of the array is an exception. -/
def writeByte (value : UInt8) : Write Unit := do
  let buffer ← get
  if h : buffer.written.length < buffer.capacity then
    set (⟨buffer.capacity, buffer.written ++ [value], by rw [List.length_append]; exact h⟩ : ByteBuffer)
  else
    throw (.arrayIndexOutOfBounds buffer.written.length buffer.capacity)

/-- Most significant byte first. -/
def writeInt (value : BitVec 32) : Write Unit := do
  writeByte (byteAt value 24)
  writeByte (byteAt value 16)
  writeByte (byteAt value 8)
  writeByte (byteAt value 0)

def writeLong (value : BitVec 64) : Write Unit := do
  writeByte (byteAt value 56)
  writeByte (byteAt value 48)
  writeByte (byteAt value 40)
  writeByte (byteAt value 32)
  writeByte (byteAt value 24)
  writeByte (byteAt value 16)
  writeByte (byteAt value 8)
  writeByte (byteAt value 0)

/-- The bits are those of `doubleToLongBits`, which has one value for all that is no number. -/
def writeDouble (value : Double) : Write Unit := writeLong value.doubleToLongBits

/-- The bytes of an array, one after the other. -/
def writeBytes (bytes : Bytes) : Write Unit := bytes.forM writeByte

/-- The length in bytes, then the bytes. -/
def writeString (value : Text) : Write Unit := do
  writeInt (BitVec.ofNat 32 (getBytes value).length)
  writeBytes (getBytes value)

end ByteBuffer

/-! ## Reading -/

/-- A method that reads from a reader: its state is the bytes from the position on. -/
abbrev Read := StateT Bytes Java

namespace ByteReader

/-- `buffer[position++]`. The index and the length of the exception are those of the bytes that were left. -/
def readByte : Read UInt8 := do
  match ← get with
  | [] => throw (.arrayIndexOutOfBounds 0 0)
  | b :: rest =>
    set rest
    return b

def readInt : Read (BitVec 32) := do
  let b₀ ← readByte
  let b₁ ← readByte
  let b₂ ← readByte
  let b₃ ← readByte
  return shifted 32 b₀ 24 ||| shifted 32 b₁ 16 ||| shifted 32 b₂ 8 ||| shifted 32 b₃ 0

def readLong : Read (BitVec 64) := do
  let b₀ ← readByte
  let b₁ ← readByte
  let b₂ ← readByte
  let b₃ ← readByte
  let b₄ ← readByte
  let b₅ ← readByte
  let b₆ ← readByte
  let b₇ ← readByte
  return shifted 64 b₀ 56 ||| shifted 64 b₁ 48 ||| shifted 64 b₂ 40 ||| shifted 64 b₃ 32 ||| shifted 64 b₄ 24 |||
    shifted 64 b₅ 16 ||| shifted 64 b₆ 8 ||| shifted 64 b₇ 0

def readDouble : Read Double := do
  let bits ← readLong
  return Double.longBitsToDouble bits

/-- So many bytes. -/
def readBytes (length : Nat) : Read Bytes := Stream.times readByte length

/-- `readString`: a negative length is an exception of the array that is made for it. -/
def readString (Γ : Jvm) : Read Text := do
  let length ← readInt
  if length.toInt < 0 then
    throw (.negativeArraySize length.toInt)
  else
    let bytes ← readBytes length.toInt.toNat
    return Γ.newString bytes

end ByteReader

/-! ## Parity -/

namespace Parity

/-- So many rounds of the inner loop of `calculateEvenParityBit`, which shifts a signed byte. -/
def rounds : Nat → BitVec 8 → BitVec 8 → BitVec 8
  | 0, _, parityBit => parityBit
  | i + 1, temp, parityBit => rounds i (temp.sshiftRight 1) (parityBit ^^^ (temp &&& 1))

/-- `Parity.calculateEvenParityBit`. -/
def calculateEvenParityBit (data : Bytes) : UInt8 :=
  UInt8.ofBitVec (data.foldl (fun parityBit b => rounds 8 b.toBitVec parityBit) 0)

end Parity

end FacilityBooking
