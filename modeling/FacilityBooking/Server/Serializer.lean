import FacilityBooking.Server.Wire
import FacilityBooking.Server.Services

/-!
# The server's serializer

The class `Serializer`: a reflective encoder and decoder of object graphs. The encoder walks a heap from a value and hands out
handles in the order in which it first meets the objects; the decoder builds a heap and hands out handles in the order in which
it makes the objects. Both recursions are bounded by a count that no run exhausts: the encoder descends only into objects it has
not met, and the decoder reads a byte at every step down.
-/

namespace FacilityBooking

namespace Serializer

/-! ## Encoding -/

/-- The state of the encoder: its buffer, and the objects met so far, each at the place of its handle. -/
structure Encoder where
  buffer : ByteBuffer
  serializedObjects : List Nat

abbrev Encode := StateT Encoder Java

/-- Writing leaves the handles alone. -/
def writing (w : Write Unit) : Encode Unit := fun s =>
  match w s.buffer with
  | .ok ((), buffer) => .ok ((), { s with buffer := buffer })
  | .error e => .error e

/-- The `writePrimitive` of the source: what it does not name it does not write. -/
def writePrimitive : Primitive → Value → Write Unit
  | .int, .int v => ByteBuffer.writeInt v
  | .long, .long v => ByteBuffer.writeLong v
  | .double, .double v => ByteBuffer.writeDouble v
  | .byte, .byte v => ByteBuffer.writeByte (UInt8.ofBitVec v)
  | _, _ => return ()

/-- `writeValue`, given `serializeObject`. -/
def writeValue (serializeObject : Value → Encode Unit) : JClass → Value → Encode Unit
  | .primitive p, value => writing (writePrimitive p value)
  | .array component, value =>
    match value with
    | .array _ elements => do
      writing (ByteBuffer.writeInt (BitVec.ofNat 32 elements.length))
      elements.forM (writeValue serializeObject component)
    | _ => writing (ByteBuffer.writeInt (-1))
  | .object name, value =>
    if JClass.object name = .string then
      match value with
      | .string s => do
        writing (ByteBuffer.writeByte 1)
        writing (ByteBuffer.writeString s)
      | _ => writing (ByteBuffer.writeByte 0)
    else
      serializeObject value

/-- The fields that are written: neither static nor transient. -/
def serializableFields (cls : ClassInfo) : List Field := cls.declaredFields.filter (fun f => !f.isStatic && !f.isTransient)

/-- The header of an object: its class and the name and type of each field, which has to be accessible. -/
def writeMetadata (className : Text) (cls : ClassInfo) : Encode Unit := do
  writing (ByteBuffer.writeString className)
  writing (ByteBuffer.writeInt (BitVec.ofNat 32 (serializableFields cls).length))
  (serializableFields cls).forM fun field => do
    if cls.accessible then
      writing (ByteBuffer.writeString field.name)
      writing (ByteBuffer.writeString field.type.getName)
    else
      throw (.inaccessibleObject field.name)

/-- `serializeObject`, descending at most so often. A string, a boxed number or an array that stands where an object is declared
is an object of a class of the runtime. -/
def serializeObject (Γ : Jvm) (heap : List Obj) : Nat → Value → Encode Unit
  | 0, _ => throw .nullPointer
  | fuel + 1, obj =>
    match obj with
    | .null => writing (ByteBuffer.writeByte 0)
    | .array component _ => do
      writing (ByteBuffer.writeByte 1)
      writing (ByteBuffer.writeByte 0)
      writeMetadata (JClass.array component).getName ⟨[], true, none⟩
    | .object reference => do
      writing (ByteBuffer.writeByte 1)
      match (← get).serializedObjects.idxOf? reference, heap[reference]? with
      | some handle, _ =>
        writing (ByteBuffer.writeByte 1)
        writing (ByteBuffer.writeInt (BitVec.ofNat 32 handle))
      | none, some o =>
        writing (ByteBuffer.writeByte 0)
        modify (fun s => { s with serializedObjects := s.serializedObjects ++ [reference] })
        match Γ.forName o.className with
        | some cls =>
          writeMetadata o.className cls
          (serializableFields cls).forM fun field =>
            writeValue (serializeObject Γ heap fuel) field.type (o.get field.name)
        | none => throw (.classNotFound o.className)
      | none, none => throw .nullPointer
    | _ => throw (.inaccessibleObject "value".toList)

/-- The capacity of the buffer that `serialize` makes. -/
def capacity : Nat := 1024

/-- `Serializer.serialize`: the parity of what is written goes at the end of the same buffer. -/
def serialize (Γ : Jvm) (heap : List Obj) (obj : Value) : Java Bytes := do
  let (_, s) ← serializeObject Γ heap (heap.length + 1) obj ⟨⟨capacity, [], Nat.zero_le _⟩, []⟩
  let (_, buffer) ← ByteBuffer.writeByte (Parity.calculateEvenParityBit s.buffer.written) s.buffer
  return buffer.written

/-! ## Decoding -/

/-- The state of the decoder: the bytes left, the objects made so far, each at the place of its handle, and the heap. -/
structure Decoder where
  bytes : Bytes
  deserializedObjects : List Value
  heap : List Obj

abbrev Decode := StateT Decoder Java

/-- Reading leaves the objects alone. -/
def reading {α : Type} (r : Read α) : Decode α := fun s =>
  match r s.bytes with
  | .ok (a, bytes) => .ok (a, { s with bytes := bytes })
  | .error e => .error e

/-- `Class.forName`: an array class is found when the class of its elements is, and it has no more than 255 dimensions. -/
def classForName (Γ : Jvm) (className : Text) : Java JClass :=
  match className with
  | '[' :: descriptor =>
    match JClass.ofDescriptor descriptor with
    | some c =>
      if (JClass.array c).dimensions ≤ 255 ∧ c.isLoadable Γ = true then .ok (.array c) else .error (.classNotFound className)
    | none => .error (.classNotFound className)
  | _ => if (Γ.forName className).isSome then .ok (.object className) else .error (.classNotFound className)

/-- `getClassFromName`. -/
def getClassFromName (Γ : Jvm) (className : Text) : Java JClass :=
  match [Primitive.int, .long, .double, .float, .boolean, .byte, .short, .char, .void].find?
      (fun p => decide (p.getName = className)) with
  | some p => .ok (.primitive p)
  | none => classForName Γ className

/-- `deserializedObjects.put(objectCounter++, value)`. -/
def putObject (value : Value) : Decode Unit := modify (fun s => { s with deserializedObjects := s.deserializedObjects ++ [value] })

/-- `readPrimitive`: what it does not name it does not read, and null comes back. -/
def readPrimitive : Primitive → Read Value
  | .int => return .int (← ByteReader.readInt)
  | .long => return .long (← ByteReader.readLong)
  | .double => return .double (← ByteReader.readDouble)
  | .boolean => return .boolean ((← ByteReader.readByte) == 1)
  | _ => return .null

/-- The class of a value that is not null: a primitive is boxed. -/
def runtimeClass (heap : List Obj) : Value → Option JClass
  | .null => none
  | .int _ => some (.object "java.lang.Integer".toList)
  | .long _ => some (.object "java.lang.Long".toList)
  | .double _ => some (.object "java.lang.Double".toList)
  | .float _ => some (.object "java.lang.Float".toList)
  | .boolean _ => some (.object "java.lang.Boolean".toList)
  | .byte _ => some (.object "java.lang.Byte".toList)
  | .short _ => some (.object "java.lang.Short".toList)
  | .char _ => some (.object "java.lang.Character".toList)
  | .string _ => some .string
  | .array component _ => some (.array component)
  | .object reference => heap[reference]?.map (fun o => .object o.className)

/-- What `Field.set` and `Array.set` store of a value in a place of that type: a primitive place takes the value unboxed and
widened, any other place null or a value of a class that fits. The values read are never a boxed `byte`, `short`, `char` or
`float`. -/
def fit (Γ : Jvm) (heap : List Obj) : JClass → Value → Java Value
  | .primitive .int, .int v => .ok (.int v)
  | .primitive .long, .long v => .ok (.long v)
  | .primitive .long, .int v => .ok (.long (v.signExtend 64))
  | .primitive .double, .double v => .ok (.double v)
  | .primitive .double, .int v => .ok (.double (Γ.toDouble v.toInt))
  | .primitive .double, .long v => .ok (.double (Γ.toDouble v.toInt))
  | .primitive .float, .int v => .ok (.float (Γ.toFloat v.toInt))
  | .primitive .float, .long v => .ok (.float (Γ.toFloat v.toInt))
  | .primitive .boolean, .boolean b => .ok (.boolean b)
  | .primitive _, .null => .error .nullPointer
  | .primitive _, _ => .error (.illegalArgument "argument type mismatch".toList)
  | _, .null => .ok .null
  | declared, v =>
    match runtimeClass heap v with
    | some c => if Γ.isAssignable declared c then .ok v else .error (.illegalArgument "argument type mismatch".toList)
    | none => .error .nullPointer

/-- `readValue`, given `deserializeObject`. -/
def readValue (Γ : Jvm) (deserializeObject : Decode Value) : JClass → Decode Value
  | .primitive p => reading (readPrimitive p)
  | .array component => do
    let length ← reading ByteReader.readInt
    if length = -1 then
      return .null
    else if length.toInt < 0 then
      throw (.negativeArraySize length.toInt)
    else
      let elements ← Stream.times (do
        let v ← readValue Γ deserializeObject component
        fit Γ (← get).heap component v) length.toInt.toNat
      return .array component elements
  | .object name => do
    if JClass.object name = .string then
      let nullMarker ← reading ByteReader.readByte
      if nullMarker = 0 then
        return .null
      else
        return .string (← reading (ByteReader.readString Γ))
    else
      deserializeObject

/-- The metadata of so many fields: each field of the class by its name, with the type the message names for it. -/
def readMetadata (Γ : Jvm) (cls : ClassInfo) : Nat → Decode (List (Field × JClass))
  | 0 => return []
  | n + 1 => do
    let fieldName ← reading (ByteReader.readString Γ)
    let fieldTypeName ← reading (ByteReader.readString Γ)
    match cls.declaredFields.find? (fun f => decide (f.name = fieldName)) with
    | none => throw (.noSuchField fieldName)
    | some field =>
      if cls.accessible then
        let fieldType ← getClassFromName Γ fieldTypeName
        let rest ← readMetadata Γ cls n
        return (field, fieldType) :: rest
      else
        throw (.inaccessibleObject fieldName)

/-- `field.set(obj, value)`. -/
def setField (Γ : Jvm) (obj : Value) (field : Field) (value : Value) : Decode Unit := do
  let s ← get
  let v ← fit Γ s.heap field.type value
  match obj with
  | .object reference =>
    set { s with heap := s.heap.modify reference (fun o => o.set field.name v) }
  | _ => throw (.inaccessibleObject field.name)

/-- The values of the fields, in the order of their metadata. -/
def readFields (Γ : Jvm) (deserializeObject : Decode Value) (obj : Value) : List (Field × JClass) → Decode Unit
  | [] => return ()
  | (field, fieldType) :: rest => do
    if !field.isStatic && !field.isTransient then
      let fieldValue ← readValue Γ deserializeObject fieldType
      setField Γ obj field fieldValue
    readFields Γ deserializeObject obj rest

/-- `cls.getDeclaredConstructor().newInstance()`: an object on the heap, or the empty string for the class of strings. -/
def newInstance (Γ : Jvm) (cls : JClass) : Decode (Value × ClassInfo) := do
  match cls with
  | .object name =>
    match Γ.forName name with
    | some info =>
      match info.newInstance with
      | some fields =>
        if cls = .string then
          return (.string [], info)
        else
          let s : Decoder ← get
          set ({ s with heap := s.heap ++ [⟨name, fields⟩] } : Decoder)
          return (.object s.heap.length, info)
      | none => throw (.noSuchMethod name)
    | none => throw (.classNotFound name)
  | _ => throw (.noSuchMethod cls.getName)

/-- `deserializeObject`, descending at most so often. -/
def deserializeObject (Γ : Jvm) : Nat → Decode Value
  | 0 => throw .nullPointer
  | fuel + 1 => do
    let nullMarker ← reading ByteReader.readByte
    if nullMarker = 0 then
      return .null
    else
      let referenceMarker ← reading ByteReader.readByte
      if referenceMarker = 1 then
        let objectId ← reading ByteReader.readInt
        return ((← get).deserializedObjects[objectId.toNat]?).getD .null
      else
        let className ← reading (ByteReader.readString Γ)
        let cls ← getClassFromName Γ className
        match cls with
        | .primitive p =>
          let value ← reading (readPrimitive p)
          putObject value
          return value
        | _ =>
          let (obj, info) ← newInstance Γ cls
          putObject obj
          let fieldCount ← reading ByteReader.readInt
          let fields ← readMetadata Γ info fieldCount.toInt.toNat
          readFields Γ (deserializeObject Γ fuel) obj fields
          return obj

/-- `Serializer.deserialize`: the value read and the heap it lives in. -/
def deserialize (Γ : Jvm) (data : Bytes) : Java (Value × List Obj) :=
  match data.getLast? with
  | none => .error (.arrayIndexOutOfBounds (-1) 0)
  | some receivedParityBit =>
    let actualData := data.dropLast
    if Parity.calculateEvenParityBit actualData ≠ receivedParityBit then
      .error (.checked "Parity check failed: data corruption detected".toList)
    else do
      let (value, s) ← deserializeObject Γ (actualData.length + 1) ⟨actualData, [], []⟩
      return (value, s.heap)

end Serializer

/-! ## Request messages as objects -/

namespace RequestMessage

/-- A request message as the serializer sees it. -/
def toObj (m : RequestMessage) : Obj where
  className := "Server.RequestMessage".toList
  fields := [("requestType".toList, .int m.requestType), ("requestID".toList, .int m.requestID),
    ("data".toList, .ofText m.data)]

/-- The request message an object is. Its fields hold what `fit` lets in: integers, and a string or null. -/
def ofObj (o : Obj) : RequestMessage where
  requestType := match o.get "requestType".toList with
    | .int v => v
    | _ => 0
  requestID := match o.get "requestID".toList with
    | .int v => v
    | _ => 0
  data := match o.get "data".toList with
    | .string s => some s
    | _ => none

end RequestMessage

/-- `Serializer.serialize(message)`. -/
def serializeMessage (Γ : Jvm) (m : RequestMessage) : Java Bytes := Serializer.serialize Γ [m.toObj] (.object 0)

/-- `(RequestMessage) Serializer.deserialize(data)`, whose `toString` is called at once. -/
def deserializeMessage (Γ : Jvm) (data : Bytes) : Java RequestMessage := do
  let (value, heap) ← Serializer.deserialize Γ data
  match value with
  | .null => throw .nullPointer
  | .object reference =>
    match heap[reference]? with
    | some o => if o.className = "Server.RequestMessage".toList then return .ofObj o else throw .classCast
    | none => throw .nullPointer
  | _ => throw .classCast

end FacilityBooking
