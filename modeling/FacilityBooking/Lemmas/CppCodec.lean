import FacilityBooking.Lemmas.Frame

/-!
# The client's serializer and the frame

The C++ serializer writes the frame of a message, where empty data is null, and the C++ deserializer reads a message back from
its frame, where null data is empty.
-/

namespace FacilityBooking.Cpp

open BigEndian Stream

/-! ## The writer -/

namespace ByteBuffer

/-- An `int` is appended as four bytes, the highest first. -/
theorem writeInt_eq (value : BitVec 32) (buffer : Bytes) : writeInt value buffer = buffer ++ Frame.int value := by
  simp only [writeInt, writeByte, Frame.int, bytes_word32, List.append_assoc, List.cons_append, List.nil_append]

/-- A string is appended with its length before it. -/
theorem writeString_eq (str buffer : Bytes) : writeString str buffer = buffer ++ Frame.string str := by
  have hbytes : ∀ buffer : Bytes, str.foldl (fun buffer c => writeByte c buffer) buffer = buffer ++ str := by
    induction str with
    | nil => exact fun buffer => (List.append_nil buffer).symm
    | cons c str ih => exact fun buffer => by rw [List.foldl_cons, ih, writeByte, List.append_assoc]; rfl
  rw [writeString, hbytes, writeInt_eq, Frame.string, List.append_assoc]

end ByteBuffer

/-- The data as it stands in a frame: empty data is null. -/
def nullIfEmpty (data : Bytes) : Option Bytes := if data = [] then none else some data

/-- The payload of the frame is written, from an empty buffer. -/
theorem serializeObject_eq (m : RequestMessage) :
    JavaSerializer.serializeObject (some m) [] = Frame.payload m.requestType m.requestID (nullIfEmpty m.data) := by
  have hheader : ∀ buffer : Bytes, RequestMessage.getFieldMetadata.foldl
      (fun buffer field => ByteBuffer.writeString field.2 (ByteBuffer.writeString field.1 buffer)) buffer =
      buffer ++ Frame.metadata := by
    intro buffer
    simp only [RequestMessage.getFieldMetadata, List.foldl_cons, List.foldl_nil, ByteBuffer.writeString_eq, Frame.metadata,
      Frame.name, literal, List.append_assoc, List.append_nil]
  simp only [JavaSerializer.serializeObject, hheader]
  simp only [RequestMessage.serializeFieldValues, ByteBuffer.writeInt_eq, ByteBuffer.writeString_eq, ByteBuffer.writeByte,
    Frame.payload, Frame.classInfo, nullIfEmpty, Frame.name]
  split
  · simp only [List.append_assoc]
    rfl
  · simp only [List.append_assoc]
    rfl

/-- The C++ serializer writes the frame. -/
theorem serialize_eq (m : RequestMessage) :
    JavaSerializer.serialize (some m) =
      Frame.withParity (Frame.payload m.requestType m.requestID (nullIfEmpty m.data)) := by
  rw [JavaSerializer.serialize, serializeObject_eq, Parity.calculateEvenParityBit_eq_cpp]
  rfl

/-! ## The reader -/

namespace ByteReader

theorem readByte_reads (b : UInt8) : Reads readByte [b] b := fun _ => rfl

/-- The reader puts together the bytes of an `int`. -/
theorem readInt_reads (v : BitVec 32) : Reads readInt (Frame.int v) v := by
  have h := (readByte_reads (byteAt v 24)).bind (f := fun b₀ => do
    let b₁ ← readByte
    let b₂ ← readByte
    let b₃ ← readByte
    return shifted 32 b₀ 24 ||| shifted 32 b₁ 16 ||| shifted 32 b₂ 8 ||| shifted 32 b₃ 0)
    ((readByte_reads (byteAt v 16)).bind ((readByte_reads (byteAt v 8)).bind ((readByte_reads (byteAt v 0)).map)))
  rw [word32_byteAt] at h
  rw [Frame.int, bytes_word32]
  exact h

/-- A string is read by its length, which is no negative one below 2³¹. -/
theorem readString_reads {str : Bytes} (h : str.length < 2 ^ 31) : Reads readString (Frame.string str) str := by
  refine (readInt_reads _).bind ?_
  rw [toInt_length h, if_neg (by omega)]
  exact Reads.times readByte_reads str

end ByteReader

/-- The fields are read in the order of the metadata, null data as an empty string. -/
theorem deserializeFields_reads {requestType requestID : BitVec 32} {d : Option Bytes}
    (h : ∀ bs, d = some bs → bs.length < 2 ^ 31) :
    Reads RequestMessage.deserializeFields (Frame.int requestType ++ (Frame.int requestID ++ Frame.data d))
      ⟨requestType, requestID, d.getD []⟩ := by
  refine (ByteReader.readInt_reads _).bind ((ByteReader.readInt_reads _).bind ?_)
  cases d with
  | none => exact (ByteReader.readByte_reads 0).bind (Takes.pure _ _)
  | some bs => exact (ByteReader.readByte_reads 1).bind (ByteReader.readString_reads (h bs rfl)).map

/-- The metadata of one field is the one expected, and then that of the others. -/
theorem verifyFields_cons {fieldName fieldType bs : Bytes} {rest : List (Bytes × Bytes)}
    (hname : fieldName.length < 2 ^ 31) (htype : fieldType.length < 2 ^ 31)
    (hrest : Reads (JavaDeserializer.verifyFields rest) bs ()) :
    Reads (JavaDeserializer.verifyFields ((fieldName, fieldType) :: rest))
      ((Frame.string fieldName ++ Frame.string fieldType) ++ bs) () := by
  rw [List.append_assoc]
  refine (ByteReader.readString_reads hname).bind ((ByteReader.readString_reads htype).bind ?_)
  rw [if_neg (by simp)]
  exact hrest

/-- The metadata of a frame are those that the client expects. -/
theorem verifyFields_reads : Reads (JavaDeserializer.verifyFields RequestMessage.getFieldMetadata) Frame.metadata () :=
  verifyFields_cons (by decide) (by decide) (verifyFields_cons (by decide) (by decide)
    (verifyFields_cons (by decide) (by decide) (Takes.pure () ())))

/-- Before the data any markers will do, but for the null and the reference. -/
theorem deserializeObject_of_fields {nullMarker referenceMarker : UInt8} (hnull : nullMarker ≠ 0) (href : referenceMarker ≠ 1)
    {requestType requestID : BitVec 32} {bs : Bytes} {m : RequestMessage}
    (h : Reads RequestMessage.deserializeFields (Frame.int requestType ++ (Frame.int requestID ++ bs)) m) :
    Reads JavaDeserializer.deserializeObject (Frame.header nullMarker referenceMarker requestType requestID ++ bs) (some m) := by
  rw [Frame.header, List.append_assoc, List.append_assoc, List.append_assoc, List.append_assoc]
  refine (ByteReader.readByte_reads nullMarker).bind ?_
  rw [if_neg hnull]
  refine (ByteReader.readByte_reads referenceMarker).bind ?_
  rw [if_neg href, Frame.classInfo, List.append_assoc, List.append_assoc]
  refine (ByteReader.readString_reads (by decide)).bind ?_
  rw [if_neg (by decide)]
  refine (ByteReader.readInt_reads 3).bind ?_
  rw [if_neg (by decide)]
  exact verifyFields_reads.bind h.map

/-- A message is read from the payload of its frame. -/
theorem deserializeObject_reads (requestType requestID : BitVec 32) {d : Option Bytes}
    (h : ∀ bs, d = some bs → bs.length < 2 ^ 31) :
    Reads JavaDeserializer.deserializeObject (Frame.payload requestType requestID d)
      (some ⟨requestType, requestID, d.getD []⟩) := by
  rw [Frame.payload_eq]
  exact deserializeObject_of_fields (by decide) (by decide) (deserializeFields_reads h)

/-- Where the parity is right, what is returned is what is read from all the bytes. -/
theorem deserialize_withParity (payload : Bytes) :
    JavaDeserializer.deserialize (Frame.withParity payload) =
      (JavaDeserializer.deserializeObject (Frame.withParity payload)).map Prod.fst := by
  have hlast : (Frame.withParity payload).getLast? = some (FacilityBooking.Parity.calculateEvenParityBit payload) :=
    List.getLast?_concat
  have hinit : (Frame.withParity payload).dropLast = payload := List.dropLast_concat
  have hparity : Parity.verifyEvenParity payload (FacilityBooking.Parity.calculateEvenParityBit payload) = true := by
    rw [Parity.verifyEvenParity, Parity.calculateEvenParityBit_eq_cpp, decide_eq_true rfl]
  unfold JavaDeserializer.deserialize
  simp only [hlast, hinit, hparity, if_true]
  cases JavaDeserializer.deserializeObject (Frame.withParity payload) <;> rfl

/-- The C++ deserializer reads a message back from its frame. -/
theorem deserialize_frame {requestType requestID : BitVec 32} {d : Option Bytes} (h : ∀ bs, d = some bs → bs.length < 2 ^ 31) :
    JavaDeserializer.deserialize (Frame.withParity (Frame.payload requestType requestID d)) =
      .ok (some ⟨requestType, requestID, d.getD []⟩) := by
  have hrun := deserializeObject_reads requestType requestID h
    [FacilityBooking.Parity.calculateEvenParityBit (Frame.payload requestType requestID d)]
  rw [deserialize_withParity, Frame.withParity, hrun]
  rfl

/-! ## What the reader makes of other bytes -/

namespace ByteReader

/-- No reader looks beyond what it reads. -/
theorem readByte_local : Local readByte := by
  intro items b left rest h
  cases items with
  | nil => cases h
  | cons b' items =>
    cases h
    rfl

theorem readByte_takes {items : Bytes} {b : UInt8} {left : Bytes} (h : readByte items = .ok (b, left)) :
    left.length < items.length := by
  cases items with
  | nil => cases h
  | cons b' items =>
    cases h
    exact Nat.lt_succ_self _

theorem readInt_local : Local readInt :=
  readByte_local.bind fun _ => readByte_local.bind fun _ => readByte_local.bind fun _ => readByte_local.bind fun _ =>
    Local.pure _

theorem readString_local : Local readString := by
  refine readInt_local.bind ?_
  intro length
  split
  · exact Local.throw _
  · exact readByte_local.times _

/-- A string that would be longer than what is left is not read. -/
theorem readString_of_length_lt (length : BitVec 32) (left : Bytes) (hlength : 0 ≤ length.toInt)
    (h : left.length < length.toInt.toNat) : ∃ x, readString (Frame.int length ++ left) = .error x := by
  have hrun : readString (Frame.int length ++ left) = (readInt (Frame.int length ++ left) >>= fun p =>
      (if p.1.toInt < 0 then throw .lengthError else Stream.times readByte p.1.toInt.toNat : Read Bytes) p.2) := rfl
  obtain ⟨x, hx⟩ := times_of_length_lt (fun _ _ _ => readByte_takes) h
  refine ⟨x, ?_⟩
  rw [hrun, readInt_reads length left]
  show (if length.toInt < 0 then throw .lengthError else Stream.times readByte length.toInt.toNat : Read Bytes) left = _
  rw [if_neg (by omega), hx]

end ByteReader

/-- Nor does the check of the metadata, which throws at the first field that differs. -/
theorem verifyFields_local (fields : List (Bytes × Bytes)) : Local (JavaDeserializer.verifyFields fields) := by
  induction fields with
  | nil => exact Local.pure ()
  | cons expected fields ih =>
    refine ByteReader.readString_local.bind fun fieldName => ByteReader.readString_local.bind ?_
    intro fieldType
    split
    · exact Local.throw _
    · exact ih

theorem deserializeFields_local : Local RequestMessage.deserializeFields := by
  refine ByteReader.readInt_local.bind fun _ => ByteReader.readInt_local.bind fun _ =>
    ByteReader.readByte_local.bind fun dataNullMarker => ?_
  split
  · exact ByteReader.readString_local.bind fun _ => Local.pure _
  · exact Local.pure _

/-- Nor does the reader of an object, in whichever branch it ends. -/
theorem deserializeObject_local : Local JavaDeserializer.deserializeObject := by
  refine ByteReader.readByte_local.bind ?_
  intro nullMarker
  split
  · exact Local.pure none
  refine ByteReader.readByte_local.bind ?_
  intro referenceMarker
  split
  · exact ByteReader.readInt_local.bind fun _ => Local.throw _
  refine ByteReader.readString_local.bind ?_
  intro className
  split
  · exact Local.throw _
  refine ByteReader.readInt_local.bind ?_
  intro fieldCount
  split
  · exact Local.throw _
  · exact (verifyFields_local _).bind fun _ => deserializeFields_local.bind fun _ => Local.pure _

/-- What the deserializer returns is what it reads, whatever the parity. -/
theorem deserializeObject_of_deserialize {data : Bytes} {obj : Option RequestMessage}
    (h : JavaDeserializer.deserialize data = .ok obj) : ∃ left, JavaDeserializer.deserializeObject data = .ok (obj, left) := by
  unfold JavaDeserializer.deserialize at h
  split at h
  · cases h
  · split at h
    · cases hrun : JavaDeserializer.deserializeObject data with
      | error x =>
        rw [hrun] at h
        cases h
      | ok p =>
        rw [hrun] at h
        cases h
        exact ⟨p.2, rfl⟩
    · cases h

/-- Of a frame that is cut off, the deserializer reads the message or nothing. -/
theorem deserialize_take {requestType requestID : BitVec 32} {d : Option Bytes} (h : ∀ bs, d = some bs → bs.length < 2 ^ 31)
    {n : Nat} {obj : Option RequestMessage}
    (hobj : JavaDeserializer.deserialize ((Frame.withParity (Frame.payload requestType requestID d)).take n) = .ok obj) :
    obj = some ⟨requestType, requestID, d.getD []⟩ := by
  obtain ⟨left, hrun⟩ := deserializeObject_of_deserialize hobj
  have hwhole := deserializeObject_local _ _ _ ((Frame.withParity (Frame.payload requestType requestID d)).drop n) hrun
  rw [List.take_append_drop, Frame.withParity, deserializeObject_reads requestType requestID h] at hwhole
  exact (Prod.mk.inj (Except.ok.inj hwhole)).1.symm

/-- Text that starts like that of a message is no message: where a class name should be, its letters give a length that is
greater than that of any datagram. -/
theorem deserialize_text (tail : Bytes) (h : tail.length < 2 ^ 30) :
    ∃ x, JavaDeserializer.deserialize (literal "Reques" ++ tail) = .error x := by
  cases hd : JavaDeserializer.deserialize (literal "Reques" ++ tail) with
  | error x => exact ⟨x, rfl⟩
  | ok obj =>
    obtain ⟨left, hrun⟩ := deserializeObject_of_deserialize hd
    -- the null marker is an R, the reference marker an e, and the length of the name of the class is ques
    have htext : literal "Reques" ++ tail = 0x52 :: 0x65 :: (Frame.int 0x71756573 ++ tail) := rfl
    have hlength : (0x71756573 : BitVec 32).toInt.toNat = 1903519091 := by decide
    obtain ⟨x, hx⟩ := ByteReader.readString_of_length_lt 0x71756573 tail (by decide) (by omega)
    have hclass : JavaDeserializer.deserializeObject (0x52 :: 0x65 :: (Frame.int 0x71756573 ++ tail)) = .error x := by
      rw [JavaDeserializer.deserializeObject]
      show (ByteReader.readString (Frame.int 0x71756573 ++ tail) >>= _) = _
      rw [hx]
      rfl
    rw [htext, hclass] at hrun
    cases hrun

/-! ## What the reader has read -/

namespace ByteReader

/-- What is read was there: a byte, an `int` and a string, each before what is left. -/
theorem readByte_sound {items : Bytes} {b : UInt8} {left : Bytes} (h : readByte items = .ok (b, left)) : items = b :: left := by
  cases items with
  | nil => cases h
  | cons b' items =>
    cases h
    rfl

theorem readInt_sound {items : Bytes} {v : BitVec 32} {left : Bytes} (h : readInt items = .ok (v, left)) :
    items = Frame.int v ++ left := by
  obtain ⟨b₀, mid₀, h₀, h⟩ := bind_ok h
  obtain ⟨b₁, mid₁, h₁, h⟩ := bind_ok h
  obtain ⟨b₂, mid₂, h₂, h⟩ := bind_ok h
  obtain ⟨b₃, mid₃, h₃, h⟩ := bind_ok h
  cases h
  rw [Frame.int, bytes_shifted, readByte_sound h₀, readByte_sound h₁, readByte_sound h₂, readByte_sound h₃]
  rfl

theorem readString_sound {items : Bytes} {str : Bytes} {left : Bytes} (h : readString items = .ok (str, left)) :
    items = Frame.string str ++ left ∧ str.length < 2 ^ 31 := by
  obtain ⟨length, mid, hlength, h⟩ := bind_ok h
  split at h
  · cases h
  · rename_i hnonneg
    obtain ⟨rfl, hcount⟩ := times_sound (fun _ _ _ => readByte_sound) h
    have hlt := BitVec.toInt_lt (x := length)
    have hofNat : BitVec.ofNat 32 str.length = length := by
      rw [hcount]
      apply BitVec.eq_of_toInt_eq
      rw [toInt_length (by omega)]
      omega
    refine ⟨?_, by omega⟩
    rw [Frame.string, hofNat, readInt_sound hlength, List.append_assoc]

end ByteReader

/-- The metadata that are accepted are those of the fields. -/
theorem verifyFields_sound {fields : List (Bytes × Bytes)} {items left : Bytes}
    (h : JavaDeserializer.verifyFields fields items = .ok ((), left)) :
    items = fields.flatMap (fun field => Frame.string field.1 ++ Frame.string field.2) ++ left := by
  induction fields generalizing items with
  | nil =>
    cases h
    rfl
  | cons expected fields ih =>
    obtain ⟨fieldName, mid, hname, hnext⟩ := bind_ok h
    obtain ⟨fieldType, mid', htype, hrest⟩ := bind_ok hnext
    split at hrest
    · cases hrest
    · rename_i heq
      obtain ⟨hname', htype'⟩ : fieldName = expected.1 ∧ fieldType = expected.2 := by
        simpa only [not_or, ne_eq, not_not] using heq
      rw [(ByteReader.readString_sound hname).1, (ByteReader.readString_sound htype).1, ih hrest, hname', htype', List.flatMap_cons,
        List.append_assoc, List.append_assoc]

/-- What stands where the data is, for the C++ reader: the marker one and a string, or any other marker. -/
def ReadsData (tail data left : Bytes) : Prop :=
  ∃ marker rest, tail = marker :: rest ∧
    ((marker = 1 ∧ rest = Frame.string data ++ left ∧ data.length < 2 ^ 31) ∨ (marker ≠ 1 ∧ data = [] ∧ rest = left))

/-- The fields that are read stood one after the other, with something that reads as the data at the end. -/
theorem deserializeFields_sound {items left : Bytes} {m : RequestMessage}
    (h : RequestMessage.deserializeFields items = .ok (m, left)) :
    ∃ tail, items = Frame.int m.requestType ++ (Frame.int m.requestID ++ tail) ∧ ReadsData tail m.data left := by
  obtain ⟨requestType, mid, htype, h⟩ := bind_ok h
  obtain ⟨requestID, mid', hid, h⟩ := bind_ok h
  obtain ⟨dataNullMarker, mid'', hmarker, h⟩ := bind_ok h
  have hitems : ∀ tail, mid' = tail → items = Frame.int requestType ++ (Frame.int requestID ++ tail) := by
    rintro _ rfl
    rw [ByteReader.readInt_sound htype, ByteReader.readInt_sound hid]
  split at h
  · rename_i hone
    obtain ⟨data, left', hdata, h⟩ := bind_ok h
    cases h
    obtain ⟨hrest, hlength⟩ := ByteReader.readString_sound hdata
    exact ⟨_, hitems _ rfl, _, _, ByteReader.readByte_sound hmarker, Or.inl ⟨hone, hrest, hlength⟩⟩
  · rename_i hone
    cases h
    exact ⟨_, hitems _ rfl, _, _, ByteReader.readByte_sound hmarker, Or.inr ⟨hone, rfl, rfl⟩⟩

/-- Bytes that the C++ deserializer reads a message from begin as one, whatever the markers. -/
theorem deserializeObject_sound {items left : Bytes} {m : RequestMessage}
    (h : JavaDeserializer.deserializeObject items = .ok (some m, left)) :
    ∃ nullMarker referenceMarker tail, nullMarker ≠ 0 ∧ referenceMarker ≠ 1 ∧
      items = Frame.header nullMarker referenceMarker m.requestType m.requestID ++ tail ∧ ReadsData tail m.data left := by
  obtain ⟨nullMarker, mid₁, hnull, h⟩ := bind_ok h
  split at h
  · cases h
  rename_i hnonnull
  obtain ⟨referenceMarker, mid₂, href, h⟩ := bind_ok h
  split at h
  · obtain ⟨_, _, _, h⟩ := bind_ok h
    cases h
  rename_i hnew
  obtain ⟨className, mid₃, hclass, h⟩ := bind_ok h
  split at h
  · cases h
  rename_i hname
  obtain ⟨fieldCount, mid₄, hcount, h⟩ := bind_ok h
  split at h
  · cases h
  rename_i hthree
  obtain ⟨_, mid₅, hfields, h⟩ := bind_ok h
  obtain ⟨m', left', hm, h⟩ := bind_ok h
  cases h
  obtain ⟨tail, htail, hdata⟩ := deserializeFields_sound hm
  have hname' : className = RequestMessage.getJavaClassName := not_not.1 hname
  have hcount' : fieldCount = 3 := BitVec.eq_of_toInt_eq (not_not.1 hthree)
  refine ⟨nullMarker, referenceMarker, tail, hnonnull, hnew, ?_, hdata⟩
  rw [ByteReader.readByte_sound hnull, ByteReader.readByte_sound href, (ByteReader.readString_sound hclass).1,
    ByteReader.readInt_sound hcount, verifyFields_sound hfields, htail, hname', hcount']
  simp only [Frame.header, Frame.classInfo, Frame.name, Frame.metadata, RequestMessage.getFieldMetadata,
    RequestMessage.getJavaClassName, literal, List.flatMap_cons, List.flatMap_nil, List.append_assoc, List.cons_append,
    List.nil_append, List.append_nil]

/-- Bytes that begin as a message does are read as one. -/
theorem deserializeObject_header {nullMarker referenceMarker : UInt8} (hnull : nullMarker ≠ 0) (href : referenceMarker ≠ 1)
    (requestType requestID : BitVec 32) {tail data left : Bytes} (h : ReadsData tail data left) :
    JavaDeserializer.deserializeObject (Frame.header nullMarker referenceMarker requestType requestID ++ tail) =
      .ok (some ⟨requestType, requestID, data⟩, left) := by
  obtain ⟨marker, rest, rfl, ⟨rfl, rfl, hlength⟩ | ⟨hmarker, rfl, rfl⟩⟩ := h
  · have hread := deserializeObject_of_fields hnull href
      (@deserializeFields_reads requestType requestID (some data) (fun _ h => Option.some.inj h ▸ hlength)) left
    rw [List.append_assoc] at hread
    exact hread
  · have hfields : Reads RequestMessage.deserializeFields (Frame.int requestType ++ (Frame.int requestID ++ [marker]))
        ⟨requestType, requestID, []⟩ := by
      refine (ByteReader.readInt_reads _).bind ((ByteReader.readInt_reads _).bind ?_)
      have hnil : [marker] = [marker] ++ [] := rfl
      rw [hnil]
      refine (ByteReader.readByte_reads marker).bind ?_
      rw [if_neg hmarker]
      exact Takes.pure _ _
    have hread := deserializeObject_of_fields hnull href hfields rest
    rw [List.append_assoc] at hread
    exact hread

end FacilityBooking.Cpp
