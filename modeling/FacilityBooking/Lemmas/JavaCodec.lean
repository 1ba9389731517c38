import FacilityBooking.Lemmas.Frame

/-!
# The server's serializer and the frame

The Java serializer writes the frame of a message when the frame fits its buffer, and the Java deserializer reads a message back
from its frame.
-/

namespace FacilityBooking

open BigEndian Stream

/-! ## The Java writer -/

/-- A method of the buffer that appends exactly these bytes if they fit and throws if they do not. -/
abbrev Writes (w : Write Unit) (bs : Bytes) : Prop := Puts (fun buffer (_ : Unit) => buffer) w bs () ()

/-- A step of the encoder that writes these bytes and turns the handles into others. -/
abbrev Encodes (w : Serializer.Encode Unit) (bs : Bytes) (objects objects' : List Nat) : Prop :=
  Puts (fun buffer objects => ⟨buffer, objects⟩) w bs objects objects'

namespace ByteBuffer

theorem writeByte_writes (value : UInt8) : Writes (writeByte value) [value] := by
  intro buffer
  have hrun : writeByte value buffer =
      if h : buffer.written.length < buffer.capacity then
        .ok ((), ⟨buffer.capacity, buffer.written ++ [value], by rw [List.length_append]; exact h⟩)
      else .error (.arrayIndexOutOfBounds buffer.written.length buffer.capacity) := by
    unfold writeByte
    show (if h : buffer.written.length < buffer.capacity then _ else _ : Write Unit) buffer = _
    split <;> rfl
  have hlength : (buffer.written ++ [value]).length = buffer.written.length + 1 := List.length_append
  by_cases h : buffer.written.length < buffer.capacity
  · exact Or.inl ⟨by omega, by rw [hrun, dif_pos h]⟩
  · exact Or.inr ⟨by omega, _, by rw [hrun, dif_neg h]⟩

theorem writeInt_writes (value : BitVec 32) : Writes (writeInt value) (Frame.int value) := by
  rw [Frame.int, bytes_word32]
  exact (writeByte_writes _).bind ((writeByte_writes _).bind ((writeByte_writes _).bind (writeByte_writes _)))

theorem writeString_writes (value : Text) : Writes (writeString value) (Frame.string (getBytes value)) := by
  have hbytes := Puts.forM (getBytes value) fun b _ => writeByte_writes b
  rw [List.flatMap_singleton'] at hbytes
  exact (writeInt_writes _).bind hbytes

end ByteBuffer

namespace Serializer

theorem writing_encodes {w : Write Unit} {bs : Bytes} (hw : Writes w bs) (objects : List Nat) :
    Encodes (writing w) bs objects objects := by
  intro buffer
  unfold writing
  rcases hw buffer with ⟨h, hok⟩ | ⟨h, x, herr⟩
  · exact Or.inl ⟨h, by simp only [hok]⟩
  · exact Or.inr ⟨h, x, by simp only [herr]⟩

/-- What is written for a field of type `int`. -/
theorem writeValue_int_encodes (f : Value → Encode Unit) (v : BitVec 32) (objects : List Nat) :
    Encodes (writeValue f (.primitive .int) (.int v)) (Frame.int v) objects objects :=
  writing_encodes (ByteBuffer.writeInt_writes v) objects

/-- What is written for a field of type `String`. -/
theorem writeValue_string_encodes (f : Value → Encode Unit) (d : Option Text) (objects : List Nat) :
    Encodes (writeValue f .string (.ofText d)) (Frame.data (d.map getBytes)) objects objects := by
  cases d with
  | none => exact writing_encodes (ByteBuffer.writeByte_writes 0) objects
  | some s =>
    exact (writing_encodes (ByteBuffer.writeByte_writes 1) objects).bind
      (writing_encodes (ByteBuffer.writeString_writes s) objects)

/-- The names of the class and of its fields and their types. -/
theorem writeMetadata_encodes (objects : List Nat) :
    Encodes (writeMetadata "Server.RequestMessage".toList requestMessageClass) Frame.classInfo objects objects := by
  have hname : ∀ s : String, Encodes (writing (ByteBuffer.writeString s.toList)) (Frame.name s) objects objects :=
    fun s => writing_encodes (ByteBuffer.writeString_writes s.toList) objects
  have hfield : ∀ n t : String, Encodes (do
      writing (ByteBuffer.writeString n.toList)
      writing (ByteBuffer.writeString t.toList)) (Frame.name n ++ Frame.name t) objects objects :=
    fun n t => (hname n).bind (hname t)
  refine (hname _).bind ((writing_encodes (ByteBuffer.writeInt_writes 3) objects).bind ?_)
  have hfields : serializableFields requestMessageClass = requestMessageClass.declaredFields := by decide
  rw [hfields]
  exact (hfield "requestType" "int").bind ((hfield "requestID" "int").bind ((hfield "data" "java.lang.String").bind
    (Puts.nothing fun _ => rfl)))

/-- The whole of a message. -/
theorem serializeObject_encodes (Γ : Jvm) (m : RequestMessage) :
    Encodes (serializeObject Γ [m.toObj] 2 (.object 0))
      (Frame.payload m.requestType m.requestID (m.data.map getBytes)) [] [0] := by
  refine (writing_encodes (ByteBuffer.writeByte_writes 1) []).bind (Puts.get fun _ => ?_)
  refine (writing_encodes (ByteBuffer.writeByte_writes 0) []).bind ?_
  refine Puts.skip (fun _ => rfl) ?_
  have hclass : Γ.forName m.toObj.className = some requestMessageClass := Γ.forName_requestMessage
  simp only [hclass]
  refine (writeMetadata_encodes [0]).bind ?_
  have hfields : serializableFields requestMessageClass = requestMessageClass.declaredFields := by decide
  rw [hfields]
  have hend : Encodes (pure ()) [] [0] [0] := Puts.nothing fun _ => rfl
  have hdata := (writeValue_string_encodes (serializeObject Γ [m.toObj] 1) m.data [0]).bind hend
  rw [List.append_nil] at hdata
  exact (writeValue_int_encodes _ m.requestType [0]).bind ((writeValue_int_encodes _ m.requestID [0]).bind hdata)

/-- What the encoder writes and its parity are the frame, if they fit the buffer. -/
theorem serialize_cases {Γ : Jvm} {heap : List Obj} {obj : Value} {payload : Bytes} {objects : List Nat}
    (h : Encodes (serializeObject Γ heap (heap.length + 1) obj) payload [] objects) :
    ((Frame.withParity payload).length ≤ capacity ∧ serialize Γ heap obj = .ok (Frame.withParity payload)) ∨
    (capacity < (Frame.withParity payload).length ∧ ∃ x, serialize Γ heap obj = .error x) := by
  unfold serialize
  rcases h ⟨capacity, [], Nat.zero_le _⟩ with ⟨hfits, hok⟩ | ⟨hlong, x, herr⟩
  · simp only [List.nil_append] at hfits hok
    rcases ByteBuffer.writeByte_writes (Parity.calculateEvenParityBit payload) ⟨capacity, payload, hfits⟩ with
      ⟨hfits', hok'⟩ | ⟨hlong', x, herr'⟩
    · refine Or.inl ⟨hfits', ?_⟩
      simp only [hok, bind, Except.bind, hok']
      rfl
    · refine Or.inr ⟨hlong', x, ?_⟩
      simp only [hok, bind, Except.bind, herr']
  · refine Or.inr ⟨?_, x, ?_⟩
    · rw [Frame.withParity, List.length_append]
      exact Nat.lt_add_right _ hlong
    · simp only [herr, bind, Except.bind]

end Serializer

/-- The Java serializer writes the frame if the frame fits its buffer, and throws if it does not. -/
theorem serializeMessage_cases (Γ : Jvm) (m : RequestMessage) :
    (m.frame.length ≤ Serializer.capacity ∧ serializeMessage Γ m = .ok m.frame) ∨
    (Serializer.capacity < m.frame.length ∧ ∃ x, serializeMessage Γ m = .error x) :=
  Serializer.serialize_cases (Serializer.serializeObject_encodes Γ m)

/-! ## The Java reader -/

namespace ByteReader

theorem readByte_reads (b : UInt8) : Reads readByte [b] b := fun _ => rfl

theorem readInt_reads (v : BitVec 32) : Reads readInt (Frame.int v) v := by
  have h := (readByte_reads (byteAt v 24)).bind (f := fun b₀ => do
    let b₁ ← readByte
    let b₂ ← readByte
    let b₃ ← readByte
    return shifted 32 b₀ 24 ||| shifted 32 b₁ 16 ||| shifted 32 b₂ 8 ||| shifted 32 b₃ 0)
    ((readByte_reads (byteAt v 16)).bind ((readByte_reads (byteAt v 8)).bind ((readByte_reads (byteAt v 0)).map)))
  rw [word32_byteAt] at h
  rw [Frame.int, bytes_word32]
  exact h

theorem readString_reads (Γ : Jvm) {bs : Bytes} (h : bs.length < 2 ^ 31) :
    Reads (readString Γ) (Frame.string bs) (Γ.newString bs) := by
  refine (readInt_reads _).bind ?_
  rw [toInt_length h, if_neg (by omega)]
  exact (Reads.times readByte_reads bs).map

theorem readByte_sound {items : Bytes} {b : UInt8} {left : Bytes} (h : readByte items = .ok (b, left)) : items = b :: left := by
  cases items with
  | nil => cases h
  | cons b' items =>
    cases h
    rfl

theorem readInt_sound {items : Bytes} {v : BitVec 32} {left : Bytes} (h : readInt items = .ok (v, left)) :
    items = Frame.int v ++ left := by
  obtain ⟨b₀, mid₀, h₀, h⟩ := bind_ok h
  obtain ⟨b₁, mid₁, h₁, h⟩ := bind_ok h
  obtain ⟨b₂, mid₂, h₂, h⟩ := bind_ok h
  obtain ⟨b₃, mid₃, h₃, h⟩ := bind_ok h
  cases h
  rw [Frame.int, bytes_shifted, readByte_sound h₀, readByte_sound h₁, readByte_sound h₂, readByte_sound h₃]
  rfl

theorem readString_sound {Γ : Jvm} {items : Bytes} {t : Text} {left : Bytes} (h : readString Γ items = .ok (t, left)) :
    ∃ bs, items = Frame.string bs ++ left ∧ bs.length < 2 ^ 31 ∧ t = Γ.newString bs := by
  obtain ⟨length, mid, hlength, hnext⟩ := bind_ok h
  split at hnext
  · cases hnext
  · rename_i hnonneg
    obtain ⟨bs, left', hbytes, hreturn⟩ := bind_ok hnext
    cases hreturn
    obtain ⟨rfl, hcount⟩ := times_sound (fun _ _ _ => readByte_sound) hbytes
    have hlt := BitVec.toInt_lt (x := length)
    have hofNat : BitVec.ofNat 32 bs.length = length := by
      rw [hcount]
      apply BitVec.eq_of_toInt_eq
      rw [toInt_length (by omega)]
      omega
    refine ⟨bs, ?_, by omega, rfl⟩
    rw [Frame.string, hofNat, readInt_sound hlength, List.append_assoc]

/-- A string that would be longer than what is left is not read. -/
theorem readString_of_length_lt (Γ : Jvm) (length : BitVec 32) (left : Bytes) (hlength : 0 ≤ length.toInt)
    (h : left.length < length.toInt.toNat) : ∃ x, readString Γ (Frame.int length ++ left) = .error x := by
  have hrun : readString Γ (Frame.int length ++ left) = (readInt (Frame.int length ++ left) >>= fun p =>
      (if p.1.toInt < 0 then throw (.negativeArraySize p.1.toInt) else do
        let bytes ← Stream.times readByte p.1.toInt.toNat
        return Γ.newString bytes : Read Text) p.2) := rfl
  have htakes : ∀ items b left, readByte items = .ok (b, left) → left.length < items.length := by
    intro items b left hread
    rw [readByte_sound hread]
    exact Nat.lt_succ_self _
  obtain ⟨x, hx⟩ := times_of_length_lt htakes h
  refine ⟨x, ?_⟩
  rw [hrun, readInt_reads length left]
  show (if length.toInt < 0 then throw (.negativeArraySize length.toInt) else do
    let bytes ← Stream.times readByte length.toInt.toNat
    return Γ.newString bytes : Read Text) left = _
  rw [if_neg (by omega)]
  show (Stream.times readByte length.toInt.toNat left >>= _) = _
  rw [hx]
  rfl

end ByteReader

namespace Serializer

/-- A step of the decoder that takes these bytes and turns the objects and the heap into others. -/
abbrev Decodes {α : Type} (d : Decode α) (bs : Bytes) (s : List Value × List Obj) (a : α) (s' : List Value × List Obj) :
    Prop := Takes (fun left s => ⟨left, s.1, s.2⟩) d bs s a s'

/-- A step of the decoder that takes these bytes and goes on as another, with other objects and another heap. -/
abbrev Goes {α : Type} (d : Decode α) (bs : Bytes) (s : List Value × List Obj) (d' : Decode α) (s' : List Value × List Obj) :
    Prop := Leads (fun left s => ⟨left, s.1, s.2⟩) d bs s d' s'

section

variable {Γ : Jvm} {s : List Value × List Obj}

theorem reading_decodes {α : Type} {r : Read α} {bs : Bytes} {a : α} (h : Reads r bs a) : Decodes (reading r) bs s a s := by
  intro rest
  unfold reading
  simp only [h rest]

/-- What is computed without reading. -/
theorem lift_decodes {α : Type} {x : Java α} {a : α} (h : x = .ok a) : Decodes (liftM x) [] s a s := by
  subst h
  exact fun _ => rfl

theorem getClassFromName_int : getClassFromName Γ "int".toList = .ok (.primitive .int) := rfl

theorem getClassFromName_string : getClassFromName Γ "java.lang.String".toList = .ok .string := by
  have h : getClassFromName Γ "java.lang.String".toList =
      if (Γ.forName "java.lang.String".toList).isSome then .ok .string
      else .error (.classNotFound "java.lang.String".toList) := rfl
  rw [h, if_pos Γ.forName_string]

theorem getClassFromName_requestMessage :
    getClassFromName Γ "Server.RequestMessage".toList = .ok (.object "Server.RequestMessage".toList) := by
  have h : getClassFromName Γ "Server.RequestMessage".toList =
      if (Γ.forName "Server.RequestMessage".toList).isSome then .ok (.object "Server.RequestMessage".toList)
      else .error (.classNotFound "Server.RequestMessage".toList) := rfl
  rw [h, Γ.forName_requestMessage]
  rfl

/-- The fields of the class `RequestMessage`, with the types a message names for them. -/
def messageFields : List (Field × JClass) := requestMessageClass.declaredFields.map (fun f => (f, f.type))

theorem readName_decodes {n : String} (h : (getBytes n.toList).length < 2 ^ 31) :
    Decodes (reading (ByteReader.readString Γ)) (Frame.name n) s n.toList s := by
  have hread := reading_decodes (s := s) (ByteReader.readString_reads Γ h)
  rwa [Γ.newString_getBytes] at hread

/-- The metadata of one field, and of the others. -/
theorem readMetadata_succ {n : Nat} {fieldName fieldType : String} {field : Field} {c : JClass} {bs : Bytes}
    {fields : List (Field × JClass)} (hname : (getBytes fieldName.toList).length < 2 ^ 31)
    (htype : (getBytes fieldType.toList).length < 2 ^ 31)
    (hfind : requestMessageClass.declaredFields.find? (fun f => decide (f.name = fieldName.toList)) = some field)
    (hclass : getClassFromName Γ fieldType.toList = .ok c)
    (hrest : Decodes (readMetadata Γ requestMessageClass n) bs s fields s) :
    Decodes (readMetadata Γ requestMessageClass (n + 1)) ((Frame.name fieldName ++ Frame.name fieldType) ++ bs) s
      ((field, c) :: fields) s := by
  rw [List.append_assoc]
  refine (readName_decodes hname).bind ((readName_decodes htype).bind ?_)
  simp only [hfind]
  exact (lift_decodes hclass).bind hrest.map

theorem readMetadata_decodes : Decodes (readMetadata Γ requestMessageClass 3) Frame.metadata s messageFields s :=
  readMetadata_succ (by decide) (by decide) (by decide) getClassFromName_int
    (readMetadata_succ (by decide) (by decide) (by decide) getClassFromName_int
      (readMetadata_succ (by decide) (by decide) (by decide) getClassFromName_string (Takes.pure _ _)))

/-- What `Field.set` stores of an `int` in a field of type `int`. -/
theorem fit_int (heap : List Obj) (v : BitVec 32) : fit Γ heap (.primitive .int) (.int v) = .ok (.int v) := rfl

/-- An array fits a place of its own type. -/
theorem fit_array (heap : List Obj) (component : JClass) (elements : List Value) :
    fit Γ heap (.array component) (.array component elements) = .ok (.array component elements) := by
  have hfit : fit Γ heap (.array component) (.array component elements) =
      if Γ.isAssignable (.array component) (.array component) then .ok (.array component elements)
      else .error (.illegalArgument "argument type mismatch".toList) := rfl
  rw [hfit, if_pos (Γ.isAssignable_refl _)]

/-- What it stores of a string or a null in a field of type `String`. -/
theorem fit_string (heap : List Obj) (d : Option Text) :
    fit Γ heap .string (.ofText d) = .ok (.ofText d) := by
  cases d with
  | none => rfl
  | some t =>
    have h : fit Γ heap .string (.string t) = if Γ.isAssignable .string .string then .ok (.string t)
      else .error (.illegalArgument "argument type mismatch".toList) := rfl
    rw [Value.ofText, h, if_pos (Γ.isAssignable_refl .string)]

theorem setField_decodes {objects : List Value} {heap : List Obj} {reference : Nat} {field : Field} {value v : Value}
    (h : fit Γ heap field.type value = .ok v) :
    Decodes (setField Γ (.object reference) field value) [] (objects, heap) ()
      (objects, heap.modify reference (fun o => o.set field.name v)) := by
  intro rest
  show (do
    let x ← (liftM (fit Γ heap field.type value) : Decode Value)
    set (⟨rest, objects, heap.modify reference (fun o => o.set field.name x)⟩ : Decoder)) ⟨rest, objects, heap⟩ = _
  rw [h]
  rfl

theorem newInstance_decodes {objects : List Value} {heap : List Obj} :
    Decodes (newInstance Γ (.object "Server.RequestMessage".toList)) [] (objects, heap)
      (.object heap.length, requestMessageClass) (objects, heap ++ [RequestMessage.toObj ⟨0, 0, none⟩]) := by
  intro rest
  unfold newInstance
  simp only [Γ.forName_requestMessage]
  rfl

theorem putObject_decodes {value : Value} {objects : List Value} {heap : List Obj} :
    Decodes (putObject value) [] (objects, heap) () (objects ++ [value], heap) := fun _ => rfl

/-- One field of the object, and then the others. -/
theorem readFields_leads {f : Decode Value} {objects : List Value} {heap : List Obj} {reference : Nat} {field : Field}
    {c : JClass} {value v : Value} {bs : Bytes} {rest : List (Field × JClass)} (hwritten : field.isStatic = false)
    (hkept : field.isTransient = false) (hread : Decodes (readValue Γ f c) bs s value (objects, heap))
    (hfit : fit Γ heap field.type value = .ok v) :
    Goes (readFields Γ f (.object reference) ((field, c) :: rest)) bs s (readFields Γ f (.object reference) rest)
      (objects, heap.modify reference (fun o => o.set field.name v)) := by
  have hset := hread.leads (f := fun value => setField Γ (.object reference) field value >>= fun _ =>
    readFields Γ f (.object reference) rest) ((setField_decodes hfit).leads (Leads.refl _ _))
  rw [readFields]
  simp only [hwritten, hkept, Bool.not_false, Bool.and_self, if_true]
  simpa only [List.nil_append, List.append_nil, bind_assoc] using hset

theorem readValue_int_decodes (f : Decode Value) (v : BitVec 32) :
    Decodes (readValue Γ f (.primitive .int)) (Frame.int v) s (.int v) s :=
  reading_decodes (ByteReader.readInt_reads v).map

/-- The field `data`, with the type a message names for it. -/
def dataField : Field × JClass := (⟨"data".toList, .string, false, false⟩, .string)

variable (Γ) in
/-- The whole of a message up to its data: the object is the only one, and its other fields hold the values. -/
theorem deserializeObject_leads {nullMarker referenceMarker : UInt8} (hnull : nullMarker ≠ 0) (href : referenceMarker ≠ 1)
    (requestType requestID : BitVec 32) (n : Nat) :
    Goes (deserializeObject Γ (n + 1)) (Frame.header nullMarker referenceMarker requestType requestID) ([], [])
      (readFields Γ (deserializeObject Γ n) (.object 0) [dataField] >>= fun _ => pure (.object 0))
      ([.object 0], [RequestMessage.toObj ⟨requestType, requestID, none⟩]) := by
  refine (reading_decodes (ByteReader.readByte_reads nullMarker)).leads ?_
  rw [if_neg hnull]
  refine (reading_decodes (ByteReader.readByte_reads referenceMarker)).leads ?_
  rw [if_neg href, Frame.classInfo, List.append_assoc, List.append_assoc]
  refine (readName_decodes (by decide)).leads ?_
  have hclass : Decodes (liftM (getClassFromName Γ "Server.RequestMessage".toList)) [] ([], [])
      (.object "Server.RequestMessage".toList) ([], []) := lift_decodes getClassFromName_requestMessage
  refine hclass.skipLeads (newInstance_decodes.skipLeads (putObject_decodes.skipLeads ?_))
  refine (reading_decodes (ByteReader.readInt_reads 3)).leads (readMetadata_decodes.leads ?_)
  -- the two numbers are set one after the other
  have htype : Goes (readFields Γ (deserializeObject Γ n) (.object 0) messageFields) (Frame.int requestType)
      ([.object 0], [RequestMessage.toObj ⟨0, 0, none⟩]) (readFields Γ (deserializeObject Γ n) (.object 0) (messageFields.drop 1))
      ([.object 0], [RequestMessage.toObj ⟨requestType, 0, none⟩]) :=
    readFields_leads rfl rfl (readValue_int_decodes _ requestType) (fit_int _ _)
  have hid : Goes (readFields Γ (deserializeObject Γ n) (.object 0) (messageFields.drop 1)) (Frame.int requestID)
      ([.object 0], [RequestMessage.toObj ⟨requestType, 0, none⟩]) (readFields Γ (deserializeObject Γ n) (.object 0) [dataField])
      ([.object 0], [RequestMessage.toObj ⟨requestType, requestID, none⟩]) :=
    readFields_leads rfl rfl (readValue_int_decodes _ requestID) (fit_int _ _)
  exact (htype.trans hid).bind _

variable (Γ) in
/-- Reading the data: a null marker, and a string unless it is zero. -/
def readText : Read (Option Text) := do
  let nullMarker ← ByteReader.readByte
  if nullMarker = 0 then
    return none
  else
    return some (← ByteReader.readString Γ)

theorem readText_reads {d : Option Bytes} (h : ∀ bs, d = some bs → bs.length < 2 ^ 31) :
    Reads (readText Γ) (Frame.data d) (d.map Γ.newString) := by
  cases d with
  | none => exact (ByteReader.readByte_reads 0).bind (Takes.pure _ _)
  | some bs => exact (ByteReader.readByte_reads 1).bind (ByteReader.readString_reads Γ (h bs rfl)).map

/-- Any marker but zero is followed by a string. -/
theorem readText_of_ne_zero {nullMarker : UInt8} (hnull : nullMarker ≠ 0) (rest : Bytes) :
    readText Γ (nullMarker :: rest) = (ByteReader.readString Γ rest).map (fun p => (some p.1, p.2)) := by
  have hrun : readText Γ (nullMarker :: rest) =
      (if nullMarker = 0 then pure none else (do return some (← ByteReader.readString Γ)) : Read (Option Text)) rest := rfl
  rw [hrun, if_neg hnull]
  show ((ByteReader.readString Γ rest >>= _) : Java _) = _
  cases ByteReader.readString Γ rest <;> rfl

/-- The value of a field of type `String` is what the text is. -/
theorem readValue_string (f : Decode Value) (s : Decoder) :
    readValue Γ f .string s = (readText Γ s.bytes).map (fun p => (.ofText p.1, { s with bytes := p.2 })) := by
  obtain ⟨bytes, objects, heap⟩ := s
  cases bytes with
  | nil => rfl
  | cons nullMarker rest =>
    have hvalue : readValue Γ f .string ⟨nullMarker :: rest, objects, heap⟩ =
        (if nullMarker = 0 then pure .null else (do return .string (← reading (ByteReader.readString Γ))) : Decode Value)
          ⟨rest, objects, heap⟩ := rfl
    have htext : readText Γ (nullMarker :: rest) =
        (if nullMarker = 0 then pure none else (do return some (← ByteReader.readString Γ)) : Read (Option Text)) rest := rfl
    rw [hvalue, htext]
    by_cases hnull : nullMarker = 0
    · rw [if_pos hnull, if_pos hnull]
      rfl
    · rw [if_neg hnull, if_neg hnull]
      show (reading (ByteReader.readString Γ) >>= fun t => pure (.string t) : Decode Value) ⟨rest, objects, heap⟩ =
        ((ByteReader.readString Γ >>= fun t => pure (some t) : Read (Option Text)) rest).map _
      cases hs : ByteReader.readString Γ rest with
      | error x =>
        show ((reading (ByteReader.readString Γ) ⟨rest, objects, heap⟩ >>= _) : Java _) = ((ByteReader.readString Γ rest >>= _) : Java _).map _
        rw [reading, hs]
        rfl
      | ok p =>
        show ((reading (ByteReader.readString Γ) ⟨rest, objects, heap⟩ >>= _) : Java _) = ((ByteReader.readString Γ rest >>= _) : Java _).map _
        rw [reading, hs]
        rfl

/-- The field `data` is set to the text that is read. -/
theorem readFields_data (f : Decode Value) (requestType requestID : BitVec 32) (tail : Bytes) :
    readFields Γ f (.object 0) [dataField] ⟨tail, [.object 0], [RequestMessage.toObj ⟨requestType, requestID, none⟩]⟩ =
      (readText Γ tail).map (fun p =>
        ((), ⟨p.2, [.object 0], [RequestMessage.toObj ⟨requestType, requestID, p.1⟩]⟩)) := by
  have hrun : readFields Γ f (.object 0) [dataField] ⟨tail, [.object 0], [RequestMessage.toObj ⟨requestType, requestID, none⟩]⟩ =
      (readValue Γ f .string ⟨tail, [.object 0], [RequestMessage.toObj ⟨requestType, requestID, none⟩]⟩ >>= fun p =>
        (setField Γ (.object 0) dataField.1 p.1 >>= fun _ => pure () : Decode Unit) p.2) := rfl
  rw [hrun, readValue_string]
  cases readText Γ tail with
  | error x => rfl
  | ok p =>
    have hset := @setField_decodes Γ [.object 0] [RequestMessage.toObj ⟨requestType, requestID, none⟩] 0 dataField.1 _ _
      (fit_string _ p.1) p.2
    show (setField Γ (.object 0) dataField.1 (.ofText p.1) >>= fun _ => pure () : Decode Unit)
      ⟨p.2, [.object 0], [RequestMessage.toObj ⟨requestType, requestID, none⟩]⟩ = _
    show ((setField Γ (.object 0) dataField.1 (.ofText p.1) _ >>= _) : Java _) = _
    rw [List.nil_append] at hset
    rw [hset]
    rfl

/-- The rest of a message is its data. -/
theorem readObject_data (f : Decode Value) (requestType requestID : BitVec 32) (tail : Bytes) :
    (readFields Γ f (.object 0) [dataField] >>= fun _ => pure (.object 0) : Decode Value)
        ⟨tail, [.object 0], [RequestMessage.toObj ⟨requestType, requestID, none⟩]⟩ =
      (readText Γ tail).map (fun p =>
        (.object 0, ⟨p.2, [.object 0], [RequestMessage.toObj ⟨requestType, requestID, p.1⟩]⟩)) := by
  show ((readFields Γ f (.object 0) [dataField] _ >>= _) : Java _) = _
  rw [readFields_data]
  cases readText Γ tail <;> rfl

end

/-- Of bytes with their parity, those before it are decoded. -/
theorem deserialize_withParity (Γ : Jvm) (payload : Bytes) : deserialize Γ (Frame.withParity payload) =
    (deserializeObject Γ (payload.length + 1) ⟨payload, [], []⟩).map (fun p => (p.1, p.2.heap)) := by
  have hlast : (Frame.withParity payload).getLast? = some (Parity.calculateEvenParityBit payload) := List.getLast?_concat
  have hinit : (Frame.withParity payload).dropLast = payload := List.dropLast_concat
  unfold deserialize
  simp only [hlast, hinit, ne_eq, not_true_eq_false, if_false]
  cases deserializeObject Γ (payload.length + 1) ⟨payload, [], []⟩ <;> rfl

end Serializer

/-- What the Java deserializer makes of bytes that begin as a message does: it reads the data from what is left before the
parity. -/
theorem deserializeMessage_header (Γ : Jvm) {nullMarker referenceMarker : UInt8} (hnull : nullMarker ≠ 0)
    (href : referenceMarker ≠ 1) (requestType requestID : BitVec 32) (tail : Bytes) :
    deserializeMessage Γ (Frame.withParity (Frame.header nullMarker referenceMarker requestType requestID ++ tail)) =
      (Serializer.readText Γ tail).map (fun p => ⟨requestType, requestID, p.1⟩) := by
  have hrun := Serializer.deserializeObject_leads Γ hnull href requestType requestID
    (Frame.header nullMarker referenceMarker requestType requestID ++ tail).length tail
  generalize Frame.header nullMarker referenceMarker requestType requestID ++ tail = payload at hrun ⊢
  rw [deserializeMessage, Serializer.deserialize_withParity, hrun, Serializer.readObject_data]
  cases Serializer.readText Γ tail with
  | error x => rfl
  | ok p =>
    have hobj : RequestMessage.ofObj (RequestMessage.toObj ⟨requestType, requestID, p.1⟩) = ⟨requestType, requestID, p.1⟩ := by
      cases p.1 <;> rfl
    simp only [Except.map, bind, Except.bind, pure, Except.pure, List.getElem?_cons_zero]
    rw [if_pos (show (RequestMessage.toObj _).className = "Server.RequestMessage".toList from rfl), hobj]

/-- The Java deserializer reads a message from a frame, the text of its data being what the bytes stand for. -/
theorem deserializeMessage_payload (Γ : Jvm) (requestType requestID : BitVec 32) {d : Option Bytes}
    (h : ∀ bs, d = some bs → bs.length < 2 ^ 31) :
    deserializeMessage Γ (Frame.withParity (Frame.payload requestType requestID d)) =
      .ok ⟨requestType, requestID, d.map Γ.newString⟩ := by
  have htext := @Serializer.readText_reads Γ d h []
  rw [List.append_nil] at htext
  rw [Frame.payload_eq, deserializeMessage_header Γ (by decide) (by decide), htext]
  rfl

/-- What the Java deserializer reads a message from ends in its parity. -/
theorem withParity_of_deserializeMessage {Γ : Jvm} {b : Bytes} {m : RequestMessage} (h : deserializeMessage Γ b = .ok m) :
    b = Frame.withParity b.dropLast := by
  unfold deserializeMessage Serializer.deserialize at h
  cases hlast : b.getLast? with
  | none =>
    rw [hlast] at h
    cases h
  | some receivedParityBit =>
    rw [hlast] at h
    by_cases hparity : Parity.calculateEvenParityBit b.dropLast = receivedParityBit
    · rw [Frame.withParity, hparity]
      exact (List.dropLast_append_getLast? receivedParityBit hlast).symm
    · simp only [ne_eq, hparity, not_false_eq_true, if_true] at h
      cases h

/-- The beginning of a frame, cut off within the bytes of its data, without its last byte. -/
theorem Frame.dropLast_take {requestType requestID : BitVec 32} {bs : Bytes} {n : Nat} (hn : 114 < n)
    (hcut : n < (withParity (payload requestType requestID (some bs))).length) :
    n - 115 < bs.length ∧ ((withParity (payload requestType requestID (some bs))).take n).dropLast =
      header 1 0 requestType requestID ++ (1 :: (int (BitVec.ofNat 32 bs.length) ++ bs.take (n - 115))) := by
  have hframe : withParity (payload requestType requestID (some bs)) =
      (header 1 0 requestType requestID ++ (1 :: int (BitVec.ofNat 32 bs.length))) ++
        (bs ++ [Parity.calculateEvenParityBit (payload requestType requestID (some bs))]) := by
    rw [withParity, payload_eq, data, string]
    simp only [List.append_assoc, List.cons_append, List.nil_append]
  have hstart : (header 1 0 requestType requestID ++ (1 :: int (BitVec.ofNat 32 bs.length))).length = 114 := by
    rw [List.length_append, length_header, List.length_cons, int, length_bytes]
  have hlength := congrArg List.length hframe
  rw [List.length_append, hstart, List.length_append, List.length_singleton] at hlength
  have hwithin : n - 115 < bs.length := by omega
  refine ⟨hwithin, ?_⟩
  rw [List.dropLast_take hcut, hframe, show n - 1 = 114 + (n - 115) by omega, ← hstart, List.take_length_add_append,
    List.take_append_of_le_length hwithin.le, List.append_assoc, List.cons_append]

/-- A frame that is cut off within the bytes of its data is not read. -/
theorem deserializeMessage_cut (Γ : Jvm) (requestType requestID : BitVec 32) {bs : Bytes} (hbs : bs.length < 2 ^ 31) {n : Nat}
    (hn : 114 < n) (hcut : n < (Frame.withParity (Frame.payload requestType requestID (some bs))).length) :
    ∃ x, deserializeMessage Γ ((Frame.withParity (Frame.payload requestType requestID (some bs))).take n) = .error x := by
  obtain ⟨hwithin, hinit⟩ := @Frame.dropLast_take requestType requestID bs n hn hcut
  cases hm : deserializeMessage Γ ((Frame.withParity (Frame.payload requestType requestID (some bs))).take n) with
  | error x => exact ⟨x, rfl⟩
  | ok m =>
    -- the bytes that are left are fewer than the length before them
    have hlength := toInt_length hbs
    obtain ⟨x, hx⟩ := ByteReader.readString_of_length_lt Γ (BitVec.ofNat 32 bs.length) (bs.take (n - 115)) (by omega)
      (by rw [hlength, Int.toNat_natCast, List.length_take]; omega)
    rw [withParity_of_deserializeMessage hm, hinit, deserializeMessage_header Γ (by decide) (by decide),
      Serializer.readText_of_ne_zero (by decide), hx] at hm
    cases hm

/-- The Java deserializer reads a message back from its frame. -/
theorem deserializeMessage_frame (Γ : Jvm) (m : RequestMessage) (h : ∀ t, m.data = some t → (getBytes t).length < 2 ^ 31) :
    deserializeMessage Γ m.frame = .ok m := by
  have hdata : (m.data.map getBytes).map Γ.newString = m.data := by
    cases m.data with
    | none => rfl
    | some t => exact congrArg some (Γ.newString_getBytes t)
  rw [RequestMessage.frame, deserializeMessage_payload Γ m.requestType m.requestID, hdata]
  intro bs hbs
  obtain ⟨t, ht, rfl⟩ := Option.map_eq_some_iff.1 hbs
  exact h t ht

end FacilityBooking
