import FacilityBooking.Lemmas.JavaCodec

/-!
# Objects of any class on the wire

The names of classes and of their fields, and the steps of the serializer that hold for every class: the header of an object, the
metadata read back from it, a new object made and its fields set one by one.
-/

namespace FacilityBooking

open BigEndian Stream

/-! ## Words of 64 bits -/

/-- A `long`. -/
def Frame.long (v : BitVec 64) : Bytes := bytes 8 v.toNat

theorem ByteBuffer.writeLong_writes (value : BitVec 64) : Writes (writeLong value) (Frame.long value) := by
  rw [Frame.long, bytes_word64]
  exact (writeByte_writes _).bind ((writeByte_writes _).bind ((writeByte_writes _).bind ((writeByte_writes _).bind
    ((writeByte_writes _).bind ((writeByte_writes _).bind ((writeByte_writes _).bind (writeByte_writes _)))))))

theorem ByteReader.readLong_reads (v : BitVec 64) : Reads readLong (Frame.long v) v := by
  have h := (readByte_reads (byteAt v 56)).bind (f := fun b₀ => do
    let b₁ ← readByte
    let b₂ ← readByte
    let b₃ ← readByte
    let b₄ ← readByte
    let b₅ ← readByte
    let b₆ ← readByte
    let b₇ ← readByte
    return shifted 64 b₀ 56 ||| shifted 64 b₁ 48 ||| shifted 64 b₂ 40 ||| shifted 64 b₃ 32 ||| shifted 64 b₄ 24 |||
      shifted 64 b₅ 16 ||| shifted 64 b₆ 8 ||| shifted 64 b₇ 0)
    ((readByte_reads (byteAt v 48)).bind ((readByte_reads (byteAt v 40)).bind ((readByte_reads (byteAt v 32)).bind
      ((readByte_reads (byteAt v 24)).bind ((readByte_reads (byteAt v 16)).bind ((readByte_reads (byteAt v 8)).bind
        ((readByte_reads (byteAt v 0)).map)))))))
  rw [word64_byteAt] at h
  rw [Frame.long, bytes_word64]
  exact h

theorem ByteBuffer.writeDouble_writes (value : Double) : Writes (writeDouble value) (Frame.long value.doubleToLongBits) :=
  writeLong_writes value.doubleToLongBits

theorem ByteReader.readDouble_reads (bits : BitVec 64) : Reads readDouble (Frame.long bits) (Double.longBitsToDouble bits) :=
  (readLong_reads bits).map

/-! ## Names of classes -/

/-- A name that `Class.forName` knows, and that is neither the keyword of a primitive type nor the name of an array class. -/
structure IsClassName (Γ : Jvm) (name : Text) : Prop where
  keyword : ∀ p : Primitive, p.getName ≠ name
  array : name.head? ≠ some '['
  known : (Γ.forName name).isSome = true

/-- The types that a field may have, and that can be named. -/
def Nameable (Γ : Jvm) : JClass → Prop
  | .primitive p => p ≠ .void
  | .array component => component.dimensions < 255 ∧ Nameable Γ component
  | .object name => IsClassName Γ name

namespace Serializer

variable {Γ : Jvm}

/-- A class is told by its descriptor. -/
theorem ofDescriptor_descriptor {c : JClass} (h : Nameable Γ c) : JClass.ofDescriptor c.descriptor = some c := by
  induction c with
  | primitive p =>
    cases p with
    | void => exact absurd rfl h
    | _ => rfl
  | array component ih =>
    rw [JClass.descriptor, JClass.ofDescriptor, ih h.2]
    rfl
  | object name =>
    rw [JClass.descriptor, List.cons_append, JClass.ofDescriptor]
    · rw [List.getLast?_concat, if_pos rfl, List.dropLast_concat]

/-- The elements of an array of such a type have a class. -/
theorem isLoadable_of_nameable {c : JClass} (h : Nameable Γ c) : c.isLoadable Γ = true := by
  induction c with
  | primitive p => rfl
  | array component ih => exact ih h.2
  | object name =>
    obtain ⟨_, harray, hknown⟩ := h
    rw [JClass.isLoadable, hknown, decide_eq_true harray]
    rfl

/-- No primitive type has the name of an array class. -/
theorem getName_ne_array (p : Primitive) (descriptor : Text) : p.getName ≠ '[' :: descriptor := by
  intro h
  have hhead := congrArg List.head? h
  cases p <;> cases hhead

theorem getClassFromName_of_not_keyword {name : Text} (h : ∀ p : Primitive, p.getName ≠ name) :
    getClassFromName Γ name = classForName Γ name := by
  unfold getClassFromName
  rw [List.find?_eq_none.2 fun p _ => by rw [decide_eq_true_eq]; exact h p]

theorem getClassFromName_object {name : Text} (h : IsClassName Γ name) : getClassFromName Γ name = .ok (.object name) := by
  rw [getClassFromName_of_not_keyword h.keyword]
  unfold classForName
  split
  · exact absurd rfl h.array
  · rw [if_pos h.known]

/-- A type is found by its name. -/
theorem getClassFromName_getName {c : JClass} (h : Nameable Γ c) : getClassFromName Γ c.getName = .ok c := by
  cases c with
  | primitive p => cases p <;> rfl
  | array component =>
    rw [JClass.getName, getClassFromName_of_not_keyword fun p => getName_ne_array p _, classForName]
    simp only [ofDescriptor_descriptor h.2]
    rw [if_pos ⟨h.1, isLoadable_of_nameable h.2⟩]
  | object name => exact getClassFromName_object h

end Serializer

/-! ## Fields of an object -/

namespace Obj

variable {o : Obj} {name name' : Text} {v : Value}

/-- The names of the fields stay. -/
@[simp] theorem names_set : (o.set name v).fields.map Prod.fst = o.fields.map Prod.fst := by
  simp only [set, List.map_map]
  refine List.map_congr_left fun field _ => ?_
  simp only [Function.comp_apply]
  split <;> rfl

theorem get_set_self (h : name ∈ o.fields.map Prod.fst) : (o.set name v).get name = v := by
  obtain ⟨className, fields⟩ := o
  simp only [get, set] at h ⊢
  induction fields with
  | nil => cases h
  | cons field fields ih =>
    obtain ⟨n, old⟩ := field
    by_cases hname : n = name
    · simp only [List.map_cons, hname, if_true, List.lookup_cons, beq_self_eq_true, Option.getD_some]
    · have hne : (name == n) = false := beq_eq_false_iff_ne.2 fun heq => hname heq.symm
      rw [List.map_cons, List.mem_cons] at h
      simp only [List.map_cons, if_neg hname, List.lookup_cons, hne]
      exact ih (h.resolve_left fun heq => hname heq.symm)

theorem get_set_of_ne (h : name' ≠ name) : (o.set name v).get name' = o.get name' := by
  obtain ⟨className, fields⟩ := o
  simp only [get, set]
  induction fields with
  | nil => rfl
  | cons field fields ih =>
    obtain ⟨n, old⟩ := field
    by_cases hname : n = name
    · have hne : (name' == name) = false := beq_eq_false_iff_ne.2 h
      simp only [List.map_cons, hname, if_true, List.lookup_cons, hne]
      exact ih
    · simp only [List.map_cons, if_neg hname, List.lookup_cons]
      split
      · rfl
      · exact ih

end Obj

/-! ## The class of an object -/

/-- The name and the type of a field. -/
def Frame.fieldInfo (field : Field) : Bytes := string (getBytes field.name) ++ string (getBytes field.type.getName)

/-- A class and its fields. -/
def Frame.classHeader (className : Text) (cls : ClassInfo) : Bytes :=
  string (getBytes className) ++
    (int (BitVec.ofNat 32 (Serializer.serializableFields cls).length) ++ (Serializer.serializableFields cls).flatMap fieldInfo)

/-- There are fewer fields than bytes. -/
theorem Frame.length_le_classHeader (className : Text) (cls : ClassInfo) :
    (Serializer.serializableFields cls).length ≤ (classHeader className cls).length := by
  rw [classHeader, List.length_append, List.length_append]
  generalize Serializer.serializableFields cls = fields
  suffices h : fields.length ≤ (fields.flatMap fieldInfo).length by omega
  induction fields with
  | nil => exact Nat.le_refl _
  | cons field fields ih =>
    simp only [List.flatMap_cons, List.length_cons, List.length_append, fieldInfo, string, int, length_bytes]
    omega

/-- What reflection grants and finds of a class whose objects are sent: access to its fields, which have different names and types
that can be named, and a constructor without arguments that makes an object with these fields. -/
structure IsSendable (Γ : Jvm) (cls : ClassInfo) : Prop where
  accessible : cls.accessible = true
  names : (cls.declaredFields.map Field.name).Nodup
  types : ∀ field ∈ Serializer.serializableFields cls, Nameable Γ field.type
  constructed : ∃ fields, cls.newInstance = some fields ∧
    ∀ field ∈ Serializer.serializableFields cls, field.name ∈ fields.map Prod.fst

theorem IsSendable.nodup {Γ : Jvm} {cls : ClassInfo} (h : IsSendable Γ cls) :
    ((Serializer.serializableFields cls).map Field.name).Nodup := (List.Sublist.map _ List.filter_sublist).nodup h.names

namespace Serializer

variable {Γ : Jvm} {cls : ClassInfo} {s : List Value × List Obj}

theorem writeMetadata_writes (h : cls.accessible = true) (className : Text) (objects : List Nat) :
    Encodes (writeMetadata className cls) (Frame.classHeader className cls) objects objects := by
  have hstring : ∀ t : Text, Encodes (writing (ByteBuffer.writeString t)) (Frame.string (getBytes t)) objects objects :=
    fun t => writing_encodes (ByteBuffer.writeString_writes t) objects
  refine (hstring _).bind ((writing_encodes (ByteBuffer.writeInt_writes _) objects).bind (Puts.forM _ fun field _ => ?_))
  rw [if_pos h]
  exact (hstring _).bind (hstring _)

theorem readString_decodes {t : Text} (h : (getBytes t).length < 2 ^ 31) :
    Decodes (reading (ByteReader.readString Γ)) (Frame.string (getBytes t)) s t s := by
  have hread := reading_decodes (s := s) (ByteReader.readString_reads Γ h)
  rwa [Γ.newString_getBytes] at hread

/-- A field is found by its name. -/
theorem find?_name (hnames : (cls.declaredFields.map Field.name).Nodup) {field : Field} (hfield : field ∈ cls.declaredFields) :
    cls.declaredFields.find? (fun f => decide (f.name = field.name)) = some field := by
  generalize cls.declaredFields = fields at hnames hfield
  induction fields with
  | nil => cases hfield
  | cons f fields ih =>
    rw [List.map_cons, List.nodup_cons] at hnames
    rcases List.mem_cons.1 hfield with rfl | hrest
    · exact List.find?_cons_of_pos (decide_eq_true rfl)
    · have hne : f.name ≠ field.name := fun heq => hnames.1 (heq ▸ List.mem_map_of_mem hrest)
      rw [List.find?_cons_of_neg (by rwa [decide_eq_true_eq])]
      exact ih hnames.2 hrest

theorem mem_declaredFields {field : Field} (h : field ∈ serializableFields cls) : field ∈ cls.declaredFields :=
  (List.mem_filter.1 h).1

theorem written_of_mem {field : Field} (h : field ∈ serializableFields cls) : field.isStatic = false ∧ field.isTransient = false := by
  have hboth := (List.mem_filter.1 h).2
  rwa [Bool.and_eq_true, Bool.not_eq_true', Bool.not_eq_true'] at hboth

/-- The metadata of some fields is read back. -/
theorem readMetadata_reads (haccessible : cls.accessible = true) (hnames : (cls.declaredFields.map Field.name).Nodup)
    (fields : List Field) (hfields : ∀ field ∈ fields, field ∈ cls.declaredFields ∧ Nameable Γ field.type)
    (hlength : (fields.flatMap Frame.fieldInfo).length < 2 ^ 31) :
    Decodes (readMetadata Γ cls fields.length) (fields.flatMap Frame.fieldInfo) s (fields.map (fun f => (f, f.type))) s := by
  induction fields with
  | nil => exact Takes.pure _ _
  | cons field fields ih =>
    rw [List.forall_mem_cons] at hfields
    rw [List.flatMap_cons] at hlength ⊢
    simp only [Frame.fieldInfo, Frame.string, List.length_append] at hlength
    rw [Frame.fieldInfo, List.append_assoc]
    refine (readString_decodes (by omega)).bind ((readString_decodes (by omega)).bind ?_)
    simp only [find?_name hnames hfields.1.1, haccessible, if_true]
    exact (lift_decodes (getClassFromName_getName hfields.1.2)).bind (ih hfields.2 (by omega)).map

/-- A new object at the end of the heap. -/
theorem newInstance_makes {name : Text} {fields : List (Text × Value)} (hclass : Γ.forName name = some cls)
    (hnew : cls.newInstance = some fields) (hstring : JClass.object name ≠ .string) {objects : List Value} {heap : List Obj} :
    Decodes (newInstance Γ (.object name)) [] (objects, heap) (.object heap.length, cls) (objects, heap ++ [⟨name, fields⟩]) := by
  intro rest
  unfold newInstance
  simp only [hclass, hnew, if_neg hstring]
  rfl

/-! ## A new object -/

/-- What is written for an object that the encoder has not met. -/
theorem serializeObject_writes {heap : List Obj} {objects objects' : List Nat} {r : Nat} {o : Obj} {bytes : Bytes} {fuel : Nat}
    (hnew : r ∉ objects) (ho : heap[r]? = some o) (hclass : Γ.forName o.className = some cls) (haccessible : cls.accessible = true)
    (hfields : Encodes ((serializableFields cls).forM fun field =>
      writeValue (serializeObject Γ heap fuel) field.type (o.get field.name)) bytes (objects ++ [r]) objects') :
    Encodes (serializeObject Γ heap (fuel + 1) (.object r)) ([1] ++ ([0] ++ (Frame.classHeader o.className cls ++ bytes))) objects
      objects' := by
  refine (writing_encodes (ByteBuffer.writeByte_writes 1) objects).bind (Puts.get fun buffer => ?_)
  simp only [List.idxOf?_eq_none_iff.2 hnew, ho, hclass]
  have hobject := (writeMetadata_writes haccessible o.className (objects ++ [r])).bind hfields
  exact (writing_encodes (ByteBuffer.writeByte_writes 0) objects).bind (Puts.skip (fun _ => rfl) hobject)

/-- After the header of an object that the decoder has not made, the new object is there, at its handle, and its fields are read. -/
theorem deserializeObject_goes {name : Text} {defaults : List (Text × Value)} (hclass : Γ.forName name = some cls)
    (hname : IsClassName Γ name) (hobject : JClass.object name ≠ .string) (hsendable : IsSendable Γ cls)
    (hmade : cls.newInstance = some defaults) (hsize : (Frame.classHeader name cls).length < 2 ^ 31)
    (hcount : (serializableFields cls).length < 2 ^ 31) (objects : List Value) (heap : List Obj) (fuel : Nat) :
    Goes (deserializeObject Γ (fuel + 1)) ([1] ++ ([0] ++ Frame.classHeader name cls)) (objects, heap)
      (readFields Γ (deserializeObject Γ fuel) (.object heap.length) ((serializableFields cls).map fun field => (field, field.type)) >>=
        fun _ => pure (.object heap.length))
      (objects ++ [.object heap.length], heap ++ [⟨name, defaults⟩]) := by
  simp only [Frame.classHeader, Frame.string, List.length_append] at hsize
  have hfind : Decodes (liftM (getClassFromName Γ name)) [] (objects, heap) (.object name) (objects, heap) :=
    lift_decodes (getClassFromName_object hname)
  have hmetadata := readMetadata_reads (s := (objects ++ [.object heap.length], heap ++ [⟨name, defaults⟩]))
    hsendable.accessible hsendable.names (serializableFields cls)
    (fun field hfield => ⟨mem_declaredFields hfield, hsendable.types field hfield⟩) (by omega)
  refine (reading_decodes (ByteReader.readByte_reads 1)).leads ?_
  rw [if_neg (by decide)]
  refine (reading_decodes (ByteReader.readByte_reads 0)).leads ?_
  rw [if_neg (by decide), Frame.classHeader, ← List.append_nil ((serializableFields cls).flatMap Frame.fieldInfo)]
  refine (readString_decodes (by omega)).leads (hfind.skipLeads ((newInstance_makes hclass hmade hobject).skipLeads
    (putObject_decodes.skipLeads ?_)))
  refine (reading_decodes (ByteReader.readInt_reads _)).leads ?_
  rw [toInt_length hcount, Int.toNat_natCast]
  exact hmetadata.leads (Leads.refl _ _)

end Serializer

end FacilityBooking
