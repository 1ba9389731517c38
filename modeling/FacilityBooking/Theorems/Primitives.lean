import FacilityBooking.Theorems.Graphs

/-!
# Primitive fields

`writePrimitive` and `readPrimitive` name different types. Of an `int`, a `long` or a `double` the reader takes what the writer has
written; but of the doubles that are no number only one is ever written. Of a `float`, a `short`, a `char` or a `byte` the reader reads
null, which no field takes; and of a `boolean` it reads a byte that the writer has not written, so that in the end there is a byte too
few.
-/

namespace FacilityBooking

open Serializer Stream

/-! ## Values of primitive types -/

/-- A value of a primitive type. -/
def Primitive.Holds : Primitive → Value → Prop
  | .int, v => ∃ i, v = .int i
  | .long, v => ∃ i, v = .long i
  | .double, v => ∃ bits, v = .double bits
  | .float, v => ∃ bits, v = .float bits
  | .boolean, v => ∃ b, v = .boolean b
  | .byte, v => ∃ i, v = .byte i
  | .short, v => ∃ i, v = .short i
  | .char, v => ∃ i, v = .char i
  | .void, _ => False

/-- A primitive type, or an array type over one. -/
def JClass.IsPlain : JClass → Prop
  | .primitive p => p ≠ .void
  | .array component => component.IsPlain
  | .object _ => False

/-- A value of such a type. -/
def JClass.Holds : JClass → Value → Prop
  | .primitive p, v => p.Holds v
  | .array component, v => v = .null ∨ ∃ elements, v = .array component elements ∧ ∀ x ∈ elements, component.Holds x
  | .object _, _ => False

/-- A value of a type that the codec does not treat alike at both ends is there: a `float`, a `boolean`, a `byte`, a `short` or a `char`,
or one in an array. -/
def HasUneven : JClass → Value → Prop
  | .primitive p, _ => p ≠ .int ∧ p ≠ .long ∧ p ≠ .double
  | .array component, v => ∃ c elements, v = .array c elements ∧ ∃ x ∈ elements, HasUneven component x
  | .object _, _ => False

/-- A `double` that is no number is there, and not the one that `doubleToLongBits` makes of it, or such a one in an array. -/
def HasOtherNaN : JClass → Value → Prop
  | .primitive _, v => ∃ bits, v = .double bits ∧ Double.isNaN bits = true ∧ bits ≠ 0x7ff8000000000000
  | .array component, v => ∃ c elements, v = .array c elements ∧ ∃ x ∈ elements, HasOtherNaN component x
  | .object _, _ => False

/-- An object of a class with fields of such types. -/
structure IsPlainObject (Γ : Jvm) (o : Obj) (cls : ClassInfo) : Prop where
  found : Γ.forName o.className = some cls
  named : IsClassName Γ o.className
  object : JClass.object o.className ≠ .string
  sendable : IsSendable Γ cls
  types : ∀ field ∈ serializableFields cls, field.type.IsPlain
  fields : ∀ field ∈ serializableFields cls, field.type.Holds (o.get field.name)

/-- The bytes are deserialized to an object with the same values in all fields. -/
def RoundTrips (Γ : Jvm) (o : Obj) (cls : ClassInfo) (frame : Bytes) : Prop :=
  ∃ r heap' o', deserialize Γ frame = .ok (.object r, heap') ∧ heap'[r]? = some o' ∧ o'.className = o.className ∧
    ∀ field ∈ serializableFields cls, o'.get field.name = o.get field.name

/-! ## What is written -/

/-- What the writer writes of a primitive value. -/
def writtenPrimitive : Primitive → Value → Bytes
  | .int, .int i => Frame.int i
  | .long, .long i => Frame.long i
  | .double, .double bits => Frame.long (Double.doubleToLongBits bits)
  | .byte, .byte i => [UInt8.ofBitVec i]
  | _, _ => []

/-- What the writer writes of a value. -/
def written : JClass → Value → Bytes
  | .primitive p, v => writtenPrimitive p v
  | .array component, .array _ elements => Frame.int (BitVec.ofNat 32 elements.length) ++ elements.flatMap (written component)
  | .array _, _ => Frame.int (-1)
  | .object _, _ => []

theorem writtenPrimitive_writes (p : Primitive) (v : Value) : Writes (writePrimitive p v) (writtenPrimitive p v) := by
  have hnothing : Writes (pure ()) [] := Puts.nothing fun _ => rfl
  cases p with
  | int =>
    cases v with
    | int i => exact ByteBuffer.writeInt_writes i
    | _ => exact hnothing
  | long =>
    cases v with
    | long i => exact ByteBuffer.writeLong_writes i
    | _ => exact hnothing
  | double =>
    cases v with
    | double bits => exact ByteBuffer.writeDouble_writes bits
    | _ => exact hnothing
  | byte =>
    cases v with
    | byte i => exact ByteBuffer.writeByte_writes _
    | _ => exact hnothing
  | _ => cases v <;> exact hnothing

/-- The writer's bytes. -/
theorem written_encodes (f : Value → Encode Unit) (objects : List Nat) {c : JClass} {v : Value} (h : c.Holds v) :
    Encodes (writeValue f c v) (written c v) objects objects := by
  induction c generalizing v with
  | primitive p => exact writing_encodes (writtenPrimitive_writes p v) objects
  | array component ih =>
    rcases h with rfl | ⟨elements, rfl, helements⟩
    · exact writing_encodes (ByteBuffer.writeInt_writes (-1)) objects
    · exact (writing_encodes (ByteBuffer.writeInt_writes _) objects).bind (Puts.forM elements fun x hx => ih (helements x hx))
  | object name => exact h.elim

/-! ## What is read -/

/-- The number of `boolean` values, each a byte that is read and not written. -/
def booleans : JClass → Value → Nat
  | .primitive .boolean, _ => 1
  | .array component, .array _ elements => elements.foldr (fun x n => booleans component x + n) 0
  | _, _ => 0

/-- What one element adds is no more than the sum. -/
theorem le_foldr_add {α : Type} (g : α → Nat) {xs : List α} {x : α} (h : x ∈ xs) : g x ≤ xs.foldr (fun x n => g x + n) 0 := by
  induction xs with
  | nil => cases h
  | cons y xs ih =>
    rw [List.foldr_cons]
    rcases List.mem_cons.1 h with rfl | hrest
    · exact Nat.le_add_right _ _
    · exact (ih hrest).trans (Nat.le_add_left _ _)

/-- The decoder has gone on and made no object: it has taken as many bytes as these are, and some more. -/
structure Took (s s' : Decoder) (bytes : Bytes) (more : Nat) : Prop where
  objects : s'.deserializedObjects = s.deserializedObjects
  heap : s'.heap = s.heap
  length : s.bytes.length = s'.bytes.length + bytes.length + more

theorem Took.trans {s s' s'' : Decoder} {bytes bytes' : Bytes} {more more' : Nat} (h : Took s s' bytes more)
    (h' : Took s' s'' bytes' more') : Took s s'' (bytes ++ bytes') (more + more') where
  objects := h'.objects.trans h.objects
  heap := h'.heap.trans h.heap
  length := by
    have hfirst := h.length
    have hsecond := h'.length
    rw [List.length_append]
    omega

section

variable {Γ : Jvm} {f : Decode Value} {s s' : Decoder}

theorem took_of_reading {α : Type} {r : Read α} {a : α} (h : reading r s = .ok (a, s')) {bytes : Bytes} {more : Nat}
    (hlength : ∀ left, r s.bytes = .ok (a, left) → s.bytes.length = left.length + bytes.length + more) : Took s s' bytes more := by
  unfold reading at h
  cases hr : r s.bytes with
  | error x =>
    rw [hr] at h
    cases h
  | ok p =>
    rw [hr] at h
    cases h
    exact ⟨rfl, rfl, hlength _ hr⟩

theorem readLong_length {items left : Bytes} {i : BitVec 64} (h : ByteReader.readLong items = .ok (i, left)) :
    items.length = left.length + 8 := by
  obtain ⟨b₀, mid₀, h₀, h⟩ := bind_ok h
  obtain ⟨b₁, mid₁, h₁, h⟩ := bind_ok h
  obtain ⟨b₂, mid₂, h₂, h⟩ := bind_ok h
  obtain ⟨b₃, mid₃, h₃, h⟩ := bind_ok h
  obtain ⟨b₄, mid₄, h₄, h⟩ := bind_ok h
  obtain ⟨b₅, mid₅, h₅, h⟩ := bind_ok h
  obtain ⟨b₆, mid₆, h₆, h⟩ := bind_ok h
  obtain ⟨b₇, mid₇, h₇, h⟩ := bind_ok h
  cases h
  rw [ByteReader.readByte_sound h₀, ByteReader.readByte_sound h₁, ByteReader.readByte_sound h₂, ByteReader.readByte_sound h₃,
    ByteReader.readByte_sound h₄, ByteReader.readByte_sound h₅, ByteReader.readByte_sound h₆, ByteReader.readByte_sound h₇]
  rfl

theorem readDouble_length {items left : Bytes} {d : Double} (h : ByteReader.readDouble items = .ok (d, left)) :
    items.length = left.length + 8 := by
  obtain ⟨bits, mid, hbits, h⟩ := bind_ok h
  cases h
  exact readLong_length hbits

/-- What is read and then made into a value. -/
theorem reading_map {α β : Type} {r : Read α} {g : α → β} {b : β} (h : reading (r >>= fun a => pure (g a)) s = .ok (b, s')) :
    ∃ a, b = g a ∧ reading r s = .ok (a, s') := by
  have hrun : (r >>= fun a => pure (g a)) s.bytes = (r s.bytes >>= fun p => Except.ok (g p.1, p.2)) := rfl
  unfold reading at h ⊢
  rw [hrun] at h
  cases hr : r s.bytes with
  | error x =>
    rw [hr] at h
    cases h
  | ok p =>
    rw [hr] at h
    cases h
    exact ⟨p.1, rfl, rfl⟩

/-- A primitive that is read and fits: of the types that are treated alike the bytes that are written, and of a `boolean` one more. -/
theorem readPrimitive_took {p : Primitive} {v v' : Value} (hread : reading (readPrimitive p) s = .ok (v, s'))
    (hfit : fit Γ s'.heap (.primitive p) v = .ok v') :
    v' = v ∧ Took s s' (writtenPrimitive p v) (booleans (.primitive p) v) ∧
      (HasUneven (.primitive p) v → 0 < booleans (.primitive p) v) := by
  cases p with
  | int =>
    obtain ⟨i, rfl, hi⟩ := reading_map hread
    cases hfit
    refine ⟨rfl, took_of_reading hi fun left hleft => ?_, fun huneven => absurd rfl huneven.1⟩
    rw [ByteReader.readInt_sound hleft, List.length_append, Nat.add_comm]
    rfl
  | long =>
    obtain ⟨i, rfl, hi⟩ := reading_map hread
    cases hfit
    refine ⟨rfl, took_of_reading hi fun left hleft => ?_, fun huneven => absurd rfl huneven.2.1⟩
    rw [readLong_length hleft, writtenPrimitive, Frame.long, BigEndian.length_bytes]
    rfl
  | double =>
    obtain ⟨bits, rfl, hbits⟩ := reading_map hread
    cases hfit
    refine ⟨rfl, took_of_reading hbits fun left hleft => ?_, fun huneven => absurd rfl huneven.2.2⟩
    rw [readDouble_length hleft, writtenPrimitive, Frame.long, BigEndian.length_bytes]
    rfl
  | boolean =>
    obtain ⟨b, rfl, hb⟩ := reading_map hread
    cases hfit
    refine ⟨rfl, took_of_reading hb fun left hleft => ?_, fun _ => Nat.one_pos⟩
    rw [ByteReader.readByte_sound hleft]
    rfl
  | _ =>
    -- null is read, and does not fit
    cases hread
    cases hfit

/-- A value that is read and then fits. -/
theorem fitted_ok {d : Decode Value} {c : JClass} {v' : Value} (h : (do
      let v ← d
      fit Γ (← get).heap c v : Decode Value) s = .ok (v', s')) : ∃ v, d s = .ok (v, s') ∧ fit Γ s'.heap c v = .ok v' := by
  obtain ⟨v, mid, hread, hlast⟩ := bind_ok h
  have hlift : (liftM (fit Γ mid.heap c v) : Decode Value) mid = .ok (v', s') := hlast
  cases hfit : fit Γ mid.heap c v with
  | error x =>
    rw [hfit] at hlift
    cases hlift
  | ok y =>
    rw [hfit] at hlift
    cases hlift
    exact ⟨v, hread, hfit⟩

/-- The length of an array, as it is read. -/
theorem took_int {length : BitVec 32} (h : reading ByteReader.readInt s = .ok (length, s')) (i : BitVec 32) :
    Took s s' (Frame.int i) 0 := by
  refine took_of_reading h fun left hleft => ?_
  rw [ByteReader.readInt_sound hleft, List.length_append, Nat.add_comm, Frame.int, Frame.int, BigEndian.length_bytes,
    BigEndian.length_bytes]

/-- The elements of an array, when of each of them the same holds. -/
theorem elements_took {component : JClass} (helement : ∀ {s s' : Decoder} {v v' : Value}, readValue Γ f component s = .ok (v, s') →
      fit Γ s'.heap component v = .ok v' →
      v' = v ∧ Took s s' (written component v) (booleans component v) ∧ (HasUneven component v → 0 < booleans component v))
    {n : Nat} {elements : List Value} (h : Stream.times (do
      let v ← readValue Γ f component
      fit Γ (← get).heap component v) n s = .ok (elements, s')) :
    Took s s' (elements.flatMap (written component)) (elements.foldr (fun x n => booleans component x + n) 0) ∧
      ∀ x ∈ elements, HasUneven component x → 0 < booleans component x := by
  induction n generalizing s elements with
  | zero =>
    cases h
    exact ⟨⟨rfl, rfl, rfl⟩, List.forall_mem_nil _⟩
  | succ n ih =>
    obtain ⟨x', mid, hx, h⟩ := bind_ok h
    obtain ⟨elements', mid', hrest, h⟩ := bind_ok h
    cases h
    obtain ⟨x, hreadx, hfitx⟩ := fitted_ok hx
    obtain ⟨rfl, htook, huneven⟩ := helement hreadx hfitx
    obtain ⟨htook', huneven'⟩ := ih hrest
    exact ⟨htook.trans htook', List.forall_mem_cons.2 ⟨huneven, huneven'⟩⟩

/-- The same of a value of a plain type. -/
theorem readValue_took {c : JClass} (hc : c.IsPlain) {v v' : Value} (hread : readValue Γ f c s = .ok (v, s'))
    (hfit : fit Γ s'.heap c v = .ok v') :
    v' = v ∧ Took s s' (written c v) (booleans c v) ∧ (HasUneven c v → 0 < booleans c v) := by
  induction c generalizing s s' v v' with
  | primitive p => exact readPrimitive_took hread hfit
  | array component ih =>
    obtain ⟨length, mid, hlength, h⟩ := bind_ok hread
    split at h
    · cases h
      cases hfit
      refine ⟨rfl, took_int hlength _, fun huneven => ?_⟩
      obtain ⟨_, _, hnull, _⟩ := huneven
      cases hnull
    · split at h
      · cases h
      · obtain ⟨elements, mid', hreads, h⟩ := bind_ok h
        cases h
        rw [fit_array] at hfit
        cases hfit
        obtain ⟨htook, huneven⟩ := elements_took (ih hc) hreads
        have hall := (took_int hlength (BitVec.ofNat 32 elements.length)).trans htook
        rw [Nat.zero_add] at hall
        refine ⟨rfl, hall, fun hsome => ?_⟩
        obtain ⟨_, _, harray, x, hx, hunevenx⟩ := hsome
        cases harray
        exact (huneven x hx hunevenx).trans_le (le_foldr_add _ hx)
  | object name => exact hc.elim

/-- A field that is set holds what is found to fit. -/
theorem setField_ok {handle : Nat} {field : Field} {value : Value} (h : setField Γ (.object handle) field value s = .ok ((), s')) :
    ∃ v, fit Γ s.heap field.type value = .ok v ∧
      s' = ⟨s.bytes, s.deserializedObjects, s.heap.modify handle (fun o => o.set field.name v)⟩ := by
  have hrun : setField Γ (.object handle) field value s = (fit Γ s.heap field.type value >>= fun v =>
      Except.ok ((), ⟨s.bytes, s.deserializedObjects, s.heap.modify handle (fun o => o.set field.name v)⟩)) := by
    show ((liftM (fit Γ s.heap field.type value) : Decode Value) s >>= _) = _
    cases fit Γ s.heap field.type value <;> rfl
  rw [hrun] at h
  cases hfit : fit Γ s.heap field.type value with
  | error x =>
    rw [hfit] at h
    cases h
  | ok v =>
    rw [hfit] at h
    cases h
    exact ⟨v, rfl, rfl⟩

/-- The fields of an object, when all of them have been read. -/
theorem readFields_took {fields : List Field} (htypes : ∀ field ∈ fields, field.type.IsPlain)
    (hwritten : ∀ field ∈ fields, field.isStatic = false ∧ field.isTransient = false) (hnames : (fields.map Field.name).Nodup)
    {handle : Nat} {old : Obj} (hold : s.heap[handle]? = some old) (hfields : ∀ field ∈ fields, field.name ∈ old.fields.map Prod.fst)
    (h : readFields Γ f (.object handle) (fields.map fun field => (field, field.type)) s = .ok ((), s')) :
    ∃ o', s'.heap[handle]? = some o' ∧ (∀ name ∉ fields.map Field.name, o'.get name = old.get name) ∧
      s.bytes.length = s'.bytes.length + (fields.flatMap fun field => written field.type (o'.get field.name)).length +
        fields.foldr (fun field n => booleans field.type (o'.get field.name) + n) 0 ∧
      ∀ field ∈ fields, HasUneven field.type (o'.get field.name) → 0 < booleans field.type (o'.get field.name) := by
  induction fields generalizing s old with
  | nil =>
    cases h
    exact ⟨old, hold, fun _ _ => rfl, rfl, List.forall_mem_nil _⟩
  | cons field fields ih =>
    rw [List.forall_mem_cons] at htypes hwritten hfields
    rw [List.map_cons, List.nodup_cons] at hnames
    rw [List.map_cons, readFields] at h
    simp only [hwritten.1.1, hwritten.1.2, Bool.not_false, Bool.and_self, if_true] at h
    obtain ⟨value, mid, hread, hstored⟩ := bind_ok h
    obtain ⟨_, mid', hset, hrest⟩ := bind_ok hstored
    obtain ⟨v, hfit, rfl⟩ := setField_ok hset
    obtain ⟨rfl, htook, huneven⟩ := readValue_took htypes.1 hread hfit
    have hnow : (mid.heap.modify handle fun o => o.set field.name v)[handle]? = some (old.set field.name v) := by
      rw [List.getElem?_modify_eq, htook.heap, hold]
      rfl
    obtain ⟨o', ho', huntouched, hlength, hunevens⟩ := ih htypes.2 hwritten.2 hnames.2 hnow
      (by rw [Obj.names_set]; exact hfields.2) hrest
    have hvalue : o'.get field.name = v := by
      rw [huntouched field.name hnames.1, Obj.get_set_self hfields.1]
    refine ⟨o', ho', fun name hname => ?_, ?_, ?_⟩
    · rw [List.map_cons, List.mem_cons, not_or] at hname
      rw [huntouched name hname.2, Obj.get_set_of_ne hname.1]
    · have hfirst := htook.length
      rw [List.flatMap_cons, List.foldr_cons, hvalue, List.length_append]
      dsimp only at hlength
      omega
    · rw [List.forall_mem_cons, hvalue]
      exact ⟨huneven, hunevens⟩

end

/-! ## Both directions -/

section

variable {Γ : Jvm} {o : Obj} {cls : ClassInfo} {frame : Bytes}

/-- The bytes of an object with plain fields, without the parity. -/
def plainPayload (o : Obj) (cls : ClassInfo) : Bytes :=
  ([1] ++ ([0] ++ Frame.classHeader o.className cls)) ++
    (serializableFields cls).flatMap fun field => written field.type (o.get field.name)

/-- They are what is serialized. -/
theorem frame_of_plain (h : IsPlainObject Γ o cls) (hfits : serialize Γ [o] (.object 0) = .ok frame) :
    frame = Frame.withParity (plainPayload o cls) ∧ (plainPayload o cls).length < capacity := by
  have hfields : Encodes ((serializableFields cls).forM fun field =>
      writeValue (serializeObject Γ [o] 1) field.type (o.get field.name))
      ((serializableFields cls).flatMap fun field => written field.type (o.get field.name)) ([] ++ [0]) ([] ++ [0]) :=
    Puts.forM _ fun field hfield => written_encodes _ _ (h.fields field hfield)
  have hobject : Encodes (serializeObject Γ [o] 2 (.object 0)) (plainPayload o cls) [] [0] := by
    rw [plainPayload, List.append_assoc, List.append_assoc]
    exact serializeObject_writes List.not_mem_nil rfl h.found h.sendable.accessible hfields
  have hlength : (Frame.withParity (plainPayload o cls)).length = (plainPayload o cls).length + 1 := List.length_append
  rcases serialize_cases hobject with ⟨hle, hok⟩ | ⟨_, x, herror⟩
  · rw [hlength] at hle
    exact ⟨Except.ok.inj (hfits.symm.trans hok), Nat.lt_of_succ_le hle⟩
  · cases hfits.symm.trans herror

/-- What is deserialized after the header is one object, whose fields have been read. -/
theorem readFields_of_deserialize (h : IsPlainObject Γ o cls) {defaults : List (Text × Value)} (hmade : cls.newInstance = some defaults)
    (hsize : (Frame.classHeader o.className cls).length < 2 ^ 31) {values : Bytes} {value : Value} {heap' : List Obj}
    (hdeserialize : deserialize Γ (Frame.withParity (([1] ++ ([0] ++ Frame.classHeader o.className cls)) ++ values)) =
      .ok (value, heap')) :
    ∃ fuel s', readFields Γ (deserializeObject Γ fuel) (.object 0) ((serializableFields cls).map fun field => (field, field.type))
      ⟨values, [.object 0], [⟨o.className, defaults⟩]⟩ = .ok ((), s') ∧ value = .object 0 ∧ heap' = s'.heap := by
  have hcount := Frame.length_le_classHeader o.className cls
  generalize hheader : [1] ++ ([0] ++ Frame.classHeader o.className cls) = header at hdeserialize
  have hgoes := deserializeObject_goes h.found h.named h.object h.sendable hmade hsize (by omega) [] [] (header ++ values).length values
  rw [hheader] at hgoes
  rw [deserialize_withParity, hgoes] at hdeserialize
  generalize hresult : (readFields Γ (deserializeObject Γ (header ++ values).length) (.object ([] : List Obj).length)
    ((serializableFields cls).map fun field => (field, field.type)) >>= fun _ => pure (.object ([] : List Obj).length) : Decode Value)
      _ = result at hdeserialize
  cases result with
  | error x => cases hdeserialize
  | ok p =>
    obtain ⟨value', s'⟩ := p
    obtain ⟨_, mid, hread, hlast⟩ := bind_ok hresult
    obtain ⟨rfl, rfl⟩ := Prod.mk.inj (Except.ok.inj hlast)
    obtain ⟨rfl, rfl⟩ := Prod.mk.inj (Except.ok.inj hdeserialize)
    exact ⟨(header ++ values).length, mid, hread, rfl, rfl⟩

/-- Where all values come back, no value of an uneven type was there: each `boolean` would have taken a byte too many. -/
theorem not_hasUneven_of_roundTrips (h : IsPlainObject Γ o cls) (hfits : serialize Γ [o] (.object 0) = .ok frame)
    (hroundTrips : RoundTrips Γ o cls frame) : ∀ field ∈ serializableFields cls, ¬HasUneven field.type (o.get field.name) := by
  obtain ⟨rfl, hlength⟩ := frame_of_plain h hfits
  obtain ⟨r, heap', o', hdeserialize, ho', _, hsame⟩ := hroundTrips
  obtain ⟨defaults, hmade, hfields⟩ := h.sendable.constructed
  have hcapacity : capacity < 2 ^ 31 := by decide
  have hheader : (Frame.classHeader o.className cls).length ≤ (plainPayload o cls).length := by
    simp only [plainPayload, List.length_append]
    omega
  obtain ⟨fuel, s', hreads, hvalue, rfl⟩ := readFields_of_deserialize h hmade (by omega) hdeserialize
  cases hvalue
  have hold : ([⟨o.className, defaults⟩] : List Obj)[0]? = some ⟨o.className, defaults⟩ := rfl
  obtain ⟨o'', ho'', _, hbytes, huneven⟩ := readFields_took h.types (fun _ => written_of_mem) h.sendable.nodup hold hfields hreads
  cases ho'.symm.trans ho''
  have hwritten : ((serializableFields cls).flatMap fun field => written field.type (o'.get field.name)) =
      (serializableFields cls).flatMap fun field => written field.type (o.get field.name) :=
    List.flatMap_congr fun field hfield => by rw [hsame field hfield]
  rw [hwritten] at hbytes
  intro field hfield hsome
  rw [← hsame field hfield] at hsome
  have hpositive := huneven field hfield hsome
  have hle := le_foldr_add (fun field => booleans field.type (o'.get field.name)) hfield
  dsimp only at hbytes hle
  omega

/-- A value of a plain type that is treated alike suits its type. -/
theorem suits_of_holds {heap : List Obj} {c : JClass} {v : Value} (h : c.Holds v) (heven : ¬HasUneven c v) : Suits Γ heap c v := by
  induction c generalizing v with
  | primitive p =>
    cases p with
    | int => exact h
    | long => exact h
    | double => exact h
    | _ => exact absurd ⟨by decide, by decide, by decide⟩ heven
  | array component ih =>
    rcases h with rfl | ⟨elements, rfl, helements⟩
    · exact Or.inl rfl
    · exact Or.inr ⟨component, elements, rfl, fun x hx => ih (helements x hx) fun hx' => heven ⟨component, elements, rfl, x, hx, hx'⟩⟩
  | object name => exact h.elim

/-- The bits that the codec keeps are all of them, but for such a double. -/
theorem canonical_eq_iff {p : Primitive} {v : Value} : v.canonical = v ↔ ¬HasOtherNaN (.primitive p) v := by
  cases v with
  | double bits =>
    simp only [Value.canonical, Value.double.injEq, HasOtherNaN, exists_eq_left', not_and, not_not]
    cases hnumber : Double.isNaN bits with
    | false => simp [Double.doubleToLongBits_of_not_isNaN hnumber]
    | true => simp [Double.doubleToLongBits, hnumber, eq_comm]
  | _ => exact iff_of_true rfl (by rintro ⟨_, h, _⟩; cases h)

/-- A value of a plain type without such a double is equal to the same value. -/
theorem eq_of_sameValue {R : Nat → Nat → Prop} {c : JClass} {v v' : Value} (h : c.Holds v) (hkept : ¬HasOtherNaN c v)
    (hsame : SameValue R c v v') : v' = v := by
  induction c generalizing v v' with
  | primitive p => exact hsame.trans (canonical_eq_iff.2 hkept)
  | array component ih =>
    rcases hsame with ⟨rfl, rfl⟩ | ⟨c, elements, elements', rfl, rfl, hsames⟩
    · rfl
    · rcases h with hnull | ⟨_, heq, helements⟩
      · cases hnull
      · cases heq
        have hkepts : ∀ x ∈ elements, ¬HasOtherNaN component x := fun x hx hother => hkept ⟨component, elements, rfl, x, hx, hother⟩
        congr 1
        clear hkept
        induction hsames with
        | nil => rfl
        | cons hfirst hothers ihs =>
          rw [List.forall_mem_cons] at helements hkepts
          rw [ih helements.1 hkepts.1 hfirst, ihs helements.2 hkepts.2]
  | object name => exact h.elim

/-- A value that is the same as itself has no such double. -/
theorem not_hasOtherNaN_of_sameValue {R : Nat → Nat → Prop} {c : JClass} {v : Value} (hsame : SameValue R c v v) :
    ¬HasOtherNaN c v := by
  induction c generalizing v with
  | primitive p => exact canonical_eq_iff.1 hsame.symm
  | array component ih =>
    rintro ⟨c, elements, rfl, x, hx, hother⟩
    rcases hsame with ⟨hnull, _⟩ | ⟨c', elements₁, elements₂, heq, heq', hsames⟩
    · cases hnull
    · cases heq
      cases heq'
      exact ih (List.forall₂_same.1 hsames x hx) hother
  | object name => exact id

/-- Where no value of an uneven type is there, the object comes back with the same values. -/
theorem sameValues_of_not_hasUneven (h : IsPlainObject Γ o cls) (hfits : serialize Γ [o] (.object 0) = .ok frame)
    (heven : ∀ field ∈ serializableFields cls, ¬HasUneven field.type (o.get field.name)) :
    ∃ R r heap' o', deserialize Γ frame = .ok (.object r, heap') ∧ heap'[r]? = some o' ∧ o'.className = o.className ∧
      ∀ field ∈ serializableFields cls, SameValue R field.type (o.get field.name) (o'.get field.name) := by
  have hgraph : IsGraph Γ [o] := by
    unfold IsGraph
    rw [List.forall_mem_singleton]
    exact ⟨cls, h.found, h.named, h.object, h.sendable,
      fun field hfield => suits_of_holds (h.fields field hfield) (heven field hfield)⟩
  obtain ⟨name, payload, objects, hstring, hpasses⟩ := exists_rootPasses hgraph (Or.inr ⟨0, rfl, Nat.one_pos⟩)
  rcases serialize_of_passes hstring hpasses with ⟨hlength, hok⟩ | ⟨_, x, herror⟩
  · cases hfits.symm.trans hok
    obtain ⟨value, heap', hdeserialize, hgrown, hsame⟩ := deserialize_of_passes hstring hpasses hlength
    obtain ⟨hnull, _⟩ | hobject := hsame
    · cases hnull
    · rw [if_neg hstring] at hobject
      obtain ⟨r, handle, hr, rfl, hnumber⟩ := hobject
      cases hr
      obtain ⟨r', o₁, o', cls', hr', ho₁, ho', hname, hclass, hfields⟩ := hgrown.filled handle (Nat.zero_le _) hnumber.lt
      cases hnumber.symm.trans hr'
      cases ho₁
      cases h.found.symm.trans hclass
      exact ⟨Numbers objects, handle, heap', o', hdeserialize, ho', hname, hfields⟩
  · cases hfits.symm.trans herror

/-- Where no value of an uneven type is there, all values come back exactly when no such double is. -/
theorem roundTrips_iff_of_not_hasUneven (h : IsPlainObject Γ o cls) (hfits : serialize Γ [o] (.object 0) = .ok frame)
    (heven : ∀ field ∈ serializableFields cls, ¬HasUneven field.type (o.get field.name)) :
    RoundTrips Γ o cls frame ↔ ∀ field ∈ serializableFields cls, ¬HasOtherNaN field.type (o.get field.name) := by
  obtain ⟨R, r, heap', o', hdeserialize, ho', hname, hsames⟩ := sameValues_of_not_hasUneven h hfits heven
  constructor
  · rintro ⟨r', heap'', o'', hdeserialize', ho'', _, hequals⟩ field hfield
    cases hdeserialize.symm.trans hdeserialize'
    cases ho'.symm.trans ho''
    have hsame := hsames field hfield
    rw [hequals field hfield] at hsame
    exact not_hasOtherNaN_of_sameValue hsame
  · intro hkept
    exact ⟨r, heap', o', hdeserialize, ho', hname,
      fun field hfield => eq_of_sameValue (h.fields field hfield) (hkept field hfield) (hsames field hfield)⟩

end

/-- An object of plain fields, of any number and in any order, that is serialized is deserialized to an object with the same values
exactly when it holds no `float`, `boolean`, `byte`, `short` or `char`, and no `double` that is no number but the one that is written
of them, neither in a field nor in an array. -/
theorem plain_roundTrips_iff (Γ : Jvm) (o : Obj) (cls : ClassInfo) (frame : Bytes) (h : IsPlainObject Γ o cls)
    (hfits : serialize Γ [o] (.object 0) = .ok frame) :
    RoundTrips Γ o cls frame ↔ ∀ field ∈ serializableFields cls,
      ¬HasUneven field.type (o.get field.name) ∧ ¬HasOtherNaN field.type (o.get field.name) := by
  constructor
  · intro hroundTrips
    have heven := not_hasUneven_of_roundTrips h hfits hroundTrips
    have hkept := (roundTrips_iff_of_not_hasUneven h hfits heven).1 hroundTrips
    exact fun field hfield => ⟨heven field hfield, hkept field hfield⟩
  · intro hnone
    exact (roundTrips_iff_of_not_hasUneven h hfits fun field hfield => (hnone field hfield).1).2 fun field hfield =>
      (hnone field hfield).2

/-- A class with an `int`, a `double`, some `long`s and some `boolean`s. -/
def sampleClass : ClassInfo where
  declaredFields :=
    [⟨"count".toList, .primitive .int, false, false⟩, ⟨"mean".toList, .primitive .double, false, false⟩,
      ⟨"times".toList, .array (.primitive .long), false, false⟩, ⟨"flags".toList, .array (.primitive .boolean), false, false⟩]
  accessible := true
  newInstance := some [("count".toList, .int 0), ("mean".toList, .double 0), ("times".toList, .null), ("flags".toList, .null)]

def sampleJdk : Jvm where
  __ := openJdk
  forName := fun name => if name = "Sample".toList then some sampleClass else openJdk.forName name
  forName_requestMessage := rfl
  forName_string := rfl

def sample (flags : List Value) : Obj :=
  ⟨"Sample".toList, [("count".toList, .int 7), ("mean".toList, .double 0x3ff8000000000000),
    ("times".toList, .array (.primitive .long) [.long 5, .long (-1)]), ("flags".toList, .array (.primitive .boolean) flags)]⟩

theorem serializableFields_sample : serializableFields sampleClass = sampleClass.declaredFields := rfl

theorem isClassName_sample : IsClassName sampleJdk "Sample".toList where
  keyword := by
    intro p
    cases p <;> decide
  array := by decide
  known := rfl

theorem isPlainObject_sample {flags : List Value} (h : ∀ x ∈ flags, ∃ b, x = .boolean b) :
    IsPlainObject sampleJdk (sample flags) sampleClass where
  found := rfl
  named := isClassName_sample
  object := by
    show JClass.object "Sample".toList ≠ .string
    decide
  sendable :=
    { accessible := rfl
      names := by decide
      types := by
        rw [serializableFields_sample]
        simp only [sampleClass, List.forall_mem_cons, Nameable]
        exact ⟨by decide, by decide, ⟨by decide, by decide⟩, ⟨by decide, by decide⟩, List.forall_mem_nil _⟩
      constructed := by
        refine ⟨_, rfl, ?_⟩
        rw [serializableFields_sample]
        decide }
  types := by
    rw [serializableFields_sample]
    simp only [sampleClass, List.forall_mem_cons, JClass.IsPlain]
    exact ⟨by decide, by decide, by decide, by decide, List.forall_mem_nil _⟩
  fields := by
    rw [serializableFields_sample]
    simp only [sampleClass, List.forall_mem_cons]
    refine ⟨⟨7, rfl⟩, ⟨0x3ff8000000000000, rfl⟩, Or.inr ⟨_, rfl, ?_⟩, Or.inr ⟨_, rfl, h⟩, List.forall_mem_nil _⟩
    simp only [List.forall_mem_cons]
    exact ⟨⟨5, rfl⟩, ⟨-1, rfl⟩, List.forall_mem_nil _⟩

theorem exists_frame_sample : ∃ frame, serialize sampleJdk [sample []] (.object 0) = .ok frame := by
  have hok : (serialize sampleJdk [sample []] (.object 0)).isOk = true := by decide +kernel
  cases h : serialize sampleJdk [sample []] (.object 0) with
  | ok frame => exact ⟨frame, rfl⟩
  | error x =>
    rw [h] at hok
    cases hok

theorem plain_roundTrips_iff_sample : ∃ frame, RoundTrips sampleJdk (sample []) sampleClass frame := by
  obtain ⟨frame, hframe⟩ := exists_frame_sample
  have hplain := @isPlainObject_sample [] (List.forall_mem_nil _)
  refine ⟨frame, (plain_roundTrips_iff sampleJdk (sample []) sampleClass frame hplain hframe).2 ?_⟩
  rw [serializableFields_sample]
  simp only [sampleClass, List.forall_mem_cons]
  refine ⟨⟨fun h => h.1 rfl, ?_⟩, ⟨fun h => h.2.2 rfl, ?_⟩, ⟨?_, ?_⟩, ⟨?_, ?_⟩, List.forall_mem_nil _⟩
  · rintro ⟨bits, h, _⟩
    cases h
  · rintro ⟨bits, h, hnumber, _⟩
    cases h
    exact absurd hnumber (by decide)
  · rintro ⟨c, elements, _, x, _, huneven⟩
    exact huneven.2.1 rfl
  · rintro ⟨c, elements, h, x, hx, bits, rfl, _⟩
    cases h
    exact absurd hx (by simp)
  · rintro ⟨c, elements, h, x, hx, _⟩
    cases h
    cases hx
  · rintro ⟨c, elements, h, x, hx, _⟩
    cases h
    cases hx

/-- With one `boolean` in the array the decoder reads past the end of the bytes. -/
theorem not_plain_roundTrips : ¬∀ (Γ : Jvm) (o : Obj) (cls : ClassInfo) (frame : Bytes), IsPlainObject Γ o cls →
    serialize Γ [o] (.object 0) = .ok frame → RoundTrips Γ o cls frame := by
  intro h
  have hfails : ((serialize sampleJdk [sample [.boolean true]] (.object 0)).bind (deserialize sampleJdk)).isOk = false := by
    decide +kernel
  have hok : (serialize sampleJdk [sample [.boolean true]] (.object 0)).isOk = true := by decide +kernel
  cases hframe : serialize sampleJdk [sample [.boolean true]] (.object 0) with
  | error x =>
    rw [hframe] at hok
    cases hok
  | ok frame =>
    obtain ⟨r, heap', o', hdeserialize, _⟩ := h sampleJdk (sample [.boolean true]) sampleClass frame
      (isPlainObject_sample (List.forall_mem_singleton.2 ⟨true, rfl⟩)) hframe
    rw [hframe, Except.bind, hdeserialize] at hfails
    cases hfails

end FacilityBooking
