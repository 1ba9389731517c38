import FacilityBooking.Lemmas.Objects
import Mathlib.Data.List.Perm.Subperm

/-!
# The encoder and the decoder in lockstep

The encoder gives an object its handle when it first meets it, the decoder when it makes it, and both before they go on to its
fields. So what both have met so far are the same objects in the same order, those included whose fields are still being filled, and a
value passes from the one to the other in whatever state they are.
-/

namespace FacilityBooking

open Stream

/-! ## Values of a type -/

/-- A value that a place of the type may hold and that the serializer both writes and reads: an `int`, a `long` or a `double`, a string,
an array of such values, or an object of the heap of a class that fits. -/
def Suits (Γ : Jvm) (heap : List Obj) : JClass → Value → Prop
  | .primitive .int, v => ∃ i, v = .int i
  | .primitive .long, v => ∃ i, v = .long i
  | .primitive .double, v => ∃ bits, v = .double bits
  | .primitive _, _ => False
  | .array component, v => v = .null ∨ ∃ c elements, v = .array c elements ∧ ∀ x ∈ elements, Suits Γ heap component x
  | .object name, v =>
    v = .null ∨
      if JClass.object name = .string then ∃ t, v = .string t
      else ∃ r o, v = .object r ∧ heap[r]? = some o ∧ Γ.isAssignable (.object name) (.object o.className) = true

/-- A primitive with the bits that the codec keeps: all of them, but for a `double` that is no number. -/
def Value.canonical : Value → Value
  | .double bits => .double (Double.doubleToLongBits bits)
  | v => v

/-- A value read back from a place of the type: the same primitive, the same string, an array of the same values, or the object that
the relation gives. -/
def SameValue (R : Nat → Nat → Prop) : JClass → Value → Value → Prop
  | .primitive _, v, v' => v' = v.canonical
  | .array component, v, v' =>
    v = .null ∧ v' = .null ∨ ∃ c elements elements', v = .array c elements ∧ v' = .array component elements' ∧
      List.Forall₂ (SameValue R component) elements elements'
  | .object name, v, v' =>
    v = .null ∧ v' = .null ∨
      if JClass.object name = .string then ∃ t, v = .string t ∧ v' = .string t
      else ∃ r r', v = .object r ∧ v' = .object r' ∧ R r r'

theorem SameValue.mono {R R' : Nat → Nat → Prop} (h : ∀ r r', R r r' → R' r r') {c : JClass} {v v' : Value}
    (hsame : SameValue R c v v') : SameValue R' c v v' := by
  induction c generalizing v v' with
  | primitive p => exact hsame
  | array component ih =>
    rcases hsame with hnull | ⟨c, elements, elements', rfl, rfl, helements⟩
    · exact Or.inl hnull
    · exact Or.inr ⟨c, elements, elements', rfl, rfl, helements.imp fun _ _ => ih⟩
  | object name =>
    rcases hsame with hnull | hsame
    · exact Or.inl hnull
    · refine Or.inr ?_
      split at hsame
      · rename_i hstring
        rwa [if_pos hstring]
      · rename_i hstring
        obtain ⟨r, r', rfl, rfl, hr⟩ := hsame
        rw [if_neg hstring]
        exact ⟨r, r', rfl, rfl, h r r' hr⟩

namespace Serializer

/-! ## What both have met -/

/-- The objects that the encoder has met: different ones, and of the heap. -/
structure Met (heap : List Obj) (objects : List Nat) : Prop where
  nodup : objects.Nodup
  known : ∀ r ∈ objects, r < heap.length

section

variable {heap : List Obj} {objects : List Nat} {r : Nat}

theorem Met.length_le (h : Met heap objects) : objects.length ≤ heap.length := by
  have hsubset : objects ⊆ List.range heap.length := fun r hr => List.mem_range.2 (h.known r hr)
  have hle := (List.subperm_of_subset h.nodup hsubset).length_le
  rwa [List.length_range] at hle

/-- One more. -/
theorem Met.concat (h : Met heap objects) (hnew : r ∉ objects) (hr : r < heap.length) : Met heap (objects ++ [r]) where
  nodup := by
    refine List.nodup_append.2 ⟨h.nodup, List.nodup_singleton r, fun a ha b hb heq => ?_⟩
    rw [List.mem_singleton] at hb
    exact hnew (hb ▸ heq ▸ ha)
  known := by
    intro a ha
    rcases List.mem_append.1 ha with hold | hlast
    · exact h.known a hold
    · rw [List.mem_singleton.1 hlast]
      exact hr

end

/-- The number of an object, which is its handle. -/
def Numbers (objects : List Nat) (r handle : Nat) : Prop := objects[handle]? = some r

/-- The objects that the decoder has made, at their handles. -/
def handles (objects : List Nat) : List Value := (List.range objects.length).map Value.object

theorem handles_concat (objects : List Nat) (r : Nat) : handles (objects ++ [r]) = handles objects ++ [.object objects.length] := by
  rw [handles, handles, List.length_append, List.length_singleton, List.range_succ, List.map_append]
  rfl

theorem getElem?_handles {objects : List Nat} {handle : Nat} (h : handle < objects.length) :
    (handles objects)[handle]? = some (.object handle) := by
  rw [handles, List.getElem?_map, List.getElem?_range h]
  rfl

theorem Numbers.lt {objects : List Nat} {r handle : Nat} (h : Numbers objects r handle) : handle < objects.length :=
  (List.getElem?_eq_some_iff.1 h).1

theorem Numbers.mono {objects objects' : List Nat} (h : objects <+: objects') {r handle : Nat} (hr : Numbers objects r handle) :
    Numbers objects' r handle := by
  obtain ⟨more, rfl⟩ := h
  exact (List.getElem?_append_left hr.lt).trans hr

/-- The heap that the decoder has built: at each handle an object of the class of the encoder's. -/
structure Lockstep (heap : List Obj) (objects : List Nat) (built : List Obj) : Prop where
  length : built.length = objects.length
  classes : ∀ r handle, Numbers objects r handle → ∃ o o', heap[r]? = some o ∧ built[handle]? = some o' ∧ o'.className = o.className

/-- An object that the decoder has filled: its fields hold what those of the encoder's object hold. -/
def Filled (Γ : Jvm) (heap : List Obj) (objects : List Nat) (built : List Obj) (handle : Nat) : Prop :=
  ∃ r o o' cls, Numbers objects r handle ∧ heap[r]? = some o ∧ built[handle]? = some o' ∧ o'.className = o.className ∧
    Γ.forName o.className = some cls ∧
    ∀ field ∈ serializableFields cls, SameValue (Numbers objects) field.type (o.get field.name) (o'.get field.name)

/-- The decoder has gone on: what it had made it has left alone, and what it has made since it has filled. -/
structure Grown (Γ : Jvm) (heap : List Obj) (objects : List Nat) (built : List Obj) (objects' : List Nat) (built' : List Obj) :
    Prop where
  lockstep : Lockstep heap objects' built'
  kept : ∀ handle, handle < built.length → built'[handle]? = built[handle]?
  filled : ∀ handle, objects.length ≤ handle → handle < objects'.length → Filled Γ heap objects' built' handle

section

variable {Γ : Jvm} {heap : List Obj} {objects objects' objects'' : List Nat} {built built' built'' : List Obj}

theorem Filled.mono {handle : Nat} (h : Filled Γ heap objects built handle) (hgrows : objects <+: objects')
    (hkept : built'[handle]? = built[handle]?) : Filled Γ heap objects' built' handle := by
  obtain ⟨r, o, o', cls, hr, ho, ho', hname, hclass, hfields⟩ := h
  exact ⟨r, o, o', cls, hr.mono hgrows, ho, hkept.trans ho', hname, hclass,
    fun field hfield => (hfields field hfield).mono fun _ _ => Numbers.mono hgrows⟩

theorem Grown.refl (h : Lockstep heap objects built) : Grown Γ heap objects built objects built :=
  ⟨h, fun _ _ => rfl, fun _ hle hlt => absurd hlt (Nat.not_lt_of_le hle)⟩

theorem Grown.trans (h : Grown Γ heap objects built objects' built') (h' : Grown Γ heap objects' built' objects'' built'')
    (hgrows : objects <+: objects') (hgrows' : objects' <+: objects'') (hlockstep : Lockstep heap objects built) :
    Grown Γ heap objects built objects'' built'' where
  lockstep := h'.lockstep
  kept := by
    intro handle hlt
    have hle := hgrows.length_le
    rw [h'.kept handle (by rw [h.lockstep.length]; rw [hlockstep.length] at hlt; omega), h.kept handle hlt]
  filled := by
    intro handle hle hlt
    by_cases hmid : handle < objects'.length
    · exact (h.filled handle hle hmid).mono hgrows' (h'.kept handle (by rwa [h.lockstep.length]))
    · exact h'.filled handle (Nat.le_of_not_lt hmid) hlt

/-- What the decoder has read may be stored in a place of the type. -/
theorem fit_same {c : JClass} {v v' : Value} (hsuits : Suits Γ heap c v) (hsame : SameValue (Numbers objects) c v v')
    (hlockstep : Lockstep heap objects built) : fit Γ built c v' = .ok v' := by
  cases c with
  | primitive p =>
    obtain rfl : v' = v.canonical := hsame
    cases p with
    | int =>
      obtain ⟨i, rfl⟩ := hsuits
      rfl
    | long =>
      obtain ⟨i, rfl⟩ := hsuits
      rfl
    | double =>
      obtain ⟨bits, rfl⟩ := hsuits
      rfl
    | _ => exact hsuits.elim
  | array component =>
    rcases hsame with ⟨_, rfl⟩ | ⟨c, elements, elements', rfl, rfl, _⟩
    · rfl
    · exact fit_array built component elements'
  | object name =>
    rcases hsame with ⟨_, rfl⟩ | hsame
    · rfl
    · split at hsame
      · rename_i hstring
        obtain ⟨t, rfl, rfl⟩ := hsame
        rw [hstring]
        exact fit_string built (some t)
      · rename_i hstring
        obtain ⟨r, handle, rfl, rfl, hr⟩ := hsame
        obtain ⟨o, o', ho, ho', hname⟩ := hlockstep.classes r handle hr
        rcases hsuits with hnull | hsuits
        · cases hnull
        · rw [if_neg hstring] at hsuits
          obtain ⟨r', o'', hr', ho'', hassignable⟩ := hsuits
          cases hr'
          cases ho.symm.trans ho''
          have hruntime : runtimeClass built (.object handle) = some (.object o.className) := by
            rw [runtimeClass, ho', Option.map_some, hname]
          simp only [fit, hruntime, hassignable, if_true]

end

/-! ## A value passes -/

/-- A value of the type passes in these bytes: the encoder, when it may descend into all the objects that it has not met, writes them,
and the decoder, when it may descend as often as there are bytes, reads the same value from them; both then have met the same. -/
structure Passes (Γ : Jvm) (heap : List Obj) (c : JClass) (v : Value) (objects : List Nat) (bytes : Bytes) (objects' : List Nat) :
    Prop where
  positive : 0 < bytes.length
  grows : objects <+: objects'
  count : objects'.length ≤ objects.length + bytes.length
  met : Met heap objects'
  encodes : ∀ fuel, heap.length < fuel + objects.length →
    Encodes (writeValue (serializeObject Γ heap fuel) c v) bytes objects objects'
  decodes : objects.length + bytes.length < 2 ^ 31 → ∀ fuel, bytes.length < fuel → ∀ built, Lockstep heap objects built →
    ∃ v' built', Decodes (readValue Γ (deserializeObject Γ fuel) c) bytes (handles objects, built) v' (handles objects', built') ∧
      Grown Γ heap objects built objects' built' ∧ SameValue (Numbers objects') c v v'

section

variable {Γ : Jvm} {heap : List Obj} {objects : List Nat}

/-- A value that neither side meets a new object in. -/
theorem passes_leaf {c : JClass} {v : Value} (v' : Value) {bytes : Bytes} (hmet : Met heap objects) (hpositive : 0 < bytes.length)
    (hencodes : ∀ fuel, Encodes (writeValue (serializeObject Γ heap (fuel + 1)) c v) bytes objects objects)
    (hdecodes : objects.length + bytes.length < 2 ^ 31 → ∀ fuel built,
      Decodes (readValue Γ (deserializeObject Γ (fuel + 1)) c) bytes (handles objects, built) v' (handles objects, built))
    (hsame : SameValue (Numbers objects) c v v') : Passes Γ heap c v objects bytes objects where
  positive := hpositive
  grows := List.prefix_refl objects
  count := Nat.le_add_right _ _
  met := hmet
  encodes := by
    intro fuel hfuel
    have hle := hmet.length_le
    cases fuel with
    | zero => omega
    | succ fuel => exact hencodes fuel
  decodes := by
    intro hsize fuel hfuel built hlockstep
    cases fuel with
    | zero => omega
    | succ fuel => exact ⟨v', built, hdecodes hsize fuel built, .refl hlockstep, hsame⟩

theorem passes_int (hmet : Met heap objects) (i : BitVec 32) :
    Passes Γ heap (.primitive .int) (.int i) objects (Frame.int i) objects :=
  passes_leaf (.int i) hmet (by rw [Frame.int, BigEndian.length_bytes]; omega)
    (fun _ => writing_encodes (ByteBuffer.writeInt_writes i) objects)
    (fun _ _ _ => reading_decodes (ByteReader.readInt_reads i).map) rfl

theorem passes_long (hmet : Met heap objects) (i : BitVec 64) :
    Passes Γ heap (.primitive .long) (.long i) objects (Frame.long i) objects :=
  passes_leaf (.long i) hmet (by rw [Frame.long, BigEndian.length_bytes]; omega)
    (fun _ => writing_encodes (ByteBuffer.writeLong_writes i) objects)
    (fun _ _ _ => reading_decodes (ByteReader.readLong_reads i).map) rfl

theorem passes_double (hmet : Met heap objects) (bits : BitVec 64) :
    Passes Γ heap (.primitive .double) (.double bits) objects (Frame.long (Double.doubleToLongBits bits)) objects :=
  passes_leaf (.double (Double.doubleToLongBits bits)) hmet (by rw [Frame.long, BigEndian.length_bytes]; omega)
    (fun _ => writing_encodes (ByteBuffer.writeDouble_writes bits) objects)
    (fun _ _ _ => reading_decodes (ByteReader.readDouble_reads _).map) rfl

/-- A null of a class is one byte. -/
theorem passes_null (hmet : Met heap objects) (name : Text) : Passes Γ heap (.object name) .null objects [0] objects := by
  refine passes_leaf .null hmet Nat.one_pos (fun fuel => ?_) (fun _ fuel built => ?_) (Or.inl ⟨rfl, rfl⟩)
  · have hzero := writing_encodes (ByteBuffer.writeByte_writes 0) objects
    unfold writeValue
    split
    · exact hzero
    · exact hzero
  · have hread := reading_decodes (s := (handles objects, built)) (ByteReader.readByte_reads 0)
    unfold readValue
    split
    · exact hread.bind (Takes.pure _ _)
    · exact hread.bind (Takes.pure _ _)

theorem passes_nullArray (hmet : Met heap objects) (component : JClass) :
    Passes Γ heap (.array component) .null objects (Frame.int (-1)) objects := by
  refine passes_leaf .null hmet (by rw [Frame.int, BigEndian.length_bytes]; omega)
    (fun fuel => writing_encodes (ByteBuffer.writeInt_writes (-1)) objects) (fun _ fuel built => ?_) (Or.inl ⟨rfl, rfl⟩)
  have hread := reading_decodes (s := (handles objects, built)) (ByteReader.readInt_reads (-1))
  exact hread.bind (Takes.pure _ _)

theorem passes_string (hmet : Met heap objects) {name : Text} (hstring : JClass.object name = .string) (t : Text) :
    Passes Γ heap (.object name) (.string t) objects ([1] ++ Frame.string (getBytes t)) objects := by
  refine passes_leaf (.string t) hmet (by rw [List.length_append]; exact Nat.lt_add_right _ Nat.one_pos) (fun fuel => ?_)
    (fun hsize fuel built => ?_) (Or.inr ?_)
  · rw [hstring]
    exact (writing_encodes (ByteBuffer.writeByte_writes 1) objects).bind
      (writing_encodes (ByteBuffer.writeString_writes t) objects)
  · simp only [List.length_append, Frame.string] at hsize
    have hmarker := reading_decodes (s := (handles objects, built)) (ByteReader.readByte_reads 1)
    rw [hstring]
    exact hmarker.bind (readString_decodes (by omega)).map
  · rw [if_pos hstring]
    exact ⟨t, rfl, rfl⟩

/-- What is declared with a class other than that of strings is written as an object. -/
theorem writeValue_object {name : Text} (h : JClass.object name ≠ .string) (f : Value → Encode Unit) (v : Value) :
    writeValue f (.object name) v = f v := by
  unfold writeValue
  exact if_neg h

theorem readValue_object {name : Text} (h : JClass.object name ≠ .string) (f : Decode Value) :
    readValue Γ f (.object name) = f := by
  unfold readValue
  exact if_neg h

/-- An object that has been met is its handle. -/
theorem passes_seen (hmet : Met heap objects) {name : Text} (hstring : JClass.object name ≠ .string) {r handle : Nat}
    (hhandle : objects.idxOf? r = some handle) :
    Passes Γ heap (.object name) (.object r) objects ([1] ++ ([1] ++ Frame.int (BitVec.ofNat 32 handle))) objects := by
  obtain ⟨hlt, hr, _⟩ := List.idxOf?_eq_some_iff.1 hhandle
  have hnumber : Numbers objects r handle := by
    rw [Numbers, List.getElem?_eq_getElem hlt]
    exact congrArg some hr
  refine passes_leaf (.object handle) hmet (by rw [List.length_append]; exact Nat.lt_add_right _ Nat.one_pos) (fun fuel => ?_)
    (fun hsize fuel built => ?_) (Or.inr ?_)
  · rw [writeValue_object hstring]
    refine (writing_encodes (ByteBuffer.writeByte_writes 1) objects).bind (Puts.get fun buffer => ?_)
    simp only [hhandle]
    exact (writing_encodes (ByteBuffer.writeByte_writes 1) objects).bind
      (writing_encodes (ByteBuffer.writeInt_writes _) objects)
  · have hmarker := reading_decodes (s := (handles objects, built)) (ByteReader.readByte_reads 1)
    have hread := reading_decodes (s := (handles objects, built)) (ByteReader.readInt_reads (BitVec.ofNat 32 handle))
    have htoNat : (BitVec.ofNat 32 handle).toNat = handle := by
      rw [BitVec.toNat_ofNat]
      exact Nat.mod_eq_of_lt (by omega)
    rw [readValue_object hstring]
    refine hmarker.bind (hmarker.bind ?_)
    intro rest
    have hobject : ((handles objects)[(BitVec.ofNat 32 handle).toNat]?).getD .null = .object handle := by
      rw [htoNat, getElem?_handles hlt]
      rfl
    have hafter : (do
        let objectId ← reading ByteReader.readInt
        return ((← get).deserializedObjects[objectId.toNat]?).getD .null : Decode Value)
          ⟨Frame.int (BitVec.ofNat 32 handle) ++ rest, handles objects, built⟩ =
        (reading ByteReader.readInt ⟨Frame.int (BitVec.ofNat 32 handle) ++ rest, handles objects, built⟩ >>= fun p =>
          Except.ok ((p.2.deserializedObjects[p.1.toNat]?).getD .null, p.2)) := rfl
    rw [if_pos rfl, hafter, hread rest, ← hobject]
    rfl
  · rw [if_neg hstring]
    exact ⟨r, handle, rfl, rfl, hnumber⟩

end

/-! ## Values one after the other -/

/-- Values of these types pass one after the other. -/
inductive PassesAll (Γ : Jvm) (heap : List Obj) : List (JClass × Value) → List Nat → Bytes → List Nat → Prop
  | nil (objects : List Nat) : PassesAll Γ heap [] objects [] objects
  | cons {c : JClass} {v : Value} {rest : List (JClass × Value)} {objects objects' objects'' : List Nat} {bytes bytes' : Bytes}
    (first : Passes Γ heap c v objects bytes objects') (others : PassesAll Γ heap rest objects' bytes' objects'') :
    PassesAll Γ heap ((c, v) :: rest) objects (bytes ++ bytes') objects''

namespace PassesAll

variable {Γ : Jvm} {heap : List Obj} {values : List (JClass × Value)} {objects objects' : List Nat} {bytes : Bytes}

theorem grows (h : PassesAll Γ heap values objects bytes objects') : objects <+: objects' := by
  induction h with
  | nil objects => exact List.prefix_refl objects
  | cons first others ih => exact first.grows.trans ih

theorem count (h : PassesAll Γ heap values objects bytes objects') : objects'.length ≤ objects.length + bytes.length := by
  induction h with
  | nil objects => exact Nat.le_refl _
  | cons first others ih =>
    have hfirst := first.count
    rw [List.length_append]
    omega

/-- Each value takes a byte at least. -/
theorem length_le (h : PassesAll Γ heap values objects bytes objects') : values.length ≤ bytes.length := by
  induction h with
  | nil objects => exact Nat.le_refl _
  | cons first others ih =>
    have hfirst := first.positive
    rw [List.length_append, List.length_cons]
    omega

theorem met (h : PassesAll Γ heap values objects bytes objects') (hmet : Met heap objects) : Met heap objects' := by
  induction h with
  | nil objects => exact hmet
  | cons first others ih => exact ih first.met

/-- The encoder's loop. -/
theorem encodes {α : Type} {xs : List α} {type : α → JClass} {value : α → Value}
    (h : PassesAll Γ heap (xs.map fun x => (type x, value x)) objects bytes objects') {fuel : Nat}
    (hfuel : heap.length < fuel + objects.length) :
    Encodes (xs.forM fun x => writeValue (serializeObject Γ heap fuel) (type x) (value x)) bytes objects objects' := by
  induction xs generalizing objects bytes with
  | nil =>
    cases h
    exact Puts.nothing fun _ => rfl
  | cons x xs ih =>
    cases h with
    | cons first others =>
      have hle := first.grows.length_le
      exact (first.encodes fuel hfuel).bind (ih others (by omega))

end PassesAll

section

variable {Γ : Jvm} {heap : List Obj} {objects objects' : List Nat} {built : List Obj} {bytes : Bytes}

/-- A value that is read and then found to fit. -/
theorem fitted_decodes {d : Decode Value} {s s' : List Value × List Obj} {c : JClass} {v v' : Value} (hd : Decodes d bytes s v s')
    (hfit : fit Γ s'.2 c v = .ok v') : Decodes (do
      let v ← d
      fit Γ (← get).heap c v) bytes s v' s' := by
  intro rest
  show (d ⟨bytes ++ rest, s.1, s.2⟩ >>= fun p => (liftM (fit Γ p.2.heap c p.1) : Decode Value) p.2) = _
  rw [hd rest]
  show (liftM (fit Γ s'.2 c v) : Decode Value) _ = _
  rw [hfit]
  rfl

/-- The decoder's loop over the elements of an array. -/
theorem PassesAll.elements {component : JClass} {elements : List Value}
    (h : PassesAll Γ heap (elements.map fun x => (component, x)) objects bytes objects')
    (hsuits : ∀ x ∈ elements, Suits Γ heap component x) (hsize : objects.length + bytes.length < 2 ^ 31) (fuel : Nat)
    (hfuel : bytes.length < fuel) (hlockstep : Lockstep heap objects built) :
    ∃ elements' built', Decodes (Stream.times (do
        let v ← readValue Γ (deserializeObject Γ fuel) component
        fit Γ (← get).heap component v) elements.length) bytes (handles objects, built) elements' (handles objects', built') ∧
      Grown Γ heap objects built objects' built' ∧ List.Forall₂ (SameValue (Numbers objects') component) elements elements' := by
  induction elements generalizing objects bytes built with
  | nil =>
    cases h
    exact ⟨[], built, Takes.pure _ _, .refl hlockstep, .nil⟩
  | cons x elements ih =>
    cases h with
    | @cons _ _ _ _ mid _ first rest passes others =>
      rw [List.forall_mem_cons] at hsuits
      rw [List.length_append] at hsize hfuel
      have hcount := passes.count
      obtain ⟨x', built₁, hread, hgrown, hsame⟩ := passes.decodes (by omega) fuel (by omega) built hlockstep
      obtain ⟨elements', built', hreads, hgrown', hsames⟩ := ih others hsuits.2 (by omega) (by omega) hgrown.lockstep
      have hfit := fitted_decodes hread (fit_same hsuits.1 hsame hgrown.lockstep)
      exact ⟨x' :: elements', built', hfit.bind hreads.map, hgrown.trans hgrown' passes.grows others.grows hlockstep,
        .cons (hsame.mono fun _ _ => Numbers.mono others.grows) hsames⟩

/-- An array passes when its elements do. -/
theorem passes_array (hmet : Met heap objects) (c : JClass) {component : JClass} {elements : List Value}
    (h : PassesAll Γ heap (elements.map fun x => (component, x)) objects bytes objects')
    (hsuits : ∀ x ∈ elements, Suits Γ heap component x) : Passes Γ heap (.array component) (.array c elements) objects
      (Frame.int (BitVec.ofNat 32 elements.length) ++ bytes) objects' where
  positive := by
    rw [List.length_append, Frame.int, BigEndian.length_bytes]
    omega
  grows := h.grows
  count := by
    have hcount := h.count
    rw [List.length_append]
    omega
  met := h.met hmet
  encodes := by
    intro fuel hfuel
    exact (writing_encodes (ByteBuffer.writeInt_writes _) objects).bind (h.encodes hfuel)
  decodes := by
    intro hsize fuel hfuel built hlockstep
    have hcount := h.length_le
    rw [List.length_append] at hsize hfuel
    rw [List.length_map] at hcount
    obtain ⟨elements', built', hreads, hgrown, hsames⟩ := h.elements hsuits (by omega) fuel (by omega) hlockstep
    have hlength : (BitVec.ofNat 32 elements.length).toInt = elements.length := toInt_length (by omega)
    have hnull : BitVec.ofNat 32 elements.length ≠ -1 := by
      intro heq
      rw [heq] at hlength
      have hminus : (-1 : BitVec 32).toInt = -1 := by decide
      omega
    refine ⟨.array component elements', built', ?_, hgrown, Or.inr ⟨c, elements, elements', rfl, rfl, hsames⟩⟩
    refine (reading_decodes (ByteReader.readInt_reads _)).bind ?_
    rw [if_neg hnull, if_neg (by omega), hlength, Int.toNat_natCast]
    exact hreads.map

end

/-! ## Objects -/

/-- The decoder has read some fields of an object into the one at the handle: of the others it has changed nothing, and what it has
made since it has filled. -/
structure FieldsRead (Γ : Jvm) (heap : List Obj) (o : Obj) (fields : List Field) (handle : Nat) (old : Obj) (objects : List Nat)
    (built : List Obj) (objects' : List Nat) (built' : List Obj) : Prop where
  lockstep : Lockstep heap objects' built'
  kept : ∀ handle', handle' < built.length → handle' ≠ handle → built'[handle']? = built[handle']?
  filled : ∀ handle', objects.length ≤ handle' → handle' < objects'.length → Filled Γ heap objects' built' handle'
  object : ∃ o', built'[handle]? = some o' ∧ o'.className = old.className ∧
    (∀ field ∈ fields, SameValue (Numbers objects') field.type (o.get field.name) (o'.get field.name)) ∧
    ∀ name ∉ fields.map Field.name, o'.get name = old.get name

section

variable {Γ : Jvm} {heap : List Obj} {objects objects' : List Nat} {built : List Obj} {bytes : Bytes}

/-- To set a field of an object leaves the classes. -/
theorem Lockstep.modify (h : Lockstep heap objects built) (handle : Nat) (name : Text) (v : Value) :
    Lockstep heap objects (built.modify handle (fun o => o.set name v)) where
  length := by rw [List.length_modify, h.length]
  classes := by
    intro r handle' hr
    obtain ⟨o, o', ho, ho', hname⟩ := h.classes r handle' hr
    by_cases heq : handle = handle'
    · refine ⟨o, o'.set name v, ho, ?_, hname⟩
      rw [heq, List.getElem?_modify_eq, ho']
      rfl
    · refine ⟨o, o', ho, ?_, hname⟩
      rw [List.getElem?_modify_ne _ _ heq, ho']

/-- The decoder's loop over the fields of an object. -/
theorem PassesAll.fields {o : Obj} {fields : List Field}
    (h : PassesAll Γ heap (fields.map fun field => (field.type, o.get field.name)) objects bytes objects')
    (hsuits : ∀ field ∈ fields, Suits Γ heap field.type (o.get field.name))
    (hwritten : ∀ field ∈ fields, field.isStatic = false ∧ field.isTransient = false) (hnames : (fields.map Field.name).Nodup)
    (hsize : objects.length + bytes.length < 2 ^ 31) (fuel : Nat) (hfuel : bytes.length < fuel)
    (hlockstep : Lockstep heap objects built) {handle : Nat} {old : Obj} (hold : built[handle]? = some old)
    (hfields : ∀ field ∈ fields, field.name ∈ old.fields.map Prod.fst) :
    ∃ built', Decodes (readFields Γ (deserializeObject Γ fuel) (.object handle) (fields.map fun field => (field, field.type))) bytes
        (handles objects, built) () (handles objects', built') ∧
      FieldsRead Γ heap o fields handle old objects built objects' built' := by
  induction fields generalizing objects bytes built old with
  | nil =>
    cases h
    exact ⟨built, Takes.pure _ _, hlockstep, fun _ _ _ => rfl, fun _ hle hlt => absurd hlt (Nat.not_lt_of_le hle),
      old, hold, rfl, List.forall_mem_nil _, fun _ _ => rfl⟩
  | cons field fields ih =>
    cases h with
    | @cons _ _ _ _ mid _ first rest passes others =>
      rw [List.forall_mem_cons] at hsuits hwritten hfields
      rw [List.map_cons, List.nodup_cons] at hnames
      rw [List.length_append] at hsize hfuel
      have hcount := passes.count
      have hhandle : handle < built.length := (List.getElem?_eq_some_iff.1 hold).1
      have hlength := hlockstep.length
      -- the value is read and stored
      obtain ⟨v', built₁, hread, hgrown, hsame⟩ := passes.decodes (by omega) fuel (by omega) built hlockstep
      have hfit := fit_same hsuits.1 hsame hgrown.lockstep
      have hnow : (built₁.modify handle fun o => o.set field.name v')[handle]? = some (old.set field.name v') := by
        rw [List.getElem?_modify_eq, hgrown.kept handle hhandle, hold]
        rfl
      -- and then the other fields
      obtain ⟨built', hreads, hothers⟩ := ih others hsuits.2 hwritten.2 hnames.2 (by omega) (by omega)
        (hgrown.lockstep.modify handle field.name v') hnow (by rw [Obj.names_set]; exact hfields.2)
      obtain ⟨o', ho', hclass, hsames, huntouched⟩ := hothers.object
      have hlength₁ := hgrown.lockstep.length
      have hgrows := passes.grows.length_le
      refine ⟨built', (readFields_leads hwritten.1.1 hwritten.1.2 hread hfit).takes hreads, hothers.lockstep, ?_, ?_, o', ho',
        hclass, ?_, ?_⟩
      · intro handle' hlt hne
        rw [hothers.kept handle' (by rw [List.length_modify]; omega) hne, List.getElem?_modify_ne _ _ (Ne.symm hne),
          hgrown.kept handle' hlt]
      · intro handle' hle hlt
        by_cases hmid : handle' < mid.length
        · refine (hgrown.filled handle' hle hmid).mono others.grows ?_
          rw [hothers.kept handle' (by rw [List.length_modify]; omega) (by omega), List.getElem?_modify_ne _ _ (by omega)]
        · exact hothers.filled handle' (Nat.le_of_not_lt hmid) hlt
      · rw [List.forall_mem_cons]
        refine ⟨?_, hsames⟩
        rw [huntouched field.name hnames.1, Obj.get_set_self hfields.1]
        exact hsame.mono fun _ _ => Numbers.mono others.grows
      · intro name hname
        rw [List.map_cons, List.mem_cons, not_or] at hname
        rw [huntouched name hname.2, Obj.get_set_of_ne hname.1]

/-- A new object is at the next handle on both sides. -/
theorem Lockstep.concat (h : Lockstep heap objects built) {r : Nat} {o : Obj} (ho : heap[r]? = some o)
    (defaults : List (Text × Value)) : Lockstep heap (objects ++ [r]) (built ++ [⟨o.className, defaults⟩]) where
  length := by
    rw [List.length_append, List.length_append, h.length]
    rfl
  classes := by
    intro r' handle hr'
    by_cases hlt : handle < objects.length
    · rw [Numbers, List.getElem?_append_left hlt] at hr'
      rw [List.getElem?_append_left (by rwa [h.length])]
      exact h.classes r' handle hr'
    · have hlast := hr'.lt
      rw [List.length_append, List.length_singleton] at hlast
      obtain rfl : handle = objects.length := by omega
      rw [Numbers, List.getElem?_concat_length, Option.some.injEq] at hr'
      subst hr'
      refine ⟨o, ⟨o.className, defaults⟩, ho, ?_, rfl⟩
      rw [← h.length, List.getElem?_concat_length]

/-- An object that has not been met passes when its fields do. -/
theorem passes_fresh (hmet : Met heap objects) {name : Text} (hstring : JClass.object name ≠ .string) {r : Nat} {o : Obj}
    {cls : ClassInfo} (hnew : r ∉ objects) (ho : heap[r]? = some o) (hclass : Γ.forName o.className = some cls)
    (hsendable : IsSendable Γ cls) (hname : IsClassName Γ o.className) (hobject : JClass.object o.className ≠ .string)
    (hsuits : ∀ field ∈ serializableFields cls, Suits Γ heap field.type (o.get field.name))
    (h : PassesAll Γ heap ((serializableFields cls).map fun field => (field.type, o.get field.name)) (objects ++ [r]) bytes
      objects') :
    Passes Γ heap (.object name) (.object r) objects ([1] ++ ([0] ++ (Frame.classHeader o.className cls ++ bytes))) objects' where
  positive := by
    rw [List.length_append]
    exact Nat.lt_add_right _ Nat.one_pos
  grows := (List.prefix_append _ _).trans h.grows
  count := by
    have hcount := h.count
    simp only [List.length_append, List.length_singleton] at hcount ⊢
    omega
  met := h.met (hmet.concat hnew (List.getElem?_eq_some_iff.1 ho).1)
  encodes := by
    intro fuel hfuel
    have hle := hmet.length_le
    cases fuel with
    | zero => omega
    | succ fuel =>
      rw [writeValue_object hstring]
      refine serializeObject_writes hnew ho hclass hsendable.accessible (h.encodes ?_)
      rw [List.length_append, List.length_singleton]
      omega
  decodes := by
    intro hsize fuel hfuel built hlockstep
    obtain ⟨defaults, hmade, hfields⟩ := hsendable.constructed
    have hcount := h.length_le
    have hlength := hlockstep.length
    simp only [List.length_append, List.length_singleton, List.length_map] at hsize hfuel hcount
    cases fuel with
    | zero => omega
    | succ fuel =>
      have hnow : (built ++ [⟨o.className, defaults⟩] : List Obj)[built.length]? = some ⟨o.className, defaults⟩ :=
        List.getElem?_concat_length
      obtain ⟨built', hreads, hread⟩ := h.fields hsuits (fun _ => written_of_mem) hsendable.nodup
        (by simp only [List.length_append, List.length_singleton]; omega) fuel (by omega) (hlockstep.concat ho defaults) hnow hfields
      obtain ⟨o', ho', hclassName, hsames, _⟩ := hread.object
      have hnumber : Numbers objects' r built.length := by
        refine Numbers.mono h.grows ?_
        rw [Numbers, hlength, List.getElem?_concat_length]
      have hheader := deserializeObject_goes hclass hname hobject hsendable hmade (by omega) (by omega) (handles objects) built fuel
      refine ⟨.object built.length, built', ?_, ⟨hread.lockstep, ?_, ?_⟩, Or.inr ?_⟩
      · rw [handles_concat, ← hlength] at hreads
        rw [readValue_object hstring, ← List.append_assoc [0], ← List.append_assoc [1]]
        exact hheader.takes hreads.map
      · intro handle hlt
        rw [hread.kept handle (by rw [List.length_append, List.length_singleton]; omega) (Nat.ne_of_lt hlt),
          List.getElem?_append_left hlt]
      · intro handle hle hlt
        by_cases heq : handle = built.length
        · rw [heq]
          exact ⟨r, o, o', cls, hnumber, ho, ho', hclassName, hclass, hsames⟩
        · exact hread.filled handle (by rw [List.length_append, List.length_singleton]; omega) hlt
      · rw [if_neg hstring]
        exact ⟨r, built.length, rfl, rfl, hnumber⟩

end

end Serializer

end FacilityBooking
