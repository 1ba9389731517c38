import FacilityBooking.Lemmas.Lockstep
import FacilityBooking.Lib.Graph

/-!
# Object graphs

A heap of objects that refer to each other in any way, shared and in cycles, passes through the Java serializer and comes back as a
graph of the same shape. The encoder comes to an end because every object that it descends into is one that it has not met.
-/

namespace FacilityBooking

open Serializer Stream

/-! ## Graphs -/

/-- An object of a class that is sent, each field of which suits its type. -/
structure IsNode (Γ : Jvm) (heap : List Obj) (o : Obj) (cls : ClassInfo) : Prop where
  found : Γ.forName o.className = some cls
  named : IsClassName Γ o.className
  object : JClass.object o.className ≠ .string
  sendable : IsSendable Γ cls
  fields : ∀ field ∈ serializableFields cls, Suits Γ heap field.type (o.get field.name)

/-- All objects of the heap are such. -/
def IsGraph (Γ : Jvm) (heap : List Obj) : Prop := ∀ o ∈ heap, ∃ cls, IsNode Γ heap o cls

/-- An object of the heap, or null. -/
def IsRoot (heap : List Obj) (v : Value) : Prop := v = .null ∨ ∃ r, v = .object r ∧ r < heap.length

/-- Two objects of one class whose fields hold the same values, objects being the same when the relation holds of them. -/
def SameFields (Γ : Jvm) (heap heap' : List Obj) (R : Nat → Nat → Prop) (r r' : Nat) : Prop :=
  ∃ o o' cls, heap[r]? = some o ∧ heap'[r']? = some o' ∧ o'.className = o.className ∧ Γ.forName o.className = some cls ∧
    ∀ field ∈ serializableFields cls, SameValue R field.type (o.get field.name) (o'.get field.name)

/-- The graphs that are reached from two values are isomorphic: a relation that is one to one holds of the values and, with any two
objects, of what their fields hold. -/
def Isomorphic (Γ : Jvm) (heap : List Obj) (v : Value) (heap' : List Obj) (v' : Value) : Prop :=
  ∃ R : Nat → Nat → Prop, Relator.BiUnique R ∧ (v = .null ∧ v' = .null ∨ ∃ r r', v = .object r ∧ v' = .object r' ∧ R r r') ∧
    ∀ r r', R r r' → SameFields Γ heap heap' R r r'

/-! ## Paths -/

/-- The object that is found at some places, one array within the other. -/
def Value.reference : List Nat → Value → Option Nat
  | [], .object r => some r
  | i :: places, .array _ elements => elements[i]?.bind (Value.reference places)
  | _, _ => none

/-- The object that a field of an object holds, or an array in that field at some places. -/
def edge (Γ : Jvm) (heap : List Obj) (r : Nat) (l : Text × List Nat) : Option Nat :=
  heap[r]?.bind fun o => (Γ.forName o.className).bind fun cls =>
    ((serializableFields cls).find? (fun field => decide (field.name = l.1))).bind fun field => (o.get field.name).reference l.2

/-- The object that a path leads to from a value. -/
def reach (Γ : Jvm) (heap : List Obj) (v : Value) (path : List (Text × List Nat)) : Option Nat :=
  (v.reference []).bind (Graph.follow (edge Γ heap) path)

section

variable {Γ : Jvm} {heap heap' : List Obj} {R : Nat → Nat → Prop}

/-- The same values hold the same objects at the same places. -/
theorem reference_rel {c : JClass} {v v' : Value} (hsuits : Suits Γ heap c v) (h : SameValue R c v v') (places : List Nat) :
    Option.Rel R (v.reference places) (v'.reference places) := by
  induction c generalizing v v' places with
  | primitive p =>
    obtain rfl : v' = v.canonical := h
    cases p with
    | int =>
      obtain ⟨i, rfl⟩ := hsuits
      cases places <;> exact .none
    | long =>
      obtain ⟨i, rfl⟩ := hsuits
      cases places <;> exact .none
    | double =>
      obtain ⟨bits, rfl⟩ := hsuits
      cases places <;> exact .none
    | _ => exact hsuits.elim
  | array component ih =>
    rcases h with ⟨rfl, rfl⟩ | ⟨c, elements, elements', rfl, rfl, helements⟩
    · cases places <;> exact .none
    · rcases hsuits with hnull | ⟨_, _, heq, hsuits⟩
      · cases hnull
      · cases heq
        cases places with
        | nil => exact .none
        | cons i places =>
          rw [Value.reference, Value.reference]
          rw [List.forall₂_iff_get] at helements
          by_cases hi : i < elements.length
          · have hi' : i < elements'.length := by rwa [← helements.1]
            rw [List.getElem?_eq_getElem hi, List.getElem?_eq_getElem hi']
            exact ih (hsuits _ (List.getElem_mem hi)) (helements.2 i hi hi') places
          · rw [List.getElem?_eq_none (Nat.le_of_not_lt hi), List.getElem?_eq_none (by omega)]
            exact .none
  | object name =>
    rcases h with ⟨rfl, rfl⟩ | h
    · cases places <;> exact .none
    · split at h
      · obtain ⟨t, rfl, rfl⟩ := h
        cases places <;> exact .none
      · obtain ⟨r, r', rfl, rfl, hr⟩ := h
        cases places with
        | nil => exact .some hr
        | cons i places => exact .none

/-- Objects with the same fields are kept by every edge. -/
theorem keeps_edge (hgraph : IsGraph Γ heap) (h : ∀ r r', R r r' → SameFields Γ heap heap' R r r') :
    Graph.Keeps R (edge Γ heap) (edge Γ heap') := by
  intro r r' hr l
  obtain ⟨o, o', cls, ho, ho', hclass, hfound, hsame⟩ := h r r' hr
  obtain ⟨cls', hnode⟩ := hgraph o (List.mem_of_getElem? ho)
  cases hfound.symm.trans hnode.found
  simp only [edge, ho, ho', hclass, hfound, Option.bind_some]
  cases hfield : (serializableFields cls).find? (fun field => decide (field.name = l.1)) with
  | none => exact .none
  | some field =>
    have hmem := List.mem_of_find?_eq_some hfield
    exact reference_rel (hnode.fields field hmem) (hsame field hmem) l.2

/-- In isomorphic graphs the same paths lead to one object. -/
theorem Isomorphic.paths (hgraph : IsGraph Γ heap) {v v' : Value} (h : Isomorphic Γ heap v heap' v')
    (path path' : List (Text × List Nat)) :
    reach Γ heap v path = reach Γ heap v path' ↔ reach Γ heap' v' path = reach Γ heap' v' path' := by
  obtain ⟨R, hunique, hroot, hsame⟩ := h
  rcases hroot with ⟨rfl, rfl⟩ | ⟨r, r', rfl, rfl, hr⟩
  · exact ⟨fun _ => rfl, fun _ => rfl⟩
  · exact Graph.follow_eq_iff hunique (keeps_edge hgraph hsame) path path' hr

end

/-! ## Every value of a graph passes -/

section

variable {Γ : Jvm} {heap : List Obj}

/-- Values pass one after the other when each of them does. -/
theorem exists_passesAll {n : Nat} {values : List (JClass × Value)}
    (h : ∀ p ∈ values, ∀ objects, Met heap objects → heap.length ≤ objects.length + n →
      ∃ bytes objects', Passes Γ heap p.1 p.2 objects bytes objects')
    {objects : List Nat} (hmet : Met heap objects) (hn : heap.length ≤ objects.length + n) :
    ∃ bytes objects', PassesAll Γ heap values objects bytes objects' := by
  induction values generalizing objects with
  | nil => exact ⟨[], objects, .nil objects⟩
  | cons p values ih =>
    rw [List.forall_mem_cons] at h
    obtain ⟨bytes, mid, hfirst⟩ := h.1 objects hmet hn
    have hgrows := hfirst.grows.length_le
    obtain ⟨bytes', objects', hothers⟩ := ih h.2 hfirst.met (by omega)
    exact ⟨bytes ++ bytes', objects', .cons hfirst hothers⟩

/-- Every value passes: by induction on the number of objects not met, and for one number on the type. -/
theorem exists_passes (hgraph : IsGraph Γ heap) (n : Nat) (c : JClass) : ∀ v objects, Suits Γ heap c v → Met heap objects →
    heap.length ≤ objects.length + n → ∃ bytes objects', Passes Γ heap c v objects bytes objects' := by
  induction n using Nat.strong_induction_on generalizing c with
  | _ n ihn =>
    induction c with
    | primitive p =>
      intro v objects hsuits hmet hn
      cases p with
      | int =>
        obtain ⟨i, rfl⟩ := hsuits
        exact ⟨_, objects, passes_int hmet i⟩
      | long =>
        obtain ⟨i, rfl⟩ := hsuits
        exact ⟨_, objects, passes_long hmet i⟩
      | double =>
        obtain ⟨bits, rfl⟩ := hsuits
        exact ⟨_, objects, passes_double hmet bits⟩
      | _ => exact hsuits.elim
    | array component ih =>
      intro v objects hsuits hmet hn
      rcases hsuits with rfl | ⟨c, elements, rfl, hsuits⟩
      · exact ⟨_, objects, passes_nullArray hmet component⟩
      · have helements : ∀ p ∈ elements.map fun x => (component, x), ∀ objects, Met heap objects →
            heap.length ≤ objects.length + n → ∃ bytes objects', Passes Γ heap p.1 p.2 objects bytes objects' := by
          rw [List.forall_mem_map]
          exact fun x hx objects => ih x objects (hsuits x hx)
        obtain ⟨bytes, objects', h⟩ := exists_passesAll helements hmet hn
        exact ⟨_, objects', passes_array hmet c h hsuits⟩
    | object name =>
      intro v objects hsuits hmet hn
      rcases hsuits with rfl | hsuits
      · exact ⟨_, objects, passes_null hmet name⟩
      · split at hsuits
        · rename_i hstring
          obtain ⟨t, rfl⟩ := hsuits
          exact ⟨_, objects, passes_string hmet hstring t⟩
        · rename_i hstring
          obtain ⟨r, o, rfl, ho, _⟩ := hsuits
          cases hhandle : objects.idxOf? r with
          | some handle => exact ⟨_, objects, passes_seen hmet hstring hhandle⟩
          | none =>
            -- one object fewer has not been met when its fields are written
            have hnew : r ∉ objects := List.idxOf?_eq_none_iff.1 hhandle
            have hmet' := hmet.concat hnew (List.getElem?_eq_some_iff.1 ho).1
            have hle := hmet'.length_le
            rw [List.length_append, List.length_singleton] at hle
            obtain ⟨cls, hnode⟩ := hgraph o (List.mem_of_getElem? ho)
            have hfields : ∀ p ∈ (serializableFields cls).map fun field => (field.type, o.get field.name), ∀ objects,
                Met heap objects → heap.length ≤ objects.length + (n - 1) →
                ∃ bytes objects', Passes Γ heap p.1 p.2 objects bytes objects' := by
              rw [List.forall_mem_map]
              exact fun field hfield objects => ihn (n - 1) (by omega) field.type _ objects (hnode.fields field hfield)
            obtain ⟨bytes, objects', h⟩ := exists_passesAll hfields hmet'
              (by rw [List.length_append, List.length_singleton]; omega)
            exact ⟨_, objects', passes_fresh hmet hstring hnew ho hnode.found hnode.sendable hnode.named hnode.object
              hnode.fields h⟩

/-- The class that the value at the root is taken to be declared with. -/
theorem exists_rootClass (hgraph : IsGraph Γ heap) {v : Value} (hroot : IsRoot heap v) :
    ∃ name, JClass.object name ≠ .string ∧ Suits Γ heap (.object name) v := by
  rcases hroot with rfl | ⟨r, rfl, hr⟩
  · exact ⟨[], by decide, Or.inl rfl⟩
  · obtain ⟨cls, hnode⟩ := hgraph heap[r] (List.getElem_mem hr)
    refine ⟨heap[r].className, hnode.object, Or.inr ?_⟩
    rw [if_neg hnode.object]
    exact ⟨r, heap[r], rfl, List.getElem?_eq_getElem hr, Γ.isAssignable_refl _⟩

theorem exists_rootPasses (hgraph : IsGraph Γ heap) {v : Value} (hroot : IsRoot heap v) :
    ∃ name payload objects, JClass.object name ≠ .string ∧ Passes Γ heap (.object name) v [] payload objects := by
  obtain ⟨name, hstring, hsuits⟩ := exists_rootClass hgraph hroot
  obtain ⟨payload, objects, h⟩ := exists_passes hgraph heap.length (.object name) v [] hsuits
    ⟨List.nodup_nil, List.forall_mem_nil _⟩ (Nat.le_add_left _ _)
  exact ⟨name, payload, objects, hstring, h⟩

variable {name : Text} {v : Value} {payload : Bytes} {objects : List Nat}

/-- The encoder at the root, which may descend once more than there are objects. -/
theorem encodes_of_passes (hstring : JClass.object name ≠ .string) (h : Passes Γ heap (.object name) v [] payload objects)
    {fuel : Nat} (hfuel : heap.length < fuel) : Encodes (serializeObject Γ heap fuel v) payload [] objects := by
  have hwrite := h.encodes fuel hfuel
  rwa [writeValue_object hstring] at hwrite

/-- It is serialized if it fits the buffer with its parity. -/
theorem serialize_of_passes (hstring : JClass.object name ≠ .string) (h : Passes Γ heap (.object name) v [] payload objects) :
    (payload.length < capacity ∧ serialize Γ heap v = .ok (Frame.withParity payload)) ∨
    (capacity ≤ payload.length ∧ ∃ x, serialize Γ heap v = .error x) := by
  have hlength : (Frame.withParity payload).length = payload.length + 1 := List.length_append
  have hcases := serialize_cases (encodes_of_passes hstring h (Nat.lt_succ_self _))
  rwa [hlength, Nat.succ_le_iff, Nat.lt_succ_iff] at hcases

/-- And then it is deserialized. -/
theorem deserialize_of_passes (hstring : JClass.object name ≠ .string) (h : Passes Γ heap (.object name) v [] payload objects)
    (hfits : payload.length < capacity) : ∃ value heap', deserialize Γ (Frame.withParity payload) = .ok (value, heap') ∧
      Grown Γ heap [] [] objects heap' ∧ SameValue (Numbers objects) (.object name) v value := by
  have hcapacity : capacity < 2 ^ 31 := by decide
  obtain ⟨value, heap', hread, hgrown, hsame⟩ := h.decodes (by rw [List.length_nil]; omega) (payload.length + 1)
    (Nat.lt_succ_self _) [] ⟨rfl, fun r handle hr => absurd hr.lt (Nat.not_lt_zero _)⟩
  refine ⟨value, heap', ?_, hgrown, hsame⟩
  have hrun := hread []
  rw [List.append_nil, readValue_object hstring] at hrun
  have hstart : (⟨payload, handles [], []⟩ : Decoder) = ⟨payload, [], []⟩ := rfl
  rw [deserialize_withParity, ← hstart, hrun]
  rfl

/-- What both sides have met in the end, and filled, is the graph. -/
theorem isomorphic_of_grown (hstring : JClass.object name ≠ .string) {heap' : List Obj} {v' : Value}
    (hmet : Met heap objects) (hgrown : Grown Γ heap [] [] objects heap')
    (hsame : SameValue (Numbers objects) (.object name) v v') : Isomorphic Γ heap v heap' v' := by
  refine ⟨Numbers objects, ⟨?_, ?_⟩, ?_, ?_⟩
  · intro r r' handle hr hr'
    exact Option.some.inj (hr.symm.trans hr')
  · intro r handle handle' hr hr'
    exact (List.Nodup.getElem_inj_iff hmet.nodup).1 ((List.getElem?_eq_some_iff.1 hr).2.trans (List.getElem?_eq_some_iff.1 hr').2.symm)
  · rcases hsame with hnull | hsame
    · exact Or.inl hnull
    · rw [if_neg hstring] at hsame
      exact Or.inr hsame
  · intro r handle hr
    obtain ⟨r', o, o', cls, hr', ho, ho', hname, hclass, hfields⟩ := hgrown.filled handle (Nat.zero_le _) hr.lt
    cases Option.some.inj (hr.symm.trans hr')
    exact ⟨o, o', cls, ho, ho', hname, hclass, hfields⟩

end

/-- Of every graph, however its objects refer to each other, the encoder writes some bytes, the same with any number of descents that
is greater than the number of objects. If they fit the buffer with their parity, the graph is serialized to them and deserialized to
one that is isomorphic, in which two paths lead to one object exactly when they did; otherwise `serialize` throws. -/
theorem graph_roundTrip (Γ : Jvm) (heap : List Obj) (root : Value) (hgraph : IsGraph Γ heap) (hroot : IsRoot heap root) :
    ∃ payload objects, (∀ fuel, heap.length < fuel → Encodes (serializeObject Γ heap fuel root) payload [] objects) ∧
      (payload.length < capacity → ∃ frame value heap', serialize Γ heap root = .ok frame ∧ frame = Frame.withParity payload ∧
        deserialize Γ frame = .ok (value, heap') ∧ Isomorphic Γ heap root heap' value ∧
        ∀ path path', reach Γ heap root path = reach Γ heap root path' ↔ reach Γ heap' value path = reach Γ heap' value path') ∧
      (capacity ≤ payload.length → ∃ x, serialize Γ heap root = .error x) := by
  obtain ⟨name, payload, objects, hstring, hpasses⟩ := exists_rootPasses hgraph hroot
  refine ⟨payload, objects, fun fuel hfuel => encodes_of_passes hstring hpasses hfuel, fun hfits => ?_, fun hlong => ?_⟩
  · obtain ⟨value, heap', hdeserialize, hgrown, hsame⟩ := deserialize_of_passes hstring hpasses hfits
    have hisomorphic := isomorphic_of_grown hstring hpasses.met hgrown hsame
    rcases serialize_of_passes hstring hpasses with ⟨_, hserialize⟩ | ⟨hlong, _⟩
    · exact ⟨_, value, heap', hserialize, rfl, hdeserialize, hisomorphic, hisomorphic.paths hgraph⟩
    · exact absurd hfits (Nat.not_lt_of_le hlong)
  · rcases serialize_of_passes hstring hpasses with ⟨hfits, _⟩ | ⟨_, herror⟩
    · exact absurd hfits (Nat.not_lt_of_le hlong)
    · exact herror

/-! ## Two nodes in a ring -/

/-- A class of nodes with a number, another node, some nodes and a label, and a runtime that knows it. -/
def nodeClass : ClassInfo where
  declaredFields :=
    [⟨"number".toList, .primitive .int, false, false⟩, ⟨"next".toList, .object "Node".toList, false, false⟩,
      ⟨"others".toList, .array (.object "Node".toList), false, false⟩, ⟨"label".toList, .string, false, false⟩]
  accessible := true
  newInstance := some [("number".toList, .int 0), ("next".toList, .null), ("others".toList, .null), ("label".toList, .null)]

def nodeJdk : Jvm where
  __ := openJdk
  forName := fun name => if name = "Node".toList then some nodeClass else openJdk.forName name
  forName_requestMessage := rfl
  forName_string := rfl

/-- Two nodes, each the next of the other; the first is also among the others of both. -/
def ring : List Obj :=
  [⟨"Node".toList, [("number".toList, .int 1), ("next".toList, .object 1),
      ("others".toList, .array (.object "Node".toList) [.object 0, .null, .object 1]), ("label".toList, .string "first".toList)]⟩,
    ⟨"Node".toList, [("number".toList, .int 2), ("next".toList, .object 0),
      ("others".toList, .array (.object "Node".toList) [.object 0]), ("label".toList, .null)]⟩]

theorem isClassName_node : IsClassName nodeJdk "Node".toList where
  keyword := by
    intro p
    cases p <;> decide
  array := by decide
  known := rfl

theorem serializableFields_node : serializableFields nodeClass = nodeClass.declaredFields := rfl

theorem isSendable_node : IsSendable nodeJdk nodeClass where
  accessible := rfl
  names := by decide
  types := by
    rw [serializableFields_node]
    simp only [nodeClass, List.forall_mem_cons, Nameable]
    refine ⟨by decide, isClassName_node, ⟨by decide, isClassName_node⟩, ⟨fun p => ?_, by decide, rfl⟩, List.forall_mem_nil _⟩
    cases p <;> decide
  constructed := by
    refine ⟨_, rfl, ?_⟩
    rw [serializableFields_node]
    decide

theorem isGraph_ring : IsGraph nodeJdk ring := by
  have hnode : ∀ r o, ring[r]? = some o → o.className = "Node".toList → Suits nodeJdk ring (.object "Node".toList) (.object r) :=
    fun r o ho hname => Or.inr ⟨r, o, rfl, ho, by rw [hname]; rfl⟩
  have hzero := hnode 0 _ rfl rfl
  have hone := hnode 1 _ rfl rfl
  have hnull : Suits nodeJdk ring (.object "Node".toList) .null := Or.inl rfl
  unfold IsGraph
  rw [ring, List.forall_mem_cons, List.forall_mem_singleton]
  refine ⟨⟨nodeClass, rfl, isClassName_node, by decide, isSendable_node, ?_⟩,
    ⟨nodeClass, rfl, isClassName_node, by decide, isSendable_node, ?_⟩⟩
  · rw [serializableFields_node]
    simp only [nodeClass, List.forall_mem_cons]
    refine ⟨⟨1, rfl⟩, hone, Or.inr ⟨_, _, rfl, ?_⟩, Or.inr ⟨_, rfl⟩, List.forall_mem_nil _⟩
    simp only [List.forall_mem_cons]
    exact ⟨hzero, hnull, hone, List.forall_mem_nil _⟩
  · rw [serializableFields_node]
    simp only [nodeClass, List.forall_mem_cons]
    refine ⟨⟨2, rfl⟩, hzero, Or.inr ⟨_, _, rfl, ?_⟩, Or.inl rfl, List.forall_mem_nil _⟩
    simp only [List.forall_mem_cons]
    exact ⟨hzero, List.forall_mem_nil _⟩

theorem graph_roundTrip_ring : ∃ frame value heap', serialize nodeJdk ring (.object 0) = .ok frame ∧
    deserialize nodeJdk frame = .ok (value, heap') ∧ Isomorphic nodeJdk ring (.object 0) heap' value := by
  have hok : (serialize nodeJdk ring (.object 0)).isOk = true := by decide +kernel
  obtain ⟨payload, objects, _, hfits, hlong⟩ := graph_roundTrip nodeJdk ring (.object 0) isGraph_ring (Or.inr ⟨0, rfl, by decide⟩)
  by_cases hlength : payload.length < capacity
  · obtain ⟨frame, value, heap', hserialize, _, hdeserialize, hisomorphic, _⟩ := hfits hlength
    exact ⟨frame, value, heap', hserialize, hdeserialize, hisomorphic⟩
  · obtain ⟨x, hx⟩ := hlong (Nat.le_of_not_lt hlength)
    rw [hx] at hok
    cases hok

end FacilityBooking
