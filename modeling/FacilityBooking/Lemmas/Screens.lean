import FacilityBooking.Theorems.Shown

/-!
# Reading a response

What the parsers of the client take out of the texts of the server: of an error its message up to the end of the line, and of labelled
lines the values under their labels.
-/

namespace FacilityBooking

/-! ## Bytes of texts -/

theorem getBytes_intercalate (separator : Text) (ls : List Text) :
    getBytes (separator.intercalate ls) = (getBytes separator).intercalate (ls.map getBytes) := by
  induction ls with
  | nil => rfl
  | cons l ls ih =>
    cases ls with
    | nil => rw [List.map_singleton, List.intercalate_singleton, List.intercalate_singleton]
    | cons l' ls =>
      rw [List.map_cons, List.map_cons] at *
      rw [List.intercalate_cons_cons, List.intercalate_cons_cons, getBytes_append, getBytes_append, ih]

/-- A text whose bytes start with ASCII starts with its characters. -/
theorem exists_of_getBytes_append {start : Text} (hstart : ∀ c ∈ start, c.toNat < 128) {text : Text} {rest : Bytes}
    (h : getBytes text = getBytes start ++ rest) : ∃ tail, text = start ++ tail := by
  induction start generalizing text with
  | nil => exact ⟨text, rfl⟩
  | cons c start ih =>
    rw [List.forall_mem_cons] at hstart
    have hbyte : String.utf8EncodeChar c = [UInt8.ofNat c.toNat] := by
      have hall : ∀ n < 128, String.utf8EncodeChar (Char.ofNat n) = [UInt8.ofNat n] := by decide
      have hc := hall c.toNat hstart.1
      rwa [Char.ofNat_toNat] at hc
    rw [getBytes_cons, hbyte, List.cons_append, List.nil_append, List.cons_append] at h
    cases text with
    | nil => cases h
    | cons d text =>
      rw [getBytes_cons] at h
      have hone : getBytes [d] = String.utf8EncodeChar d := by rw [getBytes_cons]; exact List.append_nil _
      cases henc : String.utf8EncodeChar d with
      | nil => exact absurd (hone.trans henc) (getBytes_ne_nil (List.cons_ne_nil _ _))
      | cons b bs =>
        rw [henc, List.cons_append] at h
        obtain ⟨hb, htail⟩ := List.cons.inj h
        have hlow : b.toNat = c.toNat := by
          rw [hb, UInt8.toNat_ofNat']
          exact Nat.mod_eq_of_lt (by omega)
        obtain ⟨d', hd', hsame⟩ := mem_of_mem_getBytes (by omega : b.toNat < 128)
          (hone.trans henc ▸ List.mem_cons_self : b ∈ getBytes [d])
        rw [List.mem_singleton] at hd'
        have hchar : c = d := Char.ext (UInt32.toNat_inj.1 (hlow.symm.trans (hsame.trans (congrArg Char.toNat hd'))))
        subst hchar
        rw [hbyte] at henc
        obtain ⟨_, rfl⟩ := List.cons.inj henc
        obtain ⟨tail, rfl⟩ := ih hstart.2 htail
        exact ⟨tail, rfl⟩

namespace Cpp

theorem literal_injective {s s' : String} (h : literal s = literal s') : s = s' := String.toList_inj.1 (getBytes_injective h)

namespace ResponseParser

/-! ## The first line -/

theorem isErrorResponse_success (text : Text) :
    isErrorResponse (getBytes ("status:SUCCESS\n".toList ++ text)) = (false, getBytes text) := by
  have hbytes : getBytes ("status:SUCCESS\n".toList ++ text) = literal "status:SUCCESS" ++ 10 :: getBytes text :=
    getBytes_append "status:SUCCESS\n".toList text
  have hother : ¬find (literal "status:SUCCESS") Constants.STATUS_ERROR 0 = some 0 := by
    rw [find_eq_zero_iff]
    decide
  rw [hbytes, isErrorResponse, getline, Delimited.next_append (by decide)]
  exact congrArg (fun b => (b, getBytes text)) (decide_eq_false hother)

theorem isErrorResponse_error (message : Text) :
    isErrorResponse (getBytes ("status:ERROR\nmessage:".toList ++ message)) = (true, getBytes ("message:".toList ++ message)) := by
  have hbytes : getBytes ("status:ERROR\nmessage:".toList ++ message) =
      Constants.STATUS_ERROR ++ 10 :: getBytes ("message:".toList ++ message) := by
    rw [getBytes_append, getBytes_append]
    rfl
  have hstatus : find Constants.STATUS_ERROR Constants.STATUS_ERROR 0 = some 0 := find_eq_zero_iff.2 (List.prefix_refl _)
  rw [hbytes, isErrorResponse, getline, Delimited.next_append (by decide)]
  exact congrArg (fun b => (b, getBytes ("message:".toList ++ message))) (decide_eq_true hstatus)

/-- The line that a text starts with. -/
def firstLine (text : Text) : Text := text.takeWhile (fun c => decide (c ≠ '\n'))

theorem newline_notMem_firstLine (text : Text) : '\n' ∉ firstLine text := by
  intro h
  have hchar := List.mem_takeWhile_imp h
  simp at hchar

/-- A message is read up to the end of its line. -/
theorem errorMessage_eq (message : Text) : errorMessage (getBytes ("message:".toList ++ message)) = getBytes (firstLine message) := by
  have hline : (10 : UInt8) ∉ getBytes ("message:".toList ++ firstLine message) := by
    refine newline_notMem_getBytes fun h => ?_
    rcases List.mem_append.1 h with h | h
    · revert h
      decide
    · exact newline_notMem_firstLine message h
  have hlabel : getBytes ("message:".toList ++ firstLine message) = literal "message:" ++ getBytes (firstLine message) :=
    getBytes_append _ _
  have hnext : ∃ rest, getline (getBytes ("message:".toList ++ message)) 10 =
      some (getBytes ("message:".toList ++ firstLine message), rest) := by
    rw [getline]
    -- the line ends with the text, or with the first newline
    cases hrest : message.dropWhile (fun c => decide (c ≠ '\n')) with
    | nil =>
      have hwhole : firstLine message = message := by
        have happend := List.takeWhile_append_dropWhile (p := fun c => decide (c ≠ '\n')) (l := message)
        rwa [hrest, List.append_nil] at happend
      rw [hwhole] at hline ⊢
      exact ⟨[], Delimited.next_last hline (getBytes_ne_nil (by simp))⟩
    | cons c rest =>
      have hc : c = '\n' := by
        have hhead := List.head?_dropWhile_not (fun c => decide (c ≠ '\n')) message
        rw [hrest] at hhead
        simpa using hhead
      subst hc
      have hsplit : message = firstLine message ++ '\n' :: rest := by
        have happend := List.takeWhile_append_dropWhile (p := fun c => decide (c ≠ '\n')) (l := message)
        rw [hrest] at happend
        exact happend.symm
      have hbytes : getBytes ("message:".toList ++ message) =
          getBytes ("message:".toList ++ firstLine message) ++ 10 :: getBytes rest := by
        conv_lhs => rw [hsplit, ← List.append_assoc, getBytes_append, getBytes_cons]
        rfl
      rw [hbytes]
      exact ⟨_, Delimited.next_append hline _⟩
  obtain ⟨rest, hnext⟩ := hnext
  have hprefix : find (literal "message:" ++ getBytes (firstLine message)) (literal "message:") 0 = some 0 :=
    find_eq_zero_iff.2 (List.prefix_append _ _)
  rw [errorMessage, hnext]
  dsimp only
  rw [hlabel, if_pos hprefix]
  exact List.drop_left' rfl

/-! ## Labelled lines -/

/-- Each label is ended by its only colon, has no newline, and its length is what is removed for it. -/
def AreLabels (labels : List (String × Nat)) : Prop :=
  ∀ label ∈ labels, literal label.1 = (literal label.1).dropLast ++ [58] ∧ (58 : UInt8) ∉ (literal label.1).dropLast ∧
    (10 : UInt8) ∉ literal label.1 ∧ (literal label.1).length = label.2

instance (labels : List (String × Nat)) : Decidable (AreLabels labels) := inferInstanceAs (Decidable (∀ label ∈ labels, _))

variable {labels : List (String × Nat)}

theorem getBytes_line (name : String) (value : Text) : getBytes (line name value) = literal (name ++ ":") ++ getBytes value := by
  have htext : line name value = (name ++ ":").toList ++ value := by
    rw [line, String.toList_append, List.append_assoc]
    rfl
  rw [htext, getBytes_append]
  rfl

/-- No label is read for another. -/
theorem readLabel_line (h : AreLabels labels) {name : String} (hname : name ++ ":" ∈ labels.map Prod.fst) (value : Text) :
    readLabel labels (getBytes (line name value)) = some (name ++ ":", getBytes value) := by
  obtain ⟨label, hlabel, heq⟩ := List.mem_map.1 hname
  obtain ⟨hend', hcolon', _⟩ := h label hlabel
  rw [heq] at hend' hcolon'
  have hreads : ∀ l ∈ labels, (find (getBytes (line name value)) (literal l.1) 0 = some 0 ↔ l.1 = name ++ ":") := by
    intro l hl
    obtain ⟨hend, hcolon, _⟩ := h l hl
    rw [find_eq_zero_iff, getBytes_line]
    constructor
    · intro hprefix
      rw [hend, hend', List.append_assoc, List.singleton_append, Delimited.append_delimiter_prefix_iff hcolon hcolon'] at hprefix
      rw [← List.append_cancel_right_eq _ [58] _, ← hend, ← hend'] at hprefix
      exact literal_injective hprefix
    · intro hsame
      rw [hsame]
      exact List.prefix_append _ _
  have hfirst : ∃ l, labels.find? (fun l => decide (find (getBytes (line name value)) (literal l.1) 0 = some 0)) = some l := by
    rw [← Option.isSome_iff_exists, List.find?_isSome]
    exact ⟨label, hlabel, decide_eq_true ((hreads label hlabel).2 heq)⟩
  obtain ⟨l, hl⟩ := hfirst
  have hmem := List.mem_of_find?_eq_some hl
  have hfound := List.find?_some hl
  rw [decide_eq_true_eq] at hfound
  have hsame := (hreads l hmem).1 hfound
  rw [readLabel, hl, Option.map_some, getBytes_line, ← hsame, List.drop_left' (h l hmem).2.2.2]

/-- The lines of the server are read one by one, whether the last has an end or not. -/
theorem getlines_lines {ls : List Text} (h : ∀ l ∈ ls, '\n' ∉ l ∧ l ≠ []) {text : Text}
    (htext : text = lines ls ∨ text = Delimited.terminated '\n' ls) : getlines (getBytes text) 10 = ls.map getBytes := by
  have hbytes : ∀ l ∈ ls.map getBytes, (10 : UInt8) ∉ l ∧ l ≠ [] := by
    rw [List.forall_mem_map]
    exact fun l hl => ⟨newline_notMem_getBytes (h l hl).1, getBytes_ne_nil (h l hl).2⟩
  rcases htext with rfl | rfl
  · rw [lines, getBytes_intercalate]
    exact Delimited.pieces_intercalate hbytes
  · rw [getBytes_terminated]
    exact Delimited.pieces_terminated fun l hl => (hbytes l hl).1

/-- The text has these lines, the last with or without its end. -/
def IsWritten (text : Text) (ps : List (String × Text)) : Prop :=
  text = lines (ps.map (fun p => line p.1 p.2)) ∨ text = Delimited.terminated '\n' (ps.map (fun p => line p.1 p.2))

/-- The value of a field. -/
def fieldOf (ps : List (String × Text)) : String → Bytes :=
  Fields.fill some (fun _ => []) (ps.map (fun p => (p.1 ++ ":", getBytes p.2)))

/-- Of a success, the values under their labels are shown. -/
theorem parseLabelled_success (h : AreLabels labels) (parsedResponse : (String → Bytes) → List Bytes) {ps : List (String × Text)}
    (hlabels : ∀ p ∈ ps, p.1 ++ ":" ∈ labels.map Prod.fst) (hnewline : ∀ p ∈ ps, '\n' ∉ p.2) {text : Text} (htext : IsWritten text ps) :
    parseLabelled labels parsedResponse (getBytes ("status:SUCCESS\n".toList ++ text)) = parsedResponse (fieldOf ps) := by
  have hlines : ∀ l ∈ ps.map (fun p => line p.1 p.2), '\n' ∉ l ∧ l ≠ [] := by
    rw [List.forall_mem_map]
    intro p hp
    obtain ⟨label, hlabel, hname⟩ := List.mem_map.1 (hlabels p hp)
    obtain ⟨_, _, hline, _⟩ := h label hlabel
    have hcolon : line p.1 p.2 = label.1.toList ++ p.2 := by
      rw [hname, line, String.toList_append, List.append_assoc]
      rfl
    constructor
    · rw [hcolon, List.mem_append, not_or]
      exact ⟨fun hmem => hline (List.mem_flatMap.2 ⟨'\n', hmem, by decide⟩), hnewline p hp⟩
    · rw [line]
      exact List.append_ne_nil_of_right_ne_nil _ (List.cons_ne_nil _ _)
  rw [parseLabelled, isErrorResponse_success]
  dsimp only
  rw [if_neg Bool.false_ne_true, getlines_lines hlines htext, List.map_map]
  exact congrArg parsedResponse (Fields.fill_map fun p hp => readLabel_line h (hlabels p hp) p.2)

/-- Where no name comes twice, a field has the value under its name. -/
theorem fieldOf_eq {ps : List (String × Text)} (hnodup : (ps.map Prod.fst).Nodup) {name label : String} (hlabel : label = name ++ ":")
    {value : Text} (h : (name, value) ∈ ps) : fieldOf ps label = getBytes value := by
  have hlabels : (ps.map (fun p => (p.1 ++ ":", getBytes p.2))).map Prod.fst = (ps.map Prod.fst).map (fun s => s ++ ":") := by
    simp only [List.map_map, Function.comp_def]
  refine Fields.fill_of_nodup ?_ (List.mem_map.2 ⟨(name, value), h, by rw [hlabel]⟩)
  rw [hlabels]
  exact hnodup.map fun _ _ heq => (String.append_left_inj ":").1 heq

/-- Of an error, its message is shown. -/
theorem parseLabelled_error (labels : List (String × Nat)) (parsedResponse : (String → Bytes) → List Bytes) (message : Text) :
    parseLabelled labels parsedResponse (getBytes ("status:ERROR\nmessage:".toList ++ message)) =
      [literal "Error", getBytes (firstLine message)] := by
  rw [parseLabelled, isErrorResponse_error]
  exact congrArg (fun bytes => [literal "Error", bytes]) (errorMessage_eq message)

end ResponseParser

end Cpp

end FacilityBooking
