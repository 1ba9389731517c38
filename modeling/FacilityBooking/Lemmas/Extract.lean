import FacilityBooking.Client.Operations

/-!
# Reading the lines of a response

`find` finds the first place of a label, and a label that ends in a colon and is part of no line before its own is found at its own
line, whose value is what the client extracts.
-/

namespace FacilityBooking.Cpp

/-! ## Parts of a string -/

section

variable {label x y : Bytes} {c : UInt8}

/-- A part without a byte lies before or after it. -/
theorem infix_cut (hc : c ∉ label) (h : label <:+: x ++ c :: y) : label <:+: x ∨ label <:+: y := by
  obtain ⟨p, q, hpq⟩ := h
  rw [List.append_assoc, List.append_eq_append_iff] at hpq
  rcases hpq with ⟨a, rfl, ha⟩ | ⟨a, rfl, ha⟩
  · rw [List.append_eq_append_iff] at ha
    rcases ha with ⟨d, rfl, _⟩ | ⟨d, rfl, hd⟩
    · exact Or.inl ⟨p, d, List.append_assoc _ _ _⟩
    · cases d with
      | nil => exact Or.inl ⟨p, [], by simp⟩
      | cons z d =>
        obtain ⟨rfl, _⟩ := List.cons.inj hd
        exact absurd (List.mem_append_right _ List.mem_cons_self) hc
  · cases a with
    | nil =>
      cases label with
      | nil => exact Or.inl (List.nil_infix)
      | cons z label =>
        obtain ⟨rfl, _⟩ := List.cons.inj ha
        exact absurd List.mem_cons_self hc
    | cons z a =>
      obtain ⟨_, rfl⟩ := List.cons.inj ha
      exact Or.inr ⟨a, q, List.append_assoc _ _ _⟩

/-- A part that has a byte only at its end lies up to that byte or after it. -/
theorem infix_colon (hc : c ∉ label) (h : label ++ [c] <:+: x ++ c :: y) : label ++ [c] <:+: x ++ [c] ∨ label ++ [c] <:+: y := by
  obtain ⟨p, q, hpq⟩ := h
  rw [List.append_assoc, List.append_assoc, List.append_eq_append_iff] at hpq
  rcases hpq with ⟨a, rfl, ha⟩ | ⟨a, rfl, ha⟩
  · rw [List.append_eq_append_iff] at ha
    rcases ha with ⟨d, rfl, hd⟩ | ⟨d, rfl, hd⟩
    · cases d with
      | nil => exact Or.inl ⟨p, [], by simp⟩
      | cons z d =>
        obtain ⟨rfl, _⟩ := List.cons.inj hd
        exact Or.inl ⟨p, d ++ [c], by simp⟩
    · cases d with
      | nil => exact Or.inl ⟨p, [], by simp⟩
      | cons z d =>
        obtain ⟨rfl, _⟩ := List.cons.inj hd
        exact absurd (List.mem_append_right _ List.mem_cons_self) hc
  · cases a with
    | nil =>
      cases label with
      | nil => exact Or.inl ⟨x, [], by simp⟩
      | cons z label =>
        obtain ⟨rfl, _⟩ := List.cons.inj ha
        exact absurd List.mem_cons_self hc
    | cons z a =>
      obtain ⟨_, rfl⟩ := List.cons.inj ha
      exact Or.inr ⟨a, q, by simp⟩

end

/-! ## Finding -/

/-- What is found is the first place. -/
theorem find_eq_some {s part : Bytes} {pos i : Nat} (hpos : pos ≤ i) (hi : i ≤ s.length) (hat : part <+: s.drop i)
    (hbefore : ∀ j, pos ≤ j → j < i → ¬part <+: s.drop j) : find s part pos = some i := by
  have hrange : List.range' pos (s.length + 1 - pos) = List.range' pos (i - pos) ++ List.range' i (s.length + 1 - i) := by
    have hsplit := @List.range'_append pos (i - pos) (s.length + 1 - i) 1
    rw [show pos + 1 * (i - pos) = i by omega, show i - pos + (s.length + 1 - i) = s.length + 1 - pos by omega] at hsplit
    exact hsplit.symm
  have hnone : (List.range' pos (i - pos)).find? (fun j => part.isPrefixOf (s.drop j)) = none := by
    rw [List.find?_eq_none]
    intro j hj hprefix
    rw [List.mem_range'_1] at hj
    exact hbefore j hj.1 (by omega) (List.isPrefixOf_iff_prefix.1 hprefix)
  have hhead : List.range' i (s.length + 1 - i) = i :: List.range' (i + 1) (s.length - i) := by
    rw [show s.length + 1 - i = s.length - i + 1 by omega, List.range'_succ]
  have hfirst : part.isPrefixOf (s.drop i) = true := List.isPrefixOf_iff_prefix.2 hat
  rw [find, hrange, List.find?_append, hnone, hhead, List.find?_cons, hfirst]
  rfl

/-- A string is found at the start exactly when it stands there. -/
theorem find_eq_zero_iff {s part : Bytes} : find s part 0 = some 0 ↔ part <+: s := by
  constructor
  · intro h
    have hat := List.find?_some h
    rwa [List.drop_zero, List.isPrefixOf_iff_prefix] at hat
  · intro h
    exact find_eq_some (Nat.le_refl 0) (Nat.zero_le _) h fun j _ hj => absurd hj (Nat.not_lt_zero j)

/-- A string that is no part of what is before it, its last byte apart, is found where it stands. -/
theorem find_first {before part : Bytes} (after : Bytes) {c : UInt8} (h : ¬part ++ [c] <:+: before ++ part) :
    find (before ++ ((part ++ [c]) ++ after)) (part ++ [c]) 0 = some before.length := by
  refine find_eq_some (Nat.zero_le _) ?_ ?_ ?_
  · rw [List.length_append]
    omega
  · rw [List.drop_left]
    exact List.prefix_append _ _
  · intro j _ hj hprefix
    refine h ?_
    have hsplit : before ++ ((part ++ [c]) ++ after) = (before ++ part) ++ ([c] ++ after) := by simp only [List.append_assoc]
    rw [hsplit, List.drop_append_of_le_length (by rw [List.length_append]; omega)] at hprefix
    have hlength : (part ++ [c]).length ≤ ((before ++ part).drop j).length := by
      simp only [List.length_drop, List.length_append, List.length_singleton]
      omega
    exact (List.prefix_of_prefix_length_le hprefix (List.prefix_append _ _) hlength).isInfix.trans (List.drop_suffix _ _).isInfix

/-- The end of a line is found at the end of its text. -/
theorem find_newline (before : Bytes) {value : Bytes} (after : Bytes) (h : (10 : UInt8) ∉ value) :
    find (before ++ (value ++ 10 :: after)) [10] before.length = some (before.length + value.length) := by
  refine find_eq_some (Nat.le_add_right _ _) ?_ ?_ ?_
  · simp only [List.length_append]
    omega
  · rw [List.drop_length_add_append, List.drop_left]
    exact ⟨after, rfl⟩
  · intro j hle hlt hprefix
    obtain ⟨k, rfl⟩ := Nat.exists_eq_add_of_le hle
    have hk : k < value.length := by omega
    rw [List.drop_length_add_append, List.drop_append_of_le_length (by omega), List.drop_eq_getElem_cons hk] at hprefix
    have hhead := List.cons_prefix_cons.1 hprefix
    exact h (hhead.1 ▸ List.getElem_mem hk)

/-! ## Lines -/

/-- Lines, each with its end. -/
def unlines (ls : List Bytes) : Bytes := ls.flatMap (fun l => l ++ [10])

/-- A part without a newline is part of a line. -/
theorem not_infix_unlines {label tail : Bytes} (hlabel : (10 : UInt8) ∉ label) (htail : ¬label <:+: tail) {ls : List Bytes}
    (h : ∀ l ∈ ls, ¬label <:+: l) : ¬label <:+: unlines ls ++ tail := by
  induction ls with
  | nil => exact htail
  | cons l ls ih =>
    have hsplit : unlines (l :: ls) ++ tail = l ++ 10 :: (unlines ls ++ tail) := by
      simp only [unlines, List.flatMap_cons, List.append_assoc, List.cons_append, List.nil_append]
    rw [hsplit]
    intro hin
    rcases infix_cut hlabel hin with hl | hls
    · exact h l List.mem_cons_self hl
    · exact ih (fun x hx => h x (List.mem_cons_of_mem l hx)) hls

/-- What is extracted is the value of the line of the label. -/
theorem extract_unlines {label : String} (part : Bytes) (hlabel : literal label = part ++ [58])
    (hend : (10 : UInt8) ∉ literal label) (before : List Bytes) {after : List Bytes}
    (hbefore : ∀ l ∈ before, ¬literal label <:+: l) {value : Bytes} (hvalue : (10 : UInt8) ∉ value) :
    Client.extract label (unlines (before ++ (literal label ++ value) :: after)) = value := by
  have hpart : ¬part ++ [58] <:+: part := by
    intro h
    have hlength := h.length_le
    rw [List.length_append, List.length_singleton] at hlength
    omega
  have hsplit : unlines (before ++ (literal label ++ value) :: after) =
      unlines before ++ ((part ++ [58]) ++ (value ++ 10 :: unlines after)) := by
    simp only [unlines, List.flatMap_append, List.flatMap_cons, hlabel, List.append_assoc, List.cons_append, List.nil_append]
  have hfound := find_first (value ++ 10 :: unlines after) (not_infix_unlines (hlabel ▸ hend) hpart (hlabel ▸ hbefore))
  have hlength : (unlines before).length + (part ++ [58]).length = (unlines before ++ (part ++ [58])).length :=
    List.length_append.symm
  have hstop := find_newline (unlines before ++ (part ++ [58])) (unlines after) hvalue
  rw [List.append_assoc] at hstop
  have hassoc : unlines before ++ ((part ++ [58]) ++ (value ++ 10 :: unlines after)) =
      (unlines before ++ (part ++ [58])) ++ (value ++ 10 :: unlines after) := (List.append_assoc _ _ _).symm
  have hdrop : (unlines before ++ ((part ++ [58]) ++ (value ++ 10 :: unlines after))).drop
      (unlines before ++ (part ++ [58])).length = value ++ 10 :: unlines after := by
    rw [hassoc, List.drop_left]
  rw [hsplit, Client.extract, hlabel, hfound]
  simp only [hlength, show literal "\n" = [10] from rfl, hstop, hdrop, Nat.add_sub_cancel_left, List.take_left]

/-- A label is part of a line only as the line's own name or in its value. -/
theorem not_infix_line {part name value : Bytes} (hpart : (58 : UInt8) ∉ part) (hname : ¬part ++ [58] <:+: name ++ [58])
    (hvalue : ¬part ++ [58] <:+: value) : ¬part ++ [58] <:+: (name ++ [58]) ++ value := by
  intro h
  rw [List.append_assoc] at h
  rcases infix_colon hpart h with h | h
  · exact hname h
  · exact hvalue h

end FacilityBooking.Cpp
