import Mathlib.Data.List.Infix
import Mathlib.Data.List.TakeWhile

/-!
# Reading up to a delimiter

A stream is read piece by piece, each up to the next delimiter, which is dropped; the last piece ends with the stream. Pieces that are
each ended by the delimiter, or put together with it, are the pieces read.
-/

namespace Delimited

variable {α : Type} [DecidableEq α]

/-! ## One piece -/

/-- The piece up to the first delimiter, and what follows the delimiter; none when nothing is left. -/
def next (d : α) (stream : List α) : Option (List α × List α) :=
  if stream = [] then none else some (stream.takeWhile (fun x => decide (x ≠ d)), (stream.dropWhile (fun x => decide (x ≠ d))).tail)

section

variable {d : α} {piece rest stream : List α}

theorem next_append (h : d ∉ piece) (rest : List α) : next d (piece ++ d :: rest) = some (piece, rest) := by
  have hpiece : ∀ x ∈ piece, decide (x ≠ d) = true := fun x hx => decide_eq_true fun heq => h (heq ▸ hx)
  rw [next, if_neg (List.append_ne_nil_of_right_ne_nil _ (List.cons_ne_nil _ _)), List.takeWhile_append_of_pos hpiece,
    List.dropWhile_append_of_pos hpiece]
  simp

theorem next_last (h : d ∉ piece) (hne : piece ≠ []) : next d piece = some (piece, []) := by
  have hpiece : ∀ x ∈ piece, decide (x ≠ d) = true := fun x hx => decide_eq_true fun heq => h (heq ▸ hx)
  rw [next, if_neg hne, List.takeWhile_eq_self_iff.2 hpiece, List.dropWhile_eq_nil_iff.2 hpiece, List.tail_nil]

/-- Of pieces that are ended by the delimiter, one starts with the other only if they are the same. -/
theorem append_delimiter_prefix_iff {piece' : List α} (h : d ∉ piece) (h' : d ∉ piece') :
    piece ++ [d] <+: piece' ++ d :: rest ↔ piece = piece' := by
  constructor
  · rintro ⟨rest', heq⟩
    rw [List.append_assoc, List.singleton_append] at heq
    have hnext := next_append h rest'
    rw [heq, next_append h'] at hnext
    exact (Prod.mk.inj (Option.some.inj hnext)).1.symm
  · rintro rfl
    exact ⟨rest, by rw [List.append_assoc, List.singleton_append]⟩

/-- Each piece leaves less to read. -/
theorem length_lt_of_next (h : next d stream = some (piece, rest)) : rest.length < stream.length := by
  unfold next at h
  split at h
  · cases h
  · rename_i hne
    obtain ⟨_, rfl⟩ := Prod.mk.inj (Option.some.inj h)
    have hpositive := List.length_pos_iff.2 hne
    have hle := (List.dropWhile_suffix (fun x => decide (x ≠ d)) (l := stream)).length_le
    rw [List.length_tail]
    omega

end

/-! ## All pieces -/

/-- The pieces, one after the other. -/
def pieces (d : α) (stream : List α) : List (List α) :=
  match h : next d stream with
  | some (piece, rest) =>
    have := length_lt_of_next h
    piece :: pieces d rest
  | none => []
termination_by stream.length

/-- Pieces, each with the delimiter after it. -/
def terminated (d : α) (ps : List (List α)) : List α := ps.flatMap (fun p => p ++ [d])

section

variable {d : α} {piece rest stream : List α} {ps : List (List α)}

theorem pieces_of_next (h : next d stream = some (piece, rest)) : pieces d stream = piece :: pieces d rest := by
  rw [pieces]
  split
  · rename_i heq
    obtain ⟨rfl, rfl⟩ := Prod.mk.inj (Option.some.inj (heq.symm.trans h))
    rfl
  · rename_i heq
    cases heq.symm.trans h

@[simp] theorem pieces_nil : pieces d ([] : List α) = [] := by
  rw [pieces]
  rfl

omit [DecidableEq α] in
theorem terminated_cons : terminated d (piece :: ps) = piece ++ d :: terminated d ps := by
  rw [terminated, List.flatMap_cons, List.append_assoc]
  rfl

/-- Pieces with a separator after each are the pieces put together, and one more separator. -/
theorem flatMap_append_separator {α : Type} (separator : List α) {ps : List (List α)} (h : ps ≠ []) :
    ps.flatMap (fun p => p ++ separator) = separator.intercalate ps ++ separator := by
  induction ps with
  | nil => exact absurd rfl h
  | cons p ps ih =>
    cases ps with
    | nil => rw [List.flatMap_singleton, List.intercalate_singleton]
    | cons p' ps =>
      rw [List.flatMap_cons, ih (List.cons_ne_nil _ _), List.intercalate_cons_of_ne_nil (List.cons_ne_nil _ _)]
      simp only [List.append_assoc]

/-- Pieces put together one after another from the first on. -/
theorem foldl_append_separator {α : Type} (separator : List α) {ps : List (List α)} :
    ∀ p : List α, ps.foldl (fun a b => a ++ separator ++ b) p = separator.intercalate (p :: ps) := by
  induction ps with
  | nil => exact fun p => List.intercalate_singleton.symm
  | cons p' ps ih =>
    intro p
    rw [List.foldl_cons, ih, List.intercalate_cons_of_ne_nil (List.cons_ne_nil _ _)]
    cases ps with
    | nil => rw [List.intercalate_singleton, List.intercalate_singleton]
    | cons p'' ps =>
      rw [List.intercalate_cons_of_ne_nil (List.cons_ne_nil _ _), List.intercalate_cons_of_ne_nil (List.cons_ne_nil _ _)]
      simp only [List.append_assoc]

/-- Pieces that are each ended by the delimiter are read one by one. -/
theorem pieces_terminated (h : ∀ p ∈ ps, d ∉ p) : pieces d (terminated d ps) = ps := by
  induction ps with
  | nil => exact pieces_nil
  | cons p ps ih =>
    rw [List.forall_mem_cons] at h
    rw [terminated_cons, pieces_of_next (next_append h.1 _), ih h.2]

/-- So are pieces that are put together with the delimiter and not empty. -/
theorem pieces_intercalate (h : ∀ p ∈ ps, d ∉ p ∧ p ≠ []) : pieces d ([d].intercalate ps) = ps := by
  induction ps with
  | nil => exact pieces_nil
  | cons p ps ih =>
    rw [List.forall_mem_cons] at h
    cases ps with
    | nil => rw [List.intercalate_singleton, pieces_of_next (next_last h.1.1 h.1.2), pieces_nil]
    | cons p' ps =>
      rw [List.intercalate_cons_of_ne_nil (List.cons_ne_nil _ _), List.append_assoc, List.singleton_append,
        pieces_of_next (next_append h.1.1 _), ih h.2]

end

end Delimited
