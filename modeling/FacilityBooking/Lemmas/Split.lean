import FacilityBooking.Java.Text

/-!
# Texts and their pieces

`split` takes a text apart that was put together with commas, as long as its last piece is not empty and no piece has a comma of
its own.
-/

namespace FacilityBooking

/-- A text is told apart at the first place of a character. -/
theorem append_cons_inj {c : Char} {l l' r r' : Text} (hl : c ∉ l) (hl' : c ∉ l') (h : l ++ c :: r = l' ++ c :: r') :
    l = l' ∧ r = r' := by
  induction l generalizing l' with
  | nil =>
    cases l' with
    | nil => exact ⟨rfl, (List.cons.inj h).2⟩
    | cons x l' => exact absurd ((List.cons.inj h).1 ▸ List.mem_cons_self) hl'
  | cons y l ih =>
    cases l' with
    | nil => exact absurd ((List.cons.inj h).1 ▸ List.mem_cons_self) hl
    | cons x l' =>
      obtain ⟨rfl, htail⟩ := List.cons.inj h
      obtain ⟨rfl, rfl⟩ := ih (fun hc => hl (List.mem_cons_of_mem y hc)) (fun hc => hl' (List.mem_cons_of_mem y hc)) htail
      exact ⟨rfl, rfl⟩

/-- Pieces put together with commas. -/
def joined (pieces : List Text) : Text := [','].intercalate pieces

theorem joined_cons_cons (piece piece' : Text) (pieces : List Text) :
    joined (piece :: piece' :: pieces) = piece ++ ',' :: joined (piece' :: pieces) := by
  rw [joined, List.intercalate_cons_of_ne_nil (List.cons_ne_nil _ _), joined, List.append_assoc]
  rfl

/-- A character of the text is a comma or one of a piece. -/
theorem mem_joined {c : Char} {pieces : List Text} (h : c ∈ joined pieces) : c = ',' ∨ ∃ piece ∈ pieces, c ∈ piece := by
  induction pieces with
  | nil => exact absurd h List.not_mem_nil
  | cons piece pieces ih =>
    cases pieces with
    | nil =>
      rw [joined, List.intercalate_singleton] at h
      exact Or.inr ⟨piece, List.mem_cons_self, h⟩
    | cons piece' pieces =>
      rw [joined_cons_cons, List.mem_append, List.mem_cons] at h
      rcases h with h | rfl | h
      · exact Or.inr ⟨piece, List.mem_cons_self, h⟩
      · exact Or.inl rfl
      · rcases ih h with rfl | ⟨p, hp, hc⟩
        · exact Or.inl rfl
        · exact Or.inr ⟨p, List.mem_cons_of_mem _ hp, hc⟩

/-- The pieces before the last ones may be any text. -/
theorem split_append_joined (s : Text) {pieces : List Text} {last : Text} (hpieces : ∀ piece ∈ pieces, ',' ∉ piece)
    (hlast : ',' ∉ last) (hne : last ≠ []) :
    split (s ++ ',' :: joined (pieces ++ [last])) = s.splitOn ',' ++ (pieces ++ [last]) := by
  have hcomma : ',' ∈ s ++ ',' :: joined (pieces ++ [last]) := List.mem_append_right _ List.mem_cons_self
  have hall : ∀ piece ∈ pieces ++ [last], ',' ∉ piece := by
    intro piece hpiece
    rcases List.mem_append.1 hpiece with hpiece | hpiece
    · exact hpieces piece hpiece
    · rw [List.mem_singleton] at hpiece
      exact hpiece ▸ hlast
  have hfull : ¬last.isEmpty = true := by rwa [List.isEmpty_iff]
  rw [split, if_pos hcomma, List.splitOn_append_cons_self, joined, List.splitOn_intercalate ',' hall (by simp),
    ← List.append_assoc, List.rdropWhile_concat_neg List.isEmpty _ last hfull]

/-- A text put together from a piece and more is taken apart again. -/
theorem split_joined {piece last : Text} {pieces : List Text} (hpiece : ',' ∉ piece) (hpieces : ∀ p ∈ pieces, ',' ∉ p)
    (hlast : ',' ∉ last) (hne : last ≠ []) : split (joined (piece :: (pieces ++ [last]))) = piece :: (pieces ++ [last]) := by
  have hjoined : joined (piece :: (pieces ++ [last])) = piece ++ ',' :: joined (pieces ++ [last]) := by
    cases pieces with
    | nil => exact joined_cons_cons piece last []
    | cons p pieces => exact joined_cons_cons piece p (pieces ++ [last])
  rw [hjoined, split_append_joined piece hpieces hlast hne, List.splitOn_eq_singleton hpiece]
  rfl

/-- Two pieces. -/
theorem split_pair {piece last : Text} (hpiece : ',' ∉ piece) (hlast : ',' ∉ last) (hne : last ≠ []) :
    split (piece ++ ',' :: last) = [piece, last] := by
  have h := @split_joined piece last [] hpiece (List.forall_mem_nil _) hlast hne
  rwa [List.nil_append, joined_cons_cons, joined, List.intercalate_singleton] at h

/-- An empty last piece is dropped, and so is an empty piece before it. -/
theorem split_comma {piece : Text} (hpiece : ',' ∉ piece) : split (piece ++ [',']) = if piece = [] then [] else [piece] := by
  have hcomma : ',' ∈ piece ++ [','] := List.mem_append_right _ List.mem_cons_self
  have hsplit : (piece ++ [',']).splitOn ',' = [piece] ++ [[]] := by
    rw [List.splitOn_append_cons_self, List.splitOn_eq_singleton hpiece, List.splitOn_nil]
  rw [split, if_pos hcomma, hsplit, List.rdropWhile_concat_pos List.isEmpty _ [] rfl, List.rdropWhile_singleton]
  simp only [List.isEmpty_iff]

/-- A piece that is not empty is the first piece. -/
theorem split_append_comma {piece : Text} (hpiece : ',' ∉ piece) (hne : piece ≠ []) (rest : Text) :
    ∃ pieces, split (piece ++ ',' :: rest) = piece :: pieces := by
  have hcomma : ',' ∈ piece ++ ',' :: rest := List.mem_append_right _ List.mem_cons_self
  have hsplit : (piece ++ ',' :: rest).splitOn ',' = piece :: rest.splitOn ',' := by
    rw [List.splitOn_append_cons_self, List.splitOn_eq_singleton hpiece]
    rfl
  have hinitial := List.rdropWhile_prefix List.isEmpty (piece :: rest.splitOn ',')
  rw [split, if_pos hcomma, hsplit]
  cases hdrop : (piece :: rest.splitOn ',').rdropWhile List.isEmpty with
  | nil =>
    have hempty := List.rdropWhile_eq_nil_iff.1 hdrop piece List.mem_cons_self
    exact absurd (List.isEmpty_iff.1 hempty) hne
  | cons first pieces =>
    rw [hdrop, List.cons_prefix_cons] at hinitial
    exact ⟨pieces, by rw [hinitial.1]⟩

end FacilityBooking
