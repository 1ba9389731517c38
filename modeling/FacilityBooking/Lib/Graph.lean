import Mathlib.Logic.Relator

/-!
# Graphs with labelled edges

From a node each label leads to at most one node, and a path is a list of labels. Two graphs are alike at a pair of nodes when a
one-to-one relation holds of the pair and is kept by every label: then the paths that lead to one node in the one graph are those that
lead to one node in the other.
-/

namespace Graph

variable {α β ℓ : Type*}

/-- The node that a path leads to, if it leads to one. -/
def follow (next : α → ℓ → Option α) : List ℓ → α → Option α
  | [], a => some a
  | l :: ls, a => (next a l).bind (follow next ls)

/-- The nodes that the labels lead to are related, or there are none. -/
def Keeps (R : α → β → Prop) (next : α → ℓ → Option α) (next' : β → ℓ → Option β) : Prop :=
  ∀ a b, R a b → ∀ l, Option.Rel R (next a l) (next' b l)

/-- Nothing against nothing, and one against one, are told apart in the same way on both sides. -/
theorem eq_iff_of_rel {R : α → β → Prop} (hR : Relator.BiUnique R) {x x' : Option α} {y y' : Option β} (h : Option.Rel R x y)
    (h' : Option.Rel R x' y') : x = x' ↔ y = y' := by
  cases h with
  | none =>
    cases h' with
    | none => exact ⟨fun _ => rfl, fun _ => rfl⟩
    | some hab => exact ⟨fun heq => (by cases heq), fun heq => (by cases heq)⟩
  | some hab =>
    cases h' with
    | none => exact ⟨fun heq => (by cases heq), fun heq => (by cases heq)⟩
    | some hab' =>
      constructor
      · intro heq
        cases heq
        exact congrArg some (hR.2 hab hab')
      · intro heq
        cases heq
        exact congrArg some (hR.1 hab hab')

variable {R : α → β → Prop} {next : α → ℓ → Option α} {next' : β → ℓ → Option β}

/-- What the labels keep, the paths keep. -/
theorem follow_rel (h : Keeps R next next') (path : List ℓ) {a : α} {b : β} (hab : R a b) :
    Option.Rel R (follow next path a) (follow next' path b) := by
  induction path generalizing a b with
  | nil => exact .some hab
  | cons l ls ih =>
    have hnext := h a b hab l
    rw [follow, follow]
    generalize next a l = x at hnext ⊢
    generalize next' b l = y at hnext ⊢
    cases hnext with
    | none => exact .none
    | some hab' => exact ih hab'

/-- Two paths meet in the one graph exactly when they meet in the other. -/
theorem follow_eq_iff (hR : Relator.BiUnique R) (h : Keeps R next next') (path path' : List ℓ) {a : α} {b : β} (hab : R a b) :
    follow next path a = follow next path' a ↔ follow next' path b = follow next' path' b :=
  eq_iff_of_rel hR (follow_rel h path hab) (follow_rel h path' hab)

end Graph
