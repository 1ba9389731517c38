import Mathlib.Data.List.Nodup
import Mathlib.Logic.Function.Basic

/-!
# Fields that lines set

A record is filled from lines: a line that is read as a field and a value sets the field, a later one sets it anew, and other lines are
passed over. Where each field is set once, the order of the lines does not matter.
-/

namespace Fields

variable {κ β γ : Type*} [DecidableEq κ]

/-- The fields after the lines. -/
def fill (read : β → Option (κ × γ)) (fields : κ → γ) (ls : List β) : κ → γ :=
  ls.foldl
    (fun fields l =>
      match read l with
      | some (k, v) => Function.update fields k v
      | none => fields)
    fields

variable {read : β → Option (κ × γ)} {fields : κ → γ}

/-- Lines that are read as their fields and values fill the record with these. -/
theorem fill_map {α : Type*} {write : α → β} {pair : α → κ × γ} {xs : List α} (h : ∀ x ∈ xs, read (write x) = some (pair x)) :
    fill read fields (xs.map write) = fill some fields (xs.map pair) := by
  induction xs generalizing fields with
  | nil => rfl
  | cons x xs ih =>
    rw [List.forall_mem_cons] at h
    have hstep : ∀ f, fill read f (xs.map write) = fill some f (xs.map pair) := fun f => ih h.2
    simp only [fill, List.map_cons, List.foldl_cons, h.1] at hstep ⊢
    exact hstep _

/-- A field that no line sets holds what it held. -/
theorem fill_of_notMem {ps : List (κ × γ)} {k : κ} (h : k ∉ ps.map Prod.fst) : fill some fields ps k = fields k := by
  induction ps generalizing fields with
  | nil => rfl
  | cons p ps ih =>
    rw [List.map_cons, List.mem_cons, not_or] at h
    have hrest : fill some (Function.update fields p.1 p.2) ps k = Function.update fields p.1 p.2 k := ih h.2
    rw [Function.update_of_ne h.1] at hrest
    exact hrest

/-- Fields that are set once hold what they are set to, whatever the order. -/
theorem fill_of_nodup {ps : List (κ × γ)} (hnodup : (ps.map Prod.fst).Nodup) {k : κ} {v : γ} (h : (k, v) ∈ ps) :
    fill some fields ps k = v := by
  induction ps generalizing fields with
  | nil => exact absurd h List.not_mem_nil
  | cons p ps ih =>
    rw [List.map_cons, List.nodup_cons] at hnodup
    rcases List.mem_cons.1 h with rfl | hmem
    · have hrest : fill some (Function.update fields k v) ps k = Function.update fields k v k := fill_of_notMem hnodup.1
      rw [Function.update_self] at hrest
      exact hrest
    · exact ih hnodup.2 hmem

end Fields
