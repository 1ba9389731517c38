import FacilityBooking.Lib.Machine

/-!
# Runs whose inputs come more than once

A group is an input and what comes right after it on its account. Where what follows is absorbed, up to a relation that every step
keeps, the run over the groups is the run over their heads.
-/

namespace Machine

variable {σ α : Type*} {step : σ → α → σ}

/-- Groups one after the other, as the inputs they are made of. -/
def flat (groups : List (α × List α)) : List α := groups.flatMap (fun g => g.1 :: g.2)

/-- The first input of every group. -/
def heads (groups : List (α × List α)) : List α := groups.map Prod.fst

@[simp] theorem flat_nil : flat ([] : List (α × List α)) = [] := rfl

@[simp] theorem flat_cons (g : α × List α) (groups : List (α × List α)) : flat (g :: groups) = g.1 :: g.2 ++ flat groups :=
  List.flatMap_cons

theorem flat_append (groups groups' : List (α × List α)) : flat (groups ++ groups') = flat groups ++ flat groups' :=
  List.flatMap_append

variable (step)

/-- A machine that takes a group at a time. -/
def groupStep (s : σ) (g : α × List α) : σ := run step (step s g.1) g.2

variable {step}

/-- What every step keeps, every run keeps. -/
theorem run_congr {R : σ → σ → Prop} (hstep : ∀ s s' a, R s s' → R (step s a) (step s' a)) (as : List α) {s s' : σ}
    (h : R s s') : R (run step s as) (run step s' as) := by
  induction as generalizing s s' with
  | nil => exact h
  | cons a as ih => exact ih (hstep s s' a h)

/-- Where every group is absorbed by its head, the run is that of the heads. -/
theorem run_flat {R : σ → σ → Prop} (hrefl : ∀ s, R s s) (htrans : ∀ s s' s'', R s s' → R s' s'' → R s s'')
    (hstep : ∀ s s' a, R s s' → R (step s a) (step s' a)) (groups : List (α × List α)) {s : σ}
    (habsorbed : Along (groupStep step) (fun s g => R (groupStep step s g) (step s g.1)) s groups) :
    R (run step s (flat groups)) (run step s (heads groups)) := by
  induction groups generalizing s with
  | nil => exact hrefl s
  | cons g groups ih =>
    obtain ⟨hhead, htail⟩ := habsorbed
    have hflat : run step s (flat (g :: groups)) = run step (groupStep step s g) (flat groups) := by
      rw [flat_cons, run_append]
      rfl
    rw [hflat]
    exact htrans _ _ _ (ih htail) (run_congr hstep (heads groups) hhead)

end Machine
