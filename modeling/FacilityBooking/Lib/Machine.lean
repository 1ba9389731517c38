import Mathlib.Data.List.Basic

/-!
# Machines

A machine takes one step for each input. A condition on steps holds along a run when every step of the run meets it in the state
it starts from; a property of states holds throughout a run when every state of the run has it, the first and the last included.
-/

namespace Machine

variable {σ α : Type*} (step : σ → α → σ)

/-- The states that inputs lead to. -/
inductive Reachable (start : σ) : σ → Prop
  | start : Reachable start start
  | step {s : σ} (h : Reachable start s) (a : α) : Reachable start (step s a)

/-- The state that a run ends in. -/
def run (s : σ) (as : List α) : σ := as.foldl step s

/-- A condition on every step of a run. -/
def Along (C : σ → α → Prop) : σ → List α → Prop
  | _, [] => True
  | s, a :: as => C s a ∧ Along C (step s a) as

/-- What the steps of a run put out, where each does in the state it starts from. -/
def emitted {β : Type*} (out : σ → α → List β) : σ → List α → List β
  | _, [] => []
  | s, a :: as => out s a ++ emitted out (step s a) as

/-- A property of every state of a run. -/
def Throughout (P : σ → Prop) : σ → List α → Prop
  | s, [] => P s
  | s, a :: as => P s ∧ Throughout P (step s a) as

variable {step}

theorem run_append (s : σ) (as as' : List α) : run step s (as ++ as') = run step (run step s as) as' := List.foldl_append

theorem emitted_append {β : Type*} (out : σ → α → List β) (as' : List α) :
    ∀ (as : List α) (s : σ), emitted step out s (as ++ as') = emitted step out s as ++ emitted step out (run step s as) as' := by
  intro as
  induction as with
  | nil => exact fun s => rfl
  | cons a as ih =>
    intro s
    rw [List.cons_append, emitted, emitted, ih, List.append_assoc]
    rfl

theorem along_append {C : σ → α → Prop} (as' : List α) :
    ∀ (as : List α) (s : σ), Along step C s (as ++ as') ↔ Along step C s as ∧ Along step C (run step s as) as' := by
  intro as
  induction as with
  | nil => exact fun s => ⟨fun h => ⟨trivial, h⟩, fun h => h.2⟩
  | cons a as ih =>
    intro s
    rw [List.cons_append, Along, Along, ih, and_assoc]
    rfl

/-- What a run has put out, one of its steps has. -/
theorem exists_of_mem_emitted {β : Type*} {out : σ → α → List β} {b : β} :
    ∀ {as : List α} {s : σ}, b ∈ emitted step out s as → ∃ before a after, as = before ++ a :: after ∧ b ∈ out (run step s before) a := by
  intro as
  induction as with
  | nil =>
    intro s h
    exact absurd h List.not_mem_nil
  | cons a as ih =>
    intro s h
    rcases List.mem_append.1 h with h | h
    · exact ⟨[], a, as, rfl, h⟩
    · obtain ⟨before, a', after, rfl, hout⟩ := ih h
      exact ⟨a :: before, a', after, rfl, hout⟩

/-- What a run has put out is what its steps have. -/
theorem mem_emitted_iff {β : Type*} {out : σ → α → List β} {b : β} {as : List α} {s : σ} :
    b ∈ emitted step out s as ↔ ∃ before a after, as = before ++ a :: after ∧ b ∈ out (run step s before) a := by
  refine ⟨exists_of_mem_emitted, ?_⟩
  rintro ⟨before, a, after, rfl, h⟩
  rw [emitted_append]
  exact List.mem_append_right _ (List.mem_append_left _ h)

theorem Reachable.run {start s : σ} (h : Reachable step start s) (as : List α) : Reachable step start (Machine.run step s as) := by
  induction as generalizing s with
  | nil => exact h
  | cons a as ih => exact ih (.step h a)

/-- What the first state has and every step keeps, every reachable state has. -/
theorem Reachable.invariant {start s : σ} (h : Reachable step start s) (P : σ → Prop) (hstart : P start)
    (hstep : ∀ s a, P s → P (step s a)) : P s := by
  induction h with
  | start => exact hstart
  | step _ a ih => exact hstep _ a ih

/-- What the steps that meet a condition keep holds throughout a run of such steps. -/
theorem throughout_of_along {P : σ → Prop} {C : σ → α → Prop} (hstep : ∀ s a, P s → C s a → P (step s a)) :
    ∀ (as : List α) (s : σ), P s → Along step C s as → Throughout step P s as := by
  intro as
  induction as with
  | nil =>
    intro s hs _
    exact hs
  | cons a as ih =>
    intro s hs hC
    exact ⟨hs, ih (step s a) (hstep s a hs hC.1) hC.2⟩

/-- A condition that is exactly what a step needs to keep a property is exactly what a run needs. -/
theorem throughout_iff_along {P : σ → Prop} {C : σ → α → Prop} (hstep : ∀ s a, P s → (P (step s a) ↔ C s a)) :
    ∀ (as : List α) (s : σ), P s → (Throughout step P s as ↔ Along step C s as) := by
  intro as
  induction as with
  | nil =>
    intro s hs
    exact iff_of_true hs trivial
  | cons a as ih =>
    intro s hs
    constructor
    · rintro ⟨_, h⟩
      have ha : P (step s a) := by cases as with
        | nil => exact h
        | cons => exact h.1
      exact ⟨(hstep s a hs).1 ha, (ih _ ha).1 h⟩
    · rintro ⟨hC, h⟩
      have ha := (hstep s a hs).2 hC
      exact ⟨hs, (ih _ ha).2 h⟩

/-- Two conditions that agree where a property holds, which steps that meet them keep, agree along runs. -/
theorem along_iff_along {P : σ → Prop} {C D : σ → α → Prop} (hiff : ∀ s a, P s → (C s a ↔ D s a))
    (hkeep : ∀ s a, P s → C s a → P (step s a)) :
    ∀ (as : List α) (s : σ), P s → (Along step C s as ↔ Along step D s as) := by
  intro as
  induction as with
  | nil =>
    intro s _
    exact Iff.rfl
  | cons a as ih =>
    intro s hs
    rw [Along, Along, ← hiff s a hs]
    exact and_congr_right fun hC => ih _ (hkeep s a hs hC)

/-- What holds after a run held before it, or one of its steps gave it. -/
theorem exists_given {P : σ → Prop} {G : σ → α → Prop} (hstep : ∀ s a, P (step s a) → P s ∨ G s a) :
    ∀ (as : List α) (s : σ), P (run step s as) → P s ∨ ∃ before a after, as = before ++ a :: after ∧ G (run step s before) a := by
  intro as
  induction as with
  | nil =>
    intro s h
    exact Or.inl h
  | cons a as ih =>
    intro s h
    rcases ih (step s a) h with hfirst | ⟨before, a', after, rfl, hgiven⟩
    · rcases hstep s a hfirst with hs | hgiven
      · exact Or.inl hs
      · exact Or.inr ⟨[], a, as, rfl, hgiven⟩
    · exact Or.inr ⟨a :: before, a', after, rfl, hgiven⟩

/-- Where a second machine sees only some inputs and keeps up with the first, the others change nothing that it sees and put out nothing,
it goes through the same run with the others left out. -/
theorem run_filter {τ β : Type*} {step' : τ → α → τ} {R : σ → τ → Prop} {out : σ → α → List β} {out' : τ → α → List β} {p : α → Bool}
    {D : α → Prop} (hseen : ∀ s t a, R s t → D a → p a = true → R (step s a) (step' t a) ∧ out s a = out' t a)
    (hunseen : ∀ s t a, R s t → D a → p a = false → R (step s a) t ∧ out s a = []) :
    ∀ (as : List α) (s : σ) (t : τ), (∀ a ∈ as, D a) → R s t →
      R (run step s as) (run step' t (as.filter p)) ∧ emitted step out s as = emitted step' out' t (as.filter p) := by
  intro as
  induction as with
  | nil =>
    intro s t _ h
    exact ⟨h, rfl⟩
  | cons a as ih =>
    intro s t hD h
    have ha := hD a List.mem_cons_self
    have has : ∀ b ∈ as, D b := fun b hb => hD b (List.mem_cons_of_mem a hb)
    cases hp : p a with
    | true =>
      obtain ⟨hstep, hout⟩ := hseen s t a h ha hp
      obtain ⟨hrun, hrest⟩ := ih (step s a) (step' t a) has hstep
      rw [List.filter_cons_of_pos hp, emitted, emitted, hout, hrest]
      exact ⟨hrun, rfl⟩
    | false =>
      obtain ⟨hstep, hout⟩ := hunseen s t a h ha hp
      obtain ⟨hrun, hrest⟩ := ih (step s a) t has hstep
      rw [List.filter_cons_of_neg (Bool.eq_false_iff.1 hp), emitted, hout, hrest]
      exact ⟨hrun, rfl⟩

/-- A weaker property. -/
theorem Throughout.mono {P Q : σ → Prop} (hPQ : ∀ s, P s → Q s) :
    ∀ {as : List α} {s : σ}, Throughout step P s as → Throughout step Q s as := by
  intro as
  induction as with
  | nil =>
    intro s h
    exact hPQ s h
  | cons a as ih =>
    intro s h
    exact ⟨hPQ s h.1, ih h.2⟩

/-- Where each step gives a property or takes it away or leaves it, it holds after a run exactly when it held before or was given, and
has not been taken away since. -/
theorem run_iff_since {P : σ → Prop} {G T : σ → α → Prop} :
    ∀ (as : List α) (s : σ), Along step (fun s a => P (step s a) ↔ G s a ∨ P s ∧ ¬T s a) s as →
      (P (run step s as) ↔ P s ∧ Along step (fun s a => ¬T s a) s as ∨
        ∃ before a after, as = before ++ a :: after ∧ G (run step s before) a ∧
          Along step (fun s a => ¬T s a) (run step s (before ++ [a])) after) := by
  intro as
  induction as with
  | nil =>
    intro s _
    refine ⟨fun h => Or.inl ⟨h, trivial⟩, ?_⟩
    rintro (⟨h, _⟩ | ⟨before, a, after, hsplit, _⟩)
    · exact h
    · cases before <;> cases hsplit
  | cons a as ih =>
    rintro s ⟨hstep, hlater⟩
    have hrest : P (run step s (a :: as)) ↔ P (run step (step s a) as) := Iff.rfl
    rw [hrest, ih (step s a) hlater, hstep]
    constructor
    · rintro (⟨hgiven | ⟨hheld, hkept⟩, hsince⟩ | ⟨before, a', after, rfl, hgiven, hsince⟩)
      · exact Or.inr ⟨[], a, as, rfl, hgiven, hsince⟩
      · exact Or.inl ⟨hheld, hkept, hsince⟩
      · exact Or.inr ⟨a :: before, a', after, rfl, hgiven, hsince⟩
    · rintro (⟨hheld, hkept, hsince⟩ | ⟨before, a', after, hsplit, hgiven, hsince⟩)
      · exact Or.inl ⟨Or.inr ⟨hheld, hkept⟩, hsince⟩
      · cases before with
        | nil =>
          cases hsplit
          exact Or.inl ⟨Or.inl hgiven, hsince⟩
        | cons b before =>
          cases hsplit
          exact Or.inr ⟨before, a', after, rfl, hgiven, hsince⟩

end Machine
