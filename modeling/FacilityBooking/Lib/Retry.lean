import Mathlib.Data.List.Basic

/-!
# Bounded retries

An attempt changes a state and may have a result; at most so many attempts are made, until one has. Where each attempt looks at one
thing that it receives, the result is the first that it finds among those received: what is rejected costs one attempt each.
-/

namespace Retry

variable {σ α β : Type*}

/-- At most so many attempts, until one has a result. -/
def run (attempt : σ → Option α × σ) : Nat → σ → Option α × σ
  | 0, s => (none, s)
  | n + 1, s =>
    match attempt s with
    | (some a, s') => (some a, s')
    | (none, s') => run attempt n s'

section

variable {attempt : σ → Option α × σ}

theorem run_of_some {s s' : σ} {a : α} (h : attempt s = (some a, s')) (n : Nat) : run attempt (n + 1) s = (some a, s') := by
  rw [run, h]

theorem run_of_none {s s' : σ} (h : attempt s = (none, s')) (n : Nat) : run attempt (n + 1) s = run attempt n s' := by
  rw [run, h]

/-- What every attempt keeps holds after the last. -/
theorem run_keeps {P : σ → Prop} (hstep : ∀ s, P s → P (attempt s).2) : ∀ (n : Nat) (s : σ), P s → P (run attempt n s).2 := by
  intro n
  induction n with
  | zero =>
    intro s hs
    exact hs
  | succ n ih =>
    intro s hs
    have hnext := hstep s hs
    rw [run]
    cases hattempt : attempt s with
    | mk result s' =>
      rw [hattempt] at hnext
      cases result with
      | none => exact ih s' hnext
      | some a => exact hnext

/-- What every attempt may change, all of them may, and what a result says of the state it leaves, the result in the end says. -/
theorem run_changes {P : σ → Prop} {T : σ → σ → Prop} {Q : α → σ → Prop} (hrefl : ∀ s, T s s)
    (htrans : ∀ s s' s'', T s s' → T s' s'' → T s s'')
    (hstep : ∀ s, P s → P (attempt s).2 ∧ T s (attempt s).2 ∧ ∀ a, (attempt s).1 = some a → Q a (attempt s).2) :
    ∀ (n : Nat) (s : σ), P s →
      P (run attempt n s).2 ∧ T s (run attempt n s).2 ∧ ∀ a, (run attempt n s).1 = some a → Q a (run attempt n s).2 := by
  intro n
  induction n with
  | zero =>
    intro s hs
    exact ⟨hs, hrefl s, fun a ha => by cases ha⟩
  | succ n ih =>
    intro s hs
    obtain ⟨hkept, hchange, hresult⟩ := hstep s hs
    rw [run]
    cases hattempt : attempt s with
    | mk result s' =>
      rw [hattempt] at hkept hchange hresult
      cases result with
      | none =>
        obtain ⟨hkept', hchange', hresult'⟩ := ih s' hkept
        exact ⟨hkept', htrans _ _ _ hchange hchange', hresult'⟩
      | some a => exact ⟨hkept, hchange, hresult⟩

/-- Where no attempt has a result, there is none in the end. -/
theorem run_fails {P : σ → Prop} (hstep : ∀ s, P s → (attempt s).1 = none ∧ P (attempt s).2) :
    ∀ (n : Nat) (s : σ), P s → (run attempt n s).1 = none := by
  intro n
  induction n with
  | zero =>
    intro s _
    rfl
  | succ n ih =>
    intro s hs
    obtain ⟨hnone, hnext⟩ := hstep s hs
    rw [run_of_none (Prod.ext hnone rfl)]
    exact ih _ hnext

end

/-! ## Attempts that look at what they receive -/

/-- What so many exchanges in a row receive. -/
def received (exchange : σ → β × σ) : Nat → σ → List β
  | 0, _ => []
  | n + 1, s => (exchange s).1 :: received exchange n (exchange s).2

variable (exchange : σ → β × σ)

theorem length_received (n : Nat) (s : σ) : (received exchange n s).length = n := by
  induction n generalizing s with
  | zero => rfl
  | succ n ih => rw [received, List.length_cons, ih]

theorem received_add (m n : Nat) (s : σ) :
    ∃ s', received exchange (m + n) s = received exchange m s ++ received exchange n s' := by
  induction m generalizing s with
  | zero => exact ⟨s, by rw [Nat.zero_add, received, List.nil_append]⟩
  | succ m ih =>
    obtain ⟨s', hrest⟩ := ih (exchange s).2
    refine ⟨s', ?_⟩
    rw [Nat.add_right_comm, received, hrest, received, List.cons_append]

/-- The result is the first that is found among the things received. -/
theorem run_eq_findSome? (f : β → Option α) (n : Nat) (s : σ) :
    (run (fun s => (f (exchange s).1, (exchange s).2)) n s).1 = (received exchange n s).findSome? f := by
  induction n generalizing s with
  | zero => rfl
  | succ n ih =>
    rw [received, run, List.findSome?_cons]
    cases f (exchange s).1 with
    | some a => rfl
    | none => exact ih _

/-- What is rejected before the first thing accepted costs one attempt each. -/
theorem run_of_received {exchange : σ → β × σ} {f : β → Option α} {rejected : List β} {b : β} {a : α} {s : σ}
    (hrejected : ∀ x ∈ rejected, f x = none) (hb : f b = some a)
    (hreceived : received exchange (rejected.length + 1) s = rejected ++ [b]) (n : Nat) :
    (run (fun s => (f (exchange s).1, (exchange s).2)) n s).1 = if rejected.length < n then some a else none := by
  rw [run_eq_findSome?]
  split
  · -- the attempts reach what is accepted
    rename_i hlt
    obtain ⟨s', hmore⟩ := received_add exchange (rejected.length + 1) (n - (rejected.length + 1)) s
    rw [Nat.add_sub_cancel' hlt, hreceived] at hmore
    have hfirst : rejected.findSome? f = none := List.findSome?_eq_none_iff.2 hrejected
    rw [hmore, List.append_assoc, List.findSome?_append, hfirst, Option.none_or, List.singleton_append, List.findSome?_cons, hb]
  · -- all that is received is rejected
    rename_i hge
    obtain ⟨s', hmore⟩ := received_add exchange n (rejected.length + 1 - n) s
    rw [Nat.add_sub_cancel' (by omega), hreceived] at hmore
    have hlength : (received exchange n s).length ≤ rejected.length := by
      rw [length_received]
      omega
    have hinitial : received exchange n s <+: rejected :=
      List.prefix_of_prefix_length_le ⟨_, hmore.symm⟩ (List.prefix_append _ _) hlength
    exact List.findSome?_eq_none_iff.2 fun x hx => hrejected x (hinitial.subset hx)

end Retry
