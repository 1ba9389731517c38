import Mathlib.Algebra.Order.Monoid.Defs
import Mathlib.Order.Lattice

/-!
# Waiting through a window

Things arrive at times in order. One waits for them one after the other until a deadline, and every wait has a timeout of its own,
which ends the waiting when it passes. Where the timeout is as long as the window, the first wait that begins inside the window
passes the deadline unless something arrives at the deadline: only undisturbed does the waiting end with the window.
-/

namespace Window

variable {α β : Type*} [LinearOrder α] {time : β → α} {bs : List β}

theorem first_le {b b' : β} (hsorted : (b :: bs).Pairwise fun b b' => time b ≤ time b') (h : b' ∈ b :: bs) : time b ≤ time b' := by
  rcases List.mem_cons.1 h with rfl | hlater
  · exact le_refl _
  · exact (List.pairwise_cons.1 hsorted).1 b' hlater

variable [AddCommMonoid α] {timeout deadline now : α}

/-- What is taken of the things that arrive, and the time at which the waiting ends. -/
def collect (time : β → α) (timeout deadline now : α) (bs : List β) : List β × α :=
  if now < deadline then
    match bs with
    | [] => ([], now + timeout)
    | b :: bs =>
      if time b ≤ now + timeout then
        (b :: (collect time timeout deadline (max now (time b)) bs).1, (collect time timeout deadline (max now (time b)) bs).2)
      else ([], now + timeout)
  else ([], now)

theorem collect_closed (h : deadline ≤ now) (bs : List β) : collect time timeout deadline now bs = ([], now) := by
  unfold collect
  exact if_neg (not_lt.2 h)

theorem collect_timeout (h : now < deadline) (hnone : ∀ b ∈ bs.head?, now + timeout < time b) :
    collect time timeout deadline now bs = ([], now + timeout) := by
  cases bs with
  | nil => rw [collect, if_pos h]
  | cons b bs =>
    rw [collect, if_pos h]
    exact if_neg (not_le.2 (hnone b rfl))

theorem collect_arrival {b : β} (h : now < deadline) (hb : time b ≤ now + timeout) :
    collect time timeout deadline now (b :: bs) =
      (b :: (collect time timeout deadline (max now (time b)) bs).1, (collect time timeout deadline (max now (time b)) bs).2) := by
  rw [collect, if_pos h]
  exact if_pos hb

section

variable [IsOrderedAddMonoid α]

theorem le_end (htimeout : 0 ≤ timeout) (now : α) (bs : List β) : now ≤ (collect time timeout deadline now bs).2 := by
  fun_induction collect time timeout deadline now bs with
  | case1 now h => exact le_add_of_nonneg_right htimeout
  | case2 now h b bs hb ih => exact (le_max_left _ _).trans ih
  | case3 now h b bs hb => exact le_add_of_nonneg_right htimeout
  | case4 now bs h => exact le_refl _

/-- What is taken has arrived by the end. -/
theorem taken_le_end (htimeout : 0 ≤ timeout) (now : α) (bs : List β) :
    ∀ b ∈ (collect time timeout deadline now bs).1, time b ≤ (collect time timeout deadline now bs).2 := by
  fun_induction collect time timeout deadline now bs with
  | case1 now h => simp
  | case2 now h b bs hb ih => exact List.forall_mem_cons.2 ⟨(le_max_right _ _).trans (le_end htimeout _ _), ih⟩
  | case3 now h b bs hb => simp
  | case4 now bs h => simp

/-- The waiting never ends before the deadline, where a wait that begins now lasts until then. -/
theorem deadline_le_end (hwait : deadline ≤ now + timeout) : deadline ≤ (collect time timeout deadline now bs).2 := by
  fun_induction collect time timeout deadline now bs with
  | case1 now h => exact hwait
  | case2 now h b bs hb ih => exact ih (hwait.trans (add_le_add_left (le_max_left _ _) _))
  | case3 now h b bs hb => exact hwait
  | case4 now bs h => exact not_lt.1 h

/-- The waiting ends within a timeout of the deadline. -/
theorem end_le (hopen : now ≤ deadline) (htimeout : 0 ≤ timeout) :
    (collect time timeout deadline now bs).2 ≤ deadline + timeout := by
  fun_induction collect time timeout deadline now bs with
  | case1 now h => exact add_le_add_left hopen _
  | case2 now h b bs hb ih =>
    rcases le_or_gt (max now (time b)) deadline with hnow | hnow
    · exact ih hnow
    · rw [collect_closed hnow.le]
      exact max_le (hopen.trans (le_add_of_nonneg_right htimeout)) (hb.trans (add_le_add_left hopen _))
  | case3 now h b bs hb => exact add_le_add_left hopen _
  | case4 now bs h => exact hopen.trans (le_add_of_nonneg_right htimeout)

end

/-! ## Whether it ends with the window -/

/-- While nothing arrives inside the window, the first wait goes on and ends with it. -/
theorem end_le_of_quiet (hwait : now + timeout = deadline) (hquiet : ∀ b ∈ bs, ¬(now < time b ∧ time b < deadline))
    (hopen : now ≤ deadline) : (collect time timeout deadline now bs).2 ≤ deadline := by
  fun_induction collect time timeout deadline now bs with
  | case1 now h => exact hwait.le
  | case2 now h b bs hb ih =>
    obtain ⟨hfirst, hrest⟩ := List.forall_mem_cons.1 hquiet
    rcases le_or_gt (time b) now with hpast | hlater
    · -- what has arrived already is taken at once
      rw [max_eq_left hpast] at ih ⊢
      exact ih hwait hrest hopen
    · have hlast : deadline ≤ time b := not_lt.1 fun hlt => hfirst ⟨hlater, hlt⟩
      rw [max_eq_right hlater.le, collect_closed hlast]
      exact hb.trans hwait.le
  | case3 now h b bs hb => exact hwait.le
  | case4 now bs h => exact hopen

variable [IsOrderedCancelAddMonoid α]

/-- An arrival at the deadline ends the waiting there, whatever comes before it. -/
theorem end_le_of_arrival (hsorted : bs.Pairwise fun b b' => time b ≤ time b') (hopen : now ≤ deadline)
    (hwait : deadline ≤ now + timeout) (harrival : ∃ b ∈ bs, time b = deadline) :
    (collect time timeout deadline now bs).2 ≤ deadline := by
  fun_induction collect time timeout deadline now bs with
  | case1 now h => simp at harrival
  | case2 now h b bs hb ih =>
    obtain ⟨b', hb', heq⟩ := harrival
    have hfirst : time b ≤ deadline := heq ▸ first_le hsorted hb'
    rcases hfirst.lt_or_eq with hlt | heq'
    · -- the arrival at the deadline is still to come
      have hrest : b' ∈ bs := (List.mem_cons.1 hb').resolve_left fun h => hlt.ne (h ▸ heq)
      have hlonger : deadline ≤ max now (time b) + timeout := hwait.trans (add_le_add_left (le_max_left _ _) _)
      exact ih hsorted.of_cons (max_le hopen hfirst) hlonger ⟨b', hrest, heq⟩
    · rw [heq', max_eq_right hopen, collect_closed (le_refl _)]
  | case3 now h b bs hb =>
    obtain ⟨b', hb', heq⟩ := harrival
    exact absurd ((first_le hsorted hb').trans (heq.le.trans hwait)) hb
  | case4 now bs h => exact hopen

/-- A wait that begins inside the window and lasts past the deadline passes it, unless something arrives at the deadline. -/
theorem arrival_of_end_le (hopen : now < deadline) (hwait : deadline < now + timeout)
    (hend : (collect time timeout deadline now bs).2 ≤ deadline) : ∃ b ∈ bs, time b = deadline := by
  fun_induction collect time timeout deadline now bs with
  | case1 now h => exact absurd hend (not_le.2 hwait)
  | case2 now h b bs hb ih =>
    rcases lt_trichotomy (time b) deadline with hlt | heq | hgt
    · have hlonger : deadline < max now (time b) + timeout := hwait.trans_le (add_le_add_left (le_max_left _ _) _)
      obtain ⟨b', hb', heq⟩ := ih (max_lt hopen hlt) hlonger hend
      exact ⟨b', List.mem_cons_of_mem _ hb', heq⟩
    · exact ⟨b, List.mem_cons_self, heq⟩
    · rw [collect_closed (hgt.le.trans (le_max_right _ _))] at hend
      exact absurd ((le_max_right _ _).trans hend) (not_le.2 hgt)
  | case3 now h b bs hb => exact absurd hend (not_le.2 hwait)
  | case4 now bs h => exact absurd hopen h

/-- Once something has arrived inside the window, the waiting ends with it only if something arrives at the deadline. -/
theorem arrival_of_disturbed (hsorted : bs.Pairwise fun b b' => time b ≤ time b') (hwait : now + timeout = deadline)
    (hdisturbed : ∃ b ∈ bs, now < time b ∧ time b < deadline) (hend : (collect time timeout deadline now bs).2 ≤ deadline) :
    ∃ b ∈ bs, time b = deadline := by
  fun_induction collect time timeout deadline now bs with
  | case1 now h => simp at hdisturbed
  | case2 now h b bs hb ih =>
    rcases le_or_gt (time b) now with hpast | hlater
    · rw [max_eq_left hpast] at ih hend
      obtain ⟨b', hb', hinside⟩ := hdisturbed
      have hrest : b' ∈ bs := (List.mem_cons.1 hb').resolve_left fun heq => hpast.not_gt (heq ▸ hinside.1)
      obtain ⟨b'', hb'', heq⟩ := ih hsorted.of_cons hwait ⟨b', hrest, hinside⟩ hend
      exact ⟨b'', List.mem_cons_of_mem _ hb'', heq⟩
    · -- the wait that follows begins after now, and so lasts past the deadline
      rw [max_eq_right hlater.le] at hend
      rcases (hb.trans hwait.le).lt_or_eq with hlt | heq
      · have hlonger : deadline < time b + timeout := hwait ▸ add_lt_add_left hlater timeout
        obtain ⟨b', hb', heq⟩ := arrival_of_end_le hlt hlonger hend
        exact ⟨b', List.mem_cons_of_mem _ hb', heq⟩
      · exact ⟨b, List.mem_cons_self, heq⟩
  | case3 now h b bs hb =>
    obtain ⟨b', hb', hinside⟩ := hdisturbed
    exact absurd ((first_le hsorted hb').trans (hinside.2.le.trans hwait.ge)) hb
  | case4 now bs h =>
    obtain ⟨_, _, hinside⟩ := hdisturbed
    exact absurd (hinside.1.trans hinside.2) h

/-- The waiting ends with the window exactly where nothing arrives inside it, or something at its end. -/
theorem end_le_iff (htimeout : 0 ≤ timeout) (hsorted : bs.Pairwise fun b b' => time b ≤ time b') (start : α) :
    (collect time timeout (start + timeout) start bs).2 ≤ start + timeout ↔
      (∀ b ∈ bs, ¬(start < time b ∧ time b < start + timeout)) ∨ ∃ b ∈ bs, time b = start + timeout := by
  have hopen : start ≤ start + timeout := le_add_of_nonneg_right htimeout
  constructor
  · intro hend
    by_cases hquiet : ∀ b ∈ bs, ¬(start < time b ∧ time b < start + timeout)
    · exact Or.inl hquiet
    · push Not at hquiet
      exact Or.inr (arrival_of_disturbed hsorted rfl hquiet hend)
  · rintro (hquiet | harrival)
    · exact end_le_of_quiet rfl hquiet hopen
    · exact end_le_of_arrival hsorted hopen (le_refl _) harrival

end Window
