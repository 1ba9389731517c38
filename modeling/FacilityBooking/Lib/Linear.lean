import Mathlib.Data.List.Basic
import Mathlib.Logic.Relation

/-!
# Logs

An object is used by one operation after the other. A system that keeps a log of the operations, in which nothing stands that has not
been called and everything stands that has returned, and which only ever grows, performs them in an order that real time allows: what
has returned before something else is called stands before it.
-/

namespace Linear

variable {σ ω κ : Type*}

/-- Operations performed one after the other, each where the one before it has left the object. -/
inductive Sequential (perform : σ → ω → σ → Prop) (start : σ) : List ω → σ → Prop
  | nil : Sequential perform start [] start
  | snoc {xs : List ω} {s s' : σ} {x : ω} (h : Sequential perform start xs s) (hx : perform s x s') :
    Sequential perform start (xs ++ [x]) s'

/-- A log between what has been called and what has returned. -/
structure Between (key : ω → κ) (returned called : κ → Prop) (log : List ω) : Prop where
  called : ∀ x ∈ log, called (key x)
  returned : ∀ k, returned k → ∃ x ∈ log, key x = k

/-- What has returned stands in the later log before what had not been called. -/
theorem Between.precedes {key : ω → κ} {returned called : κ → Prop} {log later : List ω} (h : Between key returned called log)
    (hgrown : log <+: later) {k : κ} (hk : returned k) {before after : List ω} {x : ω} (hlater : later = before ++ x :: after)
    (hx : ¬called (key x)) : ∃ y ∈ before, key y = k := by
  obtain ⟨y, hy, hkey⟩ := h.returned k hk
  obtain ⟨more, hmore⟩ := hgrown
  rw [hlater] at hmore
  rcases List.append_eq_append_iff.1 hmore with ⟨rest, hbefore, _⟩ | ⟨rest, hlog, hrest⟩
  · exact ⟨y, hbefore ▸ List.mem_append_left rest hy, hkey⟩
  · cases rest with
    | nil =>
      rw [List.append_nil] at hlog
      exact ⟨y, hlog ▸ hy, hkey⟩
    | cons z rest =>
      -- then `x` is in the log, although it has not been called
      obtain ⟨rfl, _⟩ := List.cons.inj hrest
      have hmem : x ∈ log := hlog ▸ List.mem_append_right before List.mem_cons_self
      exact absurd (h.called x hmem) hx

/-- A log that grows with every step grows along a run. -/
theorem prefix_of_reflTransGen {step : σ → σ → Prop} {log : σ → List ω} (hstep : ∀ s s', step s s' → log s <+: log s')
    {s s' : σ} (h : Relation.ReflTransGen step s s') : log s <+: log s' := by
  induction h with
  | refl => exact List.prefix_rfl
  | tail _ h ih => exact ih.trans (hstep _ _ h)

end Linear
