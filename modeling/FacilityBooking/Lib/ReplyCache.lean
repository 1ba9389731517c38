import Mathlib.Data.List.Basic

/-!
# A service behind a reply cache

A service executes keyed requests one after the other; a request without a key is answered without touching the state. The
cached service executes a keyed request only when its key is new, stores the reply under the key, and answers every later
request with that key from the store. Executing may fail for good, and then the run ends. The two results: a run over any
requests leaves what the run over the first request of each key leaves (`run_firsts`), and two requests with one key get one
reply (`run_replies_agree`).
-/

/-- A service over states `σ`: the key of a request, the reply to a request without one, and the execution of a request, which
may fail for good. -/
structure Service (σ α κ ρ : Type*) where
  key : α → Option κ
  plain : α → ρ
  exec : σ → α → Option (σ × ρ)

/-- The state of a service and the replies it stored, oldest first. -/
structure Cached (σ κ ρ : Type*) where
  state : σ
  cache : List (κ × ρ)

namespace Service

variable {σ α κ ρ : Type*} [DecidableEq κ] (S : Service σ α κ ρ)

/-- One request to the cached service. -/
def step (c : Cached σ κ ρ) (a : α) : Option (Cached σ κ ρ × ρ) :=
  match S.key a with
  | none => some (c, S.plain a)
  | some k =>
    match c.cache.lookup k with
    | some r => some (c, r)
    | none => (S.exec c.state a).map (fun (s, r) => (⟨s, c.cache ++ [(k, r)]⟩, r))

/-- Requests one after the other, up to the first that fails: what is left and the replies given. -/
def run : Cached σ κ ρ → List α → Cached σ κ ρ × List ρ
  | c, [] => (c, [])
  | c, a :: as =>
    match S.step c a with
    | none => (c, [])
    | some (c', r) => ((run c' as).1, r :: (run c' as).2)

/-- The keyed requests whose key is neither among the ones seen nor the key of an earlier one. -/
def firsts : List κ → List α → List α
  | _, [] => []
  | seen, a :: as =>
    match S.key a with
    | none => firsts seen as
    | some k => if k ∈ seen then firsts seen as else a :: firsts (seen ++ [k]) as

/-! ## The cache -/

/-- A key is stored exactly when it is among the keys of the cache. -/
theorem lookup_eq_none_iff {c : List (κ × ρ)} {k : κ} : c.lookup k = none ↔ k ∉ c.map Prod.fst := by
  rw [List.lookup_eq_none_iff]
  simp only [bne_iff_ne, ne_eq, List.mem_map, not_exists, not_and]
  exact ⟨fun h p hp hk => h p hp hk.symm, fun h p hp hk => h p hp hk.symm⟩

/-- A request without a key changes nothing. -/
theorem step_of_plain {c : Cached σ κ ρ} {a : α} (hk : S.key a = none) : S.step c a = some (c, S.plain a) := by
  simp only [step, hk]

/-- A request whose key is stored is answered from the store, and nothing changes. -/
theorem step_of_stored {c : Cached σ κ ρ} {a : α} {r : ρ} {k : κ} (hk : S.key a = some k)
    (hc : c.cache.lookup k = some r) : S.step c a = some (c, r) := by
  simp only [step, hk, hc]

/-- A keyed request whose key is new is executed, and its reply is added to the cache. -/
theorem step_of_new {c : Cached σ κ ρ} {a : α} {k : κ} (hk : S.key a = some k) (hc : c.cache.lookup k = none) :
    S.step c a = (S.exec c.state a).map (fun (s, r) => (⟨s, c.cache ++ [(k, r)]⟩, r)) := by
  simp only [step, hk, hc]

/-- What a keyed request with a new key adds to the cache is its key and its reply. -/
theorem step_keys {c c' : Cached σ κ ρ} {a : α} {r : ρ} {k : κ} (hk : S.key a = some k)
    (hc : c.cache.lookup k = none) (h : S.step c a = some (c', r)) : c'.cache = c.cache ++ [(k, r)] := by
  rw [S.step_of_new hk hc, Option.map_eq_some_iff] at h
  obtain ⟨p, _, hp⟩ := h
  cases hp
  rfl

/-- A stored reply stays stored. -/
theorem step_lookup {c c' : Cached σ κ ρ} {a : α} {r x : ρ} {k : κ} (h : S.step c a = some (c', r))
    (hx : c.cache.lookup k = some x) : c'.cache.lookup k = some x := by
  cases hk : S.key a with
  | none =>
    rw [S.step_of_plain hk] at h
    cases h
    exact hx
  | some k' =>
    cases hc : c.cache.lookup k' with
    | some y =>
      rw [S.step_of_stored hk hc] at h
      cases h
      exact hx
    | none => rw [S.step_keys hk hc h, List.lookup_append, hx, Option.some_or]

/-- After a keyed request its reply is stored under its key. -/
theorem step_stores {c c' : Cached σ κ ρ} {a : α} {r : ρ} {k : κ} (hk : S.key a = some k)
    (h : S.step c a = some (c', r)) : c'.cache.lookup k = some r := by
  cases hc : c.cache.lookup k with
  | some y =>
    rw [S.step_of_stored hk hc] at h
    cases h
    exact hc
  | none => rw [S.step_keys hk hc h, List.lookup_append, hc, Option.none_or, List.lookup_cons_self]

/-! ## Runs -/

/-- A run over requests leaves what the run over the first request of each new key leaves. -/
theorem run_firsts (as : List α) :
    ∀ c : Cached σ κ ρ, (S.run c (S.firsts (c.cache.map Prod.fst) as)).1 = (S.run c as).1 := by
  induction as with
  | nil => intro c; rfl
  | cons a as ih =>
    intro c
    cases hk : S.key a with
    | none => simpa only [firsts, hk, run, step] using ih c
    | some k =>
      cases hc : c.cache.lookup k with
      | some r =>
        have hmem : k ∈ c.cache.map Prod.fst := by
          by_contra h
          rw [lookup_eq_none_iff.2 h] at hc
          cases hc
        simp only [firsts, hk, hmem, if_true, run, S.step_of_stored hk hc]
        exact ih c
      | none =>
        have hmem := lookup_eq_none_iff.1 hc
        simp only [firsts, hk, hmem, if_false, run]
        cases hs : S.step c a with
        | none => rfl
        | some p =>
          obtain ⟨c', r⟩ := p
          have hkeys := S.step_keys hk hc hs
          have := ih c'
          rw [hkeys, List.map_append] at this
          exact this

/-- Once a reply is stored under a key, every request with that key that the run reaches gets it. -/
theorem run_answers {k : κ} {r : ρ} (as : List α) :
    ∀ (c : Cached σ κ ρ) (j : Nat) (b : α), c.cache.lookup k = some r → as[j]? = some b → S.key b = some k →
      j ≤ (S.run c as).2.length → (S.run c as).2[j]? = some r := by
  induction as with
  | nil =>
    intro c j b _ hb
    simp at hb
  | cons a as ih =>
    intro c j b hc hb hk hj
    cases j with
    | zero =>
      simp only [List.getElem?_cons_zero, Option.some.injEq] at hb
      subst hb
      simp [run, S.step_of_stored hk hc]
    | succ j =>
      rw [List.getElem?_cons_succ] at hb
      cases hs : S.step c a with
      | none => simp [run, hs] at hj
      | some p =>
        obtain ⟨c', x⟩ := p
        simp only [run, hs, List.length_cons, Nat.add_le_add_iff_right] at hj
        simp only [run, hs, List.getElem?_cons_succ]
        exact ih c' j b (S.step_lookup hs hc) hb hk hj

/-- Of two requests with one key, if the run reaches the second, both are answered, and with the same reply. -/
theorem run_replies_agree {k : κ} (as : List α) :
    ∀ (c : Cached σ κ ρ) (i j : Nat) (a b : α), i < j → as[i]? = some a → as[j]? = some b → S.key a = some k →
      S.key b = some k → j ≤ (S.run c as).2.length →
      ∃ r, (S.run c as).2[i]? = some r ∧ (S.run c as).2[j]? = some r := by
  induction as with
  | nil =>
    intro c i j a b _ ha
    simp at ha
  | cons x as ih =>
    intro c i j a b hij ha hb hka hkb hj
    obtain ⟨j, rfl⟩ : ∃ j', j = j' + 1 := ⟨j - 1, by omega⟩
    rw [List.getElem?_cons_succ] at hb
    cases hs : S.step c x with
    | none => simp [run, hs] at hj
    | some p =>
      obtain ⟨c', r⟩ := p
      simp only [run, hs, List.length_cons, Nat.add_le_add_iff_right] at hj
      cases i with
      | zero =>
        simp only [List.getElem?_cons_zero, Option.some.injEq] at ha
        subst ha
        refine ⟨r, by simp [run, hs], ?_⟩
        simp only [run, hs, List.getElem?_cons_succ]
        exact S.run_answers as c' j b (S.step_stores hka hs) hb hkb hj
      | succ i =>
        rw [List.getElem?_cons_succ] at ha
        obtain ⟨y, hy⟩ := ih c' i j a b (by omega) ha hb hka hkb hj
        exact ⟨y, by simpa [run, hs] using hy⟩

end Service
