import Mathlib.Order.Lattice
import Mathlib.Data.List.Pairwise

/-!
# Half-open intervals of a linear order

An interval `[start, stop)` of a linear order, the relation of overlapping, lists of intervals in which no two overlap, and the
sweep that lists the gaps such a list leaves between an opening and a closing time. Nothing here assumes that an interval is
proper (`start < stop`) except where a statement says so: an empty or a reversed interval has no instant, but it may overlap.
-/

/-- The interval `[start, stop)`. -/
structure HalfOpen (τ : Type*) where
  start : τ
  stop : τ
  deriving DecidableEq

namespace HalfOpen

variable {τ α : Type*} [LinearOrder τ]

/-- An instant lies in an interval when it is not before its start and is before its stop. -/
instance : Membership τ (HalfOpen τ) := ⟨fun a t => a.start ≤ t ∧ t < a.stop⟩

theorem mem_iff {t : τ} {a : HalfOpen τ} : t ∈ a ↔ a.start ≤ t ∧ t < a.stop := Iff.rfl

/-- A proper interval starts before it stops. -/
def Proper (a : HalfOpen τ) : Prop := a.start < a.stop

/-- Each of the two starts before the other stops. -/
def Overlaps (a b : HalfOpen τ) : Prop := a.start < b.stop ∧ b.start < a.stop

/-- The second interval lies within the first. -/
def Contains (a b : HalfOpen τ) : Prop := a.start ≤ b.start ∧ b.stop ≤ a.stop

instance (a : HalfOpen τ) : Decidable (Proper a) := inferInstanceAs (Decidable (_ < _))

instance (a b : HalfOpen τ) : Decidable (Overlaps a b) := inferInstanceAs (Decidable (_ ∧ _))

instance (a b : HalfOpen τ) : Decidable (Contains a b) := inferInstanceAs (Decidable (_ ∧ _))

theorem not_overlaps_iff {a b : HalfOpen τ} : ¬Overlaps a b ↔ b.stop ≤ a.start ∨ a.stop ≤ b.start := by
  rw [Overlaps, not_and_or, not_lt, not_lt]

/-- Intervals that do not overlap share no instant, proper or not. -/
theorem not_mem_of_not_overlaps {a b : HalfOpen τ} (h : ¬Overlaps a b) {t : τ} (ha : t ∈ a) : t ∉ b := by
  intro hb
  rcases not_overlaps_iff.1 h with h | h
  · exact absurd (hb.2.trans_le (h.trans ha.1)) (lt_irrefl _)
  · exact absurd (ha.2.trans_le (h.trans hb.1)) (lt_irrefl _)

/-- Of two proper intervals that do not overlap, the one that starts first stops before the other starts. -/
theorem stop_le_start {a b : HalfOpen τ} (hb : Proper b) (hab : a.start ≤ b.start) (h : ¬Overlaps a b) :
    a.stop ≤ b.start := by
  rcases not_overlaps_iff.1 h with h | h
  · exact absurd (hb.trans_le (h.trans hab)) (lt_irrefl _)
  · exact h

/-! ## Timetables -/

/-- Entries, each with an interval, no two of which overlap. -/
structure Timetable (span : α → HalfOpen τ) where
  entries : List α
  disjoint : entries.Pairwise (fun a b => ¬Overlaps (span a) (span b))

namespace Timetable

variable {span : α → HalfOpen τ}

/-- The timetable without entries. -/
def empty : Timetable span := ⟨[], List.Pairwise.nil⟩

/-- A new last entry, which overlaps none of the others. -/
def add (T : Timetable span) (a : α) (h : ∀ b ∈ T.entries, ¬Overlaps (span b) (span a)) : Timetable span where
  entries := T.entries ++ [a]
  disjoint := by
    rw [List.pairwise_append]
    refine ⟨T.disjoint, List.pairwise_singleton _ _, ?_⟩
    intro b hb c hc
    rw [List.mem_singleton] at hc
    exact hc ▸ h b hb

/-- Some of the entries, in their order. -/
def restrict (T : Timetable span) (l : List α) (h : l.Sublist T.entries) : Timetable span where
  entries := l
  disjoint := T.disjoint.sublist h

/-- An instant lies in at most one entry. -/
theorem instant_unique (T : Timetable span) {i j : Nat} {a b : α} (ha : T.entries[i]? = some a)
    (hb : T.entries[j]? = some b) {t : τ} (hta : t ∈ span a) (htb : t ∈ span b) : i = j := by
  have key : ∀ {i j : Nat} {a b : α}, i < j → T.entries[i]? = some a → T.entries[j]? = some b →
      ¬Overlaps (span a) (span b) := by
    intro i j a b hij ha hb
    obtain ⟨hi, rfl⟩ := List.getElem?_eq_some_iff.1 ha
    obtain ⟨hj, rfl⟩ := List.getElem?_eq_some_iff.1 hb
    exact List.pairwise_iff_getElem.1 T.disjoint i j hi hj hij
  rcases Nat.lt_trichotomy i j with hij | hij | hij
  · exact absurd htb (not_mem_of_not_overlaps (key hij ha hb) hta)
  · exact hij
  · exact absurd hta (not_mem_of_not_overlaps (key hij hb ha) htb)

end Timetable

/-! ## The gaps of a sweep -/

/-- The gaps a sweep lists: from a cursor to the start of each interval that starts after it, the cursor moving to the stop of
each interval as it passes, and from the last cursor to the close. -/
def gaps (close : τ) : τ → List (HalfOpen τ) → List (HalfOpen τ)
  | cursor, [] => if cursor < close then [⟨cursor, close⟩] else []
  | cursor, b :: bs => (if cursor < b.start then [⟨cursor, b.start⟩] else []) ++ gaps close b.stop bs

/-- No gap starts before the cursor when the cursor never moves back. -/
theorem le_start_of_mem_gaps {close : τ} : ∀ {bs : List (HalfOpen τ)} {cursor : τ}, (∀ b ∈ bs, cursor ≤ b.stop) →
    bs.Pairwise (fun a b => a.stop ≤ b.stop) → ∀ g ∈ gaps close cursor bs, cursor ≤ g.start := by
  intro bs
  induction bs with
  | nil =>
    intro cursor _ _ g hg
    simp only [gaps] at hg
    split at hg
    · rw [List.mem_singleton] at hg
      exact hg ▸ le_refl _
    · exact absurd hg List.not_mem_nil
  | cons b bs ih =>
    intro cursor hc hp g hg
    rw [List.pairwise_cons] at hp
    rw [gaps, List.mem_append] at hg
    rcases hg with hg | hg
    · split at hg
      · rw [List.mem_singleton] at hg
        exact hg ▸ le_refl _
      · exact absurd hg List.not_mem_nil
    · exact (hc b List.mem_cons_self).trans (ih hp.1 hp.2 g hg)

/-- An interval that ends after the first one starts does not lie in the gap before it. -/
theorem in_gap_cons_iff {close cursor : τ} {s b : HalfOpen τ} (h : b.start < s.stop) (bs : List (HalfOpen τ)) :
    (∃ g ∈ gaps close cursor (b :: bs), Contains g s) ↔ ∃ g ∈ gaps close b.stop bs, Contains g s := by
  rw [gaps]
  constructor
  · rintro ⟨g, hg, hcontains⟩
    rcases List.mem_append.1 hg with hg | hg
    · split at hg
      · rw [List.mem_singleton] at hg
        subst hg
        exact absurd hcontains.2 (not_le.2 h)
      · exact absurd hg List.not_mem_nil
    · exact ⟨g, hg, hcontains⟩
  · rintro ⟨g, hg, hcontains⟩
    exact ⟨g, List.mem_append_right _ hg, hcontains⟩

/-- Proper intervals in the order of their starts, no two of which overlap, are in the order of their stops. -/
theorem pairwise_stop {bs : List (HalfOpen τ)} (hproper : ∀ b ∈ bs, Proper b)
    (hsort : bs.Pairwise (fun a b => a.start ≤ b.start)) (hdis : bs.Pairwise (fun a b => ¬Overlaps a b)) :
    bs.Pairwise (fun a b => a.stop ≤ b.stop) := by
  refine List.Pairwise.imp_of_mem ?_ (hsort.and hdis)
  intro a b _ hb h
  exact (stop_le_start (hproper b hb) h.1 h.2).trans (hproper b hb).le

/-- What the sweep says is free is free: over proper intervals sorted by start, no two of which overlap, a proper interval
between the cursor and the close overlaps none of them exactly when it lies within a gap. -/
theorem free_iff_in_gap {close : τ} {s : HalfOpen τ} (hs : Proper s) (hclose : s.stop ≤ close) :
    ∀ {bs : List (HalfOpen τ)} {cursor : τ}, cursor ≤ s.start → (∀ b ∈ bs, Proper b) →
      bs.Pairwise (fun a b => a.start ≤ b.start) → bs.Pairwise (fun a b => ¬Overlaps a b) →
      ((∀ b ∈ bs, ¬Overlaps b s) ↔ ∃ g ∈ gaps close cursor bs, Contains g s) := by
  intro bs
  induction bs with
  | nil =>
    intro cursor hc _ _ _
    have hlt : cursor < close := hc.trans_lt (hs.trans_le hclose)
    simp only [gaps, hlt, if_true, List.mem_singleton, exists_eq_left]
    exact ⟨fun _ => ⟨hc, hclose⟩, fun _ b hb => absurd hb List.not_mem_nil⟩
  | cons b bs ih =>
    intro cursor hc hproper hsort hdis
    have hstops := pairwise_stop hproper hsort hdis
    rw [List.pairwise_cons] at hsort hdis hstops
    have hproper' : ∀ x ∈ bs, Proper x := fun x hx => hproper x (List.mem_cons_of_mem _ hx)
    rcases le_or_gt s.stop b.start with hbefore | hafter
    · -- the interval ends before the first one starts: the first gap holds it
      have hgap : cursor < b.start := hc.trans_lt (hs.trans_le hbefore)
      refine ⟨fun _ => ⟨⟨cursor, b.start⟩, by simp [gaps, hgap], hc, hbefore⟩, ?_⟩
      intro _ x hx
      rw [not_overlaps_iff]
      rcases List.mem_cons.1 hx with rfl | hx
      · exact Or.inl hbefore
      · exact Or.inl (hbefore.trans (hsort.1 x hx))
    · -- otherwise the first gap is too short, and the rest of the sweep decides
      rw [in_gap_cons_iff hafter, List.forall_mem_cons]
      rcases le_or_gt b.stop s.start with hdone | hover
      · rw [ih hdone hproper' hsort.2 hdis.2, and_iff_right]
        exact not_overlaps_iff.2 (Or.inr hdone)
      · constructor
        · rintro ⟨h, _⟩
          exact absurd ⟨hafter, hover⟩ h
        · rintro ⟨g, hg, hcontains⟩
          have hstart := le_start_of_mem_gaps hstops.1 hstops.2 g hg
          exact absurd (hstart.trans hcontains.1) (not_le.2 hover)

/-! ## A row of intervals -/

/-- Proper intervals one after the other, the first not before the cursor and none after the close. -/
def InRow (close : τ) : τ → List (HalfOpen τ) → Prop
  | _, [] => True
  | cursor, b :: bs => cursor ≤ b.start ∧ Proper b ∧ b.stop ≤ close ∧ InRow close b.stop bs

/-- Proper intervals in the order of their starts, no two of which overlap, are a row. -/
theorem inRow_of_pairwise {close : τ} : ∀ {bs : List (HalfOpen τ)} {cursor : τ},
    (∀ b ∈ bs, cursor ≤ b.start ∧ b.stop ≤ close) → (∀ b ∈ bs, Proper b) → bs.Pairwise (fun a b => a.start ≤ b.start) →
    bs.Pairwise (fun a b => ¬Overlaps a b) → InRow close cursor bs := by
  intro bs
  induction bs with
  | nil => exact fun _ _ _ _ => trivial
  | cons b bs ih =>
    intro cursor hwithin hproper hsort hdis
    rw [List.pairwise_cons] at hsort hdis
    rw [List.forall_mem_cons] at hwithin hproper
    refine ⟨hwithin.1.1, hproper.1, hwithin.1.2, ih ?_ hproper.2 hsort.2 hdis.2⟩
    intro x hx
    exact ⟨stop_le_start (hproper.2 x hx) (hsort.1 x hx) (hdis.1 x hx), (hwithin.2 x hx).2⟩

/-- No interval of a row starts before the cursor. -/
theorem InRow.le_start {close : τ} : ∀ {bs : List (HalfOpen τ)} {cursor : τ}, InRow close cursor bs →
    ∀ b ∈ bs, cursor ≤ b.start := by
  intro bs
  induction bs with
  | nil => exact fun _ _ hb => absurd hb List.not_mem_nil
  | cons b bs ih =>
    rintro cursor ⟨hstart, hproper, _, hrow⟩ x hx
    rcases List.mem_cons.1 hx with rfl | hx
    · exact hstart
    · exact hstart.trans (hproper.le.trans (ih hrow x hx))

/-- A gap is proper. -/
theorem proper_of_mem_gaps {close : τ} {bs : List (HalfOpen τ)} {cursor : τ} : ∀ g ∈ gaps close cursor bs, Proper g := by
  induction bs generalizing cursor with
  | nil =>
    intro g hg
    rw [gaps, List.mem_ite_nil_right, List.mem_singleton] at hg
    exact hg.2 ▸ hg.1
  | cons b bs ih =>
    intro g hg
    rw [gaps, List.mem_append, List.mem_ite_nil_right, List.mem_singleton] at hg
    rcases hg with ⟨hlt, rfl⟩ | hg
    · exact hlt
    · exact ih g hg

/-- The gaps of a row lie between the cursor and the close. -/
theorem InRow.contains_gap {close : τ} : ∀ {bs : List (HalfOpen τ)} {cursor : τ}, InRow close cursor bs →
    ∀ g ∈ gaps close cursor bs, Contains ⟨cursor, close⟩ g := by
  intro bs
  induction bs with
  | nil =>
    intro cursor _ g hg
    rw [gaps, List.mem_ite_nil_right, List.mem_singleton] at hg
    exact hg.2 ▸ ⟨le_refl _, le_refl _⟩
  | cons b bs ih =>
    rintro cursor ⟨hstart, hproper, hclose, hrow⟩ g hg
    rw [gaps, List.mem_append, List.mem_ite_nil_right, List.mem_singleton] at hg
    rcases hg with ⟨_, rfl⟩ | hg
    · exact ⟨le_refl _, hproper.le.trans hclose⟩
    · have hrest := ih hrow g hg
      exact ⟨hstart.trans (hproper.le.trans hrest.1), hrest.2⟩

/-- The gaps of a row stand in order, and between two of them there is something of the row. -/
theorem InRow.pairwise_gaps {close : τ} : ∀ {bs : List (HalfOpen τ)} {cursor : τ}, InRow close cursor bs →
    (gaps close cursor bs).Pairwise (fun g h => g.stop < h.start) := by
  intro bs
  induction bs with
  | nil =>
    intro cursor _
    rw [gaps]
    split
    · exact List.pairwise_singleton _ _
    · exact List.Pairwise.nil
  | cons b bs ih =>
    rintro cursor ⟨_, hproper, _, hrow⟩
    rw [gaps, List.pairwise_append]
    refine ⟨?_, ih hrow, ?_⟩
    · split
      · exact List.pairwise_singleton _ _
      · exact List.Pairwise.nil
    · intro g hg h hh
      rw [List.mem_ite_nil_right, List.mem_singleton] at hg
      obtain ⟨_, rfl⟩ := hg
      exact hproper.trans_le (hrow.contains_gap h hh).1

/-- The gaps of a row are its complement: an instant between the cursor and the close lies in a gap exactly when it lies in no
interval of the row. -/
theorem InRow.mem_gap_iff {close : τ} : ∀ {bs : List (HalfOpen τ)} {cursor : τ}, InRow close cursor bs →
    ∀ {t : τ}, cursor ≤ t → t < close → ((∃ g ∈ gaps close cursor bs, t ∈ g) ↔ ∀ b ∈ bs, t ∉ b) := by
  intro bs
  induction bs with
  | nil =>
    intro cursor _ t hcursor hclose
    have hlt : cursor < close := hcursor.trans_lt hclose
    simp only [gaps, hlt, if_true, List.mem_singleton, exists_eq_left]
    exact ⟨fun _ _ hb => absurd hb List.not_mem_nil, fun _ => ⟨hcursor, hclose⟩⟩
  | cons b bs ih =>
    rintro cursor ⟨_, hproper, _, hrow⟩ t hcursor hclose
    rw [List.forall_mem_cons]
    rcases lt_or_ge t b.start with hbefore | hafter
    · -- before the first interval: in the first gap
      have hgap : cursor < b.start := hcursor.trans_lt hbefore
      refine iff_of_true ⟨⟨cursor, b.start⟩, by simp [gaps, hgap], hcursor, hbefore⟩ ⟨fun hb => ?_, fun x hx hmem => ?_⟩
      · exact absurd hb.1 (not_le.2 hbefore)
      · exact absurd (hproper.le.trans ((hrow.le_start x hx).trans hmem.1)) (not_le.2 hbefore)
    · have hfirst : (∃ g ∈ gaps close cursor (b :: bs), t ∈ g) ↔ ∃ g ∈ gaps close b.stop bs, t ∈ g := by
        rw [gaps]
        constructor
        · rintro ⟨g, hg, ht⟩
          rw [List.mem_append, List.mem_ite_nil_right, List.mem_singleton] at hg
          rcases hg with ⟨_, rfl⟩ | hg
          · exact absurd ht.2 (not_lt.2 hafter)
          · exact ⟨g, hg, ht⟩
        · rintro ⟨g, hg, ht⟩
          exact ⟨g, List.mem_append_right _ hg, ht⟩
      rw [hfirst]
      rcases lt_or_ge t b.stop with hin | hpast
      · -- in the first interval: every later gap starts after it
        refine iff_of_false ?_ (fun h => h.1 ⟨hafter, hin⟩)
        rintro ⟨g, hg, ht⟩
        exact absurd ((hrow.contains_gap g hg).1.trans ht.1) (not_le.2 hin)
      · rw [ih hrow hpast hclose, and_iff_right]
        exact fun hb => absurd hb.2 (not_lt.2 hpast)

end HalfOpen
