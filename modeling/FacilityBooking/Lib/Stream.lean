import Mathlib.Data.List.Basic

/-!
# Readers and writers of a stream

A reader is a stateful computation that may fail, over a state that is made of the items left and of something else. It takes
items when, whatever follows them, it succeeds on them and leaves what follows. A writer is one over a state that is made of a
buffer of bounded capacity and of something else. It puts items when it appends them if they fit and fails if they do not. Such
facts compose along the reader and along the writer.
-/

namespace Stream

variable {ε ι σ τ α β : Type}

/-! ## Readers -/

/-- A reader of items, over a state made by `mk` of the items left and of something else: it takes exactly these items, turns `t`
into `t'` and returns `a`. -/
def Takes (mk : List ι → τ → σ) (r : StateT σ (Except ε) α) (items : List ι) (t : τ) (a : α) (t' : τ) : Prop :=
  ∀ rest, r (mk (items ++ rest) t) = .ok (a, mk rest t')

/-- A reader over nothing but the items left. -/
abbrev Reads (r : StateT (List ι) (Except ε) α) (items : List ι) (a : α) : Prop :=
  Takes (fun left (_ : Unit) => left) r items () a ()

/-- The reader, so many times. -/
def times (r : StateT σ (Except ε) α) : Nat → StateT σ (Except ε) (List α)
  | 0 => return []
  | n + 1 => do
    let a ← r
    let rest ← times r n
    return a :: rest

variable {mk : List ι → τ → σ}

theorem Takes.pure (a : α) (t : τ) : Takes mk (pure a : StateT σ (Except ε) α) [] t a t := fun _ => rfl

/-- One reader after the other. -/
theorem Takes.bind {r : StateT σ (Except ε) α} {f : α → StateT σ (Except ε) β} {items items' : List ι} {a : α} {b : β}
    {t t' t'' : τ} (hr : Takes mk r items t a t') (hf : Takes mk (f a) items' t' b t'') :
    Takes mk (r >>= f) (items ++ items') t b t'' := by
  intro rest
  rw [List.append_assoc]
  show (r (mk (items ++ (items' ++ rest)) t) >>= fun p => f p.1 p.2) = _
  rw [hr (items' ++ rest)]
  exact hf rest

/-- A first step that takes nothing. -/
theorem Takes.skip {r : StateT σ (Except ε) α} {f : α → StateT σ (Except ε) β} {items : List ι} {a : α} {b : β}
    {t t' t'' : τ} (hr : Takes mk r [] t a t') (hf : Takes mk (f a) items t' b t'') : Takes mk (r >>= f) items t b t'' :=
  hr.bind hf

/-- A last step that only computes. -/
theorem Takes.map {r : StateT σ (Except ε) α} {f : α → β} {items : List ι} {a : α} {t t' : τ}
    (hr : Takes mk r items t a t') : Takes mk (r >>= fun a => Pure.pure (f a)) items t (f a) t' := by
  have h := hr.bind (f := fun a => (Pure.pure (f a) : StateT σ (Except ε) β)) (Takes.pure (f a) t')
  rwa [List.append_nil] at h

/-- A reader of one item at a time takes a list of items one by one. -/
theorem Reads.times {r : StateT (List ι) (Except ε) ι} (hr : ∀ i, Reads r [i] i) (items : List ι) :
    Reads (times r items.length) items items := by
  induction items with
  | nil => exact Takes.pure [] ()
  | cons i items ih => exact (hr i).bind ih.map

/-! ## Readers that go on as others -/

/-- A reader that, on items that begin with these, goes on as another reader. -/
def Leads (mk : List ι → τ → σ) (r : StateT σ (Except ε) α) (items : List ι) (t : τ) (r' : StateT σ (Except ε) α) (t' : τ) : Prop :=
  ∀ rest, r (mk (items ++ rest) t) = r' (mk rest t')

theorem Leads.refl (r : StateT σ (Except ε) α) (t : τ) : Leads mk r [] t r t := fun _ => rfl

/-- A first step that succeeds, and then the others. -/
theorem Takes.leads {r : StateT σ (Except ε) α} {f : α → StateT σ (Except ε) β} {r' : StateT σ (Except ε) β} {items items' : List ι}
    {a : α} {t t' t'' : τ} (hr : Takes mk r items t a t') (hf : Leads mk (f a) items' t' r' t'') :
    Leads mk (r >>= f) (items ++ items') t r' t'' := by
  intro rest
  rw [List.append_assoc]
  show (r (mk (items ++ (items' ++ rest)) t) >>= fun p => f p.1 p.2) = _
  rw [hr (items' ++ rest)]
  exact hf rest

/-- A first step that takes nothing. -/
theorem Takes.skipLeads {r : StateT σ (Except ε) α} {f : α → StateT σ (Except ε) β} {r' : StateT σ (Except ε) β}
    {items : List ι} {a : α} {t t' t'' : τ} (hr : Takes mk r [] t a t') (hf : Leads mk (f a) items t' r' t'') :
    Leads mk (r >>= f) items t r' t'' := hr.leads hf

theorem Leads.trans {r r' r'' : StateT σ (Except ε) α} {items items' : List ι} {t t' t'' : τ} (h : Leads mk r items t r' t')
    (h' : Leads mk r' items' t' r'' t'') : Leads mk r (items ++ items') t r'' t'' := by
  intro rest
  rw [List.append_assoc, h, h']

/-- A reader that goes on as one that takes some items takes them too. -/
theorem Leads.takes {r r' : StateT σ (Except ε) α} {items items' : List ι} {a : α} {t t' t'' : τ} (h : Leads mk r items t r' t')
    (h' : Takes mk r' items' t' a t'') : Takes mk r (items ++ items') t a t'' := by
  intro rest
  rw [List.append_assoc, h, h']

/-- What comes after a reader comes after the one it goes on as. -/
theorem Leads.bind {r r' : StateT σ (Except ε) α} {items : List ι} {t t' : τ} (h : Leads mk r items t r' t')
    (f : α → StateT σ (Except ε) β) : Leads mk (r >>= f) items t (r' >>= f) t' := by
  intro rest
  show (r (mk (items ++ rest) t) >>= fun p => f p.1 p.2) = (r' (mk rest t') >>= fun p => f p.1 p.2)
  rw [h rest]

/-! ## What a reader that succeeds has taken -/

/-- A reader that succeeds has taken both of its steps. -/
theorem bind_ok {r : StateT σ (Except ε) α} {f : α → StateT σ (Except ε) β} {s s' : σ} {b : β}
    (h : (r >>= f) s = .ok (b, s')) : ∃ a mid, r s = .ok (a, mid) ∧ f a mid = .ok (b, s') := by
  have hrun : (r >>= f) s = (r s >>= fun p => f p.1 p.2) := rfl
  rw [hrun] at h
  cases hr : r s with
  | error x =>
    rw [hr] at h
    cases h
  | ok p =>
    rw [hr] at h
    exact ⟨p.1, p.2, rfl, h⟩

/-- A reader of one item at a time has taken the items it returns. -/
theorem times_sound {r : StateT (List ι) (Except ε) ι} (hr : ∀ items i left, r items = .ok (i, left) → items = i :: left) {n : Nat}
    {items taken left : List ι} (h : times r n items = .ok (taken, left)) : items = taken ++ left ∧ taken.length = n := by
  induction n generalizing items taken with
  | zero =>
    cases h
    exact ⟨rfl, rfl⟩
  | succ n ih =>
    obtain ⟨i, mid, hi, h⟩ := bind_ok h
    obtain ⟨rest, mid', hrest, h⟩ := bind_ok h
    cases h
    obtain ⟨rfl, hlength⟩ := ih hrest
    exact ⟨hr items i _ hi, congrArg Nat.succ hlength⟩

/-! ## What readers do not look at -/

/-- A reader that looks at no more than it takes: where it succeeds, it does the same when more follows. -/
def Local (r : StateT (List ι) (Except ε) α) : Prop :=
  ∀ items a left rest, r items = .ok (a, left) → r (items ++ rest) = .ok (a, left ++ rest)

theorem Local.pure (a : α) : Local (pure a : StateT (List ι) (Except ε) α) := by
  intro items a' left rest h
  cases h
  rfl

theorem Local.throw (x : ε) : Local (throw x : StateT (List ι) (Except ε) α) := by
  intro items a left rest h
  cases h

theorem Local.bind {r : StateT (List ι) (Except ε) α} {f : α → StateT (List ι) (Except ε) β} (hr : Local r)
    (hf : ∀ a, Local (f a)) : Local (r >>= f) := by
  intro items b left rest h
  have hrun : ∀ items, (r >>= f) items = (r items >>= fun p => f p.1 p.2) := fun _ => rfl
  rw [hrun] at h ⊢
  cases hfirst : r items with
  | error x =>
    rw [hfirst] at h
    cases h
  | ok p =>
    rw [hfirst] at h
    rw [hr items p.1 p.2 rest hfirst]
    exact hf p.1 p.2 b left rest h

theorem Local.times {r : StateT (List ι) (Except ε) α} (hr : Local r) (n : Nat) : Local (times r n) := by
  induction n with
  | zero => exact Local.pure []
  | succ n ih => exact hr.bind fun a => ih.bind fun as => Local.pure (a :: as)

/-- A reader that takes an item each time fails where there are fewer items than times. -/
theorem times_of_length_lt {r : StateT (List ι) (Except ε) α}
    (hr : ∀ items a left, r items = .ok (a, left) → left.length < items.length)
    {n : Nat} {items : List ι} (h : items.length < n) : ∃ x, times r n items = .error x := by
  induction n generalizing items with
  | zero => exact absurd h (Nat.not_lt_zero _)
  | succ n ih =>
    have hrun : times r (n + 1) items = (r items >>= fun p => times r n p.2 >>= fun q => Except.ok (p.1 :: q.1, q.2)) := rfl
    rw [hrun]
    cases hfirst : r items with
    | error x => exact ⟨x, rfl⟩
    | ok p =>
      have hleft := hr items p.1 p.2 hfirst
      have hshort : p.2.length < n := by omega
      obtain ⟨x, hx⟩ := ih hshort
      refine ⟨x, ?_⟩
      show (times r n p.2 >>= _) = _
      rw [hx]
      rfl

/-! ## Writers -/

/-- A buffer: its capacity, which it never exceeds, and what is written. -/
structure Buffer (ι : Type) where
  capacity : Nat
  written : List ι
  fits : written.length ≤ capacity

/-- A writer over a state made by `mk` of a buffer and of something else: it appends exactly these items and turns `t` into `t'`,
or it fails because they do not fit. -/
def Puts (mk : Buffer ι → τ → σ) (w : StateT σ (Except ε) Unit) (items : List ι) (t t' : τ) : Prop :=
  ∀ buffer : Buffer ι,
    (∃ h : (buffer.written ++ items).length ≤ buffer.capacity,
      w (mk buffer t) = .ok ((), mk ⟨buffer.capacity, buffer.written ++ items, h⟩ t')) ∨
    (buffer.capacity < (buffer.written ++ items).length ∧ ∃ x, w (mk buffer t) = .error x)

variable {make : Buffer ι → τ → σ}

/-- A step that writes nothing. -/
theorem Puts.nothing {w : StateT σ (Except ε) Unit} {t t' : τ}
    (h : ∀ buffer, w (make buffer t) = .ok ((), make buffer t')) : Puts make w [] t t' := by
  intro buffer
  have hfits : (buffer.written ++ []).length ≤ buffer.capacity := by rw [List.append_nil]; exact buffer.fits
  refine Or.inl ⟨hfits, ?_⟩
  simp only [List.append_nil]
  exact h buffer

/-- One writer after the other. -/
theorem Puts.bind {w w' : StateT σ (Except ε) Unit} {items items' : List ι} {t t' t'' : τ} (hw : Puts make w items t t')
    (hw' : Puts make w' items' t' t'') : Puts make (w >>= fun _ => w') (items ++ items') t t'' := by
  intro buffer
  have hrun : (w >>= fun _ => w') (make buffer t) = (w (make buffer t) >>= fun p => w' p.2) := rfl
  rw [hrun]
  rcases hw buffer with ⟨h, hok⟩ | ⟨h, x, herr⟩
  · have hrest := hw' ⟨buffer.capacity, buffer.written ++ items, h⟩
    simp only [List.append_assoc] at hrest
    rw [hok]
    exact hrest
  · refine Or.inr ⟨?_, x, by rw [herr]; rfl⟩
    rw [List.length_append] at h ⊢
    rw [List.length_append]
    omega

/-- A first step that writes nothing. -/
theorem Puts.skip {w w' : StateT σ (Except ε) Unit} {items : List ι} {t t' t'' : τ}
    (hw : ∀ buffer, w (make buffer t) = .ok ((), make buffer t')) (hw' : Puts make w' items t' t'') :
    Puts make (w >>= fun _ => w') items t t'' := (Puts.nothing hw).bind hw'

/-- A step that looks at the state first. -/
theorem Puts.get {f : σ → StateT σ (Except ε) Unit} {items : List ι} {t t' : τ}
    (h : ∀ buffer, Puts make (f (make buffer t)) items t t') : Puts make (MonadState.get >>= f) items t t' :=
  fun buffer => h buffer buffer

/-- The same writer on each of a list. -/
theorem Puts.forM (as : List α) {w : α → StateT σ (Except ε) Unit} {items : α → List ι} {t : τ}
    (h : ∀ a ∈ as, Puts make (w a) (items a) t t) : Puts make (as.forM w) (as.flatMap items) t t := by
  induction as with
  | nil => exact Puts.nothing fun _ => rfl
  | cons a as ih =>
    rw [List.forall_mem_cons] at h
    rw [List.flatMap_cons]
    exact h.1.bind (ih h.2)

end Stream
