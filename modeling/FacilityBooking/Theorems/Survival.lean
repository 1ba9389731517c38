import FacilityBooking.Runs
import FacilityBooking.Server.Main

/-!
# What stops the server

Every case of `handleRequest` catches what it throws, but for `READ`: its data may be null, consist of commas only, or name a
day that is none. The exception ends the loop of `main`.
-/

namespace FacilityBooking

/-- The data on which the case `READ` throws: none, no piece at all, or a facility that is asked about with a day that is
none. -/
def ReadThrows (data : Option Text) : Prop :=
  ∀ text, data = some text → split text = [] ∨
    ∃ name days, split text = "facility".toList :: name :: days ∧ name ≠ "ALL".toList ∧
      ∃ day ∈ days, day ∉ DayOfWeek.values.map DayOfWeek.name

/-- A name is read as a day exactly when it is the name of one. -/
theorem valueOf_ok_iff (name : Text) : (∃ d, DayOfWeek.valueOf name = .ok d) ↔ name ∈ DayOfWeek.values.map DayOfWeek.name := by
  constructor
  · rintro ⟨d, hd⟩
    exact List.mem_map.2 ⟨d, DayOfWeek.mem_values d, DayOfWeek.name_of_valueOf hd⟩
  · intro h
    obtain ⟨d, _, rfl⟩ := List.mem_map.1 h
    exact ⟨d, DayOfWeek.valueOf_name d⟩

/-- A list of names is read as days exactly when each is the name of one. -/
theorem mapM_valueOf_ok_iff (names : List Text) :
    (∃ days, names.mapM DayOfWeek.valueOf = .ok days) ↔ ∀ name ∈ names, name ∈ DayOfWeek.values.map DayOfWeek.name := by
  induction names with
  | nil => exact iff_of_true ⟨[], rfl⟩ fun _ h => absurd h List.not_mem_nil
  | cons name names ih =>
    rw [List.forall_mem_cons, ← ih, ← valueOf_ok_iff, List.mapM_cons]
    cases DayOfWeek.valueOf name with
    | error x => exact iff_of_false (by rintro ⟨_, h⟩; cases h) (by rintro ⟨⟨_, h⟩, _⟩; cases h)
    | ok d =>
      cases names.mapM DayOfWeek.valueOf with
      | error x => exact iff_of_false (by rintro ⟨_, h⟩; cases h) (by rintro ⟨_, ⟨_, h⟩⟩; cases h)
      | ok days => exact iff_of_true ⟨_, rfl⟩ ⟨⟨d, rfl⟩, ⟨days, rfl⟩⟩

/-- The data has such a form when it asks about a facility of a name, with words that are not all days. -/
theorem readThrows_of_split {text kind name : Text} {rest : List Text} (h : split text = kind :: name :: rest) :
    ReadThrows (some text) ↔
      kind = "facility".toList ∧ name ≠ "ALL".toList ∧ ¬∃ days, rest.mapM DayOfWeek.valueOf = .ok days := by
  rw [mapM_valueOf_ok_iff]
  constructor
  · intro hthrows
    rcases hthrows text rfl with hnil | ⟨name', days, hsplit, hname, day, hday, hnot⟩
    · rw [h] at hnil
      cases hnil
    · rw [h] at hsplit
      cases hsplit
      exact ⟨rfl, hname, fun hall => hnot (hall day hday)⟩
  · rintro ⟨hkind, hname, hdays⟩ t ht
    cases ht
    rw [hkind] at h
    push Not at hdays
    exact Or.inr ⟨name, rest, h, hname, hdays⟩

/-- The data has no such form when it is one piece. -/
theorem not_readThrows_of_single {text piece : Text} (h : split text = [piece]) : ¬ReadThrows (some text) := by
  intro hthrows
  rcases hthrows text rfl with hnil | ⟨name, days, hsplit, _⟩
  · rw [h] at hnil
    cases hnil
  · rw [h] at hsplit
    cases hsplit

/-- The case `READ` throws exactly on such data, whatever the facilities. -/
theorem readData_throws_iff (Γ : Jvm) (facilities : List Facility) (data : Option Text) :
    (∃ x, readData Γ facilities data = .error x) ↔ ReadThrows data := by
  cases data with
  | none => exact iff_of_true ⟨_, rfl⟩ (fun _ h => by cases h)
  | some text =>
    cases hs : split text with
    | nil =>
      refine iff_of_true ⟨_, readData_of_empty hs⟩ ?_
      intro t ht
      cases ht
      exact Or.inl hs
    | cons kind parts =>
      cases parts with
      | nil =>
        rw [readData_of_single hs]
        exact iff_of_false (by rintro ⟨_, h⟩; cases h) (not_readThrows_of_single hs)
      | cons name rest =>
        rw [readData_of_split hs, readThrows_of_split hs]
        by_cases hkind : kind = "facility".toList
        · rw [if_pos hkind]
          by_cases hname : name = "ALL".toList
          · rw [if_pos hname]
            exact iff_of_false (by rintro ⟨_, h⟩; cases h) (fun h => h.2.1 hname)
          · rw [if_neg hname]
            cases rest.mapM DayOfWeek.valueOf with
            | ok days => exact iff_of_false (by rintro ⟨_, h⟩; cases h) (fun h => h.2.2 ⟨days, rfl⟩)
            | error x => exact iff_of_true ⟨x, rfl⟩ ⟨hkind, hname, by rintro ⟨_, h⟩; cases h⟩
        · -- the other kinds are answered, be it with an error
          refine iff_of_false ?_ (fun h => hkind h.1)
          rw [if_neg hkind]
          rintro ⟨x, h⟩
          split_ifs at h

/-- A datagram that stops the server: a `READ` on such data, unless it is answered from the history. -/
def Stops (Γ : Jvm) (s : ServerState) (e : Event) : Prop :=
  ∃ m, deserializeMessage Γ e.bytes = .ok m ∧ m.getOperation = .READ ∧ replayOf s m e = none ∧ ReadThrows m.data

/-- A request of another case does not. -/
theorem not_stops_of_operation {Γ : Jvm} {s : ServerState} {e : Event} {m : RequestMessage}
    (hm : deserializeMessage Γ e.bytes = .ok m) (ho : m.getOperation ≠ .READ) : ¬Stops Γ s e := by
  rintro ⟨m', hm', ho', _⟩
  cases hm.symm.trans hm'
  exact ho ho'

/-- Nor does a `READ` on data that it does not throw on. -/
theorem not_stops_of_data {Γ : Jvm} {s : ServerState} {e : Event} {m : RequestMessage}
    (hm : deserializeMessage Γ e.bytes = .ok m) (hdata : ¬ReadThrows m.data) : ¬Stops Γ s e := by
  rintro ⟨m', hm', _, _, hthrows⟩
  cases hm.symm.trans hm'
  exact hdata hthrows

/-- `handleRequest` returns a response exactly when the datagram is none of these. -/
theorem handleRequest_returns_iff (Γ : Jvm) (s : ServerState) (e : Event) :
    (∃ r, (handleRequest Γ s e).result = .ok r) ↔ ¬Stops Γ s e := by
  have h := handleRequest_handling Γ s e
  generalize handleRequest Γ s e = outcome at h ⊢
  cases h with
  | undecodable x hm =>
    refine iff_of_true ⟨_, rfl⟩ ?_
    rintro ⟨m, hm', _⟩
    rw [hm] at hm'
    cases hm'
  | echo m hm ho =>
    refine iff_of_true ⟨_, rfl⟩ ?_
    rintro ⟨m', hm', ho', _⟩
    cases hm.symm.trans hm'
    cases ho.symm.trans ho'
  | replay m prevRequest hm ho hp =>
    refine iff_of_true ⟨_, rfl⟩ ?_
    rintro ⟨m', hm', _, hp', _⟩
    cases hm.symm.trans hm'
    cases hp.symm.trans hp'
  | thrown m x hm ho hp hx =>
    refine iff_of_false (by rintro ⟨_, h⟩; cases h) (not_not_intro ?_)
    exact ⟨m, hm, ho, hp, (readData_throws_iff Γ s.facilities m.data).1 ⟨x, hx⟩⟩
  | executed m r last monitors sent hm ho hp hd =>
    refine iff_of_true ⟨_, rfl⟩ ?_
    rintro ⟨m', hm', ho', _, hthrows⟩
    cases hm.symm.trans hm'
    obtain ⟨x, hx⟩ := (readData_throws_iff Γ s.facilities m.data).2 hthrows
    have hread : (dispatch Γ s.reset m e).2 = .error x := by
      rw [dispatch, ho']
      show (readData Γ s.facilities m.data).map _ = _
      rw [hx]
      rfl
    rw [hread] at hd
    cases hd

/-- The loop of `main` survives a run exactly when no datagram of the run stops it. -/
theorem serve_alive_iff (Γ : Jvm) (es : List Event) (s : ServerState) :
    (serve Γ s es).alive = true ↔ Machine.Along (serverStep Γ) (fun s e => ¬Stops Γ s e) s es := by
  induction es generalizing s with
  | nil => exact iff_of_true rfl trivial
  | cons e es ih =>
    have hreturns := handleRequest_returns_iff Γ s e
    rw [Machine.Along, ← ih, serverStep, ← hreturns, serve]
    generalize handleRequest Γ s e = outcome
    obtain ⟨s', result, sent⟩ := outcome
    cases result with
    | error x => exact iff_of_false Bool.false_ne_true (by rintro ⟨⟨_, h⟩, _⟩; cases h)
    | ok r => exact ⟨fun h => ⟨⟨r, rfl⟩, h⟩, fun h => h.2⟩

/-! ## The loop and the run -/

section

variable {Γ : Jvm} {s : ServerState} {e : Event} {es : List Event}

theorem serve_of_ok {r : RequestMessage} (h : (handleRequest Γ s e).result = .ok r) (es : List Event) :
    serve Γ s (e :: es) =
      ⟨(serve Γ (serverStep Γ s e) es).state, r :: (serve Γ (serverStep Γ s e) es).responses, (serve Γ (serverStep Γ s e) es).alive⟩ := by
  rw [serve, serverStep]
  generalize handleRequest Γ s e = outcome at h ⊢
  obtain ⟨s', result, sent⟩ := outcome
  cases h
  rfl

theorem serve_of_error {x : JavaException} (h : (handleRequest Γ s e).result = .error x) (es : List Event) :
    serve Γ s (e :: es) = ⟨serverStep Γ s e, [], false⟩ := by
  rw [serve, serverStep]
  generalize handleRequest Γ s e = outcome at h ⊢
  obtain ⟨s', result, sent⟩ := outcome
  cases h
  rfl

/-- The loop over some datagrams is a run of the server, up to the first datagram on which `handleRequest` throws. -/
theorem serve_eq_run (Γ : Jvm) (es : List Event) (s : ServerState) :
    (serve Γ s es).alive = true ∧ (serve Γ s es).state = serverRun Γ s es ∨
      ∃ before e after, es = before ++ e :: after ∧ (serve Γ s before).alive = true ∧ Stops Γ (serverRun Γ s before) e ∧
        (serve Γ s es).alive = false ∧ (serve Γ s es).state = serverRun Γ s (before ++ [e]) := by
  induction es generalizing s with
  | nil => exact Or.inl ⟨rfl, rfl⟩
  | cons e es ih =>
    cases hresult : (handleRequest Γ s e).result with
    | error x =>
      refine Or.inr ⟨[], e, es, rfl, rfl, ?_, ?_⟩
      · by_contra hreturns
        obtain ⟨r, hr⟩ := (handleRequest_returns_iff Γ s e).2 hreturns
        rw [hresult] at hr
        cases hr
      · rw [serve_of_error hresult]
        exact ⟨rfl, rfl⟩
    | ok r =>
      rw [serve_of_ok hresult]
      rcases ih (serverStep Γ s e) with hgoes | ⟨before, d, after, rfl, halive, hstops, hends, hstate⟩
      · exact Or.inl hgoes
      · refine Or.inr ⟨e :: before, d, after, rfl, ?_, hstops, hends, hstate⟩
        rw [serve_of_ok hresult]
        exact halive

/-- What the loop leaves, some of the datagrams have led to. -/
theorem exists_prefix_serve (Γ : Jvm) (es : List Event) (s : ServerState) :
    ∃ received, received <+: es ∧ (serve Γ s es).state = serverRun Γ s received := by
  rcases serve_eq_run Γ es s with ⟨_, hstate⟩ | ⟨before, e, after, rfl, _, _, _, hstate⟩
  · exact ⟨es, List.prefix_refl es, hstate⟩
  · exact ⟨before ++ [e], ⟨after, by rw [List.append_assoc, List.singleton_append]⟩, hstate⟩

/-- As long as the loop runs, it is that run. -/
theorem serve_state (h : (serve Γ s es).alive = true) : (serve Γ s es).state = serverRun Γ s es := by
  rcases serve_eq_run Γ es s with ⟨_, hstate⟩ | ⟨_, _, _, _, _, _, hends, _⟩
  · exact hstate
  · rw [h] at hends
    cases hends

/-- And it has run before. -/
theorem alive_of_append {es' : List Event} (h : (serve Γ s (es ++ es')).alive = true) : (serve Γ s es).alive = true := by
  rw [serve_alive_iff, Machine.along_append] at h
  exact (serve_alive_iff Γ es s).2 h.1

/-- It runs on messages that are no `READ` on data on which that case throws. -/
theorem alive_of_sendings {xs : List Sending} (hfits : ∀ x ∈ xs, x.Fits)
    (hread : ∀ x ∈ xs, x.message.getOperation = .READ → ¬ReadThrows x.message.data) (s : ServerState) :
    (serve Γ s (xs.map Sending.event)).alive = true := by
  rw [serve_alive_iff]
  induction xs generalizing s with
  | nil => trivial
  | cons x xs ih =>
    refine ⟨?_, ih (fun y hy => hfits y (List.mem_cons_of_mem x hy)) (fun y hy => hread y (List.mem_cons_of_mem x hy)) _⟩
    have hm : deserializeMessage Γ x.event.bytes = .ok x.message := deserializeMessage_frame Γ _ (hfits x List.mem_cons_self)
    rintro ⟨m, hm', ho, _, hthrows⟩
    obtain rfl := Except.ok.inj (hm.symm.trans hm')
    exact hread x List.mem_cons_self ho hthrows

/-- Without the switch that drops datagrams, the loop as `main` has it is that loop. -/
theorem loop_of_off (Γ : Jvm) (es : List Event) (main : Main) (hswitch : main.DROP_REQUEST = false) (hdrop : main.DROP = false) :
    (main.loop Γ es).main.server = (serve Γ main.server es).state ∧ (main.loop Γ es).running = (serve Γ main.server es).alive := by
  induction es generalizing main with
  | nil => exact ⟨rfl, rfl⟩
  | cons e es ih =>
    have hround : ∃ sent, main.round Γ e =
        ⟨{ main with server := serverStep Γ main.server e }, (handleRequest Γ main.server e).result.isOk, sent⟩ := by
      obtain ⟨_, _, server⟩ := main
      cases hswitch
      cases hdrop
      exact ⟨_, rfl⟩
    obtain ⟨sent, hround⟩ := hround
    rw [Main.loop, hround]
    cases hresult : (handleRequest Γ main.server e).result with
    | error x =>
      rw [serve_of_error hresult]
      exact ⟨rfl, rfl⟩
    | ok r =>
      rw [serve_of_ok hresult]
      exact ih { main with server := serverStep Γ main.server e } hswitch hdrop

end

end FacilityBooking
