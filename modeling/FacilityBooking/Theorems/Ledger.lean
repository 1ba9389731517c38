import FacilityBooking.Theorems.ReadYourWrites
import FacilityBooking.Theorems.Survival

/-!
# Ledgers

What a run leaves, read off the requests it executed: the bookings are those that were made and have not been removed since, and the
rating of a facility is that of the ratings it was given, in order.
-/

namespace FacilityBooking

/-! ## Bookings -/

/-- No booking names the facility's calendar, which nothing sets. -/
theorem reachable_facilityName {Γ : Jvm} {checkHistory : Bool} {s : ServerState} (h : Reachable Γ checkHistory s) :
    ∀ f ∈ s.facilities, f.availability.facilityName = none := by
  refine h.invariant (fun s => ∀ f ∈ s.facilities, f.availability.facilityName = none) ?_ fun s e hs => ?_
  · intro f hf
    simp only [ServerState.init, List.mem_cons, List.not_mem_nil, or_false] at hf
    rcases hf with rfl | rfl | rfl <;> rfl
  · rw [serverStep, handleRequest_facilities]
    refine forall_onFacilities (P := fun a => a.facilityName = none) (fun _ _ => True) (fun _ _ _ _ ha _ => ha)
      (fun a prevBookingId userInfo ha => (Availability.removeTimeSlot_facilityName a prevBookingId userInfo).trans ha)
      (fun _ _ _ _ h => h) hs fun _ _ _ _ => trivial

/-- The booking that a request makes, with its facility. -/
def Event.booked (e : Event) (booking : BookingDetails) : Text × Booking :=
  (booking.facilityName, ⟨e.uuid.toText, e.userInfo, none, booking.timeSlot⟩)

section

variable {Γ : Jvm} {checkHistory : Bool} {s : ServerState}

/-- A request removes that booking exactly when its effect takes it away. -/
theorem removes_booked_iff {e d : Event} {booking : BookingDetails} :
    Removes Γ s d (e.report booking) ∧ IsExecuted Γ s d ↔ (effect Γ s d).TakesAway d.userInfo (e.booked booking) :=
  removes_iff (x := e.booked booking)

/-- What an effect stores is the booking it makes. -/
theorem mem_gained_iff (h : Reachable Γ checkHistory s) {e : Event} {x : Text × Booking} :
    x ∈ (effect Γ s e).gained e s.facilities ↔
      ∃ booking, (effect Γ s e).booking? = some booking ∧ x = e.booked booking := by
  unfold Effect.gained
  cases hbooking : (effect Γ s e).booking? with
  | none => simp
  | some booking =>
    obtain ⟨f, hf, _⟩ := grants_iff.1 (grants_of_effect hbooking)
    have hname := reachable_facilityName h f (getFacility_mem hf)
    simp only [hf, hname, List.mem_singleton, Option.some.injEq, exists_eq_left']
    rfl

/-- Along a run that draws different UUIDs, each step stores what it makes and keeps what it does not remove. -/
theorem along_mem_step_iff {used : List UUID} (hids : Distinct used s) {es : List Event}
    (hdrawn : (used ++ drawnAlong Γ s es).Nodup) (x : Text × Booking) :
    Machine.Along (serverStep Γ) (fun s e => x ∈ stored (serverStep Γ s e).facilities ↔
      x ∈ (effect Γ s e).gained e s.facilities ∨ x ∈ stored s.facilities ∧ ¬(effect Γ s e).TakesAway e.userInfo x) s es := by
  induction es generalizing used s with
  | nil => trivial
  | cons e es ih =>
    rw [drawnAlong, ← List.append_assoc] at hdrawn
    have hnew := fresh_of_nodup (List.Nodup.of_append_left hdrawn)
    exact ⟨hids.mem_step_iff hnew, ih (hids.step hnew) hdrawn⟩

/-- After a run that draws different UUIDs, a booking is stored exactly when a request of the run made it and no later one, executed
and successful, has removed it. -/
theorem stored_iff_made_and_not_removed (checkHistory : Bool) {es : List Event}
    (hdrawn : (drawnAlong Γ (.init checkHistory) es).Nodup) (x : Text × Booking) :
    x ∈ stored (serverRun Γ (.init checkHistory) es).facilities ↔
      ∃ before e after booking, es = before ++ e :: after ∧
        (effect Γ (serverRun Γ (.init checkHistory) before) e).booking? = some booking ∧ x = e.booked booking ∧
        Machine.Along (serverStep Γ) (fun s d => ¬(Removes Γ s d (e.report booking) ∧ IsExecuted Γ s d))
          (serverRun Γ (.init checkHistory) (before ++ [e])) after := by
  have hempty : x ∉ stored (ServerState.init checkHistory).facilities := by
    have hnone : stored (ServerState.init checkHistory).facilities = [] := rfl
    rw [hnone]
    exact List.not_mem_nil
  have hsince := Machine.run_iff_since (P := fun s : ServerState => x ∈ stored s.facilities) es (.init checkHistory)
    (along_mem_step_iff (distinct_init checkHistory) hdrawn x)
  refine hsince.trans ⟨?_, ?_⟩
  · rintro (⟨hstart, _⟩ | ⟨before, e, after, hsplit, hgained, hkept⟩)
    · exact absurd hstart hempty
    · have hreachable : Reachable Γ checkHistory (Machine.run (serverStep Γ) (.init checkHistory) before) :=
        Machine.Reachable.start.run before
      obtain ⟨booking, hbooking, rfl⟩ := (mem_gained_iff hreachable).1 hgained
      refine ⟨before, e, after, booking, hsplit, hbooking, rfl, ?_⟩
      simp only [removes_booked_iff]
      exact hkept
  · rintro ⟨before, e, after, booking, hsplit, hbooking, rfl, hkept⟩
    have hreachable : Reachable Γ checkHistory (Machine.run (serverStep Γ) (.init checkHistory) before) :=
      Machine.Reachable.start.run before
    simp only [removes_booked_iff] at hkept
    exact Or.inr ⟨before, e, after, hsplit, (mem_gained_iff hreachable).2 ⟨booking, hbooking, rfl⟩, hkept⟩

theorem stored_iff_made_and_not_removed_eleven :
    stored (serverRun openJdk (.init false) (removedAtNine.map Sending.event)).facilities = [bookAtEleven.booked atEleven] ∧
      ∀ x, x ∈ stored (serverRun openJdk (.init false) (removedAtNine.map Sending.event)).facilities ↔
        ∃ before e after booking, removedAtNine.map Sending.event = before ++ e :: after ∧
          (effect openJdk (serverRun openJdk (.init false) before) e).booking? = some booking ∧ x = e.booked booking ∧
          Machine.Along (serverStep openJdk) (fun s d => ¬(Removes openJdk s d (e.report booking) ∧ IsExecuted openJdk s d))
            (serverRun openJdk (.init false) (before ++ [e])) after := by
  refine ⟨?_, stored_iff_made_and_not_removed false (removedAtNine_drawn false)⟩
  rw [serverRun_sendings (by decide +kernel) rfl]
  decide +kernel

end

/-! ## Ratings -/

/-- The rating that an effect gives a facility, if it gives it one. -/
def Effect.ratingOf (name : Text) : Effect → List Double
  | .rate facilityName rating => if facilityName = name then [rating] else []
  | _ => []

/-- The ratings that a run gives a facility. -/
def ratingsAlong (Γ : Jvm) (name : Text) : ServerState → List Event → List Double
  | _, [] => []
  | s, e :: es => (effect Γ s e).ratingOf name ++ ratingsAlong Γ name (serverStep Γ s e) es

/-- The rating that has been given these: their sum from the first on, their number in 32 bits, and the quotient. -/
def Rating.given (Γ : Jvm) (ratings : List Double) : Rating where
  totalRatingSum := ratings.foldl Γ.addDouble 0
  numberOfRatings := BitVec.ofNat 32 ratings.length
  averageRating :=
    if BitVec.ofNat 32 ratings.length = 0 then 0
    else Γ.divDouble (ratings.foldl Γ.addDouble 0) (Γ.toDouble (BitVec.ofNat 32 ratings.length).toInt)

section

variable {Γ : Jvm}

theorem Rating.addRating_given (ratings : List Double) (rating : Double) :
    (Rating.given Γ ratings).addRating Γ rating = Rating.given Γ (ratings ++ [rating]) := by
  have hcount : BitVec.ofNat 32 (ratings ++ [rating]).length = BitVec.ofNat 32 ratings.length + 1 := by
    rw [List.length_append, List.length_singleton, BitVec.ofNat_add]
    rfl
  unfold Rating.addRating given
  rw [hcount, List.foldl_append]
  simp only [List.foldl_cons, List.foldl_nil]
  split <;> rfl

/-- What an effect does to the rating of a facility. -/
theorem rating_onFacilities {e : Event} (effect : Effect) (facilities : List Facility) (name : Text) :
    (getFacility (effect.onFacilities Γ e facilities) name).map Facility.rating =
      (getFacility facilities name).map (fun f => (effect.ratingOf name).foldl (Rating.addRating Γ) f.rating) := by
  have hunrated : ∀ (facilityName : Text) (change : Facility → Facility), (∀ f, (change f).name = f.name) →
      (∀ f, (change f).rating = f.rating) → (getFacility (modifyFacility facilities facilityName change) name).map Facility.rating =
        (getFacility facilities name).map Facility.rating := by
    intro facilityName change hname hrating
    rw [getFacility_modifyFacility hname]
    split
    · rename_i h
      rw [h, Option.map_map]
      exact congrArg (fun g => (getFacility facilities facilityName).map g) (funext hrating)
    · rfl
  cases effect with
  | nothing => rfl
  | book booking => exact hunrated _ _ (fun _ => rfl) fun _ => rfl
  | move booking => exact hunrated _ _ (fun _ => rfl) fun _ => rfl
  | remove facilityName bookingId => exact hunrated _ _ (fun _ => rfl) fun _ => rfl
  | register facilityName monitorInterval => rfl
  | rate facilityName rating =>
    have hkept : ∀ f, (Facility.addRating Γ f rating).name = f.name := fun _ => rfl
    have hchange : (Effect.rate facilityName rating).onFacilities Γ e facilities =
        modifyFacility facilities facilityName (fun f => f.addRating Γ rating) := rfl
    rw [hchange, getFacility_modifyFacility hkept]
    by_cases hname : name = facilityName
    · have hgiven : (Effect.rate facilityName rating).ratingOf name = [rating] := if_pos hname.symm
      rw [if_pos hname, hgiven, hname, Option.map_map]
      rfl
    · have hnone : (Effect.rate facilityName rating).ratingOf name = [] := if_neg (Ne.symm hname)
      rw [if_neg hname, hnone]
      rfl

theorem rating_run {name : Text} (es : List Event) {s : ServerState} {ratings : List Double}
    (h : ∀ f, getFacility s.facilities name = some f → f.rating = Rating.given Γ ratings) :
    ∀ f, getFacility (serverRun Γ s es).facilities name = some f →
      f.rating = Rating.given Γ (ratings ++ ratingsAlong Γ name s es) := by
  induction es generalizing s ratings with
  | nil =>
    rw [ratingsAlong, List.append_nil]
    exact h
  | cons e es ih =>
    rw [ratingsAlong, ← List.append_assoc]
    refine ih fun f hf => ?_
    have hstep := rating_onFacilities (Γ := Γ) (e := e) (effect Γ s e) s.facilities name
    rw [← handleRequest_facilities, ← serverStep, hf, Option.map_some] at hstep
    obtain ⟨g, hg, hrating⟩ := Option.map_eq_some_iff.1 hstep.symm
    rw [h g hg] at hrating
    rw [← hrating]
    -- a datagram gives at most one rating
    have hone : ∀ effect : Effect, effect.ratingOf name = [] ∨ ∃ rating, effect.ratingOf name = [rating] := by
      intro effect
      cases effect with
      | rate facilityName rating =>
        by_cases hname : facilityName = name
        · exact Or.inr ⟨rating, if_pos hname⟩
        · exact Or.inl (if_neg hname)
      | nothing => exact Or.inl rfl
      | book booking => exact Or.inl rfl
      | move booking => exact Or.inl rfl
      | remove facilityName bookingId => exact Or.inl rfl
      | register facilityName monitorInterval => exact Or.inl rfl
    rcases hone (effect Γ s e) with hnone | ⟨rating, hsome⟩
    · rw [hnone, List.append_nil]
      rfl
    · rw [hsome]
      exact Rating.addRating_given ratings rating

/-- In a reachable state, a request to read the rating of a facility is answered with that. -/
theorem result_of_rating {checkHistory : Bool} {s : ServerState} (hs : Reachable Γ checkHistory s) {e : Event} {m : RequestMessage}
    {name : Text} {f : Facility} (hf : getFacility s.facilities name = some f) (hm : deserializeMessage Γ e.bytes = .ok m)
    (ho : m.getOperation = .READ) (hdata : m.data = some ("rating".toList ++ ',' :: name)) (hnew : replayOf s m e = none) :
    (handleRequest Γ s e).result = .ok ⟨Operation.READ.getOpCode, m.requestID,
      success (lines [line "facility" name, line "rating" (Γ.format1f f.rating.averageRating)])⟩ := by
  have hname : ',' ∉ name ∧ name ≠ [] := by
    have hmem := name_mem_of_getFacility hs hf
    simp only [List.mem_cons, List.not_mem_nil, or_false] at hmem
    rcases hmem with rfl | rfl | rfl <;> decide
  have hfacility : "rating".toList ≠ "facility".toList := by decide
  have hbooking : "rating".toList ≠ "booking".toList := by decide
  have hread : readData Γ s.facilities m.data =
      .ok (success (lines [line "facility" name, line "rating" (Γ.format1f f.rating.averageRating)])) := by
    rw [hdata, readData_of_split (split_pair (by decide) hname.1 hname.2), if_neg hfacility, if_neg hbooking, if_pos rfl, hf]
    exact congrArg (fun name => Except.ok (success (lines [line "facility" name, _]))) (getFacility_name hf)
  rw [handleRequest_of_new hm (by rw [ho]; exact Operation.noConfusion) hnew, execute_result]
  simp only [dispatch, ho]
  have hreset : readData Γ s.reset.facilities m.data = readData Γ s.facilities m.data := rfl
  rw [hreset, hread]
  rfl

/-- While the server runs, a facility's rating is that of the ratings which the requests executed have given it, in order, and a request
to read it that is no repetition is answered with their quotient. -/
theorem rating_of_run (Γ : Jvm) (checkHistory : Bool) (es : List Event) (halive : (serve Γ (.init checkHistory) es).alive = true)
    (name : Text) (f : Facility) (hf : getFacility (serve Γ (.init checkHistory) es).state.facilities name = some f) :
    f.rating = Rating.given Γ (ratingsAlong Γ name (.init checkHistory) es) ∧
      ∀ e m, deserializeMessage Γ e.bytes = .ok m → m.getOperation = .READ → m.data = some ("rating".toList ++ ',' :: name) →
        replayOf (serve Γ (.init checkHistory) es).state m e = none →
        (handleRequest Γ (serve Γ (.init checkHistory) es).state e).result = .ok ⟨Operation.READ.getOpCode, m.requestID,
          success (lines [line "facility" name,
            line "rating" (Γ.format1f (Rating.given Γ (ratingsAlong Γ name (.init checkHistory) es)).averageRating)])⟩ := by
  rw [serve_state halive] at hf ⊢
  have hreachable : Reachable Γ checkHistory (serverRun Γ (.init checkHistory) es) := Machine.Reachable.start.run es
  have hrating : f.rating = Rating.given Γ (ratingsAlong Γ name (.init checkHistory) es) := by
    refine @rating_run Γ name es _ [] (fun f hf => ?_) f hf
    have hmem := getFacility_mem hf
    simp only [ServerState.init, List.mem_cons, List.not_mem_nil, or_false] at hmem
    rcases hmem with rfl | rfl | rfl <;> rfl
  refine ⟨hrating, fun e m hm ho hdata hnew => ?_⟩
  rw [← hrating]
  exact result_of_rating hreachable hf hm ho hdata hnew

/-- The ratings that messages give a facility in turn. -/
def Sending.ratings (Γ : Jvm) (name : Text) : List Facility → List Sending → List Double
  | _, [] => []
  | facilities, x :: xs => (effectOf Γ facilities x.message).ratingOf name ++
      Sending.ratings Γ name ((effectOf Γ facilities x.message).onFacilities Γ x.event facilities) xs

theorem ratingsAlong_sendings (name : Text) {xs : List Sending} (hfits : ∀ x ∈ xs, x.Fits) {s : ServerState}
    (hmode : s.checkHistory = false) : ratingsAlong Γ name s (xs.map Sending.event) = Sending.ratings Γ name s.facilities xs := by
  induction xs generalizing s with
  | nil => rfl
  | cons x xs ih =>
    have hnew := replayOf_atLeastOnce hmode x.message x.event
    have heffect : effect Γ s x.event = effectOf Γ s.facilities x.message := by
      rw [effect_frame rfl (hfits x List.mem_cons_self), hnew]
      rfl
    have hmode' : (serverStep Γ s x.event).checkHistory = false := (handleRequest_checkHistory Γ s x.event).trans hmode
    rw [List.map_cons, ratingsAlong, Sending.ratings, heffect, ih (fun y hy => hfits y (List.mem_cons_of_mem x hy)) hmode']
    rw [@serverStep_frame Γ s x.event x.message rfl (hfits x List.mem_cons_self) hnew]

end

/-- The runtime with the floating point of two ratings: 4 and 5, their sum 9, the numbers 1 and 2, and the quotient 4.5. -/
def ratingJdk : Jvm where
  __ := openJdk
  parseDouble := fun s =>
    if s = "4".toList then some 0x4010000000000000 else if s = "5".toList then some 0x4014000000000000 else none
  addDouble := fun x y => if x = 0 then y else if x = 0x4010000000000000 ∧ y = 0x4014000000000000 then 0x4022000000000000 else x
  toDouble := fun n => if n = 1 then 0x3ff0000000000000 else if n = 2 then 0x4000000000000000 else 0
  divDouble := fun x y => if x = 0x4022000000000000 ∧ y = 0x4000000000000000 then 0x4012000000000000 else x
  format1f := fun d =>
    if d = 0x4010000000000000 then "4.0".toList else if d = 0x4014000000000000 then "5.0".toList
    else if d = 0x4012000000000000 then "4.5".toList else []

/-- Two clients rate one facility, and between that there are a booking and a rating of another facility. -/
def rated : List Sending :=
  [⟨5000, ⟨2, 0, some "rating,Weekday1,4".toList⟩, ⟨0, 0⟩⟩,
    ⟨5001, ⟨1, 0, some "Weekday1,MONDAY,9,0,10,0".toList⟩, ⟨0, 1⟩⟩,
    ⟨5000, ⟨2, 1, some "rating,Weekends,4".toList⟩, ⟨0, 2⟩⟩,
    ⟨5001, ⟨2, 1, some "rating,Weekday1,5".toList⟩, ⟨0, 3⟩⟩]

/-- The request to read the rating. -/
def readRating : Sending := ⟨5002, ⟨0, 0, some "rating,Weekday1".toList⟩, ⟨0, 4⟩⟩

theorem rating_of_run_twoRatings :
    (handleRequest ratingJdk (serve ratingJdk (.init false) (rated.map Sending.event)).state readRating.event).result =
      .ok ⟨0, 0, success (lines [line "facility" "Weekday1".toList, line "rating" "4.5".toList])⟩ := by
  have hfits : ∀ x ∈ rated, x.Fits := by decide +kernel
  have halive : (serve ratingJdk (.init false) (rated.map Sending.event)).alive = true := by
    refine alive_of_sendings hfits ?_ _
    simp only [rated, List.forall_mem_cons]
    exact ⟨Operation.noConfusion, Operation.noConfusion, Operation.noConfusion, Operation.noConfusion, List.forall_mem_nil _⟩
  have hm : deserializeMessage ratingJdk readRating.event.bytes = .ok readRating.message :=
    deserializeMessage_frame _ _ (by decide +kernel)
  have hthere : (getFacility (serve ratingJdk (.init false) (rated.map Sending.event)).state.facilities "Weekday1".toList).isSome := by
    rw [serve_state halive, serverRun_sendings hfits rfl]
    decide +kernel
  have hmode : (serve ratingJdk (.init false) (rated.map Sending.event)).state.checkHistory = false := by
    rw [serve_state halive]
    exact reachable_checkHistory (Machine.Reachable.start.run _)
  obtain ⟨f, hf⟩ := Option.isSome_iff_exists.1 hthere
  have hanswer := (rating_of_run ratingJdk false _ halive _ f hf).2 readRating.event _ hm rfl rfl (replayOf_atLeastOnce hmode _ _)
  have hquotient : ratingJdk.format1f (Rating.given ratingJdk (Sending.ratings ratingJdk "Weekday1".toList
      (ServerState.init false).facilities rated)).averageRating = "4.5".toList := by decide +kernel
  rw [ratingsAlong_sendings _ hfits rfl, hquotient] at hanswer
  exact hanswer

end FacilityBooking
