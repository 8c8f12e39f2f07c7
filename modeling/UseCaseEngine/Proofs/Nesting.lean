import Mathlib.Data.Fintype.Card
import UseCaseEngine.Example.Office
import UseCaseEngine.Proofs.Reach

/-!
# Nested calls

User code may call runners from inside of a call, and is called by them in turn, so calls form a
tree. The journal notes of every call whether it was admitted or refused (`enter`), and when one
that was admitted ends. A call is *underway* from its admission to its end.

A runner refuses a call when it is marked as being in one, and also when calls may not nest any
deeper. The marks are right (`Tracked`), and the second never happens to a runner that is free: as
long as calls may nest as deep as there are free runners, every level of nesting takes up one of
them.

Out of scope: calls from other threads. A runner that is in a call lets these wait.

* `Tracked`: the marks of all runners, and all that was noted about calls, are right.
* `callWithin_tracks`: every call keeps it so, and frees the runners that it took up.
* **`nested_calls_of_reachable`**: a call is refused if and only if one on the same runner is
  underway.
-/

namespace UseCaseEngine

variable {S : Signature}

/-! ## Calls that are underway -/

/-- A call on the runner was admitted and has not ended yet; this is what happened since. -/
def Underway (r : RunnerId S) (since journal : List (Event S)) : Prop :=
  ∃ before, journal = since ++ .entered r :: before ∧ ∀ e ∈ since, e ≠ .entered r ∧ e ≠ .left r

section Underway

variable {r : RunnerId S} {e : Event S} {since journal : List (Event S)}

theorem underway_entered (r : RunnerId S) (journal : List (Event S)) :
    Underway r [] (.entered r :: journal) :=
  ⟨journal, rfl, fun _ he => absurd he List.not_mem_nil⟩

theorem not_underway_left : ¬ Underway r since (.left r :: journal) := by
  rintro ⟨before, hjournal, hsince⟩
  cases since with
  | nil => cases hjournal
  | cons e since =>
    obtain ⟨rfl, -⟩ := List.cons.inj hjournal
    exact (hsince _ List.mem_cons_self).2 rfl

theorem Underway.note (h : Underway r since journal) (hentered : e ≠ .entered r)
    (hleft : e ≠ .left r) : Underway r (e :: since) (e :: journal) := by
  obtain ⟨before, rfl, hsince⟩ := h
  refine ⟨before, rfl, fun e' he' => ?_⟩
  rcases List.mem_cons.mp he' with rfl | he'
  · exact ⟨hentered, hleft⟩
  · exact hsince e' he'

theorem Underway.of_note (h : Underway r since (e :: journal)) (hentered : e ≠ .entered r) :
    ∃ since, Underway r since journal := by
  obtain ⟨before, hjournal, hsince⟩ := h
  cases since with
  | nil => exact absurd (List.cons.inj hjournal).1 hentered
  | cons e' since =>
    exact ⟨since, before, (List.cons.inj hjournal).2,
      fun e he => hsince e (List.mem_cons_of_mem _ he)⟩

end Underway

/-! ## What runners are doing -/

section Journal

variable (app : Application S) (r : RunnerId S)

/-- A refused call is blamed on the step that the call underway started last, if it started one. -/
inductive Blamed (journal since : List (Event S)) : String → Prop where
  | nothing (h : offers r since = []) : Blamed journal since "(resolving)"
  | step {id : StepId} {m : Message} {name : S.ModelName} {step : Step (code S)}
      (hlast : (offers r since).getLast? = some (id, m)) (hname : ranModel? r journal = some name)
      (hstep : (app.model name).step? id = some step) : Blamed journal since step.name

/-- What a runner is marked as doing is what the journal tells. -/
structure Doing (journal : List (Event S)) (activity : Activity) : Prop where
  idle : activity = .idle → ∀ since, ¬ Underway r since journal
  busy : activity ≠ .idle →
    ∃ since, Underway r since journal ∧ Blamed app r journal since activity.label

/-- What was noted about a call is right: it was admitted if none was underway on the runner, and
refused, and blamed on the right step, if one was. -/
def Event.Lawful (earlier : List (Event S)) : Event S → Prop
  | .entered r => ∀ since, ¬ Underway r since earlier
  | .refused r label => ∃ since, Underway r since earlier ∧ Blamed app r earlier since label
  | .left r => ∃ since, Underway r since earlier
  | _ => True

/-- All that was noted about calls is right. -/
def Orderly : List (Event S) → Prop
  | [] => True
  | e :: earlier => e.Lawful app earlier ∧ Orderly earlier

variable {app r}

theorem Orderly.of_suffix {e : Event S} {earlier journal : List (Event S)}
    (h : Orderly app journal) (hsuffix : e :: earlier <:+ journal) : e.Lawful app earlier := by
  induction journal with
  | nil => cases List.suffix_nil.mp hsuffix
  | cons e' journal ih =>
    rcases List.suffix_cons_iff.mp hsuffix with heq | hsuffix
    · obtain ⟨rfl, rfl⟩ := List.cons.inj heq
      exact h.1
    · exact ih h.2 hsuffix

/-- What is noted of other sessions, and most of what is noted of the runner's own, does not tell
what the runner is doing. -/
theorem bystander {e : Event S} (h : e.session? = some r → e.isInner = true) :
    e ≠ .entered r ∧ e ≠ .left r ∧ e.offer? r = none ∧ e.ran? r = none := by
  cases e <;> simp_all [Event.session?, Event.isInner, Event.offer?, Event.ran?]

theorem Doing.note {e : Event S} {journal : List (Event S)} {activity : Activity}
    (h : Doing app r journal activity) (he : e.session? = some r → e.isInner = true) :
    Doing app r (e :: journal) activity := by
  obtain ⟨hentered, hleft, hoffer, hran⟩ := bystander he
  refine ⟨fun hidle since hsince => ?_, fun hbusy => ?_⟩
  · obtain ⟨since, hsince⟩ := hsince.of_note hentered
    exact h.idle hidle since hsince
  · obtain ⟨since, hsince, hblamed⟩ := h.busy hbusy
    have hoffers : offers r (e :: since) = offers r since := by
      unfold offers
      rw [readOff_cons, hoffer, Option.toList_none, List.append_nil]
    have hname : ranModel? r (e :: journal) = ranModel? r journal :=
      ranModel?_append r (List.forall_mem_singleton.mpr hran) journal
    refine ⟨e :: since, hsince.note hentered hleft, ?_⟩
    generalize activity.label = label at hblamed ⊢
    cases hblamed with
    | nothing h => exact .nothing (hoffers.trans h)
    | step hlast hran hstep => exact .step (hoffers ▸ hlast) (hname.trans hran) hstep

/-- A step that is offered a message is the one that was started last. -/
theorem Doing.offered {journal : List (Event S)} {activity : Activity}
    (h : Doing app r journal activity) (hbusy : activity ≠ .idle) {name : S.ModelName}
    (hname : ranModel? r journal = some name) {step : Step (code S)}
    (hstep : (app.model name).step? step.id = some step) (m : Message) :
    Doing app r (.offered r step.id m :: journal) (.reacting step.name) := by
  obtain ⟨since, hsince, -⟩ := h.busy hbusy
  have hoffers : offers r (.offered r step.id m :: since) = offers r since ++ [(step.id, m)] := by
    unfold offers
    rw [readOff_cons]
    simp [Event.offer?]
  refine ⟨by simp, fun _ => ⟨_, hsince.note (by simp) (by simp), ?_⟩⟩
  refine .step (m := m) ?_ hname hstep
  rw [hoffers, List.getLast?_concat]

end Journal

/-! ## Worlds whose marks are right -/

/-- The marks of all runners, and all that was noted about calls, are right. -/
structure Tracked (app : Application S) (w : World S) : Prop where
  doing : ∀ r, Doing app r w.journal (w.runner r).activity
  model : ∀ r, (w.runner r).model = ranModel? r w.journal
  orderly : Orderly app w.journal

/-- The runners that are not in a call. -/
def World.free (w : World S) : Finset (RunnerId S) :=
  Finset.univ.filter fun r => (w.runner r).activity = .idle

@[simp]
theorem World.mem_free {w : World S} {r : RunnerId S} :
    r ∈ w.free ↔ (w.runner r).activity = .idle := by
  simp [World.free]

/-- If a runner is taken up, fewer are free. -/
theorem card_free_lt {r : RunnerId S} {w w' : World S} (hidle : (w.runner r).activity = .idle)
    (hbusy : (w'.runner r).activity ≠ .idle)
    (hothers : ∀ r', r' ≠ r → w'.runner r' = w.runner r') : w'.free.card < w.free.card := by
  refine Finset.card_lt_card ((Finset.ssubset_iff_of_subset fun r' hr' => ?_).mpr ⟨r, ?_, ?_⟩)
  · rw [World.mem_free] at hr' ⊢
    have hne : r' ≠ r := fun heq => hbusy (heq ▸ hr')
    exact hothers r' hne ▸ hr'
  · exact World.mem_free.mpr hidle
  · exact mt World.mem_free.mp hbusy

/-- The runner is in a call if it was before, and then it runs the same model. -/
structure Held (x y : Runner S) : Prop where
  idle : y.activity = .idle ↔ x.activity = .idle
  model : x.activity ≠ .idle → y.model = x.model

theorem Held.refl (x : Runner S) : Held x x := ⟨Iff.rfl, fun _ => rfl⟩

theorem Held.trans {x y z : Runner S} (hxy : Held x y) (hyz : Held y z) : Held x z where
  idle := hyz.idle.trans hxy.idle
  model hbusy := (hyz.model (mt hxy.idle.mp hbusy)).trans (hxy.model hbusy)

theorem free_eq_of_held {w w' : World S} (h : ∀ r, Held (w.runner r) (w'.runner r)) :
    w'.free = w.free :=
  Finset.filter_congr fun r _ => (h r).idle

/-- As long as calls may nest as deep as there are free runners, the marks stay right. -/
def Tracks (app : Application S) (depth : Nat) (w w' : World S) : Prop :=
  Tracked app w → w.free.card ≤ depth →
    Tracked app w' ∧ ∀ r, Held (w.runner r) (w'.runner r)

section Tracked

variable {app : Application S} {w : World S}

theorem composes_tracks (app : Application S) (depth : Nat) : Composes (Tracks app depth) where
  refl w h _ := ⟨h, fun _ => Held.refl _⟩
  trans := by
    intro w₁ w₂ w₃ h₁₂ h₂₃ htracked hfree
    obtain ⟨htracked, hheld⟩ := h₁₂ htracked hfree
    rw [← free_eq_of_held hheld] at hfree
    obtain ⟨htracked, hheld'⟩ := h₂₃ htracked hfree
    exact ⟨htracked, fun r => (hheld r).trans (hheld' r)⟩

/-- Whatever tells nothing about calls leaves the marks right. -/
theorem Tracked.append (h : Tracked app w) {w' : World S} (events : List (Event S))
    (hjournal : w'.journal = events ++ w.journal)
    (hevents : ∀ e ∈ events, e.isCall = false ∧ ∀ r, e.session? = some r → e.isInner = true)
    (hrunner : ∀ r, (w'.runner r).activity = (w.runner r).activity ∧
      (w'.runner r).model = (w.runner r).model) :
    Tracked app w' := by
  refine ⟨fun r => ?_, fun r => ?_, ?_⟩
  · rw [hjournal, (hrunner r).1]
    clear hjournal
    induction events with
    | nil => exact h.doing r
    | cons e events ih =>
      obtain ⟨he, hevents⟩ := List.forall_mem_cons.mp hevents
      exact (ih hevents).note (he.2 r)
  · rw [hjournal, (hrunner r).2, h.model r,
      ranModel?_append r fun e he => (bystander ((hevents e he).2 r)).2.2.2]
  · rw [hjournal]
    clear hjournal
    induction events with
    | nil => exact h.orderly
    | cons e events ih =>
      obtain ⟨he, hevents⟩ := List.forall_mem_cons.mp hevents
      refine ⟨?_, ih hevents⟩
      obtain ⟨hcall, -⟩ := he
      cases e <;> trivial

theorem Aside.tracks {w' : World S} (h : Aside w w') (depth : Nat) : Tracks app depth w w' := by
  obtain ⟨events, hjournal, hevents, hapart⟩ := h
  have hsame (r : RunnerId S) : (w'.runner r).activity = (w.runner r).activity ∧
      (w'.runner r).model = (w.runner r).model :=
    ⟨(hapart r).session.activity, (hapart r).session.model⟩
  refine fun htracked _ => ⟨htracked.append events hjournal (fun e he => ?_) hsame, fun r => ?_⟩
  · exact ⟨(hevents e he).2, fun r hr => by rw [(hevents e he).1] at hr; cases hr⟩
  · exact ⟨by rw [(hsame r).1], fun _ => (hsame r).2⟩

/-- A call is refused on a runner that is in one. -/
theorem Tracked.refused (h : Tracked app w) {r : RunnerId S}
    (hbusy : (w.runner r).activity ≠ .idle) : Tracked app (refuse r w).2 where
  doing r' := (h.doing r').note nofun
  model := h.model
  orderly := ⟨(h.doing r).busy hbusy, h.orderly⟩

/-- A call is admitted on a runner that is in none. -/
theorem Tracked.entered (h : Tracked app w) {r : RunnerId S}
    (hidle : (w.runner r).activity = .idle) : Tracked app (w.entered r) := by
  refine ⟨fun r' => ?_, fun r' => ?_, (h.doing r).idle hidle, h.orderly⟩
  · by_cases heq : r = r'
    · subst heq
      rw [World.runner_entered]
      exact ⟨nofun, fun _ => ⟨[], underway_entered r w.journal, .nothing rfl⟩⟩
    · rw [World.entered, World.runner_setRunner_of_ne _ heq]
      exact (h.doing r').note fun hr => absurd (Option.some.inj hr) heq
  · rw [World.entered]
    by_cases heq : r = r'
    · subst heq
      rw [World.runner_setRunner_self]
      exact h.model r
    · rw [World.runner_setRunner_of_ne _ heq]
      exact h.model r'

/-- A run begins as soon as its call was admitted. -/
theorem Tracked.started (h : Tracked app w) {r : RunnerId S}
    (hidle : (w.runner r).activity = .idle) (name : S.ModelName) :
    Tracked app ((w.entered r).started r name) := by
  have hentered := h.entered hidle
  refine ⟨fun r' => ?_, fun r' => ?_, trivial, hentered.orderly⟩
  · by_cases heq : r = r'
    · subst heq
      rw [World.runner_started, World.runner_entered]
      exact ⟨nofun, fun _ => ⟨[.ran r name],
        (underway_entered r w.journal).note nofun nofun, .nothing rfl⟩⟩
    · change Doing app r' _ (((w.entered r).setRunner r _).runner r').activity
      rw [World.runner_setRunner_of_ne _ heq]
      exact (hentered.doing r').note fun hr => absurd (Option.some.inj hr) heq
  · by_cases heq : r = r'
    · subst heq
      rw [World.runner_started]
      exact (by simp [ranModel?, Event.ran?, World.started, World.note] :
        ranModel? r ((w.entered r).started r name).journal = some name).symm
    · change (((w.entered r).setRunner r _).runner r').model = ranModel? r' (.ran r name :: _)
      rw [World.runner_setRunner_of_ne _ heq, hentered.model r']
      exact (ranModel?_append r' (List.forall_mem_singleton.mpr
        (show (Event.ran r name).ran? r' = none from if_neg heq)) _).symm

/-- A call that is underway ends. -/
theorem Tracked.left (h : Tracked app w) {r : RunnerId S} (hbusy : (w.runner r).activity ≠ .idle) :
    Tracked app (w.left r) := by
  obtain ⟨since, hsince, -⟩ := (h.doing r).busy hbusy
  refine ⟨fun r' => ?_, fun r' => ?_, ⟨since, hsince⟩, h.orderly⟩
  · by_cases heq : r = r'
    · subst heq
      rw [World.runner_left]
      exact ⟨fun _ _ => not_underway_left, fun hbusy => absurd rfl hbusy⟩
    · change Doing app r' _ ((w.setRunner r _).runner r').activity
      rw [World.runner_setRunner_of_ne _ heq]
      exact (h.doing r').note fun hr => absurd (Option.some.inj hr) heq
  · change ((w.setRunner r _).runner r').model = ranModel? r' w.journal
    by_cases heq : r = r'
    · subst heq
      rw [World.runner_setRunner_self]
      exact h.model r
    · rw [World.runner_setRunner_of_ne _ heq]
      exact h.model r'

end Tracked

/-! ## Sessions -/

section Session

variable {app : Application S} {depth : Nat} {calls : Calls S}
  (hcalls : ∀ r c, Effect.Within (Tracks app depth) (calls r c))

/-- While the runner is in a call that runs the model, the marks stay right. -/
def TracksIn (app : Application S) (depth : Nat) (r : RunnerId S) (name : S.ModelName)
    (w w' : World S) : Prop :=
  (w.runner r).activity ≠ .idle → (w.runner r).model = some name → Tracks app depth w w'

theorem composes_tracksIn (app : Application S) (depth : Nat) (r : RunnerId S)
    (name : S.ModelName) : Composes (TracksIn app depth r name) where
  refl w _ _ := (composes_tracks app depth).refl w
  trans := by
    intro w₁ w₂ w₃ h₁₂ h₂₃ hbusy hmodel htracked hfree
    obtain ⟨htracked, hheld⟩ := h₁₂ hbusy hmodel htracked hfree
    rw [← free_eq_of_held hheld] at hfree
    obtain ⟨htracked, hheld'⟩ := h₂₃ (mt (hheld r).idle.mp hbusy)
      (((hheld r).model hbusy).trans hmodel) htracked hfree
    exact ⟨htracked, fun r => (hheld r).trans (hheld' r)⟩

/-- A change that leaves it alone what runners are doing, and which models they run. -/
theorem tracks_modifyRunner {r : RunnerId S} {f : Runner S → Runner S}
    (hf : ∀ x, (f x).activity = x.activity ∧ (f x).model = x.model) :
    Effect.Within (Tracks app depth) (Effect.modifyRunner r f) := by
  intro w htracked _
  have hsame (r' : RunnerId S) :
      ((Effect.modifyRunner r f w).2.runner r').activity = (w.runner r').activity ∧
        ((Effect.modifyRunner r f w).2.runner r').model = (w.runner r').model := by
    rw [runner_modifyRunner]
    split
    · exact hf _
    · exact ⟨rfl, rfl⟩
  refine ⟨htracked.append [] rfl (fun _ he => absurd he List.not_mem_nil) hsame, fun r' => ?_⟩
  exact ⟨by rw [(hsame r').1], fun _ => (hsame r').2⟩

include hcalls

theorem perform_tracks (q : Request S) :
    Effect.Within (Tracks app depth) (perform app calls q) :=
  perform_within (fun _ _ haside => haside.tracks depth) app hcalls q

/-- **What a session does itself** leaves the marks right. -/
theorem Session.primitives_tracksIn {s : Session S} {name : S.ModelName}
    (hmodel : s.model = app.model name) (hplaced : s.model.Placed) :
    s.Primitives app calls (Effect.Within (TracksIn app depth s.runner name)) where
  userCode := (composes_tracksIn app depth s.runner name).sequential.userCode app calls s
    fun q w _ _ => perform_tracks hcalls q w
  change f hf w _ _ := by
    refine tracks_modifyRunner (fun x => ?_) w
    rw [hf.rest x]
    exact ⟨rfl, rfl⟩
  start step hstep m w hbusy hname htracked _ := by
    have hrunner (r : RunnerId S) : (s.start step m w).2.runner r =
        if s.runner = r then { w.runner r with activity := .reacting step.name }
        else w.runner r :=
      runner_modifyRunner s.runner r (fun x => { x with activity := .reacting step.name }) w
    refine ⟨⟨fun r => ?_, fun r => ?_, trivial, htracked.orderly⟩, fun r => ?_⟩
    · rw [hrunner]
      split
      · rename_i heq
        subst heq
        refine (htracked.doing s.runner).offered hbusy ((htracked.model s.runner).symm.trans hname)
          ?_ m
        rw [← hmodel]
        exact hplaced.step?_self hstep
      · rename_i hne
        exact (htracked.doing r).note fun hr => absurd (Option.some.inj hr) hne
    · change _ = ranModel? r w.journal
      rw [hrunner]
      split <;> exact htracked.model r
    · rw [hrunner]
      split
      · rename_i heq
        subst heq
        exact ⟨⟨nofun, fun hidle => absurd hidle hbusy⟩, fun _ => rfl⟩
      · exact Held.refl _
  note e hsession hinner w _ _ htracked _ := by
    refine ⟨htracked.append [e] rfl (List.forall_mem_singleton.mpr ⟨?_, fun _ _ => hinner⟩)
      fun _ => ⟨rfl, rfl⟩, fun _ => Held.refl _⟩
    cases e <;> first | rfl | cases hinner

end Session

/-! ## Calls -/

section Calls

variable {app : Application S} {depth : Nat} {calls : Calls S}
  (hcalls : ∀ r c, Effect.Within (Tracks app depth) (calls r c)) (hbuilt : app.Built)
  {r : RunnerId S}
include hcalls hbuilt

/-- A session that is opened in a call leaves the marks right. -/
theorem tracks_of_session (r : RunnerId S) (name : S.ModelName)
    (body : Session S → Attempt S (Option Message))
    (hbody : ∀ s : Session S, s.runner = r → s.Parts app calls
      (Effect.Within (TracksIn app depth r name)) →
        Effect.Within (TracksIn app depth r name) (body s).run) :
    Effect.Within (TracksIn app depth r name)
      (liftM (openSession app r name) >>= body : Attempt S _).run := by
  have hR := composes_tracksIn app depth r name
  refine hR.sequential.lift (fun w _ _ => ?_) fun w => hbody _ rfl ?_
  · exact tracks_modifyRunner (f := fun x => { x with working := x.cursor })
      (fun _ => ⟨rfl, rfl⟩) w
  · exact (Session.primitives_tracksIn hcalls rfl (placed_of_build (hbuilt name))).parts
      hR.sequential

theorem reactTo_tracks (m : Message) {w : World S} (hbusy : (w.runner r).activity ≠ .idle) :
    Tracks app depth w ((reactTo app calls r m).run w).2 := by
  rcases (w.runner r).inactive_or with hinactive | ⟨hrunning, name, hmodel⟩
  · rw [reactTo_of_inactive hinactive]
    exact (composes_tracks app depth).refl w
  · rw [reactTo_of_running hrunning hmodel]
    have hreact := tracks_of_session hcalls hbuilt r name (fun s => s.react app calls m)
      fun s _ hparts => hparts.react (composes_tracksIn app depth r name).sequential m
    exact hreact w hbusy hmodel

theorem runModel_tracks (name : S.ModelName) {w : World S}
    (hbusy : (w.runner r).activity ≠ .idle) (htracked : Tracked app (w.started r name))
    (hfree : (w.started r name).free.card ≤ depth) :
    Tracked app ((runModel app calls r name).run w).2 ∧
      ∀ r', Held ((w.started r name).runner r')
        (((runModel app calls r name).run w).2.runner r') := by
  rw [runModel_eq]
  have hR := composes_tracksIn app depth r name
  have hrecord := (composes_tracks app depth).sequential.recordFromStart app calls
    (perform_tracks hcalls) r
  have hbegin := tracks_of_session hcalls hbuilt r name (fun s => s.begin app calls)
    fun s _ hparts => hparts.begin hR.sequential
  have hrunner := w.runner_started r name
  refine hR.trans (fun _ _ => hrecord _) (hbegin _) ?_ ?_ htracked hfree
  · rw [hrunner]
    exact hbusy
  · rw [hrunner]

/-- While a call is served, its runner stays taken up, and the others are held. -/
theorem serve_tracks (c : Call S) {w : World S} (hidle : (w.runner r).activity = .idle)
    (htracked : Tracked app w) (hfree : w.free.card ≤ depth + 1) :
    Tracked app ((serve app calls r c).run (w.entered r)).2 ∧
      (((serve app calls r c).run (w.entered r)).2.runner r).activity ≠ .idle ∧
      ∀ r', r' ≠ r →
        Held (w.runner r') (((serve app calls r c).run (w.entered r)).2.runner r') := by
  have hbusy := w.entered_busy r
  have hothers (r' : RunnerId S) (hne : r' ≠ r) : (w.entered r).runner r' = w.runner r' :=
    World.runner_setRunner_of_ne _ (Ne.symm hne) _
  cases c with
  | react m =>
    have hless := card_free_lt hidle hbusy hothers
    obtain ⟨htracked', hheld⟩ := reactTo_tracks hcalls hbuilt m hbusy (htracked.entered hidle)
      (by omega)
    refine ⟨htracked', mt (hheld r).idle.mp hbusy, fun r' hne => ?_⟩
    rw [← hothers r' hne]
    exact hheld r'
  | run name =>
    have hothers' (r' : RunnerId S) (hne : r' ≠ r) :
        ((w.entered r).started r name).runner r' = w.runner r' :=
      (World.runner_setRunner_of_ne _ (Ne.symm hne) _).trans (hothers r' hne)
    have hbusy' : (((w.entered r).started r name).runner r).activity ≠ .idle := by
      rw [World.runner_started]
      exact hbusy
    have hless := card_free_lt hidle hbusy' hothers'
    obtain ⟨htracked', hheld⟩ := runModel_tracks hcalls hbuilt name hbusy
      (htracked.started hidle name) (by omega)
    refine ⟨htracked', mt (hheld r).idle.mp hbusy', fun r' hne => ?_⟩
    rw [← hothers' r' hne]
    exact hheld r'

/-- A call that is admitted takes up its runner, and frees it when it ends. -/
theorem occupy_tracks (c : Call S) {w : World S} (hidle : (w.runner r).activity = .idle) :
    Tracks app (depth + 1) w (occupy app calls r c w).2 := by
  intro htracked hfree
  obtain ⟨htracked', hbusy, hheld⟩ := serve_tracks hcalls hbuilt c hidle htracked hfree
  rw [occupy_eq]
  refine ⟨htracked'.left hbusy, fun r' => ?_⟩
  by_cases heq : r' = r
  · subst heq
    dsimp only
    rw [World.runner_left]
    exact ⟨iff_of_true rfl hidle, fun hbusy => absurd hidle hbusy⟩
  · change Held _ ((World.setRunner _ r _).runner r')
    rw [World.runner_setRunner_of_ne _ (Ne.symm heq)]
    exact hheld r' heq

end Calls

theorem refuse_tracks {app : Application S} (depth : Nat) {r : RunnerId S} {w : World S}
    (hbusy : (w.runner r).activity ≠ .idle) : Tracks app depth w (refuse r w).2 :=
  fun htracked _ => ⟨htracked.refused hbusy, fun _ => Held.refl _⟩

/-- **Every call leaves the marks right**, and frees the runners that it took up, if calls may nest
as deep as there are free runners. If they may not nest at all, no runner is free. -/
theorem callWithin_tracks {app : Application S} (hbuilt : app.Built) (depth : Nat) (r : RunnerId S)
    (c : Call S) : Effect.Within (Tracks app depth) (callWithin app depth r c) := by
  induction depth generalizing r c with
  | zero =>
    intro w htracked hfree
    have hbusy : (w.runner r).activity ≠ .idle := by
      intro hidle
      have hmem := World.mem_free.mpr hidle
      rw [Finset.card_eq_zero.mp (Nat.le_zero.mp hfree)] at hmem
      exact Finset.notMem_empty r hmem
    exact refuse_tracks 0 hbusy htracked hfree
  | succ depth ih =>
    intro w
    by_cases hidle : (w.runner r).activity = .idle
    · rw [callWithin_of_idle app depth r c hidle]
      exact occupy_tracks ih hbuilt c hidle
    · rw [callWithin_of_busy app (depth + 1) r c w hidle]
      exact refuse_tracks (depth + 1) hidle

/-- **In every world that can be reached**, the marks are right, and no runner is in a call. -/
theorem tracked_of_reachable {app : Application S} (hbuilt : app.Built) {w : World S}
    (h : Reachable app w) : Tracked app w := by
  induction h with
  | @fresh w hfresh =>
    refine ⟨fun r => ⟨fun _ since hsince => ?_, fun hbusy => absurd (hfresh.activity r) hbusy⟩,
      fun r => ?_, ?_⟩
    · obtain ⟨before, hjournal, -⟩ := hsince
      rw [hfresh.journal] at hjournal
      exact absurd hjournal.symm (List.append_ne_nil_of_right_ne_nil since (List.cons_ne_nil _ _))
    · rw [hfresh.journal]
      exact hfresh.model r
    · rw [hfresh.journal]
      trivial
  | @step w o _ ih =>
    have hfree : w.free.card ≤ S.runners := by
      simpa using Finset.card_le_univ w.free
    exact (o.apply_within (composes_tracks app S.runners) (fun _ _ h => h.tracks S.runners) app
      (callWithin_tracks hbuilt S.runners) w ih hfree).1

/-! ## Refusals -/

/-- A call is refused, or it is admitted and ends. One that is refused gives the error that blames
the step, and nothing else happens; one that is admitted is underway until it ends. -/
theorem refused_or_underway (app : Application S) (depth : Nat) (r : RunnerId S) (c : Call S)
    (w : World S) :
    (∃ label, callWithin app depth r c w =
      (.error (.nestedCall label), w.note (.refused r label))) ∨
        ∃ events, (callWithin app depth r c w).2.journal =
          .left r :: (events ++ .entered r :: w.journal) := by
  rcases refused_or_admitted app depth r c w with hrefused | ⟨hidle, d, rfl⟩
  · exact .inl hrefused
  · rw [callWithin_of_idle app d r c hidle]
    obtain ⟨events, hevents⟩ := occupy_journal app (callWithin_grows app d) c w (r := r)
    exact .inr ⟨events ++ c.opening r, by rw [hevents, List.append_assoc]⟩

/-- **A call is refused if and only if one on the same runner is underway**, in every tree of calls.

Every call is either refused or admitted. Refusing it changes nothing, but it is noted; admitting it
and its end are noted, too. Wherever a refusal is noted, a call on the runner is underway, and the
step that it started last is blamed; wherever it is noted that a call was admitted, none is. From
outside of calls, no runner is in one, and whatever comes of a call, it was admitted, and no runner
is in one after it. -/
theorem nested_calls_of_reachable {app : Application S} (hbuilt : app.Built) {w : World S}
    (h : Reachable app w) :
    (∀ depth r c (w₁ : World S),
      (∃ label, callWithin app depth r c w₁ =
        (.error (.nestedCall label), w₁.note (.refused r label))) ∨
          ∃ events, (callWithin app depth r c w₁).2.journal =
            .left r :: (events ++ .entered r :: w₁.journal)) ∧
    (∀ e earlier, e :: earlier <:+ w.journal → e.Lawful app earlier) ∧
    (∀ r, (w.runner r).activity = .idle ∧ ∀ since, ¬ Underway r since w.journal) ∧
    ∀ r c, (∃ events, (call app r c w).2.journal =
        .left r :: (events ++ .entered r :: w.journal)) ∧
      ∀ r', ((call app r c w).2.runner r').activity = .idle := by
  have htracked := tracked_of_reachable hbuilt h
  have hidle {w : World S} (h : Reachable app w) (r : RunnerId S) :=
    (recounted_of_reachable hbuilt h r).1
  refine ⟨refused_or_underway app, fun e earlier hsuffix => htracked.orderly.of_suffix hsuffix,
    fun r => ⟨hidle h r, (htracked.doing r).idle (hidle h r)⟩, fun r c => ⟨?_, ?_⟩⟩
  · have hafter := tracked_of_reachable hbuilt (h.step (.request (.call r c)))
    rcases refused_or_underway app S.runners r c w with ⟨label, hrefused⟩ | hadmitted
    · -- It would be noted as refused, while no call is underway.
      have horderly : Orderly app (callWithin app S.runners r c w).2.journal := hafter.orderly
      rw [hrefused] at horderly
      obtain ⟨since, hsince, -⟩ := horderly.1
      exact absurd hsince ((htracked.doing r).idle (hidle h r) since)
    · exact hadmitted
  · exact hidle (h.step (.request (.call r c)))

namespace Office

theorem built : application.Built :=
  fun i => ⟨spec i, ((spec i).build_eq_ok_iff _).mpr ⟨rfl, rfl⟩⟩

theorem fresh_start : start.Fresh := by
  refine ⟨rfl, ?_, ?_, ?_, ?_⟩ <;>
    exact fun r => Fin.cases rfl (fun i => Fin.cases rfl (fun i => i.elim0) i) r

theorem reachable_after (requests : List (Request signature)) :
    Reachable application (after requests) :=
  (Reachable.fresh fresh_start).requests requests

end Office

/-- The second clerk gives the letter back to the first one, who is still passing it on. -/
theorem nested_calls_in_office :
    Reachable Office.application Office.passedOn ∧
      ∃ earlier since, .refused (Office.clerk 0) "Pass on" :: earlier <:+ Office.passedOn.journal ∧
        Underway (Office.clerk 0) since earlier ∧
          Blamed Office.application (Office.clerk 0) earlier since "Pass on" := by
  have hreachable := Office.reachable_after
    [.call (Office.clerk 0) (.run 0), .call (Office.clerk 1) (.run 1),
      .call (Office.clerk 0) (.react Office.letter)]
  obtain ⟨-, hlawful, -⟩ := nested_calls_of_reachable Office.built hreachable
  have hread : (Office.passedOn.journal[8]?.bind (Event.blame? (Office.clerk 0))) =
      some "Pass on" := by decide +kernel
  obtain ⟨e, he, hdrop⟩ := exists_event hread
  obtain rfl := Event.eq_refused_of_blame? he
  have hrefused := hdrop ▸ List.drop_suffix 8 Office.passedOn.journal
  obtain ⟨since, hsince, hblamed⟩ := hlawful _ _ hrefused
  exact ⟨hreachable, _, since, hrefused, hsince, hblamed⟩

end UseCaseEngine
