import Mathlib.Data.List.Chain
import UseCaseEngine.Proofs.Nesting
import UseCaseEngine.Proofs.Resolutions

/-!
# Recorded runs walk the flows

In a model whose reactions do not move the cursor themselves, a run goes along its flows: from the
first step of a flow to the next one, and into a flow where its position allows. What is recorded of
a run that is recorded throughout is such a walk, whatever fails, is suppressed or ends early.

Out of scope: inclusions and continuations, with which a run may be in several flows at once or
jump.

* `Model.Walk`: how steps may follow one another.
* `follows_of_reached`: what can be reached from a step may follow it.
* `Logged`: the log is what the journal tells.
* **`walk_of_recorded`**: what was recorded is a walk, and the latest step is the last one recorded.
-/

namespace UseCaseEngine

/-! ## Walks -/

section Walks

variable {C : Code} (model : Model C)

/-- The second step may come right after the first one. -/
structure Model.Follows (a b : Step C) : Prop where
  /-- Within a flow, steps come one after another, or repeat. -/
  behind : ∀ previous, b.previous = some previous → a.id = previous ∨ (a = b ∧ b.repeats = true)
  /-- A flow that comes after certain steps is entered right after one of them. -/
  after : ∀ flow names, model.Enters b flow → flow.position = some (.after names) →
    a.name ∈ names ∨ (a = b ∧ b.repeats = true)
  /-- A basic flow that says nothing else is entered at the start only. -/
  basic : ∀ flow, model.Enters b flow → flow.IsDefault → model.isBasicFlow flow = true →
    a = b ∧ b.repeats = true

/-- The steps, in order, start with the first one of a flow, and follow one another. -/
structure Model.Walk (steps : List (Step C)) : Prop where
  declared : ∀ s ∈ steps, s ∈ model.steps
  entry : ∀ s, steps.head? = some s → s.isEntry = true
  follows : steps.IsChain model.Follows

variable {model}

theorem walk_nil : model.Walk [] where
  declared _ hs := absurd hs List.not_mem_nil
  entry _ hs := absurd hs (Option.some_ne_none _).symm
  follows := .nil

theorem Model.Walk.concat {steps : List (Step C)} (h : model.Walk steps) {b : Step C}
    (hb : b ∈ model.steps) (hentry : steps.getLast? = none → b.isEntry = true)
    (hfollows : ∀ a ∈ model.steps, steps.getLast? = some a → model.Follows a b) :
    model.Walk (steps ++ [b]) where
  declared s hs := (List.mem_append.mp hs).elim (h.declared s)
    fun hs => List.mem_singleton.mp hs ▸ hb
  entry s hs := by
    cases steps with
    | nil =>
      cases hs
      exact hentry rfl
    | cons first rest => exact h.entry s hs
  follows := by
    refine List.isChain_append.mpr ⟨h.follows, .singleton b, fun a ha b' hb' => ?_⟩
    cases hb'
    exact hfollows a (h.declared a (List.mem_of_getLast? ha)) ha

/-! ## What can be reached -/

section Reached

variable {said : C.Guard → Bool → Prop} {a b : Step C}

/-- A run starts with the first step of a flow. -/
theorem entry_of_reached_start (h : b.Reached model {} said) : b.isEntry = true := by
  unfold Step.isEntry
  rw [Option.isNone_iff_eq_none]
  rcases h.position with ⟨hlatest, -⟩ | ⟨hstands, -⟩
  · cases hlatest
  · cases hstands with
    | pending h => cases h
    | behind _ h => cases h.1
    | anytime henters => exact henters.1
    | after henters => exact henters.1
    | insteadOf henters => exact henters.1
    | guarded henters => exact henters.1
    | first henters => exact henters.1
    | included henters => exact henters.1
    | following henters => exact henters.1

/-- What enters a flow may follow a step if the flow may be entered after it. -/
theorem Model.Enters.follows {flow : Flow C} (henters : model.Enters b flow)
    (hafter : ∀ names, flow.position = some (.after names) →
      a.name ∈ names ∨ (a = b ∧ b.repeats = true))
    (hbasic : flow.IsDefault → model.isBasicFlow flow = true → a = b ∧ b.repeats = true) :
    model.Follows a b := by
  have hsame {flow' : Flow C} (henters' : model.Enters b flow') : flow' = flow :=
    Option.some.inj (henters'.2.symm.trans henters.2)
  refine ⟨fun previous hprevious => ?_, fun flow' names henters' => ?_, fun flow' henters' => ?_⟩
  · rw [henters.1] at hprevious
    cases hprevious
  · rw [hsame henters']
    exact hafter names
  · rw [hsame henters']
    exact hbasic

/-- A flow with a position may be entered wherever its position allows. -/
theorem Model.Enters.follows_of_position {flow : Flow C} {position : Position}
    (henters : model.Enters b flow) (hposition : flow.position = some position)
    (hafter : ∀ names, position = .after names → a.name ∈ names) : model.Follows a b := by
  refine henters.follows (fun names hnames => .inl ?_) fun hdefault => ?_
  · exact hafter names (Option.some.inj (hposition.symm.trans hnames))
  · rw [hdefault.1] at hposition
    cases hposition

/-- **What can be reached from a step may follow it**, outside of included use cases and without
continuations. -/
theorem follows_of_reached (hplaced : model.Placed) (ha : a ∈ model.steps) (hb : b ∈ model.steps)
    (h : b.Reached model { latest := some a.id } said) : model.Follows a b := by
  have hinj {s : Step C} (hs : s ∈ model.steps) (hlatest : some a.id = some s.id) : a = s :=
    hplaced.step_inj ha hs (Option.some.inj hlatest)
  rcases h.position with ⟨hlatest, hloop⟩ | ⟨hstands, -⟩
  · obtain ⟨g, hrepeat, -⟩ := hloop.condition
    have hagain : a = b ∧ b.repeats = true := ⟨hinj hb hlatest, Option.isSome_of_eq_some hrepeat⟩
    exact ⟨fun _ _ => .inr hagain, fun _ _ _ _ => .inr hagain, fun _ _ _ _ => hagain⟩
  -- A mark, a start and an inclusion would show in the cursor, which has none of them.
  cases hstands with
  | pending hpending => cases hpending
  | behind hprevious hafter =>
    refine ⟨fun previous hp => .inl ?_, fun flow _ henters => ?_, fun flow henters => ?_⟩
    · rw [hprevious] at hp
      exact (Option.some.inj hafter.1).trans (Option.some.inj hp)
    · rw [henters.1] at hprevious
      cases hprevious
    · rw [henters.1] at hprevious
      cases hprevious
  | anytime henters hposition =>
    refine henters.follows_of_position hposition fun names hafter => ?_
    cases hafter
  | after henters hposition hname hnamed hlatest =>
    refine henters.follows_of_position hposition fun names hafter => ?_
    cases hafter
    have hfound := stepNamed?_of_resolve hnamed
    rw [hinj (Model.mem_steps_of_stepNamed? hfound) hlatest.1, Model.name_of_stepNamed? hfound]
    exact hname
  | insteadOf henters hposition =>
    refine henters.follows_of_position hposition fun names hafter => ?_
    cases hafter
  | guarded henters hposition hguard =>
    refine henters.follows (fun names hafter => ?_) fun hdefault => ?_
    · rw [hposition] at hafter
      cases hafter
    · rw [hdefault.2] at hguard
      cases hguard
  | first _ _ _ _ hlatest => cases hlatest
  | included _ _ _ _ hframe => cases hframe
  | following henters hdefault hbasic =>
    refine henters.follows (fun names hafter => ?_) fun _ hfirst => ?_
    · rw [hdefault.1] at hafter
      cases hafter
    · rw [hbasic] at hfirst
      cases hfirst

end Reached

/-- A turn of a step that does not move the cursor itself leads to the step, unless a use case was
included. -/
theorem after_of_plain (hplaced : model.Placed) {c : Cursor} {t : Turn} {s : Step C}
    (hstep : model.step? t.step = some s) (hplain : s.reaction.Plain) (hframes : c.frames = []) :
    c.after model t = { latest := some t.step } := by
  have hid := hplaced.step_id hstep
  cases houtput : t.output with
  | error failure =>
    rw [after_of_failure hstep houtput, ← hid]
    unfold Cursor.reached
    rw [hframes]
  | ok message =>
    rw [after_of_apply hstep houtput, apply_plain hplain, ← hid]
    unfold Cursor.reached
    rw [hframes]
    rfl

end Walks

/-! ## Runs walk -/

section Runs

variable {S : Signature} {app : Application S} {r : RunnerId S} {name : S.ModelName}

/-- The runner was put at the start of the model once, or not yet, and of no other one. -/
def RanOnce (r : RunnerId S) (name : S.ModelName) (journal : List (Event S)) : Prop :=
  readOff (Event.ran? r) journal <+: [name]

theorem RanOnce.before {e : Event S} {journal : List (Event S)}
    (h : RanOnce r name (e :: journal)) : RanOnce r name journal := by
  unfold RanOnce at h
  rw [readOff_cons] at h
  exact (List.prefix_append _ _).trans h

theorem ranModel?_eq_getLast? (journal : List (Event S)) :
    ranModel? r journal = (readOff (Event.ran? r) journal).getLast? := by
  unfold readOff
  rw [List.getLast?_reverse, List.head?_filterMap]
  rfl

theorem mem_readOff_of_ranModel? {journal : List (Event S)} {bound : S.ModelName}
    (h : ranModel? r journal = some bound) : bound ∈ readOff (Event.ran? r) journal :=
  List.mem_of_getLast? (ranModel?_eq_getLast? journal ▸ h)

theorem RanOnce.bound {journal : List (Event S)} (h : RanOnce r name journal)
    {bound : S.ModelName} (hbound : ranModel? r journal = some bound) : bound = name :=
  List.mem_singleton.mp (h.subset (mem_readOff_of_ranModel? hbound))

/-- Before it was, it was put at the start of none. -/
theorem RanOnce.ranModel?_eq_none {e : Event S} {journal : List (Event S)}
    (h : RanOnce r name (e :: journal)) {bound : S.ModelName} (he : e.ran? r = some bound) :
    ranModel? r journal = none := by
  unfold RanOnce at h
  rw [readOff_cons, he] at h
  have hlength := h.length_le
  rw [List.length_append] at hlength
  have hnil : readOff (Event.ran? r) journal = [] :=
    List.length_eq_zero_iff.mp (Nat.le_zero.mp (Nat.le_of_succ_le_succ hlength))
  rw [ranModel?_eq_getLast?, hnil]
  rfl

variable (hplaced : (app.model name).Placed)
  (hplain : ∀ s ∈ (app.model name).steps, s.reaction.Plain)
include hplaced hplain

/-- **The runner stands on the step that took its turn last.** -/
theorem cursorAt_of_plain {journal : List (Event S)} (h : Faithful app r journal)
    (hran : RanOnce r name journal) :
    cursorAt app r journal = { latest := ((turns r journal).getLast?).map (·.step) } := by
  induction journal with
  | nil => rfl
  | cons e journal ih =>
    have hran' : RanOnce r name journal := hran.before
    have hcursor := ih h.2.2 hran'
    have hturns : turns r (e :: journal) = turns r journal ++ (e.turn? r).toList :=
      readOff_cons _ _ _
    cases hturn : e.turn? r with
    | some t =>
      obtain ⟨bound, hbound, step, hstep, -⟩ := h.1 t hturn
      obtain rfl := hran'.bound hbound
      obtain rfl := Event.eq_moved_of_turn? hturn
      rw [cursorAt_moved app hbound, after_of_plain hplaced hstep
        (hplain step (Model.mem_steps_of_step? hstep)) (by rw [hcursor]), hturns, hturn]
      simp
    | none =>
      rw [hturn, Option.toList_none, List.append_nil] at hturns
      cases hstart : e.ran? r with
      | some bound =>
        -- The run starts, so that no step can have taken its turn before.
        have hempty : cursorAt app r journal = {} := by
          unfold cursorAt
          rw [hran.ranModel?_eq_none hstart]
        have hlast := congrArg Cursor.latest (hcursor.symm.trans hempty)
        rw [Event.eq_ran_of_ran? hstart, cursorAt_run, ← Event.eq_ran_of_ran? hstart, hturns]
        exact congrArg (fun latest => ({ latest } : Cursor)) hlast.symm
      | none =>
        have hquiet : cursorAt app r ([e] ++ journal) = cursorAt app r journal :=
          cursorAt_append_of_quiet app
            (readOff_eq_nil_iff.mpr (List.forall_mem_singleton.mpr hturn))
            (List.forall_mem_singleton.mpr hstart)
        rw [hturns, ← hcursor]
        exact hquiet

/-- **The steps that took their turns are a walk.** -/
theorem exists_walk (hbuilt : app.Built) {w : World S} (h : Reachable app w)
    {journal : List (Event S)} (hsuffix : journal <:+ w.journal) (hran : RanOnce r name journal) :
    ∃ steps, (app.model name).Walk steps ∧
      steps.map (·.id) = (turns r journal).map (·.step) := by
  obtain ⟨-, hrecounted⟩ := recounted_of_reachable hbuilt h r
  induction journal with
  | nil => exact ⟨[], walk_nil, rfl⟩
  | cons e journal ih =>
    have hran' : RanOnce r name journal := hran.before
    have hsuffix' := (List.suffix_cons e journal).trans hsuffix
    obtain ⟨steps, hwalk, hsteps⟩ := ih hsuffix' hran'
    have hturns : turns r (e :: journal) = turns r journal ++ (e.turn? r).toList :=
      readOff_cons _ _ _
    cases hturn : e.turn? r with
    | none => exact ⟨steps, hwalk, by rw [hturns, hturn, hsteps]; simp⟩
    | some t =>
      obtain rfl := Event.eq_moved_of_turn? hturn
      obtain ⟨bound, step, said, hbound, hstep, hreached⟩ := reached_of_moved hbuilt h r hsuffix
      obtain rfl := hran'.bound hbound
      have hmem := Model.mem_steps_of_step? hstep
      have hlatest : ((turns r journal).getLast?).map (·.step) = (steps.getLast?).map (·.id) := by
        rw [← List.getLast?_map, ← List.getLast?_map, hsteps]
      rw [cursorAt_of_plain hplaced hplain (hrecounted.faithful.of_suffix app r hsuffix') hran',
        hlatest] at hreached
      refine ⟨steps ++ [step], hwalk.concat hmem (fun hlast => ?_) fun a ha hlast => ?_, ?_⟩
      · rw [hlast] at hreached
        exact entry_of_reached_start hreached
      · rw [hlast] at hreached
        exact follows_of_reached hplaced ha hmem hreached
      · rw [hturns, hturn, List.map_append, List.map_append, hsteps]
        simp [hplaced.step_id hstep]

end Runs

/-! ## What is recorded -/

section Recording

variable {S : Signature} (app : Application S) (r : RunnerId S)

/-- The steps that reacted are those that took their turns. -/
def Turned (events : List (Event S)) : Prop :=
  reactions r events = (turns r events).map fun t => (t.step, t.message, t.output)

/-- The log of the runner is what the journal makes of an empty one, if the runner ran one model
only, and the journal tells the turns of all steps that reacted. -/
structure Logged (w : World S) : Prop where
  turned : Turned r w.journal
  recording : ∀ name, (∀ bound ∈ readOff (Event.ran? r) w.journal, bound = name) →
    (w.runner r).recording = ({} : Recording).replay r (app.model name) w.journal

variable {app r}

theorem Turned.append {new old : List (Event S)} (hnew : Turned r new) (hold : Turned r old) :
    Turned r (new ++ old) := by
  have hreactions : reactions r (new ++ old) = reactions r old ++ reactions r new :=
    readOff_append _ _ _
  have hturns : turns r (new ++ old) = turns r old ++ turns r new := readOff_append _ _ _
  unfold Turned at *
  rw [hreactions, hturns, List.map_append, hold, hnew]

/-- What is noted when a call is opened is not recorded. -/
theorem replay_opening (c : Call S) (model : Model (code S)) (x : Recording) :
    x.replay r model (c.opening r ++ [.entered r]) = x := by
  cases c <;> rfl

theorem Logged.serves {c : Call S} {w w' : World S} (h : Logged app r w)
    (hmodel : (w.runner r).model = ranModel? r w.journal)
    (hserves : Serves app r c (c.opening r ++ [.entered r]) w w') : Logged app r w' := by
  obtain ⟨-, events, hjournal, -, haccount⟩ := hserves
  obtain ⟨model, hmodel'⟩ := exists_model app (c.model? (w.runner r))
  refine ⟨?_, fun name hname => ?_⟩
  · have hopening : Turned r (c.opening r ++ [.entered r]) := by cases c <;> rfl
    have hevents : Turned r events := (haccount model hmodel').reactions
    rw [hjournal]
    exact hevents.append (hopening.append h.turned)
  · rw [hjournal, readOff_append, readOff_append] at hname
    have hbound (bound : S.ModelName) (hbound : c.model? (w.runner r) = some bound) :
        app.model name = app.model bound := by
      refine congrArg app.model (hname bound ?_).symm
      cases c with
      | run model =>
        cases hbound
        simp [Call.opening, readOff, Event.ran?]
      | react m =>
        have hran := mem_readOff_of_ranModel? (hmodel.symm.trans hbound)
        exact List.mem_append_left _ (List.mem_append_left _ hran)
    have hbefore := h.recording name fun bound hin =>
      hname bound (List.mem_append_left _ (List.mem_append_left _ hin))
    rw [(haccount _ hbound).recording, hbefore, hjournal, Recording.replay_append,
      Recording.replay_append, replay_opening]

theorem lasting_logged (hbuilt : app.Built) : Lasting app r (Logged app r) where
  apart {w w' events} hjournal hapart h := by
    refine ⟨?_, fun name hname => ?_⟩
    · have hevents : Turned r events := by
        unfold Turned
        rw [hapart.reactions, hapart.turns]
        rfl
      rw [hjournal]
      exact hevents.append h.turned
    · rw [hjournal, readOff_append] at hname
      rw [hapart.recording (app.model name),
        h.recording name fun bound hin => hname bound (List.mem_append_left _ hin), hjournal,
        Recording.replay_append]
  call depth c w hidle htold h := by
    obtain ⟨-, hserves⟩ := callWithin_serves hbuilt depth r c hidle
    exact h.serves htold.model hserves

theorem logged_of_reachable (hbuilt : app.Built) {w : World S} (h : Reachable app w) :
    Logged app r w := by
  have hfresh (w : World S) (hw : w.Fresh) : Logged app r w := by
    refine ⟨by rw [hw.journal]; rfl, fun name _ => ?_⟩
    rw [hw.recording, hw.journal]
    rfl
  exact ((lasting_logged hbuilt).of_reachable hbuilt hfresh h).2.2

/-- What is neither a reaction nor a recording that is started or stopped is not recorded. -/
theorem hear_of_quiet {model : Model (code S)} {e : Event S} (hreaction : e.reaction? r = none)
    (hrecording : e.recording? r = none) (x : Recording) : x.hear r model e = x := by
  cases e with
  | recording r' on =>
    have hne : r' ≠ r := fun heq => by simp [Event.recording?, heq] at hrecording
    exact hear_of_recording_ne hne on model x
  | reacted r' step m output =>
    have hne : r' ≠ r := fun heq => by simp [Event.reaction?, heq] at hreaction
    simp [Recording.hear, hne]
  | _ => rfl

/-- While recording is on, every step that reacts adds its name. -/
theorem steps_replay {model : Model (code S)} {x : Recording} (hx : x.enabled = true)
    {events : List (Event S)} (h : ∀ e ∈ events, e.recording? r = none) :
    (x.replay r model events).enabled = true ∧
      (x.replay r model events).steps =
        x.steps ++ (reactions r events).filterMap fun t => (model.step? t.1).map (·.name) := by
  induction events with
  | nil => exact ⟨hx, by simp [reactions]⟩
  | cons e events ih =>
    obtain ⟨henabled, hsteps⟩ := ih fun e he => h e (List.mem_cons_of_mem _ he)
    have hreactions : reactions r (e :: events) = reactions r events ++ (e.reaction? r).toList :=
      readOff_cons _ _ _
    rw [Recording.replay_cons, hreactions, List.filterMap_append, ← List.append_assoc, ← hsteps]
    generalize x.replay r model events = y at henabled ⊢
    cases hreaction : e.reaction? r with
    | none =>
      rw [hear_of_quiet hreaction (h e List.mem_cons_self)]
      exact ⟨henabled, by simp⟩
    | some t =>
      obtain ⟨step, m, output⟩ := t
      obtain ⟨state, rfl⟩ := Event.eq_reacted_of_reaction? hreaction
      unfold Recording.hear
      dsimp only
      rw [if_pos rfl]
      cases hstep : model.step? step with
      | none => exact ⟨henabled, by simp [hstep]⟩
      | some s =>
        refine ⟨?_, ?_⟩
        · unfold Recording.record
          simp [henabled]
        · rw [Recording.steps_record, henabled]
          simp [hstep]

/-- The runner ran the model once, and no other one. Its recording was started before any of its
steps reacted, and was neither started again nor stopped since. -/
structure RecordedThroughout (r : RunnerId S) (name : S.ModelName) (journal : List (Event S)) :
    Prop where
  ran : readOff (Event.ran? r) journal = [name]
  started : ∃ later earlier, journal = later ++ .recording r true :: earlier ∧
    (∀ e ∈ later, e.recording? r = none) ∧ reactions r earlier = []

/-- The names that are recorded are those of the steps that reacted. -/
theorem steps_of_recorded {name : S.ModelName} {journal : List (Event S)}
    (h : RecordedThroughout r name journal) (model : Model (code S)) (x : Recording) :
    (x.replay r model journal).steps =
      (reactions r journal).filterMap fun t => (model.step? t.1).map (·.name) := by
  obtain ⟨later, earlier, rfl, hlater, hearlier⟩ := h.started
  have hreactions : reactions r (later ++ .recording r true :: earlier) = reactions r later := by
    unfold reactions at hearlier ⊢
    rw [readOff_append, readOff_cons, hearlier]
    rfl
  have hstart : (x.replay r model (.recording r true :: earlier)).enabled = true ∧
      (x.replay r model (.recording r true :: earlier)).steps = [] := by
    rw [Recording.replay_cons]
    simp [Recording.hear, Recording.start, Recording.steps]
  rw [Recording.replay_append, (steps_replay hstart.1 hlater).2, hstart.2, hreactions,
    List.nil_append]

end Recording

/-! ## Recorded runs -/

section Recorded

variable {S : Signature} {app : Application S} (hbuilt : app.Built) {w : World S}
  (h : Reachable app w) {r : RunnerId S} {name : S.ModelName}
include hbuilt h

/-- Before a runner is put at the start of a model, none of its steps reacts. -/
theorem reactions_eq_nil_of_not_ran {earlier : List (Event S)} (hsuffix : earlier <:+ w.journal)
    (hran : ∀ e ∈ earlier, e.ran? r = none) : reactions r earlier = [] := by
  refine readOff_eq_nil_iff.mpr fun e he => Option.eq_none_iff_forall_ne_some.mpr fun t ht => ?_
  obtain ⟨step, m, output⟩ := t
  obtain ⟨state, rfl⟩ := Event.eq_reacted_of_reaction? ht
  obtain ⟨later, before, rfl⟩ := List.append_of_mem he
  obtain ⟨since, before', scope, c, actor, state', rfl, -⟩ :=
    (sequenced_of_reachable hbuilt h r).reacted ((List.suffix_append later _).trans hsuffix)
  have hresolved : .resolved r step scope c actor state' :: before' <:+ w.journal :=
    (List.suffix_append since _).trans ((List.suffix_cons _ _).trans
      ((List.suffix_append later _).trans hsuffix))
  obtain ⟨x, -, rfl⟩ := exists_resolution hbuilt h hresolved
  obtain ⟨e, he', hbound⟩ := List.exists_of_findSome?_eq_some x.bound
  have hnone := hran e (List.mem_append_right _ (List.mem_cons_of_mem _
    (List.mem_append_right _ (List.mem_cons_of_mem _ he'))))
  rw [hnone] at hbound
  cases hbound

/-- A recording that is started before the run records all of it. -/
theorem recordedThroughout_of_before {later earlier : List (Event S)}
    (hran : readOff (Event.ran? r) w.journal = [name])
    (hjournal : w.journal = later ++ .recording r true :: earlier)
    (hlater : ∀ e ∈ later, e.recording? r = none) (hearlier : ∀ e ∈ earlier, e.ran? r = none) :
    RecordedThroughout r name w.journal := by
  have hsuffix : earlier <:+ w.journal :=
    (List.suffix_cons _ _).trans (hjournal ▸ List.suffix_append later _)
  exact ⟨hran, later, earlier, hjournal, hlater,
    reactions_eq_nil_of_not_ran hbuilt h hsuffix hearlier⟩

/-- **What is recorded of a run is a walk.** In a model whose reactions do not move the cursor
themselves, the steps of a run that is recorded throughout follow one another along its flows,
whatever messages the runner gets, whoever acts, whatever the hook does, and however its calls
end. Their names are recorded, and the latest step is the last one that is. -/
theorem walk_of_recorded (hplain : ∀ s ∈ (app.model name).steps, s.reaction.Plain)
    (hrecorded : RecordedThroughout r name w.journal) :
    ∃ steps, (app.model name).Walk steps ∧
      steps.map (·.id) = (turns r w.journal).map (·.step) ∧
      (perform app (call app) (.recordedSteps r) w).1 = steps.map (·.name) ∧
      (perform app (call app) (.latestStep r) w).1 = (steps.map (·.name)).getLast? := by
  have hplaced := placed_of_build (hbuilt name)
  have hran : RanOnce r name w.journal := by
    unfold RanOnce
    rw [hrecorded.ran]
  obtain ⟨-, hrecounted⟩ := recounted_of_reachable hbuilt h r
  obtain ⟨steps, hwalk, hsteps⟩ :=
    exists_walk hplaced hplain hbuilt h (List.suffix_refl w.journal) hran
  have hstep (s : Step (code S)) (hs : s ∈ steps) : (app.model name).step? s.id = some s :=
    hplaced.step?_self (hwalk.declared s hs)
  refine ⟨steps, hwalk, hsteps, ?_, ?_⟩
  · have hlogged : Logged app r w := logged_of_reachable hbuilt h
    change (w.runner r).recording.steps = _
    rw [hlogged.recording name (hrecorded.ran ▸ by simp), steps_of_recorded hrecorded,
      hlogged.turned]
    calc ((turns r w.journal).map fun t => (t.step, t.message, t.output)).filterMap
          (fun t => ((app.model name).step? t.1).map (·.name))
        = ((turns r w.journal).map (·.step)).filterMap
            (fun id => ((app.model name).step? id).map (·.name)) := by
          rw [List.filterMap_map, List.filterMap_map]
          rfl
      _ = steps.filterMap (fun s => ((app.model name).step? s.id).map (·.name)) := by
          rw [← hsteps, List.filterMap_map]
          rfl
      _ = steps.map (·.name) := by
          rw [List.filterMap_congr fun s hs => congrArg _ (hstep s hs)]
          exact congrFun List.filterMap_eq_map' steps
  · change ((w.runner r).model.bind fun name => (w.runner r).cursor.latest.bind fun id =>
      ((app.model name).step? id).bind fun s => some s.name) = _
    rw [hrecounted.model, ranModel?_eq_getLast?, hrecorded.ran, hrecounted.cursor,
      cursorAt_of_plain hplaced hplain hrecounted.faithful hran]
    dsimp only
    rw [← List.getLast?_map, ← hsteps, List.getLast?_map, List.getLast?_map]
    cases hlast : steps.getLast? with
    | none => rfl
    | some s => simp [hstep s (List.mem_of_getLast? hlast)]

end Recorded

namespace Office

theorem reachable_recorded : Reachable application recorded := reachable_after _

theorem recordedThroughout : RecordedThroughout (clerk 0) 0 recorded.journal := by
  have hread : recorded.journal[15]?.bind (Event.recording? (clerk 0)) = some true := by
    decide +kernel
  obtain ⟨e, hrecording, hdrop⟩ := exists_event hread
  obtain rfl := Event.eq_recording_of_recording? hrecording
  have hlater : (recorded.journal.take 15).all (fun e => (e.recording? (clerk 0)).isNone) =
      true := by decide +kernel
  have hearlier : (recorded.journal.drop 16).all (fun e => (e.ran? (clerk 0)).isNone) = true := by
    decide +kernel
  refine recordedThroughout_of_before built reachable_recorded (by decide +kernel)
    (hdrop ▸ (List.take_append_drop 15 recorded.journal).symm) (fun e he => ?_) fun e he => ?_
  · exact Option.isNone_iff_eq_none.mp (List.all_eq_true.mp hlater e he)
  · exact Option.isNone_iff_eq_none.mp (List.all_eq_true.mp hearlier e he)

theorem plain (i : Fin 2) : ∀ s ∈ (application.model i).steps, s.reaction.Plain :=
  List.forall_mem_cons.mpr ⟨trivial, List.forall_mem_cons.mpr ⟨trivial,
    List.forall_mem_cons.mpr ⟨trivial, fun _ hs => absurd hs List.not_mem_nil⟩⟩⟩

end Office

/-- The clerk closes and locks up, one after the other. -/
theorem walk_of_recorded_in_office :
    ∃ steps, (Office.application.model 0).Walk steps ∧
      steps.map (·.name) = ["Close", "Lock up"] ∧
      (perform Office.application (call Office.application) (.latestStep (Office.clerk 0))
        Office.recorded).1 = some "Lock up" := by
  obtain ⟨steps, hwalk, -, hrecorded, hlatest⟩ := walk_of_recorded Office.built
    Office.reachable_recorded (Office.plain 0) Office.recordedThroughout
  have hnames : (Office.recorded.runner (Office.clerk 0)).recording.steps =
      ["Close", "Lock up"] := by decide +kernel
  have hsteps : steps.map (·.name) = ["Close", "Lock up"] := hrecorded.symm.trans hnames
  exact ⟨steps, hwalk, hsteps, hlatest.trans (congrArg List.getLast? hsteps)⟩

end UseCaseEngine
