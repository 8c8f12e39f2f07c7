import UseCaseEngine.Proofs.WellFormed

/-!
# The frames of included use cases

Inclusion is a call (`include`), and leaving a use case is a return (`settle`), unless a
continuation jumps out of it (`unwind_to`). A turn pushes one frame, takes frames off the top, or
leaves them alone; so while a frame is there, what is below it stays as it was, and where it is
handed back the run is where it was included.

* `frames_after`: what a turn does to the frames, by what its step does.
* `below_kept`, `below_handed_back`: what one turn does to a frame and the ones below it.
* **`frames_of_reachable`**: the discipline of the frames, for every turn of every run, and for
  every window of a run in which a frame is there.
-/

namespace UseCaseEngine

variable {C : Code}

/-- The reaction continues somewhere else. -/
def Reaction.Continues (name : String) : Reaction C → Prop
  | .continueAt step | .continueAfter step => step = name
  | _ => False

section Turn

variable (model : Model C) (s : Step C) (t : Turn) (c c' : Cursor)

/-- One frame is pushed, by a step that includes a use case and did not fail. -/
def Pushes : Prop :=
  ∃ message name u, t.output = .ok message ∧ s.reaction = .includeUseCase name ∧
    model.useCaseNamed? name = some u ∧ c'.frames = ⟨s.id, u.id⟩ :: c.frames

/-- Frames are taken off the top. -/
def Pops : Prop := c'.frames <:+ c.frames ∧ c'.frames ≠ c.frames

/-- Included use cases were finished: the first one by the step that reacted, which does not repeat,
each other one by the step that included the one before. The run goes on after the step that
included the last one, which does not finish the next one in turn unless it repeats: then the last
answer was that its condition holds. -/
structure HandsBack : Prop where
  output : ∃ message, t.output = .ok message
  finished : s.Ends told model c.frames t.answers
  resumed : ∃ popped f last, c.frames = popped ++ c'.frames ∧ popped.getLast? = some f ∧
    c'.latest = some f.includeStep ∧ model.step? f.includeStep = some last ∧
      ∀ top, c'.frames.head? = some top → last.Finishes model top →
        last.repeats = true ∧ t.answers.getLast? = some true

/-- The frames are left down to the innermost one of the target's use case: what is left are the
most frames that are none, or have one of this use case on top. -/
structure Unwinds (target : Step C) : Prop where
  output : ∃ message, t.output = .ok message
  suffix : c'.frames <:+ c.frames
  top : ∀ f, c'.frames.head? = some f → f.included = target.useCase
  most : ∀ left, left <:+ c.frames → (∀ f, left.head? = some f → f.included = target.useCase) →
    left <:+ c'.frames

/-- The discipline of the frames: they are kept, one is pushed, or some are taken off, and only one
of these. Frames are taken off only by finishing use cases, or by a continuation. -/
structure MovesFrames : Prop where
  moved : (c'.frames = c.frames ∧ ¬ Pushes model s t c c' ∧ ¬ Pops c c') ∨
    (c'.frames ≠ c.frames ∧ Pushes model s t c c' ∧ ¬ Pops c c') ∨
    (c'.frames ≠ c.frames ∧ ¬ Pushes model s t c c' ∧ Pops c c')
  popped : Pops c c' →
    (s.reaction.Plain ∧ HandsBack model s t c c') ∨
      ∃ name target, s.reaction.Continues name ∧ model.resolve name = .ok target ∧
        Unwinds t c c' target

variable {model s t c c'}

theorem Pushes.length_eq (h : Pushes model s t c c') :
    c'.frames.length = c.frames.length + 1 := by
  obtain ⟨_, _, _, -, -, -, hframes⟩ := h
  rw [hframes, List.length_cons]

theorem Pops.length_lt (h : Pops c c') : c'.frames.length < c.frames.length :=
  Nat.lt_of_le_of_ne h.1.length_le fun heq => h.2 (h.1.eq_of_length heq)

theorem HandsBack.pops (h : HandsBack model s t c c') (hne : c'.frames ≠ c.frames) :
    Pops c c' := by
  obtain ⟨popped, -, -, hframes, -⟩ := h.resumed
  exact ⟨⟨popped, hframes.symm⟩, hne⟩

/-- The frames are kept, one is pushed, or some are taken off, by the number of them. -/
theorem MovesFrames.cases_length (h : MovesFrames model s t c c') :
    c'.frames = c.frames ∨
      (c'.frames.length = c.frames.length + 1 ∧ c.frames <:+ c'.frames) ∨
        (c'.frames.length < c.frames.length ∧ Pops c c') := by
  rcases h.moved with ⟨hkept, -⟩ | ⟨-, hpush, -⟩ | ⟨-, -, hpop⟩
  · exact .inl hkept
  · have hlength := hpush.length_eq
    obtain ⟨_, _, _, -, -, -, hframes⟩ := hpush
    exact .inr (.inl ⟨hlength, hframes ▸ List.suffix_cons _ _⟩)
  · exact .inr (.inr ⟨hpop.length_lt, hpop⟩)

end Turn

/-! ## One turn -/

section After

variable {model : Model C} {c : Cursor}

/-- What is left after unwinding are the most frames that can be left. -/
theorem suffix_unwind {useCase : UseCaseId} {frames left : List Frame} (h : left <:+ frames)
    (htop : ∀ f, left.head? = some f → f.included = useCase) :
    left <:+ Cursor.unwind useCase frames := by
  induction frames with
  | nil =>
    rw [List.suffix_nil.mp h]
    exact List.nil_suffix
  | cons f rest ih =>
    unfold Cursor.unwind
    rw [List.dropWhile_cons]
    split
    · rename_i hf
      rcases List.suffix_cons_iff.mp h with rfl | h
      · rw [htop f rfl] at hf
        simp at hf
      · exact ih h
    · exact h

theorem frames_continuedAt (c : Cursor) (s target : Step C) :
    (c.continuedAt s target).frames = Cursor.unwind target.useCase c.frames := by
  unfold Cursor.continuedAt
  cases target.previous <;> rfl

theorem unwinds_of_frames {t : Turn} {c' : Cursor} {target : Step C} {message : Option Message}
    (houtput : t.output = .ok message)
    (h : c'.frames = Cursor.unwind target.useCase c.frames) : Unwinds t c c' target where
  output := ⟨message, houtput⟩
  suffix := h ▸ Cursor.unwind_suffix _ _
  top _ hf := Cursor.included_of_head?_unwind (h ▸ hf)
  most _ hleft htop := h ▸ suffix_unwind hleft htop

/-- A step that ends included use cases hands back. -/
theorem handsBack_of_settles {t : Turn} {s last : Step C} {left : List Frame} {c' : Cursor}
    {message : Option Message} (houtput : t.output = .ok message)
    (hsettles : Settles told model s c.frames t.answers last left [])
    (hlatest : c'.latest = some last.id) (hframes : c'.frames = left) (hleft : left ≠ c.frames)
    (hid : ∀ {id s}, model.step? id = some s → s.id = id) : HandsBack model s t c c' := by
  refine ⟨⟨message, houtput⟩, hsettles.left_ne_iff.mp hleft, ?_⟩
  obtain ⟨popped, hpopped, -, hlast⟩ := hsettles.frames_eq
  have hne : popped ≠ [] := by
    rintro rfl
    exact hleft hpopped.symm
  have hback := hlast _ (List.getLast?_eq_some_getLast hne)
  refine ⟨popped, popped.getLast hne, last, hframes ▸ hpopped,
    List.getLast?_eq_some_getLast hne, ?_, hback, fun top htop hfinishes => ?_⟩
  · rw [hlatest, hid hback]
  · obtain ⟨hrepeats, asked, hasked⟩ := hsettles.stays (hframes ▸ htop) hfinishes
    exact ⟨hrepeats, by rw [hasked, List.getLast?_concat]⟩

/-- A step that settles keeps the frames, or hands back. -/
theorem frames_after_plain (hplaced : model.Placed) (hwell : c.WellFormed model) {t : Turn}
    {s : Step C} {message : Option Message} (houtput : t.output = .ok message)
    (hplain : s.reaction.Plain)
    (hanswers : ((c.reached s).apply told model s t.answers).2 = []) :
    ((c.reached s).apply told model s t.answers).1.1.frames = c.frames ∨
      HandsBack model s t c ((c.reached s).apply told model s t.answers).1.1 := by
  rw [apply_plain hplain] at hanswers ⊢
  obtain ⟨last, left, unused, hsettle, hsettles⟩ :=
    exists_settles told (fun f hf => hwell.step?_of_frame hf) s t.answers
  dsimp only [Cursor.reached] at hanswers ⊢
  rw [hsettle] at hanswers ⊢
  obtain rfl : unused = [] := hanswers
  by_cases hleft : left = c.frames
  · exact .inl hleft
  · exact .inr (handsBack_of_settles houtput hsettles rfl rfl hleft hplaced.step_id)

/-- **What a turn does to the frames**, by what its step does. -/
theorem frames_after (hplaced : model.Placed) (hwell : c.WellFormed model) {t : Turn} {s : Step C}
    (hstep : model.step? t.step = some s) (hheard : t.Heard model c) :
    (c.after model t).frames = c.frames ∨ Pushes model s t c (c.after model t) ∨
      (s.reaction.Plain ∧ HandsBack model s t c (c.after model t)) ∨
        ∃ name target, s.reaction.Continues name ∧ model.resolve name = .ok target ∧
          Unwinds t c (c.after model t) target := by
  obtain ⟨s', hstep', hanswers⟩ := hheard
  obtain rfl : s = s' := Option.some.inj (hstep.symm.trans hstep')
  cases houtput : t.output with
  | error failure =>
    rw [after_of_failure hstep houtput]
    exact .inl rfl
  | ok message =>
    rw [houtput] at hanswers
    dsimp only at hanswers
    rw [after_of_apply hstep houtput]
    cases hreaction : s.reaction with
    | idle =>
      have hturn := frames_after_plain hplaced hwell houtput (by rw [hreaction]; trivial) hanswers
      exact hturn.imp id fun h => .inr (.inl ⟨trivial, h⟩)
    | function code =>
      have hturn := frames_after_plain hplaced hwell houtput (by rw [hreaction]; trivial) hanswers
      exact hturn.imp id fun h => .inr (.inl ⟨trivial, h⟩)
    | includeUseCase name =>
      unfold Cursor.apply
      rw [hreaction]
      dsimp only
      cases hu : model.useCaseNamed? name with
      | none => exact .inl rfl
      | some u => exact .inr (.inl ⟨message, name, u, houtput, hreaction, hu, rfl⟩)
    | continueAt name =>
      unfold Cursor.apply
      rw [hreaction]
      dsimp only
      cases htarget : model.resolve name with
      | error e => exact .inl rfl
      | ok target =>
        refine .inr (.inr (.inr ⟨name, target, rfl, htarget, unwinds_of_frames houtput ?_⟩))
        exact frames_continuedAt (c.reached s) s target
    | continueAfter name =>
      unfold Cursor.apply
      rw [hreaction]
      dsimp only
      cases htarget : model.resolve name with
      | error e => exact .inl rfl
      | ok target =>
        exact .inr (.inr (.inr ⟨name, target, rfl, htarget, unwinds_of_frames houtput rfl⟩))

/-- **The discipline of the frames** holds for every turn. -/
theorem movesFrames_after (hplaced : model.Placed) (hwell : c.WellFormed model) {t : Turn}
    {s : Step C} (hstep : model.step? t.step = some s) (hheard : t.Heard model c) :
    MovesFrames model s t c (c.after model t) := by
  have hexclusive (hpush : Pushes model s t c (c.after model t)) : ¬ Pops c (c.after model t) := by
    intro hpop
    have hlonger := hpush.length_eq
    have hshorter := hpop.length_lt
    omega
  have hmoves := frames_after hplaced hwell hstep hheard
  refine ⟨?_, fun hpop => ?_⟩
  · by_cases hkept : (c.after model t).frames = c.frames
    · refine .inl ⟨hkept, fun hpush => ?_, fun hpop => hpop.2 hkept⟩
      have hlonger := hpush.length_eq
      rw [hkept] at hlonger
      omega
    · rcases hmoves with h | hpush | ⟨-, hhands⟩ | ⟨name, target, -, -, hunwinds⟩
      · exact absurd h hkept
      · exact .inr (.inl ⟨hkept, hpush, hexclusive hpush⟩)
      · have hpop := hhands.pops hkept
        exact .inr (.inr ⟨hkept, fun hpush => hexclusive hpush hpop, hpop⟩)
      · have hpop : Pops c (c.after model t) := ⟨hunwinds.suffix, hkept⟩
        exact .inr (.inr ⟨hkept, fun hpush => hexclusive hpush hpop, hpop⟩)
  · rcases hmoves with h | hpush | h | h
    · exact absurd h hpop.2
    · exact absurd hpop (hexclusive hpush)
    · exact .inl h
    · exact .inr h

/-- As long as there are more frames than below it, a frame and what is below it stay. -/
theorem below_kept {s : Step C} {t : Turn} {c' : Cursor} {f : Frame} {below : List Frame}
    (hmoves : MovesFrames model s t c c') (hthere : f :: below <:+ c.frames)
    (hmore : below.length < c'.frames.length) : f :: below <:+ c'.frames := by
  rcases hmoves.cases_length with hkept | ⟨-, hpush⟩ | ⟨-, hpop⟩
  · rw [hkept]
    exact hthere
  · exact hthere.trans hpush
  · exact List.suffix_of_suffix_length_le hthere hpop.1 hmore

/-- Where the frame is handed back, what is below it is left. If it is handed back by finishing its
use case, the run goes on after the step that included it. -/
theorem below_handed_back {s : Step C} {t : Turn} {c' : Cursor} {f : Frame} {below : List Frame}
    (hmoves : MovesFrames model s t c c') (hthere : f :: below <:+ c.frames)
    (hback : c'.frames.length = below.length) :
    c'.frames = below ∧ (s.reaction.Plain → c'.latest = some f.includeStep) := by
  have hpop : Pops c c' := by
    have hle := hthere.length_le
    rw [List.length_cons] at hle
    rcases hmoves.cases_length with hkept | ⟨hlonger, -⟩ | ⟨-, hpop⟩
    · rw [hkept] at hback
      omega
    · omega
    · exact hpop
  have hframes : c'.frames = below := by
    have hbelow : below <:+ c.frames := (List.suffix_cons f below).trans hthere
    exact (List.suffix_of_suffix_length_le hpop.1 hbelow (Nat.le_of_eq hback)).eq_of_length hback
  refine ⟨hframes, fun hplain => ?_⟩
  rcases hmoves.popped hpop with ⟨-, hhands⟩ | ⟨name, target, hcontinues, -⟩
  · obtain ⟨popped, g, last, hpopped, hlast, hlatest, -⟩ := hhands.resumed
    obtain ⟨inner, hinner⟩ := hthere
    -- What was taken off ends with the frame, since what is left is what was below it.
    have happend : popped ++ below = (inner ++ [f]) ++ below := by
      rw [← hframes, ← hpopped, ← hinner, hframes, List.append_assoc]
      rfl
    rw [List.append_cancel_right happend, List.getLast?_concat] at hlast
    rw [hlatest, Option.some.inj hlast]
  · cases hreaction : s.reaction <;> rw [hreaction] at hplain hcontinues
    · exact hcontinues.elim
    · exact hcontinues.elim
    · exact hplain.elim
    · exact hplain.elim
    · exact hplain.elim

end After

/-! ## Runs -/

section Reachable

variable {S : Signature} {app : Application S} {r : RunnerId S}

/-- A turn in a journal that is faithful moves the cursor that the journal tells, by the
discipline. -/
theorem Faithful.moves (hbuilt : app.Built) {journal : List (Event S)} (h : Faithful app r journal)
    {t : Turn} {earlier : List (Event S)} (hsuffix : .moved r t :: earlier <:+ journal) :
    ∃ name s, ranModel? r earlier = some name ∧ (app.model name).step? t.step = some s ∧
      cursorAt app r (.moved r t :: earlier) =
        (cursorAt app r earlier).after (app.model name) t ∧
      MovesFrames (app.model name) s t (cursorAt app r earlier)
        (cursorAt app r (.moved r t :: earlier)) := by
  obtain ⟨name, hname, hheard⟩ := (h.of_suffix app r hsuffix).1 t (by simp [Event.turn?])
  obtain ⟨s, hstep, -⟩ := id hheard
  refine ⟨name, s, hname, hstep, cursorAt_moved app hname t, ?_⟩
  rw [cursorAt_moved app hname t]
  exact movesFrames_after (placed_of_build (hbuilt name)) (wellFormed_cursorAt hbuilt r hname)
    hstep hheard

/-- A turn pushed a frame, and in all that happened later to the run there were more frames than
before. -/
structure Inside (app : Application S) (r : RunnerId S) (earlier : List (Event S)) (t : Turn)
    (f : Frame) (later : List (Event S)) : Prop where
  pushed : (cursorAt app r (.moved r t :: earlier)).frames = f :: (cursorAt app r earlier).frames
  ran : ∀ e ∈ later, e.ran? r = none
  more : ∀ mid, mid <:+ later → (cursorAt app r earlier).frames.length <
    (cursorAt app r (mid ++ .moved r t :: earlier)).frames.length

theorem Inside.before {earlier : List (Event S)} {t : Turn} {f : Frame} {e : Event S}
    {later : List (Event S)} (h : Inside app r earlier t f (e :: later)) :
    Inside app r earlier t f later where
  pushed := h.pushed
  ran e he := h.ran e (List.mem_cons_of_mem _ he)
  more mid hmid := h.more mid (hmid.trans (List.suffix_cons _ _))

/-- While the frame is there, it and what is below it stay. -/
theorem Faithful.below_kept (hbuilt : app.Built) {journal : List (Event S)}
    (h : Faithful app r journal) {earlier : List (Event S)} {t : Turn} {f : Frame}
    {later : List (Event S)} (hinside : Inside app r earlier t f later)
    (hsuffix : later ++ .moved r t :: earlier <:+ journal) :
    f :: (cursorAt app r earlier).frames <:+
      (cursorAt app r (later ++ .moved r t :: earlier)).frames := by
  induction later with
  | nil => exact hinside.pushed ▸ List.suffix_refl _
  | cons e later ih =>
    have hbefore := ih hinside.before ((List.suffix_cons _ _).trans hsuffix)
    cases hturn : e.turn? r with
    | none =>
      have hturns : turns r [e] = [] := readOff_eq_nil_iff.mpr (List.forall_mem_singleton.mpr hturn)
      have hran : ∀ e' ∈ [e], e'.ran? r = none :=
        List.forall_mem_singleton.mpr (hinside.ran e List.mem_cons_self)
      change _ <:+ (cursorAt app r ([e] ++ (later ++ .moved r t :: earlier))).frames
      rw [cursorAt_append_of_quiet app hturns hran]
      exact hbefore
    | some t' =>
      obtain rfl := Event.eq_moved_of_turn? hturn
      obtain ⟨name, s, -, -, -, hmoves⟩ := h.moves hbuilt hsuffix
      exact UseCaseEngine.below_kept hmoves hbefore (hinside.more _ (List.suffix_refl _))

/-- A frame that a turn pushed is one of the step that took the turn. -/
theorem Faithful.includeStep_eq (hbuilt : app.Built) {journal : List (Event S)}
    (h : Faithful app r journal) {earlier : List (Event S)} {t : Turn} {f : Frame}
    (hsuffix : .moved r t :: earlier <:+ journal)
    (hpushed : (cursorAt app r (.moved r t :: earlier)).frames =
      f :: (cursorAt app r earlier).frames) : f.includeStep = t.step := by
  obtain ⟨name, s, -, hstep, -, hmoves⟩ := h.moves hbuilt hsuffix
  rcases hmoves.moved with ⟨hkept, -⟩ | ⟨-, hpush, -⟩ | ⟨-, -, hpop⟩
  · rw [hkept] at hpushed
    exact absurd hpushed.symm (List.cons_ne_self _ _)
  · obtain ⟨_, _, u, -, -, -, hframes⟩ := hpush
    rw [hframes] at hpushed
    rw [← (List.cons.inj hpushed).1]
    exact (placed_of_build (hbuilt name)).step_id hstep
  · have hshorter := hpop.length_lt
    rw [hpushed, List.length_cons] at hshorter
    omega

namespace Detour

/-- The world after the detour was taken, with both of its stops. -/
def detoured : World signature := after [.run (), .react drive, .react drive, .react drive]

/-- What happened between the turn that included the detour and the one that left it. -/
def stops : List (Event signature) := (detoured.journal.drop 2).take 13

/-- The turn that included the detour, and the one that left it. -/
theorem exists_moved_detoured :
    ∃ t t', t.step = ⟨0⟩ ∧ t'.step = ⟨3⟩ ∧
      .moved driver t :: detoured.journal.drop 16 = detoured.journal.drop 15 ∧
      .moved driver t' :: (stops ++ detoured.journal.drop 15) = detoured.journal.drop 1 := by
  have hread : (detoured.journal[15]?.bind (Event.turn? driver)).map Turn.step = some ⟨0⟩ := by
    decide +kernel
  have hread' : (detoured.journal[1]?.bind (Event.turn? driver)).map Turn.step = some ⟨3⟩ := by
    decide +kernel
  obtain ⟨t, hstep, hdrop⟩ := exists_moved hread
  obtain ⟨t', hstep', hdrop'⟩ := exists_moved hread'
  have hstops : stops ++ detoured.journal.drop 15 = detoured.journal.drop 2 := by
    unfold stops
    rw [← List.drop_drop (i := 13) (j := 2), List.take_append_drop]
  exact ⟨t, t', hstep, hstep', hdrop.symm, by rw [hstops, hdrop']⟩

/-- In between there was a frame more than before. -/
theorem inside_stops {t : Turn}
    (h : .moved driver t :: detoured.journal.drop 16 = detoured.journal.drop 15) :
    Inside application driver (detoured.journal.drop 16) t ⟨⟨0⟩, ⟨1⟩⟩ stops where
  pushed := by
    rw [h]
    decide +kernel
  ran := by
    have hall : stops.all (fun e => (e.ran? driver).isNone) = true := by decide +kernel
    exact fun e he => Option.isNone_iff_eq_none.mp (List.all_eq_true.mp hall e he)
  more mid hmid := by
    have hall : ∀ k ≤ 13, (cursorAt application driver (detoured.journal.drop 16)).frames.length <
        (cursorAt application driver (stops.drop k ++ detoured.journal.drop 15)).frames.length := by
      decide +kernel
    have hlength : stops.length = 13 := by decide +kernel
    rw [h, List.suffix_iff_eq_drop.mp hmid]
    exact hall _ (by omega)

end Detour

/-- **Inclusion is bracketed.** Every turn of every run obeys the discipline of the frames. While a
frame is there that a step pushed, what is below it is what was there when it was pushed. When as
many frames are left as were there then, they are the same ones; and if this is by finishing the use
case, the run goes on after the step that included it. -/
theorem frames_of_reachable (hbuilt : app.Built) {w : World S} (h : Reachable app w)
    (r : RunnerId S) :
    (w.runner r).cursor = cursorAt app r w.journal ∧
    (∀ t earlier, .moved r t :: earlier <:+ w.journal →
      ∃ name s, ranModel? r earlier = some name ∧ (app.model name).step? t.step = some s ∧
        cursorAt app r (.moved r t :: earlier) =
          (cursorAt app r earlier).after (app.model name) t ∧
        MovesFrames (app.model name) s t (cursorAt app r earlier)
          (cursorAt app r (.moved r t :: earlier))) ∧
    ∀ earlier t f later, Inside app r earlier t f later →
      later ++ .moved r t :: earlier <:+ w.journal →
      f.includeStep = t.step ∧
      f :: (cursorAt app r earlier).frames <:+
        (cursorAt app r (later ++ .moved r t :: earlier)).frames ∧
      ∀ t' back, back = .moved r t' :: (later ++ .moved r t :: earlier) → back <:+ w.journal →
        (cursorAt app r back).frames.length = (cursorAt app r earlier).frames.length →
        (cursorAt app r back).frames = (cursorAt app r earlier).frames ∧
        ∀ name s, ranModel? r earlier = some name → (app.model name).step? t'.step = some s →
          s.reaction.Plain → (cursorAt app r back).latest = some t.step := by
  obtain ⟨-, hrecounted⟩ := recounted_of_reachable hbuilt h r
  have hfaithful := hrecounted.faithful
  refine ⟨hrecounted.cursor, fun t earlier hsuffix => hfaithful.moves hbuilt hsuffix, ?_⟩
  intro earlier t f later hinside hsuffix
  have hincluded : .moved r t :: earlier <:+ w.journal := (List.suffix_append _ _).trans hsuffix
  have hinclude := hfaithful.includeStep_eq hbuilt hincluded hinside.pushed
  have hthere := hfaithful.below_kept hbuilt hinside hsuffix
  refine ⟨hinclude, hthere, ?_⟩
  rintro t' back rfl hsuffix' hback
  obtain ⟨name', s', hname', hstep', -, hmoves⟩ := hfaithful.moves hbuilt hsuffix'
  obtain ⟨hframes, hlatest⟩ := below_handed_back hmoves hthere hback
  refine ⟨hframes, fun name s hname hstep hplain => ?_⟩
  have hran : ∀ e ∈ later ++ [.moved r t], e.ran? r = none := by
    intro e he
    rcases List.mem_append.mp he with he | he
    · exact hinside.ran e he
    · exact List.mem_singleton.mp he ▸ rfl
  have hsame := ranModel?_append r hran earlier
  rw [List.append_assoc] at hsame
  obtain rfl : name' = name := Option.some.inj (hname'.symm.trans (hsame.trans hname))
  obtain rfl : s' = s := Option.some.inj (hstep'.symm.trans hstep)
  rw [hlatest hplain, hinclude]

/-- The detour is left by its second stop: no frame is left, as when it was included, and the trip
goes on after the step that included it. -/
theorem frames_on_detour :
    (cursorAt Detour.application Detour.driver (Detour.detoured.journal.drop 1)).frames = [] ∧
      (cursorAt Detour.application Detour.driver (Detour.detoured.journal.drop 1)).latest =
        some ⟨0⟩ := by
  obtain ⟨t, t', hstep, hstep', hincluded, hback⟩ := Detour.exists_moved_detoured
  obtain ⟨-, -, hbracketed⟩ := frames_of_reachable Detour.built
    (Detour.reachable_after [.run (), .react Detour.drive, .react Detour.drive,
      .react Detour.drive]) Detour.driver
  have hsuffix : .moved Detour.driver t' :: (Detour.stops ++
      .moved Detour.driver t :: Detour.detoured.journal.drop 16) <:+ Detour.detoured.journal := by
    rw [hincluded, hback]
    exact List.drop_suffix 1 _
  obtain ⟨-, -, hleft⟩ := hbracketed _ t _ _ (Detour.inside_stops hincluded)
    ((List.suffix_cons _ _).trans hsuffix)
  have hbefore : (cursorAt Detour.application Detour.driver
      (Detour.detoured.journal.drop 16)).frames = [] := by decide +kernel
  obtain ⟨hframes, hlatest⟩ := hleft t' _ rfl hsuffix (by
    rw [hincluded, hback]
    decide +kernel)
  rw [hincluded, hback] at hframes hlatest
  obtain ⟨second, hsecond, hplain⟩ : ∃ s, (Detour.application.model ()).step? ⟨3⟩ = some s ∧
      s.reaction.Plain := ⟨_, rfl, trivial⟩
  refine ⟨hframes.trans hbefore, ?_⟩
  rw [← hstep]
  exact hlatest () second (by decide +kernel) (hstep' ▸ hsecond) hplain

end Reachable

end UseCaseEngine
