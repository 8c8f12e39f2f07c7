import UseCaseEngine.Example.Detour
import UseCaseEngine.Proofs.Account
import UseCaseEngine.Run.Delivery

/-!
# Worlds that can be reached

`Reachable` worlds come about from one in which nothing happened yet, by anything that can be done
from outside of calls: requests of any kind, calls among them, inquiries, and deliveries of what
waits in queues. All of these run user code, which makes requests in turn. Results about runs are
about all of these worlds: about any number of runners and queues, whatever they were told before.

Out of scope: worlds in the middle of what is done from outside. What holds there is said of the
events that are noted meanwhile.

What a runner has become can be told from the journal alone (`Recounted`): its model is the one that
it was put at the start of last, and its cursor is where the turns since then lead (`cursorAt`).

* **`recounted_of_reachable`**: so it is in every world that can be reached.
* `Lasting.of_reachable`: what a runner's calls keep, and what is not theirs, holds in all of them.
* `cursorAt_append`: the cursor moves with every turn that is noted, and with nothing else.
-/

namespace UseCaseEngine

variable {S : Signature}

/-! ## Reachable worlds -/

/-- What can be done from outside of calls. -/
inductive Operation (S : Signature) where
  | request (q : Request S)
  | inquire (q : Inquiry S)
  /-- A queue's worker takes out what waits. -/
  | take (q : QueueId S)
  /-- A queue's worker hands over what it took out. -/
  | hand (q : QueueId S)

/-- The world after an operation. -/
def Operation.apply (app : Application S) (w : World S) : Operation S → World S
  | .request q => (perform app (call app) q w).2
  | .inquire q => (UseCaseEngine.inquire app (call app) q w).2
  | .take q => (takeNext q w).2
  | .hand q => (handleTaken app q w).2

/-- **Operations keep within a relation if calls do**, as long as whatever the other requests do is
within it. -/
theorem Operation.apply_within {R : World S → World S → Prop} (hR : Composes R)
    (haside : ∀ w w', Aside w w' → R w w') (app : Application S)
    (hcalls : ∀ r c, Effect.Within R (call app r c)) (o : Operation S) (w : World S) :
    R w (o.apply app w) := by
  have hperform := perform_within haside app hcalls
  cases o with
  | request q => exact hperform q w
  | inquire q => exact hR.sequential.inquire app (call app) hperform q w
  | take q =>
    change R w (takeNext q w).2
    unfold takeNext
    split
    · rename_i m x _
      exact haside _ _ (aside_queue (e := .taken q m) ⟨rfl, rfl⟩ (fun _ _ h => by cases h) q x w)
    · exact hR.refl w
  | hand q =>
    change R w (handleTaken app q w).2
    unfold handleTaken
    split
    · exact hR.refl w
    · rename_i m _
      have hhanded : R w ((w.setQueue q (w.queue q).start).note (.handed q m)) :=
        haside _ _ (aside_queue ⟨rfl, rfl⟩ (fun _ _ h => by cases h) q _ w)
      have hexec := hR.sequential.exec app (call app) hperform (app.consumer q m)
        ((w.setQueue q (w.queue q).start).note (.handed q m))
      refine hR.trans (hR.trans hhanded hexec) (haside _ _ ?_)
      exact aside_queue (e := .consumed q m) ⟨rfl, rfl⟩ (fun _ _ h => by cases h) q _ _

/-- Any number of operations keep within a relation if each of them does. -/
theorem Composes.operations {R : World S → World S → Prop} (hR : Composes R)
    {app : Application S} (h : ∀ (o : Operation S) w, R w (o.apply app w))
    (operations : List (Operation S)) (w : World S) :
    R w (operations.foldl (Operation.apply app) w) := by
  induction operations generalizing w with
  | nil => exact hR.refl w
  | cons o operations ih => exact hR.trans (h o w) (ih _)

/-- Nothing happened yet: no runner has a model, or is in a call. -/
structure World.Fresh (w : World S) : Prop where
  journal : w.journal = []
  model : ∀ r, (w.runner r).model = none
  cursor : ∀ r, (w.runner r).cursor = {}
  recording : ∀ r, (w.runner r).recording = {}
  activity : ∀ r, (w.runner r).activity = .idle

/-- The worlds that come about from outside of calls. -/
inductive Reachable (app : Application S) : World S → Prop where
  | fresh {w : World S} (h : w.Fresh) : Reachable app w
  | step {w : World S} (o : Operation S) (h : Reachable app w) : Reachable app (o.apply app w)

theorem Reachable.requests {app : Application S} {w : World S} (h : Reachable app w)
    (requests : List (Request S)) :
    Reachable app (requests.foldl (fun w q => (perform app (call app) q w).2) w) := by
  induction requests generalizing w with
  | nil => exact h
  | cons q requests ih => exact ih (h.step (.request q))

/-- What a runner is called with one after another leads on. -/
theorem Reachable.calls {app : Application S} {w : World S} (h : Reachable app w) (r : RunnerId S)
    (calls : List (Call S)) :
    Reachable app (calls.foldl (fun w c => (call app r c w).2) w) := by
  induction calls generalizing w with
  | nil => exact h
  | cons c calls ih => exact ih (h.step (.request (.call r c)))

namespace Detour

theorem built : application.Built :=
  fun _ => ⟨spec, (spec.build_eq_ok_iff _).mpr ⟨rfl, rfl⟩⟩

theorem fresh_start : start.Fresh := by
  refine ⟨rfl, ?_, ?_, ?_, ?_⟩ <;> exact fun r => Fin.cases rfl (fun i => i.elim0) r

theorem reachable_after (calls : List (Call signature)) : Reachable application (after calls) :=
  (Reachable.fresh fresh_start).calls driver calls

end Detour

/-! ## What the journal tells of a runner -/

section Recounted

variable (app : Application S) (r : RunnerId S)

/-- Where a runner stands after what happened. -/
def cursorAt (journal : List (Event S)) : Cursor :=
  match ranModel? r journal with
  | none => {}
  | some name => ({} : Cursor).replay (app.model name) (turns r (sinceRun r journal))

/-- What the journal notes of a runner happened where the runner stood: every turn is one of a step
of the model that the runner ran and carries the answers that were asked for, and every resolution
was made there. -/
def Faithful : List (Event S) → Prop
  | [] => True
  | e :: earlier =>
    (∀ t, e.turn? r = some t → ∃ name, ranModel? r earlier = some name ∧
      t.Heard (app.model name) (cursorAt app r earlier)) ∧
    (∀ c, e.resolvedAt? r = some c → c = cursorAt app r earlier) ∧ Faithful earlier

/-- The runner is what the journal tells of it. -/
structure Recounted (w : World S) : Prop where
  model : (w.runner r).model = ranModel? r w.journal
  cursor : (w.runner r).cursor = cursorAt app r w.journal
  faithful : Faithful app r w.journal
  paired : (w.runner r).recording.Paired

theorem Faithful.of_suffix {earlier journal : List (Event S)} (h : Faithful app r journal)
    (hsuffix : earlier <:+ journal) : Faithful app r earlier := by
  induction journal with
  | nil => rwa [List.suffix_nil.mp hsuffix]
  | cons e journal ih =>
    rcases List.suffix_cons_iff.mp hsuffix with rfl | hsuffix
    · exact h
    · exact ih h.2.2 hsuffix

variable {r}

/-- The cursor moves with every turn that is noted. -/
theorem cursorAt_append {events journal : List (Event S)} {name : S.ModelName}
    (hname : ranModel? r journal = some name) (hran : ∀ e ∈ events, e.ran? r = none) :
    cursorAt app r (events ++ journal) =
      (cursorAt app r journal).replay (app.model name) (turns r events) := by
  unfold cursorAt
  rw [ranModel?_append r hran, sinceRun_append r hran, hname]
  dsimp only
  rw [← replay_append]
  exact congrArg _ (readOff_append _ _ _)

theorem cursorAt_moved {journal : List (Event S)} {name : S.ModelName}
    (hname : ranModel? r journal = some name) (t : Turn) :
    cursorAt app r (.moved r t :: journal) = (cursorAt app r journal).after (app.model name) t := by
  have hturns : turns r [.moved r t] = [t] := by simp [turns, readOff, Event.turn?]
  have happend := cursorAt_append app hname (List.forall_mem_singleton.mpr
    (show (Event.moved r t).ran? r = none from rfl))
  rw [hturns] at happend
  exact happend

/-- And with nothing else. -/
theorem cursorAt_append_of_quiet {events journal : List (Event S)}
    (hturns : turns r events = []) (hran : ∀ e ∈ events, e.ran? r = none) :
    cursorAt app r (events ++ journal) = cursorAt app r journal := by
  cases hname : ranModel? r journal with
  | some name =>
    rw [cursorAt_append app hname hran, hturns]
    rfl
  | none =>
    unfold cursorAt
    rw [ranModel?_append r hran, hname]

theorem cursorAt_run (name : S.ModelName) (journal : List (Event S)) :
    cursorAt app r (.ran r name :: journal) = {} := by
  simp [cursorAt, ranModel?, sinceRun, Event.ran?, turns]

/-- What a call noted leads on from where the runner stood. -/
theorem faithful_append {events journal : List (Event S)} {name : S.ModelName}
    (hname : ranModel? r journal = some name) (hran : ∀ e ∈ events, e.ran? r = none)
    (hheard : Turn.AllHeard (app.model name) (cursorAt app r journal) (turns r events))
    (hresolved : ResolvedIn (app.model name) r (cursorAt app r journal) events)
    (h : Faithful app r journal) : Faithful app r (events ++ journal) := by
  induction events with
  | nil => exact h
  | cons e events ih =>
    have hran' : ∀ e ∈ events, e.ran? r = none := fun e he => hran e (List.mem_cons_of_mem _ he)
    have hturns : turns r (e :: events) = turns r events ++ (e.turn? r).toList := readOff_cons _ _ _
    have hcursor := cursorAt_append app hname hran'
    rw [hturns, allHeard_append] at hheard
    refine ⟨fun t ht => ⟨name, ?_, ?_⟩, fun c hc => ?_, ih hran' hheard.1 hresolved.2⟩
    · exact (ranModel?_append r hran' journal).trans hname
    · have hlast := hheard.2
      rw [ht] at hlast
      change t.Heard (app.model name) (cursorAt app r (events ++ journal))
      rw [hcursor]
      exact hlast.1
    · change c = cursorAt app r (events ++ journal)
      rw [hcursor]
      exact hresolved.1 c hc

/-- Events that are neither turns nor resolutions lead nowhere. -/
theorem Faithful.note {journal : List (Event S)} (h : Faithful app r journal) {e : Event S}
    (hturn : e.turn? r = none) (hresolved : e.resolvedAt? r = none) :
    Faithful app r (e :: journal) := by
  refine ⟨fun t ht => ?_, fun c hc => ?_, h⟩
  · rw [hturn] at ht
    cases ht
  · rw [hresolved] at hc
    cases hc

/-- So does what was noted while no step took a turn. -/
theorem faithful_append_of_quiet {model : Model (code S)} {events journal : List (Event S)}
    (hturns : turns r events = []) (hran : ∀ e ∈ events, e.ran? r = none)
    (hresolved : ResolvedIn model r (cursorAt app r journal) events)
    (h : Faithful app r journal) : Faithful app r (events ++ journal) := by
  induction events with
  | nil => exact h
  | cons e events ih =>
    have hnone := readOff_eq_nil_iff.mp hturns
    have hturns' : turns r events = [] :=
      readOff_eq_nil_iff.mpr fun e he => hnone e (List.mem_cons_of_mem _ he)
    have hran' : ∀ e ∈ events, e.ran? r = none := fun e he => hran e (List.mem_cons_of_mem _ he)
    refine ⟨fun t ht => ?_, fun c hc => ?_, ih hturns' hran' hresolved.2⟩
    · rw [hnone e List.mem_cons_self] at ht
      cases ht
    · have hwhere := hresolved.1 c hc
      rw [hturns'] at hwhere
      change c = cursorAt app r (events ++ journal)
      rw [cursorAt_append_of_quiet app hturns' hran', hwhere]
      rfl

end Recounted

/-! ## Every world that can be reached -/

section Preserved

variable {app : Application S} {r : RunnerId S}

/-- Whatever happens apart from a runner's calls, the journal still tells what it is. -/
theorem Recounted.apart {w w' : World S} {events : List (Event S)} (h : Recounted app r w)
    (hjournal : w'.journal = events ++ w.journal)
    (hapart : Apart r events (w.runner r) (w'.runner r)) : Recounted app r w' where
  model := by
    rw [hapart.session.model, hjournal, ranModel?_append r hapart.ran, h.model]
  cursor := by
    rw [hapart.session.cursor, hjournal, cursorAt_append_of_quiet app hapart.turns hapart.ran,
      h.cursor]
  faithful := by
    rw [hjournal]
    exact faithful_append_of_quiet app hapart.turns hapart.ran
      (resolvedIn_of_none hapart.lull.resolved : ResolvedIn default r _ _)
      h.faithful
  paired := by
    rw [hapart.recording default]
    exact h.paired.replay r events

/-- Without a model no step takes a turn. -/
theorem turns_of_unbound {start : Cursor} {log : Recording} {events : List (Event S)}
    {y : Runner S} (h : ∀ model, Account model r start log events y) : turns r events = [] := by
  have hheard := (h default).heard
  cases hturns : turns r events with
  | nil => rfl
  | cons t ts =>
    rw [hturns] at hheard
    obtain ⟨⟨step, hstep, -⟩, -⟩ := hheard
    cases hstep

/-- After a call was opened, the journal tells the model that it runs and where it starts. -/
theorem Recounted.opened {w : World S} (h : Recounted app r w) (c : Call S) :
    ranModel? r (c.opening r ++ [.entered r] ++ w.journal) = c.model? (w.runner r) ∧
      cursorAt app r (c.opening r ++ [.entered r] ++ w.journal) = c.start (w.runner r) ∧
        Faithful app r (c.opening r ++ [.entered r] ++ w.journal) := by
  have hentered : ∀ e ∈ [(.entered r : Event S)], e.ran? r = none :=
    fun e he => List.mem_singleton.mp he ▸ rfl
  have hfaithful : Faithful app r ([.entered r] ++ w.journal) := h.faithful.note app rfl rfl
  cases c with
  | react m =>
    refine ⟨?_, ?_, hfaithful⟩
    · exact (ranModel?_append r hentered w.journal).trans h.model.symm
    · exact (cursorAt_append_of_quiet app rfl hentered).trans h.cursor.symm
  | run name =>
    refine ⟨?_, cursorAt_run app name _, hfaithful.note app rfl rfl⟩
    simp [Call.opening, Call.model?, ranModel?, Event.ran?]

/-- A call amounts to the turns of its steps, so that the journal tells what the runner is after
it. -/
theorem Recounted.serves {c : Call S} {w w' : World S} (h : Recounted app r w)
    (hserves : Serves app r c (c.opening r ++ [.entered r]) w w') : Recounted app r w' := by
  obtain ⟨hmodel, events, hjournal, hran, haccount⟩ := hserves
  obtain ⟨hranModel, hcursor, hfaithful⟩ := h.opened c
  have hbound : (w'.runner r).model = ranModel? r w'.journal := by
    rw [hjournal, ranModel?_append r hran, hranModel, hmodel]
  cases hname : c.model? (w.runner r) with
  | none =>
    have hall := fun model => haccount model fun name h => by rw [hname] at h; cases h
    have hturns := turns_of_unbound hall
    have hlast := hall default
    refine ⟨hbound, ?_, ?_, ?_⟩
    · rw [hlast.cursor, hturns, hjournal, cursorAt_append_of_quiet app hturns hran, hcursor]
      rfl
    · rw [hjournal]
      exact faithful_append_of_quiet app hturns hran (hcursor ▸ hlast.resolved) hfaithful
    · rw [hlast.recording]
      exact h.paired.replay r events
  | some name =>
    have hlast := haccount (app.model name) fun n hn => by
      rw [hname] at hn
      cases hn
      rfl
    rw [hname] at hranModel
    refine ⟨hbound, ?_, ?_, ?_⟩
    · rw [hlast.cursor, hjournal, cursorAt_append app hranModel hran, hcursor]
    · rw [hjournal]
      exact faithful_append app hranModel hran (hcursor ▸ hlast.heard) (hcursor ▸ hlast.resolved)
        hfaithful
    · rw [hlast.recording]
      exact h.paired.replay r events

/-- What is said of a runner that is in no call still holds after whatever happens apart from its
calls, and after its calls. -/
structure Lasting (app : Application S) (r : RunnerId S) (P : World S → Prop) : Prop where
  apart : ∀ {w w' : World S} {events : List (Event S)}, w'.journal = events ++ w.journal →
    Apart r events (w.runner r) (w'.runner r) → P w → P w'
  call : ∀ depth c {w : World S}, (w.runner r).activity = .idle → Recounted app r w → P w →
    P (callWithin app (depth + 1) r c w).2

/-- A runner that is in a call is not disturbed. One that is not in a call is in none afterwards,
the journal tells what it is, and what was said of it holds. -/
def Keeps (app : Application S) (r : RunnerId S) (P : World S → Prop) (w w' : World S) : Prop :=
  Undisturbed r w w' ∧
    ((w.runner r).activity = .idle → (w'.runner r).activity = .idle ∧
      (Recounted app r w ∧ P w → Recounted app r w' ∧ P w'))

theorem composes_keeps (app : Application S) (r : RunnerId S) (P : World S → Prop) :
    Composes (Keeps app r P) where
  refl w := ⟨(composes_undisturbed r).refl w, fun hidle => ⟨hidle, id⟩⟩
  trans := by
    rintro w₁ w₂ w₃ ⟨hbusy₁₂, hidle₁₂⟩ ⟨hbusy₂₃, hidle₂₃⟩
    refine ⟨(composes_undisturbed r).trans hbusy₁₂ hbusy₂₃, fun hidle => ?_⟩
    obtain ⟨hidle₂, htold₂⟩ := hidle₁₂ hidle
    obtain ⟨hidle₃, htold₃⟩ := hidle₂₃ hidle₂
    exact ⟨hidle₃, fun h => htold₃ (htold₂ h)⟩

namespace Lasting

variable {P : World S → Prop} (hP : Lasting app r P)
include hP

theorem keeps_of_apart {w w' : World S} (events : List (Event S))
    (hjournal : w'.journal = events ++ w.journal)
    (hapart : Apart r events (w.runner r) (w'.runner r)) : Keeps app r P w w' := by
  refine ⟨fun _ => ⟨events, hjournal, hapart⟩, fun hidle => ⟨?_, fun h =>
    ⟨h.1.apart hjournal hapart, hP.apart hjournal hapart h.2⟩⟩⟩
  rw [hapart.session.activity]
  exact hidle

theorem keeps_of_aside {w w' : World S} (h : Aside w w') : Keeps app r P w w' := by
  obtain ⟨events, hjournal, -, hapart⟩ := h
  exact hP.keeps_of_apart events hjournal (hapart r)

theorem refuse_keeps (r' : RunnerId S) : Effect.Within (Keeps app r P) (refuse r') := by
  intro w
  obtain ⟨events, hjournal, hapart⟩ := refuse_apart r r' w
  exact hP.keeps_of_apart events hjournal hapart

theorem primitives_keeps {calls : Calls S}
    (hcalls : ∀ r' c, Effect.Within (Keeps app r P) (calls r' c)) {r' : RunnerId S}
    (h : r' ≠ r) : Primitives app calls r' (Effect.Within (Keeps app r P)) where
  perform := perform_within (fun _ _ haside => hP.keeps_of_aside haside) app hcalls
  look := (composes_keeps app r P).look r'
  modify f w := by
    refine hP.keeps_of_apart [] rfl ?_
    rw [runner_modifyRunner, if_neg h]
    exact Apart.refl _
  note e he w := by
    refine hP.keeps_of_apart [e] rfl (Apart.of_event ?_ ?_ _)
    · rw [he]
      exact fun heq => h (Option.some.inj heq)
    · rintro on rfl
      cases he

/-- **Every call** keeps what lasts, and leaves the journal telling what the runner is. -/
theorem callWithin_keeps (hbuilt : app.Built) (depth : Nat) (r' : RunnerId S) (c : Call S) :
    Effect.Within (Keeps app r P) (callWithin app depth r' c) := by
  induction depth generalizing r' c with
  | zero => exact hP.refuse_keeps r'
  | succ depth ih =>
    by_cases h : r' = r
    · subst h
      intro w
      refine ⟨callWithin_undisturbed app r' (depth + 1) r' c w, fun hidle => ?_⟩
      obtain ⟨hidle', hserves⟩ := callWithin_serves hbuilt depth r' c hidle
      exact ⟨hidle', fun htold =>
        ⟨htold.1.serves hserves, hP.call depth c hidle htold.1 htold.2⟩⟩
    · have hR := (composes_keeps app r P).sequential
      exact hR.callWithin (hP.refuse_keeps r') ((hP.primitives_keeps ih h).occupy hR c)

/-- **In every world that can be reached**, no runner is in a call, the journal tells what it is,
and what lasts holds of it. -/
theorem of_reachable (hbuilt : app.Built) (hfresh : ∀ w : World S, w.Fresh → P w) {w : World S}
    (h : Reachable app w) : (w.runner r).activity = .idle ∧ Recounted app r w ∧ P w := by
  induction h with
  | @fresh w h =>
    refine ⟨h.activity r, ⟨?_, ?_, ?_, ?_⟩, hfresh w h⟩
    · rw [h.model, h.journal]
      rfl
    · rw [h.cursor, h.journal]
      rfl
    · rw [h.journal]
      trivial
    · rw [h.recording]
      rfl
  | step o _ ih =>
    obtain ⟨hidle, htold⟩ := ih
    have hoperation := o.apply_within (composes_keeps app r P)
      (fun _ _ h => hP.keeps_of_aside h) app (hP.callWithin_keeps hbuilt S.runners)
    obtain ⟨hidle', hkeeps⟩ := (hoperation _).2 hidle
    exact ⟨hidle', hkeeps htold⟩

end Lasting

end Preserved

/-- **In every world that can be reached**, no runner is in a call, and the journal tells what it
is. -/
theorem recounted_of_reachable {app : Application S} (hbuilt : app.Built) {w : World S}
    (h : Reachable app w) (r : RunnerId S) :
    (w.runner r).activity = .idle ∧ Recounted app r w := by
  have hlasting : Lasting app r fun _ => True := ⟨fun _ _ h => h, fun _ _ _ _ _ h => h⟩
  obtain ⟨hidle, htold, -⟩ := hlasting.of_reachable hbuilt (fun _ _ => trivial) h
  exact ⟨hidle, htold⟩

/-! ## What a call commits -/

/-- Where no model is run, any other one does. -/
theorem exists_model {S : Signature} (app : Application S) (bound : Option S.ModelName) :
    ∃ model, ∀ name, bound = some name → model = app.model name := by
  cases bound with
  | none => exact ⟨default, fun _ h => nomatch h⟩
  | some name => exact ⟨app.model name, fun _ h => congrArg app.model (Option.some.inj h)⟩

end UseCaseEngine
