import UseCaseEngine.Example.Store
import UseCaseEngine.Proofs.Stations

/-!
# What becomes of a shopping cart

The model of the cart loops on its first step while there is room. A blank item makes the step fail;
the failure is handled by a step of another flow, which then continues after the first step. Once
the cart is full, the first step repeats no more, and the flow after it can be entered: the items
are paid for, and there is nothing left to do.

Where the cart stands is told by the messages that came so far, and so is what is in it.

Out of scope: runners that are told to do something else in between, and hooks that interfere.

* `Cart.filled`: the cart after items arrived, `filled_concat`: one item more.
* `Cart.filter_normal`, `Cart.finds_takers`: which steps can take a message, from wherever.
* `Cart.Serves`, `Cart.react_of_serves`: what a session does about a message.
* `Cart.Place`, `Cart.Place.follows`: where a runner is in the model, and where a message brings it.
* **`Cart.shopping_of_run`**: what is in the cart, and which steps every message triggers.
-/

namespace UseCaseEngine

variable {S : Signature}

/-- The steps of a runner that were triggered, by name, with their messages. -/
def World.story (w : World S) (model : Model (code S)) (r : RunnerId S) :
    List (Option String × Message) :=
  (triggers r w.journal).map fun t => ((model.step? t.1).map (·.name), t.2)

/-- The world once a runner was made to react to messages, one after the other. -/
def World.reacted (w : World S) (app : Application S) (depth : Nat) (r : RunnerId S)
    (messages : List Message) : World S :=
  messages.foldl (fun v m => (callWithin app depth r (.react m) v).2) w

namespace Cart

/-! ## What comes into a cart -/

section Contents

/-- The items that come with messages, in order. -/
def arrivals (messages : List Message) : List String :=
  (messages.filter fun m => m.type.isA addItemType).map itemOf

/-- The items that are not blank. -/
def proper (items : List String) : List String := items.filter fun item => !Text.isBlankText item

/-- The items that arrive while there is still room for so many that are not blank. -/
def beforeFull : Nat → List String → List String
  | _, [] => []
  | 0, _ :: _ => []
  | room + 1, item :: rest =>
    item :: beforeFull (if Text.isBlankText item then room + 1 else room) rest

/-- The cart after items arrived: the first ones that are not blank are in it, and the blank ones
that came before it was full were rejected. -/
def filled (items : List String) : Cart where
  items := (proper items).take capacity
  rejected := (beforeFull capacity items).filter Text.isBlankText

theorem arrivals_concat (messages : List Message) (m : Message) :
    arrivals (messages ++ [m]) =
      arrivals messages ++ if m.type.isA addItemType then [itemOf m] else [] := by
  cases h : m.type.isA addItemType <;> simp [arrivals, h]

theorem proper_concat (items : List String) (item : String) :
    proper (items ++ [item]) = proper items ++ if Text.isBlankText item then [] else [item] := by
  cases h : Text.isBlankText item <;> simp [proper, h]

theorem beforeFull_concat (room : Nat) (items : List String) (item : String) :
    beforeFull room (items ++ [item]) =
      beforeFull room items ++ if (proper items).length < room then [item] else [] := by
  induction items generalizing room with
  | nil => cases room <;> simp [beforeFull, proper]
  | cons first rest ih =>
    cases room with
    | zero => simp [beforeFull]
    | succ room =>
      simp only [List.cons_append, beforeFull, ih]
      cases hfirst : Text.isBlankText first <;> simp [proper, hfirst]

theorem hasRoom_filled (items : List String) :
    (filled items).hasRoom = decide ((proper items).length < capacity) := by
  simp [filled, hasRoom, List.length_take]

/-- A cart that has room still had it before. -/
theorem hasRoom_of_append {items more : List String} (h : (filled (items ++ more)).hasRoom = true) :
    (filled items).hasRoom = true := by
  rw [hasRoom_filled, decide_eq_true_eq] at h ⊢
  refine Nat.lt_of_le_of_lt ?_ h
  unfold proper
  rw [List.filter_append, List.length_append]
  exact Nat.le_add_right _ _

/-- **One item more** is added, or rejected if it is blank; a full cart stays as it is. -/
theorem filled_concat (items : List String) (item : String) :
    filled (items ++ [item]) =
      if (filled items).hasRoom then
        if Text.isBlankText item then (filled items).reject item else (filled items).add item
      else filled items := by
  have hbefore := beforeFull_concat capacity items item
  have hproper := proper_concat items item
  rw [hasRoom_filled]
  by_cases hroom : (proper items).length < capacity
  · rw [if_pos hroom] at hbefore
    rw [if_pos (decide_eq_true hroom)]
    unfold filled
    rw [hbefore, hproper]
    cases hblank : Text.isBlankText item with
    | true => simp [reject, hblank]
    | false =>
      have htaken : (proper items ++ [item]).length ≤ capacity := by
        simpa using Nat.succ_le_of_lt hroom
      simp [add, hblank, List.take_of_length_le htaken, List.take_of_length_le (Nat.le_of_lt hroom)]
  · rw [if_neg hroom, List.append_nil] at hbefore
    rw [if_neg (by simpa using hroom)]
    unfold filled
    rw [hbefore, hproper, List.take_append_of_le_length (Nat.le_of_not_lt hroom)]

end Contents

/-! ## The model -/

section Model

variable (slot : Slot S.State Cart)

/-- The step that takes items, at its place. -/
def addStep : Step (code S) :=
  (((StepSpec.on "Add item" addItemType).reactWhile (roomGuard slot)).reacting
    (.function (addReaction slot))).place ⟨0⟩ ⟨0⟩ ⟨0⟩ none

/-- The step that takes the payment. -/
def payStep : Step (code S) := (StepSpec.on "Pay" checkoutType).place ⟨1⟩ ⟨0⟩ ⟨1⟩ none

/-- The step that follows it. -/
def thankStep : Step (code S) := (StepSpec.system "Say thanks").place ⟨2⟩ ⟨0⟩ ⟨1⟩ (some ⟨1⟩)

/-- The step that handles blank items. -/
def rejectStep : Step (code S) :=
  ((StepSpec.onFailure "Reject item" invalidItemType).reacting
    (.function (rejectReaction slot))).place ⟨3⟩ ⟨0⟩ ⟨2⟩ none

/-- The step that goes back to taking items. -/
def keepStep : Step (code S) :=
  ((StepSpec.system "Keep shopping").reacting (.continueAfter "Add item")).place ⟨4⟩ ⟨0⟩ ⟨2⟩
    (some ⟨3⟩)

theorem steps_eq : (spec slot).assemble.steps =
    [addStep slot, payStep, thankStep, rejectStep slot, keepStep] := rfl

/-- The only guard asks whether there is room. -/
theorem eq_roomGuard {g : Guard S} (h : (spec slot).assemble.HasGuard g) : g = roomGuard slot := by
  have hguards : (spec slot).assemble.steps.map (·.guard) = List.replicate 5 none := rfl
  have hconditions : (spec slot).assemble.steps.map (·.repeatWhile) =
      some (roomGuard slot) :: List.replicate 4 none := rfl
  have hflows : (spec slot).assemble.flows.map (·.guard) = List.replicate 3 none := rfl
  rcases h with ⟨s, hs, h | h⟩ | ⟨f, hf, h⟩
  · have hmem := hguards ▸ List.mem_map_of_mem (f := Step.guard) hs
    simp [h] at hmem
  · have hmem := hconditions ▸ List.mem_map_of_mem (f := Step.repeatWhile) hs
    simpa [h] using hmem
  · have hmem := hflows ▸ List.mem_map_of_mem (f := Flow.guard) hf
    simp [h] at hmem

/-- No flow stands in for a step. -/
theorem position_ne_insteadOf : ∀ f ∈ (spec slot).assemble.flows, ∀ name,
    f.position ≠ some (.insteadOf name) := by
  have hpositions : (spec slot).assemble.flows.map (·.position) =
      [none, none, some .anytime] := rfl
  intro f hf name h
  have hmem := hpositions ▸ List.mem_map_of_mem (f := Flow.position) hf
  simp [h] at hmem

/-- The cursor right behind a step, or at the start of the model. -/
def behind (latest : Option (Fin 5)) : Cursor := { latest := latest.map fun n => ⟨n⟩ }

/-- Whether a step can be reached from there, by its place; it may depend on whether there is room.
The step that handles failures always can. -/
def reaches (latest : Option (Fin 5)) (room : Bool) : Nat → Bool
  | 0 => (latest.isNone || latest == some 0) && room
  | 1 => latest == some 0 && !room
  | 2 => latest == some 1
  | 3 => true
  | _ => latest == some 3

theorem isReachable_eq (room : Bool) (latest : Option (Fin 5)) :
    ∀ t ∈ (spec slot).assemble.steps,
      (isReachable (m := Id) (fun _ => room) (spec slot).assemble (behind latest) t).run =
        Except.ok (reaches latest room t.id.index) := by
  refine List.map_inj_left.mp ?_
  match latest with
  | none => cases room <;> rfl
  | some 0 => cases room <;> rfl
  | some 1 => cases room <;> rfl
  | some 2 => cases room <;> rfl
  | some 3 => cases room <;> rfl
  | some 4 => cases room <;> rfl

/-! ## Which steps can take a message -/

/-- The steps that can take a message of the type. -/
def takers (latest : Option (Fin 5)) (room : Bool) (type : MessageType) : List (Step (code S)) :=
  (if type.isA addItemType && reaches latest room 0 then [addStep slot] else []) ++
  (if type.isA checkoutType && reaches latest room 1 then [payStep] else []) ++
  (if reaches latest room 2 then [thankStep] else []) ++
  (if reaches latest room 4 then [keepStep] else [])

theorem filter_normal (latest : Option (Fin 5)) (room : Bool) (type : MessageType) :
    ((spec slot).assemble.steps.filter fun t => Scope.normal.admits (behind latest) t &&
      t.isOpenTo Actor.user && t.expects type && reaches latest room t.id.index) =
        takers slot latest room type := by
  let fits := fun t : Step (code S) => Scope.normal.admits (behind latest) t &&
    t.isOpenTo Actor.user && t.expects type && reaches latest room t.id.index
  have hadd : fits (addStep slot) = (type.isA addItemType && reaches latest room 0) := rfl
  have hpay : fits payStep = (type.isA checkoutType && reaches latest room 1) := rfl
  have hthank : fits thankStep = reaches latest room 2 := rfl
  have hreject : fits (rejectStep slot) = false := rfl
  have hkeep : fits keepStep = reaches latest room 4 := rfl
  change List.filter fits _ = _
  unfold takers
  rw [steps_eq, List.filter_cons, List.filter_cons, List.filter_cons, List.filter_cons,
    List.filter_cons, List.filter_nil, hadd, hpay, hthank, hreject, hkeep,
    if_neg Bool.false_ne_true]
  split <;> split <;> split <;> split <;> rfl

/-- A blank item is always rejected by the same step. -/
theorem filter_failure (latest : Option (Fin 5)) (room : Bool) :
    ((spec slot).assemble.steps.filter fun t => Scope.failure.admits (behind latest) t &&
      t.isOpenTo Actor.user && t.expects invalidItemType && reaches latest room t.id.index) =
        [rejectStep slot] := rfl

/-- While there is room, items are taken, and nothing else is. -/
theorem takers_of_room {latest : Option (Fin 5)} (hlatest : latest = none ∨ latest = some 0)
    {room : Bool} (hroom : room = true) (type : MessageType) :
    takers slot latest room type = if type.isA addItemType then [addStep slot] else [] := by
  unfold takers
  rcases hlatest with rfl | rfl <;> subst hroom <;>
    cases type.isA addItemType <;> cases type.isA checkoutType <;> rfl

/-- Once there is none, a payment is. -/
theorem takers_of_full {room : Bool} (hfull : room = false) (type : MessageType) :
    takers slot (some 0) room type = if type.isA checkoutType then [payStep] else [] := by
  unfold takers
  subst hfull
  cases type.isA addItemType <;> cases type.isA checkoutType <;> rfl

/-- Thereafter nothing is. -/
theorem takers_of_paid (room : Bool) (type : MessageType) :
    takers slot (some 2) room type = [] := by
  unfold takers
  cases room <;> cases type.isA addItemType <;> cases type.isA checkoutType <;> rfl

/-- A payment is followed by thanks. -/
theorem takers_thank (room : Bool) : takers slot (some 1) room .systemEvent = [thankStep] := by
  cases room <;> rfl

/-- An item that was rejected is followed by the continuation. -/
theorem takers_keep (room : Bool) : takers slot (some 3) room .systemEvent = [keepStep] := by
  cases room <;> rfl

end Model

/-! ## What the steps do -/

section Session

variable {slot : Slot S.State Cart} {app : Application S} {calls : Calls S} {s : Session S}

section Steps

variable {m : Message} (latest : Option (Fin 5)) (σ : S.State) (done : List (StepId × Message))

omit m σ done in
/-- A step that was triggered is the latest. -/
theorem reached_eq {step : Step (code S)} {n : Fin 5} (hid : step.id = ⟨n⟩) :
    (behind latest).reached step = behind (some n) := by
  unfold Cursor.reached
  rw [hid]
  rfl

/-- A step that is not a continuation leads right behind itself. -/
theorem leads_of_yields {step : Step (code S)} {n : Fin 5} (hid : step.id = ⟨n⟩)
    (hreaction : step.reaction = .idle ∨ ∃ code, step.reaction = .function code) {σ' : S.State}
    (h : Session.Yields app calls step m ⟨behind latest, σ, done⟩ (.ok none) σ') :
    s.Leads app calls step m ⟨behind latest, σ, done⟩
      ⟨behind (some n), σ', done ++ [(⟨n⟩, m)]⟩ where
  yields := h
  move v _ := by
    have happly : (Cursor.apply (heard (evalGuard app calls)) s.model
        ((behind latest).reached step) step).run [] v =
          ((((behind latest).reached step, .ok ()), []), v) := by
      unfold Cursor.apply
      rcases hreaction with hreaction | ⟨code, hreaction⟩ <;> rw [hreaction] <;> rfl
    refine ⟨[], happly.trans ?_⟩
    rw [reached_eq latest hid]
  triggered := by rw [hid]

theorem leads_idle {step : Step (code S)} {n : Fin 5} (hid : step.id = ⟨n⟩)
    (hreaction : step.reaction = .idle) :
    s.Leads app calls step m ⟨behind latest, σ, done⟩
      ⟨behind (some n), σ, done ++ [(⟨n⟩, m)]⟩ := by
  refine leads_of_yields latest σ done hid (.inl hreaction) ?_
  rintro v rfl
  unfold Session.execReaction
  rw [hreaction]
  rfl

/-- An item is added. -/
theorem leads_add (hproper : Text.isBlankText (itemOf m) = false) :
    s.Leads app calls (addStep slot) m ⟨behind latest, σ, done⟩
      ⟨behind (some 0), slot.put ((slot.get σ).add (itemOf m)) σ, done ++ [(⟨0⟩, m)]⟩ := by
  refine leads_of_yields latest σ done rfl (.inr ⟨_, rfl⟩) ?_
  rintro v rfl
  change exec app calls (addReaction slot m) v = _
  unfold addReaction
  rw [hproper, if_neg Bool.false_ne_true]
  rfl

/-- A blank one is not. -/
theorem yields_add (hblank : Text.isBlankText (itemOf m) = true) :
    Session.Yields app calls (addStep slot) m ⟨behind latest, σ, done⟩
      (.error ⟨invalidItem (itemOf m)⟩) σ := by
  rintro v rfl
  change exec app calls (addReaction slot m) v = _
  unfold addReaction
  rw [hblank, if_pos rfl]
  rfl

/-- It is rejected. -/
theorem leads_reject (item : String) :
    s.Leads app calls (rejectStep slot) (invalidItem item) ⟨behind latest, σ, done⟩
      ⟨behind (some 3), slot.put ((slot.get σ).reject item) σ,
        done ++ [(⟨3⟩, invalidItem item)]⟩ := by
  refine leads_of_yields latest σ done rfl (.inr ⟨_, rfl⟩) ?_
  rintro v rfl
  change exec app calls (rejectReaction slot (invalidItem item)) v = _
  have hitem : field? invalidItemType (invalidItem item) = some item := rfl
  unfold rejectReaction
  rw [hitem]
  rfl

/-- The continuation leads back behind the first step. -/
theorem leads_keep (hmodel : s.model = (spec slot).assemble) :
    s.Leads app calls keepStep m ⟨behind latest, σ, done⟩
      ⟨behind (some 0), σ, done ++ [(⟨4⟩, m)]⟩ where
  yields := by
    rintro v rfl
    rfl
  move v _ := by
    refine ⟨[], ?_⟩
    rw [hmodel]
    rfl
  triggered := rfl

end Steps

section Finds

variable (app calls) (hmodel : s.model = (spec slot).assemble) {x : Runner S}
  (hactor : x.actor = Actor.user) (latest : Option (Fin 5)) (σ : S.State)
  (done : List (StepId × Message))
include hmodel hactor

/-- The steps that a session finds are those that fit the message and can be reached. -/
theorem finds (type : MessageType) (scope : Scope) :
    s.Finds app calls x ⟨behind latest, σ, done⟩ type scope
      ((spec slot).assemble.steps.filter fun t => scope.admits (behind latest) t &&
        t.isOpenTo Actor.user && t.expects type &&
          reaches latest (slot.get σ).hasRoom t.id.index) := by
  intro v hv
  have heval {g : Guard S} (hg : (spec slot).assemble.HasGuard g) :
      evalGuard app calls g v = ((slot.get σ).hasRoom, v) := by
    obtain rfl := eq_roomGuard slot hg
    exact congrArg (fun σ => (hasRoom (slot.get σ), v)) hv.state
  have hquiet : ∀ g, (spec slot).assemble.HasGuard g → (evalGuard app calls g v).2 = v :=
    fun g hg => congrArg Prod.snd (heval hg)
  have hroom : ∀ g, (spec slot).assemble.HasGuard g →
      (evalGuard app calls g v).1 = (slot.get σ).hasRoom :=
    fun g hg => congrArg Prod.fst (heval hg)
  rw [hmodel, hactor, candidates_of_quiet _ _ _ _ hquiet]
  refine congrArg (·, v) ((candidates_congr _ _ _ _ hroom).trans ?_)
  exact candidates_of_forall _ (isReachable_eq slot _ latest) (position_ne_insteadOf slot)

theorem finds_takers (type : MessageType) :
    s.Finds app calls x ⟨behind latest, σ, done⟩ type .normal
      (takers slot latest (slot.get σ).hasRoom type) := by
  rw [← filter_normal]
  exact finds app calls hmodel hactor latest σ done type .normal

theorem finds_reject :
    s.Finds app calls x ⟨behind latest, σ, done⟩ invalidItemType .failure [rejectStep slot] := by
  rw [← filter_failure slot latest (slot.get σ).hasRoom]
  exact finds app calls hmodel hactor latest σ done invalidItemType .failure

end Finds

/-! ## Reacting to a message -/

/-- What a message brings about behind a step: where this leads, the state then, and the steps that
it triggers. -/
inductive Serves (slot : Slot S.State Cart) (latest : Option (Fin 5)) (σ : S.State) (m : Message) :
    Option (Fin 5) → S.State → List (StepId × Message) → Prop where
  | ignored (h : takers slot latest (slot.get σ).hasRoom m.type = []) :
      Serves slot latest σ m latest σ []
  | added (h : takers slot latest (slot.get σ).hasRoom m.type = [addStep slot])
      (hproper : Text.isBlankText (itemOf m) = false) :
      Serves slot latest σ m (some 0) (slot.put ((slot.get σ).add (itemOf m)) σ) [(⟨0⟩, m)]
  | rejected (h : takers slot latest (slot.get σ).hasRoom m.type = [addStep slot])
      (hblank : Text.isBlankText (itemOf m) = true) :
      Serves slot latest σ m (some 0) (slot.put ((slot.get σ).reject (itemOf m)) σ)
        [(⟨0⟩, m), (⟨3⟩, invalidItem (itemOf m)), (⟨4⟩, .systemEvent)]
  | paid (h : takers slot latest (slot.get σ).hasRoom m.type = [payStep]) :
      Serves slot latest σ m (some 2) σ [(⟨1⟩, m), (⟨2⟩, .systemEvent)]

section React

variable (app calls) (hmodel : s.model = (spec slot).assemble) {x : Runner S}
  (hactor : x.actor = Actor.user)
include hmodel hactor

/-- Between two messages no system step is found. -/
theorem finds_nothing {latest : Option (Fin 5)}
    (hlatest : latest = some 0 ∨ latest = some 2 ∨ latest = none) (σ : S.State)
    (done : List (StepId × Message)) :
    s.Finds app calls x ⟨behind latest, σ, done⟩ .systemEvent .normal [] := by
  have hnone : takers slot latest (slot.get σ).hasRoom .systemEvent = [] := by
    rcases hlatest with rfl | rfl | rfl <;> cases (slot.get σ).hasRoom <;> rfl
  rw [← hnone]
  exact finds_takers app calls hmodel hactor latest σ done .systemEvent

variable (hhook : s.hook = Hook.callThrough)
include hhook

/-- The failure over a blank item is handled before the session goes on. -/
theorem carries_blank (latest : Option (Fin 5)) (σ : S.State) (done : List (StepId × Message))
    {m : Message} (hblank : Text.isBlankText (itemOf m) = true) :
    s.Carries app calls x (addStep slot) m ⟨behind latest, σ, done⟩
      ⟨behind (some 3), slot.put ((slot.get σ).reject (itemOf m)) σ,
        done ++ [(⟨0⟩, m)] ++ [(⟨3⟩, invalidItem (itemOf m))]⟩ := by
  have hfailed : Station.failed ⟨behind latest, σ, done⟩ (addStep slot) m σ =
      ⟨behind (some 0), σ, done ++ [(⟨0⟩, m)]⟩ := rfl
  exact carries_of_fails hhook rfl (yields_add latest σ done hblank) hfailed
    (finds_reject app calls hmodel hactor (some 0) σ _) (leads_reject (some 0) σ _ (itemOf m))

variable (hlimit : 1 ≤ s.limit)
include hlimit

/-- **A session reacts to a message** as it is served. -/
theorem react_of_serves {latest latest' : Option (Fin 5)} {σ σ' : S.State} {m : Message}
    {new : List (StepId × Message)} (h : Serves slot latest σ m latest' σ' new)
    {done : List (StepId × Message)} {v : World S}
    (hv : Stationed s.runner x ⟨behind latest, σ, done⟩ v) :
    ∃ v', (s.react app calls m).run v = (.ok none, v') ∧
      Stationed s.runner x ⟨behind latest', σ', done ++ new⟩ v' := by
  have hfinds := finds_takers app calls hmodel hactor latest σ done m.type
  cases h with
  | ignored h =>
    rw [h] at hfinds
    rw [List.append_nil]
    exact ⟨v, react_of_finds_nil hfinds hv, hv⟩
  | added h hproper =>
    rw [h] at hfinds
    exact react_of_legs hfinds (carries_of_leads hhook (leads_add latest σ done hproper))
      (.refl _) (Nat.zero_le _) (finds_nothing app calls hmodel hactor (.inl rfl) _ _) hv
  | rejected h hblank =>
    rw [h] at hfinds
    rw [List.append_cons, List.append_cons]
    have hkeeps := finds_takers app calls hmodel hactor (some 3)
      (slot.put ((slot.get σ).reject (itemOf m)) σ)
      (done ++ [(⟨0⟩, m)] ++ [(⟨3⟩, invalidItem (itemOf m))]) .systemEvent
    rw [takers_keep] at hkeeps
    exact react_of_legs hfinds (carries_blank app calls hmodel hactor hhook latest σ done hblank)
      (.next hkeeps (carries_of_leads hhook (leads_keep (some 3) _ _ hmodel)) (.refl _)) hlimit
      (finds_nothing app calls hmodel hactor (.inl rfl) _ _) hv
  | paid h =>
    rw [h] at hfinds
    rw [List.append_cons]
    have hthanks := finds_takers app calls hmodel hactor (some 1) σ (done ++ [(⟨1⟩, m)])
      .systemEvent
    rw [takers_thank] at hthanks
    exact react_of_legs hfinds (carries_of_leads hhook (leads_idle latest σ done rfl rfl))
      (.next hthanks (carries_of_leads hhook (leads_idle (some 1) _ _ rfl rfl)) (.refl _)) hlimit
      (finds_nothing app calls hmodel hactor (.inr (.inl rfl)) _ _) hv

end React

end Session

/-! ## Where the messages lead -/

section Law

/-- The message pays for a full cart. -/
def ChecksOut (before : List Message) (m : Message) : Prop :=
  m.type.isA checkoutType = true ∧ (filled (arrivals before)).hasRoom = false

/-- One of the messages paid for a full cart. -/
def Paid (messages : List Message) : Prop :=
  ∃ before m, before ++ [m] <+: messages ∧ ChecksOut before m

/-- The message brings an item while there is room. -/
def Fits (before : List Message) (m : Message) : Prop :=
  m.type.isA addItemType = true ∧ (filled (arrivals before)).hasRoom = true

/-- The steps that a message triggers, after others. -/
inductive Prompts (before : List Message) (m : Message) :
    List (Option String × Message) → Prop where
  | added (h : Fits before m) (hproper : Text.isBlankText (itemOf m) = false) :
      Prompts before m [(some "Add item", m)]
  | rejected (h : Fits before m) (hblank : Text.isBlankText (itemOf m) = true) :
      Prompts before m [(some "Add item", m), (some "Reject item", invalidItem (itemOf m)),
        (some "Keep shopping", .systemEvent)]
  | paid (h : ChecksOut before m) (hfirst : ¬ Paid before) :
      Prompts before m [(some "Pay", m), (some "Say thanks", .systemEvent)]
  | nothing (hnot : ¬ Fits before m) (hpaid : ChecksOut before m → Paid before) :
      Prompts before m []

theorem paid_concat {messages : List Message} {m : Message} :
    Paid (messages ++ [m]) ↔ Paid messages ∨ ChecksOut messages m := by
  constructor
  · rintro ⟨before, last, hprefix, h⟩
    rcases List.prefix_concat_iff.mp hprefix with heq | hprefix
    · obtain ⟨rfl, hlast⟩ := List.append_inj' heq rfl
      cases hlast
      exact .inr h
    · exact .inl ⟨before, last, hprefix, h⟩
  · rintro (⟨before, last, hprefix, h⟩ | h)
    · exact ⟨before, last, hprefix.trans (List.prefix_append _ _), h⟩
    · exact ⟨messages, m, List.prefix_rfl, h⟩

/-- A cart that is paid for is full. -/
theorem Paid.hasRoom {messages : List Message} (h : Paid messages) :
    (filled (arrivals messages)).hasRoom = false := by
  obtain ⟨before, m, ⟨after, rfl⟩, -, hfull⟩ := h
  rw [Bool.eq_false_iff]
  intro hroom
  have harrivals : arrivals (before ++ [m] ++ after) =
      arrivals before ++ arrivals ([m] ++ after) := by
    simp [arrivals]
  rw [harrivals] at hroom
  exact Bool.eq_false_iff.mp hfull (hasRoom_of_append hroom)

/-- The cart after one message more. -/
theorem filled_arrivals_concat (messages : List Message) (m : Message) :
    filled (arrivals (messages ++ [m])) =
      if m.type.isA addItemType && (filled (arrivals messages)).hasRoom then
        if Text.isBlankText (itemOf m) then (filled (arrivals messages)).reject (itemOf m)
        else (filled (arrivals messages)).add (itemOf m)
      else filled (arrivals messages) := by
  rw [arrivals_concat]
  cases m.type.isA addItemType with
  | false => simp
  | true =>
    rw [if_pos rfl, filled_concat]
    rfl

/-- Where a runner is in the model after some messages, and how often the cart was paid for: at the
start until an item arrives, then behind the step that takes items, and once the cart is paid for,
behind the thanks. -/
inductive Place (messages : List Message) : Option (Fin 5) → Nat → Prop where
  | fresh (h : arrivals messages = []) : Place messages none 0
  | shopping (h : ¬ Paid messages) : Place messages (some 0) 0
  | paid (h : Paid messages) : Place messages (some 2) 1

variable {messages : List Message} {latest : Option (Fin 5)} {k : Nat}

/-- It is paid for at most once. -/
theorem Place.le_one (h : Place messages latest k) : k ≤ 1 := by
  cases h <;> simp

/-- While there is room, the cart was not paid for. -/
theorem Place.of_room (h : Place messages latest k)
    (hroom : (filled (arrivals messages)).hasRoom = true) :
    (latest = none ∨ latest = some 0) ∧ k = 0 := by
  cases h with
  | fresh => exact ⟨.inl rfl, rfl⟩
  | shopping => exact ⟨.inr rfl, rfl⟩
  | paid h => cases hroom.symm.trans h.hasRoom

/-- How often a payment was taken. -/
def payments (triggered : List (StepId × Message)) : Nat := triggered.countP (·.1 == ⟨1⟩)

/-- The names of steps of the model. -/
def named (slot : Slot S.State Cart) (triggered : List (StepId × Message)) :
    List (Option String × Message) :=
  triggered.map fun t => (((spec slot).assemble.step? t.1).map (·.name), t.2)

/-- The message is served behind the step, and brings the runner where all messages lead. -/
def Follows (slot : Slot S.State Cart) (messages : List Message) (latest : Option (Fin 5))
    (σ : S.State) (k : Nat) (m : Message) : Prop :=
  ∃ latest' σ' new, Serves slot latest σ m latest' σ' new ∧
    Place (messages ++ [m]) latest' (k + payments new) ∧
    slot.get σ' = filled (arrivals (messages ++ [m])) ∧ Prompts messages m (named slot new)

variable {slot : Slot S.State Cart} {σ : S.State}

/-- While there is room, a message brings an item or nothing. -/
theorem Place.follows_of_room (h : Place messages latest k)
    (hσ : slot.get σ = filled (arrivals messages))
    (hroom : (filled (arrivals messages)).hasRoom = true) (m : Message) :
    Follows slot messages latest σ k m := by
  have hopen : ¬ ChecksOut messages m := fun hout => nomatch hroom.symm.trans hout.2
  have hunpaid : ¬ Paid (messages ++ [m]) := by
    rw [paid_concat, not_or]
    refine ⟨fun hpaid => ?_, hopen⟩
    cases hroom.symm.trans hpaid.hasRoom
  obtain ⟨hlatest, rfl⟩ := h.of_room hroom
  have htakers := takers_of_room slot hlatest (hσ ▸ hroom) m.type
  have hcart := filled_arrivals_concat messages m
  rw [hroom, Bool.and_true] at hcart
  by_cases hadd : m.type.isA addItemType = true
  · rw [if_pos hadd] at htakers hcart
    by_cases hblank : Text.isBlankText (itemOf m) = true
    · rw [if_pos hblank] at hcart
      refine ⟨_, _, _, .rejected htakers hblank, .shopping hunpaid, ?_,
        .rejected ⟨hadd, hroom⟩ hblank⟩
      rw [slot.get_put, hσ, hcart]
    · rw [if_neg hblank] at hcart
      rw [Bool.not_eq_true] at hblank
      refine ⟨_, _, _, .added htakers hblank, .shopping hunpaid, ?_, .added ⟨hadd, hroom⟩ hblank⟩
      rw [slot.get_put, hσ, hcart]
  · rw [if_neg hadd] at htakers hcart
    refine ⟨_, _, _, .ignored htakers, ?_, hσ.trans hcart.symm,
      .nothing (fun hfits => hadd hfits.1) fun hout => absurd hout hopen⟩
    cases h with
    | fresh h =>
      -- Still no item arrived, so the runner has not left the start of the model.
      refine .fresh ?_
      rw [arrivals_concat, if_neg hadd, h]
      rfl
    | shopping => exact .shopping hunpaid

/-- Once the cart is full, it is paid for at most once. -/
theorem Place.follows_of_full (h : Place messages latest k)
    (hσ : slot.get σ = filled (arrivals messages))
    (hfull : (filled (arrivals messages)).hasRoom = false) (m : Message) :
    Follows slot messages latest σ k m := by
  have hcart := filled_arrivals_concat messages m
  rw [hfull, Bool.and_false, if_neg Bool.false_ne_true] at hcart
  have hunfit : ¬ Fits messages m := fun hfits => nomatch hfull.symm.trans hfits.2
  cases h with
  | fresh h =>
    -- No item arrived, so there is room.
    rw [h] at hfull
    cases hfull
  | shopping h =>
    have htakers := takers_of_full slot (hσ ▸ hfull) m.type
    by_cases hcheckout : m.type.isA checkoutType = true
    · rw [if_pos hcheckout] at htakers
      have hout : ChecksOut messages m := ⟨hcheckout, hfull⟩
      exact ⟨_, _, _, .paid htakers, .paid (paid_concat.mpr (.inr hout)), hσ.trans hcart.symm,
        .paid hout h⟩
    · rw [if_neg hcheckout] at htakers
      have hstill : ¬ ChecksOut messages m := fun hout => hcheckout hout.1
      refine ⟨_, _, _, .ignored htakers, .shopping ?_, hσ.trans hcart.symm,
        .nothing hunfit fun hout => absurd hout hstill⟩
      rw [paid_concat, not_or]
      exact ⟨h, hstill⟩
  | paid h =>
    exact ⟨_, _, _, .ignored (takers_of_paid slot _ m.type), .paid (paid_concat.mpr (.inl h)),
      hσ.trans hcart.symm, .nothing hunfit fun _ => h⟩

/-- **What a message does** where the messages before it lead: it brings the runner where all of
them lead. -/
theorem Place.follows (h : Place messages latest k)
    (hσ : slot.get σ = filled (arrivals messages)) (m : Message) :
    Follows slot messages latest σ k m := by
  cases hroom : (filled (arrivals messages)).hasRoom with
  | true => exact h.follows_of_room hσ hroom m
  | false => exact h.follows_of_full hσ hroom m

end Law

/-! ## The law of the cart -/

section Shopping

variable {app : Application S} {slot : Slot S.State Cart} {name : S.ModelName} (depth : Nat)
  {r : RunnerId S} {x : Runner S} {earlier : List (StepId × Message)} {messages : List Message}
  {w v : World S}

/-- After some messages the runner rests where they lead, and the cart is what they make of it. -/
def Rested (slot : Slot S.State Cart) (r : RunnerId S) (x : Runner S)
    (earlier : List (StepId × Message)) (messages : List Message) (v : World S) : Prop :=
  ∃ latest σ since, Place messages latest (payments since) ∧
    slot.get σ = filled (arrivals messages) ∧
    Rests r x ⟨behind latest, σ, earlier ++ since⟩ v

/-- How a runner is set up that shops. -/
structure Shops (app : Application S) (slot : Slot S.State Cart) (name : S.ModelName)
    (x : Runner S) : Prop where
  built : (spec slot).build = .ok (app.model name)
  hook : x.hook = none
  actor : x.actor = Actor.user
  limit : 1 ≤ x.settings.maxContinuations.toNat

theorem Shops.model_eq (h : Shops app slot name x) : app.model name = (spec slot).assemble :=
  ((ModelSpec.build_eq_ok_iff _ _).mp h.built).2.symm

theorem Shops.hook_eq (h : Shops app slot name x) :
    (x.session app r name).hook = Hook.callThrough := by
  unfold Runner.session
  rw [h.hook]
  rfl

theorem Shops.atStart (h : Shops app slot name x) : Shops app slot name (x.atStart name) :=
  ⟨h.built, h.hook, h.actor, h.limit⟩

/-- **One message more** is reacted to without an error, and triggers what it prompts. -/
theorem Rested.react (hshops : Shops app slot name x) (hrunning : x.running = true)
    (hmodel : x.model = some name) (h : Rested slot r x earlier messages v) (m : Message) :
    (callWithin app (depth + 1) r (.react m) v).1 = .ok none ∧
      Rested slot r x earlier (messages ++ [m]) (callWithin app (depth + 1) r (.react m) v).2 ∧
      ∃ prompted, Prompts messages m prompted ∧
        (callWithin app (depth + 1) r (.react m) v).2.story (app.model name) r =
          v.story (app.model name) r ++ prompted := by
  obtain ⟨latest, σ, since, hplace, hσ, hrests⟩ := h
  obtain ⟨latest', σ', new, hserves, hplace', hσ', hprompts⟩ := hplace.follows hσ m
  obtain ⟨hresult, hrests'⟩ := rests_of_react app depth hrests hrunning hmodel fun v hv =>
    react_of_serves app (callWithin app depth) (s := x.session app r name) hshops.model_eq
      hshops.actor hshops.hook_eq hshops.limit hserves hv
  refine ⟨hresult, ⟨latest', σ', since ++ new, ?_, hσ', ?_⟩, named slot new, hprompts, ?_⟩
  · unfold payments
    rw [List.countP_append]
    exact hplace'
  · rw [← List.append_assoc]
    exact hrests'
  · unfold World.story
    rw [hrests'.triggered, hrests.triggered, List.map_append, hshops.model_eq]
    rfl

/-- Put at the start of the model, the runner rests there. -/
theorem rested_of_run (hshops : Shops app slot name (w.runner r))
    (hidle : (w.runner r).activity = .idle) (hempty : slot.get w.state = {}) :
    (callWithin app (depth + 1) r (.run name) w).1 = .ok none ∧
      Rested slot r ((w.runner r).atStart name) (triggers r w.journal) []
        (callWithin app (depth + 1) r (.run name) w).2 := by
  have hsettled : ((w.runner r).session app r name).Finds app (callWithin app depth)
      ((w.runner r).atStart name) ⟨behind none, w.state, triggers r w.journal⟩ .systemEvent
      .normal [] :=
    finds_nothing app (callWithin app depth) hshops.model_eq hshops.atStart.actor
      (.inr (.inr rfl)) _ _
  obtain ⟨hresult, hrests⟩ := rests_of_run app depth hidle name
    fun v hv => begin_of_settled hsettled hv
  refine ⟨hresult, none, w.state, [], .fresh rfl, hempty, ?_⟩
  rw [List.append_nil]
  exact hrests

/-- **The runner rests where the messages lead**, however many there are. -/
theorem Rested.reacted (hshops : Shops app slot name x) (hrunning : x.running = true)
    (hmodel : x.model = some name) (h : Rested slot r x earlier [] v) (messages : List Message) :
    Rested slot r x earlier messages (v.reacted app (depth + 1) r messages) := by
  induction messages using List.reverseRecOn with
  | nil => exact h
  | append_singleton messages m ih =>
    unfold World.reacted
    rw [List.foldl_append]
    exact (ih.react depth hshops hrunning hmodel m).2.1

/-- The only step with this name takes payments. -/
theorem name_eq_pay (slot : Slot S.State Cart) (id : StepId) :
    (((spec slot).assemble.step? id).map (·.name) == some "Pay") = (id == ⟨1⟩) := by
  match id with
  | ⟨0⟩ => rfl
  | ⟨1⟩ => rfl
  | ⟨2⟩ => rfl
  | ⟨3⟩ => rfl
  | ⟨4⟩ => rfl
  | ⟨n + 5⟩ => rfl

/-- What holds in a world that a run and some messages led to from another one: what is in the cart,
how often it was paid for, and what the next message does. -/
structure Shopped (app : Application S) (slot : Slot S.State Cart) (name : S.ModelName)
    (depth : Nat) (r : RunnerId S) (w : World S) (messages : List Message) (v : World S) :
    Prop where
  items : (slot.get v.state).items = (proper (arrivals messages)).take capacity
  rejected : (slot.get v.state).rejected =
    (beforeFull capacity (arrivals messages)).filter Text.isBlankText
  paidOnce : ∃ since, v.story (app.model name) r = w.story (app.model name) r ++ since ∧
    since.countP (·.1 == some "Pay") ≤ 1
  reacts : ∀ m, (callWithin app depth r (.react m) v).1 = .ok none ∧
    ∃ prompted, Prompts messages m prompted ∧
      (callWithin app depth r (.react m) v).2.story (app.model name) r =
        v.story (app.model name) r ++ prompted

/-- **The law of the cart.** Let a runner that is not in a call be made to run the model, without a
hook, acting for the user and allowed to execute a system step, while the cart is empty. After any
messages of any types the cart holds the first items that were not blank, as many as it takes; those
that were blank and came before it was full were rejected; and it was paid for at most once. No call
fails. The next message adds an item if it brings one and there is room; a blank one is rejected
instead, and shopping goes on. The first message that checks out once the cart is full pays, and the
system says thanks. Any other message triggers nothing. -/
theorem shopping_of_run (hshops : Shops app slot name (w.runner r))
    (hidle : (w.runner r).activity = .idle) (hempty : slot.get w.state = {}) :
    (callWithin app (depth + 1) r (.run name) w).1 = .ok none ∧
      ∀ messages, Shopped app slot name (depth + 1) r w messages
        ((callWithin app (depth + 1) r (.run name) w).2.reacted app (depth + 1) r messages) := by
  obtain ⟨hresult, hrested⟩ := rested_of_run depth hshops hidle hempty
  refine ⟨hresult, fun messages => ?_⟩
  have hreacted := hrested.reacted depth hshops.atStart rfl rfl messages
  have hreact := hreacted.react depth hshops.atStart rfl rfl
  obtain ⟨latest, σ, since, hplace, hσ, hrests⟩ := hreacted
  have hcart := (congrArg slot.get hrests.state).trans hσ
  refine ⟨congrArg Cart.items hcart, congrArg Cart.rejected hcart, ⟨named slot since, ?_, ?_⟩,
    fun m => ⟨(hreact m).1, (hreact m).2.2⟩⟩
  · unfold World.story
    rw [hrests.triggered, List.map_append, hshops.model_eq]
    rfl
  · unfold named
    rw [List.countP_map]
    simp only [Function.comp_def, name_eq_pay]
    exact hplace.le_one

end Shopping

end Cart

/-- A customer who takes more than fits into the cart, and something blank first. -/
theorem shopping_in_store :
    Cart.Shops Store.application Store.slot () (Store.start.runner Store.customer) ∧
      (Store.start.runner Store.customer).activity = .idle ∧
      Store.slot.get Store.start.state = {} ∧
    ∃ v, v = (callWithin Store.application 1 Store.customer (.run ()) Store.start).2.reacted
        Store.application 1 Store.customer Store.stockUp ∧
      Cart.Shopped Store.application Store.slot () 1 Store.customer Store.start Store.stockUp v ∧
      v.state = { items := (List.range 10).map toString, rejected := [" "] } ∧
      Cart.ChecksOut Store.stockUp Cart.checkout ∧
      (callWithin Store.application 1 Store.customer (.react Cart.checkout) v).2.story
          (Store.application.model ()) Store.customer =
        v.story (Store.application.model ()) Store.customer ++
          [(some "Pay", Cart.checkout), (some "Say thanks", .systemEvent)] := by
  have hshops : Cart.Shops Store.application Store.slot () (Store.start.runner Store.customer) :=
    ⟨rfl, rfl, rfl, Nat.le_refl 1⟩
  have hshopped := (Cart.shopping_of_run 0 hshops rfl rfl).2 Store.stockUp
  generalize hv : (callWithin Store.application 1 Store.customer (.run ()) Store.start).2.reacted
    Store.application 1 Store.customer Store.stockUp = v at hshopped
  have hitems : v.state.items = (List.range 10).map toString :=
    hshopped.items.trans (by decide +kernel)
  have hrejected : v.state.rejected = [" "] := hshopped.rejected.trans (by decide +kernel)
  refine ⟨hshops, rfl, rfl, v, rfl, hshopped, congrArg₂ Cart.mk hitems hrejected,
    ⟨rfl, by decide +kernel⟩, ?_⟩
  rw [← hv]
  decide +kernel

end UseCaseEngine
