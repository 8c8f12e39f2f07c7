/-!
# Programs

User code is a tree of requests: a program is done with a value, or it asks for something and goes
on with the answer. An `Interface` lists what may be asked and the type of each answer; a handler
that answers every request runs a program in any monad (`run`), and a program over one interface can
be answered by programs over another (`interpret`).

Every program ends, because a tree has no infinite branch. Code that does not end is out of scope,
and so is code that dies, except where a queue's worker handles a message (`Receipt`).

* `LawfulMonad (Program I)`: sequences of programs obey the monad laws.
* `run_bind`: running a sequence is running its parts in sequence.
-/

namespace UseCaseEngine

/-- What a program may ask for, and what it gets. -/
structure Interface where
  Request : Type
  Answer : Request → Type

/-- User code: a value, or a request and what to do with its answer. -/
inductive Program (I : Interface) (α : Type) where
  | done (value : α)
  | ask (request : I.Request) (next : I.Answer request → Program I α)

namespace Program

variable {I J : Interface} {α β : Type}

/-- One program after another. -/
def bind : Program I α → (α → Program I β) → Program I β
  | .done a, f => f a
  | .ask q next, f => .ask q fun answer => (next answer).bind f

instance : Monad (Program I) where
  pure := .done
  bind := bind

theorem bind_done (p : Program I α) : p.bind .done = p := by
  induction p with
  | done a => rfl
  | ask q next ih => simp only [bind, ih]

theorem bind_assoc {γ : Type} (p : Program I α) (f : α → Program I β) (g : β → Program I γ) :
    (p.bind f).bind g = p.bind fun a => (f a).bind g := by
  induction p with
  | done a => rfl
  | ask q next ih => simp only [bind, ih]

instance : LawfulMonad (Program I) := LawfulMonad.mk' _ bind_done (fun _ _ => rfl) bind_assoc

/-- The program that asks once. -/
def request (q : I.Request) : Program I (I.Answer q) := .ask q .done

/-- Runs a program, given what each request does. -/
def run {m : Type → Type} [Monad m] (handle : (q : I.Request) → m (I.Answer q)) :
    Program I α → m α
  | .done a => pure a
  | .ask q next => do
    let answer ← handle q
    run handle (next answer)

/-- Answers every request of a program by a program over another interface. -/
def interpret (f : (q : I.Request) → Program J (I.Answer q)) : Program I α → Program J α
  | .done a => .done a
  | .ask q next => (f q).bind fun answer => interpret f (next answer)

@[simp] theorem run_done {m : Type → Type} [Monad m]
    (handle : (q : I.Request) → m (I.Answer q)) (a : α) :
    (done a : Program I α).run handle = pure a := rfl

theorem run_request {m : Type → Type} [Monad m] [LawfulMonad m]
    (handle : (q : I.Request) → m (I.Answer q)) (q : I.Request) :
    (request q).run handle = handle q := by
  simp [request, run]

theorem run_bind {m : Type → Type} [Monad m] [LawfulMonad m]
    (handle : (q : I.Request) → m (I.Answer q)) (p : Program I α) (f : α → Program I β) :
    (p.bind f).run handle = p.run handle >>= fun a => (f a).run handle := by
  induction p with
  | done a => simp [bind, run]
  | ask q next ih => simp [bind, run, ih]

end Program

end UseCaseEngine
