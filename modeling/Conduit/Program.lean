/-!
# Interaction programs

A program is a tree of requests to its surroundings: it asks, is answered, and goes on. What the answers are is up to
whoever runs it, so one program runs on a real stack, over byte pipes, or against any answers at all.

* `Program.run`: answers each request in a monad.
* `Program.run_bind`: running a sequence is running its parts in turn.
-/

namespace Conduit

/-- The requests of a kind of program, and what each is answered with. -/
structure Interface where
  Req : Type
  Ans : Req → Type

/-- A program over an interface with a result of type `α`. -/
inductive Program (I : Interface) (α : Type) : Type
  | done (a : α)
  | ask (r : I.Req) (next : I.Ans r → Program I α)

namespace Program

variable {I J : Interface} {α β γ : Type}

/-- One request. -/
def request (r : I.Req) : Program I (I.Ans r) := .ask r .done

/-- First one program, then another that may use its result. -/
def bind : Program I α → (α → Program I β) → Program I β
  | .done a, f => f a
  | .ask r next, f => .ask r fun x => (next x).bind f

instance : Monad (Program I) where
  pure := .done
  bind := .bind

@[simp] theorem pure_eq (a : α) : (pure a : Program I α) = .done a := rfl

@[simp] theorem done_bind (a : α) (f : α → Program I β) : (Program.done a >>= f) = f a := rfl

@[simp] theorem ask_bind (r : I.Req) (next : I.Ans r → Program I α) (f : α → Program I β) :
    (Program.ask r next >>= f) = .ask r fun x => next x >>= f := rfl

@[simp] theorem request_bind (r : I.Req) (f : I.Ans r → Program I β) : (request r >>= f) = .ask r f := rfl

theorem bind_done (p : Program I α) : p >>= Program.done = p := by
  induction p with
  | done a => rfl
  | ask r next ih => simp only [ask_bind, ih]

theorem bind_assoc (p : Program I α) (f : α → Program I β) (g : β → Program I γ) :
    (p >>= f) >>= g = p >>= fun x => f x >>= g := by
  induction p with
  | done a => rfl
  | ask r next ih => simp only [ask_bind, ih]

instance : LawfulMonad (Program I) :=
  LawfulMonad.mk' (Program I) bind_done (fun _ _ => rfl) bind_assoc

/-- Runs a program whose requests are answered in a monad. -/
def run {m : Type → Type} [Monad m] (answer : (r : I.Req) → m (I.Ans r)) : Program I α → m α
  | .done a => pure a
  | .ask r next => answer r >>= fun x => (next x).run answer

variable {m : Type → Type} [Monad m]

@[simp] theorem run_done (answer : (r : I.Req) → m (I.Ans r)) (a : α) :
    (Program.done a : Program I α).run answer = pure a := rfl

@[simp] theorem run_ask (answer : (r : I.Req) → m (I.Ans r)) (r : I.Req) (next : I.Ans r → Program I α) :
    (Program.ask r next).run answer = answer r >>= fun x => (next x).run answer := rfl

theorem run_bind [LawfulMonad m] (answer : (r : I.Req) → m (I.Ans r)) (p : Program I α) (f : α → Program I β) :
    (p >>= f).run answer = p.run answer >>= fun x => (f x).run answer := by
  induction p with
  | done a => simp
  | ask r next ih => simp [ih]

end Program

end Conduit
