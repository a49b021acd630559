/-!
Programs that ask for things. A program is done, has crashed, or asks a question and goes on with
the answer. What a question means is left to whoever runs the program, so one program can be run
against a recording, expanded into questions of another kind, or held back while its question
cannot be answered yet.
-/

namespace SessionShell

universe u v w

inductive Program (Call : Type u) (Reply : Call → Type) (α : Type) : Type u where
  | done (a : α)
  | crash
  | ask (call : Call) (next : Reply call → Program Call Reply α)

namespace Program

variable {Call : Type u} {Reply : Call → Type} {α β : Type}

def bind (p : Program Call Reply α) (f : α → Program Call Reply β) : Program Call Reply β :=
  match p with
  | .done a => f a
  | .crash => .crash
  | .ask call next => .ask call fun reply => (next reply).bind f

instance : Monad (Program Call Reply) where
  pure := .done
  bind := bind

def call (c : Call) : Program Call Reply (Reply c) :=
  .ask c .done

/-- Runs to the end of a crash too, with no result then. -/
def attempt (p : Program Call Reply α) : Program Call Reply (Option α) :=
  match p with
  | .done a => .done (some a)
  | .crash => .done none
  | .ask call next => .ask call fun reply => (next reply).attempt

/-- Asks each question by a program over other questions. -/
def expand {Call' : Type v} {Reply' : Call' → Type}
    (f : (c : Call) → Program Call' Reply' (Reply c)) :
    Program Call Reply α → Program Call' Reply' α
  | .done a => .done a
  | .crash => .crash
  | .ask call next => (f call).bind fun reply => (next reply).expand f

/-- Answers every question in a monad. A crash has no result. -/
def runIn {m : Type → Type w} [Monad m] (f : (c : Call) → m (Reply c)) :
    Program Call Reply α → m (Option α)
  | .done a => pure (some a)
  | .crash => pure none
  | .ask call next => do (next (← f call)).runIn f

theorem bind_done (p : Program Call Reply α) : p.bind .done = p := by
  induction p with
  | done => rfl
  | crash => rfl
  | ask call next ih => simp [bind, ih]

theorem bind_assoc {γ : Type} (p : Program Call Reply α) (f : α → Program Call Reply β)
    (g : β → Program Call Reply γ) : (p.bind f).bind g = p.bind fun a => (f a).bind g := by
  induction p with
  | done => rfl
  | crash => rfl
  | ask call next ih => simp [bind, ih]

instance : LawfulMonad (Program Call Reply) :=
  LawfulMonad.mk' _ bind_done (fun _ _ => rfl) bind_assoc

end Program

end SessionShell
