import SessionShell.Program

/-!
Threads over a shared state.

A thread is a program of atomic steps. A step sees which thread takes it and may have to wait: it is
not enabled as long as it gives nothing. What several threads do together is any interleaving of
their steps; `settle` is one of them, in which a thread runs until it has to wait and the others
follow in the order in which they were started.
-/

namespace SessionShell

abbrev ThreadId := Nat

/-- One step that no other thread can come between. -/
structure Act (σ : Type) where
  Answer : Type
  run : ThreadId → σ → Option (Answer × σ)

abbrev Action (σ : Type) := Program (Act σ) Act.Answer

namespace Action

variable {σ α : Type}

def await (f : σ → Option (α × σ)) : Action σ α :=
  Program.call (⟨α, fun _ s => f s⟩ : Act σ)

def step (f : σ → α × σ) : Action σ α :=
  await fun s => some (f s)

def read (f : σ → α) : Action σ α :=
  step fun s => (f s, s)

def update (f : σ → σ) : Action σ Unit :=
  step fun s => ((), f s)

def self : Action σ ThreadId :=
  Program.call (⟨ThreadId, fun id s => some (id, s)⟩ : Act σ)

def halt : Action σ α :=
  await fun _ => none

/-- Where a thread stands that has run as far as it can by itself. -/
inductive Standing (σ α : Type) where
  | done (a : α)
  | crashed
  | waiting (rest : Action σ α)

/-- Runs a thread until it has to wait or is through. Also tells whether it took a step. -/
def advance (id : ThreadId) : Action σ α → σ → Bool × Standing σ α × σ
  | .done a, s => (false, .done a, s)
  | .crash, s => (false, .crashed, s)
  | .ask act next, s =>
    match act.run id s with
    | none => (false, .waiting (.ask act next), s)
    | some (answer, s) =>
      let r := advance id (next answer) s
      (true, r.2)

/-- Runs alone to the end, if it never has to wait. -/
def runAlone? (id : ThreadId) (p : Action σ α) (s : σ) : Option (α × σ) :=
  match advance id p s with
  | (_, .done a, s) => some (a, s)
  | _ => none

end Action

/-- A thread ends with what it is to do next, if anything. -/
structure Thread (σ ρ : Type) where
  id : ThreadId
  rest : Action σ (Option ρ)

structure Machine (σ ρ : Type) where
  shared : σ
  threads : List (Thread σ ρ)

/-- How threads live: what each of their roles does, and where a shared state keeps the threads
that were started and the word that all is over. -/
structure Life (σ ρ : Type) where
  program : ρ → Action σ (Option ρ)
  takeStarted : σ → List (ThreadId × ρ) × σ
  isOver : σ → Bool

namespace Life

variable {σ ρ : Type}

/-- Runs one thread from role to role until it has to wait, at most `fuel` of them. -/
def runThread (life : Life σ ρ) : Nat → Thread σ ρ → σ → Bool × Option (Thread σ ρ) × σ
  | 0, t, s => (false, some t, s)
  | fuel + 1, t, s =>
    match t.rest.advance t.id s with
    | (moved, .waiting rest, s) => (moved, some ⟨t.id, rest⟩, s)
    | (_, .crashed, s) => (true, none, s)
    | (_, .done none, s) => (true, none, s)
    | (_, .done (some role), s) =>
      let r := life.runThread fuel ⟨t.id, life.program role⟩ s
      (true, r.2)

def pass (life : Life σ ρ) (fuel : Nat) :
    List (Thread σ ρ) → σ → Bool × List (Thread σ ρ) × σ
  | [], s => (false, [], s)
  | t :: ts, s =>
    if life.isOver s then (false, t :: ts, s)
    else
      let (moved, t?, s) := life.runThread fuel t s
      let (moved', ts, s) := life.pass fuel ts s
      (moved || moved', t?.toList ++ ts, s)

/-- Threads that were started join the others at the end. -/
def adopt (life : Life σ ρ) (m : Machine σ ρ) : Machine σ ρ :=
  let (started, s) := life.takeStarted m.shared
  ⟨s, m.threads ++ started.map fun (id, role) => ⟨id, life.program role⟩⟩

/-- Passes until no thread moves, at most `fuel` of them. -/
def settle (life : Life σ ρ) : Nat → Machine σ ρ → Machine σ ρ
  | 0, m => m
  | fuel + 1, m =>
    let m := life.adopt m
    let (moved, threads, s) := life.pass (fuel + 1) m.threads m.shared
    if moved && !life.isOver s then life.settle fuel ⟨s, threads⟩ else ⟨s, threads⟩

/-- Threads that still move after so many passes are left where they are. -/
def patience : Nat := 100000

/-- Settles, and goes on as long as `pass` lets time pass, at most `fuel` times. -/
def settleInTime (life : Life σ ρ) (pass : σ → Option σ) : Nat → Machine σ ρ → Machine σ ρ
  | 0, m => life.settle patience m
  | fuel + 1, m =>
    let m := life.settle patience m
    if life.isOver m.shared then m
    else match pass m.shared with
      | none => m
      | some s => life.settleInTime pass fuel { m with shared := s }

/-- Starts a thread from outside, behind all others. -/
def spawn (life : Life σ ρ) (id : ThreadId) (act : Action σ Unit) (m : Machine σ ρ) :
    Machine σ ρ :=
  let m := life.adopt m
  { m with threads := m.threads ++ [⟨id, act.bind fun _ => .done none⟩] }

/-- Has something done from outside, after which everything runs until it is blocked. -/
def perform (life : Life σ ρ) (id : ThreadId) (act : Action σ Unit) (m : Machine σ ρ) :
    Machine σ ρ :=
  life.settle patience (life.spawn id act m)

end Life

end SessionShell
