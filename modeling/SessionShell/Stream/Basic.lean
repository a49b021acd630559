import SessionShell.Concurrent

/-!
A queue of requests with one worker.

Any number of threads submit requests and one worker serves them, one at a time. Requests for output
wait at the tail; a request for input goes to the head, so the newest is served first.
-/

namespace SessionShell

inductive Discipline where
  | fifo
  | lifo
  deriving DecidableEq, Repr, Inhabited

/-- What waits in the queue: a request, or a mark that someone waits for. -/
inductive Queued (ρ : Type) where
  | request (r : ρ)
  | mark (id : Nat)
  deriving DecidableEq, Repr

structure StreamService (ρ : Type) where
  discipline : Discipline
  queue : List (Queued ρ)
  started : Bool
  marks : Nat
  reached : List Nat
  deriving DecidableEq, Repr

namespace StreamService

variable {ρ σ : Type}

def new (discipline : Discipline) : StreamService ρ :=
  ⟨discipline, [], false, 0, []⟩

def enqueue (s : StreamService ρ) (q : Queued ρ) : StreamService ρ :=
  match s.discipline with
  | .fifo => { s with queue := s.queue ++ [q] }
  | .lifo => { s with queue := q :: s.queue }

def submit (s : StreamService ρ) (r : ρ) : StreamService ρ :=
  s.enqueue (.request r)

def submitMark (s : StreamService ρ) : Nat × StreamService ρ :=
  (s.marks, { s.enqueue (.mark s.marks) with marks := s.marks + 1 })

def take? (s : StreamService ρ) : Option (Queued ρ × StreamService ρ) :=
  match s.queue with
  | [] => none
  | q :: queue => some (q, { s with queue })

def reach (s : StreamService ρ) (mark : Nat) : StreamService ρ :=
  { s with reached := mark :: s.reached }

def hasReached (s : StreamService ρ) (mark : Nat) : Bool :=
  s.reached.contains mark

end StreamService

/-- Where a shared state keeps a stream service, and how its worker is started. -/
structure StreamAt (σ ρ : Type) where
  get : σ → StreamService ρ
  set : StreamService ρ → σ → σ
  launch : σ → σ

namespace StreamAt

variable {ρ σ : Type}

/-- Starts the worker unless it was started before. -/
def start (slot : StreamAt σ ρ) : Action σ Unit :=
  Action.update fun s =>
    let service := slot.get s
    if service.started then s else slot.launch (slot.set { service with started := true } s)

def submit (slot : StreamAt σ ρ) (r : ρ) : Action σ Unit :=
  Action.update fun s => slot.set ((slot.get s).submit r) s

/-- Waits until every request submitted before has been served. -/
def sync (slot : StreamAt σ ρ) : Action σ Unit := do
  slot.start
  let mark ← Action.step fun s =>
    let (mark, service) := (slot.get s).submitMark
    (mark, slot.set service s)
  Action.await fun s => if (slot.get s).hasReached mark then some ((), s) else none

/-- Takes one request and serves it. One that crashes changes nothing for the next. -/
def serveNext (slot : StreamAt σ ρ) (serve : ρ → Action σ Unit) : Action σ Unit := do
  let q ← Action.await fun s => (slot.get s).take?.map fun (q, service) => (q, slot.set service s)
  match q with
  | .request r => discard (serve r).attempt
  | .mark id => Action.update fun s => slot.set ((slot.get s).reach id) s

end StreamAt

end SessionShell
