import SessionShell.Compile.Job
import SessionShell.World

/-!
A pool of workers for jobs. Jobs that were submitted are taken in the order of submission, each by
one worker; the workers are started with the first of them. A job can also be run by whoever added
it, without the pool.
-/

namespace SessionShell

abbrev JobId := Nat

/-- A job as others see it, with its listener. -/
structure JobRecord (κ : Type) where
  job : CompileJob
  listener : κ
  cancelled : Bool
  outcome : Option Outcome

structure Pool (κ : Type) where
  /-- How many workers there are, once they were started. -/
  size : Nat
  started : Bool
  jobs : Array (JobRecord κ)
  waiting : List JobId

namespace Pool

variable {κ : Type}

def new (size : Nat) : Pool κ :=
  ⟨max size 1, false, #[], []⟩

def add (p : Pool κ) (task : CompileTask) (listener : κ) : JobId × Pool κ :=
  (p.jobs.size, { p with jobs := p.jobs.push ⟨.new task, listener, false, none⟩ })

def modifyJob (p : Pool κ) (id : JobId) (f : JobRecord κ → JobRecord κ) : Pool κ :=
  { p with jobs := p.jobs.modify id f }

def cancel (p : Pool κ) (id : JobId) : Pool κ :=
  p.modifyJob id fun r => { r with cancelled := true }

def isCancelled (p : Pool κ) (id : JobId) : Bool :=
  p.jobs[id]?.any (·.cancelled)

def outcome? (p : Pool κ) (id : JobId) : Option Outcome :=
  p.jobs[id]?.bind (·.outcome)

def isFinished (p : Pool κ) (id : JobId) : Bool :=
  (p.outcome? id).isSome

def title (p : Pool κ) (id : JobId) : String :=
  p.jobs[id]?.elim "" (·.job.title)

def enqueue (p : Pool κ) (id : JobId) : Pool κ :=
  { p with waiting := p.waiting ++ [id] }

def take? (p : Pool κ) : Option (JobId × Pool κ) :=
  match p.waiting with
  | [] => none
  | id :: waiting => some (id, { p with waiting })

end Pool

/-- Where a shared state keeps a pool and the world, how a worker is started, and what becomes of a
job's events. -/
structure PoolAt (σ κ : Type) where
  get : σ → Pool κ
  set : Pool κ → σ → σ
  world : WorldAt σ
  launch : σ → σ
  notify : JobId → JobEvent → Action σ Unit

namespace PoolAt

variable {σ κ : Type}

def modify (slot : PoolAt σ κ) (f : Pool κ → Pool κ) : Action σ Unit :=
  Action.update fun s => slot.set (f (slot.get s)) s

def add (slot : PoolAt σ κ) (task : CompileTask) (listener : κ) : Action σ JobId :=
  Action.step fun s =>
    let (id, p) := (slot.get s).add task listener
    (id, slot.set p s)

/-- Starts the workers unless they were started before. -/
def start (slot : PoolAt σ κ) : Action σ Unit :=
  Action.update fun s =>
    let p := slot.get s
    if p.started then s
    else (List.range p.size).foldl (fun s _ => slot.launch s)
      (slot.set { p with started := true } s)

def submit (slot : PoolAt σ κ) (id : JobId) : Action σ Unit := do
  slot.start
  slot.modify (·.enqueue id)

def answerWork (slot : PoolAt σ κ) (id : JobId) : (c : WorkCall) → Action σ c.Reply
  | .isCancelled => Action.read fun s => (slot.get s).isCancelled id
  | .cancel => slot.modify (·.cancel id)
  | .sleep ms => slot.world.sleep ms
  | .gate name => slot.world.awaitGate name
  | .file call => slot.world.file call

def answer (slot : PoolAt σ κ) (id : JobId) : (c : JobCall) → Action σ c.Reply
  | .now => slot.world.now
  | .work call => slot.answerWork id call
  | .notify event => slot.notify id event

/-- Runs a job. One that is not there has come to nothing. -/
def run (slot : PoolAt σ κ) (id : JobId) : Action σ Outcome := do
  match ← Action.read fun s => (slot.get s).jobs[id]? with
  | none => return .aborted
  | some record =>
    let (outcome, job) ← record.job.run.expand (slot.answer id)
    slot.modify (·.modifyJob id fun r => { r with job })
    return outcome

def finish (slot : PoolAt σ κ) (id : JobId) (outcome : Outcome) : Action σ Unit :=
  slot.modify (·.modifyJob id fun r => { r with outcome := some outcome })

def work (slot : PoolAt σ κ) : Action σ Unit := do
  let id ← Action.await fun s => (slot.get s).take?.map fun (id, p) => (id, slot.set p s)
  let outcome? ← (slot.run id).attempt
  slot.finish id (outcome?.getD .failed)

def awaitOutcome (slot : PoolAt σ κ) (id : JobId) : Action σ Outcome :=
  Action.await fun s => ((slot.get s).outcome? id).map (·, s)

end PoolAt

end SessionShell
