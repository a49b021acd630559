import SessionShell.Compile.Pool

/-!
Jobs by themselves: a pool with its own files and its own time, and listeners that keep what they
are told.
-/

namespace SessionShell

inductive BenchListener where
  | nobody
  | recorder (events : Array JobEvent)
  deriving DecidableEq, Repr

namespace BenchListener

def hear (event : JobEvent) : BenchListener → BenchListener
  | .nobody => .nobody
  | .recorder events => .recorder (events.push event)

def events : BenchListener → Array JobEvent
  | .nobody => #[]
  | .recorder events => events

end BenchListener

inductive BenchRole where
  | worker
  deriving DecidableEq, Repr

structure Bench where
  world : World
  pool : Pool BenchListener
  threads : Nat
  started : List (ThreadId × BenchRole)

namespace Bench

def callerId : ThreadId := 0

def new (size : Nat) (files : FileSystem) : Bench :=
  ⟨.new files, .new size, 0, []⟩

def launch (b : Bench) : Bench :=
  { b with threads := b.threads + 1, started := b.started ++ [(b.threads + 1, .worker)] }

def worldPlace : WorldAt Bench where
  get b := b.world
  set world b := { b with world }

def place : PoolAt Bench BenchListener where
  get b := b.pool
  set pool b := { b with pool }
  world := worldPlace
  launch := launch
  notify id event := Action.update fun b =>
    { b with pool := b.pool.modifyJob id fun r => { r with listener := r.listener.hear event } }

def life : Life Bench BenchRole where
  program := fun .worker => do
    place.work
    return some .worker
  takeStarted b := (b.started, { b with started := [] })
  isOver _ := false

def passTime (b : Bench) : Option Bench :=
  b.world.pass?.map fun world => { b with world }

/-- Has something done, after which everything runs until it is blocked. -/
def perform (act : Action Bench Unit) (m : Machine Bench BenchRole) : Machine Bench BenchRole :=
  life.settleInTime passTime Life.patience (life.spawn callerId act m)

def addJob (task : CompileTask) (listens : Bool) (b : Bench) : JobId × Bench :=
  let (id, pool) := b.pool.add task (if listens then .recorder #[] else .nobody)
  (id, { b with pool })

def runJob (job : JobId) : Action Bench Unit := do
  place.finish job (← place.run job)

def cancelJob (job : JobId) : Action Bench Unit :=
  place.modify (·.cancel job)

def openGate (gate : String) : Action Bench Unit :=
  Action.update fun b => { b with world := b.world.openGate gate }

def eventsOf (b : Bench) (job : JobId) : List JobEvent :=
  (b.pool.jobs[job]?.elim #[] (·.listener.events)).toList

end Bench

end SessionShell
