import SessionShell.Shell.Loop

/-!
The shell as a machine: its threads, the passage of time, and calls from outside.
-/

namespace SessionShell

namespace Shell

/-- A shell without sessions, on files and over input. -/
def new (settings : Settings) (preload : Preload) (files : FileSystem) (input : Reader)
    (endIsFinal endsProcess : Bool) : Shell where
  settings := settings
  languages := LanguageRegistry.builtins
  preload := preload
  registry := []
  sessions := #[]
  console := .new input endIsFinal
  pool := .new settings.compile.threads
  libraries := []
  world := .new files
  latches := #[]
  channels := #[]
  uiThread := none
  threads := #[.main]
  started := []
  refusesThreads := false
  events := #[]
  answers := #[]
  endsProcess := endsProcess
  ended := none

/-- What a thread does in its role, and the role it has then. -/
def program : Role → Action Shell (Option Role)
  | .stream name => do
    consolePlace.work name
    return some (.stream name)
  | .compiler => do
    poolPlace.work
    return some .compiler
  | .session id phase => do return (← advance id phase).map (Role.session id)

def life : Life Shell Role where
  program := program
  takeStarted s := (s.started, { s with started := [] })
  isOver s := s.ended.isSome

/-- What can be seen to change while threads wait. -/
structure Pulse where
  counts : List Nat
  registry : Registry
  current : List Bool
  deriving DecidableEq, Repr

def pulse (s : Shell) : Pulse where
  counts := [s.console.outWritten.size, s.console.errWritten.size, s.events.size, s.answers.size]
  registry := s.registry
  current := s.sessions.toList.map (·.current)

/-- Nothing has to change for so long, in milliseconds, before all count as waiting. -/
def quietTime : Nat := 150

end Shell

/-- A shell that is watched, and since when nothing has changed. -/
structure Watched where
  machine : Machine Shell Role
  pulse : Shell.Pulse
  since : Nat

namespace Watched

def ofMachine (m : Machine Shell Role) : Watched :=
  ⟨m, m.shared.pulse, m.shared.world.now⟩

def look (w : Watched) : Watched :=
  if w.machine.shared.pulse = w.pulse then w else ofMachine w.machine

/-- Time passes for a thread that sleeps, and for one that polls as long as something changes. -/
def passTime? (w : Watched) : Option Watched :=
  let world := w.machine.shared.world
  world.nextAlarm?.bind fun alarm =>
    if world.alarms.any (!·.polls) ∨ alarm.time ≤ w.since + Shell.quietTime then
      some { w with machine := { w.machine with
        shared := { w.machine.shared with world := world.passTo alarm.time } } }
    else none

/-- Runs everything until it is blocked and time changes nothing. -/
def settle : Nat → Watched → Watched
  | 0, w => w
  | fuel + 1, w =>
    let w := look { w with machine := Shell.life.settle Life.patience w.machine }
    if w.machine.shared.ended.isSome then w
    else match w.passTime? with
      | some w => settle fuel w
      | none => w

end Watched

namespace Shell

def settle (m : Machine Shell Role) : Machine Shell Role :=
  (Watched.settle Life.patience (.ofMachine m)).machine

/-! ## Calls from outside -/

def answering (act : Action Shell Answer) : Action Shell Unit := do
  let me ← currentId
  let answer? ← act.attempt
  Action.update fun s => { s with answers := s.answers.push (me, answer?.getD .crashed) }

/-- Makes a call on the main thread, after which everything runs until it is blocked. -/
def call (act : Action Shell Answer) (m : Machine Shell Role) : Machine Shell Role :=
  settle (life.spawn mainThread (answering act) m)

def callInBackground (act : Action Shell Answer) (m : Machine Shell Role) :
    ThreadId × Machine Shell Role :=
  let s := m.shared
  let id := s.threads.size
  let m := { m with shared := { s with threads := s.threads.push .background } }
  (id, settle (life.spawn id (answering act) m))

def ofResult {α : Type} (f : α → Answer) : Except Fault α → Answer
  | .ok a => f a
  | .error fault => .failed fault

def answerOf {α : Type} (f : α → Answer) (act : Checked α) : Action Shell Answer := do
  return ofResult f (← asFault act)

def answerDone (act : Checked Unit) : Action Shell Answer :=
  answerOf (fun _ => .done) act

end Shell

end SessionShell
