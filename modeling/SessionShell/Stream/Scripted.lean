import SessionShell.Stream.Basic

/-!
A stream service by itself, with requests that keep a log of when they are served.
-/

namespace SessionShell

inductive Ending where
  | succeeds
  | fails
  | crashes
  deriving DecidableEq, Repr

/-- Waits for a gate, logs, submits further requests in order, and ends. -/
inductive ScriptedRequest where
  | mk (log : String) (gate : Option String) (nested : List ScriptedRequest) (ending : Ending)

instance : Inhabited ScriptedRequest :=
  ⟨.mk "" none [] .succeeds⟩

structure ScriptedStream where
  service : StreamService ScriptedRequest
  log : List String
  openGates : List String
  started : List (ThreadId × Unit)

namespace ScriptedStream

def new (discipline : Discipline) : ScriptedStream :=
  ⟨.new discipline, [], [], []⟩

def workerId : ThreadId := 1

def place : StreamAt ScriptedStream ScriptedRequest where
  get s := s.service
  set service s := { s with service }
  launch s := { s with started := s.started ++ [(workerId, ())] }

def awaitGate (gate : String) : Action ScriptedStream Unit :=
  Action.await fun s => if s.openGates.contains gate then some ((), s) else none

def serve : ScriptedRequest → Action ScriptedStream Unit
  | .mk log gate nested ending => do
    match gate with
    | some gate => awaitGate gate
    | none => pure ()
    Action.update fun s => { s with log := s.log ++ [log] }
    nested.forM place.submit
    match ending with
    | .crashes => .crash
    | .succeeds | .fails => pure ()

def life : Life ScriptedStream Unit where
  program := fun _ => do
    place.serveNext serve
    return some ()
  takeStarted := fun s => (s.started, { s with started := [] })
  isOver := fun _ => false

def openGate (gate : String) : Action ScriptedStream Unit :=
  Action.update fun s => { s with openGates := gate :: s.openGates }

end ScriptedStream

end SessionShell
