import SessionShell.Console.Basic
import SessionShell.Library
import SessionShell.Preload
import SessionShell.Session.Basic
import SessionShell.Settings

/-!
The shell: sessions that share a console, a pool of compile jobs, a library path and the focus, and
the threads they run on.
-/

namespace SessionShell

/-- Where a thread waits for an exit code. -/
structure Latch where
  released : Bool
  code : Option Int
  deriving DecidableEq, Repr, Inhabited

/-- Codes on their way to a batch, with labels, and how many more senders there can be. -/
structure Channel where
  queue : List (String × Int)
  senders : Nat
  deriving DecidableEq, Repr, Inhabited

inductive ThreadName where
  | main
  | background
  | session (name : String)
  | service
  deriving DecidableEq, Repr, Inhabited

/-- What can be seen of the shell besides its output. -/
inductive Event where
  | ended (code : Int)
  | exited (tag : String) (code : Int) (thread : ThreadName)
  | ran (tag : String) (thread : ThreadName)
  | progress (batch : List Progress)
  deriving DecidableEq, Repr

inductive Answer where
  | done
  | failed (fault : Fault)
  | code (n : Int)
  | read (outcome : ReadOutcome)
  | value (text : Option String)
  | forked (child : Option SessionId)
  | job (index : Nat)
  | linked (b : Bool)
  | text (s : String)
  | context (c : PromptContext) (language : Option String)
  | crashed
  deriving DecidableEq, Repr

structure SessionListener where
  session : SessionId
  /-- Whether progress is also shown to a monitor. -/
  monitored : Bool
  endsSession : Bool
  failed : Bool
  deriving DecidableEq, Repr, Inhabited

structure BatchChild where
  session : SessionId
  /-- Whether it reads from the console and so needs the focus. -/
  interactive : Bool
  deriving DecidableEq, Repr

structure BatchRun where
  targets : List String
  channel : Nat
  pending : Nat
  code : Int
  children : List BatchChild
  deriving DecidableEq, Repr

/-- What the thread of a session does next. -/
inductive Phase where
  | entering
  /-- Between two tasks, or between two turns of the main task. -/
  | idle
  | reading (statement : String)
  | batch (run : BatchRun)
  /-- Waiting for codes, when all targets were started or one after the other. -/
  | collecting (run : BatchRun) (last : Bool)
  | lingering (run : BatchRun)
  deriving DecidableEq, Repr

inductive Role where
  | stream (name : StreamName)
  | compiler
  | session (id : SessionId) (phase : Phase)
  deriving DecidableEq, Repr

structure Shell where
  settings : Settings
  languages : LanguageRegistry
  preload : Preload
  registry : Registry
  sessions : Array Session
  console : Console
  pool : Pool SessionListener
  libraries : LibraryPath
  world : World
  latches : Array Latch
  channels : Array Channel
  /-- The thread that must not wait for a session. -/
  uiThread : Option ThreadId
  threads : Array ThreadName
  started : List (ThreadId × Role)
  refusesThreads : Bool
  events : Array Event
  answers : Array (ThreadId × Answer)
  /-- Whether the end of the last session ends all threads. -/
  endsProcess : Bool
  ended : Option Int

namespace Shell

def mainThread : ThreadId := 0

def session (s : Shell) (id : SessionId) : Session :=
  s.sessions[id]?.getD default

def modifySession (id : SessionId) (f : Session → Session) (s : Shell) : Shell :=
  { s with sessions := s.sessions.modify id f }

def threadName (s : Shell) (id : ThreadId) : ThreadName :=
  s.threads[id]?.getD .main

def launch (name : ThreadName) (role : Role) (s : Shell) : Shell :=
  { s with threads := s.threads.push name, started := s.started ++ [(s.threads.size, role)] }

def worldPlace : WorldAt Shell where
  get s := s.world
  set world s := { s with world }

def consolePlace : ConsoleAt Shell where
  get s := s.console
  set console s := { s with console }
  launch name := launch .service (.stream name)

def newSession (name : String) (script : Option String) : Action Shell SessionId :=
  Action.step fun s =>
    let (mailbox, console) := s.console.addMailbox
    let session := Session.new name script mailbox s.settings.escapeMode
    (s.sessions.size, { s with console, sessions := s.sessions.push session })

abbrev Checked := ExceptT ShellError (Action Shell)

variable {α : Type}

/-- What becomes of something that can fail, without failing itself. -/
def caught (act : Checked α) : Checked (Except ShellError α) :=
  ExceptT.lift act.run

def getSession (id : SessionId) : Action Shell Session :=
  Action.read (·.session id)

def updateSession (id : SessionId) (f : Session → Session) : Action Shell Unit :=
  Action.update (modifySession id f)

def tryUpdate (id : SessionId) (f : Session → Except ShellError Session) : Checked Unit :=
  ExceptT.mk (Action.step fun s =>
    match f (s.session id) with
    | .ok session => (.ok (), modifySession id (fun _ => session) s)
    | .error e => (.error e, s))

def isLive (id : SessionId) : Action Shell Bool :=
  Action.read fun s => (s.session id).isLive

def ensureLive (id : SessionId) : Checked Unit := do
  let session ← getSession id
  unless session.isLive do throw (.hasExited session.name)

def indexOf (id : SessionId) : Action Shell (Option Nat) :=
  Action.read (·.registry.indexOf? id)

def sessionAt (index : Nat) : Action Shell (Option SessionId) :=
  Action.read (·.registry.get? index)

def sessionCount : Action Shell Nat :=
  Action.read (·.registry.length)

def getSettings : Action Shell Settings :=
  Action.read (·.settings)

def currentId : Action Shell ThreadId :=
  Action.self

def note (event : Event) : Action Shell Unit :=
  Action.update fun s => { s with events := s.events.push event }

def currentThread : Action Shell ThreadName := do
  let id ← currentId
  Action.read (·.threadName id)

def isUiThread : Action Shell Bool := do
  let id ← currentId
  Action.read fun s => s.uiThread = some id

/-- Takes effect when the session comes to its main task again. -/
def setMain (id : SessionId) (main : MainTask) : Checked Unit :=
  tryUpdate id fun session =>
    if session.disposed then .error (.hasExited session.name)
    else .ok { session with main := some main }

def schedule (id : SessionId) (task : Task) : Checked Unit := do
  ensureLive id
  updateSession id fun session => { session with tasks := session.tasks ++ [task] }

end Shell

end SessionShell
