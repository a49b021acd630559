import SessionShell.Compile.Pool
import SessionShell.FairSemaphore
import SessionShell.Language
import SessionShell.Prompt
import SessionShell.Registry

/-!
A session: an interpreter, the tasks that wait for it, what it does when no task waits, and its
share of the focus.

Focus is the right to read the shared input. Each session has a semaphore of its own: that of the
session in focus holds a permit, that of any other live session holds none. Focus is handed on by
taking the own permit and releasing the other's.
-/

namespace SessionShell

/-- What is done with the exit code of a session, once. -/
inductive ExitHook where
  | nothing
  /-- Notes the code under a tag, and crashes then if told so. -/
  | note (tag : String) (crashes : Bool)
  /-- Leaves the code for a waiting thread and wakes it, after something else was done. -/
  | wake (latch : Nat) (first : ExitHook)
  | report (channel : Nat) (label : String)
  /-- Has it done by another session, or at once when that session has exited. -/
  | inParent (parent : SessionId) (hook : ExitHook)
  deriving DecidableEq, Repr, Inhabited

/-- What a session does behind its script. -/
inductive AfterScript where
  | interactive
  | exit
  deriving DecidableEq, Repr, Inhabited

inductive ScriptSource where
  | bytes (bytes : Bytes)
  | file (id : Nat)
  deriving DecidableEq, Repr, Inhabited

/-- What a session does whenever no task waits. -/
inductive MainTask where
  | interactive
  | script (source : ScriptSource) (name : String) (after : AfterScript)
  | compile (job : JobId)
  | batch (targets : List String)
  deriving DecidableEq, Repr, Inhabited

def MainTask.isInteractive : MainTask → Bool
  | .interactive => true
  | _ => false

/-- A task in parts, each of which can be missing: notes a tag, exits, evaluates a text, fails,
crashes, prints. -/
structure TaskScript where
  note : Option String
  exit : Option Int
  eval : Option String
  fail : Option Fault
  crashes : Bool
  print : Option String
  deriving DecidableEq, Repr, Inhabited

inductive Task where
  | boot (language : Language)
  | runHook (hook : ExitHook) (code : Int)
  | script (s : TaskScript)
  deriving DecidableEq, Repr, Inhabited

structure Session where
  name : String
  script : Option String
  current : Bool
  focus : FairSemaphore
  tasks : List Task
  mailbox : Nat
  /-- Whether a prompt of this session waits for its reply. -/
  asking : Bool
  jobs : List JobId
  language : Option Language
  owner : Option ThreadId
  disposed : Bool
  exitCode : Option Int
  interpreter : Option (Interpreter SessionId)
  main : Option MainTask
  exitHook : Option ExitHook
  compiling : Option JobId
  prompt : PromptFormatter
  deriving Inhabited

namespace Session

def new (name : String) (script : Option String) (mailbox : Nat) (mode : EscapeMode) : Session where
  name := name
  script := script
  current := false
  focus := .new 1
  tasks := []
  mailbox := mailbox
  asking := false
  jobs := []
  language := none
  owner := none
  disposed := false
  exitCode := none
  interpreter := none
  main := none
  exitHook := none
  compiling := none
  prompt := .new mode

def isLive (s : Session) : Bool :=
  !s.disposed

def languageName? (s : Session) : Option String :=
  s.language.map (·.name)

end Session

end SessionShell
