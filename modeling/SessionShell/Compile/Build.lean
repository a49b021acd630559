import SessionShell.Fault
import SessionShell.FileSystem.Call
import SessionShell.Program

/-!
Builds. A build reports progress, checks whether its job was cancelled, works with files, and ends
with its output or a fault. How its reports are delivered is the matter of the job that runs it.
-/

namespace SessionShell

inductive WorkCall where
  | isCancelled
  | cancel
  | sleep (ms : Nat)
  | gate (name : String)
  | file (call : FileCall)
  deriving DecidableEq, Repr

def WorkCall.Reply : WorkCall → Type
  | .isCancelled => Bool
  | .cancel | .sleep _ | .gate _ => Unit
  | .file call => call.Reply

inductive BuildCall where
  /-- Reports progress, with how much is done out of how much when that is known. -/
  | post (message : String) (share : Option (UInt64 × UInt64))
  | work (call : WorkCall)
  deriving DecidableEq, Repr

def BuildCall.Reply : BuildCall → Type
  | .post .. => Unit
  | .work call => call.Reply

abbrev Build := ExceptT Fault (Program BuildCall BuildCall.Reply)

namespace Build

variable {α : Type}

def post (message : String) (share : Option (UInt64 × UInt64)) : Build Unit :=
  ExceptT.lift (Program.call (BuildCall.post message share))

def work (call : WorkCall) : Build call.Reply :=
  ExceptT.lift (Program.call (BuildCall.work call))

def file (call : FileCall) : Build call.Reply :=
  work (.file call)

def checkpoint : Build Unit := do
  let cancelled : Bool ← work .isCancelled
  if cancelled then throw (Fault.of .cancelled)

def crash : Build α :=
  ExceptT.mk .crash

def orFail (result : Except IoError α) : Build α :=
  match result with
  | .ok a => pure a
  | .error e => throw (e : Fault)

def within (sentence : String) (b : Build α) : Build α :=
  tryCatch b fun fault => throw (fault.context sentence)

end Build

/-- What a job builds, under which title, and what it says when its output is there. -/
structure CompileTask where
  title : String
  build : Build String
  doneMessage : String → String

namespace CompileTask

def abortMessage (fault : Fault) : String :=
  "aborted: " ++ fault.message

end CompileTask

/-! ## Builds given step by step -/

inductive BuildStep where
  | post (message : String) (share : Option (UInt64 × UInt64)) (times : Nat)
  | checkpoint
  | cancel
  | sleep (ms : Nat)
  | gate (name : String)
  | fail (fault : Fault)
  | crash
  | finish (output : String)
  deriving DecidableEq, Repr

namespace BuildStep

/-- The output of a build that has none of its own. A job builds once. -/
def defaultOutput : String := "build 1"

def build : List BuildStep → Build String
  | [] => return defaultOutput
  | .post message share times :: rest => do
    (List.replicate times ()).forM fun _ => Build.post message share
    build rest
  | .checkpoint :: rest => do
    Build.checkpoint
    build rest
  | .cancel :: rest => do
    Build.work .cancel
    build rest
  | .sleep ms :: rest => do
    Build.work (.sleep ms)
    build rest
  | .gate name :: rest => do
    Build.work (.gate name)
    build rest
  | .fail fault :: _ => throw fault
  | .crash :: _ => Build.crash
  | .finish output :: _ => return output

def task (title : String) (steps : List BuildStep) : CompileTask :=
  ⟨title, build steps, fun output => "built " ++ output⟩

end BuildStep

end SessionShell
