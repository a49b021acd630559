import SessionShell.CommandLine.Arguments
import SessionShell.CommandLine.Help
import SessionShell.Shell.Life

/-!
One run of the program: from its arguments and surroundings to a first session, or to the end at
once when there is nothing to run. The run ends with the last session.
-/

namespace SessionShell

structure Invocation where
  arguments : List String
  env : Settings.Environment
  files : FileSystem
  input : Reader
  endIsFinal : Bool
  processors : Nat
  /-- Whether somebody looks at the progress of a file that is compiled. -/
  watched : Bool

structure Completion where
  /-- The exit status, unless the run goes on for ever. -/
  status : Option Nat
  out : String
  err : String
  files : FileSystem
  deriving DecidableEq, Repr

inductive FirstTask where
  | interactive
  | batch (targets : List String)
  | compile (target : CompileTarget) (source output : String) (options : TargetOptions)

namespace CommandLine

/-- What the arguments give the first session to do. -/
def firstTask (line : CommandLine) : Except Fault FirstTask :=
  match line.compile with
  | some (source, output) =>
    let name := line.target.getD CompileTarget.raw.name
    match CompileTarget.ofName? name with
    | some target => .ok (.compile target source output line.options)
    | none => .error (Shell.unknownTarget name)
  | none =>
    if line.targets.isEmpty then .ok .interactive else .ok (.batch line.targets)

end CommandLine

def logName : String := "cuf.log"

/-- Makes a log where there is none. A log that cannot be made is done without. -/
def FileSystem.withLog (fs : FileSystem) (dir : String) : FileSystem :=
  let path := Path.join dir logName
  let fs := (fs.makeDirectories ((parentPath? path).getD "")).2
  if fs.pathExists path then fs
  else match fs.create path with
    | .ok (_, fs) => fs
    | .error _ => fs

namespace Fault

/-- How the program tells that it cannot run: the causes follow, numbered if there are several. -/
def report (f : Fault) : String :=
  let causes := match f.causes with
    | [] => ""
    | [cause] => "\nCaused by:\n    " ++ cause ++ "\n"
    | causes => "\nCaused by:\n" ++ String.join (causes.zipIdx.map fun (cause, i) =>
        "    " ++ toString i ++ ": " ++ cause ++ "\n")
  "Error: " ++ f.message ++ "\n" ++ causes

end Fault

namespace Shell

def setFirstTask (id : SessionId) (watched : Bool) : FirstTask → Checked Unit
  | .interactive => setMain id .interactive
  | .batch targets => setMain id (.batch targets)
  | .compile target source output options =>
    setCompile id (target.task source output options) watched false

def startFirst (name language : String) (task : FirstTask) (watched : Bool) : Checked Unit := do
  let id ← newSession name none
  setFirstTask id watched task
  start id language

/-- How the start of the first session failed, if it did. -/
def startFailure? (s : Shell) : Option Fault :=
  s.answers.toList.findSome? fun
    | (_, .failed fault) => some fault
    | _ => none

def unknownLanguage (s : Shell) : Fault :=
  Fault.plain ("unknown language '" ++ s.settings.language ++ "' (available: "
    ++ ", ".intercalate s.languages.names ++ ")")

/-- The shell ahead of its first session. The thread that makes it must not wait for a session. -/
def ofInvocation (i : Invocation) (settings : Settings) (files : FileSystem) : Shell :=
  { Shell.new settings (Preload.load files (settings.preloadDirectory i.env)) files i.input
      i.endIsFinal true with
    uiThread := some mainThread }

def outText (s : Shell) : String :=
  String.join s.console.outWritten.toList

def errText (s : Shell) : String :=
  String.join s.console.errWritten.toList

/-- Where a shell stands whose first session was started. -/
def completion (s : Shell) : Completion :=
  ⟨s.ended.map ExitCode.status, s.outText, s.errText, s.world.files⟩

/-- More input arrives, after which everything runs until it is blocked. -/
def feed (chunk : Bytes) (m : Machine Shell Role) : Machine Shell Role :=
  settle (life.spawn mainThread (consolePlace.feed chunk) m)

def closeInput (m : Machine Shell Role) : Machine Shell Role :=
  settle (life.spawn mainThread
    (consolePlace.modify fun c => { c with reader := { c.reader with closed := true } }) m)

end Shell

/-- What the program comes to with its arguments alone. -/
inductive Launch where
  | over (c : Completion)
  | running (m : Machine Shell Role)

namespace Invocation

def endedWith (status : Nat) (err : String) (files : FileSystem) : Launch :=
  .over ⟨some status, "", err, files⟩

def failedWith (fault : Fault) (files : FileSystem) : Launch :=
  endedWith 1 fault.report files

/-- Starts the first session, in a known language. -/
def launchShell (i : Invocation) (line : CommandLine) : Launch :=
  let settings := (line.apply (Settings.load i.processors i.files i.env)).withColourWish i.env
  let files := if settings.log then i.files.withLog (settings.preloadDirectory i.env) else i.files
  match line.firstTask with
  | .error fault => failedWith fault files
  | .ok task =>
    let shell := Shell.ofInvocation i settings files
    match shell.languages.lookup? settings.language with
    | none => failedWith shell.unknownLanguage files
    | some _ =>
      let m := Shell.call
        (Shell.answerDone (Shell.startFirst settings.shellName settings.language task i.watched))
        ⟨shell, []⟩
      match m.shared.startFailure? with
      | some fault =>
        failedWith (fault.context ("cannot start session '" ++ settings.shellName ++ "'")) files
      | none => .running m

def usageHint : String :=
  "Use --help for usage information\n"

/-- Does what the arguments ask for, as far as the input goes that is there. -/
def launch (i : Invocation) : Launch :=
  match CommandLine.read i.arguments with
  | .error message => endedWith 1 ("Error: " ++ message ++ "\n" ++ usageHint) i.files
  | .ok .help => endedWith 0 helpText i.files
  | .ok .version => endedWith 0 versionText i.files
  | .ok (.run line) => i.launchShell line

def run (i : Invocation) : Completion :=
  match i.launch with
  | .over c => c
  | .running m => m.shared.completion

end Invocation

end SessionShell
