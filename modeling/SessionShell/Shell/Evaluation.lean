import SessionShell.Shell.Jobs
import SessionShell.Shell.Starting

/-!
Evaluation: a session's interpreter works on the session's own thread, and a script asks of the
session whose name it uses.
-/

namespace SessionShell.Shell

/-! ## The shell as scripts see it -/

def asFault {α : Type} (act : Checked α) : Action Shell (Except Fault α) := do
  match ← act.run with
  | .ok a => return .ok a
  | .error e => return .error (e : Fault)

/-- Adds a library to the path. Tells whether it was added. -/
def link (id : SessionId) (path : String) : Action Shell Bool := do
  match ← (ensureLive id).run with
  | .error e =>
    reportError e
    return false
  | .ok () =>
    let result ← Action.step fun s =>
      match s.libraries.link s.world.files.view path with
      | .ok (_, libraries) => (none, { s with libraries })
      | .error e => (some e, s)
    match result with
    | none => return true
    | some e =>
      match e with
      | .alreadyLinked _ => warning e.message
      | _ => reportError (Fault.of (.link e))
      return false

/-- A line for each registered session. The one in focus has a star. -/
def list : Action Shell String :=
  Action.read fun s =>
    "\n".intercalate (s.registry.zipIdx.map fun (id, index) =>
      let session := s.session id
      "[" ++ toString index ++ "] " ++ (if session.current then "*" else " ") ++ " " ++ session.name
        ++ " (" ++ session.languageName?.getD "-" ++ ")"
        ++ session.script.elim "" fun path => " " ++ path)

def waitAt (index : Nat) : Checked Int := do
  match ← sessionAt index with
  | none => throw (.indexOutOfRange index (← sessionCount))
  | some target => awaitExit target .nothing

/-- Starts a child with a script, and tells its index. -/
def forkScript (id : SessionId) (script : String) : Checked (Option Nat) := do
  match ← fork id { script := some script } with
  | some child => indexOf child
  | none => return none

def answerHost : (r : HostRequest SessionId) → Action Shell r.Reply
  | ⟨id, .name⟩ => do return (← getSession id).name
  | ⟨id, .out text⟩ => asFault (out id text)
  | ⟨id, .exit code⟩ => asFault (exit id code)
  | ⟨id, .jump index⟩ => asFault (jumpTo id index)
  | ⟨id, .fork script⟩ => asFault (forkScript id script)
  | ⟨id, .link path⟩ => do return .ok (← link id path)
  | ⟨id, .kill code?⟩ => asFault (killAll id code?)
  | ⟨_, .list⟩ => do return .ok (← list)
  | ⟨_, .wait index⟩ => asFault (waitAt index)
  | ⟨id, .compile source output⟩ =>
    (compile id source output CompileTarget.raw.name []).run
  | ⟨id, .cancel index⟩ => asFault (cancelAt id index)
  | ⟨id, .join index⟩ => asFault (join id index)
  | ⟨id, .jobs⟩ => do return .ok (← jobLines id)

/-! ## Evaluation -/

abbrev SessionInterpreter := Interpreter SessionId

/-- Evaluates a text. If that crashes, the interpreter stays as it was before. -/
def evalWith (interpreter : SessionInterpreter) (text : String) (source : Option String) :
    Action Shell (Except Fault (Option String) × SessionInterpreter) := do
  match ← ((interpreter.eval text source).expand answerHost).attempt with
  | some result => return result
  | none => return (.error (Fault.plain "interpreter panicked"), interpreter)

/-- Takes the interpreter for as long as it works. -/
def takeInterpreter (id : SessionId) : Action Shell (Option SessionInterpreter) :=
  Action.step fun s =>
    ((s.session id).interpreter,
      modifySession id (fun session => { session with interpreter := none }) s)

/-- Puts the interpreter back, unless the session has exited. -/
def putInterpreter (id : SessionId) (interpreter : SessionInterpreter) : Action Shell Unit :=
  updateSession id fun session =>
    if session.disposed ∨ session.interpreter.isSome then session
    else { session with interpreter := some interpreter }

def checkOwner (id : SessionId) : Checked Unit := do
  let me ← currentId
  let session ← getSession id
  match session.owner with
  | none => throw (.notStarted session.name)
  | some owner => if owner ≠ me then throw (.wrongThread session.name owner me)

/-- The interpreter of a session, for its own thread. -/
def claimInterpreter (id : SessionId) : Checked SessionInterpreter := do
  checkOwner id
  match ← takeInterpreter id with
  | some interpreter => return interpreter
  | none =>
    ensureLive id
    let session ← getSession id
    throw (.notStarted session.name)

def evaluate (id : SessionId) (text : String) (source : Option String) :
    ExceptT Fault (Action Shell) (Option String) :=
  ExceptT.mk do
    match ← asFault (claimInterpreter id) with
    | .error fault => return .error fault
    | .ok interpreter =>
      let (result, interpreter) ← evalWith interpreter text source
      putInterpreter id interpreter
      return result

/-! ## Preloading -/

/-- Runs the preload script of a session's language. -/
def preloadWith (path : String) (interpreter : SessionInterpreter) :
    Action Shell SessionInterpreter := do
  match ← Action.read fun s => s.world.files.readText path with
  | .error e =>
    reportError ((e : Fault).context ("cannot read preload script " ++ path))
    return interpreter
  | .ok text =>
    let (result, interpreter) ← evalWith interpreter text (some path)
    match result with
    | .error fault => reportError fault
    | .ok _ => pure ()
    return interpreter

/-- What a session says when it is ready for input that goes on behind its end. -/
def greeting (name : String) (language : Language) : String :=
  language.name ++ " " ++ language.version ++ " (" ++ language.engine ++ "). Type "
    ++ Language.methodCall name "exit" [] ++ " to leave."

/-- Gives a session its interpreter, unless it has exited. Tells whether it is interactive. -/
def install (id : SessionId) (interpreter : SessionInterpreter) : Action Shell Bool :=
  Action.step fun s =>
    let session := s.session id
    if session.disposed then (false, s)
    else
      (session.main.all MainTask.isInteractive,
        modifySession id (fun session => { session with interpreter := some interpreter }) s)

/-- Makes the interpreter of a session and runs the preload script of its language. -/
def boot (id : SessionId) (language : Language) : Action Shell Unit := do
  let name := (← getSession id).name
  let interpreter := (Interpreter.ofKind language.kind).bindHost name id
  let script? ← Action.read fun s => s.preload.scriptFor? language.name
  let interpreter ← match script? with
    | some path => preloadWith path interpreter
    | none => pure interpreter
  let interactive ← install id interpreter
  let endIsFinal ← Action.read (·.console.endIsFinal)
  if interactive && !endIsFinal then sayLine id (greeting name language)

end SessionShell.Shell
