import SessionShell.Shell.Batch
import SessionShell.Shell.Evaluation

/-!
The loop of a session: it runs the tasks that wait for it in order, and a turn of its main task
whenever none waits, until it is disposed of.
-/

namespace SessionShell.Shell

/-! ## Tasks -/

def takeTask (id : SessionId) : Action Shell (Option Task) :=
  Action.step fun s =>
    match (s.session id).tasks with
    | [] => (none, s)
    | task :: tasks => (some task, modifySession id (fun session => { session with tasks }) s)

/-- What a task comes to when all its parts are done: the last of them that has a result. -/
def runScript (id : SessionId) (t : TaskScript) : ExceptT Fault (Action Shell) (Option String) := do
  match t.note with
  | some tag => note (.ran tag (← currentThread))
  | none => pure ()
  match t.exit with
  | some code => ExceptT.mk (asFault (exit id code))
  | none => pure ()
  match t.eval with
  | some text => evaluate id text none
  | none =>
    match t.fail with
    | some fault => throw fault
    | none => if t.crashes then ExceptT.mk .crash else return t.print

def perform (id : SessionId) : Task → ExceptT Fault (Action Shell) (Option String)
  | .boot language => do
    boot id language
    return none
  | .runHook hook code => do
    runHook code hook
    return none
  | .script t => runScript id t

def sayResult (id : SessionId) (result : Option (Option String)) : Action Shell Unit :=
  match result with
  | some (some text) => sayLine id text
  | _ => pure ()

def runTask (id : SessionId) (task : Task) : Action Shell Unit := do
  sayResult id (← guarded id (perform id task))

/-! ## Statements -/

/-- Hands the focus on when input ends but can go on for another session. Else the session ends. -/
def onEndOfInput (id : SessionId) : Action Shell Unit := do
  let count ← sessionCount
  let endIsFinal ← Action.read (·.console.endIsFinal)
  let handedOn ←
    if 1 < count ∧ ¬endIsFinal then
      match ← indexOf id with
      | some index => do
        match ← (jumpTo id ((index + 1) % count)).run with
        | .ok () => pure true
        | .error _ => pure false
      | none => pure false
    else pure false
  unless handedOn do discard (exitWith id .noInput).run

def evaluateStatement (id : SessionId) (statement : String) : Action Shell Unit := do
  unless (Text.trim statement).isEmpty do
    sayResult id (← guarded id (evaluate id statement none))

/-- The statement without the character at its end that makes it go on, if that is there. -/
def continued? (mark : Char) (statement : String) : Option String :=
  if statement.toList.getLast? = some mark then some (String.ofList statement.toList.dropLast)
  else none

/-- Back to the loop. A session that has nothing else to do becomes interactive. -/
def rest (id : SessionId) : Action Shell Phase := do
  updateSession id fun session =>
    if session.disposed ∨ session.main.isSome then session
    else { session with main := some .interactive }
  return .idle

/-- Reads a line of a statement, which may go on from lines before. -/
def readStatement (id : SessionId) (before : Option String) : Action Shell Phase := do
  let text ← renderPrompt id before.isSome
  match ← (prompt id text).run with
  | .error e =>
    if ← isLive id then reportError e
    rest id
  | .ok .endOfInput =>
    match before with
    | none => onEndOfInput id
    | some statement => evaluateStatement id statement
    rest id
  | .ok (.line line) =>
    let statement := before.elim line fun s => s ++ "\n" ++ line
    let settings ← getSettings
    match continued? settings.prompt.continueChar statement with
    | some statement => return .reading statement
    | none =>
      evaluateStatement id statement
      rest id

/-! ## Scripts -/

/-- Reads a whole script, whatever has become of its name. -/
def readScript (source : ScriptSource) : Action Shell (Except IoError String) :=
  Action.read fun s => do
    let bytes ← match source with
      | .bytes bytes => pure bytes
      | .file id => s.world.files.contents id
    FileSystem.textOf bytes

def interpret (id : SessionId) (source : ScriptSource) (name : String) :
    ExceptT Fault (Action Shell) (Option String) := do
  let text : Except IoError String ← ExceptT.lift (readScript source)
  match text with
  | .error e => throw ((e : Fault).context ("cannot read " ++ name))
  | .ok text => evaluate id text (some name)

/-- Ends a session behind its script, or hands its focus on. -/
def afterScript (id : SessionId) : AfterScript → Action Shell Unit
  | .exit => discard (exitWith id .success).run
  | .interactive => do
    let count ← sessionCount
    if 1 < count ∧ (← getSession id).current then
      match ← indexOf id with
      | some index => discard (jumpTo id ((index + 1) % count)).run
      | none => pure ()

def runScriptMain (id : SessionId) (source : ScriptSource) (name : String) (after : AfterScript) :
    Action Shell Unit := do
  sayResult id (← guarded id (interpret id source name))
  let session ← getSession id
  if session.isLive ∧ session.exitCode.isNone then afterScript id after

/-! ## The loop -/

def takeMain (id : SessionId) : Action Shell MainTask :=
  Action.step fun s =>
    ((s.session id).main.getD .interactive,
      modifySession id (fun session => { session with main := none }) s)

def runMain (id : SessionId) : Action Shell Phase := do
  match ← takeMain id with
  | .interactive => readStatement id none
  | .script source name after =>
    runScriptMain id source name after
    rest id
  | .compile job =>
    runCompile id job
    rest id
  | .batch targets => beginBatch targets

def finishBatch (id : SessionId) (run : BatchRun) : Action Shell Phase := do
  if ← isLive id then discard (finish id run.code true true).run
  rest id

/-- A child that is still leaving the registry must not be taken for the last session. -/
def linger (id : SessionId) (run : BatchRun) : Action Shell Phase := do
  let hostLive ← isLive id
  if hostLive && (← anyChildLive run) then
    worldPlace.sleep Batch.lingerStep
    return .lingering run
  else finishBatch id run

/-- The session's thread, from one phase to the next. -/
def advance (id : SessionId) : Phase → Action Shell (Option Phase)
  | .entering => do
    let me ← currentId
    updateSession id fun session => { session with owner := some me }
    return some .idle
  | .idle => do
    if ← isLive id then
      match ← takeTask id with
      | some task =>
        runTask id task
        return some .idle
      | none => if ← isLive id then return some (← runMain id) else return none
    else return none
  | .reading statement => do return some (← readStatement id (some statement))
  | .batch run => do return some (← nextTarget id run)
  | .collecting run last => do return some (← collect id run last)
  | .lingering run => do return some (← linger id run)

end SessionShell.Shell
