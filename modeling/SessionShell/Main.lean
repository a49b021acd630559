import SessionShell.CommandLine.Invocation

/-!
The program: a run over the terminal and over the files of the working directory and of the
settings directory. They are read at the start; whatever is changed in them is written back as the
run goes on.
-/

namespace SessionShell.Terminal

def processors : Nat := 8

/-! ## Files -/

/-- Adds what is found under a full path. What cannot be read is left out. -/
partial def load (fs : FileSystem) (path : String) : IO FileSystem := do
  try
    let place := (← IO.currentDir) / path
    match (← place.symlinkMetadata).type with
    | .symlink =>
      let target := (← IO.FS.realPath place).toString
      let fs := (fs.makeLink path target).toOption.getD fs
      if fs.pathExists target then return fs else load fs target
    | .dir =>
      let fs := (fs.makeDirectories path).2
      (← place.readDir).foldlM (fun fs entry => load fs (Path.join path entry.fileName)) fs
    | .file =>
      let bytes ← IO.FS.readBinFile place
      return (fs.writeFile path bytes.toList).toOption.getD fs
    | .other => return fs
  catch _ => return fs

/-- Writes back what has changed under a full path. -/
partial def store (before after : FileSystem) (id : Nat) (path : String) : IO Unit := do
  match after.nodes[id]? with
  | some (.file bytes) =>
    unless before.nodes[id]? = some (.file bytes) do
      IO.FS.writeBinFile path ⟨bytes.toArray⟩
  | some (.directory entries) =>
    if before.nodes[id]?.isNone then IO.FS.createDirAll path
    for (name, child) in entries do
      store before after child (path ++ "/" ++ name)
  | _ => pure ()

def environment : IO Settings.Environment := do
  let values ← Settings.variableNames.filterMapM fun name => do
    return (← IO.getEnv name).map (name, ·)
  return fun name => values.lookup name

/-- The files of the working directory, and those that settings and scripts are kept in. -/
def loadFiles (env : Settings.Environment) : IO FileSystem := do
  let here := (← IO.currentDir).toString
  let fs ← load .empty here
  let fs := (fs.changeDirectory here).toOption.getD fs
  let fs ← match Settings.homeDir? env with
    | some home => load fs (Path.join here (Path.join home Settings.directoryName))
    | none => pure fs
  let settings := Settings.load processors fs env
  load fs (Path.join here (settings.preloadDirectory env))

/-! ## Terminal -/

/-- Input up to the next line end, or up to an end of input. -/
partial def readLine (input : IO.FS.Stream) (line : Bytes) : IO Bytes := do
  match (← input.read 1).toList with
  | [] => return line
  | bytes =>
    let line := line ++ bytes
    if bytes.contains Reader.lineEnd then return line else readLine input line

def titles (s : Shell) : List String :=
  s.events.toList.filterMap fun
    | .progress batch => some (Progress.showTitle batch)
    | _ => none

/-- Shows what has been written between two states. -/
def display (before after : Shell) : IO Unit := do
  let out ← IO.getStdout
  let err ← IO.getStderr
  out.putStr (String.join (after.console.outWritten.toList.drop before.console.outWritten.size))
  out.flush
  err.putStr (String.join (after.console.errWritten.toList.drop before.console.errWritten.size))
  err.putStr (String.join ((titles after).drop (titles before).length))
  err.flush

/-- Waits for somebody to end a run that cannot go on. -/
partial def idle : IO UInt32 := do
  IO.sleep 1000
  idle

/-- Shows where a run stands and lets it go on with more input, until it ends. -/
partial def attend (before : Shell) (m : Machine Shell Role) : IO UInt32 := do
  display before m.shared
  store before.world.files m.shared.world.files 0 ""
  match m.shared.completion.status with
  | some status => return UInt32.ofNat status
  | none =>
    if m.shared.console.reader.closed then idle
    else
      let line ← readLine (← IO.getStdin) []
      if line.isEmpty && m.shared.console.endIsFinal then attend m.shared (Shell.closeInput m)
      else attend m.shared (Shell.feed line m)

def run (arguments : List String) : IO UInt32 := do
  let env ← environment
  let files ← loadFiles env
  let invocation : Invocation := {
    arguments, env, files
    input := ⟨[], false⟩
    endIsFinal := !(← (← IO.getStdin).isTty)
    processors
    watched := ← (← IO.getStderr).isTty }
  match invocation.launch with
  | .over completion =>
    (← IO.getStdout).putStr completion.out
    (← IO.getStderr).putStr completion.err
    store files completion.files 0 ""
    return UInt32.ofNat (completion.status.getD 0)
  | .running m =>
    let before := Shell.ofInvocation invocation m.shared.settings files
    attend before m

end SessionShell.Terminal

def main (arguments : List String) : IO UInt32 :=
  SessionShell.Terminal.run arguments
