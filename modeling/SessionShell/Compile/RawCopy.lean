import SessionShell.Compile.Build
import SessionShell.Number.Read
import SessionShell.Table

/-!
The target `raw`: copies a source to an output, a chunk at a time.
-/

namespace SessionShell

abbrev TargetOptions := Table String

inductive CompileTarget where
  | raw
  deriving DecidableEq, Repr, Inhabited

namespace CompileTarget

def name : CompileTarget → String
  | .raw => "raw"

def ofName? (s : String) : Option CompileTarget :=
  if s = CompileTarget.raw.name then some .raw else none

end CompileTarget

namespace RawCopy

def defaultChunk : Nat := 64 * 1024

def bufferLimit : Nat := 0x8000000000000000

def chunkSize (options : TargetOptions) : Build Nat :=
  match options.get? "chunk_size" with
  | none => pure defaultChunk
  | some value =>
    match Number.readWord? value with
    | some (n + 1) => pure (n + 1)
    | _ => throw (Fault.plain ("invalid chunk_size '" ++ value ++ "'"))

def share (copied total : Nat) : Option (UInt64 × UInt64) :=
  some (UInt64.ofNat copied, UInt64.ofNat total)

/-- Copies from one open file to another until nothing is left to read, at most `fuel` chunks.
Answers how many bytes were copied. -/
def copyChunks (source output chunk total : Nat) : Nat → Nat → Build Nat
  | 0, copied => return copied
  | fuel + 1, copied => do
    Build.checkpoint
    let bytes ← Build.orFail (← Build.file (.read source copied chunk))
    if bytes.isEmpty then return copied
    Build.orFail (← Build.file (.write output copied bytes))
    let copied := copied + bytes.length
    Build.post (toString copied ++ " bytes") (share copied total)
    copyChunks source output chunk total fuel copied

/-- A chunk that is read holds at least a byte, so reading comes to the end after as many chunks as
there were bytes at first. -/
def copy (source output : String) (options : TargetOptions) : Build Nat := do
  let chunk ← chunkSize options
  let total ← Build.orFail (← Build.file (.size source))
  let sourceFile ← Build.orFail (← Build.file (.openForReading source))
  match FileSystem.parentPath? output with
  | some parent => Build.orFail (← Build.file (.makeDirectories parent))
  | none => pure ()
  let outputFile ← Build.orFail (← Build.file (.create output))
  if bufferLimit ≤ chunk then Build.crash
  copyChunks sourceFile outputFile chunk total (total + 1) 0

def build (source output : String) (options : TargetOptions) : Build String := do
  let found : Bool ← Build.file (.isFile source)
  unless found do
    throw (Fault.plain ("no such source file: " ++ source))
  Build.post ("compiling " ++ source) none
  let written ← Build.within ("compiling " ++ source ++ " to " ++ output)
    (copy source output options)
  Build.post (toString written ++ " bytes written") none
  return output

end RawCopy

def CompileTarget.task (target : CompileTarget) (source output : String)
    (options : TargetOptions) : CompileTask where
  title := target.name ++ " " ++ (Path.fileName? source).getD source
  build := match target with
    | .raw => RawCopy.build source output options
  doneMessage output := "wrote " ++ output

end SessionShell
