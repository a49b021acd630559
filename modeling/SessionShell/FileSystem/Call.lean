import SessionShell.FileSystem.Access

/-!
What a running program asks of the file system, one question at a time.
-/

namespace SessionShell

/-- Open files are known by their nodes. -/
inductive FileCall where
  | isFile (path : String)
  | size (path : String)
  | openForReading (path : String)
  | makeDirectories (path : String)
  | create (path : String)
  | read (file offset count : Nat)
  | write (file offset : Nat) (bytes : Bytes)
  deriving DecidableEq, Repr

namespace FileCall

def Reply : FileCall → Type
  | .isFile _ => Bool
  | .size _ | .openForReading _ | .create _ => Except IoError Nat
  | .makeDirectories _ | .write .. => Except IoError Unit
  | .read .. => Except IoError Bytes

/-- Answers a question. One that fails leaves the files as they are, but for directories made on the
way to one that cannot be made. -/
def perform (fs : FileSystem) : (c : FileCall) → c.Reply × FileSystem
  | .isFile path => (fs.isFile path, fs)
  | .size path => (fs.size path, fs)
  | .openForReading path => (fs.openForReading path, fs)
  | .makeDirectories path => fs.makeDirectories path
  | .create path =>
    match fs.create path with
    | .ok (file, fs) => (.ok file, fs)
    | .error e => (.error e, fs)
  | .read file offset count => (fs.readAt file offset count, fs)
  | .write file offset bytes => (.ok (), fs.writeAt file offset bytes)

end FileCall

end SessionShell
