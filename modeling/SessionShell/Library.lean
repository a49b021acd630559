import SessionShell.FileSystem.Access

/-!
The library path: archives that were linked, in order, each by its full path and once only.
-/

namespace SessionShell

/-- What linking asks of the files that there are. -/
structure FileView where
  isFile : String → Bool
  /-- The full path without links, if the path leads anywhere. -/
  canonical : String → Except IoError String
  start : String → Nat → Except IoError Bytes

def FileSystem.view (fs : FileSystem) : FileView where
  isFile := fs.isFile
  canonical := fs.canonical
  start path count := do fs.readAt (← fs.openForReading path) 0 count

instance : Coe FileSystem FileView where
  coe fs := fs.view

abbrev LibraryPath := List String

namespace LibraryPath

def signatures : List Bytes :=
  [[0x50, 0x4B, 0x03, 0x04], [0x50, 0x4B, 0x05, 0x06], [0x50, 0x4B, 0x07, 0x08]]

def isArchive (files : FileView) (path : String) : Except IoError Bool :=
  return signatures.contains (← files.start path 4)

/-- Appends an archive that is not on the path yet, and tells its full path. -/
def link (entries : LibraryPath) (files : FileView) (path : String) :
    Except LinkError (String × LibraryPath) :=
  if ¬files.isFile path then .error (.missing path)
  else match files.canonical path with
    | .error e => .error (.unreadable path e)
    | .ok full =>
      match isArchive files full with
      | .error e => .error (.unreadable full e)
      | .ok false => .error (.notArchive full)
      | .ok true =>
        if entries.contains full then .error (.alreadyLinked full)
        else .ok (full, entries ++ [full])

end LibraryPath

end SessionShell
