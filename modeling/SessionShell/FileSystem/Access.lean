import SessionShell.FileSystem.Basic

/-!
Reading and writing in a file system. An open file is known by its node, so it stays the same file
whatever happens to its names.
-/

namespace SessionShell.FileSystem

/-! ## Reading -/

/-- Opens for reading. A directory can be opened, but not read. -/
def openForReading (fs : FileSystem) (path : String) : Except IoError Nat :=
  return nodeId (← fs.locate path)

/-- At most `count` bytes behind the first `offset`. -/
def readAt (fs : FileSystem) (id offset count : Nat) : Except IoError Bytes :=
  match fs.nodes[id]? with
  | some (.file bytes) => .ok ((bytes.drop offset).take count)
  | some (.directory _) => .error .isDirectory
  | _ => .error .notFound

def contents (fs : FileSystem) (id : Nat) : Except IoError Bytes :=
  match fs.nodes[id]? with
  | some (.file bytes) => .ok bytes
  | some (.directory _) => .error .isDirectory
  | _ => .error .notFound

def readBytes (fs : FileSystem) (path : String) : Except IoError Bytes := do
  fs.contents (← fs.openForReading path)

def textOf (bytes : Bytes) : Except IoError String :=
  match bytes.text? with
  | some s => .ok s
  | none => .error .notText

def readText (fs : FileSystem) (path : String) : Except IoError String := do
  textOf (← fs.readBytes path)

def size (fs : FileSystem) (path : String) : Except IoError Nat := do
  match fs.node? (← fs.locate path) with
  | some (.file bytes) => return bytes.length
  | _ => return 0

/-! ## Writing -/

def setNode (fs : FileSystem) (id : Nat) (node : Node) : FileSystem :=
  { fs with nodes := fs.nodes.setIfInBounds id node }

def addEntry (fs : FileSystem) (place : Place) (name : String) (node : Node) : FileSystem :=
  match fs.node? place with
  | some (.directory entries) =>
    let id := fs.nodes.size
    let fs := fs.setNode (nodeId place) (.directory (entries ++ [(name, id)]))
    { fs with nodes := fs.nodes.push node }
  | _ => fs

/-- The last name of a path, those before it, and whether a slash follows it. -/
structure LastName where
  before : List String
  name : String
  slash : Bool
  deriving DecidableEq, Repr

def lastName (names : List String) : LastName :=
  match names.reverse.dropWhile (· = "") with
  | [] => ⟨[], "", true⟩
  | name :: before => ⟨before.reverse, name, names.getLast? = some ""⟩

def isDots (name : String) : Bool :=
  name = "" || name = "." || name = ".."

/-- Makes the file that names lead to, or empties it. A link to a missing file makes that file. -/
def createFrom (fs : FileSystem) (links : Nat) (place : Place) (names : List String) :
    Except IoError (Nat × FileSystem) :=
  let last := lastName names
  match fs.walk links place last.before with
  | .error e => .error e
  | .ok (left, parent) =>
    match fs.node? parent with
    | some (.directory entries) =>
      if last.slash || isDots last.name then .error .isDirectory
      else if maxNameBytes < last.name.utf8ByteSize then .error .nameTooLong
      else match entries.lookup last.name with
        | none => .ok (fs.nodes.size, fs.addEntry parent last.name (.file []))
        | some id =>
          match fs.nodes[id]? with
          | some (.directory _) => .error .isDirectory
          | some (.link target) =>
            -- A walk never leaves more links than it had.
            if _ : 0 < left ∧ left ≤ links then
              createFrom fs (left - 1) (if Path.isAbsolute target then [] else parent)
                (Text.split '/' target)
            else .error .tooManyLinks
          | _ => .ok (id, fs.setNode id (.file []))
    | _ => .error .notDirectory
  termination_by links
  decreasing_by omega

def create (fs : FileSystem) (path : String) : Except IoError (Nat × FileSystem) := do
  checked path
  fs.createFrom maxLinks (fs.startOf path) (Text.split '/' path)

/-- Puts bytes behind the first `offset` of a file, over what is there. -/
def writeAt (fs : FileSystem) (id offset : Nat) (bytes : Bytes) : FileSystem :=
  match fs.nodes[id]? with
  | some (.file old) =>
    let kept := old.take offset ++ List.replicate (offset - old.length) 0
    fs.setNode id (.file (kept ++ bytes ++ old.drop (offset + bytes.length)))
  | _ => fs

def makeDirectory (fs : FileSystem) (path : String) : Except IoError FileSystem := do
  checked path
  let last := lastName (Text.split '/' path)
  let (_, parent) ← fs.walk maxLinks (fs.startOf path) last.before
  match fs.node? parent with
  | some (.directory entries) =>
    if isDots last.name || (entries.lookup last.name).isSome then throw .alreadyExists
    else if maxNameBytes < last.name.utf8ByteSize then throw .nameTooLong
    else return fs.addEntry parent last.name (.directory [])
  | _ => throw .notDirectory

/-- The names of a path without what means nothing at its end. The first name always counts: it is
blank at the root and a single dot at the beginning of a relative path. -/
def withoutBlankEnd : List String → List String
  | [] => []
  | first :: rest => first :: (rest.reverse.dropWhile fun name => name = "" || name = ".").reverse

/-- The path without its last component, as it is written up to there. -/
def parentPath? (path : String) : Option String :=
  match withoutBlankEnd (Text.split '/' path) with
  | [] | [""] => none
  | names =>
    match withoutBlankEnd names.dropLast with
    | [""] => some "/"
    | before => some ("/".intercalate before)

/-- Makes a directory and those above it that are missing, at most `fuel` of them. If one cannot be
made, those made before it stay. -/
def makeDirectoriesFrom (fs : FileSystem) : Nat → String → Except IoError Unit × FileSystem
  | 0, _ => (.error .notFound, fs)
  | fuel + 1, path =>
    let make (fs : FileSystem) : Except IoError Unit × FileSystem :=
      match fs.makeDirectory path with
      | .ok fs => (.ok (), fs)
      | .error e => (if fs.isDirectory path then .ok () else .error e, fs)
    if path = "" then (.ok (), fs)
    else match fs.makeDirectory path, parentPath? path with
      | .error .notFound, some parent =>
        match makeDirectoriesFrom fs fuel parent with
        | (.ok (), fs) => make fs
        | (.error e, fs) => (.error e, fs)
      | _, _ => make fs

/-- A path has fewer components than characters, which bounds how many directories are missing. -/
def makeDirectories (fs : FileSystem) (path : String) : Except IoError Unit × FileSystem :=
  fs.makeDirectoriesFrom (path.length + 1) path

/-- Adds a link under a path whose directory exists. -/
def makeLink (fs : FileSystem) (path target : String) : Except IoError FileSystem := do
  checked path
  let last := lastName (Text.split '/' path)
  let (_, parent) ← fs.walk maxLinks (fs.startOf path) last.before
  match fs.node? parent with
  | some (.directory entries) =>
    if isDots last.name || (entries.lookup last.name).isSome then throw .alreadyExists
    else return fs.addEntry parent last.name (.link target)
  | _ => throw .notDirectory

/-- Writes a whole file, with the directories above it. -/
def writeFile (fs : FileSystem) (path : String) (bytes : Bytes) : Except IoError FileSystem := do
  let (made, fs) := match parentPath? path with
    | some parent => fs.makeDirectories parent
    | none => (.ok (), fs)
  made
  let (id, fs) ← fs.create path
  return fs.writeAt id 0 bytes

def changeDirectory (fs : FileSystem) (path : String) : Except IoError FileSystem := do
  return { fs with workingDirectory := ← fs.locate path }

end SessionShell.FileSystem
