import SessionShell.Text.Blank

/-!
Paths as texts. A path is absolute when it starts with a slash; repeated slashes and single dots
between them mean nothing.
-/

namespace SessionShell.Path

def isAbsolute (path : String) : Bool :=
  path.toList.head? == some '/'

inductive Component where
  | root
  | current
  | parent
  | normal (name : String)
  deriving DecidableEq, Repr

/-- The components of a relative path behind its first one, or of what follows a root. -/
def inner (names : List String) : List Component :=
  names.filterMap fun name =>
    if name = "" ∨ name = "." then none
    else if name = ".." then some .parent
    else some (.normal name)

/-- A single dot counts at the beginning of a relative path only. -/
def components (path : String) : List Component :=
  let names := Text.split '/' path
  if isAbsolute path then .root :: inner names
  else match names with
    | "." :: rest => .current :: inner rest
    | names => inner names

def fileName? (path : String) : Option String :=
  match (components path).getLast? with
  | some (.normal name) => some name
  | _ => none

/-- What follows the last dot of the file's name, unless the name starts with its only dot. -/
def extension? (path : String) : Option String :=
  (fileName? path).bind fun name =>
    match (Text.split '.' name).reverse with
    | [] | [_] => none
    | [_, ""] => none
    | last :: _ => some last

/-- `second` itself if it is absolute, else `second` inside `first`. -/
def join (first second : String) : String :=
  if isAbsolute second then second
  else if first = "" ∨ first.toList.getLast? = some '/' then first ++ second
  else first ++ "/" ++ second

end SessionShell.Path
