import SessionShell.Fault
import SessionShell.Path

/-!
A file system in memory.

Files, directories and symbolic links are nodes with an identity of their own, so two names can
stand for one file. A path is looked up name by name from the root or from the working directory;
links are followed on the way, at most `maxLinks` of them.
-/

namespace SessionShell

abbrev Bytes := List UInt8

namespace Bytes

def ofText (s : String) : Bytes :=
  s.toUTF8.toList

/-- The text that the bytes are in UTF-8, if they are one. -/
def text? (b : Bytes) : Option String :=
  String.fromUTF8? ⟨b.toArray⟩

end Bytes

inductive Node where
  | file (bytes : Bytes)
  | directory (entries : List (String × Nat))
  | link (target : String)
  deriving DecidableEq, Repr, Inhabited

/-- Where a node was found: the names from it up to the root, with the node of each. -/
abbrev Place := List (String × Nat)

structure FileSystem where
  nodes : Array Node
  workingDirectory : Place
  deriving DecidableEq, Repr, Inhabited

namespace FileSystem

def maxLinks : Nat := 40

def maxNameBytes : Nat := 255

def maxPathBytes : Nat := 4095

def empty : FileSystem :=
  ⟨#[.directory []], []⟩

def nodeId (place : Place) : Nat :=
  match place with
  | [] => 0
  | (_, id) :: _ => id

def node? (fs : FileSystem) (place : Place) : Option Node :=
  fs.nodes[nodeId place]?

def pathOf (place : Place) : String :=
  if place.isEmpty then "/" else String.join (place.reverse.map fun entry => "/" ++ entry.1)

def startOf (fs : FileSystem) (path : String) : Place :=
  if Path.isAbsolute path then [] else fs.workingDirectory

/-- Goes through names from a place, with `follow` from the first link on. Only a directory has
anything behind it, itself included. -/
def walkWith (fs : FileSystem) (links : Nat)
    (follow : Place → List String → Except IoError (Nat × Place)) (place : Place) :
    List String → Except IoError (Nat × Place)
  | [] => .ok (links, place)
  | name :: rest =>
    match fs.node? place with
    | some (.directory entries) =>
      if name = "" ∨ name = "." then walkWith fs links follow place rest
      else if name = ".." then walkWith fs links follow place.tail rest
      else if maxNameBytes < name.utf8ByteSize then .error .nameTooLong
      else match entries.lookup name with
        | none => .error .notFound
        | some id =>
          match fs.nodes[id]? with
          | some (.link target) =>
            follow (if Path.isAbsolute target then [] else place) (Text.split '/' target ++ rest)
          | _ => walkWith fs links follow ((name, id) :: place) rest
    | _ => .error .notDirectory

/-- Goes through names from a place, and tells how many of the `links` may still be followed. -/
def walk (fs : FileSystem) : Nat → Place → List String → Except IoError (Nat × Place)
  | 0 => fs.walkWith 0 fun _ _ => .error .tooManyLinks
  | links + 1 => fs.walkWith (links + 1) (fs.walk links)

theorem links_le_of_walkWith {fs : FileSystem} {links : Nat}
    {follow : Place → List String → Except IoError (Nat × Place)}
    (hfollow : ∀ place names left found, follow place names = .ok (left, found) → left ≤ links)
    {place : Place} {names : List String} {left : Nat} {found : Place}
    (h : fs.walkWith links follow place names = .ok (left, found)) : left ≤ links := by
  fun_induction walkWith fs links follow place names <;> grind

theorem links_le_of_walk {fs : FileSystem} {links : Nat} {place : Place} {names : List String}
    {left : Nat} {found : Place} (h : fs.walk links place names = .ok (left, found)) :
    left ≤ links := by
  induction links generalizing place names left found with
  | zero => exact links_le_of_walkWith (fun _ _ _ _ hfail => by cases hfail) h
  | succ links ih =>
    exact links_le_of_walkWith (fun _ _ _ _ hleft => Nat.le_succ_of_le (ih hleft)) h

def checked (path : String) : Except IoError Unit :=
  if '\x00' ∈ path.toList then .error .nameHoldsNul
  else if path = "" then .error .notFound
  else if maxPathBytes < path.utf8ByteSize then .error .nameTooLong
  else .ok ()

def locate (fs : FileSystem) (path : String) : Except IoError Place := do
  checked path
  return (← fs.walk maxLinks (fs.startOf path) (Text.split '/' path)).2

def lookup? (fs : FileSystem) (path : String) : Option Node :=
  match fs.locate path with
  | .ok place => fs.node? place
  | .error _ => none

def pathExists (fs : FileSystem) (path : String) : Bool :=
  (fs.locate path).toOption.isSome

def isFile (fs : FileSystem) (path : String) : Bool :=
  match fs.lookup? path with
  | some (.file _) => true
  | _ => false

def isDirectory (fs : FileSystem) (path : String) : Bool :=
  match fs.lookup? path with
  | some (.directory _) => true
  | _ => false

/-- The full path without links, if the path leads anywhere. -/
def canonical (fs : FileSystem) (path : String) : Except IoError String :=
  return pathOf (← fs.locate path)

end FileSystem

end SessionShell
