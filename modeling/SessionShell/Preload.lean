import SessionShell.FileSystem.Access
import SessionShell.Table
import SessionShell.Text.Blank
import SessionShell.Text.LetterCase

/-!
Preload configuration: other names for languages, and for each language a script to run when a
session starts in it, with the directory to look for it in.

Each line holds a key and a value around the first `=` or `:`. Lines that start with `#` or `!`, and
lines with neither sign or another key, are ignored; a later line wins over an earlier one.
-/

namespace SessionShell

structure Preload where
  dir : String
  aliases : Table String
  directories : Table String
  scripts : Table String
  deriving DecidableEq, Repr, Inhabited

namespace Preload

def fileName : String := "preload.conf"

def empty (dir : String) : Preload :=
  ⟨dir, [], [], []⟩

inductive Entry where
  | alias (name target : String)
  | directory (language path : String)
  | script (language file : String)
  deriving DecidableEq, Repr

def behind? (start s : String) : Option String :=
  if s.startsWith start then some (String.ofList (s.toList.drop start.length)) else none

def isAssignment (c : Char) : Bool :=
  c == '=' || c == ':'

def Entry.ofKey? (key value : String) : Option Entry :=
  match behind? "Preload.alias." key with
  | some name => some (.alias (Text.toLowercase name) value)
  | none =>
    match behind? "Preload.directory." key with
    | some language => some (.directory (Text.toLowercase language) value)
    | none => (behind? "Preload.script." key).map fun language =>
        .script (Text.toLowercase language) value

def Entry.ofLine? (raw : String) : Option Entry :=
  let line := (Text.trim raw).toList
  if line.isEmpty || line.head? == some '#' || line.head? == some '!' then none
  else
    match line.dropWhile (!isAssignment ·) with
    | [] => none
    | _ :: value =>
      Entry.ofKey? (Text.trim (String.ofList (line.takeWhile (!isAssignment ·))))
        (Text.trim (String.ofList value))

def enter (p : Preload) : Entry → Preload
  | .alias name target => { p with aliases := p.aliases.insert name target }
  | .directory language path => { p with directories := p.directories.insert language path }
  | .script language file => { p with scripts := p.scripts.insert language file }

def parse (dir content : String) : Preload :=
  ((Text.split '\n' content).filterMap Entry.ofLine?).foldl enter (empty dir)

/-- The configuration in a directory, empty if there is none to read. -/
def load (fs : FileSystem) (dir : String) : Preload :=
  match fs.readText (Path.join dir fileName) with
  | .ok content => parse dir content
  | .error _ => empty dir

/-- Follows other names from `current` until one is met again or has no other, at most
`fuel` times. -/
def follow (aliases : Table String) : Nat → List String → String → String
  | 0, _, current => current
  | fuel + 1, seen, current =>
    let key := Text.toLowercase current
    if key ∈ seen then current
    else match aliases.get? key with
      | none => current
      | some next => follow aliases fuel (key :: seen) next

/-- The name behind all other names of a language. Each step meets a new key, so there are at most
as many steps as there are keys. -/
def resolveAlias (p : Preload) (language : String) : String :=
  follow p.aliases (p.aliases.length + 1) [] language

/-- The preload script of a language. A relative one is looked for in the language's directory,
which may itself be relative to that of the configuration. -/
def scriptFor? (p : Preload) (language : String) : Option String :=
  let key := Text.toLowercase language
  (p.scripts.get? key).map fun file =>
    if Path.isAbsolute file then file
    else match p.directories.get? key with
      | some dir => Path.join (Path.join p.dir dir) file
      | none => Path.join p.dir file

end Preload

end SessionShell
