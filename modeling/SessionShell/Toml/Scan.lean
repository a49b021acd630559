/-!
Reading the characters of a text one after the other.
-/

namespace SessionShell.Toml

/-- Reads some characters off the front, or fails. -/
abbrev Scan := StateT (List Char) Option

namespace Scan

variable {α : Type}

def peek? : Scan (Option Char) := do
  return (← get).head?

def fail : Scan α :=
  StateT.lift none

def next : Scan Char := do
  match ← get with
  | [] => fail
  | c :: rest =>
    set rest
    return c

def eat (text : String) : Scan Bool := do
  let rest ← get
  if text.toList.isPrefixOf rest then
    set (rest.drop text.length)
    return true
  else return false

def expect (text : String) : Scan Unit := do
  unless ← eat text do fail

def span (p : Char → Bool) : Scan (List Char) :=
  modifyGet fun rest => (rest.takeWhile p, rest.dropWhile p)

def atEnd : Scan Bool := do
  return (← get).isEmpty

/-- As many steps as there are characters are enough for a loop that reads one in each step. -/
def budget : Scan Nat := do
  return (← get).length + 1

end Scan

/-! ## Blanks, line ends and comments -/

def isBlank (c : Char) : Bool :=
  c == ' ' || c == '\t'

def isPrintable (c : Char) : Bool :=
  c == '\t' || (' ' ≤ c && c != '\x7f')

def blanks : Scan Unit :=
  discard (Scan.span isBlank)

def lineEnd : Scan Bool := do
  if ← Scan.eat "\n" then return true else Scan.eat "\x0d\n"

def comment : Scan Bool := do
  if ← Scan.eat "#" then
    discard (Scan.span isPrintable)
    return true
  else return false

def endOfStatement : Scan Unit := do
  blanks
  discard comment
  unless (← lineEnd) || (← Scan.atEnd) do Scan.fail

/-- Blanks and line ends, as many as there are, and comments too where they may stand. -/
def gap (comments : Bool) : Scan Unit := do
  go (← Scan.budget)
where
  go : Nat → Scan Unit
    | 0 => return
    | fuel + 1 => do
      blanks
      if ← lineEnd then go fuel
      else
        let passed ← if comments then comment else pure false
        if passed then go fuel

end SessionShell.Toml
