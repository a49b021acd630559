import SessionShell.Toml.Scalar

/-!
TOML documents: keys, values inside values, and statements line by line.
-/

namespace SessionShell.Toml

def maxDepth : Nat := 79

/-! ## Keys -/

def isBareKeyChar (c : Char) : Bool :=
  c.isAlphanum || c == '_' || c == '-'

def simpleKey : Scan String := do
  match ← Scan.peek? with
  | some '"' => quotedWith '"' false
  | some '\'' => quotedWith '\'' false
  | _ =>
    let cs ← Scan.span isBareKeyChar
    if cs.isEmpty then Scan.fail else return String.ofList cs

/-- Simple keys with dots between them and blanks around them, at most `fuel`. -/
def keyPath : Nat → Scan (List String)
  | 0 => Scan.fail
  | fuel + 1 => do
    blanks
    let first ← simpleKey
    blanks
    if ← Scan.eat "." then return first :: (← keyPath fuel) else return [first]

def key : Scan Key := do
  let path ← keyPath maxDepth
  match path.getLast? with
  | some last => return ⟨path.dropLast, last⟩
  | none => Scan.fail

/-! ## Values -/

/-- What stands behind the opening bracket of an array. -/
def arrayItems (value : Scan Toml) : Nat → List Toml → Scan (List Toml)
  | 0, _ => Scan.fail
  | fuel + 1, done => do
    gap true
    if ← Scan.eat "]" then return done.reverse
    else
      let done := (← value) :: done
      gap true
      if ← Scan.eat "," then arrayItems value fuel done
      else
        Scan.expect "]"
        return done.reverse

/-- What stands behind an entry inside braces, or behind the opening brace. -/
def inlineEntries (value : Scan Toml) : Nat → List (Key × Toml) → Scan (List (Key × Toml))
  | 0, _ => Scan.fail
  | fuel + 1, done => do
    let k ← key
    Scan.expect "="
    blanks
    let done := (k, ← value) :: done
    blanks
    if ← Scan.eat "," then inlineEntries value fuel done
    else
      Scan.expect "\x7d"
      return done.reverse

def inlineTable (value : Scan Toml) : Scan Toml := do
  blanks
  if ← Scan.eat "\x7d" then return .table .inline []
  else
    let entries ← inlineEntries value (← Scan.budget) []
    StateT.lift (inlineTable? entries)

/-- A value that holds others at most so many levels deep. -/
def value (depth : Nat) : Scan Toml := do
  match ← Scan.peek? with
  | some '"' => return .string (← quotedWith '"' true)
  | some '\'' => return .string (← quotedWith '\'' true)
  | some c =>
    if c = '[' then
      match depth with
      | 0 => Scan.fail
      | depth + 1 =>
        discard Scan.next
        return .array (← arrayItems (value depth) (← Scan.budget) [])
    else if c.toNat = 0x7b then
      match depth with
      | 0 => Scan.fail
      | depth + 1 =>
        discard Scan.next
        inlineTable (value depth)
    else scalar
  | none => Scan.fail

/-! ## Documents -/

def header : Scan Statement := do
  if ← Scan.eat "[[" then
    let k ← key
    Scan.expect "]]"
    return .openNext k
  else
    Scan.expect "["
    let k ← key
    Scan.expect "]"
    return .openTable k

def assignment : Scan Statement := do
  let k ← key
  Scan.expect "="
  blanks
  return .assign k (← value maxDepth)

def statements : Nat → List Statement → Scan (List Statement)
  | 0, _ => Scan.fail
  | fuel + 1, done => do
    gap true
    match ← Scan.peek? with
    | none => return done.reverse
    | some c =>
      let s ← if c = '[' then header else assignment
      endOfStatement
      statements fuel (s :: done)

def byteOrderMark : Char := '\ufeff'

def withoutMark (cs : List Char) : List Char :=
  if cs.head? = some byteOrderMark then cs.tail else cs

def parse? (text : String) : Option Table := do
  let cs := withoutMark text.toList
  let (statements, _) ← (statements (cs.length + 1) []).run cs
  ofStatements? statements

end SessionShell.Toml
