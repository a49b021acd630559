import SessionShell.Calc.Token
import SessionShell.Host
import SessionShell.Table

/-!
The values of calc, what an interpreter remembers of them from one program to the next, and the
state in which a program is evaluated while it is read.
-/

namespace SessionShell.Calc

/-- A number, a text, or nothing, which is what a binding or a command leaves. -/
inductive Value where
  | num (x : Float)
  | str (s : String)
  | unit
  deriving Repr, Inhabited

def Value.text : Value → String
  | .num x => Number.text x
  | .str s => s
  | .unit => ""

/-- What a program that ends with this value answers. -/
def Value.answer? : Value → Option String
  | .unit => none
  | v => some v.text

variable {η α : Type}

/-- What an interpreter remembers. `print` writes to the host bound last. -/
structure Memory (η : Type) where
  bindings : Table Value
  hosts : Table η
  defaultHost : Option η
  deriving Inhabited

namespace Memory

def empty : Memory η :=
  ⟨[], [], none⟩

def bindHost (m : Memory η) (name : String) (host : η) : Memory η :=
  { m with hosts := m.hosts.insert name host, defaultHost := some host }

def bindValue (m : Memory η) (name : String) (value : Value) : Memory η :=
  { m with bindings := m.bindings.insert name value }

end Memory

/-- A program partly read: the memory as it is by now and the tokens still to come. -/
structure Reading (η : Type) where
  memory : Memory η
  rest : List Lexeme
  source : Option String
  lastLine : Nat

/-- The line of the next token, or that of the last one when none is left. -/
def Reading.line (r : Reading η) : Nat :=
  match r.rest with
  | [] => r.lastLine
  | t :: _ => t.line

def Reading.start (memory : Memory η) (tokens : List Lexeme) (source : Option String) : Reading η :=
  ⟨memory, tokens, source, (tokens.getLast?.map (·.line)).getD 1⟩

/-- Evaluation reads tokens, changes bindings, asks hosts, and may fail. What it did before a
failure stays done. -/
abbrev Eval (η : Type) := ExceptT Fault (StateT (Reading η) (Hosted η))

def fail (message : String) : Eval η α := do
  let r ← get
  throw (Fault.of (.script ⟨message, r.source, some r.line⟩))

def next? : Eval η (Option Token) := do
  return (← get).rest.head?.map (·.token)

def skip : Eval η Unit :=
  modify fun r => { r with rest := r.rest.tail }

def tokensLeft : Eval η Nat := do
  return (← get).rest.length

def eatSym (c : Char) : Eval η Bool := do
  match ← next? with
  | some (.sym c') => if c' = c then skip; return true else return false
  | _ => return false

def expectSym (c : Char) : Eval η Unit := do
  unless ← eatSym c do
    fail ("expected '" ++ c.toString ++ "'")

def ask (host : η) (call : HostCall) : Eval η call.Reply :=
  ExceptT.lift (StateT.lift (Program.call (⟨host, call⟩ : HostRequest η)))

def orThrow (result : Except Fault α) : Eval η α :=
  match result with
  | .ok a => pure a
  | .error e => throw e

end SessionShell.Calc
