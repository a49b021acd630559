import SessionShell.Calc.Grammar
import SessionShell.Calc.Lexer

/-!
The calc interpreter: source texts and calls of functions by name, evaluated one after the other on
the same bindings.
-/

namespace SessionShell.Calc

variable {η : Type}

def evalTokens (memory : Memory η) (tokens : List Lexeme) (source : Option String) :
    Hosted η (Except Fault Value × Memory η) := do
  let (result, r) ← program.run.run (Reading.start memory tokens source)
  return (result, r.memory)

/-- Evaluates a source text, which answers the text of its value if it has one. -/
def eval (memory : Memory η) (text : String) (source : Option String) :
    Hosted η (Except Fault (Option String) × Memory η) := do
  match lex text with
  | .error e => return (.error (Fault.of (.script ⟨e.message, source, some e.line⟩)), memory)
  | .ok tokens =>
    let (result, memory) ← evalTokens memory tokens source
    return (result.map Value.answer?, memory)

/-- An argument given as text is a number if it reads as one. -/
def argumentOf (text : String) : Value :=
  match Number.read? text with
  | some x => .num x
  | none => .str text

def invoke (memory : Memory η) (function : String) (args : List String) :
    Hosted η (Except Fault (Option String)) := do
  match ← callFunction memory.defaultHost function (args.map argumentOf) with
  | .ok value => return .ok value.answer?
  | .error message => return .error (ScriptError.new message)

end SessionShell.Calc
