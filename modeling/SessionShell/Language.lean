import SessionShell.Calc.Interpreter
import SessionShell.Path
import SessionShell.Text.Blank
import SessionShell.Text.LetterCase

/-!
Languages: the names a language answers to, the interpreters it makes, and the registry that finds
it.
-/

namespace SessionShell

/-- What runs the programs of a language. A bare engine runs none. -/
inductive EngineKind where
  | calculator
  | bare
  deriving DecidableEq, Repr, Inhabited

structure Language where
  name : String
  version : String
  engine : String
  aliases : List String
  extensions : List String
  mimeTypes : List String
  kind : EngineKind
  deriving DecidableEq, Repr, Inhabited

namespace Language

def calculator : Language where
  name := "calc"
  version := "1.0"
  engine := "cuf-calc"
  aliases := ["calculator"]
  extensions := ["calc"]
  mimeTypes := ["text/x-calc", "application/x-calc"]
  kind := .calculator

def methodCall (object method : String) (args : List String) : String :=
  object ++ "." ++ method ++ "(" ++ ", ".intercalate args ++ ")"

def isDot (c : Char) : Bool :=
  c == '.'

/-- Whether a query names the language: by its name, another name, an extension with or without
dots before it, or a media type. -/
def answersTo (l : Language) (query : String) : Bool :=
  let query := Text.trim query
  let extension := String.ofList (query.toList.dropWhile isDot)
  Text.eqIgnoringAsciiCase l.name query
    || l.aliases.any (Text.eqIgnoringAsciiCase · query)
    || l.extensions.any (Text.eqIgnoringAsciiCase · extension)
    || l.mimeTypes.any (Text.eqIgnoringAsciiCase · query)

def claimsExtension (l : Language) (extension : String) : Bool :=
  l.extensions.any (Text.eqIgnoringAsciiCase · extension)

end Language

/-- The known languages, in the order in which they are asked. -/
abbrev LanguageRegistry := List Language

namespace LanguageRegistry

def builtins : LanguageRegistry := [Language.calculator]

def lookup? (registry : LanguageRegistry) (query : String) : Option Language :=
  registry.find? (·.answersTo query)

/-- The language of a script, going by the extension of its path. -/
def forScript? (registry : LanguageRegistry) (path : String) : Option Language :=
  (Path.extension? path).bind fun extension => registry.find? (·.claimsExtension extension)

def names (registry : LanguageRegistry) : List String :=
  registry.map (·.name)

end LanguageRegistry

/-- One interpreter, whose hosts are known by handles of type `η`. -/
inductive Interpreter (η : Type) where
  | calculator (memory : Calc.Memory η)
  | bare

namespace Interpreter

variable {η : Type}

def ofKind : EngineKind → Interpreter η
  | .calculator => .calculator .empty
  | .bare => .bare

def bindHost (name : String) (host : η) : Interpreter η → Interpreter η
  | .calculator memory => .calculator (memory.bindHost name host)
  | .bare => .bare

def eval (text : String) (source : Option String) :
    Interpreter η → Hosted η (Except Fault (Option String) × Interpreter η)
  | .calculator memory => do
    let (result, memory) ← Calc.eval memory text source
    return (result, .calculator memory)
  | .bare => return (.ok none, .bare)

def invoke (function : String) (args : List String) :
    Interpreter η → Hosted η (Except Fault (Option String))
  | .calculator memory => Calc.invoke memory function args
  | .bare =>
    return .error (ScriptError.new ("invoke of '" ++ function ++ "' is not supported"))

end Interpreter

end SessionShell
