import SessionShell.Compile.RawCopy
import SessionShell.Settings

/-!
The command line: options with their values, and between them the targets of a batch.

Arguments are read from left to right. An option takes the values behind it whatever they look like,
a later option wins over an earlier one, and the first argument that cannot be read decides about
the error. Asking for help or for the version ends the reading.
-/

namespace SessionShell

inductive Switch where
  | quiet
  | lastCode
  | parallel
  | debug
  | stackTrace
  deriving DecidableEq, Repr

inductive ValueOption where
  | language
  | name
  | escape
  | target
  | pair
  deriving DecidableEq, Repr

inductive Flag where
  | help
  | version
  | switch (s : Switch)
  | value (o : ValueOption)
  | compile
  deriving DecidableEq, Repr

namespace Flag

def spellings : List (String × Flag) :=
  [("-h", .help), ("--help", .help), ("-v", .version), ("--version", .version),
    ("-l", .value .language), ("--language", .value .language),
    ("-n", .value .name), ("--name", .value .name),
    ("-e", .value .escape), ("--escape", .value .escape),
    ("-c", .compile), ("--compile", .compile),
    ("-t", .value .target), ("--target", .value .target),
    ("-o", .value .pair), ("--option", .value .pair),
    ("-q", .switch .quiet), ("--quiet", .switch .quiet),
    ("--last-code", .switch .lastCode), ("--parallel", .switch .parallel),
    ("-d", .switch .debug), ("--debug", .switch .debug),
    ("--stack-trace", .switch .stackTrace)]

def ofArgument? (arg : String) : Option Flag :=
  spellings.lookup arg

end Flag

/-- What the arguments say, over what the settings say. -/
structure CommandLine where
  language : Option String := none
  name : Option String := none
  escape : Option EscapeMode := none
  compile : Option (String × String) := none
  target : Option String := none
  options : TargetOptions := []
  switches : List Switch := []
  targets : List String := []
  deriving DecidableEq, Repr, Inhabited

inductive Request where
  | help
  | version
  | run (line : CommandLine)
  deriving DecidableEq, Repr

namespace CommandLine

def isEqualsSign (c : Char) : Bool :=
  c == '='

/-- A key and a value around the first `=`, without blanks around them. -/
def readPair (s : String) : Except String (String × String) :=
  match s.toList.dropWhile (!isEqualsSign ·) with
  | [] => .error ("Option '" ++ s ++ "' is not KEY=VALUE")
  | _ :: value =>
    .ok (Text.trim (String.ofList (s.toList.takeWhile (!isEqualsSign ·))),
      Text.trim (String.ofList value))

def has (line : CommandLine) (s : Switch) : Bool :=
  line.switches.contains s

def addSwitch (line : CommandLine) (s : Switch) : CommandLine :=
  { line with switches := s :: line.switches }

def addTarget (line : CommandLine) (target : String) : CommandLine :=
  { line with targets := line.targets ++ [target] }

def addValue (line : CommandLine) (value : String) : ValueOption → Except String CommandLine
  | .language => .ok { line with language := some value }
  | .name => .ok { line with name := some value }
  | .escape => do return { line with escape := some (← EscapeMode.read value) }
  | .target => .ok { line with target := some value }
  | .pair => do
    let (key, value) ← readPair value
    return { line with options := line.options.insert key value }

/-- Whether an argument can only be meant as an option. A single `-` is a target. -/
def looksLikeOption (arg : String) : Bool :=
  match arg.toList with
  | '-' :: _ :: _ => true
  | _ => false

def missingValue (flag : String) : String :=
  "Missing argument for " ++ flag

def unknownArgument (arg : String) : String :=
  "Unknown argument: " ++ arg ++ ". Use -h for help."

def checked (line : CommandLine) : Except String Request :=
  if line.compile.isSome && !line.targets.isEmpty then
    .error "--compile cannot be combined with scripts"
  else .ok (.run line)

/-- Reads arguments behind those that `line` holds already. -/
def readFrom (line : CommandLine) : List String → Except String Request
  | [] => line.checked
  | arg :: rest =>
    match Flag.ofArgument? arg with
    | some .help => .ok .help
    | some .version => .ok .version
    | some (.switch s) => readFrom (line.addSwitch s) rest
    | some (.value option) =>
      match rest with
      | value :: rest => do readFrom (← line.addValue value option) rest
      | [] => .error (missingValue arg)
    | some .compile =>
      match rest with
      | source :: output :: rest => readFrom { line with compile := some (source, output) } rest
      | _ => .error (missingValue arg)
    | none =>
      if looksLikeOption arg then .error (unknownArgument arg)
      else readFrom (line.addTarget arg) rest

def read (args : List String) : Except String Request :=
  readFrom {} args

/-- Puts what the arguments say over the settings. -/
def apply (line : CommandLine) (s : Settings) : Settings :=
  { s with
    language := line.language.getD s.language
    shellName := line.name.getD s.shellName
    escapeMode := line.escape.getD s.escapeMode
    debug := s.debug || line.has .debug
    stackTrace := s.stackTrace || line.has .stackTrace
    batch := {
      messages := s.batch.messages && !line.has .quiet
      lastCode := s.batch.lastCode || line.has .lastCode
      sequential := s.batch.sequential && !line.has .parallel } }

end CommandLine

end SessionShell
