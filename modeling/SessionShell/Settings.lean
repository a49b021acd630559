import SessionShell.FileSystem.Access
import SessionShell.Markup
import SessionShell.Number.Read
import SessionShell.Text.Blank
import SessionShell.Toml.Document

/-!
Settings. They come from a file in the home directory and, over it, from variables of the
environment. A file that cannot be read as settings as a whole counts for nothing; a variable that
cannot be read is ignored.
-/

namespace SessionShell

structure PromptSettings where
  primary : String := "%n[%i]> "
  secondary : String := "> "
  /-- A line that ends with this character goes on in the next one. -/
  continueChar : Char := '\\'
  deriving DecidableEq, Repr, Inhabited

structure CompileSettings where
  threads : Nat
  chatty : Bool := false
  deriving DecidableEq, Repr, Inhabited

structure BatchSettings where
  messages : Bool := true
  /-- The last code counts even when it is a success. -/
  lastCode : Bool := false
  /-- Waits for each script before the next is started. -/
  sequential : Bool := true
  deriving DecidableEq, Repr, Inhabited

structure Settings where
  language : String
  shellName : String
  debug : Bool
  stackTrace : Bool
  log : Bool
  escapeMode : EscapeMode
  preloadDir : Option String
  prompt : PromptSettings
  compile : CompileSettings
  batch : BatchSettings
  deriving DecidableEq, Repr, Inhabited

namespace Settings

/-- Workers of the compile pool for so many processors. -/
def threadsFor (processors : Nat) : Nat :=
  1 + processors / 2

/-- The settings on a machine with so many processors, where nothing else is set. -/
def default (processors : Nat) : Settings where
  language := "calc"
  shellName := "sh"
  debug := false
  stackTrace := false
  log := true
  escapeMode := .ansi
  preloadDir := none
  prompt := {}
  compile := { threads := threadsFor processors }
  batch := {}

/-! ## Settings files -/

/-- The fields of a group of settings: by name in a table, by position in a list. A time is a group
without any field of that name. -/
def fieldsOf? : Toml → Option (String → Nat → Option Toml)
  | .table _ entries => some fun name _ => entries.lookup name
  | .array items | .tables items => some fun _ position => items[position]?
  | .time => some fun _ _ => none
  | _ => none

/-- A field that is not there keeps its default; one that cannot be read is an error. -/
def read {α : Type} (convert : Toml → Option α) (default : α) : Option Toml → Option α
  | none => some default
  | some value => convert value

def asString : Toml → Option String
  | .string s => some s
  | _ => none

def asBool : Toml → Option Bool
  | .boolean b => some b
  | _ => none

def asNat : Toml → Option Nat
  | .integer (.ofNat n) => some n
  | _ => none

def asChar (value : Toml) : Option Char := do
  match (← asString value).toList with
  | [c] => some c
  | _ => none

/-- Whether this is a table or a list with nothing in it. -/
def isEmptyGroup : Toml → Bool
  | .table _ entries => entries.isEmpty
  | .array items | .tables items => items.isEmpty
  | _ => false

def modeNamed? (s : String) : Option EscapeMode :=
  [EscapeMode.none, .ansi, .html].find? fun mode => mode.name = s

/-- A mode is given by its name, as a string or as the only key, that of an empty group. -/
def asMode : Toml → Option EscapeMode
  | .string s => modeNamed? s
  | .table _ [(name, value)] => if isEmptyGroup value then modeNamed? name else none
  | _ => none

def asPrompt (value : Toml) : Option PromptSettings := do
  let field ← fieldsOf? value
  let default : PromptSettings := {}
  return {
    primary := ← read asString default.primary (field "primary" 0)
    secondary := ← read asString default.secondary (field "secondary" 1)
    continueChar := ← read asChar default.continueChar (field "continue_char" 2) }

def asCompile (default : CompileSettings) (value : Toml) : Option CompileSettings := do
  let field ← fieldsOf? value
  return {
    threads := ← read asNat default.threads (field "threads" 0)
    chatty := ← read asBool default.chatty (field "chatty" 1) }

def asBatch (value : Toml) : Option BatchSettings := do
  let field ← fieldsOf? value
  let default : BatchSettings := {}
  return {
    messages := ← read asBool default.messages (field "messages" 0)
    lastCode := ← read asBool default.lastCode (field "last_code" 1)
    sequential := ← read asBool default.sequential (field "sequential" 2) }

/-- The settings in a document, over defaults. Unknown fields are ignored. -/
def ofToml? (default : Settings) (t : Toml.Table) : Option Settings := do
  return {
    language := ← read asString default.language (t.get? "language")
    shellName := ← read asString default.shellName (t.get? "shell_name")
    debug := ← read asBool default.debug (t.get? "debug")
    stackTrace := ← read asBool default.stackTrace (t.get? "stack_trace")
    log := ← read asBool default.log (t.get? "log")
    escapeMode := ← read asMode default.escapeMode (t.get? "escape_mode")
    preloadDir := ← read (fun v => (asString v).map some) default.preloadDir (t.get? "preload_dir")
    prompt := ← read asPrompt default.prompt (t.get? "prompt")
    compile := ← read (asCompile default.compile) default.compile (t.get? "compile")
    batch := ← read asBatch default.batch (t.get? "batch") }

def ofFile? (default : Settings) (fs : FileSystem) (path : String) : Option Settings := do
  let text ← (fs.readText path).toOption
  ofToml? default (← Toml.parse? text)

/-! ## Environment -/

abbrev Environment := String → Option String

def variableNames : List String :=
  ["HOME", "USERPROFILE", "CUF_LANGUAGE", "CUF_SHELL_NAME", "CUF_DEBUG", "CUF_STACK_TRACE",
    "CUF_ESCAPE_MODE", "CUF_PRELOAD_DIR", "CUF_COMPILE_THREADS", "CUF_CHATTY",
    "CUF_BATCH_MESSAGES", "CUF_BATCH_LAST_CODE", "NO_COLOR"]

def homeDir? (env : Environment) : Option String :=
  (env "HOME").or (env "USERPROFILE")

def directoryName : String := ".cuf"

def fileName : String := "config.toml"

def filePath? (env : Environment) : Option String :=
  (homeDir? env).map fun home => Path.join (Path.join home directoryName) fileName

/-- What a variable says, without blanks around it. Else what was set before. -/
def override {α : Type} (env : Environment) (name : String) (read? : String → Option α) (old : α) :
    α :=
  (((env name).map Text.trim).bind read?).getD old

def readBool? (s : String) : Option Bool :=
  if s = "true" then some true else if s = "false" then some false else none

def withEnvironment (env : Environment) (s : Settings) : Settings where
  language := (env "CUF_LANGUAGE").getD s.language
  shellName := (env "CUF_SHELL_NAME").getD s.shellName
  debug := override env "CUF_DEBUG" readBool? s.debug
  stackTrace := override env "CUF_STACK_TRACE" readBool? s.stackTrace
  log := s.log
  escapeMode := override env "CUF_ESCAPE_MODE" (fun v => (EscapeMode.read v).toOption) s.escapeMode
  preloadDir := (env "CUF_PRELOAD_DIR").or s.preloadDir
  prompt := s.prompt
  compile := {
    threads := max 1 (override env "CUF_COMPILE_THREADS" Number.readWord? s.compile.threads)
    chatty := override env "CUF_CHATTY" readBool? s.compile.chatty }
  batch := {
    messages := override env "CUF_BATCH_MESSAGES" readBool? s.batch.messages
    lastCode := override env "CUF_BATCH_LAST_CODE" readBool? s.batch.lastCode
    sequential := s.batch.sequential }

def load (processors : Nat) (fs : FileSystem) (env : Environment) : Settings :=
  let s := default processors
  withEnvironment env (((filePath? env).bind (ofFile? s fs)).getD s)

/-- Without colours on a terminal, for a user who wants none from any program. -/
def withColourWish (env : Environment) (s : Settings) : Settings :=
  if (env "NO_COLOR").all String.isEmpty then s
  else { s with escapeMode := s.escapeMode.withoutColours }

def preloadDirectory (env : Environment) (s : Settings) : String :=
  s.preloadDir.getD ((homeDir? env).elim directoryName fun home => Path.join home directoryName)

end Settings

end SessionShell
