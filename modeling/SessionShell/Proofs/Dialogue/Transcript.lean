import SessionShell.Shell.Loop

/-!
The transcript of a dialogue: what a session that reads its input to the end writes, and the code
that everything ends with.

It is told here by recursion, without threads: a statement after the other is read, with a prompt
for each of its lines, and evaluated in what the statements before it have left.
-/

namespace SessionShell

inductive TextEnd (α : Type) where
  | returned (a : α)
  | crashed
  | exited (code : Int)

/-- What a text prints through a session of this name, and how it ends. Gives nothing if it asks the
session for anything but its name, output and the exit. -/
def Program.spoken? {η α : Type} (name : String) : Hosted η α → Option (List String × TextEnd α)
  | .done a => some ([], .returned a)
  | .crash => some ([], .crashed)
  | .ask ⟨_, .name⟩ next => (next name).spoken? name
  | .ask ⟨_, .out text⟩ next =>
    ((next (.ok ())).spoken? name).map fun (texts, ending) => (text :: texts, ending)
  | .ask ⟨_, .exit code⟩ _ => some ([], .exited code)
  | .ask _ _ => none

namespace Dialogue

/-- What is written for a statement, and what it leaves: an interpreter, or the code of an exit. -/
structure Response where
  out : List String
  err : List String
  next : Except Int (Interpreter SessionId)

def warningText (settings : Settings) (message : String) : String :=
  Markup.paint settings.escapeMode ("warning: " ++ message) .warning ++ "\n"

def respond (settings : Settings) (interpreter : Interpreter SessionId) (texts : List String) :
    TextEnd (Except Fault (Option String) × Interpreter SessionId) → Response
  | .returned (.ok result, interpreter) =>
    ⟨texts ++ (result.map (· ++ "\n")).toList, [], .ok interpreter⟩
  | .returned (.error fault, interpreter) =>
    ⟨texts, [Shell.faultText settings fault], .ok interpreter⟩
  | .crashed =>
    ⟨texts, [Shell.faultText settings (Fault.plain "interpreter panicked")], .ok interpreter⟩
  | .exited code =>
    ⟨texts, ((ExitCode.remapWarning? code).map (warningText settings)).toList, .error code⟩

def response? (settings : Settings) (name : String) (interpreter : Interpreter SessionId)
    (statement : String) : Option Response :=
  if (Text.trim statement).isEmpty then some ⟨[], [], .ok interpreter⟩
  else ((interpreter.eval statement none).spoken? name).map fun (texts, ending) =>
    respond settings interpreter texts ending

structure Prompts where
  primary : String
  secondary : String

/-- What the prompts of the first session are made of, in the language of calculations. -/
def contextFor (name : String) : PromptContext where
  name := name
  index := some 0
  language := Language.calculator.name
  version := Language.calculator.version
  engine := Language.calculator.engine
  script := none

/-- What is known of the prompt for a new statement when its statement goes on. -/
def formatterFor (settings : Settings) (name : String) : PromptFormatter :=
  ((PromptFormatter.new settings.escapeMode).primary settings.prompt.primary (contextFor name)).2

def promptsFor (settings : Settings) (name : String) : Prompts where
  primary := (Prompt.render settings.escapeMode (contextFor name) settings.prompt.primary).text
  secondary := (formatterFor settings name).secondary settings.prompt.secondary (contextFor name)

/-- All that is written, and the code of the end. -/
structure Transcript where
  out : List String
  err : List String
  code : Int
  deriving DecidableEq, Repr

def Transcript.after (out err : List String) (t : Transcript) : Transcript :=
  { t with out := out ++ t.out, err := err ++ t.err }

/-- The transcript from the line that ends a statement: a session that exits writes nothing else. -/
def Response.followed? (prompt : String) (next? : Interpreter SessionId → Option Transcript)
    (r : Response) :
    Option Transcript :=
  match r.next with
  | .error code => some ⟨prompt :: r.out, r.err, ExitCode.sanitize code⟩
  | .ok interpreter => (next? interpreter).map (·.after (prompt :: r.out) r.err)

variable (settings : Settings) (name : String) (prompts : Prompts)

def Prompts.shown (before : Option String) : String :=
  if before.isSome then prompts.secondary else prompts.primary

def Prompts.atEnd : Transcript :=
  ⟨[prompts.primary], [], ReservedCode.noInput.code⟩

/-- The dialogue over the lines that are left, when lines of a statement that goes on were read
before. -/
def transcriptFrom? (before : Option String) (interpreter : Interpreter SessionId) :
    List String → Option Transcript
  | [] =>
    match before with
    | none => some prompts.atEnd
    | some statement =>
      (response? settings name interpreter statement).bind fun r =>
        r.followed? prompts.secondary fun _ => some prompts.atEnd
  | line :: lines =>
    let text := before.elim line fun s => s ++ "\n" ++ line
    match Shell.continued? settings.prompt.continueChar text with
    | some text =>
      (transcriptFrom? (some text) interpreter lines).map (·.after [prompts.shown before] [])
    | none =>
      (response? settings name interpreter text).bind fun r =>
        r.followed? (prompts.shown before) fun interpreter => transcriptFrom? none interpreter lines

/-- The whole dialogue of the first session. -/
def transcript? (lines : List String) : Option Transcript :=
  transcriptFrom? settings name (promptsFor settings name) none
    ((Interpreter.ofKind .calculator).bindHost name 0) lines

end Dialogue

end SessionShell
