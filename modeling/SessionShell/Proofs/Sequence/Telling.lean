import SessionShell.Proofs.Calc.Asking
import SessionShell.Proofs.Dialogue.Transcript

/-!
What a batch of scripts writes that run one after the other, and the code it comes to.

It is told here by recursion, without threads. A script is evaluated by an interpreter of its own.
When it has told its session to exit, it goes on, but is refused whatever else it asks for.
-/

namespace SessionShell

/-- What a script has printed before it exits, the code it exits with, and how it comes to its end,
unless it crashes. -/
structure Telling (α : Type) where
  texts : List String
  exit? : Option Int
  ending : Option α

namespace Program

variable {η α : Type}

/-- The answer to whatever is asked of a session of this name that has exited. -/
def refusal (name : String) : Except Fault Unit :=
  .error (ShellError.hasExited name : Fault)

/-- What a text comes to that is evaluated for a session of this name, which has exited with a code
or has not. Gives nothing if it asks for anything but the name, output and the exit. -/
def told? (name : String) : Option Int → Hosted η α → Option (Telling α)
  | exit?, .done a => some ⟨[], exit?, some a⟩
  | exit?, .crash => some ⟨[], exit?, none⟩
  | exit?, .ask ⟨_, .name⟩ next => (next name).told? name exit?
  | none, .ask ⟨_, .out text⟩ next =>
    ((next (.ok ())).told? name none).map fun t => { t with texts := text :: t.texts }
  | some code, .ask ⟨_, .out _⟩ next => (next (refusal name)).told? name (some code)
  | none, .ask ⟨_, .exit code⟩ next => (next (.ok ())).told? name (some code)
  | some code, .ask ⟨_, .exit _⟩ next => (next (refusal name)).told? name (some code)
  | _, .ask _ _ => none

theorem told?_exited {name : String} {code : Int} {p : Hosted η α} {t : Telling α}
    (h : p.told? name (some code) = some t) : t.texts = [] ∧ t.exit? = some code := by
  induction p with
  | done a =>
    cases h
    exact ⟨rfl, rfl⟩
  | crash =>
    cases h
    exact ⟨rfl, rfl⟩
  | ask r next ih =>
    obtain ⟨host, call⟩ := r
    cases call with
    | name => exact ih _ h
    | out => exact ih _ h
    | exit => exact ih _ h
    | _ => cases h

theorem isSome_told? {name : String} {p : Hosted η α} {Q : α → Prop}
    (h : p.Asks (fun request => request.call.isPlain = true) Q) (exit? : Option Int) :
    (p.told? name exit?).isSome := by
  induction p generalizing exit? with
  | done a => rfl
  | crash => rfl
  | ask r next ih =>
    obtain ⟨host, call⟩ := r
    obtain ⟨hplain, hnext⟩ := h
    cases call with
    | name => exact ih _ (hnext _) exit?
    | out text =>
      cases exit? with
      | none => exact (Option.isSome_map ..).trans (ih _ (hnext _) none)
      | some code => exact ih _ (hnext _) (some code)
    | exit code =>
      cases exit? with
      | none => exact ih _ (hnext _) (some code)
      | some code => exact ih _ (hnext _) (some code)
    | _ => cases hplain

end Program

namespace Sequence

inductive Saying where
  | out (text : String)
  | err (text : String)
  deriving DecidableEq, Repr

def Saying.out? : Saying → Option String
  | .out text => some text
  | .err _ => none

def Saying.err? : Saying → Option String
  | .out _ => none
  | .err text => some text

/-- What is written for a target, and its code. -/
structure Turn where
  target : String
  sayings : List Saying
  code : Int
  deriving DecidableEq, Repr

/-- What is written about the end of a script: the result, or what went wrong, or that it has not
exited with the code it chose. -/
def closing (settings : Settings) :
    Option Int → Option (Except Fault (Option String) × Interpreter SessionId) → List Saying
  | some code, _ =>
    ((ExitCode.remapWarning? code).map fun message =>
      .err (Dialogue.warningText settings message)).toList
  | none, some (.ok result, _) => (result.map fun text => .out (text ++ "\n")).toList
  | none, some (.error fault, _) => [.err (Shell.faultText settings fault)]
  | none, none => [.err (Shell.faultText settings (Fault.plain "interpreter panicked"))]

def codeOf (exit? : Option Int) : Int :=
  exit?.elim ReservedCode.success.code ExitCode.sanitize

def freshInterpreter (name : String) (id : SessionId) : Interpreter SessionId :=
  (Interpreter.ofKind Language.calculator.kind).bindHost name id

def scriptAt? (files : FileSystem) (path : String) : Option Nat :=
  match files.openForReading path with
  | .ok file => if files.isFile path then some file else none
  | .error _ => none

def scriptText (files : FileSystem) (file : Nat) : Except IoError String := do
  FileSystem.textOf (← files.contents file)

def scriptTurn? (settings : Settings) (files : FileSystem) (name : String) (id : SessionId)
    (target : String) (file : Nat) : Option Turn :=
  match scriptText files file with
  | .error e =>
    some ⟨target,
      [.err (Shell.faultText settings ((e : Fault).context ("cannot read " ++ target)))],
      codeOf none⟩
  | .ok text =>
    (((freshInterpreter name id).eval text (some target)).told? name none).map fun t =>
      ⟨target, t.texts.map .out ++ closing settings t.exit? t.ending, codeOf t.exit?⟩

def isScript (files : FileSystem) (target : String) : Bool :=
  files.pathExists target || (LanguageRegistry.builtins.lookup? target).isNone

def missingTurn (settings : Settings) (target : String) : Turn :=
  ⟨target, [.err (Shell.faultText settings (Shell.invalidScript target))], ReservedCode.noFile.code⟩

/-- The turns of a batch, one for each target. A script that is there is run by a session of its
own, and so takes the next number. Gives nothing if a target is a language or asks too much. -/
def turns? (settings : Settings) (files : FileSystem) (name : String) :
    SessionId → List String → Option (List Turn)
  | _, [] => some []
  | id, target :: targets =>
    if isScript files target then
      match scriptAt? files target with
      | none => (turns? settings files name id targets).map (missingTurn settings target :: ·)
      | some file =>
        (scriptTurn? settings files name id target file).bind fun turn =>
          (turns? settings files name (id + 1) targets).map (turn :: ·)
    else none

theorem target_of_scriptTurn? {settings : Settings} {files : FileSystem} {name : String}
    {id : SessionId} {target : String} {file : Nat} {turn : Turn}
    (h : scriptTurn? settings files name id target file = some turn) : turn.target = target := by
  rw [scriptTurn?] at h
  split at h
  · cases h
    rfl
  · obtain ⟨t, -, rfl⟩ := Option.map_eq_some_iff.mp h
    rfl

theorem target_of_turns? {settings : Settings} {files : FileSystem} {name : String} {id : SessionId}
    {targets : List String} {all : List Turn}
    (h : turns? settings files name id targets = some all) :
    all.map Turn.target = targets := by
  induction targets generalizing id all with
  | nil =>
    cases h
    rfl
  | cons target targets ih =>
    rw [turns?] at h
    split at h
    · split at h
      · obtain ⟨rest, hrest, rfl⟩ := Option.map_eq_some_iff.mp h
        exact congrArg (target :: ·) (ih hrest)
      · obtain ⟨turn, hturn, hmap⟩ := Option.bind_eq_some_iff.mp h
        obtain ⟨rest, hrest, rfl⟩ := Option.map_eq_some_iff.mp hmap
        rw [List.map_cons, target_of_scriptTurn? hturn, ih hrest]
    · cases h

/-- Targets that are scripts, and call no other method than `exit` and `name` as far as they can
be read. -/
structure Suitable (files : FileSystem) (targets : List String) : Prop where
  scripts : ∀ target ∈ targets, isScript files target = true
  sparing : ∀ target ∈ targets, ∀ file text, scriptAt? files target = some file →
    scriptText files file = .ok text → Calc.Sparing text

theorem isSome_scriptTurn? (settings : Settings) {files : FileSystem} (name target : String)
    (id : SessionId)
    {file : Nat} (h : ∀ text, scriptText files file = .ok text → Calc.Sparing text) :
    (scriptTurn? settings files name id target file).isSome := by
  rw [scriptTurn?]
  split
  · rfl
  · next text htext =>
    rw [Option.isSome_map]
    exact Program.isSome_told? (Interpreter.asks_eval_of_sparing _ (h text htext) _) none

theorem Suitable.exists_turns {settings : Settings} {files : FileSystem} {name : String}
    {targets : List String} (h : Suitable files targets) (id : SessionId) :
    ∃ all, turns? settings files name id targets = some all := by
  induction targets generalizing id with
  | nil => exact ⟨[], rfl⟩
  | cons target targets ih =>
    have hrest : Suitable files targets :=
      ⟨fun t ht => h.scripts t (List.mem_cons_of_mem _ ht), fun t ht =>
        h.sparing t (List.mem_cons_of_mem _ ht)⟩
    rw [turns?, if_pos (h.scripts target List.mem_cons_self)]
    cases hfile : scriptAt? files target with
    | none =>
      obtain ⟨rest, hturns⟩ := ih hrest id
      exact ⟨_, congrArg (Option.map _) hturns⟩
    | some file =>
      obtain ⟨turn, hturn⟩ :=
        Option.isSome_iff_exists.mp (isSome_scriptTurn? settings name target id
        fun text => h.sparing target List.mem_cons_self file text hfile)
      obtain ⟨rest, hturns⟩ := ih hrest (id + 1)
      refine ⟨turn :: rest, ?_⟩
      dsimp only
      rw [hturn, hturns]
      rfl

def status (turn : Turn) : String :=
  turn.target ++ ": " ++ ExitCode.describe turn.code ++ "\n"

def Turn.outs (messages : Bool) (turn : Turn) : List String :=
  turn.sayings.filterMap Saying.out? ++ if messages then [status turn] else []

def Turn.errs (turn : Turn) : List String :=
  turn.sayings.filterMap Saying.err?

def foldCodes (lastCode : Bool) (code : Int) (turns : List Turn) : Int :=
  turns.foldl (fun code turn => Batch.fold lastCode code turn.code) code

/-- All that a batch writes, and its code. -/
def transcript (settings : Settings) (turns : List Turn) : Dialogue.Transcript where
  out := turns.flatMap (Turn.outs settings.batch.messages)
  err := turns.flatMap Turn.errs
  code := foldCodes settings.batch.lastCode 0 turns

end Sequence

end SessionShell
