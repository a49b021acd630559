import SessionShell.Shell.Ending

/-!
How sessions start: in a language, with the focus or without it, on a thread of their own.
-/

namespace SessionShell.Shell

/-- Binds a session to a language, once and for all. -/
def setLanguage (id : SessionId) (language : Language) : Checked Unit :=
  tryUpdate id fun session =>
    match session.languageName? with
    | some name => .error (.alreadyStarted session.name name)
    | none => .ok { session with language := some language }

/-- Has the interpreter made ahead of all that was scheduled before. -/
def pushBoot (id : SessionId) (language : Language) : Action Shell Unit :=
  updateSession id fun session => { session with tasks := .boot language :: session.tasks }

def enterRegistry (id : SessionId) : Action Shell Unit :=
  Action.update fun s => { s with registry := (s.registry.add id).2 }

/-- Takes away the permit a session was made with. -/
def drainFocus (id : SessionId) : Action Shell Unit :=
  updateSession id fun session => { session with focus := session.focus.drain.2 }

/-- Starts the thread of a session, unless no more threads can be had. -/
def startThread (id : SessionId) : Action Shell Bool :=
  Action.step fun s =>
    if s.refusesThreads then (false, s)
    else (true, launch (.session (s.session id).name) (.session id .entering) s)

def threadRefused : ShellError :=
  .io (.other "Resource temporarily unavailable (os error 11)")

def languageFor (query : String) : Action Shell (Option Language) :=
  Action.read fun s => s.languages.lookup? (s.preload.resolveAlias query)

def startWith (id : SessionId) (query : String) (takesFocus : Bool) : Checked Unit := do
  ensureLive id
  match ← languageFor query with
  | none => throw (.unknownLanguage query)
  | some language =>
    setLanguage id language
    pushBoot id language
    enterRegistry id
    if takesFocus then takeFocus id else drainFocus id
    consolePlace.start
    let started ← startThread id
    unless started do
      discard (leaveRegistry id)
      dispose id
      throw threadRefused

def start (id : SessionId) (query : String) : Checked Unit :=
  startWith id query true

/-! ## Children -/

structure ForkOptions where
  script : Option String := none
  language : Option String := none
  hook : Option ExitHook := none
  hookInParent : Bool := false
  after : AfterScript := .interactive
  deriving DecidableEq, Repr, Inhabited

def openScript (path : String) : Action Shell (Option Nat) :=
  Action.read fun s =>
    match s.world.files.openForReading path with
    | .ok file => if s.world.files.isFile path then some file else none
    | .error _ => none

def invalidScript (path : String) : Fault :=
  ScriptError.new ("cannot interpret invalid script '" ++ path ++ "'")

/-- The language of a child: the one asked for, or that of its script, or its parent's. -/
def childLanguage (id : SessionId) (options : ForkOptions) : Action Shell String :=
  Action.read fun s =>
    let ofScript := (options.script.bind s.languages.forScript?).map (·.name)
    (options.language.or (ofScript.or (s.session id).languageName?)).getD s.settings.language

/-- What a child does, unless its script cannot be opened. -/
def childMain (options : ForkOptions) : Action Shell (Option MainTask) := do
  match options.script with
  | none => return some .interactive
  | some path =>
    match ← openScript path with
    | some file => return some (.script (.file file) path options.after)
    | none => return none

def childHook (id : SessionId) (options : ForkOptions) : Option ExitHook :=
  options.hook.map fun hook => if options.hookInParent then .inParent id hook else hook

/-- Makes a child and starts it without the focus. -/
def forkWith (id : SessionId) (options : ForkOptions) (main : MainTask) : Checked SessionId := do
  let language ← childLanguage id options
  let parent ← getSession id
  let child ← newSession parent.name options.script
  setMain child main
  match childHook id options with
  | some hook => setExitHook child hook
  | none => pure ()
  match ← caught (startWith child language false) with
  | .ok () => return child
  | .error e =>
    dispose child
    throw e

/-- Starts a child session. There is none if its script cannot be opened, and the hook is run on the
code that tells so. -/
def fork (id : SessionId) (options : ForkOptions) : Checked (Option SessionId) := do
  let session ← getSession id
  if session.disposed then
    dropHook? options.hook
    throw (.hasExited session.name)
  match ← childMain options with
  | some main => return some (← forkWith id options main)
  | none =>
    reportError (invalidScript (options.script.getD ""))
    match options.hook with
    | some hook => runHook ReservedCode.noFile.code hook
    | none => pure ()
    return none

end SessionShell.Shell
