import SessionShell.Shell.Basic

/-!
What sessions write: output, and errors and warnings in their styles.
-/

namespace SessionShell.Shell

variable {α : Type}

def out (id : SessionId) (text : String) : Checked Unit := do
  ensureLive id
  consolePlace.print text

def outLine (id : SessionId) (text : String) : Checked Unit :=
  out id (text ++ "\n")

/-- A line of output, unless the session has exited. -/
def sayLine (id : SessionId) (text : String) : Action Shell Unit :=
  discard (outLine id text).run

def err (id : SessionId) (text : String) : Checked Unit := do
  ensureLive id
  consolePlace.printError text

/-- What is written about a fault. Its causes and its location are shown if the settings say so. -/
def faultText (settings : Settings) (fault : Fault) : String :=
  let mode := settings.escapeMode
  let details :=
    if settings.stackTrace || settings.debug then
      String.join
        (fault.causes.map fun cause => Markup.text mode ("  caused by: " ++ cause ++ "\n"))
        ++ (fault.location?.elim "" fun place => Markup.text mode ("  at " ++ place ++ "\n"))
    else ""
  Markup.paint mode ("error: " ++ fault.message) .error ++ "\n" ++ details

def reportError (fault : Fault) : Action Shell Unit := do
  let settings ← getSettings
  consolePlace.printError (faultText settings fault)

def warning (message : String) : Action Shell Unit := do
  let settings ← getSettings
  consolePlace.printError
    (Markup.paint settings.escapeMode ("warning: " ++ message) .warning ++ "\n")

/-- Does something for a session, whose failure or crash is reported while the session is live. -/
def guarded (id : SessionId) (act : ExceptT Fault (Action Shell) α) : Action Shell (Option α) := do
  let fault ← match ← act.run.attempt with
    | some (.ok a) => return some a
    | some (.error fault) => pure fault
    | none => pure (Fault.plain "internal error: task panicked")
  if ← isLive id then reportError fault
  return none

end SessionShell.Shell
