import SessionShell.Shell.Report

/-!
Focus: waiting for it, reading with it, and handing it to another session.
-/

namespace SessionShell.Shell

def setCurrent (id : SessionId) (current : Bool) : Action Shell Unit :=
  updateSession id fun session => { session with current }

def acquire (id : SessionId) : Action Shell Unit := do
  let ticket ← Action.step fun s =>
    let (ticket, focus) := (s.session id).focus.arrive
    (ticket, modifySession id (fun session => { session with focus }) s)
  Action.await fun s => ((s.session id).focus.grant? ticket).map fun focus =>
    ((), modifySession id (fun session => { session with focus }) s)

def release (id : SessionId) : Action Shell Unit :=
  updateSession id fun session => { session with focus := session.focus.release }

def grantFocus (id : SessionId) : Action Shell Unit := do
  setCurrent id true
  release id

def takeFocus (id : SessionId) : Action Shell Unit := do
  let previous? ← Action.read fun s => s.registry.find? fun other => (s.session other).current
  match previous? with
  | some previous =>
    if previous ≠ id then
      acquire previous
      setCurrent previous false
  | none => pure ()
  setCurrent id true

/-! ## Prompts -/

def promptContext (id : SessionId) : Action Shell PromptContext :=
  Action.read fun s =>
    let session := s.session id
    { name := session.name
      index := s.registry.indexOf? id
      language := session.language.elim "" (·.name)
      version := session.language.elim "" (·.version)
      engine := session.language.elim "" (·.engine)
      script := session.script }

/-- Renders the prompt of a new statement or of one that goes on. -/
def renderPrompt (id : SessionId) (goesOn : Bool) : Action Shell String := do
  let context ← promptContext id
  Action.step fun s =>
    let formatter := (s.session id).prompt
    let (text, prompt) :=
      if goesOn then formatter.continuation s.settings.prompt.secondary context
      else formatter.primary s.settings.prompt.primary context
    (text, modifySession id (fun session => { session with prompt }) s)

/-- Waits until no other prompt of the session waits for its reply. -/
def beginAsking (id : SessionId) : Action Shell Unit :=
  Action.await fun s =>
    if (s.session id).asking then none
    else some ((), modifySession id (fun session => { session with asking := true }) s)

def endAsking (id : SessionId) : Action Shell Unit :=
  updateSession id fun session => { session with asking := false }

/-- Asks for a line. A session that has exited in the meantime does not. -/
def askLine (id : SessionId) (text : String) : Checked ReadOutcome := do
  ensureLive id
  beginAsking id
  let session ← getSession id
  consolePlace.takeReply session.mailbox
  consolePlace.requestLine text session.mailbox
  let outcome ← consolePlace.awaitReply session.mailbox
  endAsking id
  return outcome

def prompt (id : SessionId) (text : String) : Checked ReadOutcome := do
  ensureLive id
  acquire id
  let outcome ← caught (askLine id text)
  release id
  MonadExcept.ofExcept outcome

/-! ## Handing it on -/

/-- Hands the focus to the session at an index, once this one has it. On failure it stays here: the
permit that was taken is given back. -/
def jumpTo (id : SessionId) (index : Nat) : Checked Unit := do
  ensureLive id
  acquire id
  match ← sessionAt index with
  | none =>
    grantFocus id
    throw (.indexOutOfRange index (← sessionCount))
  | some target =>
    let other ← getSession target
    if other.disposed then
      grantFocus id
      throw (.hasExited other.name)
    else if target = id then grantFocus id
    else
      setCurrent id false
      grantFocus target

end SessionShell.Shell
