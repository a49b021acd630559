import SessionShell.Shell.Focus

/-!
How sessions end. The first attempt to end a session records its exit code; every later one is
refused. Then its exit hook is run, it leaves the registry, hands the focus on, and is disposed of.
When the last one has left, the shell ends.
-/

namespace SessionShell.Shell

/-! ## Exit hooks -/

def releaseLatch (latch : Nat) (s : Shell) : Shell :=
  { s with latches := s.latches.modify latch fun l => { l with released := true } }

def setLatchCode (latch : Nat) (code : Int) (s : Shell) : Shell :=
  { s with latches := s.latches.modify latch fun l => { l with code := some code } }

def modifyChannel (channel : Nat) (f : Channel → Channel) (s : Shell) : Shell :=
  { s with channels := s.channels.modify channel f }

def dropSender (channel : Nat) (s : Shell) : Shell :=
  modifyChannel channel (fun c => { c with senders := c.senders - 1 }) s

/-- What remains to be done for a hook that is never run. -/
def dropHook : ExitHook → Shell → Shell
  | .nothing, s => s
  | .note _ _, s => s
  | .wake latch first, s => releaseLatch latch (dropHook first s)
  | .report channel _, s => dropSender channel s
  | .inParent _ hook, s => dropHook hook s

def dropHook? (hook? : Option ExitHook) : Action Shell Unit :=
  match hook? with
  | some hook => Action.update (dropHook hook)
  | none => pure ()

def runHook (code : Int) : ExitHook → Action Shell Unit
  | .nothing => pure ()
  | .note tag crashes => do
    note (.exited tag code (← currentThread))
    if crashes then .crash
  | .wake latch first => do
    Action.update (setLatchCode latch code)
    let result? ← (runHook code first).attempt
    Action.update (releaseLatch latch)
    if result?.isNone then .crash
  | .report channel label => do
    Action.update (modifyChannel channel fun c => { c with queue := c.queue ++ [(label, code)] })
    Action.update (dropSender channel)
  | .inParent parent hook => do
    match ← (schedule parent (.runHook hook code)).run with
    | .ok () => pure ()
    | .error _ => runHook code hook

def putExitHook (id : SessionId) (hook : ExitHook) : Checked Unit :=
  tryUpdate id fun session =>
    if session.disposed ∨ session.exitCode.isSome then .error (.hasExited session.name)
    else if session.exitHook.isSome then .error (.callbackAlreadySet session.name)
    else .ok { session with exitHook := some hook }

/-- Sets what is done with a session's exit code. There is at most one such thing. -/
def setExitHook (id : SessionId) (hook : ExitHook) : Checked Unit :=
  tryCatch (putExitHook id hook) fun e => do
    Action.update (dropHook hook)
    throw e

/-! ## Exit -/

def cancelJob (job : JobId) (s : Shell) : Shell :=
  { s with pool := s.pool.cancel job }

/-- Marks a session as disposed of, and takes its hook away. -/
def markDisposed (id : SessionId) : Action Shell (Option ExitHook) :=
  Action.step fun s =>
    let session := s.session id
    let s := session.compiling.elim s fun job => cancelJob job s
    (session.exitHook, modifySession id (fun session =>
      { session with
        disposed := true
        compiling := none
        interpreter := none
        main := none
        exitHook := none }) s)

/-- Cancels the background jobs of a session that are not finished, and forgets them all. -/
def cancelJobs (id : SessionId) : Action Shell Unit :=
  Action.update fun s =>
    let running := (s.session id).jobs.filter fun job => !s.pool.isFinished job
    modifySession id (fun session => { session with jobs := [] })
      (running.foldl (fun s job => cancelJob job s) s)

def Task.drop : Task → Shell → Shell
  | .runHook hook _, s => dropHook hook s
  | .boot _, s => s
  | .script _, s => s

def dropTasks (id : SessionId) : Action Shell Unit :=
  Action.update fun s =>
    modifySession id (fun session => { session with tasks := [] })
      ((s.session id).tasks.foldl (fun s task => Task.drop task s) s)

/-- Drops everything a session holds, and wakes whoever waits for its focus. -/
def dispose (id : SessionId) : Action Shell Unit := do
  dropHook? (← markDisposed id)
  cancelJobs id
  dropTasks id
  setCurrent id false
  release id

/-- The end of the last session: when all output is written, nothing else happens any more, or the
shell is left without sessions. -/
def terminate (code : Int) : Action Shell Unit := do
  consolePlace.sync
  if ← Action.read (·.endsProcess) then
    Action.update fun s => { s with ended := some code }
    Action.halt
  else note (.ended code)

/-- Records a session's exit code, and takes its hook. -/
def recordCode (id : SessionId) (code : Int) : Checked (Option ExitHook) :=
  ExceptT.mk (Action.step fun s =>
    let session := s.session id
    if session.disposed ∨ session.exitCode.isSome then (.error (.hasExited session.name), s)
    else
      (.ok session.exitHook, modifySession id
        (fun session => { session with exitCode := some code, exitHook := none }) s))

/-- Takes a session out of focus, and tells whether it was. -/
def loseFocus (id : SessionId) : Action Shell Bool :=
  Action.step fun s =>
    ((s.session id).current, modifySession id (fun session => { session with current := false }) s)

def leaveRegistry (id : SessionId) : Action Shell Removal :=
  Action.step fun s =>
    let (removal, registry) := s.registry.remove id
    (removal, { s with registry })

/-- Hands the focus of a session that has left to the one after the next. -/
def handOn (index remaining : Nat) : Action Shell Unit := do
  match ← Action.read (·.registry.get? ((index + 1) % remaining)) with
  | some target => grantFocus target
  | none => pure ()

/-- Leaves the registry with an exit code. Tells whether the session was the last one. -/
def leave (id : SessionId) (code : Int) (hook? : Option ExitHook) (handsOn : Bool) :
    Action Shell Bool := do
  match hook? with
  | some hook => discard (runHook code hook).attempt
  | none => pure ()
  let wasCurrent ← loseFocus id
  match ← leaveRegistry id with
  | .last => return true
  | .removed index remaining =>
    if handsOn && wasCurrent then handOn index remaining
    return false
  | .absent => return false

/-- Ends a session. It stays in the registry unless `removes` says otherwise, and its hook is not
run then. -/
def finish (id : SessionId) (code : Int) (removes handsOn : Bool) : Checked Unit := do
  let hook? ← recordCode id code
  if removes then
    let wasLast ← leave id code hook? handsOn
    dispose id
    if wasLast then terminate code
  else
    dispose id
    dropHook? hook?

/-- Ends a session with a code of the shell's own. -/
def exitWith (id : SessionId) (code : ReservedCode) : Checked Unit :=
  finish id code.code true true

/-- Ends a session with a code that a script chose. -/
def exit (id : SessionId) (code : Int) : Checked Unit := do
  ensureLive id
  match ExitCode.remapWarning? code with
  | some message => warning message
  | none => pure ()
  finish id (ExitCode.sanitize code) true true

def othersOf (id : SessionId) : Action Shell (List SessionId) :=
  Action.read fun s => s.registry.reverse.filter (· ≠ id)

/-- Ends every other session, the newest first, and then this one. -/
def killAll (id : SessionId) (code? : Option Int) : Checked Unit := do
  ensureLive id
  let code := code?.getD ReservedCode.killed.code
  let others ← othersOf id
  others.forM fun other => discard (caught (finish other code true false))
  finish id code true true

/-! ## Waiting -/

def addLatch : Action Shell Nat :=
  Action.step fun s => (s.latches.size, { s with latches := s.latches.push ⟨false, none⟩ })

def awaitLatch (latch : Nat) : Action Shell Unit :=
  Action.await fun s => if s.latches[latch]?.any (·.released) then some ((), s) else none

/-- The code left at a latch, or else that of the session itself. -/
def codeAt (latch : Nat) (target : SessionId) : Action Shell Int :=
  Action.read fun s =>
    ((s.latches[latch]?.bind (·.code)).or (s.session target).exitCode).getD
      ReservedCode.killed.code

/-- Waits until a session has exited, and answers its code. `extra` is done with the code first. -/
def awaitExit (target : SessionId) (extra : ExitHook) : Checked Int := do
  let me ← currentId
  let session ← getSession target
  if session.owner = some me then throw (.selfWait session.name)
  if ← isUiThread then throw (.mayNotBlock session.name)
  let latch ← addLatch
  match ← caught (setExitHook target (.wake latch extra)) with
  | .ok () => awaitLatch latch
  | .error (.hasExited _) => pure ()
  | .error e => throw e
  codeAt latch target

end SessionShell.Shell
