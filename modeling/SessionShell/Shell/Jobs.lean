import SessionShell.Compile.RawCopy
import SessionShell.Shell.Ending

/-!
Compile jobs of sessions: what a session hears of them, the jobs it has in the background, and the
one that is its main task.
-/

namespace SessionShell.Shell

/-! ## Listening -/

def listenerOf (job : JobId) : Action Shell SessionListener :=
  Action.read fun s => s.pool.jobs[job]?.elim default (·.listener)

def markFailed (job : JobId) : Action Shell Unit :=
  Action.update fun s =>
    { s with pool := s.pool.modifyJob job fun r => { r with listener.failed := true } }

def endWith (listener : SessionListener) (code : ReservedCode) : Action Shell Unit :=
  if listener.endsSession then discard (exitWith listener.session code).run else pure ()

def reportIfLive (listener : SessionListener) (fault : Fault) : Action Shell Unit := do
  if ← isLive listener.session then reportError fault

/-- Reports without a share are always shown, the others when the settings say so. -/
def isShown (settings : Settings) (p : Progress) : Bool :=
  settings.compile.chatty || !p.isDeterminate

def hearStatus (listener : SessionListener) (batch : List Progress) : Action Shell Unit := do
  if listener.monitored then note (.progress batch)
  let settings ← getSettings
  if ← isLive listener.session then
    (batch.filter (isShown settings)).forM fun p => sayLine listener.session p.text
  if listener.failed && batch.any (·.terminal) then endWith listener Outcome.failed.code

def hear (job : JobId) : JobEvent → Action Shell Unit
  | .status batch => do hearStatus (← listenerOf job) batch
  | .fail fault => do
    markFailed job
    reportIfLive (← listenerOf job) fault
  | .abort fault => do
    let listener ← listenerOf job
    reportIfLive listener fault
    endWith listener Outcome.aborted.code
  | .succeed => do endWith (← listenerOf job) Outcome.succeeded.code

def poolPlace : PoolAt Shell SessionListener where
  get s := s.pool
  set pool s := { s with pool }
  world := worldPlace
  launch := launch .service .compiler
  notify := hear

/-! ## Background jobs -/

def unknownTarget (name : String) : Fault :=
  Fault.plain ("unknown compile target '" ++ name ++ "'")

def addJob (task : CompileTask) (listener : SessionListener) : Action Shell JobId :=
  poolPlace.add task listener

def keepJob (id : SessionId) (job : JobId) : Action Shell Nat :=
  Action.step fun s =>
    ((s.session id).jobs.length,
      modifySession id (fun session => { session with jobs := session.jobs ++ [job] }) s)

/-- Compiles a file in the background, and tells the index of the job. -/
def compile (id : SessionId) (source output target : String) (options : TargetOptions) :
    ExceptT Fault (Action Shell) Nat := do
  let session ← getSession id
  if session.disposed then throw (ShellError.hasExited session.name : Fault)
  match CompileTarget.ofName? target with
  | none => throw (unknownTarget target)
  | some target =>
    let job ← addJob (target.task source output options) ⟨id, false, false, false⟩
    poolPlace.submit job
    keepJob id job

def jobAt (id : SessionId) (index : Nat) : Checked JobId := do
  ensureLive id
  let session ← getSession id
  match session.jobs[index]? with
  | some job => return job
  | none => throw (.indexOutOfRange index session.jobs.length)

def cancelAt (id : SessionId) (index : Nat) : Checked Unit := do
  let job ← jobAt id index
  Action.update (cancelJob job)

def isFinished (job : JobId) : Action Shell Bool :=
  Action.read fun s => s.pool.isFinished job

/-- Waits for a background job, and answers the code of its outcome. -/
def join (id : SessionId) (index : Nat) : Checked Int := do
  let job ← jobAt id index
  let finished ← isFinished job
  if (← isUiThread) && !finished then
    let session ← getSession id
    throw (.mayNotBlock session.name)
  let outcome ← poolPlace.awaitOutcome job
  return outcome.code.code

def jobLines (id : SessionId) : Action Shell String :=
  Action.read fun s =>
    "\n".intercalate ((s.session id).jobs.zipIdx.map fun (job, index) =>
      "[" ++ toString index ++ "] " ++ s.pool.title job ++
        if s.pool.isFinished job then " finished" else " running")

/-! ## Jobs as main tasks -/

/-- Has a session run a job as its main task, and end with it. -/
def setCompile (id : SessionId) (task : CompileTask) (monitored cancelled : Bool) :
    Checked Unit := do
  let job ← addJob task ⟨id, monitored, true, false⟩
  if cancelled then Action.update (cancelJob job)
  setMain id (.compile job)

def setCompiling (id : SessionId) (job? : Option JobId) : Action Shell Unit :=
  updateSession id fun session => { session with compiling := job? }

def runCompile (id : SessionId) (job : JobId) : Action Shell Unit := do
  setCompiling id (some job)
  discard (poolPlace.run job)
  setCompiling id none

end SessionShell.Shell
