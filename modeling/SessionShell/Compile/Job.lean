import SessionShell.Compile.Build
import SessionShell.Compile.Throttle
import SessionShell.ExitCode

/-!
Jobs. A job runs its build once, delivers the build's reports in batches, and announces its outcome
exactly once. Running it again only tells the outcome.
-/

namespace SessionShell

inductive Outcome where
  | succeeded
  | failed
  | aborted
  deriving DecidableEq, Repr, Inhabited

/-- The code a session ends with when a job ends it. -/
def Outcome.code : Outcome → ReservedCode
  | .succeeded => .success
  | .failed => .compileFail
  | .aborted => .compileAbort

inductive JobEvent where
  | status (batch : List Progress)
  | fail (fault : Fault)
  /-- The job ended with a fault that was not announced before. -/
  | abort (fault : Fault)
  | succeed
  deriving DecidableEq, Repr

inductive JobCall where
  | now
  | work (call : WorkCall)
  | notify (event : JobEvent)
  deriving DecidableEq, Repr

def JobCall.Reply : JobCall → Type
  | .now => Nat
  | .work call => call.Reply
  | .notify _ => Unit

abbrev JobProgram := Program JobCall JobCall.Reply

structure CompileJob where
  task : CompileTask
  throttle : Throttle
  outcome : Option Outcome

namespace CompileJob

/-- The least time between two batches, in milliseconds. -/
def interval : Nat := 340

def new (task : CompileTask) : CompileJob :=
  ⟨task, .new interval, none⟩

def title (job : CompileJob) : String :=
  job.task.title

def notify (event : JobEvent) : JobProgram Unit :=
  Program.call (JobCall.notify event)

def isCancelled : JobProgram Bool :=
  Program.call (JobCall.work .isCancelled)

def report (title message : String) (share : Option (UInt64 × UInt64)) : Progress :=
  { Progress.new title message with value := share.map (·.1), max := share.map (·.2) }

/-- Buffers a report, and delivers a batch if one is due. -/
def post (title message : String) (share : Option (UInt64 × UInt64)) (throttle : Throttle) :
    JobProgram Throttle := do
  let now ← Program.call JobCall.now
  let (batch?, throttle) := throttle.offer now (report title message share)
  match batch? with
  | some batch => notify (.status batch)
  | none => pure ()
  return throttle

/-- Carries out a build. One that crashes has no result. -/
def carryOut {α : Type} (title : String) :
    Program BuildCall BuildCall.Reply α → Throttle → JobProgram (Option α × Throttle)
  | .done a, throttle => .done (some a, throttle)
  | .crash, throttle => .done (none, throttle)
  | .ask (.post message share) next, throttle =>
    (post title message share throttle).bind fun throttle => carryOut title (next ()) throttle
  | .ask (.work call) next, throttle =>
    .ask (JobCall.work call) fun reply => carryOut title (next reply) throttle

/-- The result of the build, which is not entered when the job was cancelled before. -/
def result (job : CompileJob) : JobProgram (Except Fault String × Throttle) := do
  if ← isCancelled then
    return (.error (Fault.of .cancelled), job.throttle)
  let (result?, throttle) ← carryOut job.title job.task.build.run job.throttle
  return (result?.getD (.error (Fault.plain "build panicked")), throttle)

/-- Delivers what is still buffered, with the job's last report behind it. -/
def conclude (job : CompileJob) (outcome : Outcome) (message : String) (throttle : Throttle) :
    JobProgram CompileJob := do
  let now ← Program.call JobCall.now
  let (batch, throttle) := throttle.drain now
  notify (.status (batch ++ [{ Progress.new job.title message with terminal := true }]))
  return { job with throttle, outcome := some outcome }

/-- Runs the job. A fault is a failure unless the job was cancelled by then. -/
def run (job : CompileJob) : JobProgram (Outcome × CompileJob) := do
  match job.outcome with
  | some outcome => return (outcome, job)
  | none =>
    match ← job.result with
    | (.ok output, throttle) =>
      let job ← job.conclude .succeeded (job.task.doneMessage output) throttle
      notify .succeed
      return (.succeeded, job)
    | (.error fault, throttle) =>
      if (← isCancelled) || fault.isCancelled then
        let job ← job.conclude .aborted (CompileTask.abortMessage fault) throttle
        notify (.abort fault)
        return (.aborted, job)
      else
        notify (.fail fault)
        let job ← job.conclude .failed (CompileTask.abortMessage fault) throttle
        return (.failed, job)

end CompileJob

end SessionShell
