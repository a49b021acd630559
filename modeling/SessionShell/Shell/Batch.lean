import SessionShell.Shell.Starting

/-!
Batches. A session that runs a batch forks a child for each target: a script, or a language to use
interactively. The code of each child comes back through its exit hook and is folded into one code
for the batch.
-/

namespace SessionShell

namespace Batch

/-- The code of a batch when another child's code is added to it. -/
def fold (lastCode : Bool) (aggregate code : Int) : Int :=
  if lastCode || code ≠ 0 then code else aggregate

/-- How long a batch waits for a code before it looks after its children, in milliseconds. -/
def poll : Nat := 100

/-- How long a batch waits for its children to be gone before it looks again. -/
def lingerStep : Nat := 5

end Batch

namespace Shell

def addChannel : Action Shell Nat :=
  Action.step fun s => (s.channels.size, { s with channels := s.channels.push ⟨[], 1⟩ })

def addSender (channel : Nat) : Action Shell Unit :=
  Action.update (modifyChannel channel fun c => { c with senders := c.senders + 1 })

def takeCode? (channel : Nat) (s : Shell) : Option ((String × Int) × Shell) :=
  match s.channels[channel]? with
  | some ⟨next :: queue, senders⟩ =>
    some (next, { s with channels := s.channels.setIfInBounds channel ⟨queue, senders⟩ })
  | _ => none

def isClosed (channel : Nat) (s : Shell) : Bool :=
  s.channels[channel]?.all fun c => c.queue.isEmpty && c.senders = 0

/-- What a batch gets when it waits for a code. -/
inductive Received where
  | code (label : String) (code : Int)
  | closed
  | nothing
  deriving DecidableEq, Repr

def receive (channel : Nat) : Action Shell Received := do
  let result ← worldPlace.awaitFor Batch.poll fun s =>
    match takeCode? channel s with
    | some ((label, code), s) => some (Received.code label code, s)
    | none => if isClosed channel s then some (.closed, s) else none
  return result.getD .nothing

def takeCodes (channel : Nat) : Action Shell (List (String × Int)) :=
  Action.step fun s =>
    ((s.channels[channel]?.elim [] (·.queue)),
      modifyChannel channel (fun c => { c with queue := [] }) s)

def record (host : SessionId) (run : BatchRun) (label : String) (code : Int) :
    Action Shell BatchRun := do
  let settings ← getSettings
  if settings.batch.messages then
    sayLine host (label ++ ": " ++ ExitCode.describe code)
  return { run with code := Batch.fold settings.batch.lastCode run.code code }

def recordAll (host : SessionId) (run : BatchRun) (codes : List (String × Int)) :
    Action Shell BatchRun :=
  codes.foldlM (fun run (label, code) => record host run label code) run

def giveFocus (host child : SessionId) : Action Shell Unit := do
  if (← getSession host).current then
    match ← indexOf child with
    | some index => discard (jumpTo host index).run
    | none => pure ()

/-- Hands focus that came back to the host to a child that can use it. -/
def refocus (host : SessionId) (run : BatchRun) : Action Shell Unit := do
  if (← getSession host).current then
    let child? ← Action.read fun s =>
      run.children.find? fun c => c.interactive && (s.session c.session).isLive
    match child? with
    | some child => giveFocus host child.session
    | none => pure ()

def anyChildLive (run : BatchRun) : Action Shell Bool :=
  Action.read fun s => run.children.any fun c => (s.session c.session).isLive

/-- Whether a target is a script. Anything that is there is, and so is what no language
answers to. -/
def isScriptTarget (target : String) : Action Shell Bool :=
  Action.read fun s => s.world.files.pathExists target || (s.languages.lookup? target).isNone

def targetOptions (target : String) (isScript : Bool) (hook : ExitHook) : ForkOptions :=
  if isScript then { script := some target, hook := some hook, after := .exit }
  else { language := some target, hook := some hook }

/-- Starts a child for a target. A target that cannot be started counts as killed. -/
def startTarget (host : SessionId) (run : BatchRun) (target : String) : Action Shell BatchRun := do
  addSender run.channel
  let isScript ← isScriptTarget target
  let options := targetOptions target isScript (.report run.channel target)
  match ← (fork host options).run with
  | .ok none => return { run with pending := run.pending + 1 }
  | .ok (some child) =>
    unless isScript do giveFocus host child
    return { run with
      pending := run.pending + 1
      children := run.children ++ [⟨child, !isScript⟩] }
  | .error e =>
    reportError ((e : Fault).context ("cannot run '" ++ target ++ "'"))
    record host run target ReservedCode.killed.code

def beginBatch (targets : List String) : Action Shell Phase := do
  return .batch ⟨targets, ← addChannel, 0, 0, []⟩

/-- Starts the next target, or waits for the codes of all when none is left. -/
def nextTarget (host : SessionId) (run : BatchRun) : Action Shell Phase := do
  match run.targets with
  | target :: targets =>
    if ← isLive host then
      let run ← startTarget host { run with targets } target
      let settings ← getSettings
      return if settings.batch.sequential then .collecting run false else .batch run
    else finishTargets run
  | [] => finishTargets run
where
  finishTargets (run : BatchRun) : Action Shell Phase := do
    Action.update (dropSender run.channel)
    return .collecting run true

/-- What follows when no more codes are waited for. -/
def collected (run : BatchRun) (last : Bool) : Phase :=
  if last then .lingering run else .batch run

/-- Waits for a code. When none comes, the batch gives up on children that are gone, and sees to the
focus of those that are not. -/
def collect (host : SessionId) (run : BatchRun) (last : Bool) : Action Shell Phase := do
  if run.pending = 0 then return collected run last
  match ← receive run.channel with
  | .code label code =>
    let run ← record host { run with pending := run.pending - 1 } label code
    return .collecting run last
  | .closed => return collected run last
  | .nothing =>
    let hostLive ← isLive host
    if hostLive && (← anyChildLive run) then
      refocus host run
      return .collecting run last
    else
      let run ← recordAll host run (← takeCodes run.channel)
      return collected { run with pending := 0 } last

end Shell

end SessionShell
