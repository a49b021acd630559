import SessionShell.Proofs.Shell.Stillness

/-!
The record of a batch.

Whatever changes by a step is noted as it is seen from outside: which children are on a thread, what
was sent to the batch and by whom, and who ended the shell. What the batch makes of a target and of
a code is noted by the batch itself.
-/

namespace SessionShell

open Action

/-- The session that runs a batch, its thread, the channel for the codes, and the targets. -/
structure BatchSite where
  host : SessionId
  thread : ThreadId
  channel : Nat
  targets : List String

namespace Batch

structure Child where
  session : SessionId
  thread : ThreadId
  label : String
  deriving DecidableEq, Repr

inductive Start where
  | child (session : SessionId)
  | missing
  | refused
  deriving DecidableEq, Repr

def labelOf : Option ExitHook → String
  | some (.report _ label) => label
  | _ => ""

end Batch

structure BatchRecord where
  launched : List Batch.Child
  sent : List (ThreadId × String × Int)
  /-- The threads of children that dropped their sender. -/
  dropped : List ThreadId
  endings : List (ThreadId × Int)
  begun : List (String × Batch.Start)
  /-- The codes that were counted in, in this order. -/
  recorded : List (String × Int)
  /-- The code of the batch, when it has come to its end with its host alive. -/
  returned : Option Int
  /-- Whether the exit of the host is through after that. -/
  closed : Bool
  deriving DecidableEq, Repr

namespace BatchRecord

def new : BatchRecord :=
  ⟨[], [], [], [], [], [], none, false⟩

def begin (r : BatchRecord) (target : String) (start : Batch.Start) : BatchRecord :=
  { r with begun := r.begun ++ [(target, start)] }

def count (r : BatchRecord) (label : String) (code : Int) : BatchRecord :=
  { r with recorded := r.recorded ++ [(label, code)] }

def finish (r : BatchRecord) (code : Int) : BatchRecord :=
  { r with returned := some code }

def close (r : BatchRecord) : BatchRecord :=
  { r with closed := true }

def books (r : BatchRecord) :
    (List (String × Batch.Start) × List (String × Int)) × Option Int × Bool × List
    (ThreadId × Int) :=
  ((r.begun, r.recorded), r.returned, r.closed, r.endings)

end BatchRecord

namespace Shell

def codesAt (channel : Nat) (s : Shell) : List (String × Int) :=
  s.channels[channel]?.elim [] (·.queue)

def sendersAt (channel : Nat) (s : Shell) : Nat :=
  s.channels[channel]?.elim 0 (·.senders)

def newChildren (s s' : Shell) : List Batch.Child :=
  (s'.started.drop s.started.length).filterMap fun (thread, role) =>
    match role with
    | .session id .entering => some ⟨id, thread, Batch.labelOf (s'.session id).exitHook⟩
    | _ => none

def newCodes (channel : Nat) (s s' : Shell) : List (String × Int) :=
  (codesAt channel s').drop (codesAt channel s).length

def newEndings (s s' : Shell) : List Int :=
  s'.endedCodes.drop s.endedCodes.length ++ if s'.ended = s.ended then [] else s'.ended.toList

end Shell

namespace BatchSite

open Shell

variable (b : BatchSite)

/-- Nobody but the host makes sessions, and every session is ended by its own thread: what a step is
when scripts neither fork nor kill. -/
structure Peaceful (me : ThreadId) (s s' : Shell) : Prop where
  sessions : me = b.thread ∨ s'.sessions.size = s.sessions.size
  codes : ∀ id < s.sessions.size,
    (s'.session id).exitCode = (s.session id).exitCode ∨ (s.session id).owner = some me

instance (me : ThreadId) (s s' : Shell) : Decidable (b.Peaceful me s s') :=
  decidable_of_iff (_ ∧ _) ⟨fun h => ⟨h.1, h.2⟩, fun h => ⟨h.sessions, h.codes⟩⟩

def notes (me : ThreadId) (s s' : Shell) (r : BatchRecord) : BatchRecord where
  launched := r.launched ++ newChildren s s'
  sent := r.sent ++ (newCodes b.channel s s').map (me, ·)
  dropped :=
    r.dropped ++ if me ≠ b.thread ∧ sendersAt b.channel s' < sendersAt b.channel s then [me] else []
  endings := r.endings ++ (newEndings s s').map (me, ·)
  begun := r.begun
  recorded := r.recorded
  returned := r.returned
  closed := r.closed

def observer : Observer Shell BatchRecord where
  allowed me s s' := decide (b.Peaceful me s s')
  notes := b.notes

/-! ## The batch with its record -/

variable {α : Type}

abbrev observe (p : Action Shell α) : Action (Shell × BatchRecord) α :=
  b.observer.observe p

def recordNoted (run : BatchRun) (label : String) (code : Int) :
    Action (Shell × BatchRecord) BatchRun := do
  Action.record (·.count label code)
  b.observe (record b.host run label code)

def recordAllNoted (run : BatchRun) (codes : List (String × Int)) :
    Action (Shell × BatchRecord) BatchRun :=
  codes.foldlM (fun run (label, code) => b.recordNoted run label code) run

def startTargetNoted (run : BatchRun) (target : String) :
    Action (Shell × BatchRecord) BatchRun := do
  b.observe (addSender run.channel)
  let isScript ← b.observe (isScriptTarget target)
  let options := targetOptions target isScript (.report run.channel target)
  match ← b.observe (fork b.host options).run with
  | .ok none =>
    Action.record (·.begin target .missing)
    return { run with pending := run.pending + 1 }
  | .ok (some child) =>
    Action.record (·.begin target (.child child))
    unless isScript do b.observe (giveFocus b.host child)
    return { run with
      pending := run.pending + 1
      children := run.children ++ [⟨child, !isScript⟩] }
  | .error e =>
    Action.record (·.begin target .refused)
    b.observe (reportError ((e : Fault).context ("cannot run '" ++ target ++ "'")))
    b.recordNoted run target ReservedCode.killed.code

def nextTargetNoted (run : BatchRun) : Action (Shell × BatchRecord) Phase := do
  match run.targets with
  | target :: targets =>
    if ← b.observe (isLive b.host) then
      let run ← b.startTargetNoted { run with targets } target
      let settings ← b.observe getSettings
      return if settings.batch.sequential then .collecting run false else .batch run
    else b.observe (nextTarget.finishTargets run)
  | [] => b.observe (nextTarget.finishTargets run)

def collectNoted (run : BatchRun) (last : Bool) : Action (Shell × BatchRecord) Phase := do
  if run.pending = 0 then return collected run last
  match ← b.observe (receive run.channel) with
  | .code label code =>
    let run ← b.recordNoted { run with pending := run.pending - 1 } label code
    return .collecting run last
  | .closed => return collected run last
  | .nothing =>
    let hostLive ← b.observe (isLive b.host)
    if hostLive && (← b.observe (anyChildLive run)) then
      b.observe (refocus b.host run)
      return .collecting run last
    else
      let run ← b.recordAllNoted run (← b.observe (takeCodes run.channel))
      return collected { run with pending := 0 } last

def finishBatchNoted (run : BatchRun) : Action (Shell × BatchRecord) Phase := do
  if ← b.observe (isLive b.host) then
    Action.record (·.finish run.code)
    b.observe (discard (finish b.host run.code true true).run)
    Action.record (·.close)
  b.observe (rest b.host)

def lingerNoted (run : BatchRun) : Action (Shell × BatchRecord) Phase := do
  let hostLive ← b.observe (isLive b.host)
  if hostLive && (← b.observe (anyChildLive run)) then
    b.observe (worldPlace.sleep Batch.lingerStep)
    return .lingering run
  else b.finishBatchNoted run

def advanceNoted : Phase → Action (Shell × BatchRecord) (Option Phase)
  | .batch run => do return some (← b.nextTargetNoted run)
  | .collecting run last => do return some (← b.collectNoted run last)
  | .lingering run => do return some (← b.lingerNoted run)
  | phase => b.observe (advance b.host phase)

/-- The life of the shell with the record of a batch. -/
def recorded : Life (Shell × BatchRecord) Role where
  program
    | .session id phase =>
      if id = b.host then do return (← b.advanceNoted phase).map (Role.session id)
      else b.observe (program (.session id phase))
    | role => b.observe (program role)
  takeStarted γ := ((life.takeStarted γ.1).1, ((life.takeStarted γ.1).2, γ.2))
  isOver γ := life.isOver γ.1

/-! ## The batch without its record -/

variable {b}

abbrev FollowsPeacefully (b : BatchSite) (p' : Action (Shell × BatchRecord) α)
    (p : Action Shell α) :
    Prop :=
  Follows b.Peaceful p' p

theorem follows_observed (p : Action Shell α) : b.FollowsPeacefully (b.observe p) p :=
  (Observer.follows_observe p).mono fun _ _ _ => decide_eq_true

theorem follows_pure (a : α) : b.FollowsPeacefully (pure a) (pure a) :=
  .done a

theorem follows_recordNoted (run : BatchRun) (label : String) (code : Int) :
    b.FollowsPeacefully (b.recordNoted run label code) (record b.host run label code) :=
  .note (follows_observed _)

theorem follows_recordAllNoted (run : BatchRun) (codes : List (String × Int)) :
    b.FollowsPeacefully (b.recordAllNoted run codes) (recordAll b.host run codes) := by
  induction codes generalizing run with
  | nil => exact follows_pure run
  | cons next codes ih => exact (follows_recordNoted run next.1 next.2).bind fun run => ih run

theorem follows_startTargetNoted (run : BatchRun) (target : String) :
    b.FollowsPeacefully (b.startTargetNoted run target) (startTarget b.host run target) := by
  refine (follows_observed _).bind fun _ => (follows_observed _).bind fun isScript =>
    (follows_observed _).bind fun result => ?_
  cases result with
  | error e => exact .note ((follows_observed _).bind fun _ => follows_recordNoted _ _ _)
  | ok child? =>
    cases child? with
    | none => exact .note (follows_pure _)
    | some child =>
      cases isScript with
      | true => exact .note (follows_pure _)
      | false => exact .note ((follows_observed _).bind fun _ => follows_pure _)

theorem follows_nextTargetNoted (run : BatchRun) :
    b.FollowsPeacefully (b.nextTargetNoted run) (nextTarget b.host run) := by
  obtain ⟨targets, channel, pending, code, children⟩ := run
  cases targets with
  | nil => exact follows_observed _
  | cons target targets =>
    refine (follows_observed _).bind fun live => ?_
    cases live with
    | false => exact follows_observed _
    | true =>
      exact (follows_startTargetNoted _ target).bind fun _ =>
        (follows_observed _).bind fun _ => follows_pure _

theorem follows_collectNoted (run : BatchRun) (last : Bool) :
    b.FollowsPeacefully (b.collectNoted run last) (collect b.host run last) := by
  unfold collectNoted collect
  split
  · exact follows_pure _
  refine (follows_observed _).bind fun received => ?_
  cases received with
  | code label code => exact (follows_recordNoted _ label code).bind fun _ => follows_pure _
  | closed => exact follows_pure _
  | nothing =>
    refine (follows_observed _).bind fun hostLive => (follows_observed _).bind fun childLive => ?_
    cases hostLive && childLive with
    | true => exact (follows_observed _).bind fun _ => follows_pure _
    | false =>
      exact (follows_observed _).bind fun codes =>
        (follows_recordAllNoted run codes).bind fun _ => follows_pure _

theorem follows_finishBatchNoted (run : BatchRun) :
    b.FollowsPeacefully (b.finishBatchNoted run) (finishBatch b.host run) := by
  refine (follows_observed _).bind fun live => ?_
  cases live with
  | false => exact follows_observed _
  | true => exact .note ((follows_observed _).bind fun _ => .note (follows_observed _))

theorem follows_lingerNoted (run : BatchRun) :
    b.FollowsPeacefully (b.lingerNoted run) (linger b.host run) := by
  refine (follows_observed _).bind fun hostLive => (follows_observed _).bind fun childLive => ?_
  cases hostLive && childLive with
  | true => exact (follows_observed _).bind fun _ => follows_pure _
  | false => exact follows_finishBatchNoted run

theorem follows_recorded :
    b.recorded.Follows life b.Peaceful := by
  refine ⟨fun role => ?_, fun _ _ => rfl⟩
  cases role with
  | stream name => exact follows_observed _
  | compiler => exact follows_observed _
  | session id phase =>
    simp only [recorded]
    split
    · next hid =>
      subst hid
      refine Follows.bind ?_ fun _ => follows_pure _
      cases phase with
      | batch run => exact (follows_nextTargetNoted run).bind fun _ => follows_pure _
      | collecting run last => exact (follows_collectNoted run last).bind fun _ => follows_pure _
      | lingering run => exact (follows_lingerNoted run).bind fun _ => follows_pure _
      | entering => exact follows_observed _
      | idle => exact follows_observed _
      | reading statement => exact follows_observed _
    · exact follows_observed _

end BatchSite

end SessionShell
