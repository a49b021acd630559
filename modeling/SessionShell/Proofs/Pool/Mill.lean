import SessionShell.Proofs.Action.Observed
import SessionShell.Proofs.Pool.Tally
import SessionShell.Proofs.Team.Pact
import SessionShell.Proofs.Team.Shadow

/-!
A pool at work, with any number of threads that use it.

A thread submits jobs, cancels them and waits for them. What it does beside the pool is its own
affair, as long as it leaves the pool alone. So is what a listener does that hears of a job: it may
use the pool as any other thread does, or crash.
-/

namespace SessionShell

open Action

variable {σ ν κ ρ α β : Type} {allowed : ThreadId → σ → σ → Prop}

/-! ## What a thread can do -/

/-- Where a pool is found, how its workers live, and which thread is started next. -/
structure PoolSite (σ κ ρ : Type) where
  slot : PoolAt σ κ
  life : Life σ ρ
  worker : ρ
  next : σ → ThreadId

namespace PoolSite

variable (site : PoolSite σ κ ρ)

def Spares (s s' : σ) : Prop :=
  (site.slot.get s').core = (site.slot.get s).core ∧
    (site.life.pending s' = site.life.pending s ∧ site.next s' = site.next s ∨
      ∃ role, role ≠ site.worker ∧ site.next s' = site.next s + 1 ∧
        site.life.pending s' = site.life.pending s ++ [(site.next s, role)])

theorem spares_refl (s : σ) : site.Spares s s :=
  ⟨rfl, .inl ⟨rfl, rfl⟩⟩

end PoolSite

inductive PoolCall (site : PoolSite σ κ ρ) where
  | submit (task : CompileTask) (listener : κ)
  | cancel (id : JobId)
  | await (id : JobId)
  | own {α : Type} (p : Action σ α) (h : Within site.Spares p)

namespace PoolCall

variable {site : PoolSite σ κ ρ}

def Reply : PoolCall site → Type
  | .submit .. => JobId
  | .cancel _ => Unit
  | .await _ => Outcome
  | @own _ _ _ _ α _ _ => α

def plain : (call : PoolCall site) → Action σ call.Reply
  | .submit task listener => do
    let id ← site.slot.add task listener
    site.slot.submit id
    return id
  | .cancel id => site.slot.modify (·.cancel id)
  | .await id => site.slot.awaitOutcome id
  | .own p _ => p

def addNoted (site : PoolSite σ κ ρ) (task : CompileTask) (listener : κ) :
    Action (σ × PoolRecord) JobId :=
  stepNoted (fun s =>
      let (id, p) := (site.slot.get s).add task listener
      (id, site.slot.set p s))
    fun me _ id r => r.make me id

def startNoted (site : PoolSite σ κ ρ) : Action (σ × PoolRecord) Unit :=
  stepNoted (fun s =>
      let p := site.slot.get s
      ((), if p.started then s
      else (List.range p.size).foldl (fun s _ => site.slot.launch s)
        (site.slot.set { p with started := true } s)))
    fun _ s _ r =>
      let p := site.slot.get s
      if p.started then r else r.hire (List.range' (site.next s) p.size)

def enqueueNoted (site : PoolSite σ κ ρ) (id : JobId) : Action (σ × PoolRecord) Unit :=
  stepNoted (fun s => ((), site.slot.set ((site.slot.get s).enqueue id) s)) fun me _ _ r =>
    r.submit me id

def cancelNoted (site : PoolSite σ κ ρ) (id : JobId) : Action (σ × PoolRecord) Unit :=
  stepNoted (fun s => ((), site.slot.set ((site.slot.get s).cancel id) s))
    fun _ s _ r => r.cancel (site.slot.get s) id

def awaitNoted (site : PoolSite σ κ ρ) (id : JobId) : Action (σ × PoolRecord) Outcome :=
  Action.awaitNoted (fun s => ((site.slot.get s).outcome? id).map (·, s))
    fun _ _ outcome r => r.note (.awaited id outcome)

def recorded : (call : PoolCall site) → Action (σ × PoolRecord) call.Reply
  | .submit task listener => do
    let id ← addNoted site task listener
    startNoted site
    enqueueNoted site id
    return id
  | .cancel id => cancelNoted site id
  | .await id => awaitNoted site id
  | .own p _ => silent p

theorem follows_cancelNoted (id : JobId) :
    Follows allowed (cancelNoted site id) (site.slot.modify (·.cancel id)) :=
  follows_stepNoted _ _

theorem follows_awaitNoted (id : JobId) :
    Follows allowed (awaitNoted site id) (site.slot.awaitOutcome id) :=
  Action.follows_awaitNoted _ _

theorem follows_recorded (call : PoolCall site) : Follows allowed call.recorded call.plain := by
  cases call with
  | submit task listener =>
    have hstart : Follows allowed (startNoted site) site.slot.start := follows_stepNoted _ _
    have henqueue : ∀ id, Follows allowed (enqueueNoted site id)
        (site.slot.modify (·.enqueue id)) :=
      fun _ => follows_stepNoted _ _
    refine (follows_stepNoted _ _).bind fun id => ?_
    rw [PoolAt.submit, bind_assoc]
    exact hstart.bind fun _ => (henqueue id).bind fun _ => .done id
  | cancel id => exact follows_cancelNoted id
  | await id => exact follows_awaitNoted id
  | own p h => exact follows_silent p

end PoolCall

abbrev PoolErrand (site : PoolSite σ κ ρ) (α : Type) :=
  Program (PoolCall site) PoolCall.Reply α

namespace PoolErrand

variable {site : PoolSite σ κ ρ}

def plain (errand : PoolErrand site α) : Action σ α :=
  errand.expand PoolCall.plain

def recorded (errand : PoolErrand site α) : Action (σ × PoolRecord) α :=
  errand.expand PoolCall.recorded

theorem follows_recorded (errand : PoolErrand site α) :
    Follows allowed errand.recorded errand.plain :=
  follows_expand errand PoolCall.follows_recorded

end PoolErrand

/-! ## What a worker does -/

namespace CompileJob

def close (job : CompileJob) (throttle : Throttle) :
    Except Fault String → JobProgram (Outcome × CompileJob)
  | .ok output => do
    let job ← job.conclude .succeeded (job.task.doneMessage output) throttle
    notify .succeed
    return (.succeeded, job)
  | .error fault => do
    if (← isCancelled) || fault.isCancelled then
      let job ← job.conclude .aborted (CompileTask.abortMessage fault) throttle
      notify (.abort fault)
      return (.aborted, job)
    else
      notify (.fail fault)
      let job ← job.conclude .failed (CompileTask.abortMessage fault) throttle
      return (.failed, job)

def begun (job : CompileJob) : Bool → JobProgram (Outcome × CompileJob)
  | true => job.close job.throttle (.error (Fault.of .cancelled))
  | false => do
    let (result?, throttle) ← carryOut job.title job.task.build.run job.throttle
    job.close throttle (result?.getD (.error (Fault.plain "build panicked")))

variable {job : CompileJob}

theorem run_eq (h : job.outcome = none) : job.run = (isCancelled >>= job.begun) := by
  unfold run result
  rw [h]
  simp only [bind_assoc]
  refine congrArg (isCancelled >>= ·) (funext fun cancelled => ?_)
  cases cancelled with
  | true => rfl
  | false =>
    simp only [Bool.false_eq_true, if_false, bind_assoc, pure_bind, begun]
    refine congrArg (carryOut job.title job.task.build.run job.throttle >>= ·) (funext fun r => ?_)
    cases r.1.getD (.error (Fault.plain "build panicked")) <;> rfl

theorem asks_begun (cancelled : Bool) :
    (job.begun cancelled).Asks (fun _ => True) fun r => cancelled = true → r.1 = .aborted := by
  have hany : ∀ {α : Type} (p : JobProgram α), p.Asks (fun _ => True) fun _ => True :=
    Program.asks_anything
  cases cancelled with
  | false => exact (hany _).mono fun _ _ h => by cases h
  | true =>
    refine (hany isCancelled).bind fun cancelled _ => ?_
    have hfault : (Fault.of .cancelled).isCancelled = true := rfl
    rw [hfault, Bool.or_true, if_pos rfl]
    exact (hany _).bind fun _ _ => (hany _).bind fun _ _ _ => rfl

end CompileJob

/-- A pool, what is heard of its jobs, and the roles of all threads that are no workers. -/
structure Mill (σ κ ρ : Type) extends PoolSite σ κ ρ where
  hear : JobId → JobEvent → PoolErrand toPoolSite Unit
  role : {k : ρ // k ≠ worker} → PoolErrand toPoolSite (Option {k : ρ // k ≠ worker})

namespace Mill

/-- The roles do what they are said to do, and the pool is kept in a place of its own. -/
structure Lawful (w : Mill σ κ ρ) : Prop where
  get_set : ∀ p s, w.slot.get (w.slot.set p s) = p
  next_set : ∀ p s, w.next (w.slot.set p s) = w.next s
  pending_set : ∀ p s, w.life.pending (w.slot.set p s) = w.life.pending s
  spares_world : ∀ world s, w.Spares s (w.slot.world.set world s)
  get_launch : ∀ s, w.slot.get (w.slot.launch s) = w.slot.get s
  next_launch : ∀ s, w.next (w.slot.launch s) = w.next s + 1
  pending_launch : ∀ s,
    w.life.pending (w.slot.launch s) = w.life.pending s ++ [(w.next s, w.worker)]
  get_adopt : ∀ s, w.slot.get (w.life.takeStarted s).2 = w.slot.get s
  next_adopt : ∀ s, w.next (w.life.takeStarted s).2 = w.next s
  pending_adopt : ∀ s, w.life.pending (w.life.takeStarted s).2 = []
  notify : ∀ id event, w.slot.notify id event = (w.hear id event).plain
  worker : w.life.program w.worker = (do
    w.slot.work
    return some w.worker)
  others : ∀ k, w.life.program k.val = (do return (← (w.role k).plain).map Subtype.val)

variable (w : Mill σ κ ρ)

def answerRecorded (id : JobId) : (c : JobCall) → Action (σ × PoolRecord) c.Reply
  | .now => silent w.slot.world.now
  | .work .isCancelled => silent (w.slot.answerWork id .isCancelled)
  | .work .cancel => PoolCall.cancelNoted w.toPoolSite id
  | .work (.sleep ms) => silent (w.slot.world.sleep ms)
  | .work (.gate name) => silent (w.slot.world.awaitGate name)
  | .work (.file call) => silent (w.slot.world.file call)
  | .notify event => onCrash (·.note (.panicked id)) (w.hear id event).recorded

def checkNoted (id : JobId) : Action (σ × PoolRecord) Bool :=
  stepNoted (fun s => ((w.slot.get s).isCancelled id, s))
    fun _ _ cancelled r => if cancelled then r else r.note (.entered id)

def jobRecorded (id : JobId) (job : CompileJob) : Action (σ × PoolRecord) (Outcome × CompileJob) :=
  match job.outcome with
  | some outcome => pure (outcome, job)
  | none => w.checkNoted id >>= fun cancelled => (job.begun cancelled).expand (w.answerRecorded id)

def runRecorded (id : JobId) : Action (σ × PoolRecord) Outcome := do
  match ← silent (Action.read fun s => (w.slot.get s).jobs[id]?) with
  | none => return .aborted
  | some record =>
    let (outcome, job) ← w.jobRecorded id record.job
    silent (w.slot.modify (·.modifyJob id fun r => { r with job }))
    return outcome

def takeNoted : Action (σ × PoolRecord) JobId :=
  awaitNoted (fun s => (w.slot.get s).take?.map fun (id, p) => (id, w.slot.set p s))
    fun me _ id r => r.take me id

def finishNoted (id : JobId) (outcome? : Option Outcome) : Action (σ × PoolRecord) Unit :=
  stepNoted (fun s => ((), w.slot.set ((w.slot.get s).modifyJob id fun r =>
      { r with outcome := some (outcome?.getD .failed) }) s))
    fun me _ _ r => r.finish me id outcome?

def workRecorded : Action (σ × PoolRecord) Unit := do
  let id ← w.takeNoted
  let outcome? ← (w.runRecorded id).attempt
  w.finishNoted id outcome?

/-- The same life with a record beside the state. -/
def recorded [DecidableEq ρ] : Life (σ × PoolRecord) ρ where
  program k :=
    if h : k = w.worker then do
      w.workRecorded
      return some w.worker
    else do return (← (w.role ⟨k, h⟩).recorded).map Subtype.val
  takeStarted γ := ((w.life.takeStarted γ.1).1, ((w.life.takeStarted γ.1).2, γ.2))
  isOver γ := w.life.isOver γ.1

/-! ## Without the record -/

variable {w}

theorem follows_answerRecorded (hw : w.Lawful) (id : JobId) (call : JobCall) :
    Follows allowed (w.answerRecorded id call) (w.slot.answer id call) := by
  cases call with
  | now => exact follows_silent _
  | notify event =>
    have hnotify : w.slot.answer id (.notify event) = (w.hear id event).plain := hw.notify id event
    rw [hnotify]
    exact (w.hear id event).follows_recorded.onCrash
  | work call =>
    cases call with
    | isCancelled => exact follows_silent _
    | cancel => exact PoolCall.follows_cancelNoted id
    | sleep ms => exact follows_silent _
    | gate name => exact follows_silent _
    | file call => exact follows_silent _

theorem follows_checkNoted (id : JobId) :
    Follows allowed (w.checkNoted id) (w.slot.answer id (.work .isCancelled)) :=
  follows_stepNoted _ _

theorem follows_jobRecorded (hw : w.Lawful) (id : JobId) (job : CompileJob) :
    Follows allowed (w.jobRecorded id job) (job.run.expand (w.slot.answer id)) := by
  unfold jobRecorded
  cases houtcome : job.outcome with
  | some outcome =>
    have hrun : job.run = pure (outcome, job) := by
      unfold CompileJob.run
      rw [houtcome]
    rw [hrun]
    exact .done _
  | none =>
    rw [CompileJob.run_eq houtcome]
    exact (follows_checkNoted id).bind fun cancelled =>
      follows_expand _ (follows_answerRecorded hw id)

theorem follows_runRecorded (hw : w.Lawful) (id : JobId) :
    Follows allowed (w.runRecorded id) (w.slot.run id) := by
  refine (follows_silent _).bind fun record? => ?_
  cases record? with
  | none => exact .done _
  | some record =>
    exact (follows_jobRecorded hw id record.job).bind fun result =>
      (follows_silent _).bind fun _ => .done _

theorem follows_workRecorded (hw : w.Lawful) : Follows allowed w.workRecorded w.slot.work :=
  (follows_awaitNoted _ _).bind fun id => (follows_runRecorded hw id).attempt.bind fun _ =>
    follows_stepNoted _ _

variable [DecidableEq ρ]

theorem follows_recorded (hw : w.Lawful) : w.recorded.Follows w.life fun _ _ _ => True := by
  constructor
  · intro role
    by_cases hrole : role = w.worker
    · subst hrole
      rw [hw.worker]
      simp only [recorded, dif_pos]
      exact (follows_workRecorded hw).bind fun _ => .done _
    · have hother := hw.others ⟨role, hrole⟩
      simp only at hother
      rw [hother]
      simp only [recorded, dif_neg hrole]
      exact (w.role ⟨role, hrole⟩).follows_recorded.bind fun _ => .done _
  · exact fun _ _ => rfl

end Mill

end SessionShell
